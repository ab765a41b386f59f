import OpenKey.Storage.Engine

/-!
# What the storage engine holds

Facts about the engine over a backend that does not fail, in terms of what can be read back. An
operation either saves one entry, or leaves every entry that is not a credential or the large
blobs as it was. The credentials are filed under their own ids, whatever the backend does.
-/

namespace OpenKey

open Std

set_option autoImplicit false

theorem kvMap_getElem?_insert (m : KvMap) (key key' : String) (v : Bytes) :
    (m.insert key v)[key']? = if key' = key then some v else m[key']? :=
  getElem?_insert_ite m key key' v

theorem kvMap_getElem?_erase (m : KvMap) (key key' : String) :
    (m.erase key)[key']? = if key' = key then none else m[key']? :=
  getElem?_erase_ite m key key'

/-! ## Keys of settings -/

/-- A key under which neither a credential nor the large blobs are stored. -/
def SystemKey (key : String) : Prop := key ≠ largeBlobsStorageKey ∧ ∀ id, key ≠ credKey id

theorem systemKey_of_take {key : String} (hblobs : key ≠ largeBlobsStorageKey)
    (htake : key.toList.take 5 ≠ "cred:".toList) : SystemKey key := by
  refine ⟨hblobs, fun id heq => htake ?_⟩
  rw [heq, credKey, String.toList_append, List.take_append_of_le_length (by decide)]
  rfl

theorem not_systemKey_credKey (id : Bytes) : ¬SystemKey (credKey id) := fun h => h.2 id rfl

theorem not_systemKey_largeBlobs : ¬SystemKey largeBlobsStorageKey := fun h => h.1 rfl

namespace StorageEngine

/-! ## Credentials are filed under their ids -/

section Keyed

variable {β : Type}

/-- Every credential is filed under its own id. -/
def Keyed (e : StorageEngine β) : Prop :=
  ∀ (id : Bytes) (s : StoredCredential), e.credentials[id]? = some s →
    s.credential.credentialId = id

theorem Keyed.insert {e : StorageEngine β} (h : Keyed e) (s : StoredCredential) :
    Keyed { e with credentials := e.credentials.insert s.credential.credentialId s } := by
  intro id s' hs
  rw [ExtTreeMap.getElem?_insert] at hs
  split at hs
  next heq =>
    cases hs
    exact LawfulEqCmp.eq_of_compare heq
  next => exact h id s' hs

theorem Keyed.erase {e : StorageEngine β} (h : Keyed e) (credentialId : Bytes) :
    Keyed { e with credentials := e.credentials.erase credentialId } := by
  intro id s' hs
  rw [ExtTreeMap.getElem?_erase] at hs
  split at hs
  · cases hs
  · exact h id s' hs

theorem keyed_empty (b : Option β) : Keyed (empty b) := by
  intro id s hs
  simp [empty] at hs

theorem keyed_onBackend (m : Prog β StorageError Unit) :
    Prog.Keeps (.invariant Keyed) (onBackend m) := by
  intro e h
  obtain ⟨backend, hsnd⟩ := onBackend_snd m e
  rw [hsnd]
  exact h

variable [StorageBackend β] (codec : Codec StoredCredential)

theorem keyed_loadKeys (b : β) (keys : List String) :
    Prog.Keeps (.invariant Keyed) (loadKeys codec b keys) := by
  induction keys with
  | nil => exact .pure ()
  | cons key keys ih =>
      refine (Prog.Keeps.check _).bind fun value =>
        (Prog.Keeps.update fun e h => ?_).bind fun _ => ih
      cases value with
      | none => exact h
      | some value =>
          simp only [Option.elim_some, loadEntry]
          split
          · exact h
          · split
            next stored _ => exact h.insert stored
            next => exact h

theorem keyed_withBackend (b : β) : Keyed (withBackend codec b) :=
  ((Prog.Keeps.check _).bind fun keys => keyed_loadKeys codec b keys) _ (keyed_empty (some b))

theorem keyed_deleteCredential (id : Bytes) :
    Prog.Keeps (.invariant Keyed) (deleteCredential id : Prog (StorageEngine β) _ _) :=
  (Prog.Keeps.read _).bind fun _ => .ite
    (fun _ => (Prog.Keeps.update fun _ h => h.erase id).bind fun _ =>
      (keyed_onBackend _).bind fun _ => .pure true)
    fun _ => .pure false

theorem keyed_rewriteCredential {e : StorageEngine β} (h : Keyed e) {id : Bytes}
    {s : StoredCredential} (hid : s.credential.credentialId = id) :
    Keyed ((rewriteCredential codec id s).run e).2 := by
  subst hid
  exact keyed_onBackend _ _ (h.insert s)

theorem keyed_makeRoom :
    Prog.Keeps (.invariant Keyed) (makeRoom : Prog (StorageEngine β) EngineError Unit) :=
  (Prog.Keeps.read _).bind fun _ => .when fun _ => (Prog.Keeps.read _).bind fun found => by
    cases found with
    | none => exact .pure ()
    | some s => exact (keyed_deleteCredential _).bind fun _ => .pure ()

theorem keyed_insertCredential (crypto : CryptoEngine) (credential : Credential) (nonce : Bytes) :
    Prog.Keeps (.invariant Keyed)
      (insertCredential codec crypto credential nonce : Prog (StorageEngine β) _ _) :=
  (Prog.Keeps.check _).bind fun _ => (Prog.Keeps.update fun _ h => h).bind fun _ =>
    (keyed_onBackend _).bind fun _ => .update fun _ h => h.insert _

theorem keyed_updateSignCount (id : Bytes) (signCount : Nat) :
    Prog.Keeps (.invariant Keyed)
      (updateSignCount codec id signCount : Prog (StorageEngine β) _ _) := by
  intro e h
  unfold updateSignCount
  rw [Prog.run_read_bind]
  cases hs : e.credentials[id]? with
  | none => exact h
  | some s => exact keyed_rewriteCredential codec h (h id s hs)

theorem keyed_updateUserInfo (id : Bytes) (userName userDisplayName : Option String) :
    Prog.Keeps (.invariant Keyed)
      (updateUserInfo codec id userName userDisplayName : Prog (StorageEngine β) _ _) := by
  intro e h
  unfold updateUserInfo
  rw [Prog.run_read_bind]
  cases hs : e.credentials[id]? with
  | none => exact h
  | some s =>
      simp only [Prog.snd_run_bind_pure]
      exact keyed_rewriteCredential codec h (h id s hs)

theorem keyed_writeLargeBlobs (offset : Nat) (data : Bytes) (expectedLen : Option Nat) :
    Prog.Keeps (.invariant Keyed)
      (writeLargeBlobs offset data expectedLen : Prog (StorageEngine β) _ _) :=
  (Prog.Keeps.check _).bind fun _ => (Prog.Keeps.read _).bind fun _ =>
    (Prog.Keeps.update fun _ h => h).bind fun _ => keyed_onBackend _

end Keyed

/-! ## Entries -/

section Entries

variable {β : Type} [StorageBackend β] [LawfulBackend β]

/-- The entry the backend holds. -/
def persisted (e : StorageEngine β) (key : String) : Option Bytes :=
  e.backend.bind fun b => (contents b)[key]?

theorem value_eq (e : StorageEngine β) (key : String) :
    e.value key = (e.persisted key).or e.kvStore[key]? := by
  unfold value retrieve persisted
  cases e.backend with
  | none => cases e.kvStore[key]? <;> rfl
  | some b =>
      simp only [LawfulBackend.read_eq, Option.bind_some]
      cases (contents b)[key]? with
      | none => cases e.kvStore[key]? <;> rfl
      | some v => rfl

/-- Memory holds no setting that the backend, if there is one, does not hold too. -/
def Synced (e : StorageEngine β) : Prop :=
  e.backend.isSome → ∀ key, SystemKey key → ∀ v, e.kvStore[key]? = some v → e.persisted key = some v

/-- The engine after the backend has written an entry. -/
def written (key : String) (v : Bytes) (e : StorageEngine β) : StorageEngine β :=
  { e with backend := e.backend.map fun b => ((StorageBackend.write key v).run b).2 }

/-- The engine after the backend has deleted an entry. -/
def deleted (key : String) (e : StorageEngine β) : StorageEngine β :=
  { e with backend := e.backend.map fun b => ((StorageBackend.delete key).run b).2 }

theorem run_onBackend_write (key : String) (v : Bytes) (e : StorageEngine β) :
    (onBackend (StorageBackend.write key v)).run e = (.ok (), written key v e) := by
  unfold written
  cases h : e.backend with
  | none => simp only [onBackend, h, Option.map_none]; rw [← h]
  | some b => simp only [onBackend, h, LawfulBackend.write_ok, Except.mapError, Option.map_some]

theorem run_onBackend_delete (key : String) (e : StorageEngine β) :
    (onBackend (StorageBackend.delete key)).run e = (.ok (), deleted key e) := by
  unfold deleted
  cases h : e.backend with
  | none => simp only [onBackend, h, Option.map_none]; rw [← h]
  | some b => simp only [onBackend, h, LawfulBackend.delete_ok, Except.mapError, Option.map_some]

theorem run_onBackendIgnored_delete (key : String) (e : StorageEngine β) :
    (onBackendIgnored (StorageBackend.delete key)).run e = (.ok (), deleted key e) := by
  unfold onBackendIgnored
  rw [Prog.run_attempt_bind, run_onBackend_delete]
  rfl

theorem persisted_written (key key' : String) (v : Bytes) (e : StorageEngine β) :
    (written key v e).persisted key' = if key' = key then e.backend.map fun _ =>
      v else e.persisted key' := by
  unfold persisted written
  cases e.backend with
  | none => simp
  | some b =>
      simp only [Option.map_some, Option.bind_some, LawfulBackend.contents_write,
        kvMap_getElem?_insert]

theorem persisted_deleted (key key' : String) (e : StorageEngine β) :
    (deleted key e).persisted key' = if key' = key then none else e.persisted key' := by
  unfold persisted deleted
  cases e.backend with
  | none => simp
  | some b =>
      simp only [Option.map_some, Option.bind_some, LawfulBackend.contents_delete,
        kvMap_getElem?_erase]

/-! ## Saving one entry -/

/-- Exactly one entry changes, to `v`. -/
structure Saved (key : String) (v : Option Bytes) (e e' : StorageEngine β) : Prop where
  value_eq : ∀ key', e'.value key' = if key' = key then v else e.value key'
  synced : e.Synced → e'.Synced
  backend : e'.backend.isSome = e.backend.isSome
  credentials : e'.credentials = e.credentials
  largeBlobs : e'.largeBlobs = e.largeBlobs
  limit : e'.maxCredentialCount = e.maxCredentialCount

/-- The engine after `store`. -/
def afterStore (key : String) (v : Bytes) (e : StorageEngine β) : StorageEngine β :=
  { written key v ((incrementWearCounter "kv").run e).2 with kvStore := e.kvStore.insert key v }

/-- The engine after `delete`. -/
def afterDelete (key : String) (e : StorageEngine β) : StorageEngine β :=
  { deleted key e with kvStore := e.kvStore.erase key }

theorem run_store (key : String) (v : Bytes) (e : StorageEngine β) :
    (store key v).run e = (.ok (), afterStore key v e) := by
  unfold store
  rw [Prog.run_bind_of_ok (rfl : (incrementWearCounter "kv").run e = (.ok (), _)),
    Prog.run_bind_of_ok (run_onBackend_write key v _)]
  rfl

theorem run_delete (key : String) (e : StorageEngine β) :
    (delete key).run e = (.ok (), afterDelete key e) := by
  unfold delete
  rw [Prog.run_bind_of_ok (run_onBackendIgnored_delete key e)]
  rfl

theorem persisted_afterStore (key key' : String) (v : Bytes) (e : StorageEngine β) :
    (afterStore key v e).persisted key' =
      if key' = key then e.backend.map fun _ => v else e.persisted key' :=
  persisted_written key key' v _

theorem persisted_afterDelete (key key' : String) (e : StorageEngine β) :
    (afterDelete key e).persisted key' = if key' = key then none else e.persisted key' :=
  persisted_deleted key key' e

theorem saved_store (key : String) (v : Bytes) (e : StorageEngine β) :
    Saved key (some v) e (afterStore key v e) where
  value_eq key' := by
    rw [value_eq, value_eq, persisted_afterStore]
    show (Option.or _ (e.kvStore.insert key v)[key']?) = _
    rw [kvMap_getElem?_insert]
    by_cases h : key' = key
    · rw [if_pos h, if_pos h, if_pos h]
      cases e.backend <;> rfl
    · rw [if_neg h, if_neg h, if_neg h]
  synced hs hb key' hkey v' hv := by
    have hb' : e.backend.isSome := by simpa [afterStore, written, incrementWearCounter] using hb
    rw [persisted_afterStore]
    replace hv : (e.kvStore.insert key v)[key']? = some v' := hv
    rw [kvMap_getElem?_insert] at hv
    by_cases h : key' = key
    · rw [if_pos h] at hv ⊢
      obtain ⟨b, hb⟩ := Option.isSome_iff_exists.mp hb'
      rw [hb, ← hv]
      rfl
    · rw [if_neg h] at hv ⊢
      exact hs hb' key' hkey v' hv
  backend := by simp [afterStore, written, incrementWearCounter]
  credentials := rfl
  largeBlobs := rfl
  limit := rfl

theorem saved_delete (key : String) (e : StorageEngine β) :
    Saved key none e (afterDelete key e) where
  value_eq key' := by
    rw [value_eq, value_eq, persisted_afterDelete]
    show (Option.or _ (e.kvStore.erase key)[key']?) = _
    rw [kvMap_getElem?_erase]
    by_cases h : key' = key
    · rw [if_pos h, if_pos h, if_pos h]
      rfl
    · rw [if_neg h, if_neg h, if_neg h]
  synced hs hb key' hkey v' hv := by
    have hb' : e.backend.isSome := by simpa [afterDelete, deleted] using hb
    rw [persisted_afterDelete]
    replace hv : (e.kvStore.erase key)[key']? = some v' := hv
    rw [kvMap_getElem?_erase] at hv
    by_cases h : key' = key
    · rw [if_pos h] at hv
      cases hv
    · rw [if_neg h] at hv ⊢
      exact hs hb' key' hkey v' hv
  backend := by simp [afterDelete, deleted]
  credentials := rfl
  largeBlobs := rfl
  limit := rfl

theorem saved_run_store (key : String) (v : Bytes) (e : StorageEngine β) :
    Saved key (some v) e ((store key v).run e).2 := by
  rw [run_store]
  exact saved_store key v e

theorem saved_run_delete (key : String) (e : StorageEngine β) :
    Saved key none e ((delete key).run e).2 := by
  rw [run_delete]
  exact saved_delete key e

/-! ## Leaving the settings alone -/

/-- The moves that change no setting. -/
def Settled : Prog.Frame (StorageEngine β) where
  rel e e' := (∀ key, SystemKey key → e'.value key = e.value key) ∧ (e.Synced → e'.Synced) ∧
    e'.backend.isSome = e.backend.isSome
  refl _ := ⟨fun _ _ => rfl, id, rfl⟩
  trans h₁ h₂ := ⟨fun key hkey => (h₂.1 key hkey).trans (h₁.1 key hkey), h₂.2.1 ∘ h₁.2.1,
    h₂.2.2.trans h₁.2.2⟩

/-- What neither the backend nor the key-value store sees changes no setting. -/
theorem settled_of_same {e e' : StorageEngine β} (hb : e'.backend = e.backend)
    (hkv : e'.kvStore = e.kvStore) : Settled.rel e e' := by
  have hpers : ∀ key, e'.persisted key = e.persisted key := fun key => by unfold persisted; rw [hb]
  refine ⟨fun key _ => ?_, fun hs hsome key hkey v hv => ?_, by rw [hb]⟩
  · rw [value_eq, value_eq, hpers, hkv]
  · rw [hpers]
    rw [hb] at hsome
    rw [hkv] at hv
    exact hs hsome key hkey v hv

/-- A backend call on a key that is no setting changes no setting. -/
theorem settled_of_persisted {e e' : StorageEngine β} (hsome : e'.backend.isSome = e.backend.isSome)
    (hkv : e'.kvStore = e.kvStore)
      (hpers : ∀ key, SystemKey key → e'.persisted key = e.persisted key) :
    Settled.rel e e' := by
  refine ⟨fun key hkey => ?_, fun hs hb key hkey v hv => ?_, hsome⟩
  · rw [value_eq, value_eq, hpers key hkey, hkv]
  · rw [hpers key hkey]
    rw [hsome] at hb
    rw [hkv] at hv
    exact hs hb key hkey v hv

theorem settled_write {key : String} (hkey : ¬SystemKey key) (v : Bytes) :
    Prog.Keeps Settled (onBackend (StorageBackend.write key v) :
      Prog (StorageEngine β) EngineError Unit) := by
  intro e
  rw [run_onBackend_write]
  refine settled_of_persisted (by simp [written]) rfl fun key' hkey' => ?_
  rw [persisted_written, if_neg]
  rintro rfl
  exact hkey hkey'

theorem settled_delete {key : String} (hkey : ¬SystemKey key) :
    Prog.Keeps Settled (onBackend (StorageBackend.delete key) :
      Prog (StorageEngine β) EngineError Unit) := by
  intro e
  rw [run_onBackend_delete]
  refine settled_of_persisted (by simp [deleted]) rfl fun key' hkey' => ?_
  rw [persisted_deleted, if_neg]
  rintro rfl
  exact hkey hkey'

theorem settled_update {g : StorageEngine β → StorageEngine β}
    (hb : ∀ e, (g e).backend = e.backend) (hkv : ∀ e, (g e).kvStore = e.kvStore) :
    Prog.Keeps Settled (Prog.update g : Prog (StorageEngine β) EngineError Unit) :=
  .update fun e => settled_of_same (hb e) (hkv e)

theorem settled_incrementWearCounter (sector : String) :
    Prog.Keeps Settled (incrementWearCounter sector :
      Prog (StorageEngine β) EngineError Unit) :=
  settled_update (fun _ => rfl) fun _ => rfl

theorem settled_deleteCredential (id : Bytes) :
    Prog.Keeps Settled (deleteCredential id : Prog (StorageEngine β) EngineError Bool) := by
  refine (Prog.Keeps.read _).bind fun _ => .ite (fun _ => .bind ?_ fun _ => ?_) fun _ => .pure false
  · exact settled_update (fun _ => rfl) fun _ => rfl
  · exact (settled_delete (not_systemKey_credKey id)).bind fun _ => .pure true

theorem settled_makeRoom :
    Prog.Keeps Settled (makeRoom : Prog (StorageEngine β) EngineError Unit) :=
  (Prog.Keeps.read _).bind fun _ => .when fun _ => (Prog.Keeps.read _).bind fun found => by
    cases found with
    | none => exact .pure ()
    | some s => exact (settled_deleteCredential _).bind fun _ => .pure ()

section

variable (codec : Codec StoredCredential)

theorem settled_insertCredential (crypto : CryptoEngine) (credential : Credential) (nonce : Bytes) :
    Prog.Keeps Settled (insertCredential codec crypto credential nonce :
      Prog (StorageEngine β) EngineError Unit) :=
  (Prog.Keeps.check _).bind fun _ => (settled_incrementWearCounter _).bind fun _ =>
    (settled_write (not_systemKey_credKey _) _).bind fun _ =>
      settled_update (fun _ => rfl) fun _ => rfl

theorem settled_rewriteCredential (id : Bytes) (s : StoredCredential) :
    Prog.Keeps Settled
      (rewriteCredential codec id s : Prog (StorageEngine β) EngineError Unit) := by
  refine Prog.Keeps.bind ?_ fun _ => ?_
  · exact settled_update (fun _ => rfl) fun _ => rfl
  · exact settled_write (not_systemKey_credKey id) _

theorem settled_updateSignCount (id : Bytes) (signCount : Nat) :
    Prog.Keeps Settled (updateSignCount codec id signCount :
      Prog (StorageEngine β) EngineError Unit) :=
  (Prog.Keeps.read _).bind fun found => by
    cases found with
    | none => exact .fail _
    | some s => exact settled_rewriteCredential codec id _

theorem settled_updateUserInfo (id : Bytes) (userName userDisplayName : Option String) :
    Prog.Keeps Settled (updateUserInfo codec id userName userDisplayName :
      Prog (StorageEngine β) EngineError Bool) :=
  (Prog.Keeps.read _).bind fun found => by
    cases found with
    | none => exact .pure false
    | some s => exact (settled_rewriteCredential codec id _).bind fun _ => .pure true

end

theorem settled_writeLargeBlobs (offset : Nat) (data : Bytes) (expectedLen : Option Nat) :
    Prog.Keeps Settled (writeLargeBlobs offset data expectedLen :
      Prog (StorageEngine β) EngineError Unit) := by
  refine (Prog.Keeps.check _).bind fun _ => (Prog.Keeps.read _).bind fun _ => .bind ?_ fun _ => ?_
  · exact settled_update (fun _ => rfl) fun _ => rfl
  · exact settled_write not_systemKey_largeBlobs _

theorem settled_clearLargeBlobs :
    Prog.Keeps Settled (clearLargeBlobs : Prog (StorageEngine β) EngineError Unit) := by
  refine Prog.Keeps.bind ?_ fun _ => ?_
  · exact settled_update (fun _ => rfl) fun _ => rfl
  · exact (settled_delete not_systemKey_largeBlobs).attempt.bind fun _ => .pure ()

/-! ## Clearing -/

theorem run_deleteAll_lawful (keys : List String) (e : StorageEngine β) :
    ∃ b, (deleteAll keys).run e = (.ok (), { e with backend := b }) ∧
      b.isSome = e.backend.isSome ∧
      ∀ key, persisted { e with backend := b } key = if key ∈
        keys then none else e.persisted key := by
  induction keys generalizing e with
  | nil => exact ⟨e.backend, rfl, rfl, fun key => by rw [if_neg (List.not_mem_nil)]⟩
  | cons k keys ih =>
      obtain ⟨b, hrun, hsome, hpers⟩ := ih (deleted k e)
      refine ⟨b, ?_, by rw [hsome]; simp [deleted], fun key => ?_⟩
      · rw [deleteAll, Prog.run_bind_of_ok (run_onBackendIgnored_delete k e), hrun]
        rfl
      · rw [show persisted { e with backend := b } key = persisted { deleted k e with backend := b }
          key from
          rfl, hpers, persisted_deleted]
        by_cases hk : key = k <;> by_cases hks : key ∈ keys <;> simp [hk, hks]

theorem mem_knownKeys (e : StorageEngine β) (key : String) :
    key ∈ e.knownKeys ↔ (e.persisted key).isSome := by
  unfold knownKeys persisted
  cases e.backend with
  | none => simp
  | some b =>
      obtain ⟨keys, hkeys, hmem⟩ := LawfulBackend.listKeys_eq b
      simp only [Option.elim_some, hkeys, Except.toOption, Option.getD_some, Option.bind_some]
      rw [hmem, Std.ExtTreeMap.isSome_getElem?_iff_mem]

/-- After `clear` nothing can be read back. -/
theorem run_clear (e : StorageEngine β) :
    ∃ e', (clear : Prog (StorageEngine β) EngineError Unit).run e = (.ok (), e') ∧
      (∀ key, e'.value key = none) ∧ e'.Synced ∧ e'.credentials = ∅ ∧
      e'.backend.isSome = e.backend.isSome := by
  obtain ⟨b, hrun, hsome, hpers⟩ := run_deleteAll_lawful e.knownKeys e
  refine ⟨{ e with backend := b, credentials := ∅, kvStore := ∅ }, ?_, fun key =>
    ?_, ?_, rfl, hsome⟩
  · unfold clear
    rw [Prog.run_read_bind, Prog.run_bind_of_ok hrun]
    rfl
  · rw [value_eq, show persisted { e with backend := b, credentials := ∅, kvStore := ∅ } key =
      persisted { e with backend := b } key from rfl, hpers]
    by_cases hkey : key ∈ e.knownKeys
    · simp [hkey]
    · rw [mem_knownKeys, Option.not_isSome_iff_eq_none] at hkey
      simp [hkey]
  · intro _ key _ v hv
    simp at hv

/-! ## Opening -/

variable (codec : Codec StoredCredential)

omit [LawfulBackend β] in
theorem loadKeys_keeps (b : β) (keys : List String) :
    Prog.Keeps (.constant fun e : StorageEngine β => (e.backend, e.kvStore))
      (loadKeys codec b keys) := by
  induction keys with
  | nil => exact .pure ()
  | cons key keys ih =>
      refine (Prog.Keeps.check _).bind fun value => (Prog.Keeps.update fun e => ?_).bind fun _ => ih
      cases value with
      | none => rfl
      | some value =>
          show ((loadEntry codec key value e).backend, (loadEntry codec key value e).kvStore) = _
          unfold loadEntry
          split
          · rfl
          · split <;> rfl

omit [LawfulBackend β] in
theorem withBackend_eq (b : β) :
    (withBackend codec b).backend = some b ∧ (withBackend codec b).kvStore = ∅ :=
  Prod.mk.inj (((Prog.Keeps.check _).bind fun keys => loadKeys_keeps codec b keys) (empty (some b)))

/-- An engine opened over a backend reads the settings the backend holds. -/
theorem value_withBackend {e : StorageEngine β} {b : β} (hb : e.backend = some b) (hs : e.Synced)
    {key : String} (hkey : SystemKey key) : (withBackend codec b).value key = e.value key := by
  obtain ⟨hback, hkv⟩ := withBackend_eq codec b
  rw [value_eq, value_eq]
  have hpers : (withBackend codec b).persisted key =
    e.persisted key := by unfold persisted; rw [hback, hb]
  rw [hpers, hkv]
  cases hv : e.kvStore[key]? with
  | none => simp
  | some v => rw [hs (by rw [hb]; rfl) key hkey v hv]; simp

theorem synced_withBackend (b : β) : (withBackend codec b).Synced := by
  intro _ key _ v hv
  rw [(withBackend_eq codec b).2] at hv
  simp at hv

end Entries

end StorageEngine

end OpenKey
