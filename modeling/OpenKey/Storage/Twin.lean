import OpenKey.Storage.Reload

/-!
# Engines that cannot be told apart

Two engines with the same credentials, entries and large blobs over media that hold the same are
twins. They may differ in what no operation returns: the wear counters, and whatever a medium
remembers besides its contents, such as the order in which it lists its keys. Every operation gives
the same result on both and leaves twins again. So does opening an engine over a medium on which
what decodes lies under the key of its id: then no two keys load the same credential, and the order
of the keys plays no part (`twin_withBackend`).
-/

namespace OpenKey

open Prog (Coupled CoupledAt)
open Std

set_option autoImplicit false

namespace StorageEngine

variable {β : Type} [StorageBackend β] [LawfulBackend β]

/-- The same engine, up to its wear counters and the state of its medium. -/
structure Twin (e e' : StorageEngine β) : Prop where
  same : e' = { e with backend := e'.backend, wearCounters := e'.wearCounters }
  contents : e'.backend.map contents = e.backend.map contents

namespace Twin

variable {α : Type} {e e' : StorageEngine β}

/-- What goes by neither the backend nor the wear counters is the same on both. -/
theorem read_eq {f : StorageEngine β → α}
    (hf : ∀ e b w, f { e with backend := b, wearCounters := w } = f e) (h : Twin e e') :
    f e = f e' :=
  (hf e e'.backend e'.wearCounters).symm.trans (congrArg f h.same.symm)

theorem persisted (h : Twin e e') (key : String) : e'.persisted key = e.persisted key := by
  have hbind : ∀ f : StorageEngine β,
      f.persisted key = (f.backend.map OpenKey.contents).bind (·[key]?) := by
    intro f
    unfold StorageEngine.persisted
    rw [Option.bind_map]
    rfl
  rw [hbind, hbind, h.contents]

theorem value (h : Twin e e') (key : String) : e'.value key = e.value key := by
  have hkv : e.kvStore = e'.kvStore := h.read_eq (f := fun e => e.kvStore) fun _ _ _ => rfl
  rw [value_eq, value_eq, h.persisted, hkv]

end Twin

/-! ## Operations -/

section Operations

variable {α ε : Type}

theorem twin_read {f : StorageEngine β → α}
    (hf : ∀ e b w, f { e with backend := b, wearCounters := w } = f e) :
    Coupled Twin (Prog.read f : Prog (StorageEngine β) EngineError α) :=
  .read fun _ _ h => h.read_eq hf

theorem twin_check {f : StorageEngine β → Except EngineError α}
    (hf : ∀ e b w, f { e with backend := b, wearCounters := w } = f e) :
    Coupled Twin (Prog.check f) := .check fun _ _ h => h.read_eq hf

/-- A change of memory. -/
theorem twin_update {g : StorageEngine β → StorageEngine β}
    (hg : ∀ e b w, ∃ w', g { e with backend := b, wearCounters := w } =
      { g e with backend := b, wearCounters := w' })
    (hback : ∀ e, (g e).backend = e.backend) :
    Coupled Twin (Prog.update g : Prog (StorageEngine β) ε Unit) := by
  refine .update fun e e' h => ?_
  obtain ⟨w, hw⟩ := hg e e'.backend e'.wearCounters
  rw [← h.same] at hw
  refine ⟨by rw [hw], ?_⟩
  rw [hback, hback]
  exact h.contents

theorem twin_write (key : String) (v : Bytes) :
    Coupled Twin (onBackend (StorageBackend.write key v) :
      Prog (StorageEngine β) EngineError Unit) := by
  intro e e' h
  rw [run_onBackend_write, run_onBackend_write]
  refine ⟨rfl, congrArg (written key v) h.same |>.trans rfl, ?_⟩
  have hmap : ∀ f : StorageEngine β, (written key v f).backend.map OpenKey.contents =
      (f.backend.map OpenKey.contents).map (·.insert key v) := by
    intro f
    unfold written
    rw [Option.map_map, Option.map_map]
    exact congrArg (f.backend.map ·) (funext fun b => LawfulBackend.contents_write b key v)
  rw [hmap, hmap, h.contents]

theorem twin_delete (key : String) :
    Coupled Twin (onBackend (StorageBackend.delete key) :
      Prog (StorageEngine β) EngineError Unit) := by
  intro e e' h
  rw [run_onBackend_delete, run_onBackend_delete]
  refine ⟨rfl, congrArg (deleted key) h.same |>.trans rfl, ?_⟩
  have hmap : ∀ f : StorageEngine β, (deleted key f).backend.map OpenKey.contents =
      (f.backend.map OpenKey.contents).map (·.erase key) := by
    intro f
    unfold deleted
    rw [Option.map_map, Option.map_map]
    exact congrArg (f.backend.map ·) (funext fun b => LawfulBackend.contents_delete b key)
  rw [hmap, hmap, h.contents]

theorem twin_deleteIgnored (key : String) :
    Coupled Twin (onBackendIgnored (StorageBackend.delete key) :
      Prog (StorageEngine β) EngineError Unit) :=
  (twin_delete key).attempt.bind fun _ => .pure ()

theorem twin_incrementWearCounter (sector : String) :
    Coupled Twin (incrementWearCounter sector : Prog (StorageEngine β) EngineError Unit) :=
  twin_update (fun _ _ _ => ⟨_, rfl⟩) fun _ => rfl

theorem twin_store (key : String) (v : Bytes) :
    Coupled Twin (store key v : Prog (StorageEngine β) EngineError Unit) :=
  (twin_incrementWearCounter _).bind fun _ => (twin_write key v).bind fun _ =>
    twin_update (fun _ _ _ => ⟨_, rfl⟩) fun _ => rfl

theorem twin_deleteEntry (key : String) :
    Coupled Twin (delete key : Prog (StorageEngine β) EngineError Unit) :=
  (twin_deleteIgnored key).bind fun _ => twin_update (fun _ _ _ => ⟨_, rfl⟩) fun _ => rfl

theorem twin_deleteCredential (id : Bytes) :
    Coupled Twin (deleteCredential id : Prog (StorageEngine β) EngineError Bool) :=
  (twin_read fun _ _ _ => rfl).bind fun _ => .ite
    (fun _ => .bind (twin_update (fun _ _ _ => ⟨_, rfl⟩) fun _ => rfl) fun _ =>
      (twin_delete _).bind fun _ => .pure _)
    fun _ => .pure _

theorem twin_makeRoom : Coupled Twin (makeRoom : Prog (StorageEngine β) EngineError Unit) :=
  (twin_read fun _ _ _ => rfl).bind fun _ => .when fun _ =>
    (twin_read fun _ _ _ => rfl).bind fun found => by
      cases found with
      | none => exact .pure ()
      | some s => exact (twin_deleteCredential _).bind fun _ => .pure ()

theorem twin_insertCredential (codec : Codec StoredCredential) (crypto : CryptoEngine)
    (credential : Credential) (nonce : Bytes) :
    Coupled Twin (insertCredential codec crypto credential nonce :
      Prog (StorageEngine β) EngineError Unit) :=
  (twin_check fun _ _ _ => rfl).bind fun _ => (twin_incrementWearCounter _).bind fun _ =>
    (twin_write _ _).bind fun _ => twin_update (fun _ _ _ => ⟨_, rfl⟩) fun _ => rfl

theorem twin_rewriteCredential (codec : Codec StoredCredential) (id : Bytes)
    (s : StoredCredential) :
    Coupled Twin (rewriteCredential codec id s : Prog (StorageEngine β) EngineError Unit) :=
  .bind (twin_update (fun _ _ _ => ⟨_, rfl⟩) fun _ => rfl) fun _ => twin_write _ _

theorem twin_updateSignCount (codec : Codec StoredCredential) (id : Bytes) (n : Nat) :
    Coupled Twin (updateSignCount codec id n : Prog (StorageEngine β) EngineError Unit) :=
  (twin_read fun _ _ _ => rfl).bind fun found => by
    cases found with
    | none => exact .fail _
    | some s => exact twin_rewriteCredential codec id _

theorem twin_updateUserInfo (codec : Codec StoredCredential) (id : Bytes)
    (userName userDisplayName : Option String) :
    Coupled Twin (updateUserInfo codec id userName userDisplayName :
      Prog (StorageEngine β) EngineError Bool) :=
  (twin_read fun _ _ _ => rfl).bind fun found => by
    cases found with
    | none => exact .pure _
    | some s => exact (twin_rewriteCredential codec id _).bind fun _ => .pure _

theorem twin_writeLargeBlobs (offset : Nat) (data : Bytes) (expectedLen : Option Nat) :
    Coupled Twin (writeLargeBlobs offset data expectedLen :
      Prog (StorageEngine β) EngineError Unit) :=
  (twin_check fun _ _ _ => rfl).bind fun _ => (twin_read fun _ _ _ => rfl).bind fun _ =>
    .bind (twin_update (fun _ _ _ => ⟨_, rfl⟩) fun _ => rfl) fun _ => twin_write _ _

theorem twin_clearLargeBlobs :
    Coupled Twin (clearLargeBlobs : Prog (StorageEngine β) EngineError Unit) :=
  .bind (twin_update (fun _ _ _ => ⟨_, rfl⟩) fun _ => rfl) fun _ => twin_deleteIgnored _

/-! ## Clearing -/

/-- `clear` leaves nothing behind but the large blobs. -/
theorem clear_eq (e : StorageEngine β) :
    ∃ backend : Option β, (clear : Prog (StorageEngine β) EngineError Unit).run e =
        (.ok (), { e with backend := backend, credentials := ∅, kvStore := ∅ }) ∧
      backend.map contents = e.backend.map fun _ => ∅ := by
  obtain ⟨backend, hrun, hsome, hpers⟩ := run_deleteAll_lawful e.knownKeys e
  refine ⟨backend, ?_, ?_⟩
  · unfold clear
    rw [Prog.run_read_bind, Prog.run_bind_of_ok hrun]
    rfl
  · have hnone : ∀ key, StorageEngine.persisted { e with backend := backend } key = none := by
      intro key
      rw [hpers]
      by_cases hkey : key ∈ e.knownKeys
      · rw [if_pos hkey]
      · rw [if_neg hkey, ← Option.not_isSome_iff_eq_none, ← mem_knownKeys]
        exact hkey
    cases hb : e.backend with
    | none =>
        rw [hb] at hsome
        have hnobackend : backend = none := by
          rw [← Option.not_isSome_iff_eq_none, hsome]
          exact Bool.false_ne_true
        rw [hnobackend]
        rfl
    | some b =>
        rw [hb] at hsome
        obtain ⟨b', rfl⟩ := Option.isSome_iff_exists.mp hsome
        refine congrArg some (ExtTreeMap.ext_getElem? fun key => ?_)
        rw [ExtTreeMap.getElem?_empty]
        exact hnone key

theorem twin_clear : Coupled Twin (clear : Prog (StorageEngine β) EngineError Unit) := by
  intro e e' h
  obtain ⟨backend, hrun, hcontents⟩ := clear_eq e
  obtain ⟨backend', hrun', hcontents'⟩ := clear_eq e'
  rw [hrun, hrun']
  have hlarge : e.largeBlobs = e'.largeBlobs :=
    h.read_eq (f := fun e => e.largeBlobs) fun _ _ _ => rfl
  have hlimit : e.maxCredentialCount = e'.maxCredentialCount :=
    h.read_eq (f := fun e => e.maxCredentialCount) fun _ _ _ => rfl
  refine ⟨rfl, by rw [hlarge, hlimit], hcontents'.trans (Eq.trans ?_ hcontents.symm)⟩
  have hconst : ∀ f : StorageEngine β, (f.backend.map fun _ => (∅ : KvMap)) =
      (f.backend.map OpenKey.contents).map fun _ => ∅ := by
    intro f
    rw [Option.map_map]
    rfl
  rw [hconst, hconst, h.contents]

end Operations

/-! ## Opening -/

section Opening

variable {codec : Codec StoredCredential}

variable (codec) in
omit [LawfulBackend β] in
theorem maxCredentialCount_withBackend (b : β) :
    (withBackend codec b).maxCredentialCount = none := by
  have hload : ∀ keys, Prog.Keeps (.constant fun e : StorageEngine β => e.maxCredentialCount)
      (loadKeys codec b keys) := by
    intro keys
    induction keys with
    | nil => exact .pure ()
    | cons key keys ih =>
        refine (Prog.Keeps.check _).bind fun value => .bind (.update fun e => ?_) fun _ => ih
        cases value with
        | none => rfl
        | some value =>
            show (loadEntry codec key value e).maxCredentialCount = e.maxCredentialCount
            unfold loadEntry
            split
            · rfl
            · split <;> rfl
  exact ((Prog.Keeps.check _).bind hload) (empty (some b))

/-- An engine only sees the contents of the medium it is opened over. -/
theorem twin_withBackend {b b' : β} (hb : contents b = contents b')
    (hfiled : Filed codec (contents b)) : Twin (withBackend codec b) (withBackend codec b') := by
  obtain ⟨hback, hkv⟩ := withBackend_eq codec b
  obtain ⟨hback', hkv'⟩ := withBackend_eq codec b'
  obtain ⟨hcredentials, hblobs⟩ := withBackend_loads hfiled
  rw [hb] at hfiled hcredentials hblobs
  obtain ⟨hcredentials', hblobs'⟩ := withBackend_loads hfiled
  have hsame : (withBackend codec b').credentials = (withBackend codec b).credentials :=
    ExtTreeMap.ext_getElem? fun id => (hcredentials' id).trans (hcredentials id).symm
  have hlimit := (maxCredentialCount_withBackend codec b').trans
    (maxCredentialCount_withBackend codec b).symm
  refine ⟨?_, ?_⟩
  · cases hopened : withBackend codec b'
    rw [hopened] at hkv' hsame hblobs' hlimit
    rw [← hsame, hkv, ← hkv', hblobs, ← hblobs', ← hlimit]
  · rw [hback, hback', Option.map_some, Option.map_some, hb]

/-! ## Where nothing is listed twice -/

theorem Filed.insert {m : KvMap} (h : Filed codec m) {key : String} {v : Bytes}
    (hv : ∀ s, key ≠ largeBlobsStorageKey → codec.decode v = some s →
      key = credKey s.credential.credentialId) : Filed codec (m.insert key v) := by
  intro key' v' s hblobs hv' hs
  rw [kvMap_getElem?_insert] at hv'
  split at hv'
  · next heq =>
      cases hv'
      rw [heq] at hblobs ⊢
      exact hv s hblobs hs
  · exact h key' v' s hblobs hv' hs

theorem Filed.erase {m : KvMap} (h : Filed codec m) (key : String) : Filed codec (m.erase key) := by
  intro key' v s hblobs hv hs
  rw [kvMap_getElem?_erase] at hv
  split at hv
  · cases hv
  · exact h key' v s hblobs hv hs

variable (codec) in
/-- The records in memory are under their ids, and so are those on the medium. -/
structure Catalogued (e : StorageEngine β) : Prop where
  keyed : e.Keyed
  filed : ∀ b, e.backend = some b → Filed codec (contents b)

theorem Catalogued.written {e e' : StorageEngine β} (h : Catalogued codec e) {key : String}
    {v : Bytes} (hkeyed : e'.Keyed)
    (hb : e'.backend = e.backend.map fun b => ((StorageBackend.write key v).run b).2)
    (hv : ∀ s, key ≠ largeBlobsStorageKey → codec.decode v = some s →
      key = credKey s.credential.credentialId) : Catalogued codec e' where
  keyed := hkeyed
  filed b' hb' := by
    rw [hb] at hb'
    obtain ⟨b, hb, rfl⟩ := Option.map_eq_some_iff.mp hb'
    rw [LawfulBackend.contents_write]
    exact (h.filed b hb).insert hv

theorem Catalogued.deleted {e e' : StorageEngine β} (h : Catalogued codec e) {key : String}
    (hkeyed : e'.Keyed)
    (hb : e'.backend = e.backend.map fun b => ((StorageBackend.delete key).run b).2) :
    Catalogued codec e' where
  keyed := hkeyed
  filed b' hb' := by
    rw [hb] at hb'
    obtain ⟨b, hb, rfl⟩ := Option.map_eq_some_iff.mp hb'
    rw [LawfulBackend.contents_delete]
    exact (h.filed b hb).erase key

/-- A value that does not decode is stored beside the records. -/
theorem catalogued_store {key : String} {v : Bytes} (hv : codec.decode v = none) :
    Prog.Keeps (.invariant (Catalogued codec))
      (store key v : Prog (StorageEngine β) EngineError Unit) := by
  intro e h
  rw [run_store]
  refine h.written h.keyed rfl fun s _ hs => ?_
  rw [hv] at hs
  cases hs

/-- A codec that reads a record back with its own id, if at all. -/
def KeepsIds (codec : Codec StoredCredential) : Prop :=
  ∀ s s', codec.decode (codec.encode s) = some s' →
    s'.credential.credentialId = s.credential.credentialId

theorem catalogued_insert (hcodec : KeepsIds codec) {e : StorageEngine β} (s : StoredCredential)
    (h : Catalogued codec e) : Catalogued codec (afterInsert codec s e) :=
  h.written (h.keyed.insert s) rfl fun s' _ hs' => by rw [hcodec s s' hs']

theorem lasting_catalogued (hcodec : KeepsIds codec) :
    Lasting codec (Catalogued codec : StorageEngine β → Prop) where
  delete _ h := h.deleted h.keyed rfl
  erase id h := h.deleted (h.keyed.erase id) rfl
  rewrite := by
    intro e id s s' hs hid h
    obtain rfl : s'.credential.credentialId = id := hid.trans (h.keyed id s hs)
    exact h.written (h.keyed.insert s') rfl fun s'' _ hs'' => by rw [hcodec s' s'' hs'']
  blobs v h := h.written h.keyed rfl fun _ hne => absurd rfl hne
  clearBlobs h := h.deleted h.keyed rfl

theorem catalogued_clear :
    Prog.Keeps (.invariant (Catalogued codec))
      (clear : Prog (StorageEngine β) EngineError Unit) := by
  intro e _
  obtain ⟨backend, hrun, hcontents⟩ := clear_eq e
  rw [hrun]
  refine ⟨keyed_empty backend, fun b hb key v s _ hv _ => ?_⟩
  obtain rfl : backend = some b := hb
  obtain ⟨b₀, -, hempty⟩ := Option.map_eq_some_iff.mp hcontents.symm
  rw [← hempty, ExtTreeMap.getElem?_empty] at hv
  cases hv

end Opening

end StorageEngine

end OpenKey
