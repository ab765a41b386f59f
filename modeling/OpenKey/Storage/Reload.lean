import OpenKey.Storage.Capacity
import OpenKey.Storage.EngineSteps

/-!
# Opening a store again

Credentials, entries and the large blobs share the keys of one medium. When a store is opened they
are told apart by the key of the large blobs and by what decodes; the entries stay on the medium.

**Theorem (`reload_same`).** Whatever operations have led to an engine over a medium that does not
fail, an engine opened anew over that medium holds the same credentials and large blobs, and answers
every `retrieve` in the same way.

The proof is an induction over the operations with the invariant `Mirrored`:

* every credential lies encoded under the key of its own id, and no other such key is in use,
* every entry in memory is on the medium, under a key of its own kind, and
* the large blobs are on the medium, if there are any.

What the operations must promise is that no entry decodes as a credential (`Plain`).
-/

namespace OpenKey

open Std
open Prog (Keeps)

set_option autoImplicit false

/-! ## Keys of credentials -/

theorem hexDigit_inj : ∀ m < 16, ∀ n < 16, hexDigit m = hexDigit n → m = n := by decide

theorem hexEncode_inj {bs bs' : Bytes} (h : hexEncode bs = hexEncode bs') : bs = bs' := by
  have hdigits := congrArg String.toList h
  simp only [hexEncode, String.toList_ofList] at hdigits
  induction bs generalizing bs' with
  | nil =>
      rcases bs' with _ | ⟨b', bs'⟩
      · rfl
      · simp at hdigits
  | cons b bs ih =>
      rcases bs' with _ | ⟨b', bs'⟩
      · simp at hdigits
      · simp only [List.flatMap_cons, List.cons_append, List.nil_append, List.cons.injEq] at hdigits
        obtain ⟨hhigh, hlow, hrest⟩ := hdigits
        have hb := b.toNat_lt
        have hb' := b'.toNat_lt
        have hhigh := hexDigit_inj _ (by omega) _ (by omega) hhigh
        have hlow := hexDigit_inj _ (by omega) _ (by omega) hlow
        have hbyte : b = b' := UInt8.toNat_inj.mp (by omega)
        rw [hbyte, ih (congrArg String.ofList hrest) hrest]

theorem credKey_inj {id id' : Bytes} : credKey id = credKey id' ↔ id = id' := by
  constructor
  · intro h
    have hlist := congrArg String.toList h
    simp only [credKey, String.toList_append] at hlist
    exact hexEncode_inj (String.toList_inj.mp (List.append_cancel_left hlist))
  · rintro rfl
    rfl

namespace StorageEngine

/-! ## Memory and medium -/

/-- A medium holds what memory holds. -/
structure Shadows (codec : Codec StoredCredential) (m : KvMap)
    (credentials : ExtTreeMap Bytes StoredCredential) (kvStore : KvMap) (largeBlobs : Bytes) :
    Prop where
  records : ∀ id, m[credKey id]? = credentials[id]?.map codec.encode
  entries : ∀ key v, kvStore[key]? = some v → SystemKey key ∧ m[key]? = some v
  blobs : m[largeBlobsStorageKey]?.getD [] = largeBlobs

section Shadows

variable {codec : Codec StoredCredential} {m : KvMap}
  {credentials : ExtTreeMap Bytes StoredCredential} {kvStore : KvMap} {largeBlobs : Bytes}

theorem Shadows.write (h : Shadows codec m credentials kvStore largeBlobs) {key : String}
    (hkey : SystemKey key) (v : Bytes) :
    Shadows codec (m.insert key v) credentials (kvStore.insert key v) largeBlobs where
  records id := by
    rw [kvMap_getElem?_insert, if_neg (hkey.2 id).symm]
    exact h.records id
  entries key' v' hv := by
    rw [kvMap_getElem?_insert] at hv ⊢
    by_cases heq : key' = key
    · rw [if_pos heq] at hv ⊢
      exact ⟨heq ▸ hkey, hv⟩
    · rw [if_neg heq] at hv ⊢
      exact h.entries key' v' hv
  blobs := by
    rw [kvMap_getElem?_insert, if_neg hkey.1.symm]
    exact h.blobs

theorem Shadows.delete (h : Shadows codec m credentials kvStore largeBlobs) {key : String}
    (hkey : SystemKey key) :
    Shadows codec (m.erase key) credentials (kvStore.erase key) largeBlobs where
  records id := by
    rw [kvMap_getElem?_erase, if_neg (hkey.2 id).symm]
    exact h.records id
  entries key' v' hv := by
    rw [kvMap_getElem?_erase] at hv ⊢
    by_cases heq : key' = key
    · rw [if_pos heq] at hv
      cases hv
    · rw [if_neg heq] at hv ⊢
      exact h.entries key' v' hv
  blobs := by
    rw [kvMap_getElem?_erase, if_neg hkey.1.symm]
    exact h.blobs

theorem Shadows.insert (h : Shadows codec m credentials kvStore largeBlobs) (id : Bytes)
    (s : StoredCredential) :
    Shadows codec (m.insert (credKey id) (codec.encode s)) (credentials.insert id s) kvStore
      largeBlobs where
  records id' := by
    rw [kvMap_getElem?_insert, getElem?_insert_ite]
    by_cases heq : id' = id
    · rw [if_pos (credKey_inj.mpr heq), if_pos heq]
      rfl
    · rw [if_neg fun hkey => heq (credKey_inj.mp hkey), if_neg heq]
      exact h.records id'
  entries key v hv := by
    obtain ⟨hkey, hm⟩ := h.entries key v hv
    rw [kvMap_getElem?_insert, if_neg (hkey.2 id)]
    exact ⟨hkey, hm⟩
  blobs := by
    rw [kvMap_getElem?_insert, if_neg (credKey_ne_largeBlobs id).symm]
    exact h.blobs

theorem Shadows.erase (h : Shadows codec m credentials kvStore largeBlobs) (id : Bytes) :
    Shadows codec (m.erase (credKey id)) (credentials.erase id) kvStore largeBlobs where
  records id' := by
    rw [kvMap_getElem?_erase, getElem?_erase_ite]
    by_cases heq : id' = id
    · rw [if_pos (credKey_inj.mpr heq), if_pos heq]
      rfl
    · rw [if_neg fun hkey => heq (credKey_inj.mp hkey), if_neg heq]
      exact h.records id'
  entries key v hv := by
    obtain ⟨hkey, hm⟩ := h.entries key v hv
    rw [kvMap_getElem?_erase, if_neg (hkey.2 id)]
    exact ⟨hkey, hm⟩
  blobs := by
    rw [kvMap_getElem?_erase, if_neg (credKey_ne_largeBlobs id).symm]
    exact h.blobs

theorem Shadows.setBlobs (h : Shadows codec m credentials kvStore largeBlobs) (v : Bytes) :
    Shadows codec (m.insert largeBlobsStorageKey v) credentials kvStore v where
  records id := by
    rw [kvMap_getElem?_insert, if_neg (credKey_ne_largeBlobs id)]
    exact h.records id
  entries key v' hv := by
    obtain ⟨hkey, hm⟩ := h.entries key v' hv
    rw [kvMap_getElem?_insert, if_neg hkey.1]
    exact ⟨hkey, hm⟩
  blobs := by
    rw [kvMap_getElem?_insert, if_pos rfl]
    rfl

theorem Shadows.clearBlobs (h : Shadows codec m credentials kvStore largeBlobs) :
    Shadows codec (m.erase largeBlobsStorageKey) credentials kvStore [] where
  records id := by
    rw [kvMap_getElem?_erase, if_neg (credKey_ne_largeBlobs id)]
    exact h.records id
  entries key v hv := by
    obtain ⟨hkey, hm⟩ := h.entries key v hv
    rw [kvMap_getElem?_erase, if_neg hkey.1]
    exact ⟨hkey, hm⟩
  blobs := by
    rw [kvMap_getElem?_erase, if_pos rfl]
    rfl

theorem shadows_empty {m : KvMap} (h : m = ∅) : Shadows codec m ∅ ∅ [] where
  records id := by simp [h]
  entries key v hv := by simp at hv
  blobs := by simp [h]

end Shadows

section

variable {β : Type} [StorageBackend β] [LawfulBackend β] {codec : Codec StoredCredential}

variable (codec) in
/-- The medium, if there is one, holds what memory holds. -/
structure Mirrored (e : StorageEngine β) : Prop where
  keyed : e.Keyed
  medium : ∀ b, e.backend = some b →
    Shadows codec (contents b) e.credentials e.kvStore e.largeBlobs

theorem mirrored_of_write {e e' : StorageEngine β} {key : String} {v : Bytes} (hk : e'.Keyed)
    (hb : e'.backend = e.backend.map fun b => ((StorageBackend.write key v).run b).2)
    (h : ∀ b, e.backend = some b →
      Shadows codec ((contents b).insert key v) e'.credentials e'.kvStore e'.largeBlobs) :
    Mirrored codec e' where
  keyed := hk
  medium b' hb' := by
    rw [hb] at hb'
    obtain ⟨b, hb, rfl⟩ := Option.map_eq_some_iff.mp hb'
    rw [LawfulBackend.contents_write]
    exact h b hb

theorem mirrored_of_delete {e e' : StorageEngine β} {key : String} (hk : e'.Keyed)
    (hb : e'.backend = e.backend.map fun b => ((StorageBackend.delete key).run b).2)
    (h : ∀ b, e.backend = some b →
      Shadows codec ((contents b).erase key) e'.credentials e'.kvStore e'.largeBlobs) :
    Mirrored codec e' where
  keyed := hk
  medium b' hb' := by
    rw [hb] at hb'
    obtain ⟨b, hb, rfl⟩ := Option.map_eq_some_iff.mp hb'
    rw [LawfulBackend.contents_delete]
    exact h b hb

/-! ## Operations -/

theorem stable_mirrored : Stable codec (Mirrored codec : StorageEngine β → Prop) where
  store hkey v he := mirrored_of_write he.keyed rfl fun b hb => (he.medium b hb).write hkey v
  delete hkey he := mirrored_of_delete he.keyed rfl fun b hb => (he.medium b hb).delete hkey
  erase id he := mirrored_of_delete (he.keyed.erase id) rfl fun b hb => (he.medium b hb).erase id
  rewrite := by
    intro e id s s' hs hid he
    obtain rfl : s'.credential.credentialId = id := hid.trans (he.keyed id s hs)
    exact mirrored_of_write (he.keyed.insert s') rfl fun b hb => (he.medium b hb).insert _ s'
  blobs v he := mirrored_of_write he.keyed rfl fun b hb => (he.medium b hb).setBlobs v
  clearBlobs he := mirrored_of_delete he.keyed rfl fun b hb => (he.medium b hb).clearBlobs
  insert s he :=
    mirrored_of_write (he.keyed.insert s) rfl fun b hb => (he.medium b hb).insert _ s

/-- Cleared, as Reset clears it, the engine and its medium hold nothing. -/
theorem mirrored_cleared (e : StorageEngine β) :
    Mirrored codec (clearLargeBlobs.run (clear.run e).2).2 := by
  obtain ⟨b, hrun, -, hpers⟩ := run_deleteAll_lawful e.knownKeys e
  have hclear : (clear : Prog (StorageEngine β) EngineError Unit).run e =
      (.ok (), { e with backend := b, credentials := ∅, kvStore := ∅ }) := by
    rw [clear, Prog.run_read_bind, Prog.run_bind_of_ok hrun]
    rfl
  rw [hclear, run_clearLargeBlobs]
  refine mirrored_of_delete (fun id s hs => ?_) rfl fun b' hb' => shadows_empty ?_
  · simp [afterClearBlobs, deleted] at hs
  · have hb : b = some b' := hb'
    have hnone : ∀ key : String, (contents b')[key]? = none := by
      intro key
      have hkey := hpers key
      simp only [persisted, hb, Option.bind_some] at hkey
      rw [hkey]
      by_cases hknown : key ∈ e.knownKeys
      · rw [if_pos hknown]
      · rw [if_neg hknown]
        rw [mem_knownKeys, Option.not_isSome_iff_eq_none] at hknown
        exact hknown
    refine ExtTreeMap.ext_getElem? fun key => ?_
    rw [kvMap_getElem?_erase, hnone]
    simp

/-! ## Loading -/

/-- What decodes on a medium lies under the key of its id. -/
def Filed (codec : Codec StoredCredential) (m : KvMap) : Prop :=
  ∀ (key : String) (v : Bytes) (s : StoredCredential), key ≠ largeBlobsStorageKey →
    m[key]? = some v → codec.decode v = some s → key = credKey s.credential.credentialId

/-- What one turn of the loading loop leaves. -/
def loaded (codec : Codec StoredCredential) (m : KvMap) (key : String) (e : StorageEngine β) :
    StorageEngine β :=
  m[key]?.elim e fun value => loadEntry codec key value e

theorem loadKeys_cons (b : β) (key : String) (keys : List String) (e : StorageEngine β) :
    (loadKeys codec b (key :: keys)).run e =
      (loadKeys codec b keys).run (loaded codec (contents b) key e) := by
  rw [loadKeys, Prog.run_bind_of_ok (show (Prog.check fun _ => StorageBackend.read b key).run e =
    (.ok (contents b)[key]?, e) from Prod.ext (LawfulBackend.read_eq b key) rfl),
    Prog.run_update_bind]
  rfl

omit [StorageBackend β] [LawfulBackend β] in
theorem credentials_loaded {m : KvMap} (hfiled : Filed codec m) (key : String)
    (e : StorageEngine β) (id : Bytes) :
    (loaded codec m key e).credentials[id]? =
      if credKey id = key then (m[key]?.bind codec.decode).or e.credentials[id]?
      else e.credentials[id]? := by
  unfold loaded
  cases hv : m[key]? with
  | none => simp
  | some v =>
      simp only [Option.elim_some, Option.bind_some, loadEntry]
      by_cases hblobs : key = largeBlobsStorageKey
      · rw [if_pos hblobs, if_neg]
        intro hkey
        exact credKey_ne_largeBlobs id (hkey.trans hblobs)
      · rw [if_neg hblobs]
        cases hs : codec.decode v with
        | none => simp
        | some s =>
            have hkey := hfiled key v s hblobs hv hs
            simp only [getElem?_insert_ite, hkey, credKey_inj]
            by_cases hid : id = s.credential.credentialId <;> simp [hid]

omit [StorageBackend β] [LawfulBackend β] in
theorem largeBlobs_loaded (m : KvMap) (key : String) (e : StorageEngine β) :
    (loaded codec m key e).largeBlobs =
      if key = largeBlobsStorageKey then m[key]?.getD e.largeBlobs else e.largeBlobs := by
  unfold loaded
  cases hv : m[key]? with
  | none => simp
  | some v =>
      simp only [Option.elim_some, Option.getD_some, loadEntry]
      by_cases hblobs : key = largeBlobsStorageKey
      · rw [if_pos hblobs, if_pos hblobs]
      · rw [if_neg hblobs, if_neg hblobs]
        cases codec.decode v <;> rfl

theorem credentials_loadKeys {b : β} (hfiled : Filed codec (contents b)) (keys : List String)
    (e : StorageEngine β) (id : Bytes) :
    ((loadKeys codec b keys).run e).2.credentials[id]? =
      if credKey id ∈ keys then
        ((contents b)[credKey id]?.bind codec.decode).or e.credentials[id]?
      else e.credentials[id]? := by
  induction keys generalizing e with
  | nil => simp [loadKeys]
  | cons key keys ih =>
      rw [loadKeys_cons, ih, credentials_loaded hfiled]
      by_cases hkey : credKey id = key
      · subst hkey
        by_cases hmem : credKey id ∈ keys <;> simp [hmem, ← Option.or_assoc]
      · simp [hkey]

theorem largeBlobs_loadKeys (b : β) (keys : List String) (e : StorageEngine β) :
    ((loadKeys codec b keys).run e).2.largeBlobs =
      if largeBlobsStorageKey ∈ keys then
        (contents b)[largeBlobsStorageKey]?.getD e.largeBlobs
      else e.largeBlobs := by
  induction keys generalizing e with
  | nil => simp [loadKeys]
  | cons key keys ih =>
      rw [loadKeys_cons, ih, largeBlobs_loaded]
      by_cases hkey : key = largeBlobsStorageKey
      · subst hkey
        cases (contents b)[largeBlobsStorageKey]? <;> simp
      · simp [hkey, Ne.symm hkey]

/-- An engine opened over a medium holds what decodes there, and the large blobs. -/
theorem withBackend_loads {b : β} (hfiled : Filed codec (contents b)) :
    (∀ id, (withBackend codec b).credentials[id]? =
      (contents b)[credKey id]?.bind codec.decode) ∧
    (withBackend codec b).largeBlobs = (contents b)[largeBlobsStorageKey]?.getD [] := by
  obtain ⟨keys, hkeys, hmem⟩ := LawfulBackend.listKeys_eq b
  have hrun : withBackend codec b = ((loadKeys codec b keys).run (empty (some b))).2 := by
    rw [withBackend, loadFromBackend, Prog.run_bind_of_ok (show
      (Prog.check fun _ => StorageBackend.listKeys b).run (empty (some b)) =
        (.ok keys, empty (some b)) from Prod.ext hkeys rfl)]
  have habsent : ∀ key : String, key ∉ keys → (contents b)[key]? = none := fun key hkey =>
    ExtTreeMap.getElem?_eq_none fun h => hkey ((hmem key).mpr h)
  rw [hrun]
  constructor
  · intro id
    rw [credentials_loadKeys hfiled]
    by_cases hkey : credKey id ∈ keys
    · simp [hkey, empty]
    · simp [hkey, habsent _ hkey, empty]
  · rw [largeBlobs_loadKeys]
    by_cases hkey : largeBlobsStorageKey ∈ keys
    · simp [hkey, empty]
    · simp [hkey, habsent _ hkey, empty]

/-! ## The same store -/

/-- Two engines give the same answers. -/
structure Same (e e' : StorageEngine β) : Prop where
  credentials : e'.credentials = e.credentials
  unlocked : ∀ id crypto, e'.getCredential id crypto = e.getCredential id crypto
  retrieve : ∀ key, e'.retrieve key = e.retrieve key
  largeBlobs : e'.largeBlobs = e.largeBlobs

variable (codec) in
/-- No entry decodes as a credential. -/
def Plain (e : StorageEngine β) : Prop :=
  ∀ (key : String) (v : Bytes), SystemKey key → e.value key = some v → codec.decode v = none

variable (codec) in
/-- Decoding inverts the encoding of every record. -/
def Decodes (e : StorageEngine β) : Prop :=
  ∀ s ∈ e.records, codec.decode (codec.encode s) = some s

theorem value_of_contents {e : StorageEngine β} {b : β} (hb : e.backend = some b) {key : String}
    {v : Bytes} (hv : (contents b)[key]? = some v) : e.value key = some v := by
  rw [value_eq, persisted, hb, Option.bind_some, hv]
  rfl

/-- It is enough to look at the entries of the medium and of memory that are not records. -/
theorem plain_of_entries {e : StorageEngine β} (ids : List Bytes)
    (h : ∀ entry ∈ e.backend.elim [] (fun b => (contents b).toList) ++ e.kvStore.toList,
      entry.1 ∈ ids.map credKey ∨ codec.decode entry.2 = none) : e.Plain codec := by
  intro key v hkey hv
  rw [value_eq, persisted] at hv
  have hmem : (key, v) ∈ e.backend.elim [] (fun b => (contents b).toList) ++ e.kvStore.toList := by
    rw [List.mem_append]
    rcases Option.or_eq_some_iff.mp hv with hmedium | ⟨-, hmemory⟩
    · obtain ⟨b, hb, hmedium⟩ := Option.bind_eq_some_iff.mp hmedium
      rw [hb]
      exact .inl (ExtTreeMap.mem_toList_iff_getElem?_eq_some.mpr hmedium)
    · exact .inr (ExtTreeMap.mem_toList_iff_getElem?_eq_some.mpr hmemory)
  rcases h _ hmem with hrecord | hnone
  · obtain ⟨id, -, hid⟩ := List.mem_map.mp hrecord
    exact absurd hid.symm (hkey.2 id)
  · exact hnone

theorem record_of_contents {e : StorageEngine β} (he : e.Mirrored codec)
    (hdecodes : e.Decodes codec) {b : β} (hb : e.backend = some b) (id : Bytes) :
    (contents b)[credKey id]?.bind codec.decode = e.credentials[id]? := by
  rw [(he.medium b hb).records id]
  cases hs : e.credentials[id]? with
  | none => rfl
  | some s => exact hdecodes s (mem_records_iff.mpr ⟨id, hs⟩)

/-- What decodes on the medium is a credential under its key. -/
theorem filed_of_mirrored {e : StorageEngine β} (he : e.Mirrored codec) (hplain : e.Plain codec)
    (hdecodes : e.Decodes codec) {b : β} (hb : e.backend = some b) :
    Filed codec (contents b) := by
  intro key v s hblobs hv hs
  by_cases hkey : SystemKey key
  · rw [hplain key v hkey (value_of_contents hb hv)] at hs
    cases hs
  · have hcred : ∃ id, key = credKey id := by
      by_contra hnone
      exact hkey ⟨hblobs, fun id heq => hnone ⟨id, heq⟩⟩
    obtain ⟨id, rfl⟩ := hcred
    have hrecord := record_of_contents he hdecodes hb id
    rw [hv, Option.bind_some, hs] at hrecord
    rw [he.keyed id s hrecord.symm]

theorem same_withBackend {e : StorageEngine β} (he : e.Mirrored codec) (hplain : e.Plain codec)
    (hdecodes : e.Decodes codec) {b : β} (hb : e.backend = some b) :
    Same e (withBackend codec b) := by
  obtain ⟨hcredentials, hblobs⟩ :=
    withBackend_loads (filed_of_mirrored he hplain hdecodes hb)
  obtain ⟨hbackend, hkv⟩ := withBackend_eq codec b
  have hsame : (withBackend codec b).credentials = e.credentials :=
    ExtTreeMap.ext_getElem? fun id =>
      (hcredentials id).trans (record_of_contents he hdecodes hb id)
  refine ⟨hsame, fun id crypto => ?_, fun key => ?_, ?_⟩
  · unfold getCredential
    rw [hsame]
  · unfold retrieve
    rw [hbackend, hkv, hb]
    simp only [LawfulBackend.read_eq]
    cases hm : (contents b)[key]? with
    | some v => rfl
    | none =>
        cases hv : e.kvStore[key]? with
        | none => simp
        | some v =>
            have hstored := ((he.medium b hb).entries key v hv).2
            rw [hm] at hstored
            cases hstored
  · rw [hblobs]
    exact (he.medium b hb).blobs

theorem mirrored_withBackend {e : StorageEngine β} (he : e.Mirrored codec) (hplain : e.Plain codec)
    (hdecodes : e.Decodes codec) {b : β} (hb : e.backend = some b) :
    (withBackend codec b).Mirrored codec where
  keyed := keyed_withBackend codec b
  medium b' hb' := by
    obtain ⟨hbackend, hkv⟩ := withBackend_eq codec b
    obtain rfl : b = b' := Option.some.inj (hbackend.symm.trans hb')
    have hsame := same_withBackend he hplain hdecodes hb
    rw [hsame.credentials, hsame.largeBlobs, hkv]
    exact ⟨(he.medium b hb).records, fun key v hv => by simp at hv, (he.medium b hb).blobs⟩

/-! ## Runs -/

/-- A key of an entry: not of a credential, nor of the large blobs. -/
def EntryKey (key : String) : Prop :=
  key ≠ largeBlobsStorageKey ∧ ¬"cred:".toList <+: key.toList

theorem systemKey_of_entryKey {key : String} (h : EntryKey key) : SystemKey key := by
  refine ⟨h.1, fun id heq => h.2 ?_⟩
  rw [heq, credKey, String.toList_append]
  exact List.prefix_append _ _

end

end StorageEngine

/-- An operation of a caller that keeps to its own keys, and stores nothing that decodes as a
credential. Clearing comes with the large blobs only. -/
def EngineOp.Admissible (codec : Codec StoredCredential) : EngineOp → Prop
  | .store key value => StorageEngine.EntryKey key ∧ codec.decode value = none
  | .delete key => StorageEngine.EntryKey key
  | .clear => False
  | _ => True

namespace StorageEngine

section

variable {β : Type} [StorageBackend β] [LawfulBackend β] {codec : Codec StoredCredential}
  {crypto : CryptoEngine}

variable (codec crypto) in
/-- The engines that such operations lead to, from an empty medium on. -/
inductive Operated : StorageEngine β → Prop
  | opened {b : β} (hempty : contents b = ∅) : Operated (withBackend codec b)
  | limited {e : StorageEngine β} (max : Nat) (before : Operated e) :
      Operated { e with maxCredentialCount := some max }
  | ran {e : StorageEngine β} (op : EngineOp) (before : Operated e) (hop : op.Admissible codec) :
      Operated ((runOp codec crypto op).run e).2
  | cleared {e : StorageEngine β} (before : Operated e) :
      Operated (clearLargeBlobs.run (clear.run e).2).2
  | reopened {e : StorageEngine β} {b : β} (before : Operated e) (hb : e.backend = some b)
      (hdecodes : e.Decodes codec) : Operated (withBackend codec b)

theorem mirrored_runOp {op : EngineOp} (hop : op.Admissible codec) :
    Keeps (.invariant (Mirrored codec))
      (runOp codec crypto op : Prog (StorageEngine β) EngineError Unit) := by
  have hstable : Stable codec (Mirrored codec : StorageEngine β → Prop) := stable_mirrored
  cases op with
  | store key value => exact hstable.keeps_store (systemKey_of_entryKey hop.1) value
  | delete key => exact hstable.keeps_delete (systemKey_of_entryKey hop)
  | storeCredential credential nonce =>
      exact hstable.keeps_makeRoom.bind fun _ =>
        hstable.keeps_insertCredential crypto credential nonce
  | updateSignCount id n => exact hstable.keeps_updateSignCount id n
  | deleteCredential id => exact (hstable.keeps_deleteCredential id).bind fun _ => .pure ()
  | updateUserInfo id userName userDisplayName =>
      exact (hstable.keeps_updateUserInfo id userName userDisplayName).bind fun _ => .pure ()
  | writeLargeBlobs offset data expectedLen =>
      exact hstable.keeps_writeLargeBlobs offset data expectedLen
  | clear => exact hop.elim
  | clearLargeBlobs => exact hstable.keeps_clearLargeBlobs

theorem plain_of_settled {α : Type} {m : Prog (StorageEngine β) EngineError α}
    (h : Keeps Settled m) : Keeps (.invariant (Plain codec)) m := by
  intro e he key v hkey hv
  rw [(h e).1 key hkey] at hv
  exact he key v hkey hv

theorem plain_of_saved {e e' : StorageEngine β} {key : String} {value : Option Bytes}
    (h : Saved key value e e') (hvalue : ∀ v, value = some v → codec.decode v = none)
    (he : e.Plain codec) : e'.Plain codec := by
  intro key' v hkey' hv
  rw [h.value_eq] at hv
  by_cases heq : key' = key
  · rw [if_pos heq] at hv
    exact hvalue v hv
  · rw [if_neg heq] at hv
    exact he key' v hkey' hv

theorem plain_runOp {op : EngineOp} (hop : op.Admissible codec) :
    Keeps (.invariant (Plain codec))
      (runOp codec crypto op : Prog (StorageEngine β) EngineError Unit) := by
  cases op with
  | store key value =>
      intro e he
      refine plain_of_saved (saved_run_store key value e) (fun v hv => ?_) he
      rw [← Option.some.inj hv]
      exact hop.2
  | delete key =>
      intro e he
      exact plain_of_saved (saved_run_delete key e) (fun v hv => nomatch hv) he
  | storeCredential credential nonce =>
      exact plain_of_settled (settled_makeRoom.bind fun _ =>
        settled_insertCredential codec crypto credential nonce)
  | updateSignCount id n => exact plain_of_settled (settled_updateSignCount codec id n)
  | deleteCredential id =>
      exact plain_of_settled ((settled_deleteCredential id).bind fun _ => .pure ())
  | updateUserInfo id userName userDisplayName =>
      exact plain_of_settled
        ((settled_updateUserInfo codec id userName userDisplayName).bind fun _ => .pure ())
  | writeLargeBlobs offset data expectedLen =>
      exact plain_of_settled (settled_writeLargeBlobs offset data expectedLen)
  | clear => exact hop.elim
  | clearLargeBlobs => exact plain_of_settled settled_clearLargeBlobs

/-- The invariant of runs. -/
structure Accounted (codec : Codec StoredCredential) (e : StorageEngine β) : Prop where
  mirrored : e.Mirrored codec
  plain : e.Plain codec

theorem Mirrored.synced {e : StorageEngine β} (he : e.Mirrored codec) : e.Synced := by
  intro hsome key hkey v hv
  obtain ⟨b, hb⟩ := Option.isSome_iff_exists.mp hsome
  rw [persisted, hb, Option.bind_some]
  exact ((he.medium b hb).entries key v hv).2

theorem accounted_opened {b : β} (h : contents b = ∅) : (withBackend codec b).Accounted codec := by
  have hempty : (empty (some b)).Mirrored codec := by
    refine ⟨keyed_empty _, fun b' hb' => ?_⟩
    cases hb'
    exact shadows_empty h
  have hplain : (empty (some b)).Plain codec := by
    intro key v _ hv
    simp [value_eq, persisted, empty, h] at hv
  have hdecodes : (empty (some b)).Decodes codec := by
    intro s hs
    simp [records, empty] at hs
  refine ⟨mirrored_withBackend hempty hplain hdecodes rfl, fun key v hkey hv => ?_⟩
  have hsynced : (empty (some b)).Synced := hempty.synced
  rw [value_withBackend codec rfl hsynced hkey] at hv
  exact hplain key v hkey hv

theorem accounted_of_operated {e : StorageEngine β} (h : Operated codec crypto e) :
    e.Accounted codec := by
  induction h with
  | opened hempty => exact accounted_opened hempty
  | limited max before ih => exact ⟨⟨ih.mirrored.keyed, ih.mirrored.medium⟩, ih.plain⟩
  | ran op before hop ih => exact ⟨mirrored_runOp hop _ ih.mirrored, plain_runOp hop _ ih.plain⟩
  | @cleared e before ih =>
      refine ⟨mirrored_cleared e, plain_of_settled settled_clearLargeBlobs _ ?_⟩
      obtain ⟨e', hrun, hnone, -⟩ := run_clear e
      intro key v _ hv
      rw [hrun, hnone] at hv
      cases hv
  | reopened before hb hdecodes ih =>
      refine ⟨mirrored_withBackend ih.mirrored ih.plain hdecodes hb, fun key v hkey hv => ?_⟩
      rw [value_withBackend codec hb ih.mirrored.synced hkey] at hv
      exact ih.plain key v hkey hv

/-- Opened again, a store is the same. -/
theorem reload_same {e : StorageEngine β} (h : Operated codec crypto e) {b : β}
    (hb : e.backend = some b) (hdecodes : e.Decodes codec) : Same e (withBackend codec b) := by
  obtain ⟨hmirrored, hplain⟩ := accounted_of_operated h
  exact same_withBackend hmirrored hplain hdecodes hb

end

/-! ## A store opened again -/

/-- A codec for one record, written as one byte. -/
def oneRecordCodec (record : StoredCredential) : Codec StoredCredential where
  encode s := if s = record then [7] else List.replicate (2 ^ 64) 0
  decode v := if v = [7] then some record else none
  decode_encode s h := by
    by_cases hs : s = record
    · rw [if_pos hs, if_pos rfl, hs]
    · rw [if_neg hs, List.length_replicate] at h
      exact absurd h (Nat.lt_irrefl _)

/-- A credential at rest under a key of zeros. -/
def shortRecord : StoredCredential where
  credential := { shortCredential 1 10 with privateKey := [] }
  encryptedPrivateKey := oneKeyCrypto.oneKeySealed
  nonce := List.replicate 12 0

/-- An engine over an empty medium after an entry, a credential and large blobs are stored. -/
def operatedStore : StorageEngine KvMap :=
  [EngineOp.store "sys:pin_retries" [0x38],
    .storeCredential (shortCredential 1 10) (List.replicate 12 0),
    .writeLargeBlobs 0 [5] none].foldl
      (fun e op => ((runOp (oneRecordCodec shortRecord) oneKeyCrypto op).run e).2)
      (withBackend (oneRecordCodec shortRecord) ∅)

theorem operated_operatedStore :
    Operated (oneRecordCodec shortRecord) oneKeyCrypto operatedStore := by
  have hopened : Operated (oneRecordCodec shortRecord) oneKeyCrypto
      (withBackend (oneRecordCodec shortRecord) (∅ : KvMap)) := .opened rfl
  have hkey : EntryKey "sys:pin_retries" := ⟨by decide, by decide⟩
  exact .ran _ (.ran _ (.ran _ hopened ⟨hkey, rfl⟩) trivial) trivial

theorem decodes_operatedStore : operatedStore.Decodes (oneRecordCodec shortRecord) := by
  unfold Decodes
  decide +kernel

/-- It holds the credential and the large blobs when it is opened again. -/
theorem reload_same_stored : ∃ b, operatedStore.backend = some b ∧ b.size = 3 ∧
    Same operatedStore (withBackend (oneRecordCodec shortRecord) b) :=
  ⟨_, rfl, by decide +kernel, reload_same operated_operatedStore rfl decodes_operatedStore⟩

end StorageEngine

end OpenKey
