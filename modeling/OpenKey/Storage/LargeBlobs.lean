import OpenKey.Storage.WriteThrough

/-!
# The large-blob array

What one fragment does to the array: it overwrites its range, and the array grows to the expected
length first, if that is longer (`take_splicedBlobs`, `drop_splicedBlobs`). It never shrinks.

**Bound (`Bounded`).** No array in memory or on the medium is longer than 4096 bytes, over any
medium that holds under a key what was there or what a call puts there (`LocalBackend`), whether its
calls succeed or not.
-/

namespace OpenKey

open Prog (Keeps)

set_option autoImplicit false

/-- A medium on which a call, whether it fails or not, changes no entry but its own, and that one to
what the call puts there. -/
class LocalBackend (β : Type) [StorageBackend β] where
  /-- What the medium holds. -/
  entries : β → KvMap
  read_ok : ∀ (b : β) (key : String) (v : Bytes), StorageBackend.read b key = .ok (some v) →
    (entries b)[key]? = some v
  entries_write : ∀ (b : β) (key : String) (v : Bytes) (key' : String),
    (entries ((StorageBackend.write key v).run b).2)[key']? = (entries b)[key']? ∨
      key' = key ∧ (entries ((StorageBackend.write key v).run b).2)[key']? = some v
  entries_delete : ∀ (b : β) (key key' : String),
    (entries ((StorageBackend.delete key).run b).2)[key']? = (entries b)[key']? ∨
      (entries ((StorageBackend.delete key).run b).2)[key']? = none

instance (β : Type) [StorageBackend β] [LawfulBackend β] : LocalBackend β where
  entries := contents
  read_ok b key v h := by
    rw [LawfulBackend.read_eq] at h
    exact Except.ok.inj h
  entries_write b key v key' := by
    rw [LawfulBackend.contents_write, kvMap_getElem?_insert]
    by_cases h : key' = key
    · exact .inr ⟨h, if_pos h⟩
    · exact .inl (if_neg h)
  entries_delete b key key' := by
    rw [LawfulBackend.contents_delete, kvMap_getElem?_erase]
    by_cases h : key' = key
    · exact .inr (if_pos h)
    · exact .inl (if_neg h)

instance : LocalBackend FaultyBackend where
  entries := FaultyBackend.entries
  read_ok b key v h := Except.ok.inj h
  entries_write b key v key' := by
    show (if b.faults.headD false then b.entries else b.entries.insert key v)[key']? = _ ∨
      _ ∧ (if b.faults.headD false then b.entries else b.entries.insert key v)[key']? = _
    cases b.faults.headD false with
    | true => exact .inl rfl
    | false =>
        rw [if_neg Bool.false_ne_true, kvMap_getElem?_insert]
        by_cases h : key' = key
        · exact .inr ⟨h, if_pos h⟩
        · exact .inl (if_neg h)
  entries_delete b key key' := by
    show (if b.faults.headD false then b.entries else b.entries.erase key)[key']? = _ ∨
      (if b.faults.headD false then b.entries else b.entries.erase key)[key']? = _
    cases b.faults.headD false with
    | true => exact .inl rfl
    | false =>
        rw [if_neg Bool.false_ne_true, kvMap_getElem?_erase]
        by_cases h : key' = key
        · exact .inr (if_pos h)
        · exact .inl (if_neg h)

namespace StorageEngine

/-! ## One fragment -/

section

variable {blobs data : Bytes} {offset length : Nat}

theorem length_grow (blobs : Bytes) (target : Nat) :
    (grow blobs target).length = max blobs.length target := by
  rw [grow, List.length_append, List.length_replicate]
  omega

theorem length_splicedBlobs (blobs data : Bytes) (offset : Nat) (expectedLen : Option Nat) :
    (splicedBlobs blobs offset data expectedLen).length =
      max blobs.length (max (expectedLen.getD (offset + data.length)) (offset + data.length)) := by
  have hgrow := length_grow blobs
    (max (expectedLen.getD (offset + data.length)) (offset + data.length))
  simp only [splicedBlobs]
  rw [Bytes.length_splice (by omega), hgrow]

/-- A fragment stands where it was put, after what was there. -/
theorem take_splicedBlobs (h : offset ≤ blobs.length) (expectedLen : Option Nat) :
    (splicedBlobs blobs offset data expectedLen).take (offset + data.length) =
      blobs.take offset ++ data := by
  have htake : (blobs.take offset).length = offset := List.length_take_of_le h
  simp only [splicedBlobs, Bytes.splice, grow]
  rw [List.take_append_of_le_length h]
  exact List.take_left' (by rw [List.length_append, htake])

/-- Beyond the expected length nothing changes. -/
theorem drop_splicedBlobs (hoffset : offset ≤ blobs.length)
    (hlength : offset + data.length ≤ length) :
    (splicedBlobs blobs offset data (some length)).drop length = blobs.drop length := by
  have htake : (blobs.take offset).length = offset := List.length_take_of_le hoffset
  simp only [splicedBlobs, Bytes.splice, Option.getD_some, Nat.max_eq_left hlength]
  have hfront : (List.take offset (grow blobs length) ++ data).length = offset + data.length := by
    rw [List.length_append, grow, List.take_append_of_le_length hoffset, htake]
  rw [List.drop_append, hfront, List.drop_eq_nil_of_le (by omega), List.nil_append, List.drop_drop,
    show offset + data.length + (length - (offset + data.length)) = length by omega, grow,
    List.drop_append, List.drop_replicate]
  rcases Nat.le_total length blobs.length with hle | hle
  · rw [Nat.sub_eq_zero_of_le hle, Nat.zero_sub, List.replicate_zero, List.append_nil]
  · rw [Nat.sub_self, List.replicate_zero, List.append_nil]

end

/-! ## The bound -/

section

variable {β : Type}

/-- What the checks let through fits the array. -/
theorem checkLargeBlobs_ok {e : StorageEngine β} {offset last : Nat} {data : Bytes}
    {expectedLen : Option Nat} (h : e.checkLargeBlobs offset data expectedLen = .ok last) :
    offset ≤ e.largeBlobs.length ∧ offset + data.length ≤ maxLargeBlobsSize ∧
      ∀ length, expectedLen = some length →
        length ≤ maxLargeBlobsSize ∧ offset + data.length ≤ length := by
  simp only [checkLargeBlobs] at h
  split at h
  · cases h
  split at h
  · cases h
  split at h
  · cases h
  split at h
  · cases h
  split at h
  · cases h
  · next hsize hexpected hend hsparse =>
      refine ⟨Nat.not_lt.mp hsparse, Nat.not_lt.mp hsize, ?_⟩
      rintro length rfl
      simp only [Option.any_some, decide_eq_true_eq, Nat.not_lt] at hexpected hend
      exact ⟨hexpected, hend⟩

variable [StorageBackend β]

/-- A fragment that passes the checks is in memory, whatever the medium says. -/
theorem largeBlobs_writeLargeBlobs {e : StorageEngine β} {offset last : Nat} {data : Bytes}
    {expectedLen : Option Nat} (h : e.checkLargeBlobs offset data expectedLen = .ok last) :
    ((writeLargeBlobs offset data expectedLen).run e).2.largeBlobs =
      splicedBlobs e.largeBlobs offset data expectedLen := by
  rw [writeLargeBlobs, Prog.run_bind_of_ok (Prod.ext h rfl), Prog.run_read_bind,
    Prog.run_update_bind]
  obtain ⟨backend, hsnd⟩ := onBackend_snd
    (StorageBackend.write largeBlobsStorageKey
      (splicedBlobs e.largeBlobs offset data expectedLen))
    { e with largeBlobs := splicedBlobs e.largeBlobs offset data expectedLen }
  exact congrArg StorageEngine.largeBlobs hsnd

theorem run_writeLargeBlobs_refused {e : StorageEngine β} {offset : Nat} {data : Bytes}
    {expectedLen : Option Nat} {error : EngineError}
    (h : e.checkLargeBlobs offset data expectedLen = .error error) :
    (writeLargeBlobs offset data expectedLen).run e = (.error error, e) :=
  Prog.run_check_bind_error h

variable [LocalBackend β]

/-- Neither the array in memory nor the one on the medium exceeds the limit. -/
structure Bounded (e : StorageEngine β) : Prop where
  memory : e.largeBlobs.length ≤ maxLargeBlobsSize
  medium : ∀ b v, e.backend = some b →
    (LocalBackend.entries b)[largeBlobsStorageKey]? = some v → v.length ≤ maxLargeBlobsSize

theorem bounded_onBackend {m : Prog β StorageError Unit} (h : ∀ b v,
    (LocalBackend.entries (m.run b).2)[largeBlobsStorageKey]? = some v →
      (LocalBackend.entries b)[largeBlobsStorageKey]? = some v ∨ v.length ≤ maxLargeBlobsSize) :
    Keeps (.invariant Bounded) (onBackend m) := by
  intro e he
  cases hb : e.backend with
  | none =>
      have hrun : (onBackend m).run e = (.ok (), e) := by simp only [onBackend, hb]
      rw [hrun]
      exact he
  | some b =>
      simp only [onBackend, hb]
      refine ⟨he.memory, ?_⟩
      rintro b' v ⟨⟩ hv
      rcases h b v hv with hold | hle
      · exact he.medium b v hb hold
      · exact hle

theorem bounded_write {key : String} {v : Bytes}
    (h : key = largeBlobsStorageKey → v.length ≤ maxLargeBlobsSize) :
    Keeps (.invariant Bounded)
      (onBackend (StorageBackend.write key v) : Prog (StorageEngine β) EngineError Unit) := by
  refine bounded_onBackend fun b w hw => ?_
  rcases LocalBackend.entries_write b key v largeBlobsStorageKey with hsame | ⟨hkey, hnew⟩
  · exact .inl (hsame ▸ hw)
  · rw [hnew] at hw
    obtain rfl := Option.some.inj hw
    exact .inr (h hkey.symm)

theorem bounded_delete (key : String) :
    Keeps (.invariant Bounded)
      (onBackend (StorageBackend.delete key) : Prog (StorageEngine β) EngineError Unit) := by
  refine bounded_onBackend fun b w hw => .inl ?_
  rcases LocalBackend.entries_delete b key largeBlobsStorageKey with hsame | hgone
  · exact hsame ▸ hw
  · rw [hgone] at hw
    cases hw

theorem bounded_deleteIgnored (key : String) :
    Keeps (.invariant Bounded) (onBackendIgnored (StorageBackend.delete key) :
      Prog (StorageEngine β) EngineError Unit) :=
  (bounded_delete key).attempt.bind fun _ => .pure ()

theorem bounded_store {key : String} (hkey : key ≠ largeBlobsStorageKey) (v : Bytes) :
    Keeps (.invariant Bounded) (store key v : Prog (StorageEngine β) EngineError Unit) :=
  (Keeps.update fun _ h => ⟨h.memory, h.medium⟩).bind fun _ =>
    (bounded_write fun h => absurd h hkey).bind fun _ => .update fun _ h => ⟨h.memory, h.medium⟩

theorem bounded_deleteEntry (key : String) :
    Keeps (.invariant Bounded) (delete key : Prog (StorageEngine β) EngineError Unit) :=
  (bounded_deleteIgnored key).bind fun _ => .update fun _ h => ⟨h.memory, h.medium⟩

theorem bounded_deleteCredential (id : Bytes) :
    Keeps (.invariant Bounded) (deleteCredential id : Prog (StorageEngine β) EngineError Bool) :=
  (Keeps.read _).bind fun _ => .ite
    (fun _ => (Keeps.update fun _ h => ⟨h.memory, h.medium⟩).bind fun _ =>
      (bounded_delete _).bind fun _ => .pure true)
    fun _ => .pure false

theorem bounded_makeRoom :
    Keeps (.invariant Bounded) (makeRoom : Prog (StorageEngine β) EngineError Unit) :=
  (Keeps.read _).bind fun _ => .when fun _ => (Keeps.read _).bind fun found => by
    cases found with
    | none => exact .pure ()
    | some s => exact (bounded_deleteCredential _).bind fun _ => .pure ()

section

variable (codec : Codec StoredCredential)

theorem credKey_ne_largeBlobs (id : Bytes) : credKey id ≠ largeBlobsStorageKey := by
  intro h
  have htake := congrArg (fun s : String => s.toList.take 5) h
  simp only [credKey, String.toList_append] at htake
  rw [List.take_append_of_le_length (by decide)] at htake
  exact absurd htake (by decide)

theorem bounded_writeCredential (id : Bytes) (s : StoredCredential) :
    Keeps (.invariant Bounded)
      (writeCredential codec id s : Prog (StorageEngine β) EngineError Unit) :=
  bounded_write fun h => absurd h (credKey_ne_largeBlobs id)

theorem bounded_insertCredential (crypto : CryptoEngine) (credential : Credential) (nonce : Bytes) :
    Keeps (.invariant Bounded) (insertCredential codec crypto credential nonce :
      Prog (StorageEngine β) EngineError Unit) :=
  (Keeps.check _).bind fun _ => (Keeps.update fun _ h => ⟨h.memory, h.medium⟩).bind fun _ =>
    (bounded_writeCredential codec _ _).bind fun _ => .update fun _ h => ⟨h.memory, h.medium⟩

theorem bounded_rewriteCredential (id : Bytes) (s : StoredCredential) :
    Keeps (.invariant Bounded)
      (rewriteCredential codec id s : Prog (StorageEngine β) EngineError Unit) :=
  (Keeps.update fun _ h => ⟨h.memory, h.medium⟩).bind fun _ => bounded_writeCredential codec id s

theorem bounded_updateSignCount (id : Bytes) (n : Nat) :
    Keeps (.invariant Bounded)
      (updateSignCount codec id n : Prog (StorageEngine β) EngineError Unit) :=
  (Keeps.read _).bind fun found => by
    cases found with
    | none => exact .fail _
    | some s => exact bounded_rewriteCredential codec id _

theorem bounded_updateUserInfo (id : Bytes) (userName userDisplayName : Option String) :
    Keeps (.invariant Bounded) (updateUserInfo codec id userName userDisplayName :
      Prog (StorageEngine β) EngineError Bool) :=
  (Keeps.read _).bind fun found => by
    cases found with
    | none => exact .pure false
    | some s => exact (bounded_rewriteCredential codec id _).bind fun _ => .pure true

end

/-- A fragment that passes the checks keeps the array within the limit. -/
theorem bounded_writeLargeBlobs (offset : Nat) (data : Bytes) (expectedLen : Option Nat) :
    Keeps (.invariant Bounded) (writeLargeBlobs offset data expectedLen :
      Prog (StorageEngine β) EngineError Unit) := by
  intro e he
  cases hcheck : e.checkLargeBlobs offset data expectedLen with
  | error error =>
      rw [run_writeLargeBlobs_refused hcheck]
      exact he
  | ok last =>
      obtain ⟨hoffset, hlast, hexpected⟩ := checkLargeBlobs_ok hcheck
      have hlength : (splicedBlobs e.largeBlobs offset data expectedLen).length ≤
          maxLargeBlobsSize := by
        have hmemory := he.memory
        rw [length_splicedBlobs]
        cases expectedLen with
        | none =>
            rw [Option.getD_none]
            omega
        | some length =>
            have hle := (hexpected length rfl).1
            rw [Option.getD_some]
            omega
      rw [writeLargeBlobs, Prog.run_bind_of_ok (Prod.ext hcheck rfl), Prog.run_read_bind,
        Prog.run_update_bind]
      exact bounded_write (fun _ => hlength) _ ⟨hlength, he.medium⟩

theorem bounded_clearLargeBlobs :
    Keeps (.invariant Bounded) (clearLargeBlobs : Prog (StorageEngine β) EngineError Unit) :=
  (Keeps.update fun _ h => ⟨Nat.zero_le _, h.medium⟩).bind fun _ => bounded_deleteIgnored _

theorem bounded_deleteAll (keys : List String) :
    Keeps (.invariant Bounded) (deleteAll keys : Prog (StorageEngine β) EngineError Unit) := by
  induction keys with
  | nil => exact .pure ()
  | cons key keys ih => exact (bounded_deleteIgnored key).bind fun _ => ih

theorem bounded_clear :
    Keeps (.invariant Bounded) (clear : Prog (StorageEngine β) EngineError Unit) :=
  (Keeps.read _).bind fun keys => (bounded_deleteAll keys).bind fun _ =>
    .update fun _ h => ⟨h.memory, h.medium⟩

/-! ### Opening -/

theorem length_loadKeys (codec : Codec StoredCredential) {b : β}
    (hb : ∀ v, (LocalBackend.entries b)[largeBlobsStorageKey]? = some v →
      v.length ≤ maxLargeBlobsSize) (keys : List String) :
    Keeps (.invariant fun e : StorageEngine β => e.largeBlobs.length ≤ maxLargeBlobsSize)
      (loadKeys codec b keys) := by
  induction keys with
  | nil => exact .pure ()
  | cons key keys ih =>
      intro e he
      unfold loadKeys
      cases hread : StorageBackend.read b key with
      | error error => exact he
      | ok value =>
          refine ih (value.elim e fun value => loadEntry codec key value e) ?_
          cases value with
          | none => exact he
          | some v =>
              show (loadEntry codec key v e).largeBlobs.length ≤ maxLargeBlobsSize
              unfold loadEntry
              split
              · next hkey =>
                  subst hkey
                  exact hb v (LocalBackend.read_ok b _ v hread)
              · cases codec.decode v <;> exact he

/-- An engine opened on a medium within the limit is within it. -/
theorem bounded_withBackend (codec : Codec StoredCredential) {b : β}
    (hb : ∀ v, (LocalBackend.entries b)[largeBlobsStorageKey]? = some v →
      v.length ≤ maxLargeBlobsSize) : (withBackend codec b).Bounded where
  memory := ((Keeps.check _).bind fun keys => length_loadKeys codec hb keys) (empty (some b))
    (Nat.zero_le _)
  medium := by
    intro b' v hb' hv
    rw [(withBackend_eq codec b).1] at hb'
    cases hb'
    exact hb v hv

theorem bounded_new : (new : StorageEngine β).Bounded :=
  ⟨Nat.zero_le _, fun _ _ h => nomatch h⟩

end

end StorageEngine

end OpenKey
