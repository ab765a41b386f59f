import OpenKey.Ctap2.CredProtect

/-!
# The selection of credentials

Where a credential that GetAssertion or GetNextAssertion uses comes from: it is the record under
an id, unlocked, of the right relying party and past the gate of credProtect.
-/

namespace OpenKey

set_option autoImplicit false

namespace StorageEngine

variable {β : Type}

/-- The credentials of a relying party are the records with its hash that decrypt. -/
theorem mem_findCredentialsByRpHash {e : StorageEngine β} {rpHash : Bytes} {crypto : CryptoEngine}
    {c : Credential} : c ∈ e.findCredentialsByRpHash rpHash crypto ↔
      ∃ s ∈ e.records, s.credential.rpIdHash = rpHash ∧ unlock crypto s = .ok c := by
  unfold findCredentialsByRpHash
  rw [List.mem_filterMap]
  constructor
  · rintro ⟨s, hs, hu⟩
    obtain ⟨hmem, hhash⟩ := List.mem_filter.mp hs
    refine ⟨s, hmem, of_decide_eq_true hhash, ?_⟩
    cases hu' : unlock crypto s with
    | error error =>
        rw [hu'] at hu
        cases hu
    | ok c' =>
        rw [hu'] at hu
        cases hu
        rfl
  · rintro ⟨s, hmem, hhash, hu⟩
    refine ⟨s, List.mem_filter.mpr ⟨hmem, decide_eq_true hhash⟩, ?_⟩
    rw [hu]
    rfl

theorem mem_findByRpId_iff {e : StorageEngine β} {rpId : String} {crypto : CryptoEngine}
    {c : Credential} : c ∈ e.findByRpId rpId crypto ↔
      ∃ s ∈ e.records, s.credential.rpIdHash = hashRpId rpId crypto ∧ unlock crypto s = .ok c :=
  mem_findCredentialsByRpHash

theorem unlock_rpIdHash {crypto : CryptoEngine} {s : StoredCredential} {c : Credential}
    (h : unlock crypto s = .ok c) : c.rpIdHash = s.credential.rpIdHash := by
  obtain ⟨key, rfl⟩ := unlock_ok h
  rfl

end StorageEngine

namespace Auth

variable {β : Type}

/-- A named credential was found under a named id. -/
theorem selectNamed_some {a : Auth β} {rpIdHash : Bytes} {uvSatisfied : Bool}
    {descriptors : List CredentialDescriptor} {c : Credential}
    (h : selectNamed a rpIdHash uvSatisfied descriptors = .ok (some c)) :
    ∃ d ∈ descriptors, a.storage.getCredential d.id a.crypto = .ok (some c) ∧
      c.rpIdHash = rpIdHash ∧ isCredProtectAllowed c uvSatisfied true = true := by
  induction descriptors with
  | nil => cases h
  | cons descriptor rest ih =>
      have hlater : selectNamed a rpIdHash uvSatisfied rest = .ok (some c) →
          ∃ d ∈ descriptor :: rest, a.storage.getCredential d.id a.crypto = .ok (some c) ∧
            c.rpIdHash = rpIdHash ∧ isCredProtectAllowed c uvSatisfied true = true := by
        intro hrest
        obtain ⟨d, hd, hfound⟩ := ih hrest
        exact ⟨d, List.mem_cons_of_mem _ hd, hfound⟩
      unfold selectNamed at h
      split at h
      · cases h
      · exact hlater h
      · next credential hget =>
          split at h
          · next hallowed =>
              cases h
              exact ⟨descriptor, List.mem_cons_self, hget, hallowed⟩
          · exact hlater h

/-- No named credential is found if every named id is looked up and none qualifies. -/
theorem selectNamed_none {a : Auth β} {rpIdHash : Bytes} {uvSatisfied : Bool}
    {descriptors : List CredentialDescriptor}
    (h : selectNamed a rpIdHash uvSatisfied descriptors = .ok none) :
    ∀ d ∈ descriptors, ∀ c, a.storage.getCredential d.id a.crypto = .ok (some c) →
      c.rpIdHash = rpIdHash → isCredProtectAllowed c uvSatisfied true = false := by
  induction descriptors with
  | nil => simp
  | cons descriptor rest ih =>
      intro d hd c hget hhash
      unfold selectNamed at h
      split at h
      · cases h
      · next hnone =>
          rcases List.mem_cons.mp hd with rfl | hd
          · rw [hnone] at hget
            cases hget
          · exact ih h d hd c hget hhash
      · next credential hget' =>
          split at h
          · cases h
          · next hrefused =>
              rcases List.mem_cons.mp hd with rfl | hd
              · rw [hget'] at hget
                cases hget
                simpa [hhash] using hrefused
              · exact ih h d hd c hget hhash

/-- A discovered credential is a record of the relying party that passes the gate. -/
theorem mem_discoverable_iff {a : Auth β} {rpId : String} {uvSatisfied : Bool} {c : Credential} :
    c ∈ discoverable a rpId uvSatisfied ↔
      (∃ s ∈ a.storage.records, s.credential.rpIdHash = hashRpId rpId a.crypto ∧
        StorageEngine.unlock a.crypto s = .ok c) ∧
      isCredProtectAllowed c uvSatisfied false = true := by
  unfold discoverable
  rw [List.mem_filter, StorageEngine.mem_findByRpId_iff]

/-- The selected credential is a stored record, unlocked. -/
theorem selectCredential_stored {a : Auth β} {request : GetAssertionRequest} {uvSatisfied : Bool}
    {c : Credential} (h : selectCredential a request uvSatisfied = .ok c) :
    c.rpIdHash = hashRpId request.rpId a.crypto ∧ ∃ (id : Bytes) (s : StoredCredential),
      a.storage.credentials[id]? = some s ∧ StorageEngine.unlock a.crypto s = .ok c := by
  unfold selectCredential at h
  split at h
  · cases h
  · next credential hnamed =>
      cases h
      obtain ⟨d, -, hget, hhash, -⟩ := selectNamed_some hnamed
      obtain ⟨s, hs, hu⟩ := StorageEngine.getCredential_ok hget
      exact ⟨hhash, d.id, s, hs, hu⟩
  · split at h
    · cases h
    · next credential rest hfound =>
        cases h
        have hmem : c ∈ discoverable a request.rpId uvSatisfied := by
          rw [hfound]
          exact List.mem_cons_self
        obtain ⟨⟨s, hs, hhash, hu⟩, -⟩ := mem_discoverable_iff.mp hmem
        obtain ⟨id, hid⟩ := StorageEngine.mem_records hs
        exact ⟨(StorageEngine.unlock_rpIdHash hu).trans hhash, id, s, hid, hu⟩

end Auth

end OpenKey
