import OpenKey.Storage.EngineRuns

/-!
# Capacity and eviction

**Theorem (`admits_iff`).** On every engine within its limit, a successful `store_credential` keeps
the limit, stores the credential so that it can be read back, and drops no other credential than the
oldest, and that only where there is no room: all of this exactly when the credential does not
replace a stored one at the limit, or replaces the oldest.

The capacity test comes before the insertion and does not look at the id. So a credential that
replaces a stored one at the limit, and needs no room, still costs the oldest one its place.
-/

namespace OpenKey

open Std

set_option autoImplicit false

/-- What is encrypted can be decrypted. -/
def CryptoEngine.Opens (crypto : CryptoEngine) : Prop :=
  ∀ plaintext nonce ciphertext, crypto.encrypt plaintext nonce = .ok ciphertext →
    crypto.decrypt ciphertext nonce = .ok plaintext

namespace StorageEngine

variable {β : Type}

/-! ## The law -/

/-- Another credential was stored before and is not any more. -/
structure Gone (credential : Credential) (e e' : StorageEngine β) (id : Bytes) : Prop where
  other : id ≠ credential.credentialId
  before : id ∈ e.credentials
  after : id ∉ e'.credentials

/-- What storing a credential within a limit is for. -/
structure Admits (crypto : CryptoEngine) (credential : Credential) (max : Nat)
    (e e' : StorageEngine β) : Prop where
  /-- The limit is kept. -/
  bounded : e'.credentials.size ≤ max
  /-- The credential can be read back, with its private key. -/
  retrievable : e'.getCredential credential.credentialId crypto = .ok (some credential)
  /-- Another record is as it was, or it is gone. -/
  others : ∀ id, id ≠ credential.credentialId →
    Gone credential e e' id ∨ e'.credentials[id]? = e.credentials[id]?
  /-- At most one is gone. -/
  one : ∀ id id', Gone credential e e' id → Gone credential e e' id' → id = id'
  /-- It was the oldest. -/
  oldest : ∀ id s, Gone credential e e' id → e.credentials[id]? = some s →
    ∀ s' ∈ e.records, s.credential.createdAt ≤ s'.credential.createdAt
  /-- None is gone where there was room, or a record to replace. -/
  kept : e.credentials.size < max ∨ credential.credentialId ∈ e.credentials →
    ∀ id, ¬Gone credential e e' id

/-- A credential that replaces a stored one finds room, or replaces the one that makes room. -/
def Replaces (credential : Credential) (e : StorageEngine β) : Prop :=
  credential.credentialId ∈ e.credentials → ∀ s, e.evictee = some s →
    s.credential.credentialId = credential.credentialId

/-! ## Room -/

theorem records_eq_nil {e : StorageEngine β} (h : e.records = []) : e.credentials.size = 0 := by
  rw [← ExtTreeMap.length_toList]
  exact List.length_eq_zero_iff.mpr (List.map_eq_nil_iff.mp h)

section

variable {e : StorageEngine β} {max : Nat}

theorem evictee_eq_none (hmax : e.maxCredentialCount = some max) (hpos : 1 ≤ max)
    (h : e.evictee = none) : e.credentials.size < max := by
  unfold evictee at h
  split at h
  · have hnil := records_eq_nil (minByKey_eq_none h)
    omega
  · next hfull =>
      simpa [isFull, hmax] using hfull

theorem size_of_evictee {s : StoredCredential} (hmax : e.maxCredentialCount = some max)
    (h : e.evictee = some s) : max ≤ e.credentials.size := by
  unfold evictee at h
  split at h
  · next hfull => simpa [isFull, hmax] using hfull
  · cases h

/-- There is room for one more credential. -/
theorem size_roomy (hk : e.Keyed) (hmax : e.maxCredentialCount = some max) (hpos : 1 ≤ max)
    (hsize : e.credentials.size ≤ max) : e.roomy.size < max := by
  unfold roomy
  cases h : e.evictee with
  | none => exact evictee_eq_none hmax hpos h
  | some s =>
      have hmem : s.credential.credentialId ∈ e.credentials :=
        ExtTreeMap.mem_iff_isSome_getElem?.mpr (by rw [credentials_of_evictee hk h]; rfl)
      rw [Option.elim_some, ExtTreeMap.size_erase, if_pos (ExtTreeMap.mem_iff_contains.mp hmem)]
      omega

end

/-! ## Storing -/

section

variable {crypto : CryptoEngine} {credential : Credential} {nonce : Bytes} {e e' : StorageEngine β}
  {max : Nat} {s : StoredCredential}

/-- The record opens to the credential that it was made of. -/
theorem unlock_atRest (hopens : crypto.Opens) (h : atRest crypto credential nonce = .ok s) :
    unlock crypto s = .ok credential := by
  unfold atRest at h
  cases hencrypt : crypto.encrypt credential.privateKey nonce with
  | error text =>
      rw [hencrypt] at h
      cases h
  | ok ciphertext =>
      rw [hencrypt] at h
      cases h
      simp only [unlock, hopens _ _ _ hencrypt]

/-- The record that makes room is gone, unless it is the one that is replaced. -/
theorem gone_iff (hk : e.Keyed)
    (hcreds : e'.credentials = e.roomy.insert credential.credentialId s) (id : Bytes) :
    Gone credential e e' id ↔ id ≠ credential.credentialId ∧
      e.evictee.map (·.credential.credentialId) = some id := by
  have hafter : id ≠ credential.credentialId → (e'.credentials[id]? =
      if e.evictee.map (·.credential.credentialId) = some id then none
        else e.credentials[id]?) := by
    intro hne
    rw [hcreds, getElem?_insert_ite, if_neg hne, getElem?_roomy]
  constructor
  · rintro ⟨hother, hbefore, hgone⟩
    refine ⟨hother, ?_⟩
    by_contra hkept
    have hsame := hafter hother
    rw [if_neg hkept] at hsame
    rw [ExtTreeMap.mem_iff_isSome_getElem?, hsame, ← ExtTreeMap.mem_iff_isSome_getElem?] at hgone
    exact hgone hbefore
  · rintro ⟨hother, hevicted⟩
    obtain ⟨v, hv, rfl⟩ := Option.map_eq_some_iff.mp hevicted
    refine ⟨hother, ?_, ?_⟩
    · rw [ExtTreeMap.mem_iff_isSome_getElem?, credentials_of_evictee hk hv]
      rfl
    · rw [ExtTreeMap.mem_iff_isSome_getElem?, hafter hother, if_pos hevicted]
      exact Bool.false_ne_true

/-- What is added where room was made is admitted, if a replaced record is no reason to make
room. -/
theorem admits_of_replaces (hk : e.Keyed) (hmax : e.maxCredentialCount = some max) (hpos : 1 ≤ max)
    (hsize : e.credentials.size ≤ max) (hopens : crypto.Opens)
    (hrest : atRest crypto credential nonce = .ok s)
    (hcreds : e'.credentials = e.roomy.insert credential.credentialId s)
    (hreplaces : Replaces credential e) : Admits crypto credential max e e' := by
  have hgone : ∀ id, Gone credential e e' id ↔ _ := gone_iff hk hcreds
  constructor
  · have hroom := size_roomy hk hmax hpos hsize
    rw [hcreds, ExtTreeMap.size_insert]
    split <;> omega
  · simp only [getCredential, hcreds, ExtTreeMap.getElem?_insert_self,
      unlock_atRest hopens hrest]
    rfl
  · intro id hother
    by_cases hevicted : e.evictee.map (·.credential.credentialId) = some id
    · exact .inl ((hgone id).mpr ⟨hother, hevicted⟩)
    · refine .inr ?_
      rw [hcreds, getElem?_insert_ite, if_neg hother, getElem?_roomy, if_neg hevicted]
  · intro id id' hid hid'
    exact Option.some.inj (((hgone id).mp hid).2.symm.trans ((hgone id').mp hid').2)
  · intro id s₁ hid hs₁ s₂ hs₂
    obtain ⟨v, hv, rfl⟩ := Option.map_eq_some_iff.mp ((hgone id).mp hid).2
    obtain rfl : v = s₁ := Option.some.inj ((credentials_of_evictee hk hv).symm.trans hs₁)
    unfold evictee at hv
    split at hv
    · exact minByKey_le hv s₂ hs₂
    · cases hv
  · rintro hroom id hid
    obtain ⟨hother, hevicted⟩ := (hgone id).mp hid
    obtain ⟨v, hv, rfl⟩ := Option.map_eq_some_iff.mp hevicted
    rcases hroom with hroom | hstored
    · exact absurd (size_of_evictee hmax hv) (Nat.not_le.mpr hroom)
    · exact hother (hreplaces hstored v hv)

end

/-! ## The theorem -/

section

variable [StorageBackend β] {codec : Codec StoredCredential} {crypto : CryptoEngine}

/-- Where the AEAD opens what it sealed, storing a credential within the limit does what it is for
exactly when the credential does not replace another record than the oldest at the limit. -/
theorem admits_iff (hopens : crypto.Opens) {e e' : StorageEngine β}
    (hreached : Reached codec crypto e) {max : Nat} (hmax : e.maxCredentialCount = some max)
    (hpos : 1 ≤ max) (hsize : e.credentials.size ≤ max) {credential : Credential} {nonce : Bytes}
    (hrun : (storeCredential codec crypto credential nonce).run e = (.ok (), e')) :
    Admits crypto credential max e e' ↔ Replaces credential e := by
  have hk := hreached.keyed
  obtain ⟨s, hrest, hcreds⟩ := credentials_storeCredential hk hrun
  constructor
  · intro hadmits hstored v hv
    by_contra hother
    refine hadmits.kept (.inr hstored) v.credential.credentialId ?_
    exact (gone_iff hk hcreds _).mpr ⟨hother, by rw [hv, Option.map_some]⟩
  · exact admits_of_replaces hk hmax hpos hsize hopens hrest hcreds

end

/-! ## A credential written anew at the limit -/

/-- ChaCha20-Poly1305 under a key of zeros, at one plaintext of one byte. -/
def oneKeyCrypto : CryptoEngine where
  prims := { unusedCrypto.prims with
    aeadSeal := fun _ nonce plaintext =>
      if nonce = List.replicate 12 0 ∧ plaintext = [1] then some oneKeySealed else none
    aeadOpen := fun _ nonce ciphertext =>
      if nonce = List.replicate 12 0 ∧ ciphertext = oneKeySealed then some [1] else none }
  key := List.replicate 32 0
  length_key := length_zeros
where
  /-- The byte and its tag. -/
  oneKeySealed : Bytes :=
    [0x9e, 0xd6, 0xe8, 0x46, 0x3f, 0x38, 0x1b, 0x22, 0x2b, 0xee, 0x81, 0x84, 0x21, 0xc4, 0x47, 0xb9,
      0x92]

theorem opens_oneKeyCrypto : oneKeyCrypto.Opens := by
  intro plaintext nonce ciphertext h
  unfold CryptoEngine.encrypt at h
  unfold CryptoEngine.decrypt
  split at h
  · cases h
  · next hnonce =>
      rw [if_neg hnonce]
      by_cases hrow : nonce = List.replicate 12 0 ∧ plaintext = [1]
      · simp only [oneKeyCrypto, if_pos hrow] at h ⊢
        cases h
        rw [if_pos ⟨hrow.1, rfl⟩, hrow.2]
      · simp only [oneKeyCrypto, if_neg hrow] at h
        cases h

/-- A credential with an id of one byte. -/
def shortCredential (id : UInt8) (createdAt : Nat) : Credential where
  credentialId := [id]
  publicKey := []
  privateKey := [1]
  signCount := 0
  rpIdHash := []
  userHandle := none
  credBlob := []
  createdAt := createdAt
  algorithm := -8
  rpId := "example.com"
  largeBlobKey := none
  userName := none
  userDisplayName := none
  credProtect := none
  credRandomWithUv := none
  credRandomWithoutUv := none

/-- Store a credential in memory. -/
def stocked (id : UInt8) (createdAt : Nat) (e : StorageEngine KvMap) : StorageEngine KvMap :=
  ((runOp unusedCodec oneKeyCrypto
    (.storeCredential (shortCredential id createdAt) (List.replicate 12 0))).run e).2

/-- An engine with a limit of two that holds two credentials. -/
def twoHeld : StorageEngine KvMap :=
  stocked 2 20 (stocked 1 10 { new with maxCredentialCount := some 2 })

theorem reached_twoHeld : Reached unusedCodec oneKeyCrypto twoHeld :=
  .ran _ (.ran _ (.limited 2 .inMemory))

theorem size_twoHeld : twoHeld.credentials.size ≤ 2 := by decide +kernel

theorem run_replaced :
    (storeCredential unusedCodec oneKeyCrypto (shortCredential 2 30) (List.replicate 12 0)).run
      twoHeld = (.ok (), stocked 2 30 twoHeld) := rfl

theorem run_renewed :
    (storeCredential unusedCodec oneKeyCrypto (shortCredential 1 30) (List.replicate 12 0)).run
      twoHeld = (.ok (), stocked 1 30 twoHeld) := rfl

/-- Written anew at the limit, the second of two credentials costs the first one its place. -/
theorem replacing_evicts : ¬∀ (e e' : StorageEngine KvMap),
    Reached unusedCodec oneKeyCrypto e → e.maxCredentialCount = some 2 → e.credentials.size ≤ 2 →
    ∀ credential nonce,
      (storeCredential unusedCodec oneKeyCrypto credential nonce).run e = (.ok (), e') →
        Admits oneKeyCrypto credential 2 e e' := by
  intro hall
  have hadmits :=
    hall twoHeld (stocked 2 30 twoHeld) reached_twoHeld rfl size_twoHeld _ _ run_replaced
  refine hadmits.kept (.inr (by decide +kernel)) [1] ⟨by decide, ?_, ?_⟩ <;> decide +kernel

/-- The first of them, the oldest, can be written anew. -/
theorem admits_iff_renewed :
    Admits oneKeyCrypto (shortCredential 1 30) 2 twoHeld (stocked 1 30 twoHeld) ↔
      Replaces (shortCredential 1 30) twoHeld :=
  admits_iff opens_oneKeyCrypto reached_twoHeld rfl (by decide) size_twoHeld run_renewed

end StorageEngine

end OpenKey
