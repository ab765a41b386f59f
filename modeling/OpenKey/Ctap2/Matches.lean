import OpenKey.Ctap2.AllowList

/-!
# The matches of a request

GetAssertion selects its credential by the hash of the relying party and hands the rest to
GetNextAssertion, which searches by the text of its id. The two agree on a store in which the
named records with the hash are those with the text: then the matches are the eligible credentials
that decrypt, in the order of the allow list or of their ids, and the first of them is the one
selected.

The matches depend on the records only up to their signature counters, so counting an assertion
does not move them.
-/

namespace OpenKey

open Std

set_option autoImplicit false

/-- A record without its signature counter. -/
def StoredCredential.uncounted (s : StoredCredential) : StoredCredential :=
  { s with credential := { s.credential with signCount := 0 } }

/-! ## Records up to their counters -/

namespace StorageEngine

variable {β : Type}

/-- Two engines hold the same records, up to the signature counters. -/
def SameRecords (e e' : StorageEngine β) : Prop :=
  e'.credentials.map (fun _ s => s.uncounted) = e.credentials.map (fun _ s => s.uncounted)

theorem SameRecords.trans {e e' e'' : StorageEngine β} (h : SameRecords e e')
    (h' : SameRecords e' e'') : SameRecords e e'' := Eq.trans h' h

theorem SameRecords.of_credentials {e e' : StorageEngine β} (h : e'.credentials = e.credentials) :
    SameRecords e e' := by
  unfold SameRecords
  rw [h]

/-- A record is rewritten with another counter. -/
theorem SameRecords.of_insert {e e' : StorageEngine β} {id : Bytes} {s s' : StoredCredential}
    (hs : e.credentials[id]? = some s) (huncounted : s'.uncounted = s.uncounted)
    (h : e'.credentials = e.credentials.insert id s') : SameRecords e e' := by
  unfold SameRecords
  refine ExtTreeMap.ext_getElem? fun id' => ?_
  rw [ExtTreeMap.getElem?_map, ExtTreeMap.getElem?_map, h, ExtTreeMap.getElem?_insert]
  split
  · next heq =>
      obtain rfl : id = id' := compare_eq_iff_eq.mp heq
      rw [hs]
      exact congrArg some huncounted
  · rfl

theorem SameRecords.lookup {e e' : StorageEngine β} (h : SameRecords e e') (id : Bytes) :
    (e'.credentials[id]?).map StoredCredential.uncounted =
      (e.credentials[id]?).map StoredCredential.uncounted := by
  have h' := congrArg (fun m => m[id]?) h
  simp only [ExtTreeMap.getElem?_map] at h'
  exact h'

theorem SameRecords.records {e e' : StorageEngine β} (h : SameRecords e e') :
    e'.records.map StoredCredential.uncounted = e.records.map StoredCredential.uncounted := by
  have h' := congrArg (fun m => m.toList.map (·.2)) h
  simp only [ExtTreeMap.toList_map, List.map_map] at h'
  unfold StorageEngine.records
  rw [List.map_map, List.map_map]
  exact h'

end StorageEngine

/-! ## Matches, record by record -/

/-- The private key of a record decrypts. -/
def StoredCredential.readable (crypto : CryptoEngine) (s : StoredCredential) : Bool :=
  (crypto.decrypt s.encryptedPrivateKey s.nonce).toOption.isSome

theorem StoredCredential.readable_iff {crypto : CryptoEngine} {s : StoredCredential} :
    s.readable crypto = true ↔ ∃ c, StorageEngine.unlock crypto s = .ok c := by
  unfold StoredCredential.readable StorageEngine.unlock
  cases crypto.decrypt s.encryptedPrivateKey s.nonce with
  | error text => simp [Except.toOption]
  | ok key => simp [Except.toOption]

/-- The id of a named record, if it may be used for the relying party. -/
def namedMatch (crypto : CryptoEngine) (rpId : String) (uvSatisfied : Bool)
    (s : StoredCredential) : Option Bytes :=
  if s.readable crypto = true ∧ s.credential.rpId = rpId ∧
      isCredProtectAllowed s.credential uvSatisfied true = true then
    some s.credential.credentialId
  else none

/-- The id of a record, if it may be discovered for the relying party. -/
def discoveredMatch (crypto : CryptoEngine) (rpId : String) (uvSatisfied : Bool)
    (s : StoredCredential) : Option Bytes :=
  if s.readable crypto = true ∧ s.credential.rpIdHash = hashRpId rpId crypto ∧
      isCredProtectAllowed s.credential uvSatisfied false = true then
    some s.credential.credentialId
  else none

namespace Auth

variable {β : Type} [StorageBackend β]

omit [StorageBackend β] in
theorem matchingId_eq (a : Auth β) (rpId : String) (uvSatisfied : Bool)
    (d : CredentialDescriptor) : matchingId a rpId uvSatisfied d =
      (a.storage.credentials[d.id]?).bind (namedMatch a.crypto rpId uvSatisfied) := by
  unfold matchingId
  cases hs : a.storage.credentials[d.id]? with
  | none => simp [StorageEngine.getCredential, hs]
  | some s =>
      show _ = namedMatch a.crypto rpId uvSatisfied s
      unfold namedMatch
      by_cases hread : s.readable a.crypto = true
      · obtain ⟨c, hu⟩ := StoredCredential.readable_iff.mp hread
        rw [getCredential_of_unlock hs hu, ← isCredProtectAllowed_unlock hu]
        obtain ⟨key, rfl⟩ := StorageEngine.unlock_ok hu
        simp [hread]
      · rw [if_neg fun h => hread h.1]
        cases hu : StorageEngine.unlock a.crypto s with
        | error error => simp [StorageEngine.getCredential, hs, hu, Except.map]
        | ok c => exact absurd (StoredCredential.readable_iff.mpr ⟨c, hu⟩) hread

omit [StorageBackend β] in
theorem discovered_eq (a : Auth β) (rpId : String) (uvSatisfied : Bool) :
    (discoverable a rpId uvSatisfied).map (·.credentialId) =
      a.storage.records.filterMap (discoveredMatch a.crypto rpId uvSatisfied) := by
  unfold discoverable StorageEngine.findByRpId StorageEngine.findCredentialsByRpHash
  induction a.storage.records with
  | nil => rfl
  | cons s rest ih =>
      rw [List.filterMap_cons, ← ih]
      unfold discoveredMatch
      by_cases hhash : s.credential.rpIdHash = a.crypto.sha256 (utf8 rpId)
      · rw [List.filter_cons_of_pos (by simpa using hhash), List.filterMap_cons]
        by_cases hread : s.readable a.crypto = true
        · obtain ⟨c, hu⟩ := StoredCredential.readable_iff.mp hread
          rw [hu, ← isCredProtectAllowed_unlock hu]
          obtain ⟨key, rfl⟩ := StorageEngine.unlock_ok hu
          simp only [Except.toOption, hread, hashRpId, hhash, true_and, List.filter_cons]
          split
          · rfl
          · rfl
        · rw [if_neg fun h => hread h.1]
          cases hu : StorageEngine.unlock a.crypto s with
          | error error => rfl
          | ok c => exact absurd (StoredCredential.readable_iff.mpr ⟨c, hu⟩) hread
      · rw [List.filter_cons_of_neg (by simpa using hhash), if_neg fun h => hhash h.2.1]

omit [StorageBackend β] in
/-- The matches are the same over records that are the same up to their counters. -/
theorem findMatchingCredentials_congr {a b : Auth β} (hcrypto : b.crypto = a.crypto)
    (hsame : StorageEngine.SameRecords a.storage b.storage) (rpId : String)
    (allowList : List CredentialDescriptor) (uvSatisfied : Bool) :
    findMatchingCredentials b rpId allowList uvSatisfied =
      findMatchingCredentials a rpId allowList uvSatisfied := by
  unfold findMatchingCredentials
  split
  · have huncounted : ∀ records : List StoredCredential,
        records.filterMap (discoveredMatch a.crypto rpId uvSatisfied) =
          (records.map StoredCredential.uncounted).filterMap
            (discoveredMatch a.crypto rpId uvSatisfied) := by
      intro records
      rw [List.filterMap_map]
      rfl
    rw [discovered_eq, discovered_eq, hcrypto, huncounted, hsame.records, ← huncounted]
  · have huncounted : ∀ o : Option StoredCredential,
        o.bind (namedMatch a.crypto rpId uvSatisfied) =
          (o.map StoredCredential.uncounted).bind (namedMatch a.crypto rpId uvSatisfied) := by
      intro o
      cases o <;> rfl
    refine congrArg (List.filterMap · allowList) (funext fun d => ?_)
    rw [matchingId_eq, matchingId_eq, hcrypto, huncounted, hsame.lookup, ← huncounted]

/-! ## Eligible credentials -/

/-- A stored credential is eligible for a request: it is named if the request names any, its hash
is that of the relying party, and credProtect permits it. -/
def Eligible (a : Auth β) (request : GetAssertionRequest) (uvSatisfied : Bool) (id : Bytes) :
    Prop :=
  (request.named ≠ [] → ∃ d ∈ request.named, d.id = id) ∧
    ∃ s, a.storage.credentials[id]? = some s ∧
      s.credential.rpIdHash = hashRpId request.rpId a.crypto ∧
      isCredProtectAllowed s.credential uvSatisfied (decide (request.named ≠ [])) = true

/-- A credential is stored and its private key decrypts. -/
def Decrypts (a : Auth β) (id : Bytes) : Prop :=
  ∃ s, a.storage.credentials[id]? = some s ∧ s.readable a.crypto = true

/-- The records a request is about are in order: those with the hash of the relying party and those
that are named are filed under their ids, and of the named ones those with the hash are those with
the text. -/
structure InOrder (a : Auth β) (request : GetAssertionRequest) : Prop where
  found : ∀ (id : Bytes) (s : StoredCredential), a.storage.credentials[id]? = some s →
    s.credential.rpIdHash = hashRpId request.rpId a.crypto → s.credential.credentialId = id
  named : ∀ d ∈ request.named, ∀ s, a.storage.credentials[d.id]? = some s →
    s.credential.credentialId = d.id
  texts : ∀ d ∈ request.named, ∀ s, a.storage.credentials[d.id]? = some s →
    (s.credential.rpIdHash = hashRpId request.rpId a.crypto ↔ s.credential.rpId = request.rpId)

omit [StorageBackend β] in
/-- A named id matches exactly if it is eligible and decrypts. -/
theorem matchingId_eq_some {a : Auth β} {request : GetAssertionRequest} {uvSatisfied : Bool}
    (h : InOrder a request) {d : CredentialDescriptor} (hd : d ∈ request.named) {id : Bytes} :
    matchingId a request.rpId uvSatisfied d = some id ↔
      d.id = id ∧ Eligible a request uvSatisfied id ∧ Decrypts a id := by
  have hne : request.named ≠ [] := List.ne_nil_of_mem hd
  rw [matchingId_eq, Option.bind_eq_some_iff]
  constructor
  · rintro ⟨s, hs, hmatch⟩
    unfold namedMatch at hmatch
    split at hmatch
    · next hok =>
        cases hmatch
        obtain ⟨hread, htext, hallowed⟩ := hok
        rw [h.named d hd s hs]
        refine ⟨rfl, ⟨fun _ => ⟨d, hd, rfl⟩, s, hs, (h.texts d hd s hs).mpr htext, ?_⟩, s, hs,
          hread⟩
        rw [decide_eq_true hne]
        exact hallowed
    · cases hmatch
  · rintro ⟨rfl, ⟨-, s, hs, hhash, hallowed⟩, s', hs', hread⟩
    obtain rfl : s = s' := Option.some.inj (hs.symm.trans hs')
    rw [decide_eq_true hne] at hallowed
    refine ⟨s, hs, ?_⟩
    unfold namedMatch
    rw [if_pos ⟨hread, (h.texts d hd s hs).mp hhash, hallowed⟩, h.named d hd s hs]

omit [StorageBackend β] in
/-- A record is discovered exactly if it is eligible and decrypts. -/
theorem discoveredMatch_eq_some {a : Auth β} {request : GetAssertionRequest} {uvSatisfied : Bool}
    (h : InOrder a request) (hnil : request.named = []) {id : Bytes} {s : StoredCredential}
    (hs : a.storage.credentials[id]? = some s) {id' : Bytes} :
    discoveredMatch a.crypto request.rpId uvSatisfied s = some id' ↔
      id = id' ∧ Eligible a request uvSatisfied id' ∧ Decrypts a id' := by
  have hnone : decide (request.named ≠ []) = false := decide_eq_false fun hne => hne hnil
  unfold discoveredMatch
  constructor
  · intro hmatch
    split at hmatch
    · next hok =>
        cases hmatch
        obtain ⟨hread, hhash, hallowed⟩ := hok
        rw [h.found id s hs hhash]
        refine ⟨rfl, ⟨fun hne => absurd hnil hne, s, hs, hhash, ?_⟩, s, hs, hread⟩
        rw [hnone]
        exact hallowed
    · cases hmatch
  · rintro ⟨rfl, ⟨-, s₁, hs₁, hhash, hallowed⟩, s₂, hs₂, hread⟩
    obtain rfl : s = s₁ := Option.some.inj (hs.symm.trans hs₁)
    obtain rfl : s = s₂ := Option.some.inj (hs.symm.trans hs₂)
    rw [hnone] at hallowed
    rw [if_pos ⟨hread, hhash, hallowed⟩, h.found id s hs hhash]

omit [StorageBackend β] in
/-- The matches are the eligible credentials that decrypt. -/
theorem mem_matches_iff {a : Auth β} {request : GetAssertionRequest} {uvSatisfied : Bool}
    (h : InOrder a request) {id : Bytes} :
    id ∈ findMatchingCredentials a request.rpId request.named uvSatisfied ↔
      Eligible a request uvSatisfied id ∧ Decrypts a id := by
  unfold findMatchingCredentials
  split
  · next hnil =>
      rw [discovered_eq, List.mem_filterMap]
      constructor
      · rintro ⟨s, hs, hmatch⟩
        obtain ⟨id', hid'⟩ := StorageEngine.mem_records hs
        exact ((discoveredMatch_eq_some h hnil hid').mp hmatch).2
      · rintro ⟨heligible, s, hs, hread⟩
        exact ⟨s, StorageEngine.mem_records_iff.mpr ⟨id, hs⟩,
          (discoveredMatch_eq_some h hnil hs).mpr ⟨rfl, heligible, s, hs, hread⟩⟩
  · next hne =>
      rw [List.mem_filterMap]
      constructor
      · rintro ⟨d, hd, hmatch⟩
        exact ((matchingId_eq_some h hd).mp hmatch).2
      · rintro ⟨heligible, hdecrypts⟩
        obtain ⟨d, hd, hid⟩ := heligible.1 hne
        exact ⟨d, hd, (matchingId_eq_some h hd).mpr ⟨hid, heligible, hdecrypts⟩⟩

/-- No eligible credential is named twice. -/
def NamedOnce (a : Auth β) (request : GetAssertionRequest) (uvSatisfied : Bool) : Prop :=
  request.named.Pairwise fun d d' => d.id = d'.id → ¬Eligible a request uvSatisfied d.id

omit [StorageBackend β] in
/-- A match is repeated exactly if an eligible credential is named twice, where all of them
decrypt. -/
theorem nodup_matches_iff {a : Auth β} {request : GetAssertionRequest} {uvSatisfied : Bool}
    (h : InOrder a request) (hdecrypts : ∀ id, Eligible a request uvSatisfied id → Decrypts a id) :
    (findMatchingCredentials a request.rpId request.named uvSatisfied).Nodup ↔
      NamedOnce a request uvSatisfied := by
  unfold findMatchingCredentials NamedOnce
  split
  · next hnil =>
      rw [hnil, discovered_eq]
      refine iff_of_true ?_ .nil
      -- the records are filed under different ids
      unfold StorageEngine.records
      rw [List.filterMap_map]
      refine List.pairwise_filterMap.mpr
        (ExtTreeMap.distinct_keys_toList.imp_of_mem fun {x x'} hmem hmem' hne => ?_)
      intro id hid id' hid' heq
      have hs := ExtTreeMap.mem_toList_iff_getElem?_eq_some.mp hmem
      have hs' := ExtTreeMap.mem_toList_iff_getElem?_eq_some.mp hmem'
      obtain ⟨hx, -⟩ := (discoveredMatch_eq_some h hnil hs).mp hid
      obtain ⟨hx', -⟩ := (discoveredMatch_eq_some h hnil hs').mp hid'
      exact hne (compare_eq_iff_eq.mpr (hx.trans (heq.trans hx'.symm)))
  · rw [List.Nodup, List.pairwise_filterMap]
    constructor
    · intro hpairwise
      refine hpairwise.imp_of_mem ?_
      intro d d' hd hd' hne heq heligible
      have hread := hdecrypts d.id heligible
      exact hne d.id ((matchingId_eq_some h hd).mpr ⟨rfl, heligible, hread⟩) d.id
        ((matchingId_eq_some h hd').mpr ⟨heq.symm, heligible, hread⟩) rfl
    · intro hpairwise
      refine hpairwise.imp_of_mem ?_
      intro d d' hd hd' hne id hid id' hid' heq
      obtain ⟨rfl, heligible, -⟩ := (matchingId_eq_some h hd).mp hid
      obtain ⟨rfl, -⟩ := (matchingId_eq_some h hd').mp hid'
      exact hne heq heligible

/-! ## The selected credential -/

omit [StorageBackend β] in
/-- A search among named credentials that comes to an end finds the first match; if it finds none,
every stored one of them decrypts. -/
theorem selectNamed_eq {a : Auth β} {rpId : String} {uvSatisfied : Bool}
    {descriptors : List CredentialDescriptor} {found : Option Credential}
    (htexts : ∀ d ∈ descriptors, ∀ s, a.storage.credentials[d.id]? = some s →
      (s.credential.rpIdHash = hashRpId rpId a.crypto ↔ s.credential.rpId = rpId))
    (h : selectNamed a (hashRpId rpId a.crypto) uvSatisfied descriptors = .ok found) :
    found.map (·.credentialId) = (descriptors.filterMap (matchingId a rpId uvSatisfied)).head? ∧
      (found = none → ∀ d ∈ descriptors, (a.storage.credentials[d.id]?).isSome = true →
        Decrypts a d.id) := by
  induction descriptors with
  | nil =>
      cases h
      exact ⟨rfl, fun _ d hd => absurd hd List.not_mem_nil⟩
  | cons d rest ih =>
      have ih' := ih fun d' hd' => htexts d' (List.mem_cons_of_mem _ hd')
      unfold selectNamed at h
      rw [List.filterMap_cons, matchingId_eq]
      cases hs : a.storage.credentials[d.id]? with
      | none =>
          simp only [StorageEngine.getCredential, hs] at h
          obtain ⟨hhead, hreadable⟩ := ih' h
          refine ⟨hhead, fun hnone d' hd' hsome => ?_⟩
          rcases List.mem_cons.mp hd' with rfl | hd'
          · rw [hs] at hsome
            cases hsome
          · exact hreadable hnone d' hd' hsome
      | some s =>
          cases hu : StorageEngine.unlock a.crypto s with
          | error error =>
              simp only [StorageEngine.getCredential, hs, hu, Except.map] at h
              cases h
          | ok c =>
              have hread := StoredCredential.readable_iff.mpr ⟨c, hu⟩
              rw [getCredential_of_unlock hs hu] at h
              dsimp only [Option.bind_some] at h ⊢
              unfold namedMatch
              rw [isCredProtectAllowed_unlock hu, StorageEngine.unlock_rpIdHash hu] at h
              simp only [hread, true_and, htexts d List.mem_cons_self s hs] at h ⊢
              split at h
              · next hok =>
                  cases h
                  rw [if_pos hok]
                  obtain ⟨key, rfl⟩ := StorageEngine.unlock_ok hu
                  exact ⟨rfl, fun hnone => by cases hnone⟩
              · next hno =>
                  rw [if_neg hno]
                  obtain ⟨hhead, hreadable⟩ := ih' h
                  refine ⟨hhead, fun hnone d' hd' hsome => ?_⟩
                  rcases List.mem_cons.mp hd' with rfl | hd'
                  · exact ⟨s, hs, hread⟩
                  · exact hreadable hnone d' hd' hsome

omit [StorageBackend β] in
/-- The selected credential is the first match, if the request names none or an eligible one. -/
theorem selectCredential_head {a : Auth β} {request : GetAssertionRequest} {uvSatisfied : Bool}
    {c : Credential} (h : InOrder a request)
    (hnames : request.named = [] ∨ ∃ id, Eligible a request uvSatisfied id)
    (hselect : selectCredential a request uvSatisfied = .ok c) :
    (findMatchingCredentials a request.rpId request.named uvSatisfied).head? =
      some c.credentialId := by
  unfold selectCredential at hselect
  cases hfound : selectNamed a (hashRpId request.rpId a.crypto) uvSatisfied request.named with
  | error error =>
      rw [hfound] at hselect
      cases hselect
  | ok found =>
      rw [hfound] at hselect
      obtain ⟨hhead, hreadable⟩ := selectNamed_eq h.texts hfound
      by_cases hnil : request.named = []
      · rw [hnil] at hhead
        obtain rfl : found = none := by simpa using hhead
        unfold findMatchingCredentials
        rw [if_pos hnil]
        dsimp only at hselect
        split at hselect
        · cases hselect
        · next credential rest hrest =>
            cases hselect
            rw [hrest]
            rfl
      · have hmatches : findMatchingCredentials a request.rpId request.named uvSatisfied =
            request.named.filterMap (matchingId a request.rpId uvSatisfied) := if_neg hnil
        rw [hmatches]
        cases found with
        | some credential =>
            cases hselect
            exact hhead.symm
        | none =>
            obtain ⟨id, heligible⟩ := hnames.resolve_left hnil
            obtain ⟨⟨d, hd, rfl⟩, s, hs, -⟩ := And.imp_left (· hnil) heligible
            have hmem := (mem_matches_iff h).mpr ⟨heligible, hreadable rfl d hd (by rw [hs]; rfl)⟩
            rw [hmatches, List.head?_eq_none_iff.mp hhead.symm] at hmem
            cases hmem

end Auth

end OpenKey
