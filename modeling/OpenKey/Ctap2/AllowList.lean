import OpenKey.Ctap2.Enumeration
import OpenKey.Ctap2.GateStatus
import OpenKey.Ctap2.Selection

/-!
# The allow list

GetAssertion first tries the credentials a request names and, if none of them can be used, falls
back to discovery. An answer therefore need not be one of the named credentials: the allow list
is respected exactly if a named credential can be used, or there is nothing to discover and every
named record decrypts.
-/

namespace OpenKey

open Prog (Avoids)

set_option autoImplicit false

namespace Auth

variable {β : Type} [StorageBackend β] (build : Build)

/-! ## The checks before the selection -/

/-- GetAssertion from the selection on. -/
def assertSelected (request : GetAssertionRequest) (pinAuthenticated : Bool) :
    Ctap β GetAssertionResponse := do
  let uvSatisfied ← Prog.read fun a => a.credProtectUvSatisfied pinAuthenticated
  let credential ← Prog.check fun a => selectCredential a request uvSatisfied
  let flags := assertionFlags request.options.up pinAuthenticated
  let rpIdHash ← Prog.read fun a => hashRpId request.rpId a.crypto
  let assertion ← signCounted build credential rpIdHash flags request.clientDataHash
  let extensions ← firstExtensions request credential pinAuthenticated
  let total ← openEnumeration request flags uvSatisfied credential
  pure
    { credential := some (descriptorOf credential)
      authData := assertion.authData
      signature := assertion.signature
      user := some (userOf credential)
      numberOfCredentials := if total > 1 then some (asU16 total) else none
      extensions := extensions }

/-- The request passes the checks that come before the selection: the token, the settings that
demand one and the presence of the user. -/
structure Admitted (a : Auth β) (request : GetAssertionRequest) (verified : Bool) : Prop where
  verdict : verifyPinUvAuthForOperation a request.pinProtocol request.pinUvAuthParam
    request.clientDataHash permissionGa (some request.rpId) = .ok verified
  pin : request.options.uv = true → a.storage.isPinSet = true → verified = true
  always : a.storage.isAlwaysUv = true → request.options.uv = true
  present : request.options.up = true → a.present = true

theorem run_authenticateOperation {a : Auth β} {request : GetAssertionRequest} {verified : Bool}
    (h : Admitted a request verified) :
    (authenticateOperation request.pinProtocol request.pinUvAuthParam request.clientDataHash
      permissionGa request.rpId request.options.uv).run a = (.ok verified, a) := by
  have hpin : (!(request.options.uv && a.storage.isPinSet && !verified)) = true := by
    have h := h.pin
    cases verified with
    | true => simp
    | false =>
        cases huv : request.options.uv with
        | false => rfl
        | true => simpa [huv] using h
  have halways : (!(a.storage.isAlwaysUv && !request.options.uv)) = true := by
    have h := h.always
    cases huv : request.options.uv with
    | true => simp
    | false => simpa [huv] using h
  exact Prog.bind_eq_ok.mpr ⟨verified, a, Prog.check_eq_ok.mpr ⟨h.verdict, rfl⟩,
    Prog.bind_eq_ok.mpr ⟨(), a, Prog.ensure_eq_ok.mpr ⟨hpin, rfl⟩,
      Prog.bind_eq_ok.mpr ⟨(), a, Prog.ensure_eq_ok.mpr ⟨halways, rfl⟩, rfl⟩⟩⟩

/-- An admitted request is decided by the selection. -/
theorem run_getAssertion_admitted {a : Auth β} {request : GetAssertionRequest} {verified : Bool}
    (h : Admitted a request verified) : ∃ a₁ : Auth β, a₁.core = a.core ∧
      (getAssertion build request).run a = (assertSelected build request verified).run a₁ := by
  have hgate : ∃ a₁ : Auth β, a₁.core = a.core ∧
      (Prog.when request.options.up checkPresence).run a = (.ok (), a₁) := by
    cases hup : request.options.up with
    | false => exact ⟨a, rfl, rfl⟩
    | true =>
        obtain ⟨b, hcore, -, hrun⟩ := run_checkPresence a
        rw [if_pos (h.present hup)] at hrun
        exact ⟨b, hcore, hrun⟩
  obtain ⟨a₁, hcore, hrun⟩ := hgate
  refine ⟨a₁, hcore, ?_⟩
  show (authenticateOperation _ _ _ _ _ _ >>= fun verified =>
    Prog.when request.options.up checkPresence >>= fun _ =>
      assertSelected build request verified).run a = _
  rw [Prog.run_bind_of_ok (run_authenticateOperation h), Prog.run_bind_of_ok hrun]

omit [StorageBackend β] in
/-- A presence check that passes finds the user present. -/
theorem present_of_ok {up : Bool} {a b : Auth β}
    (h : (Prog.when up checkPresence).run a = (.ok (), b)) : up = true → a.present = true := by
  rintro rfl
  obtain ⟨b', -, -, hrun⟩ := run_checkPresence a
  have hrun' := hrun.symm.trans h
  cases hp : a.present with
  | true => rfl
  | false =>
      rw [hp] at hrun'
      cases hrun'

/-- A request that is answered was admitted. -/
theorem admitted_of_ok {a b : Auth β} {request : GetAssertionRequest} {r : GetAssertionResponse}
    (h : (getAssertion build request).run a = (.ok r, b)) :
    ∃ verified, Admitted a request verified := by
  obtain ⟨verified, a₁, h₁, h⟩ := Prog.bind_eq_ok.mp h
  obtain ⟨rfl, hverdict, hpin, halways⟩ := authenticateOperation_ok h₁
  obtain ⟨_, a₂, h₂, h⟩ := Prog.bind_eq_ok.mp h
  exact ⟨verified, hverdict, hpin, halways, present_of_ok h₂⟩

/-! ## The named credentials -/

/-- A named id is that of a stored credential of the relying party which credProtect permits. -/
def NamesUsable (a : Auth β) (request : GetAssertionRequest) (uvSatisfied : Bool) : Prop :=
  ∃ d ∈ request.named, ∃ s : StoredCredential, a.storage.credentials[d.id]? = some s ∧
    s.credential.rpIdHash = hashRpId request.rpId a.crypto ∧
    isCredProtectAllowed s.credential uvSatisfied true = true

/-- Every named record decrypts. -/
def NamedReadable (a : Auth β) (descriptors : List CredentialDescriptor) : Prop :=
  ∀ d ∈ descriptors, ∀ s : StoredCredential, a.storage.credentials[d.id]? = some s →
    ∃ c, StorageEngine.unlock a.crypto s = .ok c

omit [StorageBackend β] in
theorem getCredential_of_unlock {e : StorageEngine β} {id : Bytes} {crypto : CryptoEngine}
    {s : StoredCredential} {c : Credential} (hs : e.credentials[id]? = some s)
    (hu : StorageEngine.unlock crypto s = .ok c) : e.getCredential id crypto = .ok (some c) := by
  unfold StorageEngine.getCredential
  rw [hs]
  dsimp only
  rw [hu]
  rfl

theorem isCredProtectAllowed_unlock {crypto : CryptoEngine} {s : StoredCredential} {c : Credential}
    (h : StorageEngine.unlock crypto s = .ok c) (uvSatisfied named : Bool) :
    isCredProtectAllowed c uvSatisfied named =
      isCredProtectAllowed s.credential uvSatisfied named := by
  obtain ⟨key, rfl⟩ := StorageEngine.unlock_ok h
  rfl

omit [StorageBackend β] in
/-- The search among the named credentials fails only at a record that does not decrypt. -/
theorem selectNamed_error {a : Auth β} {rpIdHash : Bytes} {uvSatisfied : Bool}
    {descriptors : List CredentialDescriptor} {error : Ctap2Error}
    (h : selectNamed a rpIdHash uvSatisfied descriptors = .error error) :
    error = .unknown ∧ ¬NamedReadable a descriptors := by
  induction descriptors with
  | nil => cases h
  | cons descriptor rest ih =>
      have hlater : selectNamed a rpIdHash uvSatisfied rest = .error error →
          error = .unknown ∧ ¬NamedReadable a (descriptor :: rest) := by
        intro hrest
        obtain ⟨herror, hunreadable⟩ := ih hrest
        exact ⟨herror, fun hall => hunreadable fun d hd => hall d (List.mem_cons_of_mem _ hd)⟩
      unfold selectNamed at h
      split at h
      · next error' hget =>
          cases h
          refine ⟨rfl, fun hall => ?_⟩
          unfold StorageEngine.getCredential at hget
          split at hget
          · next s hs =>
              obtain ⟨c, hu⟩ := hall descriptor List.mem_cons_self s hs
              rw [hu] at hget
              cases hget
          · cases hget
      · exact hlater h
      · split at h
        · cases h
        · exact hlater h

omit [StorageBackend β] in
/-- A search that finds nothing has read every named record. -/
theorem readable_of_selectNamed {a : Auth β} {rpIdHash : Bytes} {uvSatisfied : Bool}
    {descriptors : List CredentialDescriptor}
    (h : selectNamed a rpIdHash uvSatisfied descriptors = .ok none) :
    NamedReadable a descriptors := by
  induction descriptors with
  | nil => exact fun d hd => absurd hd (by simp)
  | cons descriptor rest ih =>
      have hhead : ∀ s : StoredCredential, a.storage.credentials[descriptor.id]? = some s →
          (∃ c, StorageEngine.unlock a.crypto s = .ok c) ∧
            selectNamed a rpIdHash uvSatisfied rest = .ok none := by
        intro s hs
        cases hu : StorageEngine.unlock a.crypto s with
        | error error =>
            simp [selectNamed, StorageEngine.getCredential, hs, hu, Except.map] at h
        | ok c =>
            refine ⟨⟨c, rfl⟩, ?_⟩
            unfold selectNamed at h
            rw [getCredential_of_unlock hs hu] at h
            dsimp only at h
            split at h
            · cases h
            · exact h
      have hrest : selectNamed a rpIdHash uvSatisfied rest = .ok none := by
        cases hs : a.storage.credentials[descriptor.id]? with
        | none => simpa [selectNamed, StorageEngine.getCredential, hs] using h
        | some s => exact (hhead s hs).2
      intro d hd s hs
      rcases List.mem_cons.mp hd with rfl | hd
      · exact (hhead s hs).1
      · exact ih hrest d hd s hs

omit [StorageBackend β] in
/-- A search that finds nothing among readable records has no usable one. -/
theorem not_namesUsable {a : Auth β} {request : GetAssertionRequest} {uvSatisfied : Bool}
    (h : selectNamed a (hashRpId request.rpId a.crypto) uvSatisfied request.named = .ok none) :
    ¬NamesUsable a request uvSatisfied := by
  rintro ⟨d, hd, s, hs, hhash, hallowed⟩
  obtain ⟨c, hu⟩ := readable_of_selectNamed h d hd s hs
  have hrefused := selectNamed_none h d hd c (getCredential_of_unlock hs hu)
    ((StorageEngine.unlock_rpIdHash hu).trans hhash)
  rw [isCredProtectAllowed_unlock hu, hallowed] at hrefused
  cases hrefused

omit [StorageBackend β] in
/-- A credential the search finds is usable. -/
theorem namesUsable_of_some {a : Auth β} {request : GetAssertionRequest} {uvSatisfied : Bool}
    {c : Credential}
    (h : selectNamed a (hashRpId request.rpId a.crypto) uvSatisfied request.named = .ok (some c)) :
    NamesUsable a request uvSatisfied := by
  obtain ⟨d, hd, hget, hhash, hallowed⟩ := selectNamed_some h
  obtain ⟨s, hs, hu⟩ := StorageEngine.getCredential_ok hget
  refine ⟨d, hd, s, hs, (StorageEngine.unlock_rpIdHash hu).symm.trans hhash, ?_⟩
  rw [← isCredProtectAllowed_unlock hu]
  exact hallowed

/-! ## The result of an admitted request -/

theorem run_assertSelected_error {a : Auth β} {request : GetAssertionRequest} {verified : Bool}
    {error : Ctap2Error}
    (h : selectCredential a request (a.credProtectUvSatisfied verified) = .error error) :
    ((assertSelected build request verified).run a).1 = .error error := by
  unfold assertSelected
  rw [Prog.run_read_bind, Prog.run_bind_of_error (Prod.ext h rfl)]

/-- Once a credential is selected the request does not fail for lack of one. -/
theorem assertSelected_ne {a : Auth β} {request : GetAssertionRequest} {verified : Bool}
    {c : Credential}
    (h : selectCredential a request (a.credProtectUvSatisfied verified) = .ok c) :
    ((assertSelected build request verified).run a).1 ≠ .error .noCredentials := by
  unfold assertSelected
  rw [Prog.run_read_bind, Prog.run_bind_of_ok (Prod.ext h rfl)]
  exact ((Avoids.read _).bind fun _ => (avoids_signCounted build rfl _ _ _ _).bind fun _ =>
    (avoids_firstExtensions rfl _ _ _).bind fun _ =>
      (avoids_openEnumeration _ _ _ _).bind fun _ => .pure _) a

/-- An admitted request fails for lack of credentials exactly if no named one is found and there
is nothing to discover. -/
theorem noCredentials_iff {a : Auth β} {request : GetAssertionRequest} {verified : Bool}
    (h : Admitted a request verified) :
    ((getAssertion build request).run a).1 = .error .noCredentials ↔
      selectNamed a (hashRpId request.rpId a.crypto) (a.credProtectUvSatisfied verified)
          request.named = .ok none ∧
        discoverable a request.rpId (a.credProtectUvSatisfied verified) = [] := by
  obtain ⟨a₁, hcore, hrun⟩ := run_getAssertion_admitted build h
  have hstorage : a₁.storage = a.storage := storage_of_core hcore
  have huv : a₁.credProtectUvSatisfied verified = a.credProtectUvSatisfied verified := by
    unfold credProtectUvSatisfied
    rw [hstorage]
  have hselect : selectCredential a₁ request (a₁.credProtectUvSatisfied verified) =
      selectCredential a request (a.credProtectUvSatisfied verified) := by
    rw [huv, selectCredential_congr hcore]
  rw [hrun]
  constructor
  · intro hresult
    cases hsel : selectCredential a request (a.credProtectUvSatisfied verified) with
    | ok c => exact absurd hresult (assertSelected_ne build (hselect.trans hsel))
    | error error =>
        rw [run_assertSelected_error build (hselect.trans hsel)] at hresult
        cases hresult
        unfold selectCredential at hsel
        split at hsel
        · next error hnamed =>
            cases hsel
            exact absurd (selectNamed_error hnamed).1 (by decide)
        · cases hsel
        · next hnamed =>
            refine ⟨hnamed, ?_⟩
            split at hsel
            · assumption
            · cases hsel
  · rintro ⟨hnamed, hnothing⟩
    refine run_assertSelected_error build (hselect.trans ?_)
    unfold selectCredential
    rw [hnamed]
    dsimp only
    rw [hnothing]

/-! ## The allow list -/

/-- The allow list is respected: an answer is one of the named credentials, of the relying party
of the request; and if no named credential can be used, a request that passes the checks fails
with NoCredentials. -/
def AllowListRespected (a : Auth β) (request : GetAssertionRequest) : Prop :=
  (∀ r b, (getAssertion build request).run a = (.ok r, b) → ∃ d s, r.credential = some d ∧
    (∃ n ∈ request.named, n.id = d.id) ∧ a.storage.credentials[d.id]? = some s ∧
    s.credential.rpIdHash = hashRpId request.rpId a.crypto) ∧
  ∀ verified, Admitted a request verified →
    ¬NamesUsable a request (a.credProtectUvSatisfied verified) →
    ((getAssertion build request).run a).1 = .error .noCredentials

/-- For every store and every request, the allow list is respected exactly if a named credential
can be used, or there is nothing to discover for the relying party and every named record
decrypts. -/
theorem allow_list_respected_iff (a : Auth β) (request : GetAssertionRequest)
    (hkeyed : a.storage.Keyed) :
    AllowListRespected build a request ↔ ∀ verified, Admitted a request verified →
      NamesUsable a request (a.credProtectUvSatisfied verified) ∨
        (discoverable a request.rpId (a.credProtectUvSatisfied verified) = [] ∧
          NamedReadable a request.named) := by
  constructor
  · rintro ⟨-, hfails⟩ verified hadmitted
    by_cases husable : NamesUsable a request (a.credProtectUvSatisfied verified)
    · exact .inl husable
    · obtain ⟨hnone, hnothing⟩ :=
        (noCredentials_iff build hadmitted).mp (hfails verified hadmitted husable)
      exact .inr ⟨hnothing, readable_of_selectNamed hnone⟩
  · intro hcond
    refine ⟨fun r b hrun => ?_, fun verified hadmitted husable => ?_⟩
    · obtain ⟨verified, hadmitted⟩ := admitted_of_ok build hrun
      obtain ⟨verified', credential, hasserted⟩ := getAssertion_ok build hrun
      obtain rfl : verified = verified' :=
        Except.ok.inj (hadmitted.verdict.symm.trans hasserted.verdict)
      have hselected := hasserted.selected
      unfold selectCredential at hselected
      split at hselected
      · cases hselected
      · next c hsome =>
          cases hselected
          obtain ⟨n, hn, hget, hhash, -⟩ := selectNamed_some hsome
          obtain ⟨s, hs, hu⟩ := StorageEngine.getCredential_ok hget
          obtain ⟨hid, -⟩ := stored_of_unlock hkeyed hs hu
          refine ⟨descriptorOf credential, s, hasserted.descriptor, ⟨n, hn, hid.symm⟩, ?_,
            (StorageEngine.unlock_rpIdHash hu).symm.trans hhash⟩
          show a.storage.credentials[credential.credentialId]? = some s
          rw [hid]
          exact hs
      · next hnone =>
          -- the answer comes from discovery, which the condition excludes
          obtain husable | ⟨hnothing, -⟩ := hcond verified hadmitted
          · exact absurd husable (not_namesUsable hnone)
          · rw [hnothing] at hselected
            cases hselected
    · obtain husable' | ⟨hnothing, hreadable⟩ := hcond verified hadmitted
      · exact absurd husable' husable
      · refine (noCredentials_iff build hadmitted).mpr ⟨?_, hnothing⟩
        cases hsel : selectNamed a (hashRpId request.rpId a.crypto)
          (a.credProtectUvSatisfied verified) request.named with
        | error error => exact absurd hreadable (selectNamed_error hsel).2
        | ok found =>
            cases found with
            | none => rfl
            | some c => exact absurd (namesUsable_of_some hsel) husable

/-- A request for an assertion of example.com that names credentials. -/
def namingRequest (ids : List Bytes) : GetAssertionRequest where
  rpId := "example.com"
  credentials := ids.map fun id => ⟨"public-key", id, none⟩
  allowList := none
  clientDataHash := sampleClientDataHash
  extensions := none
  options := ⟨true, false⟩
  pinUvAuthParam := none
  pinProtocol := none
  uv := none

theorem isCredProtectAllowed_of_false {c : Credential} {named : Bool}
    (h : isCredProtectAllowed c false named = true) (uvSatisfied : Bool) :
    isCredProtectAllowed c uvSatisfied named = true := by
  cases uvSatisfied with
  | false => exact h
  | true => simp [isCredProtectAllowed]

set_option maxRecDepth 100000 in
/-- The sample device respects an allow list that names its first credential. -/
theorem allow_list_respected_iff_sample :
    AllowListRespected sampleBuild (memoryDevice.run sampleBuild (sampleSetup 1))
      (namingRequest [firstId]) := by
  obtain ⟨past, hguarded⟩ := guarded_run sampleBuild blank_memoryDevice (sampleSetup 1)
  have hstored : ((memoryDevice.run sampleBuild (sampleSetup 1)).storage.credentials[firstId]?).any
      (fun s => decide (s.credential.rpIdHash = hashRpId "example.com"
        (memoryDevice.run sampleBuild (sampleSetup 1)).crypto) &&
          isCredProtectAllowed s.credential false true) = true := by decide +kernel
  obtain ⟨s, hs, hok⟩ := (Option.any_eq_true _ _).mp hstored
  obtain ⟨hhash, hallowed⟩ := (Bool.and_eq_true _ _).mp hok
  generalize memoryDevice.run sampleBuild (sampleSetup 1) = a at *
  refine (allow_list_respected_iff sampleBuild a (namingRequest [firstId]) hguarded.keyed).mpr
    fun verified _ => .inl ?_
  exact ⟨⟨"public-key", firstId, none⟩, List.mem_singleton.mpr rfl, s, hs, of_decide_eq_true hhash,
    isCredProtectAllowed_of_false hallowed _⟩

set_option maxRecDepth 100000 in
/-- A request that names an unknown credential is answered with another one. -/
theorem allow_list_not_respected :
    (namingRequest [[9]]).named ≠ [] ∧
      ¬AllowListRespected sampleBuild (memoryDevice.run sampleBuild (sampleSetup 1))
        (namingRequest [[9]]) := by
  refine ⟨by decide, fun hrespected => ?_⟩
  have hother : (match ((getAssertion sampleBuild (namingRequest [[9]])).run
      (memoryDevice.run sampleBuild (sampleSetup 1))).1 with
      | .ok r => r.credential.all fun d => decide (d.id ≠ [9])
      | .error _ => false) = true := by decide +kernel
  have hanswer := hrespected.1
  generalize memoryDevice.run sampleBuild (sampleSetup 1) = a at *
  cases hrun : (getAssertion sampleBuild (namingRequest [[9]])).run a with
  | mk result b =>
      rw [hrun] at hother
      cases result with
      | error error => cases hother
      | ok r =>
          obtain ⟨d, s, hd, ⟨n, hn, hid⟩, -⟩ := hanswer r b hrun
          obtain rfl := List.mem_singleton.mp hn
          change r.credential.all _ = true at hother
          rw [hd] at hother
          exact of_decide_eq_true hother hid.symm

end Auth

end OpenKey
