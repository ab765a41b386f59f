import OpenKey.Ctap2.Enumeration
import OpenKey.Ctap2.Registration

/-!
# User presence

**Presence (`presence_honest`).** In every run, the flag UP of a new credential or an assertion says
what the request asked for, and if it is set then the user confirmed that request; so does a Reset
that succeeds. GetNextAssertion asks nobody: its flag is the one of the GetAssertion it continues,
whatever the user has confirmed or refused in between.
-/

namespace OpenKey

open Prog (bind_eq_ok check_eq_ok)

set_option autoImplicit false

/-! ## The flag -/

/-- The flag UP of authenticator data, in byte 32. -/
def upFlag (authData : Bytes) : Bool := (authData.getD 32 0) &&& flagUp != 0

theorem upFlag_header {rpIdHash : Bytes} (flags : UInt8) (n : Nat) (rest : Bytes)
    (hlen : rpIdHash.length = 32) :
    upFlag (authDataHeader rpIdHash flags n ++ rest) = (flags &&& flagUp != 0) := by
  have hget : (authDataHeader rpIdHash flags n ++ rest)[32]? = some flags := by
    unfold authDataHeader
    rw [List.append_assoc, List.getElem?_append_right (by omega), hlen]
    rfl
  unfold upFlag
  rw [List.getD_eq_getElem?_getD, hget]
  rfl

theorem upFlag_assertionFlags (up verified : Bool) :
    (Auth.assertionFlags up verified &&& flagUp != 0) = up := by
  cases up <;> cases verified <;> decide

theorem upFlag_creationFlags (up verified : Bool) :
    (Auth.creationFlags up verified &&& flagUp != 0) = up := by
  cases up <;> cases verified <;> decide

namespace Auth

variable {β : Type} [StorageBackend β] (build : Build)

/-! ## One command -/

omit [StorageBackend β] in
/-- A check that is made only succeeds if the user confirms. -/
theorem present_of_when {up : Bool} {a b : Auth β}
    (h : (Prog.when up checkPresence : Ctap β Unit).run a = (.ok (), b)) (hup : up = true) :
    a.present = true := by
  obtain ⟨b', -, -, hrun⟩ := run_checkPresence a
  subst hup
  have heq : (checkPresence : Ctap β Unit).run a = (.ok (), b) := h
  rw [hrun] at heq
  by_cases hp : a.present = true
  · exact hp
  · rw [if_neg hp] at heq
    cases heq

theorem present_of_makeCredential {request : MakeCredentialRequest} {a b : Auth β}
    {r : MakeCredentialResponse} (h : (makeCredential build request).run a = (.ok r, b))
    (hup : request.options.up = true) : a.present = true := by
  obtain ⟨verified, a₁, h₁, h⟩ := bind_eq_ok.mp h
  obtain ⟨rfl, -⟩ := authenticateOperation_ok h₁
  obtain ⟨_, a₂, h₂, h⟩ := bind_eq_ok.mp h
  exact present_of_when h₂ hup

theorem present_of_getAssertion {request : GetAssertionRequest} {a b : Auth β}
    {r : GetAssertionResponse} (h : (getAssertion build request).run a = (.ok r, b))
    (hup : request.options.up = true) : a.present = true := by
  obtain ⟨verified, a₁, h₁, h⟩ := bind_eq_ok.mp h
  obtain ⟨rfl, -⟩ := authenticateOperation_ok h₁
  obtain ⟨_, a₂, h₂, h⟩ := bind_eq_ok.mp h
  exact present_of_when h₂ hup

/-- A GetAssertion that is answered was confirmed if it asks for it. -/
theorem confirmed_getAssertion {a : Auth β} {cmd : UInt8} {data : Bytes}
    {r : GetAssertionResponse} {request : GetAssertionRequest}
    (hcmd : Ctap2Command.fromU8 cmd = .getAssertion)
    (hx : (a.exchange build cmd data).assertion = some r)
    (hdecode : build.cbor.decodeGetAssertion data = .ok request)
    (hup : request.options.up = true) : a.present = true := by
  obtain ⟨-, hresult⟩ := Exchange.assertion_eq_some.mp hx
  have hrun : (processCommand build cmd data).run a =
      (.ok (.getAssertion r), a.step build (.command cmd data)) := Prod.ext hresult rfl
  rw [run_processCommand_of_ne build data a (by rw [hcmd]; decide), hcmd] at hrun
  obtain ⟨r', hrun, hr⟩ := Prog.map_eq_ok.mp hrun
  cases hr
  obtain ⟨request', a₁, hcheck, hrun⟩ := bind_eq_ok.mp hrun
  obtain ⟨hdecode', rfl⟩ := check_eq_ok.mp hcheck
  rw [hdecode] at hdecode'
  cases hdecode'
  have hpresent := present_of_getAssertion build hrun hup
  exact hpresent

omit [StorageBackend β] in
theorem opens_assertion {x : Exchange β} (h : x.opens = true) :
    x.command = .getAssertion ∧ ∃ r, x.assertion = some r := by
  unfold Exchange.opens at h
  by_cases hcommand : x.command = .getAssertion
  · refine ⟨hcommand, ?_⟩
    cases hx : x.assertion with
    | none => simp [hx] at h
    | some r => exact ⟨r, rfl⟩
  · simp [hcommand] at h

section Lawful

variable [LawfulBackend β]

/-- The flag of an assertion, and the request it comes from. -/
theorem upFlag_assertion {past : List (Exchange β)} {a : Auth β}
    (h : a.NextIs (Left build past)) {cmd : UInt8} {data : Bytes} {r : GetAssertionResponse}
    (hx : (a.exchange build cmd data).assertion = some r) :
    ∃ z request, (a.exchange build cmd data).opening past = some z ∧
      (z = a.exchange build cmd data ∧ Ctap2Command.fromU8 cmd = .getAssertion ∨
        z.opens = true ∧ z ∈ past) ∧
      build.cbor.decodeGetAssertion z.data = .ok request ∧
      upFlag r.authData = request.options.up := by
  have hcommand : (a.exchange build cmd data).command = Ctap2Command.fromU8 cmd := rfl
  obtain ⟨hga, request, verified, credential, hdecode, hasserted⟩ |
    ⟨hgna, state, credential, hnext⟩ := assertion_cases build hx
  · obtain ⟨a₁, a₂, assertion, hcore, hsigned, hdata, -⟩ := hasserted.signed
    refine ⟨_, request, by rw [Exchange.opening, hcommand, if_pos hga], .inl ⟨rfl, hga⟩,
      hdecode, ?_⟩
    obtain ⟨-, hsigneddata, -⟩ := signCounted_ok build hsigned
    rw [hdata, hsigneddata, ← List.append_nil (authDataHeader _ _ _),
      upFlag_header _ _ _ (length_hashRpId _ _), upFlag_assertionFlags]
  · obtain ⟨g, request, verified, index, hlast, hdecode, hstate⟩ := h state hnext.opened
    obtain ⟨a₁, assertion, hcore, hsigned, hdata⟩ := hnext.signed
    have hg := List.mem_filter.mp (List.mem_of_getLast? hlast)
    refine ⟨g, request, ?_, .inr ⟨hg.2, hg.1⟩, hdecode, ?_⟩
    · rw [Exchange.opening, hcommand, if_neg (by rw [hgna]; decide)]
      exact hlast
    · obtain ⟨-, hsigneddata, -⟩ := signCounted_ok build hsigned
      rw [hdata, hsigneddata, ← List.append_nil (authDataHeader _ _ _),
        upFlag_header _ _ _ (CryptoEngine.length_sha256 _ _), hstate]
      exact upFlag_assertionFlags _ _

omit [LawfulBackend β] in
/-- A MakeCredential that is answered: its flag, and who confirmed it. -/
theorem confirmed_makeCredential {a : Auth β} {cmd : UInt8} {data : Bytes}
    {r : MakeCredentialResponse} (hcmd : Ctap2Command.fromU8 cmd = .makeCredential)
    (hresult : (a.exchange build cmd data).result = .ok (.makeCredential r)) :
    ∃ request, build.cbor.decodeMakeCredential data = .ok request ∧
      upFlag r.authData = request.options.up ∧ (request.options.up = true → a.present = true) := by
  have hrun : (processCommand build cmd data).run a =
      (.ok (.makeCredential r), a.step build (.command cmd data)) := Prod.ext hresult rfl
  rw [run_processCommand_of_ne build data a (by rw [hcmd]; decide), hcmd] at hrun
  obtain ⟨r', hrun, hr⟩ := Prog.map_eq_ok.mp hrun
  cases hr
  obtain ⟨request, a₁, hcheck, hrun⟩ := bind_eq_ok.mp hrun
  obtain ⟨hdecode, rfl⟩ := check_eq_ok.mp hcheck
  obtain ⟨verified, hcreated⟩ := makeCredential_ok build hrun
  obtain ⟨attested, hdata⟩ := hcreated.header
  refine ⟨request, hdecode, ?_, fun hup => ?_⟩
  · rw [hdata, upFlag_header _ _ _ (length_hashRpId _ _), upFlag_creationFlags]
  · have hpresent := present_of_makeCredential build hrun hup
    exact hpresent

omit [LawfulBackend β] in
theorem confirmed_reset {a : Auth β} {cmd : UInt8} {data : Bytes}
    (hcmd : Ctap2Command.fromU8 cmd = .reset) {response : CtapResponse}
    (hresult : (a.exchange build cmd data).result = .ok response) : a.present = true := by
  have hrun : (processCommand build cmd data).run a =
      (.ok response, a.step build (.command cmd data)) := Prod.ext hresult rfl
  rw [run_processCommand_of_ne build data a (by rw [hcmd]; decide), hcmd] at hrun
  obtain ⟨_, hrun, -⟩ := Prog.map_eq_ok.mp hrun
  obtain ⟨_, a₁, hchecked, -⟩ := bind_eq_ok.mp hrun
  obtain ⟨b, -, -, hpresence⟩ := run_checkPresence { a with hmacSecretSession := none }
  rw [hpresence] at hchecked
  by_cases hp : ({ a with hmacSecretSession := none } : Auth β).present = true
  · exact hp
  · rw [if_neg hp] at hchecked
    cases hchecked

/-- The user has confirmed what an exchange did: the flag UP of its answer is the one its request
asked for, and only a confirmed request has it. -/
structure Honest (past : List (Exchange β)) (x : Exchange β) : Prop where
  assertion : ∀ r, x.assertion = some r → ∃ z request, x.opening past = some z ∧
    build.cbor.decodeGetAssertion z.data = .ok request ∧
    upFlag r.authData = request.options.up ∧ (upFlag r.authData = true → z.before.present = true)
  creation : ∀ r, x.command = .makeCredential → x.result = .ok (.makeCredential r) →
    ∃ request, build.cbor.decodeMakeCredential x.data = .ok request ∧
      upFlag r.authData = request.options.up ∧ (upFlag r.authData = true → x.before.present = true)
  reset : ∀ response, x.command = .reset → x.result = .ok response → x.before.present = true

/-- In every run, every exchange is honest about the presence of the user. -/
theorem presence_honest (a : Auth β) (hstart : a.getNextAssertionState = none)
    (inputs : List Input) (past future : List (Exchange β)) (x : Exchange β)
    (hrun : a.trace build inputs = past ++ x :: future) : Honest build past x := by
  have hnone : a.NextIs (Left build ([] : List (Exchange β))) := by
    intro state hstate
    rw [hstart] at hstate
    cases hstate
  obtain ⟨b, cmd, data, hleft, rfl⟩ := trace_invariant build
    (P := fun past a => a.NextIs (Left build past)) (C := fun _ => True)
    (fun _ _ cmd data h _ => left_command build h cmd data)
    (fun _ _ _ _ hstate => by cases hstate) hnone hrun fun _ _ => trivial
  rw [List.nil_append] at hleft
  refine ⟨fun r hx => ?_, fun r hcommand hresult => ?_, fun response hcommand hresult => ?_⟩
  · obtain ⟨z, request, hopening, hz, hdecode, hflag⟩ := upFlag_assertion build hleft hx
    refine ⟨z, request, hopening, hdecode, hflag, fun hup => ?_⟩
    rw [hflag] at hup
    rcases hz with ⟨rfl, hga⟩ | ⟨hopens, hmem⟩
    · exact confirmed_getAssertion build hga hx hdecode hup
    · -- the GetAssertion that is continued is an exchange of the run
      have htrace : z ∈ a.trace build inputs := by
        rw [hrun]
        exact List.mem_append_left _ hmem
      obtain ⟨before, cmd', data', rfl⟩ := mem_trace build htrace
      obtain ⟨hga, r', hr'⟩ := opens_assertion hopens
      exact confirmed_getAssertion build hga hr' hdecode hup
  · obtain ⟨request, hdecode, hflag, hpresent⟩ := confirmed_makeCredential build hcommand hresult
    exact ⟨request, hdecode, hflag, fun hup => hpresent (hflag ▸ hup)⟩
  · exact confirmed_reset build hcommand hresult

end Lawful

/-! ## The sample device -/

/-- The device with a button that confirms the first three requests. -/
def buttonDevice : Auth KvMap :=
  { memoryDevice with userPresence := some fun n => decide (n < 3) }

set_option maxRecDepth 100000 in
/-- The device asserts with the flag UP, and the user has confirmed that request. -/
theorem presence_honest_sample :
    ∃ r z, ((buttonDevice.run sampleBuild (sampleSetup 1)).exchange sampleBuild 0x02
        (getAssertionData [])).assertion = some r ∧ upFlag r.authData = true ∧
      z.before.present = true ∧
      ((buttonDevice.run sampleBuild (sampleSetup 1)).exchange sampleBuild 0x02
        (getAssertionData [])).opening (buttonDevice.trace sampleBuild (sampleSetup 1)) =
          some z := by
  have hup : (((buttonDevice.run sampleBuild (sampleSetup 1)).exchange sampleBuild 0x02
      (getAssertionData [])).assertion.map fun r => upFlag r.authData) = some true := by
    decide +kernel
  obtain ⟨r, hr, hflag⟩ := Option.map_eq_some_iff.mp hup
  have hhonest := presence_honest sampleBuild buttonDevice rfl
    (sampleSetup 1 ++ [Input.command 0x02 (getAssertionData [])]) _ [] _
    (trace_snoc sampleBuild buttonDevice (sampleSetup 1) 0x02 (getAssertionData []))
  obtain ⟨z, request, hopening, -, -, hpresent⟩ := hhonest.assertion r hr
  exact ⟨r, z, hr, hflag, hpresent hflag, hopening⟩

end Auth

end OpenKey
