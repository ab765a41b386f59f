import OpenKey.Ctap2.Runs

/-!
# User verification and the token

The flag UV of a new credential or an assertion is the verdict on the token of that very request.
A token is in force from its issue until the PIN is set or changed, Reset, or the power is cycled:
after any of these the token in force, if there is one, was issued later.
-/

namespace OpenKey

open Prog (Keeps bind_eq_ok check_eq_ok ensure_eq_ok map_eq_ok)

set_option autoImplicit false

/-! ## The flag -/

namespace Auth

variable {β : Type} [StorageBackend β] [LawfulBackend β] (build : Build)

omit [StorageBackend β] [LawfulBackend β] in
/-- The verdict on a successful request says whether it was authorised. -/
theorem verdict_iff {a : Auth β} {pinProtocol : Option Nat} {pinUvAuthParam : Option Bytes}
    {message : Bytes} {permission : UInt8} {rpId : Option String} {verified : Bool}
    (h : verifyPinUvAuthForOperation a pinProtocol pinUvAuthParam message permission rpId =
      .ok verified) :
    verified = true ↔ Authorised a pinProtocol pinUvAuthParam message permission rpId := by
  rw [← verifyPinUvAuthForOperation_true, h]
  constructor
  · rintro rfl
    rfl
  · exact fun heq => Except.ok.inj heq

omit [LawfulBackend β] in
theorem uvFlag_makeCredential {a : Auth β} {cmd : UInt8} {data : Bytes}
    {request : MakeCredentialRequest} {r : MakeCredentialResponse}
    (hcmd : Ctap2Command.fromU8 cmd = .makeCredential)
    (hdecode : build.cbor.decodeMakeCredential data = .ok request)
    (hresult : (a.exchange build cmd data).result = .ok (.makeCredential r)) :
    uvFlag r.authData = true ↔ Authorised a request.pinProtocol request.pinUvAuthParam
      request.clientDataHash permissionMc (some request.rp.id) := by
  obtain ⟨request', verified, hdecode', hcreated⟩ := created_of_result build hcmd hresult
  rw [hdecode] at hdecode'
  cases hdecode'
  rw [hcreated.uvFlag]
  exact verdict_iff hcreated.verdict

theorem uvFlag_getAssertion {a : Auth β} {cmd : UInt8} {data : Bytes}
    {request : GetAssertionRequest} {r : GetAssertionResponse}
    (hcmd : Ctap2Command.fromU8 cmd = .getAssertion)
    (hdecode : build.cbor.decodeGetAssertion data = .ok request)
    (hresult : (a.exchange build cmd data).result = .ok (.getAssertion r)) :
    uvFlag r.authData = true ↔ Authorised a request.pinProtocol request.pinUvAuthParam
      request.clientDataHash permissionGa (some request.rpId) := by
  obtain ⟨-, request', verified, credential, hdecode', hasserted⟩ | ⟨hgna, -⟩ :=
    assertion_cases build (Exchange.assertion_eq_some.mpr ⟨.inl hcmd, hresult⟩)
  · rw [hdecode] at hdecode'
    cases hdecode'
    obtain ⟨a₁, a₂, assertion, -, hsigned, hdata, -⟩ := hasserted.signed
    rw [hdata, uvFlag_signed build (length_hashRpId _ _) hsigned, uvFlag_assertionFlags]
    exact verdict_iff hasserted.verdict
  · rw [hcmd] at hgna
    cases hgna

/-! ## Revocation -/

/-- A successful setPIN, changePIN or Reset, or a power cycle. -/
def Revokes (a : Auth β) : Input → Prop
  | .powerCycle => True
  | .command cmd data =>
      (∃ response, (a.exchange build cmd data).result = .ok response) ∧
        (Ctap2Command.fromU8 cmd = .reset ∨
          (Ctap2Command.fromU8 cmd = .clientPin ∧ ∃ request,
            ClientPinRequest.decode build.cbor data = .ok request ∧
            (request.subCommand = 0x03 ∨ request.subCommand = 0x04)))

omit [LawfulBackend β] in
theorem token_setPin {pin : Bytes} {a b : Auth β} (h : (setPin pin).run a = (.ok (), b)) :
    b.pinUvAuthToken = none := by
  obtain ⟨_, a₁, -, h⟩ := bind_eq_ok.mp h
  obtain ⟨_, a₂, -, h⟩ := bind_eq_ok.mp h
  obtain ⟨_, a₃, -, h⟩ := bind_eq_ok.mp h
  cases h
  rfl

omit [LawfulBackend β] in
theorem token_handleSetPin {request : ClientPinRequest} {a b : Auth β} {r : ClientPinResponse}
    (h : (handleSetPin request).run a = (.ok r, b)) : b.pinUvAuthToken = none := by
  obtain ⟨protocol, a₁, -, h⟩ := bind_eq_ok.mp h
  obtain ⟨_, a₂, -, h⟩ := bind_eq_ok.mp h
  obtain ⟨peer, a₃, -, h⟩ := bind_eq_ok.mp h
  obtain ⟨newPinEnc, a₄, -, h⟩ := bind_eq_ok.mp h
  obtain ⟨pinAuth, a₅, -, h⟩ := bind_eq_ok.mp h
  obtain ⟨secret, a₆, -, h⟩ := bind_eq_ok.mp h
  obtain ⟨_, a₇, -, h⟩ := bind_eq_ok.mp h
  obtain ⟨newPin, a₈, -, h⟩ := bind_eq_ok.mp h
  obtain ⟨_, a₉, hset, h⟩ := bind_eq_ok.mp h
  cases h
  exact token_setPin hset

omit [LawfulBackend β] in
theorem token_handleChangePin {request : ClientPinRequest} {a b : Auth β} {r : ClientPinResponse}
    (h : (handleChangePin request).run a = (.ok r, b)) : b.pinUvAuthToken = none := by
  obtain ⟨protocol, a₁, -, h⟩ := bind_eq_ok.mp h
  obtain ⟨_, a₂, -, h⟩ := bind_eq_ok.mp h
  obtain ⟨_, a₃, -, h⟩ := bind_eq_ok.mp h
  obtain ⟨_, a₄, -, h⟩ := bind_eq_ok.mp h
  obtain ⟨peer, a₅, -, h⟩ := bind_eq_ok.mp h
  obtain ⟨pinHashEnc, a₆, -, h⟩ := bind_eq_ok.mp h
  obtain ⟨newPinEnc, a₇, -, h⟩ := bind_eq_ok.mp h
  obtain ⟨pinAuth, a₈, -, h⟩ := bind_eq_ok.mp h
  obtain ⟨secret, a₉, -, h⟩ := bind_eq_ok.mp h
  obtain ⟨_, a₁₀, -, h⟩ := bind_eq_ok.mp h
  obtain ⟨_, a₁₁, -, h⟩ := bind_eq_ok.mp h
  obtain ⟨newPin, a₁₂, -, h⟩ := bind_eq_ok.mp h
  -- the token is dropped before the new hash is stored
  obtain ⟨_, a₁₃, hdrop, h⟩ := bind_eq_ok.mp h
  cases hdrop
  obtain ⟨_, a₁₄, hstore, h⟩ := bind_eq_ok.mp h
  cases h
  obtain ⟨hash, a₁₅, hread, hstore⟩ := bind_eq_ok.mp hstore
  cases hread
  obtain ⟨e, -, rfl⟩ := persist_ok hstore
  rfl

/-- After a revocation no token is in force. -/
theorem Revokes.token {a : Auth β} {input : Input} (h : Revokes build a input) :
    (a.step build input).pinUvAuthToken = none := by
  cases input with
  | powerCycle => rfl
  | command cmd data =>
      obtain ⟨⟨response, hok⟩, hreset | ⟨hcmd, request, hdecode, hsub⟩⟩ := h
      · obtain ⟨⟨error, herror⟩, -⟩ | ⟨-, hcleared⟩ := reset_step build data hreset a
        · rw [herror] at hok
          cases hok
        · exact hcleared.token
      · obtain ⟨a', hcore, hrun⟩ := run_processCommand build cmd data a
        rw [hcmd] at hrun
        have hdispatch : (dispatch build .clientPin data).run a' =
            (.ok response, a.step build (.command cmd data)) := by
          rw [← hrun, ← hok]
          rfl
        obtain ⟨r, hpin, -⟩ := map_eq_ok.mp hdispatch
        obtain ⟨request', a₁, hcheck, hpin⟩ := bind_eq_ok.mp hpin
        obtain ⟨hdecode', rfl⟩ := check_eq_ok.mp hcheck
        rw [hdecode] at hdecode'
        cases hdecode'
        unfold clientPinSubCommand at hpin
        rcases hsub with hsub | hsub
        · rw [hsub] at hpin
          exact token_handleSetPin hpin
        · rw [hsub] at hpin
          exact token_handleChangePin hpin

/-! ## Tokens in the log -/

/-- The tokens issued so far, the latest first. -/
def issuedTokens (log : List (Event β)) : List Bytes :=
  log.filterMap fun
    | .issued token => some token
    | _ => none

/-- The token in force, if there is one, was issued after `base`. -/
def TokenAfter (base : List (Event β)) (c : Core β) : Prop :=
  ∃ newer, c.log = newer ++ base ∧ ∀ state, c.token = some state →
    state.token ∈ issuedTokens newer

omit [StorageBackend β] [LawfulBackend β] in
theorem TokenAfter.log_cons {base : List (Event β)} {c c' : Core β} {event : Event β}
    (h : TokenAfter base c) (hlog : c'.log = event :: c.log)
    (htoken : ∀ state, c'.token = some state →
      c.token = some state ∨ event = .issued state.token) : TokenAfter base c' := by
  obtain ⟨newer, hnewer, hold⟩ := h
  refine ⟨event :: newer, by rw [hlog, hnewer, List.cons_append], fun state hstate => ?_⟩
  rcases htoken state hstate with htok | rfl
  · have hmem := hold state htok
    unfold issuedTokens at hmem ⊢
    rw [List.filterMap_cons]
    split
    · exact hmem
    · exact List.mem_cons_of_mem _ hmem
  · exact List.mem_cons_self

theorem tokenAfter_move {K : Set Kind} {base : List (Event β)} {c c' : Core β} (h : Move K c c')
    (hc : TokenAfter base c) : TokenAfter base c' := by
  cases h with
  | issue hK state =>
      refine hc.log_cons rfl fun state' hstate' => .inr ?_
      cases hstate'
      rfl
  | dropToken hK =>
      obtain ⟨newer, hnewer, -⟩ := hc
      exact ⟨newer, hnewer, fun _ hstate => by cases hstate⟩
  | enumerate hK state => exact hc
  | records | save | restore | compare | fail =>
      exact hc.log_cons rfl fun _ hstate => .inl hstate

/-- Every input keeps it. -/
theorem tokenAfter_step {base : List (Event β)} {a : Auth β} (h : TokenAfter base a.core)
    (input : Input) : TokenAfter base (a.step build input).core := by
  cases input with
  | powerCycle =>
      obtain ⟨newer, hnewer, -⟩ := h
      exact ⟨.booted :: newer, congrArg (List.cons Event.booted) hnewer,
        fun _ hstate => by cases hstate⟩
  | command cmd data =>
      by_cases hreset : Ctap2Command.fromU8 cmd = .reset
      · obtain ⟨-, hcore⟩ | ⟨-, hcleared⟩ := reset_step build data hreset a
        · rw [hcore]
          exact h
        · obtain ⟨newer, hnewer, -⟩ := h
          obtain ⟨more, hmore⟩ := hcleared.log
          refine ⟨more ++ newer, ?_, fun state hstate => ?_⟩
          · show (a.step build (.command cmd data)).log = _
            rw [← hmore, show a.log = newer ++ base from hnewer, List.append_assoc]
          · rw [show (a.step build (.command cmd data)).core.token = none from hcleared.token]
              at hstate
            cases hstate
      · exact moves_invariant (P := TokenAfter base) (fun _ _ hmove => tokenAfter_move hmove)
          (moves_step build data hreset a) h

theorem tokenAfter_run {base : List (Event β)} {a : Auth β} (h : TokenAfter base a.core)
    (inputs : List Input) : TokenAfter base (a.run build inputs).core :=
  run_invariant build (P := fun a => TokenAfter base a.core)
    (fun _ ha input _ => tokenAfter_step build ha input) h

/-- A token in force after a revocation is none of those issued before it. -/
theorem token_ne_revoked {a : Auth β} {input : Input} {later : List Input} {old : Bytes}
    (hrevokes : Revokes build a input)
    (hold : old ∈ issuedTokens (a.step build input).log)
    (hfresh : (issuedTokens ((a.step build input).run build later).log).Nodup)
    {state : PinUvAuthTokenState}
    (hstate : ((a.step build input).run build later).pinUvAuthToken = some state) :
    state.token ∈ issuedTokens ((a.step build input).run build later).log ∧
      old ∈ issuedTokens ((a.step build input).run build later).log ∧ state.token ≠ old := by
  have hbase : TokenAfter (a.step build input).log (a.step build input).core := by
    refine ⟨[], rfl, fun state hstate => ?_⟩
    rw [show (a.step build input).core.token = none from hrevokes.token build] at hstate
    cases hstate
  obtain ⟨newer, hlog, htoken⟩ := tokenAfter_run build hbase later
  have hnewer : state.token ∈ issuedTokens newer := htoken state hstate
  have hsplit : issuedTokens ((a.step build input).run build later).log =
      issuedTokens newer ++ issuedTokens (a.step build input).log := by
    rw [show ((a.step build input).run build later).log = _ from hlog]
    exact List.filterMap_append
  rw [hsplit] at hfresh ⊢
  refine ⟨List.mem_append_left _ hnewer, List.mem_append_right _ hold, fun heq => ?_⟩
  exact (List.nodup_append.mp hfresh).2.2 _ hnewer _ hold heq

/-- The flag UV of the answer to MakeCredential or GetAssertion is set exactly when the request was
authorised by the token in force. -/
structure UvHonest (x : Exchange β) : Prop where
  makeCredential : ∀ request r, x.command = .makeCredential →
    build.cbor.decodeMakeCredential x.data = .ok request → x.result = .ok (.makeCredential r) →
    (uvFlag r.authData = true ↔ Authorised x.before request.pinProtocol request.pinUvAuthParam
      request.clientDataHash permissionMc (some request.rp.id))
  getAssertion : ∀ request r, x.command = .getAssertion →
    build.cbor.decodeGetAssertion x.data = .ok request → x.result = .ok (.getAssertion r) →
    (uvFlag r.authData = true ↔ Authorised x.before request.pinProtocol request.pinUvAuthParam
      request.clientDataHash permissionGa (some request.rpId))

/-- Two tokens of the list never have the same MAC of this message. -/
def DistinctMacs (prims : Primitives) (tokens : List Bytes) (protocol : PinUvProtocol)
    (message : Bytes) : Prop :=
  ∀ t ∈ tokens, ∀ t' ∈ tokens, t ≠ t' → ∀ mac,
    protocol.authenticate prims t message = .ok mac →
    protocol.authenticate prims t' message ≠ .ok mac

/-- In every run the flag UV is honest; and if the tokens issued are distinct, a token issued before
a revocation validates no message after it that distinct tokens sign differently. -/
theorem uv_honest_and_tokens_revoked (a : Auth β) (inputs : List Input) :
    (∀ x ∈ a.trace build inputs, UvHonest build x) ∧
      ((issuedTokens (a.run build inputs).log).Nodup →
        ∀ past input later, inputs = past ++ input :: later →
          Revokes build (a.run build past) input →
          ∀ old ∈ issuedTokens ((a.run build past).step build input).log,
          ∀ version protocol param message, PinUvProtocol.new version = some protocol →
            DistinctMacs (a.run build inputs).crypto.prims
              (issuedTokens (a.run build inputs).log) protocol message →
            protocol.authenticate (a.run build inputs).crypto.prims old message = .ok param →
            verifyPinUvAuthMessage (a.run build inputs) version param message ≠ .ok ()) := by
  refine ⟨fun x hx => ?_, fun hfresh => ?_⟩
  · obtain ⟨past, cmd, data, rfl⟩ := mem_trace build hx
    exact ⟨fun request r hcmd hdecode hres => uvFlag_makeCredential build hcmd hdecode hres,
      fun request r hcmd hdecode hres => uvFlag_getAssertion build hcmd hdecode hres⟩
  · rintro past input later rfl hrevokes old hold version protocol param message hnew hmacs hmac
      hverify
    have hrun : a.run build (past ++ input :: later) =
        ((a.run build past).step build input).run build later := run_append build a past _
    rw [hrun] at hfresh hmacs hmac hverify
    obtain ⟨state, protocol', hstate, rfl, hnew', hmac'⟩ := verifyPinUvAuthMessage_ok.mp hverify
    rw [hnew] at hnew'
    cases hnew'
    obtain ⟨hin, hin', hne⟩ := token_ne_revoked build hrevokes hold hfresh hstate
    exact hmacs _ hin _ hin' hne param hmac' hmac

/-- A token, a power cycle and another token. -/
def twoTokens : List Input := [setPinCommand, getTokenCommand, .powerCycle, laterTokenCommand]

set_option maxRecDepth 100000 in
/-- After the power cycle the second token of the sample device validates a message, and the first
does not. -/
theorem uv_honest_and_tokens_revoked_sample :
    issuedTokens (backedDevice.run sampleBuild twoTokens).log = [drawn 32 5, drawn 32 3] ∧
      verifyPinUvAuthMessage (backedDevice.run sampleBuild twoTokens) 1
        (word16 0xa201d53dd205c89facf356172669ee2a) [0x0d, 0x02] = .ok () ∧
      verifyPinUvAuthMessage (backedDevice.run sampleBuild twoTokens) 1
        (word16 0x3ddd09eadbb2e1d4ebece9dd90f5c6e9) [0x0d, 0x02] ≠ .ok () := by
  have htokens : issuedTokens (backedDevice.run sampleBuild twoTokens).log =
      [drawn 32 5, drawn 32 3] := by decide +kernel
  have hfirst : PinUvProtocol.one.authenticate (backedDevice.run sampleBuild twoTokens).crypto.prims
      (drawn 32 3) [0x0d, 0x02] = .ok (word16 0x3ddd09eadbb2e1d4ebece9dd90f5c6e9) := by
    decide +kernel
  have hsecond : PinUvProtocol.one.authenticate
      (backedDevice.run sampleBuild twoTokens).crypto.prims (drawn 32 5) [0x0d, 0x02] =
        .ok (word16 0xa201d53dd205c89facf356172669ee2a) := by decide +kernel
  have hdiffer : word16 0x3ddd09eadbb2e1d4ebece9dd90f5c6e9 ≠
      word16 0xa201d53dd205c89facf356172669ee2a := by decide
  refine ⟨htokens, by decide +kernel, (uv_honest_and_tokens_revoked sampleBuild backedDevice
    twoTokens).2 ?_ [setPinCommand, getTokenCommand] .powerCycle [laterTokenCommand] rfl trivial
    (drawn 32 3) ?_ 1 .one _ _ rfl ?_ hfirst⟩
  · rw [htokens]
    decide
  · decide +kernel
  · rw [htokens]
    intro t ht t' ht' hne mac hmac hmac'
    simp only [List.mem_cons, List.not_mem_nil, or_false] at ht ht'
    rcases ht with rfl | rfl <;> rcases ht' with rfl | rfl
    · exact hne rfl
    · rw [hsecond] at hmac
      rw [hfirst, ← hmac] at hmac'
      exact hdiffer (Except.ok.inj hmac')
    · rw [hfirst] at hmac
      rw [hsecond, ← hmac] at hmac'
      exact hdiffer (Except.ok.inj hmac').symm
    · exact hne rfl

end Auth

end OpenKey
