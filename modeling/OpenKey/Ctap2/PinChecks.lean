import OpenKey.Ctap2.Runs

/-!
# What a PIN check decides

A PIN check of ClientPIN decrypts `pinHashEnc` under the secret of its transaction and compares the
result with the stored hash. The log tells what became of it: a check that begins either passes or
fails.

**Main result (`judges_command`).** A command other than Reset begins a check exactly if it asks for
one in order, with a retry left. The check passes exactly if the submitted hash is the stored one,
and fails otherwise.
-/

namespace OpenKey

open Prog (Keeps KeepsAt bind_eq_ok check_eq_ok ensure_eq_ok map_eq_ok)

set_option autoImplicit false

/-! ## Marks in the log -/

/-- What a log says of the PIN and its checks. -/
inductive PinMark
  /-- An initial PIN is stored. -/
  | set
  | begun
  | passed
  | failed
  deriving DecidableEq, Repr

/-- The marks of a log, the latest first. -/
def pinMarks {β : Type} (log : List (Event β)) : List PinMark :=
  log.filterMap fun
    | .stored _ .pinSet => some .set
    | .stored _ .checkBegun => some .begun
    | .stored _ .checkPassed => some .passed
    | .failed => some .failed
    | _ => none

/-- The storage after each retry that a check has taken, the latest first. -/
def takenRetries {β : Type} (log : List (Event β)) : List (StorageEngine β) :=
  log.filterMap fun
    | .stored e .checkBegun => some e
    | _ => none

/-- The subcommands that check a PIN. -/
def ChecksPin (request : ClientPinRequest) : Prop :=
  request.subCommand = 0x04 ∨ request.subCommand = 0x05 ∨ request.subCommand = 0x09

namespace Auth

section Parameters

variable {β : Type}

theorem validateProtocol_ok {version : Option Nat} {a b : Auth β} {protocol : PinUvProtocol}
    (h : (validateProtocol version).run a = (.ok protocol, b)) :
    (∃ n, version = some n ∧ PinUvProtocol.new n = some protocol) ∧ a = b := by
  obtain ⟨n, a₁, hrequired, hcheck⟩ := bind_eq_ok.mp h
  obtain ⟨hn, rfl⟩ := check_eq_ok.mp hrequired
  obtain ⟨hprotocol, rfl⟩ := check_eq_ok.mp hcheck
  exact ⟨⟨n, Option.elim_error_eq_ok.mp hn, Option.elim_error_eq_ok.mp hprotocol⟩, rfl⟩

theorem required_ok {α : Type} {parameter : Option α} {a b : Auth β} {x : α}
    (h : (required parameter).run a = (.ok x, b)) : parameter = some x ∧ a = b := by
  obtain ⟨hx, rfl⟩ := check_eq_ok.mp h
  exact ⟨Option.elim_error_eq_ok.mp hx, rfl⟩

theorem run_takeAgreementKey (a : Auth β) :
    ∃ b, (takeAgreementKey : Ctap β Entropy).run a = (.ok (a.pinAgreementKey.getD (a.rng 0)), b) ∧
      b.crypto = a.crypto := by
  rw [takeAgreementKey, Prog.run_read_bind]
  cases a.pinAgreementKey with
  | none => exact ⟨_, rfl, rfl⟩
  | some key => exact ⟨_, rfl, rfl⟩

/-- The moves that leave no mark. -/
def Unmarked : Prog.Frame (Auth β) := .constant fun a => (pinMarks a.log, takenRetries a.log)

theorem unmarked_of_quiet {α : Type} {m : Ctap β α} (h : Keeps Quiet m) : Keeps Unmarked m :=
  h.mono fun _ _ hcore => congrArg (fun c : Core β => (pinMarks c.log, takenRetries c.log)) hcore

/-! ## What a request submits -/

/-- The secret that a key agreement with a platform would end with. -/
def agreedSecret (a : Auth β) (protocol : PinUvProtocol) (peerCose : CoseEc2Key) :
    Option Bytes := do
  let peerPoint ← peerCose.toUncompressed.toOption
  let z ← a.crypto.prims.ecdhAgree (a.pinAgreementKey.getD (a.rng 0)) peerPoint
  (protocol.kdf a.crypto.prims z).toOption

/-- The hash of a PIN in a request. -/
def submittedHash (a : Auth β) (request : ClientPinRequest) : Option Bytes := do
  let protocol ← PinUvProtocol.new (← request.pinProtocol)
  let peerCose ← request.keyAgreement
  let pinHashEnc ← request.pinHashEnc
  let secret ← a.agreedSecret protocol peerCose
  (protocol.decryptExact a.crypto.prims secret pinHashEnc pinHashLen).toOption

theorem agreedSecret_eq (protocol : PinUvProtocol) (peerCose : CoseEc2Key) (a : Auth β) :
    ((performKeyAgreement protocol peerCose).run a).1.toOption =
      a.agreedSecret protocol peerCose := by
  rw [performKeyAgreement, agreedSecret]
  cases peerCose.toUncompressed with
  | error error => rfl
  | ok point =>
      obtain ⟨b, hkey, hcrypto⟩ := run_takeAgreementKey a
      have hpoint : (Prog.check fun _ : Auth β => (.ok point : Except Ctap2Error _)).run a =
          (.ok point, a) := rfl
      rw [Prog.run_bind_of_ok hpoint, Prog.run_bind_of_ok hkey, ← hcrypto]
      show _ = (b.crypto.prims.ecdhAgree (a.pinAgreementKey.getD (a.rng 0)) point).bind fun z =>
        (protocol.kdf b.crypto.prims z).toOption
      have hagree : (Prog.check fun c : Auth β =>
          (c.crypto.prims.ecdhAgree (a.pinAgreementKey.getD (a.rng 0)) point).elim
            (.error Ctap2Error.invalidParameter) .ok).run b =
          ((b.crypto.prims.ecdhAgree (a.pinAgreementKey.getD (a.rng 0)) point).elim
            (.error Ctap2Error.invalidParameter) .ok, b) := rfl
      cases hz : b.crypto.prims.ecdhAgree (a.pinAgreementKey.getD (a.rng 0)) point with
      | none =>
          rw [hz] at hagree
          rw [Prog.run_bind_of_error hagree]
          rfl
      | some z =>
          rw [hz] at hagree
          rw [Prog.run_bind_of_ok hagree, Prog.run_check, Option.bind_some]
          cases protocol.kdf b.crypto.prims z <;> rfl

end Parameters

variable {β : Type} [StorageBackend β]

omit [StorageBackend β] in
theorem run_required {α : Type} {parameter : Option α} {x : α} (h : parameter = some x)
    (a : Auth β) : (required parameter).run a = (.ok x, a) := by
  rw [h]
  rfl

omit [StorageBackend β] in
theorem run_validateProtocol {version : Option Nat} {n : Nat} {protocol : PinUvProtocol}
    (hversion : version = some n) (hnew : PinUvProtocol.new n = some protocol) (a : Auth β) :
    (validateProtocol version).run a = (.ok protocol, a) := by
  rw [validateProtocol, Prog.run_bind_of_ok (run_required hversion a), Prog.run_check, hnew]
  rfl

omit [StorageBackend β] in
theorem performKeyAgreement_ok {protocol : PinUvProtocol} {peerCose : CoseEc2Key} {a b : Auth β}
    {secret : Bytes} (h : (performKeyAgreement protocol peerCose).run a = (.ok secret, b)) :
    a.agreedSecret protocol peerCose = some secret ∧ b.crypto = a.crypto := by
  refine ⟨?_, congrArg Core.crypto (core_of_quiet (quiet_performKeyAgreement _ _) h)⟩
  rw [← agreedSecret_eq, h]
  rfl

omit [StorageBackend β] in
/-- The agreed secret is derived, and the core stays. -/
theorem run_performKeyAgreement {protocol : PinUvProtocol} {peerCose : CoseEc2Key} {a : Auth β}
    {secret : Bytes} (h : a.agreedSecret protocol peerCose = some secret) :
    ∃ b, (performKeyAgreement protocol peerCose).run a = (.ok secret, b) ∧ b.core = a.core := by
  have heq := (agreedSecret_eq protocol peerCose a).trans h
  cases hrun : (performKeyAgreement protocol peerCose).run a with
  | mk result b =>
      rw [hrun] at heq
      cases result with
      | error error => cases heq
      | ok secret' =>
          cases heq
          exact ⟨b, rfl, core_of_quiet (quiet_performKeyAgreement _ _) hrun⟩

/-- The stored hash of the PIN. -/
def storedPin (a : Auth β) : Option Bytes := a.storage.value pinStorageKey

theorem storedPin_decrementPinRetries [LawfulBackend β] (mark : Mark) (a : Auth β) :
    ((decrementPinRetries mark).run a).2.storedPin = a.storedPin :=
  ((StorageEngine.saved_run_store pinRetriesKey _ a.storage).value_eq _).trans (if_neg (by decide))

theorem storedPin_resetPinRetries [LawfulBackend β] (mark : Mark) (a : Auth β) :
    ((resetPinRetries mark).run a).2.storedPin = a.storedPin :=
  ((StorageEngine.saved_run_store pinRetriesKey _ a.storage).value_eq _).trans (if_neg (by decide))

/-! ## Programs that leave no mark -/

theorem unmarked_storePinHash (pin : Bytes) :
    Keeps Unmarked (storePinHash .ordinary pin : Ctap β Unit) := fun _ => rfl

theorem unmarked_resetPinRetries : Keeps Unmarked (resetPinRetries .ordinary : Ctap β Unit) :=
  fun _ => rfl

omit [StorageBackend β] in
theorem unmarked_issuePinUvAuthToken (protocol : PinUvProtocol) (secret : Bytes)
    (permissions : UInt8) (rpId : Option String) :
    Keeps Unmarked (issuePinUvAuthToken protocol secret permissions rpId : Ctap β Bytes) :=
  (unmarked_of_quiet (quiet_randomBytes _)).bind fun _ =>
    (unmarked_of_quiet (quiet_encryptWith _ _ _)).bind fun _ =>
      Keeps.bind (.update fun _ => rfl) fun _ => .pure _

/-- A PIN that is set leaves its mark. -/
theorem marks_setPin {pin : Bytes} (hlen : pinLengthOk pin = true) (a : Auth β) :
    pinMarks ((setPin pin >>= fun _ =>
      pure ClientPinResponse.default : Ctap β ClientPinResponse).run a).2.log =
      .set :: pinMarks a.log := by
  have hrest : Keeps Unmarked (do
      resetPinRetries .ordinary
      invalidatePinUvAuthToken : Ctap β Unit) :=
    unmarked_resetPinRetries.bind fun _ => .update fun _ => rfl
  rw [setPin, Prog.bind_bind, Prog.run_ensure_bind (s := a) hlen]
  exact (congrArg Prod.fst (Prog.rel_bind (F := Unmarked) (fun _ => .pure _) a)).trans
    (congrArg Prod.fst (Prog.rel_bind (m := storePinHash .pinSet pin) (fun _ => hrest) a))

/-- Marks are left only with the retry counter, or by a failure. -/
theorem unmarked_of_moves [LawfulBackend β] {K : Set Kind} (hsave : Kind.save pinRetriesKey ∉ K)
    (hpin : Kind.save pinStorageKey ∉ K) (hfail : Kind.fail ∉ K) {a b : Auth β}
    (h : (Moves K).rel a b) : Unmarked.rel a b := by
  refine moves_invariant
    (P := fun c => (pinMarks c.log, takenRetries c.log) = (pinMarks a.log, takenRetries a.log))
    (fun c c' hmove heq => ?_) h rfl
  rw [← heq]
  cases hmove with
  | issue | dropToken | enumerate | compare | records => rfl
  | fail hmem => exact absurd hmem hfail
  | restore hmem => exact absurd hmem hsave
  | save hmem _ ha =>
      cases ha with
      | initialPin => exact absurd hmem hpin
      | takeRetry => exact absurd hmem hsave
      | newPin | alwaysUv | counted | plain => rfl

/-! ## One check -/

/-- What a check with this outcome leaves in the log. -/
def verdict (right : Bool) : PinMark := if right then .passed else .failed

/-- A check takes its retry, and passes exactly for the stored hash. -/
theorem marks_checkPinHash [LawfulBackend β] (path : PinPath) (protocol : PinUvProtocol)
    (secret pinHashEnc : Bytes) {a : Auth β} (hset : a.storage.isPinSet = true) :
    pinMarks ((checkPinHash path protocol secret pinHashEnc).run a).2.log =
      verdict (decide ((protocol.decryptExact a.crypto.prims secret pinHashEnc
        pinHashLen).toOption = a.storedPin)) :: .begun :: pinMarks a.log := by
  obtain ⟨stored, hstored⟩ := Option.isSome_iff_exists.mp hset
  obtain ⟨b, htake, hcrypto, hkept, hmarks⟩ : ∃ b, (decrementPinRetries .checkBegun).run a =
      (.ok (), b) ∧ b.crypto = a.crypto ∧ b.storage.value pinStorageKey = some stored ∧
      pinMarks b.log = .begun :: pinMarks a.log :=
    ⟨_, rfl, rfl, (storedPin_decrementPinRetries .checkBegun a).trans hstored, rfl⟩
  rw [show a.storedPin = some stored from hstored, checkPinHash, Prog.run_bind_of_ok htake,
    Prog.run_read_bind, hcrypto]
  cases hsubmitted : protocol.decryptExact a.crypto.prims secret pinHashEnc pinHashLen with
  | error error => exact congrArg (PinMark.failed :: ·) hmarks
  | ok hash =>
      have hcompare : (comparePinHash path hash).run b = (.ok (some (decide (hash = stored))),
          { b with log := .compared path (decide (hash = stored)) :: b.log }) := by
        simp only [comparePinHash, Prog.run_act, hkept]
      rw [Prog.run_bind_of_ok hcompare]
      by_cases hmatch : hash = stored
      · simp only [hmatch, decide_true, if_true, Except.toOption, verdict]
        exact congrArg (PinMark.passed :: ·) hmarks
      · simp only [hmatch, decide_false, Except.toOption, verdict, Option.some.injEq, reduceCtorEq]
        exact congrArg (PinMark.failed :: ·) hmarks

/-! ## Refusals -/

/-- The program fails and leaves everything that counts as it was. -/
def Refuses {α : Type} (m : Ctap β α) (a : Auth β) : Prop :=
  ∃ error b, m.run a = (.error error, b) ∧ b.core = a.core

section Refuses

variable {α α' : Type}

omit [StorageBackend β] in
theorem Refuses.run_bind {m : Ctap β α} {f : α → Ctap β α'} {a : Auth β} (hm : Keeps Quiet m)
    (hf : ∀ x b, m.run a = (.ok x, b) → Refuses (f x) b) : Refuses (m >>= f) a := by
  cases hrun : m.run a with
  | mk result b =>
      have hcore : b.core = a.core := hm.of_run hrun
      cases result with
      | error error => exact ⟨error, b, Prog.run_bind_of_error hrun, hcore⟩
      | ok x =>
          obtain ⟨error, c, hc, hcore'⟩ := hf x b hrun
          exact ⟨error, c, (Prog.run_bind_of_ok hrun).trans hc, hcore'.trans hcore⟩

omit [StorageBackend β] in
theorem Refuses.quiet_bind {m : Ctap β α} {f : α → Ctap β α'} {a : Auth β} (hm : Keeps Quiet m)
    (hf : ∀ x b, b.core = a.core → Refuses (f x) b) : Refuses (m >>= f) a :=
  .run_bind hm fun x b hrun => hf x b (core_of_quiet hm hrun)

omit [StorageBackend β] in
theorem Refuses.ensure_bind {c : Auth β → Bool} {error : Ctap2Error} {k : Unit → Ctap β α}
    {a : Auth β} (h : c a = true → Refuses (k ()) a) :
    Refuses (Prog.ensure c error >>= k) a := by
  cases hc : c a with
  | true =>
      obtain ⟨error', b, hrun, hcore⟩ := h hc
      exact ⟨error', b, (Prog.run_ensure_bind hc).trans hrun, hcore⟩
  | false => exact ⟨error, a, Prog.run_ensure_bind_error hc, rfl⟩

omit [StorageBackend β] in
/-- A parameter that is needed. -/
theorem Refuses.required_bind {parameter : Option α} {f : α → Ctap β α'} {a : Auth β}
    (hf : ∀ x, parameter = some x → Refuses (f x) a) : Refuses (required parameter >>= f) a :=
  .run_bind (quiet_required _) fun x b hrun => by
    obtain ⟨hx, rfl⟩ := required_ok hrun
    exact hf x hx

omit [StorageBackend β] in
theorem Refuses.protocol_bind {version : Option Nat} {f : PinUvProtocol → Ctap β α} {a : Auth β}
    (hf : ∀ protocol, (∃ n, version = some n ∧ PinUvProtocol.new n = some protocol) →
      Refuses (f protocol) a) : Refuses (validateProtocol version >>= f) a :=
  .run_bind (quiet_validateProtocol _) fun protocol b hrun => by
    obtain ⟨hprotocol, rfl⟩ := validateProtocol_ok hrun
    exact hf protocol hprotocol

omit [StorageBackend β] in
theorem Refuses.permissions_bind {permissions : UInt8} {f : Unit → Ctap β α} {a : Auth β}
    (hf : (permissions != 0) = true → (permissionOptions.all fun need =>
      permissions &&& need.1 == 0 || a.capabilities.options.contains need.2) = true →
      Refuses (f ()) a) : Refuses (validatePermissions permissions >>= f) a :=
  .run_bind (quiet_validatePermissions _) fun _ b hrun => by
    obtain ⟨_, a₁, hfirst, hsecond⟩ := bind_eq_ok.mp hrun
    obtain ⟨hnonzero, rfl⟩ := ensure_eq_ok.mp hfirst
    obtain ⟨hallowed, rfl⟩ := ensure_eq_ok.mp hsecond
    exact hf hnonzero hallowed

end Refuses

/-! ## Which requests are checked -/

/-- The request carries the hash of a PIN, under the secret it agrees on. -/
structure Submits (a : Auth β) (request : ClientPinRequest) (protocol : PinUvProtocol)
    (secret pinHashEnc : Bytes) : Prop where
  version : ∃ n, request.pinProtocol = some n ∧ PinUvProtocol.new n = some protocol
  agreed : ∃ peerCose, request.keyAgreement = some peerCose ∧
    a.agreedSecret protocol peerCose = some secret
  encrypted : request.pinHashEnc = some pinHashEnc

/-- A request of changePIN, signed under its secret. -/
def AsksForChange (a : Auth β) (request : ClientPinRequest) (protocol : PinUvProtocol)
    (secret pinHashEnc : Bytes) : Prop :=
  request.subCommand = 0x04 ∧ ∃ newPinEnc pinAuth, request.newPinEnc = some newPinEnc ∧
    request.pinAuth = some pinAuth ∧
    protocol.verify a.crypto.prims secret (newPinEnc ++ pinHashEnc) pinAuth = .ok true

/-- A request of getPinToken, or of getPinUvAuthTokenUsingPinWithPermissions for permissions that
may be given. -/
def AsksForToken (a : Auth β) (request : ClientPinRequest) : Prop :=
  (request.subCommand = 0x05 ∧ request.permissions = none ∧ request.rpId = none) ∨
    request.subCommand = 0x09 ∧ ∃ permissions, request.permissions = some permissions ∧
      (permissions != 0) = true ∧
      (permissionOptions.all fun need =>
        permissions &&& need.1 == 0 || a.capabilities.options.contains need.2) = true ∧
      (permissions &&& (permissionMc ||| permissionGa) == 0 || request.rpId.isSome) = true

/-- The request asks for a PIN check in order, and one may start. -/
structure ReachesCheck (a : Auth β) (request : ClientPinRequest) : Prop where
  opened : a.CheckOpen
  submits : ∃ protocol secret pinHashEnc, a.Submits request protocol secret pinHashEnc ∧
    (a.AsksForChange request protocol secret pinHashEnc ∨
      a.storage.isForceChangePin = false ∧ a.AsksForToken request)

/-- The session of hmac-secret does not count. -/
theorem reachesCheck_session {a : Auth β} {request : ClientPinRequest}
    {session : Option HmacSecretSession} :
    ReachesCheck { a with hmacSecretSession := session } request ↔ a.ReachesCheck request :=
  ⟨fun ⟨hopen, protocol, secret, pinHashEnc, hsubmits, hasks⟩ =>
    ⟨⟨hopen.1, hopen.2, hopen.3⟩, protocol, secret, pinHashEnc,
      ⟨hsubmits.1, hsubmits.2, hsubmits.3⟩, hasks⟩,
  fun ⟨hopen, protocol, secret, pinHashEnc, hsubmits, hasks⟩ =>
    ⟨⟨hopen.1, hopen.2, hopen.3⟩, protocol, secret, pinHashEnc,
      ⟨hsubmits.1, hsubmits.2, hsubmits.3⟩, hasks⟩⟩

theorem ReachesCheck.checksPin {a : Auth β} {request : ClientPinRequest}
    (h : a.ReachesCheck request) : ChecksPin request := by
  obtain ⟨protocol, secret, pinHashEnc, -, ⟨hsub, -⟩ | ⟨-, ⟨hsub, -⟩ | ⟨hsub, -⟩⟩⟩ := h.submits
  · exact .inl hsub
  · exact .inr (.inl hsub)
  · exact .inr (.inr hsub)

omit [StorageBackend β] in
theorem Submits.submittedHash {a : Auth β} {request : ClientPinRequest} {protocol : PinUvProtocol}
    {secret pinHashEnc : Bytes} (h : a.Submits request protocol secret pinHashEnc) :
    a.submittedHash request =
      (protocol.decryptExact a.crypto.prims secret pinHashEnc pinHashLen).toOption := by
  obtain ⟨n, hversion, hnew⟩ := h.version
  obtain ⟨peerCose, hpeer, hagreed⟩ := h.agreed
  simp [Auth.submittedHash, hversion, hnew, hpeer, hagreed, h.encrypted]

section

variable {a : Auth β} {request : ClientPinRequest}

/-- changePIN is refused unless its check is reached. -/
theorem refuses_changePin_of_not (hsub : request.subCommand = 0x04)
    (h : ¬a.ReachesCheck request) : Refuses (handleChangePin request) a :=
  .protocol_bind fun protocol hprotocol => .ensure_bind fun hset => .ensure_bind fun hleft =>
    .ensure_bind fun hopen => .required_bind fun peer hpeer => .required_bind fun pinHashEnc henc =>
      .required_bind fun newPinEnc hnew => .required_bind fun pinAuth hauth =>
        .run_bind (quiet_performKeyAgreement _ _) fun secret b hsecret => by
          obtain ⟨hagreed, hcrypto⟩ := performKeyAgreement_ok hsecret
          refine .run_bind (quiet_verifyWith _ _ _ _) fun _ c hrun => ?_
          obtain ⟨hverify, rfl⟩ := check_eq_ok.mp hrun
          refine absurd ⟨.of_checks hset hleft hopen, protocol, secret, pinHashEnc,
            ⟨hprotocol, ⟨peer, hpeer, hagreed⟩, henc⟩,
            .inl ⟨hsub, newPinEnc, pinAuth, hnew, hauth, ?_⟩⟩ h
          rw [hcrypto] at hverify
          split at hverify
          · assumption
          · cases hverify

/-- So is a request of a token. -/
theorem refuses_tokenCommon_of_not {protocol : PinUvProtocol} {permissions : UInt8}
    {rpId : Option String}
    (hprotocol : ∃ n, request.pinProtocol = some n ∧ PinUvProtocol.new n = some protocol)
    (hasks : a.AsksForToken request) (h : ¬a.ReachesCheck request) :
    Refuses (handleGetPinTokenCommon request protocol permissions rpId) a :=
  .ensure_bind fun hset => .ensure_bind fun hfree => .ensure_bind fun hleft =>
    .ensure_bind fun hopen => .required_bind fun peer hpeer => .required_bind fun pinHashEnc henc =>
      .run_bind (quiet_performKeyAgreement _ _) fun secret b hsecret =>
        absurd ⟨.of_checks hset hleft hopen, protocol, secret, pinHashEnc,
          ⟨hprotocol, ⟨peer, hpeer, (performKeyAgreement_ok hsecret).1⟩, henc⟩,
          .inr ⟨by simpa using hfree, hasks⟩⟩ h

theorem refuses_clientPin_of_not (hsub : ChecksPin request) (h : ¬a.ReachesCheck request) :
    Refuses (clientPinSubCommand request) a := by
  unfold clientPinSubCommand
  rcases hsub with hsub | hsub | hsub
  · rw [hsub]
    exact refuses_changePin_of_not hsub h
  · rw [hsub]
    refine .protocol_bind fun protocol hprotocol => .ensure_bind fun hplain => ?_
    rw [Bool.and_eq_true, Option.isNone_iff_eq_none, Option.isNone_iff_eq_none] at hplain
    exact refuses_tokenCommon_of_not hprotocol (.inl ⟨hsub, hplain⟩) h
  · rw [hsub]
    exact .protocol_bind fun protocol hprotocol => .required_bind fun permissions hpermissions =>
      .permissions_bind fun hnonzero hallowed => .ensure_bind fun hbound =>
        refuses_tokenCommon_of_not hprotocol
          (.inr ⟨hsub, permissions, hpermissions, hnonzero, hallowed, hbound⟩) h

/-! ## The check of a request -/

/-- A program is the check of a request, followed by what leaves no mark. -/
def RunsCheck {α : Type} (m : Ctap β α) (a : Auth β) (request : ClientPinRequest) : Prop :=
  ∃ (path : PinPath) (protocol : PinUvProtocol) (secret pinHashEnc : Bytes) (k : Unit → Ctap β α)
    (b : Auth β), a.submittedHash request =
      (protocol.decryptExact a.crypto.prims secret pinHashEnc pinHashLen).toOption ∧
    b.core = a.core ∧ (∀ x, Keeps Unmarked (k x)) ∧
    m.run a = (checkPinHash path protocol secret pinHashEnc >>= k).run b

theorem runsCheck_changePin {protocol : PinUvProtocol} {secret pinHashEnc : Bytes}
    (hopen : a.CheckOpen) (hsubmits : a.Submits request protocol secret pinHashEnc)
    (hasks : a.AsksForChange request protocol secret pinHashEnc) :
    RunsCheck (handleChangePin request) a request := by
  obtain ⟨n, hversion, hprotocol⟩ := hsubmits.version
  obtain ⟨peerCose, hpeer, hagreed⟩ := hsubmits.agreed
  obtain ⟨-, newPinEnc, pinAuth, hnew, hauth, hverify⟩ := hasks
  obtain ⟨b, hsecret, hcore⟩ := run_performKeyAgreement hagreed
  have hcrypto : b.crypto = a.crypto := congrArg Core.crypto hcore
  have hsigned : (verifyWith protocol secret (newPinEnc ++ pinHashEnc) pinAuth).run b =
      (.ok (), b) := by
    rw [verifyWith, Prog.run_check, hcrypto, hverify]
  refine ⟨.changePin, protocol, secret, pinHashEnc, _, b, hsubmits.submittedHash, hcore, ?_,
    (Prog.run_bind_of_ok (run_validateProtocol hversion hprotocol a)).trans <|
    (Prog.run_ensure_bind (s := a) hopen.pinSet).trans <| (Prog.run_ensure_bind ?_).trans <|
    (Prog.run_ensure_bind ?_).trans <| (Prog.run_bind_of_ok (run_required hpeer a)).trans <|
    (Prog.run_bind_of_ok (run_required hsubmits.encrypted a)).trans <|
    (Prog.run_bind_of_ok (run_required hnew a)).trans <|
    (Prog.run_bind_of_ok (run_required hauth a)).trans <|
    (Prog.run_bind_of_ok hsecret).trans <| Prog.run_bind_of_ok hsigned⟩
  · exact fun _ => (unmarked_of_quiet (quiet_decryptNewPin _ _ _)).bind fun newPin =>
      Keeps.bind (.update fun _ => rfl) fun _ => (unmarked_storePinHash newPin).bind fun _ =>
        .pure _
  · simpa [getPinRetries] using hopen.retryLeft
  · simpa [isPinAuthBlocked] using hopen.notBlocked

theorem runsCheck_tokenCommon {protocol : PinUvProtocol} {secret pinHashEnc : Bytes}
    (hopen : a.CheckOpen) (hsubmits : a.Submits request protocol secret pinHashEnc)
    (hfree : a.storage.isForceChangePin = false) (permissions : UInt8) (rpId : Option String) :
    RunsCheck (handleGetPinTokenCommon request protocol permissions rpId) a request := by
  obtain ⟨peerCose, hpeer, hagreed⟩ := hsubmits.agreed
  obtain ⟨b, hsecret, hcore⟩ := run_performKeyAgreement hagreed
  refine ⟨.pinToken, protocol, secret, pinHashEnc, _, b, hsubmits.submittedHash, hcore, ?_,
    (Prog.run_ensure_bind (s := a) hopen.pinSet).trans <| (Prog.run_ensure_bind ?_).trans <|
    (Prog.run_ensure_bind ?_).trans <| (Prog.run_ensure_bind ?_).trans <|
    (Prog.run_bind_of_ok (run_required hpeer a)).trans <|
    (Prog.run_bind_of_ok (run_required hsubmits.encrypted a)).trans <|
    Prog.run_bind_of_ok hsecret⟩
  · exact fun _ => (unmarked_issuePinUvAuthToken _ _ _ _).bind fun _ => .pure _
  · simp [hfree]
  · simpa [getPinRetries] using hopen.retryLeft
  · simpa [isPinAuthBlocked] using hopen.notBlocked

/-- A request that reaches its check is that check. -/
theorem ReachesCheck.runs (h : a.ReachesCheck request) :
    RunsCheck (clientPinSubCommand request) a request := by
  obtain ⟨protocol, secret, pinHashEnc, hsubmits, hasks | ⟨hfree, hasks⟩⟩ := h.submits
  · unfold clientPinSubCommand
    rw [hasks.1]
    exact runsCheck_changePin h.opened hsubmits hasks
  obtain ⟨n, hversion, hprotocol⟩ := hsubmits.version
  have hcommon := runsCheck_tokenCommon h.opened hsubmits hfree
  have hrun := run_validateProtocol (β := β) hversion hprotocol a
  unfold clientPinSubCommand
  rcases hasks with ⟨hsub, hpermissions, hrpId⟩ |
    ⟨hsub, permissions, hpermissions, hnonzero, hallowed, hbound⟩
  · rw [hsub]
    obtain ⟨path, protocol', secret', pinHashEnc', k, b, hhash, hcore, hk, hcheck⟩ :=
      hcommon (permissionMc ||| permissionGa) none
    refine ⟨path, protocol', secret', pinHashEnc', k, b, hhash, hcore, hk,
      (Prog.run_bind_of_ok hrun).trans <| (Prog.run_ensure_bind ?_).trans hcheck⟩
    rw [hpermissions, hrpId]
    rfl
  · rw [hsub]
    obtain ⟨path, protocol', secret', pinHashEnc', k, b, hhash, hcore, hk, hcheck⟩ :=
      hcommon permissions request.rpId
    have hvalid : (validatePermissions permissions).run a = (.ok (), a) :=
      (Prog.run_ensure_bind (s := a) hnonzero).trans (Prod.ext (if_pos hallowed) rfl)
    exact ⟨path, protocol', secret', pinHashEnc', k, b, hhash, hcore, hk,
      (Prog.run_bind_of_ok hrun).trans <|
      (Prog.run_bind_of_ok (run_required hpermissions a)).trans <|
      (Prog.run_bind_of_ok hvalid).trans <| (Prog.run_ensure_bind (s := a) hbound).trans hcheck⟩

end

/-! ## One command -/

/-- What a run adds to the marks of the log: the check that the request asks for, with its outcome;
or, if it asks for none, the PIN that setPIN stores or nothing. -/
inductive Judges (a : Auth β) (request : ClientPinRequest) (b : Auth β) : Prop
  | none (hnot : ¬a.ReachesCheck request) (h : pinMarks b.log = pinMarks a.log)
  | set (hsub : request.subCommand = 0x03) (hunset : a.storage.isPinSet = false)
      (h : pinMarks b.log = .set :: pinMarks a.log)
  | check (hreaches : a.ReachesCheck request)
      (h : pinMarks b.log = verdict (decide (a.submittedHash request = a.storedPin)) :: .begun ::
        pinMarks a.log)

/-- A quiet first part that fails ends where it started. -/
theorem Judges.quiet_bind {α α' : Type} {m : Ctap β α} {f : α → Ctap β α'} {a b : Auth β}
    {request : ClientPinRequest} (hnot : ¬a.ReachesCheck request) (hm : Keeps Quiet m)
    (hcore : b.core = a.core) (hf : ∀ x c, c.core = a.core → Judges a request ((f x).run c).2) :
    Judges a request ((m >>= f).run b).2 := by
  cases hrun : m.run b with
  | mk result c =>
      have hc : c.core = a.core := (hm.of_run hrun).trans hcore
      cases result with
      | error error =>
          rw [Prog.run_bind_of_error hrun]
          exact .none hnot (congrArg (fun c : Core β => pinMarks c.log) hc)
      | ok x =>
          rw [Prog.run_bind_of_ok hrun]
          exact hf x c hc

theorem judges_handleSetPin {request : ClientPinRequest} (hsub : request.subCommand = 0x03)
    (a : Auth β) : Judges a request ((handleSetPin request).run a).2 := by
  have hnot : ¬a.ReachesCheck request := by
    intro hreaches
    have hchecks := hreaches.checksPin
    rw [ChecksPin, hsub] at hchecks
    exact absurd hchecks (by decide)
  refine .quiet_bind hnot (quiet_validateProtocol _) rfl fun protocol a₁ h₁ => ?_
  have hmarks : ∀ {b : Auth β}, b.core = a.core → pinMarks b.log = pinMarks a.log :=
    fun h => congrArg (fun c : Core β => pinMarks c.log) h
  refine Prog.ensure_bind_elim (P := fun r => Judges a request r.2)
    (fun _ => .none hnot (hmarks h₁)) fun hunset => ?_
  rw [show a₁.storage = a.storage from congrArg Core.storage h₁] at hunset
  refine .quiet_bind hnot (quiet_required _) h₁ fun peer a₂ h₂ =>
    .quiet_bind hnot (quiet_required _) h₂ fun newPinEnc a₃ h₃ =>
    .quiet_bind hnot (quiet_required _) h₃ fun pinAuth a₄ h₄ =>
    .quiet_bind hnot (quiet_performKeyAgreement _ _) h₄ fun secret a₅ h₅ =>
    .quiet_bind hnot (quiet_verifyWith _ _ _ _) h₅ fun _ a₆ h₆ =>
    .quiet_bind hnot (quiet_decryptNewPin _ _ _) h₆ fun newPin a₇ h₇ => ?_
  cases hlen : pinLengthOk newPin with
  | true => exact .set hsub (by simpa using hunset) (hmarks h₇ ▸ marks_setPin hlen a₇)
  | false =>
      rw [setPin, Prog.bind_bind, Prog.run_ensure_bind_error (s := a₇) hlen]
      exact .none hnot (hmarks h₇)

variable [LawfulBackend β]

/-- The check of a request passes exactly for the stored hash. -/
theorem judges_of_reaches {a : Auth β} {request : ClientPinRequest}
    (h : a.ReachesCheck request) : Judges a request ((clientPinSubCommand request).run a).2 := by
  obtain ⟨path, protocol, secret, pinHashEnc, k, b, hhash, hcore, hk, hrun⟩ := h.runs
  refine .check h ?_
  have hstorage : b.storage = a.storage := congrArg Core.storage hcore
  have hcrypto : b.crypto = a.crypto := congrArg Core.crypto hcore
  have hmarks : pinMarks b.log = pinMarks a.log :=
    congrArg (fun c : Core β => pinMarks c.log) hcore
  have hstored : b.storedPin = a.storedPin := by
    rw [storedPin, hstorage]
    rfl
  have hcheck := marks_checkPinHash path protocol secret pinHashEnc (a := b)
    (hstorage ▸ h.opened.pinSet)
  rw [hcrypto, hmarks, hstored] at hcheck
  rw [hrun, hhash]
  exact (congrArg Prod.fst (Prog.rel_bind hk b)).trans hcheck

theorem judges_clientPinSubCommand (request : ClientPinRequest) (a : Auth β) :
    Judges a request ((clientPinSubCommand request).run a).2 := by
  by_cases hreaches : a.ReachesCheck request
  · exact judges_of_reaches hreaches
  by_cases hsub : ChecksPin request
  · obtain ⟨error, b, hrun, hcore⟩ := refuses_clientPin_of_not hsub hreaches
    rw [hrun]
    exact .none hreaches (congrArg (fun c : Core β => pinMarks c.log) hcore)
  unfold clientPinSubCommand
  split
  · exact .none hreaches (congrArg Prod.fst (unmarked_of_quiet quiet_handleGetRetries a))
  · exact .none hreaches
      (congrArg Prod.fst (unmarked_of_quiet (quiet_handleGetKeyAgreement request) a))
  · next hset => exact judges_handleSetPin hset a
  · next hfour => exact absurd (.inl hfour) hsub
  · next hfive => exact absurd (.inr (.inl hfive)) hsub
  · exact .none hreaches (congrArg Prod.fst (unmarked_of_moves (K := {.save uvRetriesKey, .issue})
      (by simp [pinRetriesKey, uvRetriesKey]) (by simp [pinStorageKey, uvRetriesKey]) (by simp)
      (moves_handleGetUvToken request (by simp) (by simp) a)))
  · exact .none hreaches (congrArg Prod.fst (unmarked_of_quiet quiet_handleGetUvRetries a))
  · next hnine => exact absurd (.inr (.inr hnine)) hsub
  · exact .none hreaches rfl

variable (build : Build)

/-- What a command adds to the marks of the log is what its request of ClientPIN adds, if it is
one. -/
def JudgesCommand (a : Auth β) (cmd : UInt8) (data : Bytes) : Prop :=
  if Ctap2Command.fromU8 cmd = .clientPin then
    ∀ request, ClientPinRequest.decode build.cbor data = .ok request →
      Judges a request (a.step build (.command cmd data))
  else pinMarks (a.step build (.command cmd data)).log = pinMarks a.log

/-- A check passes exactly for the stored hash, whatever the command and the state. -/
theorem judges_command {cmd : UInt8} (data : Bytes) (hcmd : Ctap2Command.fromU8 cmd ≠ .reset)
    (a : Auth β) : JudgesCommand build a cmd data := by
  unfold JudgesCommand
  split
  · next hpin =>
      intro request hdecode
      have hstep : a.step build (.command cmd data) =
          ((clientPinSubCommand request).run { a with hmacSecretSession := none }).2 := by
        show ((processCommand build cmd data).run a).2 = _
        rw [run_processCommand_of_ne build data a (by rw [hpin]; decide), hpin, dispatch,
          Prog.run_map]
        exact congrArg Prod.snd (Prog.run_bind_of_ok (Prod.ext hdecode rfl))
      rw [hstep]
      cases judges_clientPinSubCommand request { a with hmacSecretSession := none } with
      | none hnot h => exact .none (fun h => hnot (reachesCheck_session.mpr h)) h
      | set hsub hunset h => exact .set hsub hunset h
      | check hreaches h => exact .check (reachesCheck_session.mp hreaches) h
  · next hpin =>
      refine congrArg Prod.fst (unmarked_of_moves ?_ ?_ ?_ (moves_step build data hcmd a))
      all_goals
        generalize Ctap2Command.fromU8 cmd = command at hpin
        cases command with
        | clientPin => exact absurd rfl hpin
        | _ => simp [commandKinds, makeCredentialKinds, assertionKinds, configKinds, pinRetriesKey,
            pinStorageKey, cfgEpPendingKey, signCounterStorageKey, cfgAlwaysUvKey,
            cfgMakeCredUvNotRqdKey, cfgMinPinLengthKey, cfgMinPinLengthRpidsKey,
            cfgForceChangePinKey]

end Auth

end OpenKey
