import OpenKey.Ctap2.CountedAssertions
import OpenKey.Ctap2.PinPolicy
import OpenKey.Ctap2.Sample
import OpenKey.Ctap2.SignCounter

/-!
# Storage reads that fail

Every gate of the authenticator reads an entry of its own, and takes a default if it finds none. A
read that fails looks like an entry that is absent, so what a command does is compared with the
gates of the device over a medium of which no read fails (`held`).

**Fail closed (`failsClosed_iff`).** A command does no more than what is held allows (`FailsClosed`)
if and only if no failed read hides what the command asks of a gate (`Informed`). All defaults are
the permissive ones: a failed read lets setPIN overwrite a PIN (`setPin_overwrites`).

The conditions are about what a command gets to. A setPIN, a check or a verifier is refused exactly
if its request is not in order or the gate it reads is closed; what it does otherwise is followed
until it leaves a trace in the log.
-/

namespace OpenKey

set_option autoImplicit false

/-! ## Gates -/

/-- What the storage tells the gates. -/
structure Gates where
  pinSet : Bool
  pinRetries : Nat
  uvRetries : Nat
  alwaysUv : Bool
  forceChangePin : Bool
  signCounter : Nat
  deriving DecidableEq

namespace StorageEngine

/-- The gates over a storage. -/
def gates {β : Type} [StorageBackend β] (e : StorageEngine β) : Gates where
  pinSet := e.isPinSet
  pinRetries := e.readRetries
  uvRetries := e.readUvRetries
  alwaysUv := e.isAlwaysUv
  forceChangePin := e.isForceChangePin
  signCounter := e.signCounter

variable {β : Type} [StorageBackend β] [TruthfulBackend β] {e : StorageEngine β} {key : String}

theorem readDecimal_of_tells (h : e.Tells key) (bound fallback : Nat) :
    e.readDecimal key bound fallback = e.healthy.readDecimal key bound fallback := by
  unfold readDecimal
  rw [h]

omit [TruthfulBackend β] in
theorem readDecimal_of_none (h : e.value key = none) (bound fallback : Nat) :
    e.readDecimal key bound fallback = fallback := by
  unfold readDecimal
  rw [h]
  rfl

theorem readDecimal_le_iff (bound fallback : Nat) :
    e.readDecimal key bound fallback ≤ e.healthy.readDecimal key bound fallback ↔
      e.Tells key ∨ fallback ≤ e.healthy.readDecimal key bound fallback := by
  rcases e.value_or key with hnone | htells
  · rw [readDecimal_of_none hnone]
    refine ⟨.inr, fun h => h.elim (fun htells => ?_) id⟩
    rw [← readDecimal_of_tells htells, readDecimal_of_none hnone]
  · exact iff_of_true (readDecimal_of_tells htells _ _).le (.inl htells)

theorem le_readDecimal_iff (bound fallback : Nat) :
    e.healthy.readDecimal key bound fallback ≤ e.readDecimal key bound fallback ↔
      e.Tells key ∨ e.healthy.readDecimal key bound fallback ≤ fallback := by
  rcases e.value_or key with hnone | htells
  · rw [readDecimal_of_none hnone]
    refine ⟨.inr, fun h => h.elim (fun htells => ?_) id⟩
    rw [← readDecimal_of_tells htells, readDecimal_of_none hnone]
  · exact iff_of_true (readDecimal_of_tells htells _ _).ge (.inl htells)

end StorageEngine

namespace Auth

open Prog (Keeps bind_eq_ok check_eq_ok ensure_eq_ok)

variable {β : Type} [StorageBackend β] (build : Build)

/-! ## Refusals -/

/-- A command fails, and leaves everything that counts as it was. -/
def RefusesCommand (a : Auth β) (cmd : UInt8) (data : Bytes) : Prop :=
  (∃ error, (a.exchange build cmd data).result = .error error) ∧
    (a.step build (.command cmd data)).core = a.core

section ClientPin

variable {a : Auth β} {cmd : UInt8} {data : Bytes} {request : ClientPinRequest}

theorem step_clientPin
    (hrequest : clientPinRequest build (.input (.command cmd data)) = some request) :
    a.step build (.command cmd data) =
      ((clientPinSubCommand request).run { a with hmacSecretSession := none }).2 := by
  show ((processCommand build cmd data).run a).2 = _
  rw [run_clientPin build hrequest, Prog.run_map]

theorem refusesCommand_iff
    (hrequest : clientPinRequest build (.input (.command cmd data)) = some request) :
    RefusesCommand build a cmd data ↔
      Refuses (clientPinSubCommand request) { a with hmacSecretSession := none } := by
  have hresult : (a.exchange build cmd data).result = ((clientPinSubCommand request).run
      { a with hmacSecretSession := none }).1.map CtapResponse.clientPin := by
    show ((processCommand build cmd data).run a).1 = _
    rw [run_clientPin build hrequest, Prog.run_map]
  rw [RefusesCommand, hresult, step_clientPin build hrequest]
  constructor
  · rintro ⟨⟨error, herror⟩, hcore⟩
    cases hrun : (clientPinSubCommand request).run { a with hmacSecretSession := none } with
    | mk result b =>
        rw [hrun] at herror hcore
        cases result with
        | error error => exact ⟨error, b, hrun, hcore⟩
        | ok r => cases herror
  · rintro ⟨error, b, hrun, hcore⟩
    rw [hrun]
    exact ⟨⟨error, rfl⟩, hcore⟩

omit [StorageBackend β] in
/-- What refuses leaves the log as it was. -/
theorem Refuses.log {α : Type} {m : Ctap β α} (h : Refuses m a) : (m.run a).2.log = a.log := by
  obtain ⟨error, b, hrun, hcore⟩ := h
  rw [hrun]
  exact congrArg Core.log hcore

/-! ## setPIN -/

/-- A request of setPIN in order: it is signed under the secret it agrees on, and the PIN in it may
be set. -/
def AsksForPin (a : Auth β) (request : ClientPinRequest) : Prop :=
  request.subCommand = 0x03 ∧ ∃ protocol secret newPinEnc pinAuth newPin,
    (∃ n, request.pinProtocol = some n ∧ PinUvProtocol.new n = some protocol) ∧
    (∃ peerCose, request.keyAgreement = some peerCose ∧
      a.agreedSecret protocol peerCose = some secret) ∧
    request.newPinEnc = some newPinEnc ∧ request.pinAuth = some pinAuth ∧
    protocol.verify a.crypto.prims secret newPinEnc pinAuth = .ok true ∧
    ((decryptNewPin protocol secret newPinEnc).run a).1 = .ok newPin

omit [StorageBackend β] in
theorem pinLengthOk_of_decrypt {protocol : PinUvProtocol} {secret newPinEnc newPin : Bytes}
    (h : ((decryptNewPin protocol secret newPinEnc).run a).1 = .ok newPin) :
    pinLengthOk newPin = true := by
  unfold decryptNewPin at h
  rw [Prog.run_check] at h
  dsimp only at h
  split at h
  · cases h
  · split at h
    · cases h
    · split at h
      · cases h
      · split at h
        · next hlen =>
            cases h
            exact hlen
        · cases h

/-- setPIN is refused exactly unless it is in order and no PIN is read. -/
theorem refuses_setPin_iff (hsub : request.subCommand = 0x03) :
    Refuses (clientPinSubCommand request) a ↔
      (a.AsksForPin request → a.storage.isPinSet = true) := by
  unfold clientPinSubCommand
  rw [hsub]
  show Refuses (handleSetPin request) a ↔ _
  constructor
  · rintro hrefuses ⟨-, protocol, secret, newPinEnc, pinAuth, newPin, ⟨n, hversion, hprotocol⟩,
      ⟨peerCose, hpeer, hagreed⟩, hnew, hauth, hverify, hdecrypt⟩
    by_contra hunset
    obtain ⟨b, hsecret, hcore⟩ := run_performKeyAgreement hagreed
    have hcrypto : b.crypto = a.crypto := congrArg Core.crypto hcore
    have hlog : b.log = a.log := congrArg Core.log hcore
    have hsigned : (verifyWith protocol secret newPinEnc pinAuth).run b = (.ok (), b) := by
      rw [verifyWith, Prog.run_check, hcrypto, hverify]
    have hpin : (decryptNewPin protocol secret newPinEnc).run b = (.ok newPin, b) := by
      rw [decryptNewPin, Prog.run_check, hcrypto]
      exact Prod.ext hdecrypt rfl
    have hrun : (handleSetPin request).run a =
        (setPin newPin >>= fun _ => pure ClientPinResponse.default).run b :=
      (Prog.run_bind_of_ok (run_validateProtocol hversion hprotocol a)).trans <|
        (Prog.run_ensure_bind (s := a) (by simpa using hunset)).trans <|
        (Prog.run_bind_of_ok (run_required hpeer a)).trans <|
        (Prog.run_bind_of_ok (run_required hnew a)).trans <|
        (Prog.run_bind_of_ok (run_required hauth a)).trans <|
        (Prog.run_bind_of_ok hsecret).trans <| (Prog.run_bind_of_ok hsigned).trans <|
        Prog.run_bind_of_ok hpin
    have hmarks := marks_setPin (pinLengthOk_of_decrypt hdecrypt) b
    rw [← hrun, hrefuses.log, hlog] at hmarks
    exact absurd (congrArg List.length hmarks) (by simp)
  · intro hseen
    exact .protocol_bind fun protocol hprotocol => .ensure_bind fun hunset =>
      .required_bind fun peer hpeer => .required_bind fun newPinEnc hnew =>
      .required_bind fun pinAuth hauth => .run_bind (quiet_performKeyAgreement _ _)
        fun secret b hsecret => by
          obtain ⟨hagreed, hcrypto⟩ := performKeyAgreement_ok hsecret
          refine .run_bind (quiet_verifyWith _ _ _ _) fun _ c hrun => ?_
          obtain ⟨hverify, rfl⟩ := check_eq_ok.mp hrun
          refine .run_bind (quiet_decryptNewPin _ _ _) fun newPin c hrun => ?_
          obtain ⟨hdecrypt, rfl⟩ := check_eq_ok.mp hrun
          have hset := hseen ⟨hsub, protocol, secret, newPinEnc, pinAuth, newPin, hprotocol,
            ⟨peer, hpeer, hagreed⟩, hnew, hauth, ?_, ?_⟩
          · rw [hset] at hunset
            cases hunset
          · rw [hcrypto] at hverify
            split at hverify
            · assumption
            · cases hverify
          · rw [hcrypto] at hdecrypt
            exact hdecrypt

/-! ## PIN checks -/

/-- What follows the first step of a check takes no retry. -/
theorem takenRetries_checkPinHash [TruthfulBackend β] (path : PinPath) (protocol : PinUvProtocol)
    (secret pinHashEnc : Bytes) (b : Auth β) :
    takenRetries ((checkPinHash path protocol secret pinHashEnc).run b).2.log =
      StorageEngine.afterStore pinRetriesKey (utf8 (toString (b.storage.readRetries - 1)))
        b.storage :: takenRetries b.log := by
  have htake : (decrementPinRetries .checkBegun).run b = (.ok (), afterWrite .checkBegun
      pinRetriesKey (utf8 (toString (b.storage.readRetries - 1))) b) := by
    rw [decrementPinRetries, Prog.run_read_bind]
    exact run_persistIgnored_write .checkBegun pinRetriesKey (utf8 (toString _)) b
  have hfail : Keeps (.constant fun c : Auth β => takenRetries c.log) (failPin : Ctap β Unit) :=
    Keeps.bind (.update fun _ => rfl) fun _ => .check _
  have hcompare : ∀ hash, Keeps (.constant fun c : Auth β => takenRetries c.log)
      (comparePinHash path hash : Ctap β (Option Bool)) := by
    intro hash
    refine .act fun c => ?_
    split
    · rfl
    · rfl
  have hpass : Keeps (.constant fun c : Auth β => takenRetries c.log)
      (resetPinRetries .checkPassed : Ctap β Unit) := fun _ => rfl
  rw [checkPinHash, Prog.run_bind_of_ok htake, Prog.run_read_bind]
  split
  · exact hfail _
  · exact (hcompare _).bind (fun matched => .ite (fun _ => hpass) fun _ => hfail) _

/-- A check that is reached takes one retry off those that are read. -/
theorem takenRetries_of_reaches [TruthfulBackend β] (h : a.ReachesCheck request) :
    takenRetries ((clientPinSubCommand request).run a).2.log =
      StorageEngine.afterStore pinRetriesKey (utf8 (toString (a.storage.readRetries - 1)))
        a.storage :: takenRetries a.log := by
  obtain ⟨path, protocol, secret, pinHashEnc, k, b, -, hcore, hk, hrun⟩ := h.runs
  have hstorage : b.storage = a.storage := congrArg Core.storage hcore
  have hlog : b.log = a.log := congrArg Core.log hcore
  rw [hrun]
  have htaken := takenRetries_checkPinHash path protocol secret pinHashEnc b
  rw [hstorage, hlog] at htaken
  exact (congrArg Prod.snd (Prog.rel_bind hk b)).trans htaken

/-- A check is refused exactly unless it is reached. -/
theorem refuses_check_iff [TruthfulBackend β] (hsub : ChecksPin request) :
    Refuses (clientPinSubCommand request) a ↔ ¬a.ReachesCheck request := by
  refine ⟨fun hrefuses hreaches => ?_, refuses_clientPin_of_not hsub⟩
  have htaken := takenRetries_of_reaches hreaches
  rw [hrefuses.log] at htaken
  exact absurd (congrArg List.length htaken) (by simp)

/-! ## The built-in verifier -/

/-- A request of getPinUvAuthTokenUsingUvWithPermissions that asks the built-in verifier. -/
def ReachesVerifier (a : Auth β) (request : ClientPinRequest) : Prop :=
  request.subCommand = 0x06 ∧
    (∃ n protocol, request.pinProtocol = some n ∧ PinUvProtocol.new n = some protocol) ∧
    (∃ permissions, request.permissions = some permissions ∧ (permissions != 0) = true ∧
      (permissionOptions.all fun need =>
        permissions &&& need.1 == 0 || a.capabilities.options.contains need.2) = true) ∧
    a.hasBuiltinUv = true ∧ a.storage.readUvRetries ≠ 0

/-- The built-in verifier would recognise the user. -/
def Recognised (a : Auth β) : Prop := a.userVerification.map (· 0) = some (.ok ())

theorem refuses_uvToken_of_not (hsub : request.subCommand = 0x06)
    (h : ¬a.ReachesVerifier request) : Refuses (clientPinSubCommand request) a := by
  unfold clientPinSubCommand
  rw [hsub]
  refine .protocol_bind fun protocol ⟨n, hversion, hprotocol⟩ =>
    .required_bind fun permissions hpermissions => .permissions_bind fun hnonzero hallowed => ?_
  unfold performBuiltinUv
  rw [Prog.bind_bind]
  refine .ensure_bind fun hbuiltin => ?_
  rw [Prog.bind_bind]
  refine .ensure_bind fun hleft => absurd ⟨hsub, ⟨n, protocol, hversion, hprotocol⟩,
    ⟨permissions, hpermissions, hnonzero, hallowed⟩, hbuiltin, ?_⟩ h
  simpa using hleft

/-- The moves that do not shorten the log. -/
def Logging : Prog.Frame (Auth β) where
  rel a b := a.log.length ≤ b.log.length
  refl _ := le_rfl
  trans h₁ h₂ := h₁.trans h₂

omit [StorageBackend β] in
theorem logging_of_quiet {α : Type} {m : Ctap β α} (h : Keeps Quiet m) : Keeps Logging m :=
  h.mono fun _ _ hcore => (congrArg (fun c : Core β => c.log.length) hcore).ge

/-- The state after the verifier is asked and its counter is stored. -/
def afterAsking (a : Auth β) (answers : Nat → Except Ctap2Error Unit) (retries : Nat) : Auth β :=
  afterWrite .ordinary uvRetriesKey (utf8 (toString retries))
    { a with userVerification := some fun n => answers (n + 1) }

/-- The built-in verifier is asked once; it gives its retries back, or takes one. -/
theorem run_performBuiltinUv [TruthfulBackend β] {answers : Nat → Except Ctap2Error Unit}
    (hanswers : a.userVerification = some answers) (hbuiltin : a.hasBuiltinUv = true)
    (hleft : a.storage.readUvRetries ≠ 0) :
    (answers 0 = .ok () →
        performBuiltinUv.run a = (.ok (), a.afterAsking answers pinMaxRetries)) ∧
      ∀ error, answers 0 = .error error → performBuiltinUv.run a =
        (.error error, a.afterAsking answers (a.storage.readUvRetries - 1)) := by
  let b : Auth β := { a with userVerification := some fun n => answers (n + 1) }
  have hask : askVerifier.run a = (.ok (answers 0), b) := by
    rw [askVerifier, Prog.run_act, hanswers]
  have hwrite : ∀ n, (persistIgnored .ordinary (storeDecimal uvRetriesKey n)).run b =
      (.ok (), a.afterAsking answers n) := fun n =>
    run_persistIgnored_write .ordinary uvRetriesKey (utf8 (toString n)) b
  rw [performBuiltinUv, Prog.run_ensure_bind (s := a) hbuiltin,
    Prog.run_ensure_bind (s := a) (by simpa using hleft), Prog.run_bind_of_ok hask]
  constructor
  · intro hok
    rw [hok]
    exact hwrite _
  · intro error herror
    rw [herror]
    show (Prog.read _ >>= _).run b = _
    rw [Prog.run_read_bind, Prog.run_bind_of_ok (hwrite _)]
    rfl

omit [StorageBackend β] in
theorem logging_issuePinUvAuthToken (protocol : PinUvProtocol) (secret : Bytes)
    (permissions : UInt8) (rpId : Option String) :
    Keeps Logging (issuePinUvAuthToken protocol secret permissions rpId : Ctap β Bytes) :=
  (logging_of_quiet (quiet_randomBytes _)).bind fun _ =>
    (logging_of_quiet (quiet_encryptWith _ _ _)).bind fun _ =>
      Keeps.bind (.update fun _ => Nat.le_succ _) fun _ => .pure _

/-- The verifier that is asked leaves a trace, and takes a retry if it does not recognise the
user. -/
theorem asked_of_reaches [TruthfulBackend β] (h : a.ReachesVerifier request) :
    a.log.length < ((clientPinSubCommand request).run a).2.log.length ∧
      (¬a.Recognised → ((clientPinSubCommand request).run a).2.storage.healthy.readUvRetries =
        a.storage.readUvRetries - 1) := by
  obtain ⟨hsub, ⟨n, protocol, hversion, hprotocol⟩, ⟨permissions, hpermissions, hnonzero, hallowed⟩,
    hbuiltin, hleft⟩ := h
  obtain ⟨answers, hanswers⟩ := Option.isSome_iff_exists.mp (Bool.and_eq_true_iff.mp hbuiltin).2
  obtain ⟨hok, herror⟩ := run_performBuiltinUv hanswers hbuiltin hleft
  have hvalid : (validatePermissions permissions).run a = (.ok (), a) :=
    (Prog.run_ensure_bind (s := a) hnonzero).trans (Prod.ext (if_pos hallowed) rfl)
  unfold clientPinSubCommand
  rw [hsub]
  show a.log.length < ((handleGetUvToken request).run a).2.log.length ∧ (_ →
    ((handleGetUvToken request).run a).2.storage.healthy.readUvRetries = _)
  rw [handleGetUvToken, Prog.run_bind_of_ok (run_validateProtocol hversion hprotocol a),
    Prog.run_bind_of_ok (run_required hpermissions a), Prog.run_bind_of_ok hvalid]
  cases hanswer : answers 0 with
  | ok =>
      refine ⟨?_, fun hnot => absurd (by rw [Recognised, hanswers, ← hanswer]; rfl) hnot⟩
      rw [Prog.run_bind_of_ok (hok hanswer)]
      have hrest : Keeps Logging (do
          requireRpId permissions request.rpId
          let peerCose ← required request.keyAgreement
          let secret ← performKeyAgreement protocol peerCose
          let tokenEnc ← issuePinUvAuthToken protocol secret permissions request.rpId
          pure { ClientPinResponse.default with pinUvAuthToken := some tokenEnc } :
            Ctap β ClientPinResponse) :=
        (logging_of_quiet (quiet_requireRpId _ _)).bind fun _ =>
          (logging_of_quiet (quiet_required _)).bind fun _ =>
          (logging_of_quiet (quiet_performKeyAgreement _ _)).bind fun _ =>
          (logging_issuePinUvAuthToken _ _ _ _).bind fun _ => .pure _
      exact Nat.lt_of_succ_le (hrest (a.afterAsking answers pinMaxRetries))
  | error error =>
      rw [Prog.run_bind_of_error (herror error hanswer)]
      have hbyte : a.storage.readUvRetries < 256 :=
        readDecimal_lt a.storage uvRetriesKey (by decide)
      have hless : a.storage.readUvRetries - 1 < 256 := Nat.lt_of_le_of_lt (Nat.sub_le _ _) hbyte
      exact ⟨Nat.lt_succ_self _, fun _ => healthy_afterWrite hless _ _⟩

end ClientPin

/-! ## Answers -/

/-- An assertion carries the value after the one that is read, and its flags. -/
theorem signCounted_data {credential : Credential} {rpIdHash clientDataHash : Bytes}
    {flags : UInt8} {a b : Auth β} {r : Assertion}
    (h : (signCounted build credential rpIdHash flags clientDataHash).run a = (.ok r, b)) :
    a.storage.signCounter + 1 < 2 ^ 32 ∧
      r.authData = authDataHeader rpIdHash flags (a.storage.signCounter + 1) := by
  obtain ⟨n, a₁, hcount, h⟩ := bind_eq_ok.mp h
  unfold nextSignCount at hcount
  rw [Prog.run_read_bind] at hcount
  obtain ⟨_, a₂, hroom, hcount⟩ := bind_eq_ok.mp hcount
  obtain ⟨hlt, rfl⟩ := ensure_eq_ok.mp hroom
  obtain ⟨_, a₃, -, hcount⟩ := bind_eq_ok.mp hcount
  cases hcount
  obtain ⟨_, a₄, -, h⟩ := bind_eq_ok.mp h
  obtain ⟨signature, a₅, -, h⟩ := bind_eq_ok.mp h
  cases h
  exact ⟨of_decide_eq_true hlt, rfl⟩

/-- The counter in an answer is the one after the counter that is read. -/
theorem signCount_of_assertion {a : Auth β} {cmd : UInt8} {data : Bytes} {r : GetAssertionResponse}
    (h : (a.exchange build cmd data).assertion = some r) :
    signCountField r.authData = a.storage.signCounter + 1 := by
  rcases assertion_cases build h with
    ⟨-, request, verified, credential, -, hasserted⟩ | ⟨-, state, credential, hnext⟩
  · obtain ⟨a₁, a₂, assertion, hcore, hsigned, hdata, -⟩ := hasserted.signed
    obtain ⟨hlt, hheader⟩ := signCounted_data build hsigned
    have hstorage : a₁.storage = a.storage := storage_of_core hcore
    rw [hdata, hheader, signCountField_header _ (length_hashRpId _ _) hlt, hstorage]
  · obtain ⟨a₁, assertion, hcore, hsigned, hdata⟩ := hnext.signed
    obtain ⟨hlt, hheader⟩ := signCounted_data build hsigned
    have hstorage : a₁.storage = a.storage := congrArg Core.storage hcore
    rw [hdata, hheader, signCountField_header _ (CryptoEngine.length_sha256 _ _) hlt, hstorage]

/-! ## Fail closed -/

section

variable [TruthfulBackend β]

/-- The gates of the device whose reads do not fail. -/
def held (a : Auth β) : Gates := a.storage.healthy.gates

/-- Whatever reads fail, a command does no more than what the medium holds allows. -/
structure FailsClosed (a : Auth β) (cmd : UInt8) (data : Bytes) : Prop where
  /-- setPIN does not overwrite a PIN. -/
  keepsPin : ∀ request, clientPinRequest build (.input (.command cmd data)) = some request →
    request.subCommand = 0x03 → a.held.pinSet = true → RefusesCommand build a cmd data
  /-- A check of a PIN leaves fewer retries than there were. -/
  takesRetry : ∀ request, clientPinRequest build (.input (.command cmd data)) = some request →
    ChecksPin request → RefusesCommand build a cmd data ∨
      ∃ e, takenRetries (a.step build (.command cmd data)).log = e :: takenRetries a.log ∧
        e.healthy.readRetries < a.held.pinRetries
  /-- No more retries are announced than there are. -/
  showsRetries : ∀ request, clientPinRequest build (.input (.command cmd data)) = some request →
    request.subCommand = 0x01 → ∀ r n, (a.exchange build cmd data).result = .ok (.clientPin r) →
      r.retries = some n → n ≤ a.held.pinRetries
  /-- No more retries of the built-in verifier are announced than there are. -/
  showsUvRetries : ∀ request, clientPinRequest build (.input (.command cmd data)) = some request →
    request.subCommand = 0x07 → ∀ r n, (a.exchange build cmd data).result = .ok (.clientPin r) →
      r.uvRetries = some n → n ≤ a.held.uvRetries
  /-- The built-in verifier is asked only with a retry left, which it takes unless it recognises the
  user. -/
  takesUvRetry : ∀ request, clientPinRequest build (.input (.command cmd data)) = some request →
    request.subCommand = 0x06 → RefusesCommand build a cmd data ∨
      (0 < a.held.uvRetries ∧ (¬a.Recognised →
        (a.step build (.command cmd data)).held.uvRetries < a.held.uvRetries))
  /-- No token is granted for a PIN that must be changed. -/
  grantsNothing : ∀ request, clientPinRequest build (.input (.command cmd data)) = some request →
    request.subCommand = 0x05 ∨ request.subCommand = 0x09 → a.held.forceChangePin = true →
      RefusesCommand build a cmd data
  /-- A new credential is refused where the PIN or alwaysUv demands more than the request brings. -/
  creates : ∀ request verified, Ctap2Command.fromU8 cmd = .makeCredential →
    build.cbor.decodeMakeCredential data = .ok request →
    verifyPinUvAuthForOperation a request.pinProtocol request.pinUvAuthParam
      request.clientDataHash permissionMc (some request.rp.id) = .ok verified →
    a.storage.healthy.demands request.options.uv verified = true →
      (a.exchange build cmd data).result = .error .pinRequired
  /-- So is an assertion. -/
  asserts : ∀ request verified, Ctap2Command.fromU8 cmd = .getAssertion →
    build.cbor.decodeGetAssertion data = .ok request →
    verifyPinUvAuthForOperation a request.pinProtocol request.pinUvAuthParam
      request.clientDataHash permissionGa (some request.rpId) = .ok verified →
    a.storage.healthy.demands request.options.uv verified = true →
      (a.exchange build cmd data).result = .error .pinRequired
  /-- The signature counter on the medium goes up with every assertion that writes. -/
  countsUp : Ctap2Command.fromU8 cmd = .getAssertion ∨
      Ctap2Command.fromU8 cmd = .getNextAssertion →
    (a.step build (.command cmd data)).log = a.log ∨
      a.held.signCounter < (a.step build (.command cmd data)).held.signCounter
  /-- An answer carries a counter that has not been used. -/
  answersUp : ∀ r, (a.exchange build cmd data).assertion = some r →
    a.held.signCounter < signCountField r.authData

/-- Where the command asks a gate, no failed read hides what would close it. -/
structure Informed (a : Auth β) (cmd : UInt8) (data : Bytes) : Prop where
  /-- A setPIN in order finds the PIN that is held. -/
  setPin : ∀ request, clientPinRequest build (.input (.command cmd data)) = some request →
    a.AsksForPin request → a.held.pinSet = true → a.storage.isPinSet = true
  /-- A check that is reached finds the retries, or finds them full. -/
  check : ∀ request, clientPinRequest build (.input (.command cmd data)) = some request →
    a.ReachesCheck request → a.storage.Tells pinRetriesKey ∨ pinMaxRetries ≤ a.held.pinRetries
  /-- So does getPINRetries. -/
  retries : ∀ request, clientPinRequest build (.input (.command cmd data)) = some request →
    request.subCommand = 0x01 → a.storage.Tells pinRetriesKey ∨ pinMaxRetries ≤ a.held.pinRetries
  /-- And getUVRetries, on a device with a built-in verifier. -/
  uvRetries : ∀ request, clientPinRequest build (.input (.command cmd data)) = some request →
    request.subCommand = 0x07 → a.hasBuiltinUv = true →
      a.storage.Tells uvRetriesKey ∨ pinMaxRetries ≤ a.held.uvRetries
  /-- A verifier that is asked has a retry, and finds how many unless it recognises the user. -/
  verifier : ∀ request, clientPinRequest build (.input (.command cmd data)) = some request →
    a.ReachesVerifier request → 0 < a.held.uvRetries ∧ (¬a.Recognised →
      a.storage.Tells uvRetriesKey ∨ pinMaxRetries ≤ a.held.uvRetries)
  /-- A check for a token is not reached with a PIN that must be changed. -/
  token : ∀ request, clientPinRequest build (.input (.command cmd data)) = some request →
    request.subCommand = 0x05 ∨ request.subCommand = 0x09 → a.ReachesCheck request →
      a.held.forceChangePin = false
  /-- The settings that are read demand what those that are held demand of a new credential. -/
  makeCredential : ∀ request verified, Ctap2Command.fromU8 cmd = .makeCredential →
    build.cbor.decodeMakeCredential data = .ok request →
    verifyPinUvAuthForOperation a request.pinProtocol request.pinUvAuthParam
      request.clientDataHash permissionMc (some request.rp.id) = .ok verified →
    a.storage.healthy.demands request.options.uv verified = true →
      a.storage.demands request.options.uv verified = true
  /-- And of an assertion. -/
  getAssertion : ∀ request verified, Ctap2Command.fromU8 cmd = .getAssertion →
    build.cbor.decodeGetAssertion data = .ok request →
    verifyPinUvAuthForOperation a request.pinProtocol request.pinUvAuthParam
      request.clientDataHash permissionGa (some request.rpId) = .ok verified →
    a.storage.healthy.demands request.options.uv verified = true →
      a.storage.demands request.options.uv verified = true
  /-- An assertion that reaches the counter finds it, or finds it unused. -/
  counter : ReachesCount build a cmd data →
    a.storage.Tells signCounterStorageKey ∨ a.held.signCounter = 0

/-! ### One field after the other -/

theorem map_pinRequired_iff {α α' : Type} {f : α → α'} {x : Except Ctap2Error α} :
    x.map f = .error .pinRequired ↔ x = .error .pinRequired := by
  cases x with
  | error error =>
      constructor
      · exact fun h => congrArg _ (Except.error.inj h)
      · exact fun h => congrArg _ (Except.error.inj h)
  | ok r =>
      constructor
      · rintro ⟨⟩
      · rintro ⟨⟩

theorem exists_verdict_iff {verdict : Except Ctap2Error Bool} {verified : Bool}
    {P : Bool → Prop} (h : verdict = .ok verified) :
    (∃ v, verdict = .ok v ∧ P v) ↔ P verified := by
  subst h
  simp

variable {a : Auth β} {cmd : UInt8} {data : Bytes} {request : ClientPinRequest}

theorem keepsPin_iff
    (hrequest : clientPinRequest build (.input (.command cmd data)) = some request) :
    (request.subCommand = 0x03 → a.held.pinSet = true → RefusesCommand build a cmd data) ↔
      (a.AsksForPin request → a.held.pinSet = true → a.storage.isPinSet = true) := by
  have hrefuses : request.subCommand = 0x03 → (RefusesCommand build a cmd data ↔
      (a.AsksForPin request → a.storage.isPinSet = true)) := fun hsub =>
    (refusesCommand_iff build hrequest).trans (refuses_setPin_iff hsub)
  constructor
  · intro h hasks hset
    exact (hrefuses hasks.1).mp (h hasks.1 hset) hasks
  · intro h hsub hset
    exact (hrefuses hsub).mpr fun hasks => h hasks hset

omit [TruthfulBackend β] in
/-- A token is asked for with a PIN that need not be changed. -/
theorem ReachesCheck.free {a : Auth β} {request : ClientPinRequest} (h : a.ReachesCheck request)
    (hsub : request.subCommand ≠ 0x04) : a.storage.isForceChangePin = false := by
  obtain ⟨protocol, secret, pinHashEnc, -, hasks | ⟨hfree, -⟩⟩ := h.submits
  · exact absurd hasks.1 hsub
  · exact hfree

theorem refusesCommand_check_iff
    (hrequest : clientPinRequest build (.input (.command cmd data)) = some request)
    (hsub : ChecksPin request) :
    RefusesCommand build a cmd data ↔ ¬a.ReachesCheck request := by
  rw [refusesCommand_iff build hrequest, refuses_check_iff hsub, reachesCheck_session]

theorem takesRetry_iff
    (hrequest : clientPinRequest build (.input (.command cmd data)) = some request) :
    (ChecksPin request → RefusesCommand build a cmd data ∨
        ∃ e, takenRetries (a.step build (.command cmd data)).log = e :: takenRetries a.log ∧
          e.healthy.readRetries < a.held.pinRetries) ↔
      (a.ReachesCheck request →
        a.storage.Tells pinRetriesKey ∨ pinMaxRetries ≤ a.held.pinRetries) := by
  have htaken : a.ReachesCheck request → takenRetries (a.step build (.command cmd data)).log =
      StorageEngine.afterStore pinRetriesKey (utf8 (toString (a.storage.readRetries - 1)))
        a.storage :: takenRetries a.log := fun hreaches => by
    rw [step_clientPin build hrequest]
    exact takenRetries_of_reaches (reachesCheck_session.mpr hreaches)
  have hleft : (StorageEngine.afterStore pinRetriesKey
      (utf8 (toString (a.storage.readRetries - 1))) a.storage).healthy.readRetries =
      a.storage.readRetries - 1 := by
    have hbyte : a.storage.readRetries < 256 := readRetries_lt a.storage
    rw [StorageEngine.healthy_afterStore]
    exact readDecimal_saved (StorageEngine.saved_store pinRetriesKey _ a.storage.healthy)
      (Nat.lt_of_le_of_lt (Nat.sub_le _ _) hbyte) pinMaxRetries
  have hseen : a.storage.readRetries ≤ a.held.pinRetries ↔
      a.storage.Tells pinRetriesKey ∨ pinMaxRetries ≤ a.held.pinRetries :=
    StorageEngine.readDecimal_le_iff _ _
  constructor
  · intro h hreaches
    have hsub := hreaches.checksPin
    rcases h hsub with hrefuses | ⟨e, hlog, hless⟩
    · exact absurd hreaches ((refusesCommand_check_iff build hrequest hsub).mp hrefuses)
    · rw [htaken hreaches] at hlog
      obtain ⟨rfl, -⟩ := List.cons.inj hlog
      rw [hleft] at hless
      have hpositive := hreaches.opened.retryLeft
      exact hseen.mp (by omega)
  · intro h hsub
    by_cases hreaches : a.ReachesCheck request
    · refine .inr ⟨_, htaken hreaches, ?_⟩
      have hle := hseen.mpr (h hreaches)
      have hpositive := hreaches.opened.retryLeft
      rw [hleft]
      omega
    · exact .inl ((refusesCommand_check_iff build hrequest hsub).mpr hreaches)

theorem takesUvRetry_iff
    (hrequest : clientPinRequest build (.input (.command cmd data)) = some request) :
    (request.subCommand = 0x06 → RefusesCommand build a cmd data ∨
        (0 < a.held.uvRetries ∧ (¬a.Recognised →
          (a.step build (.command cmd data)).held.uvRetries < a.held.uvRetries))) ↔
      (a.ReachesVerifier request → 0 < a.held.uvRetries ∧ (¬a.Recognised →
        a.storage.Tells uvRetriesKey ∨ pinMaxRetries ≤ a.held.uvRetries)) := by
  have hseen : a.storage.readUvRetries ≤ a.held.uvRetries ↔
      a.storage.Tells uvRetriesKey ∨ pinMaxRetries ≤ a.held.uvRetries :=
    StorageEngine.readDecimal_le_iff _ _
  have hasked : a.ReachesVerifier request →
      a.log.length < (a.step build (.command cmd data)).log.length ∧ (¬a.Recognised →
        (a.step build (.command cmd data)).held.uvRetries = a.storage.readUvRetries - 1) := by
    intro hreaches
    rw [step_clientPin build hrequest]
    exact asked_of_reaches (a := { a with hmacSecretSession := none }) hreaches
  constructor
  · intro h hreaches
    obtain ⟨hlog, htakes⟩ := hasked hreaches
    have hpositive : a.storage.readUvRetries ≠ 0 := hreaches.2.2.2.2
    rcases h hreaches.1 with hrefuses | ⟨hheld, hless⟩
    · rw [show (a.step build (.command cmd data)).log = a.log from
        congrArg Core.log hrefuses.2] at hlog
      exact absurd hlog (Nat.lt_irrefl _)
    · refine ⟨hheld, fun hnot => hseen.mp ?_⟩
      have hafter := hless hnot
      rw [htakes hnot] at hafter
      omega
  · intro h hsub
    by_cases hreaches : a.ReachesVerifier request
    · obtain ⟨hheld, htells⟩ := h hreaches
      refine .inr ⟨hheld, fun hnot => ?_⟩
      have hle := hseen.mpr (htells hnot)
      have hpositive : a.storage.readUvRetries ≠ 0 := hreaches.2.2.2.2
      rw [(hasked hreaches).2 hnot]
      omega
    · exact .inl ((refusesCommand_iff build hrequest).mpr (refuses_uvToken_of_not hsub hreaches))

theorem showsRetries_iff
    (hrequest : clientPinRequest build (.input (.command cmd data)) = some request) :
    (request.subCommand = 0x01 → ∀ r n, (a.exchange build cmd data).result = .ok (.clientPin r) →
        r.retries = some n → n ≤ a.held.pinRetries) ↔
      (request.subCommand = 0x01 →
        a.storage.Tells pinRetriesKey ∨ pinMaxRetries ≤ a.held.pinRetries) := by
  have hseen : a.storage.readRetries ≤ a.held.pinRetries ↔
      a.storage.Tells pinRetriesKey ∨ pinMaxRetries ≤ a.held.pinRetries :=
    StorageEngine.readDecimal_le_iff _ _
  refine imp_congr_right fun hsub => Iff.trans ?_ hseen
  have hresult : (a.exchange build cmd data).result = .ok (.clientPin
      { ClientPinResponse.default with
        retries := some a.storage.readRetries
        powerCycleState := if a.isPinAuthBlocked then some true else none }) := by
    show ((processCommand build cmd data).run a).1 = _
    rw [run_clientPin build hrequest, Prog.run_map]
    unfold clientPinSubCommand
    rw [hsub]
    rfl
  rw [hresult]
  constructor
  · intro h
    exact h _ _ rfl rfl
  · rintro hle r n ⟨⟩ ⟨⟩
    exact hle

omit [TruthfulBackend β] in
theorem run_handleGetUvRetries (a : Auth β) : (handleGetUvRetries.run a).1 =
    if a.hasBuiltinUv then .ok
      { ClientPinResponse.default with uvRetries := some a.storage.readUvRetries }
    else .error .unsupportedOption := by
  unfold handleGetUvRetries
  cases h : a.hasBuiltinUv with
  | true =>
      rw [Prog.run_ensure_bind h]
      rfl
  | false =>
      rw [Prog.run_ensure_bind_error h]
      rfl

theorem showsUvRetries_iff
    (hrequest : clientPinRequest build (.input (.command cmd data)) = some request) :
    (request.subCommand = 0x07 → ∀ r n, (a.exchange build cmd data).result = .ok (.clientPin r) →
        r.uvRetries = some n → n ≤ a.held.uvRetries) ↔
      (request.subCommand = 0x07 → a.hasBuiltinUv = true →
        a.storage.Tells uvRetriesKey ∨ pinMaxRetries ≤ a.held.uvRetries) := by
  have hseen : a.storage.readUvRetries ≤ a.held.uvRetries ↔
      a.storage.Tells uvRetriesKey ∨ pinMaxRetries ≤ a.held.uvRetries :=
    StorageEngine.readDecimal_le_iff _ _
  refine imp_congr_right fun hsub => ?_
  have hresult : (a.exchange build cmd data).result =
      if a.hasBuiltinUv then .ok (.clientPin
        { ClientPinResponse.default with uvRetries := some a.storage.readUvRetries })
      else .error .unsupportedOption := by
    show ((processCommand build cmd data).run a).1 = _
    rw [run_clientPin build hrequest, Prog.run_map]
    unfold clientPinSubCommand
    rw [hsub]
    show ((handleGetUvRetries.run { a with hmacSecretSession := none }).1.map _) = _
    rw [run_handleGetUvRetries]
    show Except.map _ (if a.hasBuiltinUv then _ else _) = _
    cases a.hasBuiltinUv with
    | true => rfl
    | false => rfl
  rw [hresult, ← hseen]
  cases a.hasBuiltinUv with
  | false => exact iff_of_true (by rintro r n ⟨⟩) (by rintro ⟨⟩)
  | true =>
      constructor
      · intro h _
        exact h _ _ rfl rfl
      · rintro hle r n ⟨⟩ ⟨⟩
        exact hle rfl

theorem grantsNothing_iff
    (hrequest : clientPinRequest build (.input (.command cmd data)) = some request) :
    (request.subCommand = 0x05 ∨ request.subCommand = 0x09 → a.held.forceChangePin = true →
        RefusesCommand build a cmd data) ↔
      (request.subCommand = 0x05 ∨ request.subCommand = 0x09 → a.ReachesCheck request →
        a.held.forceChangePin = false) := by
  constructor
  · intro h hsub hreaches
    by_contra hforced
    exact (refusesCommand_check_iff build hrequest (.inr hsub)).mp
      (h hsub (by simpa using hforced)) hreaches
  · intro h hsub hforced
    refine (refusesCommand_check_iff build hrequest (.inr hsub)).mpr fun hreaches => ?_
    rw [h hsub hreaches] at hforced
    cases hforced

omit [TruthfulBackend β] in
theorem creates_iff {request : MakeCredentialRequest} {verified : Bool}
    (hcmd : Ctap2Command.fromU8 cmd = .makeCredential)
    (hdecode : build.cbor.decodeMakeCredential data = .ok request)
    (hverify : verifyPinUvAuthForOperation a request.pinProtocol request.pinUvAuthParam
      request.clientDataHash permissionMc (some request.rp.id) = .ok verified) :
    (a.exchange build cmd data).result = .error .pinRequired ↔
      a.storage.demands request.options.uv verified = true := by
  have hrun : (handleMakeCredential build data).run { a with hmacSecretSession := none } =
      (makeCredential build request).run { a with hmacSecretSession := none } :=
    Prog.run_bind_of_ok (Prod.ext hdecode rfl)
  have hresult : (a.exchange build cmd data).result = ((makeCredential build request).run
      { a with hmacSecretSession := none }).1.map CtapResponse.makeCredential := by
    show ((processCommand build cmd data).run a).1 = _
    rw [run_processCommand_of_ne build data a (by rw [hcmd]; decide), hcmd, dispatch, Prog.run_map]
    rw [hrun]
  rw [hresult, map_pinRequired_iff, makeCredential_pinRequired_iff]
  exact exists_verdict_iff hverify

omit [TruthfulBackend β] in
theorem asserts_iff {request : GetAssertionRequest} {verified : Bool}
    (hcmd : Ctap2Command.fromU8 cmd = .getAssertion)
    (hdecode : build.cbor.decodeGetAssertion data = .ok request)
    (hverify : verifyPinUvAuthForOperation a request.pinProtocol request.pinUvAuthParam
      request.clientDataHash permissionGa (some request.rpId) = .ok verified) :
    (a.exchange build cmd data).result = .error .pinRequired ↔
      a.storage.demands request.options.uv verified = true := by
  have hrun : (handleGetAssertion build data).run { a with hmacSecretSession := none } =
      (getAssertion build request).run { a with hmacSecretSession := none } :=
    Prog.run_bind_of_ok (Prod.ext hdecode rfl)
  have hresult : (a.exchange build cmd data).result = ((getAssertion build request).run
      { a with hmacSecretSession := none }).1.map CtapResponse.getAssertion := by
    show ((processCommand build cmd data).run a).1 = _
    rw [run_processCommand_of_ne build data a (by rw [hcmd]; decide), hcmd, dispatch, Prog.run_map]
    rw [hrun]
  rw [hresult, map_pinRequired_iff, getAssertion_pinRequired_iff]
  exact exists_verdict_iff hverify

theorem countsUp_iff : (Ctap2Command.fromU8 cmd = .getAssertion ∨
      Ctap2Command.fromU8 cmd = .getNextAssertion →
        (a.step build (.command cmd data)).log = a.log ∨
          a.held.signCounter < (a.step build (.command cmd data)).held.signCounter) ↔
    (ReachesCount build a cmd data →
      a.storage.Tells signCounterStorageKey ∨ a.held.signCounter = 0) := by
  have hseen : a.held.signCounter ≤ a.storage.signCounter ↔
      a.storage.Tells signCounterStorageKey ∨ a.held.signCounter ≤ 0 :=
    StorageEngine.le_readDecimal_iff _ _
  rw [Nat.le_zero] at hseen
  constructor
  · intro h hreaches
    by_cases hroom : a.storage.signCounter + 1 < 2 ^ 32
    · obtain ⟨hcounter, hgrows⟩ := counted_step build hreaches hroom
      rcases h hreaches.asserts with hlog | hless
      · rw [hlog] at hgrows
        exact absurd hgrows (Nat.lt_irrefl _)
      · rw [show (a.step build (.command cmd data)).held.signCounter = a.storage.signCounter + 1
          from hcounter] at hless
        exact hseen.mp (Nat.le_of_lt_succ hless)
    · refine .inl ((a.storage.value_or signCounterStorageKey).resolve_left fun hnone => hroom ?_)
      rw [StorageEngine.signCounter, StorageEngine.readDecimal_of_none hnone]
      decide
  · intro h hcmd
    by_cases hcounted : ReachesCount build a cmd data ∧ a.storage.signCounter + 1 < 2 ^ 32
    · obtain ⟨hreaches, hroom⟩ := hcounted
      refine .inr ?_
      rw [show (a.step build (.command cmd data)).held.signCounter = a.storage.signCounter + 1
        from (counted_step build hreaches hroom).1]
      exact Nat.lt_succ_of_le (hseen.mpr (h hreaches))
    · refine .inl (congrArg Prod.snd (unwritten_step build hcmd fun hreaches => ?_))
      exact Nat.le_of_not_lt fun hroom => hcounted ⟨hreaches, hroom⟩

/-- The counter in an answer has not been used exactly if it is found, or unused. -/
theorem answers_iff {r : GetAssertionResponse}
    (h : (a.exchange build cmd data).assertion = some r) :
    a.held.signCounter < signCountField r.authData ↔
      a.storage.Tells signCounterStorageKey ∨ a.held.signCounter = 0 := by
  rw [signCount_of_assertion build h, Nat.lt_succ_iff, ← Nat.le_zero]
  exact StorageEngine.le_readDecimal_iff _ _

/-- An answer is counted. -/
theorem reachesCount_of_assertion {r : GetAssertionResponse}
    (h : (a.exchange build cmd data).assertion = some r) : ReachesCount build a cmd data := by
  by_contra hnot
  have hcmd : Ctap2Command.fromU8 cmd = .getAssertion ∨
      Ctap2Command.fromU8 cmd = .getNextAssertion := (Exchange.assertion_eq_some.mp h).1
  have hlog : (a.step build (.command cmd data)).log = a.log :=
    congrArg Prod.snd (unwritten_step build hcmd fun hreaches => absurd hreaches hnot)
  have hsigned : ∀ {credential : Credential} {rpIdHash clientDataHash : Bytes} {flags : UInt8}
      {a₁ a₂ : Auth β} {assertion : Assertion}, a₁.log = a.log →
      (signCounted build credential rpIdHash flags clientDataHash).run a₁ = (.ok assertion, a₂) →
        a₂.log ≠ a.log := by
    intro credential rpIdHash clientDataHash flags a₁ a₂ assertion hbefore hrun hafter
    have hgrows := (counted_signCounted build credential rpIdHash clientDataHash flags
      (signCounted_data build hrun).1).2
    rw [hrun, hbefore, hafter] at hgrows
    exact Nat.lt_irrefl _ hgrows
  rcases assertion_cases build h with
    ⟨-, request, verified, credential, -, hasserted⟩ | ⟨-, state, credential, hnext⟩
  · obtain ⟨a₁, a₂, assertion, hcore, hrun, -, hend⟩ := hasserted.signed
    refine hsigned (congrArg Core.log hcore) hrun ?_
    obtain ⟨-, index, hend⟩ | ⟨-, hend⟩ := hend
    · exact (congrArg Core.log hend).symm.trans hlog
    · exact (congrArg Core.log hend).symm.trans hlog
  · obtain ⟨a₁, assertion, hcore, hrun, -⟩ := hnext.signed
    exact hsigned (congrArg Core.log hcore) hrun hlog

/-- The states that calls lead to from storage that holds nothing, where the reads that fail are
chosen anew before any call. -/
inductive ReachableWithFaults : Auth β → Prop
  | opened {a : Auth β} (hstorage : a.storage.healthy.Blank) (hopened : a = a.reboot a.storage []) :
      ReachableWithFaults a
  | call {a : Auth β} (h : ReachableWithFaults a) (c : Call) : ReachableWithFaults (a.call build c)
  | fault {a : Auth β} (h : ReachableWithFaults a) {b b' : β} (hb : a.storage.backend = some b)
      (hsame : TruthfulBackend.holds b' = TruthfulBackend.holds b) :
      ReachableWithFaults { a with storage := { a.storage with backend := some b' } }

end

/-! ## A PIN that is overwritten -/

/-- The reads of these keys fail from now on. -/
def failing (keys : List String) (a : Auth FaultyMap) : Auth FaultyMap :=
  { a with
    storage := { a.storage with
      backend := a.storage.backend.map fun m => { m with failing := keys } } }

theorem ReachableWithFaults.failing {a : Auth FaultyMap} (h : ReachableWithFaults build a)
    (keys : List String) : ReachableWithFaults build (a.failing keys) := by
  cases hb : a.storage.backend with
  | none =>
      have hsame : a.failing keys = a := by
        unfold Auth.failing
        rw [hb, Option.map_none, ← hb]
      rwa [hsame]
  | some m =>
      have hfault : a.failing keys = { a with
          storage := { a.storage with backend := some { m with failing := keys } } } := by
        unfold Auth.failing
        rw [hb, Option.map_some]
      rw [hfault]
      exact h.fault hb rfl

/-- A device over a map that is still empty. -/
def faultyDevice : Auth FaultyMap :=
  Auth.new (List.replicate 16 0) sampleCrypto (.withBackend unusedCodec ⟨∅, []⟩)
    (fun n _ => UInt8.ofNat (n + 1)) fun n => n

/-- The device with the PIN 5678, whose hash cannot be read. -/
def hiddenPinDevice : Auth FaultyMap :=
  (faultyDevice.call sampleBuild (.setPin (utf8 "5678"))).failing [pinStorageKey]

theorem reachable_hiddenPinDevice : ReachableWithFaults sampleBuild hiddenPinDevice := by
  refine .failing sampleBuild (.call (.opened ⟨rfl, rfl, rfl, ?_⟩ rfl) _) _
  rintro b ⟨⟩
  rfl

set_option maxRecDepth 100000 in
/-- The PIN 1234 takes its place. -/
theorem setPin_overwrites :
    hiddenPinDevice.storage.healthy.value pinStorageKey =
        some (pinHash sampleCrypto (utf8 "5678")) ∧
      (hiddenPinDevice.step sampleBuild setPinCommand).storage.healthy.value pinStorageKey =
        some (pinHash sampleCrypto (utf8 "1234")) ∧
      pinHash sampleCrypto (utf8 "5678") ≠ pinHash sampleCrypto (utf8 "1234") := by
  decide +kernel

end Auth

end OpenKey
