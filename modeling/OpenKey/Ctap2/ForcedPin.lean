import OpenKey.Ctap2.PinPolicy
import OpenKey.Ctap2.Sample

/-!
# A forced change of the PIN

**Theorem (`released_iff`).** A token request that offers the correct PIN, and is in order
otherwise, is granted exactly if no change of the PIN is owed, if and only if the flag of
setMinPINLength tells so.

A change is owed from an accepted setMinPINLength with forceChangePin until a changePIN succeeds.
The flag is set by that request too, but changePIN leaves it where it is: it is cleared by the next
accepted setMinPINLength that does not ask for a change.
-/

namespace OpenKey

open Prog (Keeps KeepsAt bind_eq_ok check_eq_ok ensure_eq_ok map_eq_ok)

set_option autoImplicit false

/-! ## What happens to the policy -/

/-- What a call does about a forced change. -/
inductive PolicyEvent
  /-- setMinPINLength with forceChangePin is accepted. -/
  | forced
  /-- setMinPINLength without it is accepted. -/
  | waived
  /-- changePIN succeeds. -/
  | changed
  /-- The storage is emptied. -/
  | erased
  deriving DecidableEq, Repr

namespace PolicyEvent

/-- Whether a change of the PIN is owed after an event. -/
def owes (owed : Bool) : PolicyEvent → Bool
  | .forced => true
  | .waived => owed
  | .changed => false
  | .erased => false

/-- Whether the flag is set after an event. -/
def flags (flag : Bool) : PolicyEvent → Bool
  | .forced => true
  | .waived => false
  | .changed => flag
  | .erased => false

end PolicyEvent

/-- A change of the PIN is owed after these events. -/
def owed (events : List PolicyEvent) : Bool := events.foldl PolicyEvent.owes false

/-- The flag is set after these events. -/
def flagged (events : List PolicyEvent) : Bool := events.foldl PolicyEvent.flags false

namespace Auth

variable {β : Type} [StorageBackend β] [LawfulBackend β] (build : Build)

/-- The event in a call. -/
def policyEvent (a : Auth β) (call : Call) : Option PolicyEvent :=
  match a.acceptedParams build call with
  | some params => some (if params.forceChange then .forced else .waived)
  | none =>
      if a.erases build call then some .erased
      else if changesPin build call && a.succeeds build call then some .changed
      else none

/-- The events in a sequence of calls. -/
def policyEvents (a : Auth β) : List Call → List PolicyEvent
  | [] => []
  | call :: cs =>
      (a.policyEvent build call).toList ++ policyEvents (a.call build call) cs

variable {build}

omit [LawfulBackend β] in
theorem isForceChangePin_eq (e : StorageEngine β) : e.isForceChangePin = e.policy.2.isSome := rfl

/-- One call sets the flag as its event says. -/
theorem flag_call {a : Auth β} (hsynced : a.storage.Synced) (call : Call) :
    (a.call build call).storage.isForceChangePin =
      (a.policyEvent build call).elim a.storage.isForceChangePin
        (PolicyEvent.flags a.storage.isForceChangePin) := by
  rw [isForceChangePin_eq, policy_call build hsynced, policyEvent]
  cases a.acceptedParams build call with
  | some params =>
      by_cases hforce : params.forceChange = true
      · simp [SetMinPinLengthParams.policy, hforce, PolicyEvent.flags]
      · simp [SetMinPinLengthParams.policy, hforce, PolicyEvent.flags]
  | none =>
      by_cases herases : a.erases build call = true
      · simp [herases, PolicyEvent.flags]
      · by_cases hchanged : (changesPin build call && a.succeeds build call) = true
        · simp only [herases, hchanged]
          rfl
        · simp only [herases, hchanged]
          rfl

/-- A run sets the flag as its events say. -/
theorem flag_calls {a : Auth β} (hsynced : a.storage.Synced) (cs : List Call) :
    (a.calls build cs).storage.isForceChangePin =
      (a.policyEvents build cs).foldl PolicyEvent.flags a.storage.isForceChangePin := by
  induction cs generalizing a with
  | nil => rfl
  | cons call cs ih =>
      show ((a.call build call).calls build cs).storage.isForceChangePin = _
      rw [ih (synced_call build hsynced call), flag_call hsynced, policyEvents, List.foldl_append]
      cases a.policyEvent build call <;> rfl

theorem flag_of_blank {start : Auth β} (hblank : start.Blank) (cs : List Call) :
    (start.calls build cs).storage.isForceChangePin = flagged (start.policyEvents build cs) := by
  have hunset : start.storage.isForceChangePin = false := by
    unfold StorageEngine.isForceChangePin
    rw [hblank.storage.value]
    rfl
  rw [flag_calls hblank.storage.synced, hunset]
  rfl

/-! ## Token requests -/

/-- A request of a token that offers the correct PIN and is in order, with retries left. -/
structure OffersPin (a : Auth β) (request : ClientPinRequest) (pin : Bytes) : Prop where
  asks : AsksForToken a request
  open_ : a.CheckOpen
  correct : a.storedPin = some (pinHash a.crypto pin)
  encrypted : ∃ n protocol peerCose pinHashEnc secret, request.pinProtocol = some n ∧
    PinUvProtocol.new n = some protocol ∧ request.keyAgreement = some peerCose ∧
    request.pinHashEnc = some pinHashEnc ∧ a.agreedSecret protocol peerCose = some secret ∧
    protocol.decryptExact a.crypto.prims secret pinHashEnc pinHashLen =
      .ok (pinHash a.crypto pin)

/-- The check of a correct hash succeeds. -/
theorem run_checkPinHash (path : PinPath) {protocol : PinUvProtocol}
    {secret pinHashEnc hash : Bytes} {a : Auth β} (hstored : a.storedPin = some hash)
    (hhash : protocol.decryptExact a.crypto.prims secret pinHashEnc pinHashLen = .ok hash) :
    ∃ b, (checkPinHash path protocol secret pinHashEnc).run a = (.ok (), b) := by
  obtain ⟨b, htake, hcrypto, hkept⟩ : ∃ b, (decrementPinRetries .checkBegun).run a = (.ok (), b) ∧
      b.crypto = a.crypto ∧ b.storedPin = a.storedPin :=
    ⟨_, rfl, rfl, storedPin_decrementPinRetries .checkBegun a⟩
  rw [checkPinHash, Prog.run_bind_of_ok htake, Prog.run_read_bind, hcrypto, hhash]
  have hcompare : (comparePinHash path hash).run b = (.ok (some true),
      { b with log := .compared path true :: b.log }) := by
    have hvalue : b.storage.value pinStorageKey = some hash := hkept.trans hstored
    simp only [comparePinHash, Prog.run_act, hvalue, decide_true]
  exact ⟨_, Prog.run_bind_of_ok hcompare⟩

theorem length_of_decryptExact {prims : Primitives} {protocol : PinUvProtocol}
    {secret ciphertext hash : Bytes} {n : Nat}
    (h : protocol.decryptExact prims secret ciphertext n = .ok hash) :
    secret.length = protocol.secretLen := by
  obtain ⟨plaintext, hdecrypt, -⟩ := Except.bind_eq_ok.mp h
  exact PinUvProtocol.length_of_decrypt hdecrypt

omit [StorageBackend β] [LawfulBackend β] in
/-- Under a secret that decrypts, a token can be issued. -/
theorem run_issuePinUvAuthToken {protocol : PinUvProtocol} {secret : Bytes}
    (hsecret : secret.length = protocol.secretLen) (permissions : UInt8) (rpId : Option String)
    (a : Auth β) :
    ∃ token b, (issuePinUvAuthToken protocol secret permissions rpId).run a = (.ok token, b) := by
  obtain ⟨token, b, hdraw, hlength⟩ : ∃ token b, (randomBytes 32).run a = (.ok token, b) ∧
      token.length = 32 := ⟨_, _, rfl, Entropy.length_bytes _ _⟩
  obtain ⟨entropy, c, hiv⟩ : ∃ entropy c, (drawIv protocol).run b = (.ok entropy, c) := by
    cases protocol with
    | one => exact ⟨_, b, rfl⟩
    | two => exact ⟨_, _, rfl⟩
  have hblocks : token.length % aesBlockLen = 0 := by
    rw [hlength]
    rfl
  obtain ⟨encrypted, hencrypted⟩ : ∃ encrypted,
      protocol.encrypt c.crypto.prims entropy secret token = .ok encrypted :=
    PinUvProtocol.encrypt_total entropy hsecret hblocks
  have hencrypt : (encryptWith protocol secret token).run b = (.ok encrypted, c) := by
    rw [encryptWith, Prog.run_bind_of_ok hiv, Prog.run_check, hencrypted]
    rfl
  rw [issuePinUvAuthToken, Prog.run_bind_of_ok hdraw, Prog.run_bind_of_ok hencrypt]
  exact ⟨_, _, rfl⟩

omit [LawfulBackend β] in
/-- Such a request is refused if the flag is set. -/
theorem handleGetPinTokenCommon_flagged {request : ClientPinRequest} {protocol : PinUvProtocol}
    {permissions : UInt8} {rpId : Option String} {a : Auth β} (hset : a.storage.isPinSet = true)
    (hflag : a.storage.isForceChangePin = true) :
    (handleGetPinTokenCommon request protocol permissions rpId).run a =
      (.error .pinPolicyViolation, a) := by
  refine (Prog.run_ensure_bind ?_).trans (Prog.run_ensure_bind_error ?_)
  · exact hset
  · rw [hflag]
    rfl

/-- It is granted if the flag is not set. -/
theorem handleGetPinTokenCommon_granted {request : ClientPinRequest} {protocol : PinUvProtocol}
    {peerCose : CoseEc2Key} {pinHashEnc secret hash : Bytes} (permissions : UInt8)
    (rpId : Option String) {a : Auth β} (hopen : a.CheckOpen)
    (hflag : a.storage.isForceChangePin = false) (hpeer : request.keyAgreement = some peerCose)
    (henc : request.pinHashEnc = some pinHashEnc)
    (hsecret : a.agreedSecret protocol peerCose = some secret) (hstored : a.storedPin = some hash)
    (hhash : protocol.decryptExact a.crypto.prims secret pinHashEnc pinHashLen = .ok hash) :
    ∃ r b, (handleGetPinTokenCommon request protocol permissions rpId).run a = (.ok r, b) := by
  obtain ⟨b, hagree, hcore⟩ := run_performKeyAgreement hsecret
  have hsame : b.storage = a.storage := congrArg Core.storage hcore
  have hcrypto : b.crypto = a.crypto := congrArg Core.crypto hcore
  have hkept : b.storedPin = some hash := by
    rw [← hstored, storedPin, hsame]
    rfl
  have hdecrypts : protocol.decryptExact b.crypto.prims secret pinHashEnc
    pinHashLen = .ok hash := by
    rw [hcrypto]
    exact hhash
  obtain ⟨c, hcheck⟩ := run_checkPinHash PinPath.pinToken hkept hdecrypts
  obtain ⟨token, d, htoken⟩ := run_issuePinUvAuthToken (length_of_decryptExact hhash) permissions
    rpId c
  refine ⟨_, d, (Prog.run_ensure_bind ?_).trans <| (Prog.run_ensure_bind ?_).trans <|
    (Prog.run_ensure_bind ?_).trans <| (Prog.run_ensure_bind ?_).trans <|
    (Prog.run_bind_of_ok (run_required hpeer a)).trans <|
    (Prog.run_bind_of_ok (run_required henc a)).trans <| (Prog.run_bind_of_ok hagree).trans <|
    (Prog.run_bind_of_ok hcheck).trans <| Prog.run_bind_of_ok htoken⟩
  · exact hopen.pinSet
  · rw [hflag]
    rfl
  · simpa [getPinRetries] using hopen.retryLeft
  · simpa [isPinAuthBlocked] using hopen.notBlocked

omit [StorageBackend β] [LawfulBackend β] in
theorem run_validatePermissions {permissions : UInt8} {a : Auth β}
    (hsome : (permissions != 0) = true)
    (hall : (permissionOptions.all fun need =>
      permissions &&& need.1 == 0 || a.capabilities.options.contains need.2) = true) :
    (validatePermissions permissions).run a = (.ok (), a) := by
  refine (Prog.run_ensure_bind ?_).trans ?_
  · exact hsome
  · rw [Prog.run_ensure, if_pos hall]

omit [LawfulBackend β] in
/-- A request of a token comes down to the steps that the subcommands share. -/
theorem run_tokenSubCommand {request : ClientPinRequest} {a : Auth β} {n : Nat}
    {protocol : PinUvProtocol} (hasks : AsksForToken a request)
    (hversion : request.pinProtocol = some n) (hnew : PinUvProtocol.new n = some protocol) :
    ∃ permissions rpId, (clientPinSubCommand request).run a =
      (handleGetPinTokenCommon request protocol permissions rpId).run a := by
  have hprotocol := run_validateProtocol hversion hnew a
  rcases hasks with ⟨hsub, hpermissions, hrpId⟩ |
    ⟨hsub, permissions, hpermissions, hsome, hall, hid⟩
  · refine ⟨permissionMc ||| permissionGa, none, ?_⟩
    rw [clientPinSubCommand, hsub]
    refine (Prog.run_bind_of_ok hprotocol).trans (Prog.run_ensure_bind ?_)
    rw [hpermissions, hrpId]
    rfl
  · refine ⟨permissions, request.rpId, ?_⟩
    rw [clientPinSubCommand, hsub]
    exact (Prog.run_bind_of_ok hprotocol).trans <|
      (Prog.run_bind_of_ok (run_required hpermissions a)).trans <|
      (Prog.run_bind_of_ok (run_validatePermissions hsome hall)).trans (Prog.run_ensure_bind hid)

/-- The correct PIN gets a token exactly if the flag is not set. -/
theorem tokenSubCommand_iff {a : Auth β} {request : ClientPinRequest} {pin : Bytes}
    (hoffers : OffersPin a request pin) :
    ((clientPinSubCommand request).run a).1.isOk = true ↔ a.storage.isForceChangePin = false := by
  obtain ⟨n, protocol, peerCose, pinHashEnc, secret, hversion, hnew, hpeer, henc, hsecret, hhash⟩ :=
    hoffers.encrypted
  obtain ⟨permissions, rpId, hsub⟩ := run_tokenSubCommand hoffers.asks hversion hnew
  rw [hsub]
  cases hflag : a.storage.isForceChangePin with
  | true =>
      rw [handleGetPinTokenCommon_flagged hoffers.open_.pinSet hflag]
      simp [Except.isOk, Except.toBool]
  | false =>
      obtain ⟨r, b, hrun⟩ := handleGetPinTokenCommon_granted permissions rpId hoffers.open_ hflag
        hpeer henc hsecret hoffers.correct hhash
      rw [hrun]
      simp [Except.isOk, Except.toBool]

theorem token_iff {a : Auth β} {cmd : UInt8} {data : Bytes} {request : ClientPinRequest}
    {pin : Bytes} (hrequest : clientPinRequest build (.input (.command cmd data)) = some request)
    (hoffers : OffersPin a request pin) :
    a.succeeds build (.input (.command cmd data)) = true ↔ a.storage.isForceChangePin = false := by
  have hoffers' : OffersPin { a with hmacSecretSession := none } request pin :=
    ⟨hoffers.asks, ⟨hoffers.open_.pinSet, hoffers.open_.retryLeft, hoffers.open_.notBlocked⟩,
      hoffers.correct, hoffers.encrypted⟩
  rw [succeeds, exchange, run_clientPin build hrequest, Prog.run_map,
    ← tokenSubCommand_iff hoffers']
  cases ((clientPinSubCommand request).run { a with hmacSecretSession := none }).1 <;> rfl

/-! ## The release -/

/-- The correct PIN is granted a token exactly if no change is owed, if and only if the flag tells
whether a change is owed. The correct PIN after a changePIN is the new one. -/
theorem released_iff {start : Auth β} (hblank : start.Blank) (cs : List Call) :
    (∀ call, changesPin build call = true → (start.calls build cs).succeeds build call = true →
      ∃ pin, (start.calls build cs).newPin build call = some pin ∧
        ((start.calls build cs).call build call).storedPin =
          some (pinHash (start.calls build cs).crypto pin)) ∧
      ∀ cmd data request pin,
        clientPinRequest build (.input (.command cmd data)) = some request →
        OffersPin (start.calls build cs) request pin →
        (((start.calls build cs).succeeds build (.input (.command cmd data)) = true ↔
            owed (start.policyEvents build cs) = false) ↔
          flagged (start.policyEvents build cs) = owed (start.policyEvents build cs)) := by
  constructor
  · intro call hchanges hok
    obtain ⟨pin, hpin, -, hstored⟩ := newPin_of_succeeds build hok (.inr hchanges)
    exact ⟨pin, hpin, hstored⟩
  · intro cmd data request pin hrequest hoffers
    rw [token_iff hrequest hoffers, flag_of_blank hblank]
    cases flagged (start.policyEvents build cs) <;>
      cases owed (start.policyEvents build cs) <;> simp

/-! ## A change that releases nothing -/

/-- The parameters of setMinPINLength with forceChangePin. -/
def forceParams : Value :=
  intMap [(1, .bytes (word16 0x606653bfaec71961a2c1233634ec498e)), (2, .integer 4), (4, .bool true)]

/-- setMinPINLength with them. -/
def forceChangeCommand : Input :=
  .command 0x0D (encodeValue (intMap [(1, .integer 3), (2, forceParams), (3, .integer 1),
    (4, .bytes (word16 0x178bb4380bb90865903bcbbe7437e0f2))]))

/-- The PIN 5678, padded and encrypted under the fourth secret. -/
def changedPinEnc : Bytes := Bytes.beBytes 64
  (0xadeeeec223e111ad3bfdcd71b463a3cdee6984e726777730b3a211823f75289f * 2 ^ 256 +
    0x05e70083bc816dfd15a78b90e36a7e69aa0f7909eeecc22f56d0eb71c1805a96)

/-- The hash of the PIN 1234, encrypted under that secret. -/
def oldPinHashEnc : Bytes := word16 0x8915e1b683c7ac48e388e30c618c574e

/-- changePIN, from 1234 to 5678. -/
def changePinCommand : Input :=
  .command 0x06 (encodeValue (intMap [(1, .integer 1), (2, .integer 4), (3, samplePlatformKey),
    (4, .bytes (word16 0x4bc4c2e5e4e18bbcca37591e84beeae0)), (5, .bytes changedPinEnc),
    (6, .bytes oldPinHashEnc)]))

/-- getPinToken with the PIN 5678, under the fifth secret. -/
def changedTokenData : Bytes :=
  encodeValue (intMap [(1, .integer 1), (2, .integer 5), (3, samplePlatformKey),
    (6, .bytes (word16 0x8648cfd133840161add6b92b9cfb8a8c))])

/-- The device, with the values of the algorithms in the run. -/
def forcedDevice : Auth KvMap :=
  managedDevice {
    macs := [
      ((drawn 32 3, 0x0D :: 0x03 :: encodeValue forceParams),
        0x178bb4380bb90865903bcbbe7437e0f2048456da3761d693b9b146cb74c80121),
      ((word32 0xe19b77d7b28ef1820a4d3fc741f976b084f6264f2865db28d56fc227fab68e24,
          changedPinEnc ++ oldPinHashEnc),
        0x4bc4c2e5e4e18bbcca37591e84beeae052b27dffea50653a72778a875af90bd1)]
    blocks := [
      (word16 0x31323334000000000000000000000000, word16 0x606653bfaec71961a2c1233634ec498e),
      (word16 0x35363738000000000000000000000000, word16 0xadeeeec223e111ad3bfdcd71b463a3cd),
      (word16 0xadeeeec223e111ad3bfdcd71b463a3cd, word16 0xee6984e726777730b3a211823f75289f),
      (word16 0xee6984e726777730b3a211823f75289f, word16 0x05e70083bc816dfd15a78b90e36a7e69),
      (word16 0x05e70083bc816dfd15a78b90e36a7e69, word16 0xaa0f7909eeecc22f56d0eb71c1805a96),
      (word16 0x03ac674216f3e15c761ee1a5e255f067, word16 0x8915e1b683c7ac48e388e30c618c574e),
      (word16 0xf8638b979b2f4f793ddb6dbd197e0ee2, word16 0x8648cfd133840161add6b92b9cfb8a8c)]
    agreements := [
      (4, 0x73103ec30b3ccf57daae08e93534aef144a35940cf6bbba12a0cf7cbd5d65a64,
        0xe19b77d7b28ef1820a4d3fc741f976b084f6264f2865db28d56fc227fab68e24),
      (5, 0x07810ea974cea5773e63b897f37e3be9a09e7a5fe9b971a44d1065ac2a3a9311,
        0xb0b52d6a03f58123a47bb95bc4e1b73712227b94b822ff278cf8e184765f457b)] }

/-- A PIN is set, a change of it is forced, and it is changed. -/
def forcedRun : List Call :=
  [.input setPinCommand, .input (getTokenFor 0x20), .input forceChangeCommand,
    .input changePinCommand]

/-- What a request of a token decodes to. -/
def tokenRequest (subCommand : Nat) (pinHashEnc : Bytes) (permissions : Option UInt8) :
    ClientPinRequest where
  pinProtocol := some 1
  subCommand := subCommand
  keyAgreement := some ⟨samplePlatformX, samplePlatformY⟩
  pinAuth := none
  newPinEnc := none
  pinHashEnc := some pinHashEnc
  permissions := permissions
  rpId := none

deriving instance DecidableEq for ClientPinRequest

set_option maxRecDepth 100000 in
theorem decoded_changedToken :
    clientPinRequest managedBuild (.input (.command 0x06 changedTokenData)) =
      some (tokenRequest 5 (word16 0x8648cfd133840161add6b92b9cfb8a8c) none) := by
  decide +kernel

set_option maxRecDepth 100000 in
theorem offersPin_new : OffersPin (forcedDevice.calls managedBuild forcedRun)
    (tokenRequest 5 (word16 0x8648cfd133840161add6b92b9cfb8a8c) none) (utf8 "5678") where
  asks := .inl ⟨rfl, rfl, rfl⟩
  open_ := ⟨by decide +kernel, by decide +kernel, by decide +kernel⟩
  correct := by decide +kernel
  encrypted := ⟨_, _, _, _,
    word32 0xb0b52d6a03f58123a47bb95bc4e1b73712227b94b822ff278cf8e184765f457b, rfl, rfl, rfl, rfl,
    by decide +kernel, by decide +kernel⟩

set_option maxRecDepth 100000 in
/-- The PIN has been changed as asked, and the new PIN is refused. -/
theorem change_releases_nothing : ¬∀ (start : Auth KvMap) cs cmd data request pin, start.Blank →
    clientPinRequest managedBuild (.input (.command cmd data)) = some request →
    OffersPin (start.calls managedBuild cs) request pin →
    ((start.calls managedBuild cs).succeeds managedBuild (.input (.command cmd data)) = true ↔
      owed (start.policyEvents managedBuild cs) = false) := by
  intro hall
  have hgranted := (hall forcedDevice forcedRun 0x06 changedTokenData _ _
    ⟨blank_memoryDevice.storage, rfl⟩ decoded_changedToken offersPin_new).mpr (by decide +kernel)
  rw [token_iff decoded_changedToken offersPin_new] at hgranted
  exact absurd hgranted (by decide +kernel)

/-- getPinToken with the PIN 1234, under the fourth secret. -/
def owedTokenData : Bytes :=
  encodeValue (intMap [(1, .integer 1), (2, .integer 5), (3, samplePlatformKey),
    (6, .bytes oldPinHashEnc)])

/-- The run, up to the accepted request for a change. -/
def owedRun : List Call :=
  [.input setPinCommand, .input (getTokenFor 0x20), .input forceChangeCommand]

set_option maxRecDepth 100000 in
theorem decoded_owedToken :
    clientPinRequest managedBuild (.input (.command 0x06 owedTokenData)) =
      some (tokenRequest 5 oldPinHashEnc none) := by
  decide +kernel

set_option maxRecDepth 100000 in
theorem offersPin_owed : OffersPin (forcedDevice.calls managedBuild owedRun)
    (tokenRequest 5 oldPinHashEnc none) (utf8 "1234") where
  asks := .inl ⟨rfl, rfl, rfl⟩
  open_ := ⟨by decide +kernel, by decide +kernel, by decide +kernel⟩
  correct := by decide +kernel
  encrypted := ⟨_, _, _, _,
    word32 0xe19b77d7b28ef1820a4d3fc741f976b084f6264f2865db28d56fc227fab68e24, rfl, rfl, rfl, rfl,
    by decide +kernel, by decide +kernel⟩

set_option maxRecDepth 100000 in
/-- Between the accepted request for a change and the change, the correct PIN is refused. -/
theorem released_iff_owed :
    owed (forcedDevice.policyEvents managedBuild owedRun) = true ∧
      ¬(forcedDevice.calls managedBuild owedRun).succeeds managedBuild
        (.input (.command 0x06 owedTokenData)) = true := by
  have hblank : forcedDevice.Blank := ⟨blank_memoryDevice.storage, rfl⟩
  have howed : owed (forcedDevice.policyEvents managedBuild owedRun) = true := by
    decide +kernel
  have hflagged : flagged (forcedDevice.policyEvents managedBuild owedRun) = true := by
    decide +kernel
  have hreleased := ((released_iff hblank owedRun).2 0x06 owedTokenData _ _ decoded_owedToken
    offersPin_owed).mpr (hflagged.trans howed.symm)
  refine ⟨howed, fun hok => ?_⟩
  rw [howed] at hreleased
  exact absurd (hreleased.mp hok) (by decide)

end Auth

end OpenKey
