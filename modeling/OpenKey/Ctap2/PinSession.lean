import OpenKey.Ctap2.TestPlatform

/-!
# The PIN as an object

What ClientPIN is for is small: a PIN that can be set, changed and tried, a number of tries, and a
grant for whoever knows the PIN. Here that is a `PinObject`, without keys, ciphertexts or messages.

**One operation (`realises_operate`).** The request that a platform makes of an operation is
answered by the authenticator as the object answers the operation. A session of many operations is
the subject of `PinRefinement`.
-/

namespace OpenKey

open Prog (Keeps KeepsAt bind_eq_ok check_eq_ok ensure_eq_ok map_eq_ok)

set_option autoImplicit false

/-! ## The PIN as an object -/

/-- What whoever knew the PIN may do. -/
structure Grant where
  version : Nat
  permissions : UInt8
  rpId : Option String
  deriving DecidableEq

/-- A PIN with its tries. -/
structure PinObject where
  /-- The hash of the PIN. -/
  pin : Option Bytes
  retries : Nat
  /-- The failures since the last success or power cycle. -/
  failures : Nat
  grant : Option Grant
  deriving DecidableEq

namespace PinObject

/-- No PIN is set. -/
def unset : PinObject := ⟨none, pinMaxRetries, 0, none⟩

/-- The status of the failure just counted. -/
def failure (o : PinObject) : Ctap2Error :=
  if o.retries = 0 then .pinBlocked
  else if pinBlockThreshold ≤ o.failures then .pinAuthBlocked
  else .pinInvalid

/-- The object after a wrong PIN. -/
def missed (o : PinObject) : PinObject :=
  { o with retries := o.retries - 1, failures := min (o.failures + 1) 255 }

/-- The object after a right PIN. -/
def matched (o : PinObject) : PinObject := { o with retries := pinMaxRetries, failures := 0 }

/-- Try a PIN, given by its hash. -/
def attempt (hash : Bytes) (o : PinObject) : Except Ctap2Error Unit × PinObject :=
  match o.pin with
  | none => (.error .pinNotSet, o)
  | some stored =>
      if o.retries = 0 then (.error .pinBlocked, o)
      else if pinBlockThreshold ≤ o.failures then (.error .pinAuthBlocked, o)
      else if hash = stored then (.ok (), o.matched)
      else (.error o.missed.failure, o.missed)

/-- Try a PIN, and go on if it is right. -/
def unlock (hash : Bytes) (next : PinObject → Except Ctap2Error Unit × PinObject) (o : PinObject) :
    Except Ctap2Error Unit × PinObject :=
  match o.attempt hash with
  | (.ok (), o) => next o
  | (.error error, o) => (.error error, o)

/-- Replace the PIN, in the state `next`, if its length is allowed. -/
def put (o : PinObject) (pin hash : Bytes) (next : PinObject) :
    Except Ctap2Error Unit × PinObject :=
  if Auth.pinLengthOk pin then (.ok (), { next with pin := some hash, grant := none })
  else (.error .pinPolicyViolation, o)

/-- A power cycle; `lasting` tells whether anything is kept. -/
def power (lasting : Bool) (o : PinObject) : PinObject :=
  if lasting then { o with failures := 0, grant := none } else unset

/-- The grant covers an operation. -/
def Allows (o : PinObject) (version : Nat) (permission : UInt8) (rpId : Option String) : Prop :=
  ∃ grant, o.grant = some grant ∧ grant.version = version ∧
    grant.permissions &&& permission = permission ∧
    ∀ bound, grant.rpId = some bound → rpId = some bound

end PinObject

/-! ## Operations -/

/-- A PIN as it is typed: not empty, within the padding, and not ending in a zero byte. -/
structure TypedPin where
  bytes : Bytes
  nonempty : 1 ≤ bytes.length
  fits : bytes.length ≤ 64
  last : bytes.getLast? ≠ some 0

/-- The id of a relying party, of a length that CBOR can write. -/
structure TypedRpId where
  text : String
  fits : (utf8 text).length < 2 ^ 64

/-- What a platform does with a PIN. -/
inductive PinOp
  | setPin (pin : TypedPin)
  | changePin (oldPin newPin : TypedPin)
  | getPinToken (pin : TypedPin)
  | getPinTokenWithPermissions (pin : TypedPin) (permissions : UInt8) (rpId : Option TypedRpId)

/-- The permissions that a token may have, and the relying party it needs. -/
def grantable (options : List String) (permissions : UInt8) (rpId : Option String) :
    Except Ctap2Error Unit :=
  if permissions = 0 then .error .invalidParameter
  else if (Auth.permissionOptions.all fun need =>
      permissions &&& need.1 == 0 || options.contains need.2) = false then
    .error .unauthorizedPermission
  else if (permissions &&& (permissionMc ||| permissionGa) == 0 || rpId.isSome) = false then
    .error .missingParameter
  else .ok ()

/-- An operation on the object: `hash` is the hash of a PIN, and `options` are announced. -/
def PinOp.ideal (hash : Bytes → Bytes) (options : List String) (version : Nat) (o : PinObject) :
    PinOp → Except Ctap2Error Unit × PinObject
  | .setPin pin =>
      if o.pin.isSome then (.error .pinAuthInvalid, o)
      else o.put pin.bytes (hash pin.bytes) o.matched
  | .changePin oldPin newPin =>
      o.unlock (hash oldPin.bytes) fun o => o.put newPin.bytes (hash newPin.bytes) o
  | .getPinToken pin =>
      o.unlock (hash pin.bytes) fun o =>
        (.ok (), { o with grant := some ⟨version, permissionMc ||| permissionGa, none⟩ })
  | .getPinTokenWithPermissions pin permissions rpId =>
      match grantable options permissions (rpId.map TypedRpId.text) with
      | .error error => (.error error, o)
      | .ok () => o.unlock (hash pin.bytes) fun o =>
          (.ok (), { o with grant := some ⟨version, permissions, rpId.map TypedRpId.text⟩ })

/-- The request of an operation. -/
def PinOp.request (prims : Primitives) (platform : TestPlatform) (iv iv' : Entropy) :
    PinOp → Option ClientPinRequest
  | .setPin pin => platform.setPin prims iv pin.bytes
  | .changePin oldPin newPin => platform.changePin prims iv iv' oldPin.bytes newPin.bytes
  | .getPinToken pin => platform.getPinToken prims iv pin.bytes
  | .getPinTokenWithPermissions pin permissions rpId =>
      platform.getPinTokenWithPermissions prims iv pin.bytes permissions (rpId.map TypedRpId.text)

/-! ## Sessions -/

/-- The commands that leave the PIN alone. -/
def Ctap2Command.besidePin : Ctap2Command → Bool
  | .reset => false
  | .clientPin => false
  | .authenticatorConfig => false
  | _ => true

/-- A turn of a session. -/
inductive Turn
  /-- The platform operates on the PIN; it draws a key and two initialisation vectors. -/
  | operate (protocol : PinUvProtocol) (key iv iv' : Entropy) (op : PinOp)
  /-- Another command comes in between. -/
  | other (cmd : UInt8) (data : Bytes) (beside : (Ctap2Command.fromU8 cmd).besidePin = true)
  | powerCycle

/-- The turns, on the object. -/
def PinObject.turn (hash : Bytes → Bytes) (options : List String) (lasting : Bool)
    (o : PinObject) : Turn → List (Except Ctap2Error Unit) × PinObject
  | .operate protocol _ _ _ op =>
      ([(op.ideal hash options protocol.version o).1], (op.ideal hash options protocol.version o).2)
  | .other _ _ _ => ([], o)
  | .powerCycle => ([], o.power lasting)

/-- A whole session, on the object. -/
def PinObject.turns (hash : Bytes → Bytes) (options : List String) (lasting : Bool)
    (o : PinObject) : List Turn → List (Except Ctap2Error Unit) × PinObject
  | [] => ([], o)
  | turn :: rest =>
      let first := o.turn hash options lasting turn
      let later := first.2.turns hash options lasting rest
      (first.1 ++ later.1, later.2)

/-- An authenticator, and the token that its platform has decrypted last. -/
structure Session (β : Type) where
  device : Auth β
  token : Option Bytes

namespace Session

variable {β : Type} [StorageBackend β] (build : Build)

/-- `refresh_agreement` and `send`: `none` where the platform gives up. -/
def operate (protocol : PinUvProtocol) (key iv iv' : Entropy) (op : PinOp) (s : Session β) :
    Option (Except Ctap2Error Unit) × Session β :=
  let prims := s.device.crypto.prims
  match (Auth.send build (TestPlatform.askAgreement protocol)).run s.device with
  | (.error error, a) => (some (.error error), { s with device := a })
  | (.ok announced, a) =>
      match TestPlatform.refreshAgreement prims protocol key announced with
      | none => (none, { s with device := a })
      | some platform =>
          match op.request prims platform iv iv' with
          | none => (none, { s with device := a })
          | some request =>
              match (Auth.send build request).run a with
              | (.error error, b) => (some (.error error), { s with device := b })
              | (.ok response, b) =>
                  (some (.ok ()), ⟨b, (response.pinUvAuthToken.bind (platform.decrypt prims)).or
                    s.token⟩)

/-- One turn. -/
def turn (s : Session β) : Turn → List (Option (Except Ctap2Error Unit)) × Session β
  | .operate protocol key iv iv' op =>
      ([(s.operate build protocol key iv iv' op).1], (s.operate build protocol key iv iv' op).2)
  | .other cmd data _ => ([], { s with device := s.device.step build (.command cmd data) })
  | .powerCycle => ([], { s with device := s.device.step build .powerCycle })

/-- A whole session: the results of the operations, and the state at the end. -/
def turns (s : Session β) : List Turn → List (Option (Except Ctap2Error Unit)) × Session β
  | [] => ([], s)
  | turn :: rest =>
      let first := s.turn build turn
      let later := first.2.turns rest
      (first.1 ++ later.1, later.2)

end Session

/-! ## The PIN of an authenticator -/

namespace Auth

variable {β : Type} [StorageBackend β] [LawfulBackend β] {build : Build}

/-- The object an authenticator implements. -/
def pinObject (a : Auth β) : PinObject where
  pin := a.storedPin
  retries := a.storage.readRetries
  failures := a.pinFailuresSinceReset
  grant := a.pinUvAuthToken.map fun state =>
    ⟨state.protocol, state.permissions, state.permissionsRpId⟩

omit [LawfulBackend β] in
theorem pinObject_of_core {a b : Auth β} (h : b.core = a.core) : b.pinObject = a.pinObject := by
  have hstorage : b.storage = a.storage := congrArg Core.storage h
  have hfailures : b.pinFailuresSinceReset = a.pinFailuresSinceReset := congrArg Core.failures h
  have htoken : b.pinUvAuthToken = a.pinUvAuthToken := congrArg Core.token h
  simp only [pinObject, storedPin, hstorage, hfailures, htoken]

omit [LawfulBackend β] in
theorem pinFailureError_eq (a : Auth β) : a.pinFailureError = a.pinObject.failure := by
  by_cases hretries : a.storage.readRetries = 0
  · simp [pinFailureError, PinObject.failure, pinObject, hretries]
  · by_cases hblocked : pinBlockThreshold ≤ a.pinFailuresSinceReset
    · simp [pinFailureError, PinObject.failure, pinObject, hretries, isPinAuthBlocked, hblocked]
    · simp [pinFailureError, PinObject.failure, pinObject, hretries, isPinAuthBlocked, hblocked]

theorem pinObject_decrement (mark : Mark) (a : Auth β) :
    ((decrementPinRetries mark).run a).2.pinObject =
      { a.pinObject with retries := a.pinObject.retries - 1 } := by
  have hpin := storedPin_decrementPinRetries mark a
  have hretries := readRetries_decrement mark a
  simp only [pinObject, hpin, hretries]
  rfl

theorem pinObject_resetPinRetries (mark : Mark) (a : Auth β) :
    ((resetPinRetries mark).run a).2.pinObject = a.pinObject.matched := by
  have hpin := storedPin_resetPinRetries mark a
  have hretries : ((resetPinRetries mark).run a).2.storage.readRetries = pinMaxRetries :=
    readDecimal_saved (StorageEngine.saved_run_store _ _ a.storage) (by decide) _
  simp only [pinObject, hpin, hretries, PinObject.matched]
  rfl

theorem pinObject_storePinHash (mark : Mark) (pin : Bytes) (a : Auth β) :
    ∃ b, (storePinHash mark pin).run a = (.ok (), b) ∧
      b.pinObject = { a.pinObject with pin := some (pinHash a.crypto pin) } := by
  have hsaved := StorageEngine.saved_store pinStorageKey (pinHash a.crypto pin) a.storage
  rw [storePinHash, Prog.run_read_bind]
  refine ⟨_, run_onStorage_ok (StorageEngine.run_store _ _ _), ?_⟩
  have hpin := (hsaved.value_eq pinStorageKey).trans (if_pos rfl)
  have hretries := readDecimal_congr ((hsaved.value_eq pinRetriesKey).trans (if_neg (by decide)))
    256 pinMaxRetries
  simp only [pinObject, storedPin, StorageEngine.readRetries, hpin, hretries]

/-- The check of a PIN is the attempt at the object. -/
theorem run_checkPinHash_attempt (path : PinPath) {protocol : PinUvProtocol}
    {secret pinHashEnc hash stored : Bytes} {a : Auth β} (hstored : a.storedPin = some stored)
    (hhash : protocol.decryptExact a.crypto.prims secret pinHashEnc pinHashLen = .ok hash) :
    ∃ b, b.pinUvAuthToken = a.pinUvAuthToken ∧ b.crypto = a.crypto ∧
      if hash = stored then
        (checkPinHash path protocol secret pinHashEnc).run a = (.ok (), b) ∧
          b.pinObject = a.pinObject.matched
      else
        (checkPinHash path protocol secret pinHashEnc).run a =
          (.error a.pinObject.missed.failure, b) ∧ b.pinObject = a.pinObject.missed := by
  have hobject := pinObject_decrement .checkBegun a
  have htake : (decrementPinRetries .checkBegun).run a =
      (.ok (), ((decrementPinRetries .checkBegun).run a).2) := rfl
  have hcrypto : ((decrementPinRetries .checkBegun : Ctap β Unit).run a).2.crypto = a.crypto := rfl
  have htoken : ((decrementPinRetries .checkBegun : Ctap β Unit).run a).2.pinUvAuthToken =
      a.pinUvAuthToken := rfl
  rw [checkPinHash, Prog.run_bind_of_ok htake]
  clear htake
  generalize ((decrementPinRetries .checkBegun).run a).2 = b at hobject hcrypto htoken
  have hvalue : b.storage.value pinStorageKey = some stored :=
    (congrArg PinObject.pin hobject).trans hstored
  have hcompare : (comparePinHash path hash).run b = (.ok (some (decide (hash = stored))),
      { b with log := .compared path (decide (hash = stored)) :: b.log }) := by
    simp only [comparePinHash, Prog.run_act, hvalue]
  rw [Prog.run_read_bind, hcrypto, hhash]
  by_cases hmatch : hash = stored
  · rw [decide_eq_true hmatch] at hcompare
    refine ⟨((resetPinRetries .checkPassed).run
      { b with log := .compared path true :: b.log }).2, htoken, hcrypto, ?_⟩
    rw [if_pos hmatch]
    refine ⟨Prog.run_bind_of_ok hcompare, ?_⟩
    rw [pinObject_resetPinRetries]
    show b.pinObject.matched = _
    rw [hobject]
    rfl
  · rw [decide_eq_false hmatch] at hcompare
    have hmissed : (countPinFailure { b with log := .compared path false :: b.log }).pinObject =
        a.pinObject.missed := by
      show { b.pinObject with failures := min (b.pinObject.failures + 1) 255 } = _
      rw [hobject]
      rfl
    refine ⟨countPinFailure { b with log := .compared path false :: b.log }, htoken, hcrypto, ?_⟩
    rw [if_neg hmatch, ← hmissed, ← pinFailureError_eq]
    exact ⟨Prog.run_bind_of_ok hcompare, rfl⟩

/-! ## Answers -/

/-- The response carries the token of the device, encrypted for the platform. -/
def HandsOver (platform : TestPlatform) (r : ClientPinResponse) (b : Auth β) : Prop :=
  match r.pinUvAuthToken with
  | none => b.pinUvAuthToken = none
  | some encrypted => ∃ token permissions rpId,
      platform.decrypt b.crypto.prims encrypted = some token ∧ token.length = 32 ∧
        b.pinUvAuthToken = some ⟨token, permissions, rpId, platform.protocol.version⟩

/-- A handler answers as the object does. -/
structure Realises (a : Auth β) (platform : TestPlatform)
    (run : Except Ctap2Error ClientPinResponse × Auth β)
    (ideal : Except Ctap2Error Unit × PinObject) : Prop where
  object : run.2.pinObject = ideal.2
  refused : ∀ error, ideal.1 = .error error →
    run.1 = .error error ∧ run.2.pinUvAuthToken = a.pinUvAuthToken
  granted : ideal.1 = .ok () → ∃ r, run.1 = .ok r ∧ HandsOver platform r run.2

omit [LawfulBackend β] in
theorem Realises.of_error {a b : Auth β} {platform : TestPlatform}
    {run : Except Ctap2Error ClientPinResponse × Auth β} {error : Ctap2Error} {o : PinObject}
    (hrun : run = (.error error, b)) (hobject : b.pinObject = o)
    (htoken : b.pinUvAuthToken = a.pinUvAuthToken) : Realises a platform run (.error error, o) := by
  subst hrun
  refine ⟨hobject, ?_, nofun⟩
  rintro _ ⟨⟩
  exact ⟨rfl, htoken⟩

omit [LawfulBackend β] in
theorem Realises.of_ok {a b : Auth β} {platform : TestPlatform}
    {run : Except Ctap2Error ClientPinResponse × Auth β} {r : ClientPinResponse} {o : PinObject}
    (hrun : run = (.ok r, b)) (hobject : b.pinObject = o) (hhands : HandsOver platform r b) :
    Realises a platform run (.ok (), o) := by
  subst hrun
  exact ⟨hobject, nofun, fun _ => ⟨r, rfl, hhands⟩⟩

omit [LawfulBackend β] in
theorem Realises.of_core {a a' : Auth β} {platform : TestPlatform}
    {run : Except Ctap2Error ClientPinResponse × Auth β}
    {ideal : Except Ctap2Error Unit × PinObject} (h : Realises a' platform run ideal)
    (hcore : a'.core = a.core) : Realises a platform run ideal where
  object := h.object
  refused error herror := by
    obtain ⟨hresult, htoken⟩ := h.refused error herror
    exact ⟨hresult, htoken.trans (congrArg Core.token hcore)⟩
  granted := h.granted

omit [StorageBackend β] [LawfulBackend β] in
/-- The agreed secret is derived, and the core stays. -/
theorem Agreed.run {a : Auth β} {platform : TestPlatform} (h : a.Agreed platform) :
    ∃ b, (performKeyAgreement platform.protocol platform.cose).run a = (.ok platform.secret, b) ∧
      b.core = a.core := by
  have heq := (agreedSecret_eq platform.protocol platform.cose a).trans h.secret
  cases hrun : (performKeyAgreement platform.protocol platform.cose).run a with
  | mk result b =>
      rw [hrun] at heq
      cases result with
      | error error => cases heq
      | ok secret =>
          cases heq
          exact ⟨b, rfl, core_of_quiet (quiet_performKeyAgreement _ _) hrun⟩

/-- The object lets a PIN be tried. -/
def Open (a : Auth β) (stored : Bytes) : Prop :=
  a.storedPin = some stored ∧ a.getPinRetries ≠ 0 ∧ a.isPinAuthBlocked = false

omit [LawfulBackend β] in
theorem Open.of_core {a b : Auth β} {stored : Bytes} (h : a.Open stored) (hcore : b.core = a.core) :
    b.Open stored := by
  obtain ⟨hstored, hleft, hunblocked⟩ := h
  have hobject := pinObject_of_core hcore
  refine ⟨(congrArg PinObject.pin hobject).trans hstored, ?_, ?_⟩
  · intro hzero
    exact hleft ((congrArg PinObject.retries hobject).symm.trans hzero)
  · have hfailures : b.pinFailuresSinceReset = a.pinFailuresSinceReset :=
      congrArg PinObject.failures hobject
    rw [isPinAuthBlocked, hfailures]
    exact hunblocked

/-- A check and what follows it answer as an unlocked object. -/
theorem realises_unlock {a : Auth β} {platform : TestPlatform} (path : PinPath)
    {pinHashEnc hash stored : Bytes} {k : Unit → Ctap β ClientPinResponse}
    {next : PinObject → Except Ctap2Error Unit × PinObject} (hopen : a.Open stored)
    (hhash : platform.protocol.decryptExact a.crypto.prims platform.secret pinHashEnc pinHashLen =
      .ok hash)
    (hnext : ∀ b, b.pinUvAuthToken = a.pinUvAuthToken → b.crypto = a.crypto →
      b.pinObject = a.pinObject.matched →
      Realises a platform ((k ()).run b) (next a.pinObject.matched)) :
    Realises a platform
      ((checkPinHash path platform.protocol platform.secret pinHashEnc >>= k).run a)
      (a.pinObject.unlock hash next) := by
  obtain ⟨hstored, hleft, hblocked⟩ := hopen
  have hpin : a.pinObject.pin = some stored := hstored
  have hretries : ¬a.pinObject.retries = 0 := hleft
  have hfailures : ¬pinBlockThreshold ≤ a.pinObject.failures := of_decide_eq_false hblocked
  obtain ⟨b, htoken, hcrypto, hcheck⟩ := run_checkPinHash_attempt path hstored hhash
  rw [PinObject.unlock, PinObject.attempt, hpin]
  simp only [if_neg hretries, if_neg hfailures]
  by_cases hmatch : hash = stored
  · rw [if_pos hmatch] at hcheck
    rw [if_pos hmatch, Prog.run_bind_of_ok hcheck.1]
    exact hnext b htoken hcrypto hcheck.2
  · rw [if_neg hmatch] at hcheck
    rw [if_neg hmatch]
    exact .of_error (Prog.run_bind_of_error hcheck.1) hcheck.2 htoken

omit [LawfulBackend β] in
/-- Whether a PIN may be tried, with the status if it may not. -/
theorem open_cases (a : Auth β) (hash : Bytes)
    (next : PinObject → Except Ctap2Error Unit × PinObject) :
    (a.storage.isPinSet = false ∧
        a.pinObject.unlock hash next = (.error .pinNotSet, a.pinObject)) ∨
      (a.storage.isPinSet = true ∧ a.getPinRetries = 0 ∧
        a.pinObject.unlock hash next = (.error .pinBlocked, a.pinObject)) ∨
      (a.storage.isPinSet = true ∧ a.getPinRetries ≠ 0 ∧ a.isPinAuthBlocked = true ∧
        a.pinObject.unlock hash next = (.error .pinAuthBlocked, a.pinObject)) ∨
      a.storage.isPinSet = true ∧ ∃ stored, a.Open stored := by
  cases hpin : a.storedPin with
  | none =>
      have hobject : a.pinObject.pin = none := hpin
      refine .inl ⟨congrArg Option.isSome hpin, ?_⟩
      rw [PinObject.unlock, PinObject.attempt, hobject]
  | some stored =>
      have hobject : a.pinObject.pin = some stored := hpin
      have hset : a.storage.isPinSet = true := congrArg Option.isSome hpin
      by_cases hretries : a.getPinRetries = 0
      · refine .inr (.inl ⟨hset, hretries, ?_⟩)
        have hleft : a.pinObject.retries = 0 := hretries
        rw [PinObject.unlock, PinObject.attempt, hobject]
        simp only [if_pos hleft]
      · have hleft : ¬a.pinObject.retries = 0 := hretries
        by_cases hblocked : a.isPinAuthBlocked = true
        · refine .inr (.inr (.inl ⟨hset, hretries, hblocked, ?_⟩))
          have hfailures : pinBlockThreshold ≤ a.pinObject.failures := of_decide_eq_true hblocked
          rw [PinObject.unlock, PinObject.attempt, hobject]
          simp only [if_neg hleft, if_pos hfailures]
        · exact .inr (.inr (.inr ⟨hset, stored, hpin, hretries, by simpa using hblocked⟩))

omit [LawfulBackend β] in
/-- A token that is issued can be decrypted. -/
theorem run_issue {platform : TestPlatform} {a : Auth β} (haes : AesSound a.crypto.prims)
    (hlength : platform.secret.length = platform.protocol.secretLen) (permissions : UInt8)
    (rpId : Option String) :
    ∃ encrypted b, (issuePinUvAuthToken platform.protocol platform.secret permissions rpId).run a =
        (.ok encrypted, b) ∧
      b.pinObject = { a.pinObject with
        grant := some ⟨platform.protocol.version, permissions, rpId⟩ } ∧
      HandsOver platform { ClientPinResponse.default with pinUvAuthToken := some encrypted } b := by
  obtain ⟨token, b, hdraw, hcore, htoken⟩ : ∃ token b,
      (randomBytes 32 : Ctap β Bytes).run a = (.ok token, b) ∧ b.core = a.core ∧
        token.length = 32 := ⟨_, _, rfl, rfl, Entropy.length_bytes _ _⟩
  obtain ⟨iv, c, hiv, hcore'⟩ : ∃ iv c, (drawIv platform.protocol : Ctap β Entropy).run b =
      (.ok iv, c) ∧ c.core = b.core := by
    cases platform.protocol with
    | one => exact ⟨_, b, rfl, rfl⟩
    | two => exact ⟨_, _, rfl, rfl⟩
  have hc : c.core = a.core := hcore'.trans hcore
  have hcrypto : c.crypto = a.crypto := congrArg Core.crypto hc
  have hblocks : token.length % aesBlockLen = 0 := by
    rw [htoken]
    rfl
  obtain ⟨encrypted, hencrypted⟩ : ∃ encrypted,
      platform.protocol.encrypt c.crypto.prims iv platform.secret token = .ok encrypted :=
    PinUvProtocol.encrypt_total iv hlength hblocks
  have hencrypt : (encryptWith platform.protocol platform.secret token).run b =
      (.ok encrypted, c) := by
    rw [encryptWith, Prog.run_bind_of_ok hiv, Prog.run_check, hencrypted]
    rfl
  have haes' : AesSound c.crypto.prims := hcrypto ▸ haes
  refine ⟨encrypted, _, (Prog.run_bind_of_ok hdraw).trans (Prog.run_bind_of_ok hencrypt), ?_,
    token, permissions, rpId, ?_, htoken, rfl⟩
  · rw [← pinObject_of_core hc]
    rfl
  · show (platform.protocol.decrypt c.crypto.prims platform.secret encrypted).toOption = _
    rw [PinUvProtocol.decrypt_encrypt haes' hencrypted]
    rfl

/-- The steps that the token subcommands share answer as the object. -/
theorem realises_getPinTokenCommon {a : Auth β} {platform : TestPlatform}
    {request : ClientPinRequest} {pinHashEnc hash : Bytes} (haes : AesSound a.crypto.prims)
    (hagreed : a.Agreed platform)
    (hfree : a.storage.isForceChangePin = false)
    (hpeer : request.keyAgreement = some platform.cose)
    (henc : request.pinHashEnc = some pinHashEnc)
    (hhash : platform.protocol.decryptExact a.crypto.prims platform.secret pinHashEnc pinHashLen =
      .ok hash) (permissions : UInt8) (rpId : Option String) :
    Realises a platform
      ((handleGetPinTokenCommon request platform.protocol permissions rpId).run a)
      (a.pinObject.unlock hash fun o => (.ok (),
        { o with grant := some ⟨platform.protocol.version, permissions, rpId⟩ })) := by
  have hforce : (!a.storage.isForceChangePin) = true := by rw [hfree]; rfl
  rcases open_cases a hash fun o => (.ok (),
      { o with grant := some ⟨platform.protocol.version, permissions, rpId⟩ }) with
    ⟨hunset, hideal⟩ | ⟨hset, hretries, hideal⟩ | ⟨hset, hretries, hblocked, hideal⟩ |
      ⟨hset, stored, hopen⟩
  · rw [hideal]
    exact .of_error (Prog.run_ensure_bind_error hunset) rfl rfl
  · rw [hideal]
    refine .of_error ((Prog.run_ensure_bind ?_).trans <| (Prog.run_ensure_bind ?_).trans <|
      Prog.run_ensure_bind_error ?_) rfl rfl
    · exact hset
    · exact hforce
    · simp [hretries]
  · rw [hideal]
    refine .of_error ((Prog.run_ensure_bind ?_).trans <| (Prog.run_ensure_bind ?_).trans <|
      (Prog.run_ensure_bind ?_).trans <| Prog.run_ensure_bind_error ?_) rfl rfl
    · exact hset
    · exact hforce
    · simpa using hretries
    · simp [hblocked]
  · obtain ⟨b, hsecret, hcore⟩ := hagreed.run
    have hobject := pinObject_of_core hcore
    have hcrypto : b.crypto = a.crypto := congrArg Core.crypto hcore
    have hsteps : (handleGetPinTokenCommon request platform.protocol permissions rpId).run a =
        (checkPinHash .pinToken platform.protocol platform.secret pinHashEnc >>= fun _ =>
          issuePinUvAuthToken platform.protocol platform.secret permissions rpId >>= fun tokenEnc =>
            pure { ClientPinResponse.default with pinUvAuthToken := some tokenEnc }).run b := by
      refine (Prog.run_ensure_bind ?_).trans <| (Prog.run_ensure_bind ?_).trans <|
        (Prog.run_ensure_bind ?_).trans <| (Prog.run_ensure_bind ?_).trans <|
        (Prog.run_bind_of_ok (run_required hpeer a)).trans <|
        (Prog.run_bind_of_ok (run_required henc a)).trans <| Prog.run_bind_of_ok hsecret
      · exact hset
      · exact hforce
      · simpa using hopen.2.1
      · simpa using hopen.2.2
    rw [hsteps, ← hobject]
    refine (realises_unlock .pinToken (hopen.of_core hcore) (hcrypto ▸ hhash) ?_).of_core hcore
    intro c htoken hsame hmatched
    have haes' : AesSound c.crypto.prims := hsame ▸ hcrypto ▸ haes
    obtain ⟨encrypted, d, hissue, hafter, hhands⟩ :=
      run_issue haes' hagreed.length permissions rpId
    rw [hmatched] at hafter
    exact .of_ok (Prog.run_bind_of_ok hissue) hafter hhands

omit [StorageBackend β] [LawfulBackend β] in
/-- A new PIN is decrypted, and refused only for its length. -/
theorem run_decryptNewPin {protocol : PinUvProtocol} {secret newPinEnc padded pin : Bytes}
    {a : Auth β} (hdecrypt : protocol.decrypt a.crypto.prims secret newPinEnc = .ok padded)
    (hlength : padded.length = 64) (hstrip : stripZeroPadding padded = .ok pin) :
    (decryptNewPin protocol secret newPinEnc).run a =
      (if pinLengthOk pin then .ok pin else .error .pinPolicyViolation, a) := by
  rw [decryptNewPin, Prog.run_check, hdecrypt]
  simp only [hlength, ne_eq, not_true, if_false, hstrip]

/-- What a platform sends for a PIN, and what the authenticator makes of it. -/
structure Wraps (prims : Primitives) (platform : TestPlatform) (pin newPinEnc : Bytes) : Prop where
  decrypts : ∃ padded, platform.protocol.decrypt prims platform.secret newPinEnc = .ok padded ∧
    padded.length = 64 ∧ stripZeroPadding padded = .ok pin

/-- setPIN answers as the object. -/
theorem realises_setPin {a : Auth β} {platform : TestPlatform} {request : ClientPinRequest}
    {pin newPinEnc pinAuth : Bytes} (hagreed : a.Agreed platform)
    (hprotocol : request.pinProtocol = some platform.protocol.version)
    (hpeer : request.keyAgreement = some platform.cose)
    (henc : request.newPinEnc = some newPinEnc) (hauth : request.pinAuth = some pinAuth)
    (hmac : platform.protocol.authenticate a.crypto.prims platform.secret newPinEnc = .ok pinAuth)
    (hwraps : Wraps a.crypto.prims platform pin newPinEnc) :
    Realises a platform ((handleSetPin request).run a)
      (if a.pinObject.pin.isSome then (.error .pinAuthInvalid, a.pinObject)
        else a.pinObject.put pin (pinHash a.crypto pin) a.pinObject.matched) := by
  have hversion := run_validateProtocol hprotocol platform.protocol.new_version a
  have hset : a.storage.isPinSet = a.pinObject.pin.isSome := rfl
  by_cases hpin : a.pinObject.pin.isSome = true
  · rw [if_pos hpin]
    refine .of_error ((Prog.run_bind_of_ok hversion).trans (Prog.run_ensure_bind_error ?_)) rfl rfl
    rw [hset, hpin]
    rfl
  rw [if_neg hpin]
  obtain ⟨b, hsecret, hcore⟩ := hagreed.run
  have hcrypto : b.crypto = a.crypto := congrArg Core.crypto hcore
  have hverify : (verifyWith platform.protocol platform.secret newPinEnc pinAuth).run b =
      (.ok (), b) := by
    rw [verifyWith, Prog.run_check, hcrypto, PinUvProtocol.verify, hmac]
    simp [bind, Except.bind]
  obtain ⟨padded, hdecrypt, hlength, hstrip⟩ := hwraps.decrypts
  have hnew := run_decryptNewPin (hcrypto.symm ▸ hdecrypt) hlength hstrip
  have hsteps : (handleSetPin request).run a =
      (decryptNewPin platform.protocol platform.secret newPinEnc >>= fun newPin =>
        setPin newPin >>= fun _ => pure .default).run b := by
    refine (Prog.run_bind_of_ok hversion).trans <| (Prog.run_ensure_bind ?_).trans <|
      (Prog.run_bind_of_ok (run_required hpeer a)).trans <|
      (Prog.run_bind_of_ok (run_required henc a)).trans <|
      (Prog.run_bind_of_ok (run_required hauth a)).trans <| (Prog.run_bind_of_ok hsecret).trans <|
      Prog.run_bind_of_ok hverify
    rw [hset]
    simpa using hpin
  have hobject := pinObject_of_core hcore
  rw [hsteps, PinObject.put]
  by_cases hok : pinLengthOk pin = true
  · rw [if_pos hok] at hnew
    rw [if_pos hok, Prog.run_bind_of_ok hnew]
    obtain ⟨c, hstore, hstored⟩ := pinObject_storePinHash .pinSet pin b
    have hreset : (resetPinRetries .ordinary).run c =
        (.ok (), ((resetPinRetries .ordinary).run c).2) := rfl
    have hmatched := pinObject_resetPinRetries .ordinary c
    have hsetPin : (setPin pin).run b = (.ok (),
        { ((resetPinRetries .ordinary).run c).2 with pinUvAuthToken := none }) := by
      refine (Prog.run_ensure_bind ?_).trans <| (Prog.run_bind_of_ok hstore).trans <|
        Prog.run_bind_of_ok hreset
      exact hok
    have hnone : HandsOver platform .default
        { ((resetPinRetries .ordinary).run c).2 with pinUvAuthToken := none } := rfl
    refine .of_ok (Prog.run_bind_of_ok hsetPin) ?_ hnone
    show { ((resetPinRetries .ordinary).run c).2.pinObject with grant := none } = _
    rw [hmatched, hstored, hobject, hcrypto]
    rfl
  · rw [if_neg hok] at hnew
    rw [if_neg hok]
    exact .of_error (Prog.run_bind_of_error hnew) hobject (congrArg Core.token hcore)

/-- changePIN answers as the object. -/
theorem realises_changePin {a : Auth β} {platform : TestPlatform} {request : ClientPinRequest}
    {hash pin newPinEnc pinHashEnc pinAuth : Bytes} (hagreed : a.Agreed platform)
    (hprotocol : request.pinProtocol = some platform.protocol.version)
    (hpeer : request.keyAgreement = some platform.cose)
    (hhashEnc : request.pinHashEnc = some pinHashEnc) (henc : request.newPinEnc = some newPinEnc)
    (hauth : request.pinAuth = some pinAuth)
    (hmac : platform.protocol.authenticate a.crypto.prims platform.secret
      (newPinEnc ++ pinHashEnc) = .ok pinAuth)
    (hhash : platform.protocol.decryptExact a.crypto.prims platform.secret pinHashEnc pinHashLen =
      .ok hash) (hwraps : Wraps a.crypto.prims platform pin newPinEnc) :
    Realises a platform ((handleChangePin request).run a)
      (a.pinObject.unlock hash fun o => o.put pin (pinHash a.crypto pin) o) := by
  have hversion := run_validateProtocol hprotocol platform.protocol.new_version a
  rcases open_cases a hash fun o => o.put pin (pinHash a.crypto pin) o with
    ⟨hunset, hideal⟩ | ⟨hset, hretries, hideal⟩ | ⟨hset, hretries, hblocked, hideal⟩ |
      ⟨hset, stored, hopen⟩
  · rw [hideal]
    refine .of_error ((Prog.run_bind_of_ok hversion).trans (Prog.run_ensure_bind_error ?_)) rfl rfl
    exact hunset
  · rw [hideal]
    refine .of_error ((Prog.run_bind_of_ok hversion).trans <| (Prog.run_ensure_bind ?_).trans <|
      Prog.run_ensure_bind_error ?_) rfl rfl
    · exact hset
    · simp [hretries]
  · rw [hideal]
    refine .of_error ((Prog.run_bind_of_ok hversion).trans <| (Prog.run_ensure_bind ?_).trans <|
      (Prog.run_ensure_bind ?_).trans <| Prog.run_ensure_bind_error ?_) rfl rfl
    · exact hset
    · simpa using hretries
    · simp [hblocked]
  · obtain ⟨b, hsecret, hcore⟩ := hagreed.run
    have hobject := pinObject_of_core hcore
    have hcrypto : b.crypto = a.crypto := congrArg Core.crypto hcore
    have hverify : (verifyWith platform.protocol platform.secret (newPinEnc ++ pinHashEnc)
        pinAuth).run b = (.ok (), b) := by
      rw [verifyWith, Prog.run_check, hcrypto, PinUvProtocol.verify, hmac]
      simp [bind, Except.bind]
    have hsteps : (handleChangePin request).run a =
        (checkPinHash .changePin platform.protocol platform.secret pinHashEnc >>= fun _ =>
          decryptNewPin platform.protocol platform.secret newPinEnc >>= fun newPin =>
            invalidatePinUvAuthToken >>= fun _ => storePinHash .ordinary newPin >>= fun _ =>
              pure .default).run b := by
      refine (Prog.run_bind_of_ok hversion).trans <| (Prog.run_ensure_bind ?_).trans <|
        (Prog.run_ensure_bind ?_).trans <| (Prog.run_ensure_bind ?_).trans <|
        (Prog.run_bind_of_ok (run_required hpeer a)).trans <|
        (Prog.run_bind_of_ok (run_required hhashEnc a)).trans <|
        (Prog.run_bind_of_ok (run_required henc a)).trans <|
        (Prog.run_bind_of_ok (run_required hauth a)).trans <|
        (Prog.run_bind_of_ok hsecret).trans <| Prog.run_bind_of_ok hverify
      · exact hset
      · simpa using hopen.2.1
      · simpa using hopen.2.2
    rw [hsteps, ← hobject]
    refine (realises_unlock .changePin (hopen.of_core hcore) (hcrypto ▸ hhash) ?_).of_core hcore
    intro c htoken hsame hmatched
    obtain ⟨padded, hdecrypt, hlength, hstrip⟩ := hwraps.decrypts
    have hprims : c.crypto = a.crypto := hsame.trans hcrypto
    have hnew := run_decryptNewPin (hprims.symm ▸ hdecrypt) hlength hstrip
    rw [PinObject.put]
    by_cases hok : pinLengthOk pin = true
    · rw [if_pos hok] at hnew
      rw [if_pos hok, Prog.run_bind_of_ok hnew]
      obtain ⟨d, hstore, hstored⟩ :=
        pinObject_storePinHash .ordinary pin { c with pinUvAuthToken := none }
      have hdrop : invalidatePinUvAuthToken.run c =
          (.ok (), { c with pinUvAuthToken := none }) := rfl
      have hnone : d.pinUvAuthToken = none := by
        have hgrant := congrArg PinObject.grant hstored
        exact Option.map_eq_none_iff.mp hgrant
      refine .of_ok ((Prog.run_bind_of_ok hdrop).trans (Prog.run_bind_of_ok hstore)) ?_ hnone
      rw [hstored]
      show { c.pinObject with pin := some (pinHash c.crypto pin), grant := none } = _
      rw [hmatched, hprims]
    · rw [if_neg hok] at hnew
      rw [if_neg hok]
      exact .of_error (Prog.run_bind_of_error hnew) hmatched htoken

/-! ## What the platform sends -/

section Requests

variable {prims : Primitives} {platform : TestPlatform}

theorem encrypt_some (haes : AesSound prims)
    (hlength : platform.secret.length = platform.protocol.secretLen) (iv : Entropy)
    (plaintext : Bytes) (hblocks : plaintext.length % aesBlockLen = 0) :
    ∃ encrypted, platform.encrypt prims iv plaintext = some encrypted ∧
      platform.protocol.decrypt prims platform.secret encrypted = .ok plaintext ∧
      encrypted.length ≤ plaintext.length + aesBlockLen := by
  obtain ⟨encrypted, hencrypted⟩ : ∃ encrypted,
      platform.protocol.encrypt prims iv platform.secret plaintext = .ok encrypted :=
    PinUvProtocol.encrypt_total iv hlength hblocks
  refine ⟨encrypted, ?_, PinUvProtocol.decrypt_encrypt haes hencrypted,
    PinUvProtocol.length_encrypt haes hencrypted⟩
  rw [TestPlatform.encrypt, hencrypted]
  rfl

theorem authenticate_some (hlength : platform.secret.length = platform.protocol.secretLen)
    (message : Bytes) : ∃ mac, platform.authenticate prims message = some mac ∧
      platform.protocol.authenticate prims platform.secret message = .ok mac ∧
      mac.length ≤ 32 := by
  obtain ⟨mac, hmac⟩ := @PinUvProtocol.authenticate_total prims _ _ message (.inr hlength)
  refine ⟨mac, ?_, hmac, PinUvProtocol.length_authenticate hmac⟩
  rw [TestPlatform.authenticate, hmac]
  rfl

theorem length_hashPin (prims : Primitives) (pin : Bytes) :
    (TestPlatform.hashPin prims pin).length = 16 := by
  rw [TestPlatform.hashPin, List.length_take, prims.length_sha256]
  rfl

/-- The hash of a PIN is encrypted, and comes out as a whole. -/
theorem hash_some (haes : AesSound prims)
    (hlength : platform.secret.length = platform.protocol.secretLen) (iv : Entropy)
    (pin : Bytes) : ∃ encrypted,
      platform.encrypt prims iv (TestPlatform.hashPin prims pin) = some encrypted ∧
      platform.protocol.decryptExact prims platform.secret encrypted pinHashLen =
        .ok (TestPlatform.hashPin prims pin) ∧ encrypted.length < 2 ^ 64 := by
  have hhash := length_hashPin prims pin
  obtain ⟨encrypted, hencrypted, hdecrypt, hshort⟩ := encrypt_some haes hlength iv
    (TestPlatform.hashPin prims pin) (by rw [hhash]; rfl)
  have hsixteen : aesBlockLen = 16 := rfl
  refine ⟨encrypted, hencrypted, ?_, by omega⟩
  have hwhole : ¬(TestPlatform.hashPin prims pin).length < pinHashLen := by
    rw [hhash]
    decide
  rw [PinUvProtocol.decryptExact, hdecrypt]
  simp only [bind, Except.bind, if_neg hwhole, Except.ok.injEq]
  exact List.take_of_length_le (Nat.le_of_eq hhash)

/-- A typed PIN is padded and encrypted, and comes out again. -/
theorem pin_some (haes : AesSound prims)
    (hlength : platform.secret.length = platform.protocol.secretLen) (iv : Entropy)
    (pin : TypedPin) : ∃ padded newPinEnc, (zeroPadTo64 pin.bytes).toOption = some padded ∧
      platform.encrypt prims iv padded = some newPinEnc ∧
      Wraps prims platform pin.bytes newPinEnc ∧ newPinEnc.length < 2 ^ 64 := by
  obtain ⟨padded, hpadded, hstrip⟩ := zeroPadTo64_strip pin.nonempty pin.fits pin.last
  have hsixtyFour : padded.length = 64 := by
    have hfits := pin.fits
    have hpad : pinPadLen = 64 := rfl
    rw [zeroPadTo64, if_neg (by rw [hpad]; omega)] at hpadded
    cases hpadded
    rw [List.length_append, List.length_replicate, hpad]
    omega
  obtain ⟨newPinEnc, hencrypted, hdecrypt, hshort⟩ := encrypt_some haes hlength iv
    padded (by rw [hsixtyFour]; rfl)
  have hsixteen : aesBlockLen = 16 := rfl
  refine ⟨padded, newPinEnc, ?_, hencrypted, ⟨padded, hdecrypt, hsixtyFour, hstrip⟩, by omega⟩
  rw [hpadded]
  rfl

/-- A request with a key is short enough if the parameters are. -/
theorem fits_requestWithKey (hpoint : platform.clientPublic.length = 65) (subCommand : Nat)
    (hsub : subCommand < 256) : (platform.requestWithKey subCommand).Fits where
  pinProtocol n hn := by
    cases hn
    cases platform.protocol <;> decide
  subCommand := hsub
  keyAgreement key hkey := by
    cases hkey
    simp [TestPlatform.cose, hpoint]
  pinAuth := nofun
  newPinEnc := nofun
  pinHashEnc := nofun
  rpId := nofun

end Requests

omit [LawfulBackend β] in
/-- What is left of a subcommand that asks for permissions. -/
theorem run_withPermissions {request : ClientPinRequest} {protocol : PinUvProtocol} {a : Auth β}
    {permissions : UInt8} (hsub : request.subCommand = 0x09)
    (hprotocol : request.pinProtocol = some protocol.version)
    (hpermissions : request.permissions = some permissions) :
    (clientPinSubCommand request).run a =
      match grantable a.capabilities.options permissions request.rpId with
      | .error error => (.error error, a)
      | .ok () => (handleGetPinTokenCommon request protocol permissions request.rpId).run a := by
  have hversion := run_validateProtocol hprotocol protocol.new_version a
  have hneeded := run_required hpermissions a
  rw [clientPinSubCommand, hsub]
  refine (Prog.run_bind_of_ok hversion).trans <| (Prog.run_bind_of_ok hneeded).trans ?_
  rw [grantable]
  by_cases hzero : permissions = 0
  · rw [if_pos hzero]
    refine Prog.run_bind_of_error (Prog.run_ensure_bind_error ?_)
    simp [hzero]
  rw [if_neg hzero]
  by_cases hoffered : (permissionOptions.all fun need =>
      permissions &&& need.1 == 0 || a.capabilities.options.contains need.2) = false
  · rw [if_pos hoffered]
    refine Prog.run_bind_of_error ((Prog.run_ensure_bind ?_).trans ?_)
    · simpa using hzero
    · rw [Prog.run_ensure, hoffered]
      rfl
  rw [if_neg hoffered]
  have hvalid : (validatePermissions permissions).run a = (.ok (), a) :=
    run_validatePermissions (by simpa using hzero) (Bool.eq_true_of_not_eq_false hoffered)
  by_cases hbound : (permissions &&& (permissionMc ||| permissionGa) == 0 ||
      request.rpId.isSome) = false
  · rw [if_pos hbound]
    exact (Prog.run_bind_of_ok hvalid).trans (Prog.run_ensure_bind_error hbound)
  · rw [if_neg hbound]
    exact (Prog.run_bind_of_ok hvalid).trans 
      (Prog.run_ensure_bind (Bool.eq_true_of_not_eq_false hbound))

/-- getPinToken answers as the object. -/
theorem realises_getPinToken {a : Auth β} {platform : TestPlatform} {request : ClientPinRequest}
    {pinHashEnc hash : Bytes} (haes : AesSound a.crypto.prims) (hagreed : a.Agreed platform)
    (hfree : a.storage.isForceChangePin = false) (hsub : request.subCommand = 0x05)
    (hprotocol : request.pinProtocol = some platform.protocol.version)
    (hplain : request.permissions = none ∧ request.rpId = none)
    (hpeer : request.keyAgreement = some platform.cose)
    (henc : request.pinHashEnc = some pinHashEnc)
    (hhash : platform.protocol.decryptExact a.crypto.prims platform.secret pinHashEnc pinHashLen =
      .ok hash) :
    Realises a platform ((clientPinSubCommand request).run a)
      (a.pinObject.unlock hash fun o => (.ok (), { o with
        grant := some ⟨platform.protocol.version, permissionMc ||| permissionGa, none⟩ })) := by
  have hversion := run_validateProtocol hprotocol platform.protocol.new_version a
  have hsteps : (clientPinSubCommand request).run a = (handleGetPinTokenCommon request
      platform.protocol (permissionMc ||| permissionGa) none).run a := by
    rw [clientPinSubCommand, hsub]
    refine (Prog.run_bind_of_ok hversion).trans (Prog.run_ensure_bind ?_)
    rw [hplain.1, hplain.2]
    rfl
  rw [hsteps]
  exact realises_getPinTokenCommon haes hagreed hfree hpeer henc hhash _ none

/-- So does getPinUvAuthTokenUsingPinWithPermissions. -/
theorem realises_withPermissions {a : Auth β} {platform : TestPlatform}
    {request : ClientPinRequest} {pinHashEnc hash : Bytes} {permissions : UInt8}
    (haes : AesSound a.crypto.prims) (hagreed : a.Agreed platform)
    (hfree : a.storage.isForceChangePin = false) (hsub : request.subCommand = 0x09)
    (hprotocol : request.pinProtocol = some platform.protocol.version)
    (hpermissions : request.permissions = some permissions)
    (hpeer : request.keyAgreement = some platform.cose)
    (henc : request.pinHashEnc = some pinHashEnc)
    (hhash : platform.protocol.decryptExact a.crypto.prims platform.secret pinHashEnc pinHashLen =
      .ok hash) :
    Realises a platform ((clientPinSubCommand request).run a)
      (match grantable a.capabilities.options permissions request.rpId with
        | .error error => (.error error, a.pinObject)
        | .ok () => a.pinObject.unlock hash fun o => (.ok (), { o with
            grant := some ⟨platform.protocol.version, permissions, request.rpId⟩ })) := by
  rw [run_withPermissions hsub hprotocol hpermissions]
  cases grantable a.capabilities.options permissions request.rpId with
  | error error => exact .of_error rfl rfl rfl
  | ok _ => exact realises_getPinTokenCommon haes hagreed hfree hpeer henc hhash permissions _

/-- The request of an operation exists, can be sent, and is answered as the object answers. -/
theorem realises_operate (cbor : Ciborium) {a : Auth β} {platform : TestPlatform}
    (haes : AesSound a.crypto.prims) (hagreed : a.Agreed platform)
    (hfree : a.storage.isForceChangePin = false) (iv iv' : Entropy) (op : PinOp) :
    ∃ request, op.request a.crypto.prims platform iv iv' = some request ∧ request.Fits ∧
      Carried cbor request ∧
      Realises a platform ((clientPinSubCommand request).run a)
        (op.ideal (pinHash a.crypto) a.capabilities.options platform.protocol.version
          a.pinObject) := by
  have hpoint := hagreed.point
  have hlength := hagreed.length
  cases op with
  | setPin pin =>
      obtain ⟨padded, newPinEnc, hpadded, hencrypt, hwraps, hshort⟩ := pin_some haes hlength iv pin
      obtain ⟨mac, hmac, hauth, hmacLen⟩ :=
        @authenticate_some a.crypto.prims platform hlength newPinEnc
      have hrequest : platform.setPin a.crypto.prims iv pin.bytes = some
          { platform.requestWithKey 0x03 with
            newPinEnc := some newPinEnc, pinAuth := some mac } := by
        simp only [TestPlatform.setPin, hpadded, hencrypt, hmac, Option.bind_eq_bind,
          Option.bind_some]
      refine ⟨_, hrequest, ?_, carried_setPin hpoint hrequest, ?_⟩
      · refine { fits_requestWithKey hpoint 0x03 (by decide) with pinAuth := ?_, newPinEnc := ?_ }
        · rintro _ ⟨⟩
          omega
        · rintro _ ⟨⟩
          exact hshort
      · exact realises_setPin hagreed rfl rfl rfl rfl hauth hwraps
  | changePin oldPin newPin =>
      obtain ⟨pinHashEnc, hhashEnc, hhash, hhashLen⟩ := hash_some haes hlength iv oldPin.bytes
      obtain ⟨padded, newPinEnc, hpadded, hencrypt, hwraps, hshort⟩ :=
        pin_some haes hlength iv' newPin
      obtain ⟨mac, hmac, hauth, hmacLen⟩ :=
        @authenticate_some a.crypto.prims platform hlength (newPinEnc ++ pinHashEnc)
      have hrequest : platform.changePin a.crypto.prims iv iv' oldPin.bytes newPin.bytes = some
          { platform.requestWithKey 0x04 with
            pinHashEnc := some pinHashEnc, newPinEnc := some newPinEnc, pinAuth := some mac } := by
        simp only [TestPlatform.changePin, hhashEnc, hpadded, hencrypt, hmac, Option.bind_eq_bind,
          Option.bind_some]
      refine ⟨_, hrequest, ?_, carried_changePin hpoint hrequest, ?_⟩
      · refine { fits_requestWithKey hpoint 0x04 (by decide) with
          pinAuth := ?_, newPinEnc := ?_, pinHashEnc := ?_ }
        · rintro _ ⟨⟩
          omega
        · rintro _ ⟨⟩
          exact hshort
        · rintro _ ⟨⟩
          exact hhashLen
      · exact realises_changePin hagreed rfl rfl rfl rfl rfl hauth hhash hwraps
  | getPinToken pin =>
      obtain ⟨pinHashEnc, hhashEnc, hhash, hhashLen⟩ := hash_some haes hlength iv pin.bytes
      have hrequest : platform.getPinToken a.crypto.prims iv pin.bytes = some
          { platform.requestWithKey 0x05 with pinHashEnc := some pinHashEnc } := by
        simp only [TestPlatform.getPinToken, hhashEnc, Option.bind_eq_bind, Option.bind_some]
      refine ⟨_, hrequest, ?_, carried_getPinToken hpoint hrequest, ?_⟩
      · refine { fits_requestWithKey hpoint 0x05 (by decide) with pinHashEnc := ?_ }
        rintro _ ⟨⟩
        exact hhashLen
      · exact realises_getPinToken haes hagreed hfree rfl rfl ⟨rfl, rfl⟩ rfl rfl hhash
  | getPinTokenWithPermissions pin permissions rpId =>
      obtain ⟨pinHashEnc, hhashEnc, hhash, hhashLen⟩ := hash_some haes hlength iv pin.bytes
      have hrequest : platform.getPinTokenWithPermissions a.crypto.prims iv pin.bytes permissions
          (rpId.map TypedRpId.text) = some { platform.requestWithKey 0x09 with
            pinHashEnc := some pinHashEnc, permissions := some permissions
            rpId := rpId.map TypedRpId.text } := by
        simp only [TestPlatform.getPinTokenWithPermissions, hhashEnc, Option.bind_eq_bind,
          Option.bind_some]
      refine ⟨_, hrequest, ?_, carried_getPinTokenWithPermissions hpoint hrequest, ?_⟩
      · refine { fits_requestWithKey hpoint 0x09 (by decide) with pinHashEnc := ?_, rpId := ?_ }
        · rintro _ ⟨⟩
          exact hhashLen
        · intro text htext
          obtain ⟨rpId, -, rfl⟩ := Option.map_eq_some_iff.mp htext
          exact rpId.fits
      · exact realises_withPermissions haes hagreed hfree rfl rfl rfl rfl rfl hhash

end Auth

end OpenKey
