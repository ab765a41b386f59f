import OpenKey.Ctap2.State

/-!
# ClientPIN

`crates/openkey-core/src/ctap2/client_pin.rs` and the trait `ClientPin` as the authenticator
implements it: the two wire forms of a request, the retry counter, the PIN checks and the tokens.
-/

namespace OpenKey

set_option autoImplicit false

/-- `PIN_MIN_LENGTH`. -/
def pinMinLength : Nat := 4

/-- `PIN_MAX_LENGTH`. -/
def pinMaxLength : Nat := 63

/-! ## Permissions -/

/-- `PERMISSION_MC`. -/
def permissionMc : UInt8 := 0x01

/-- `PERMISSION_GA`. -/
def permissionGa : UInt8 := 0x02

/-- `PERMISSION_CM`. -/
def permissionCm : UInt8 := 0x04

/-- `PERMISSION_BE`. -/
def permissionBe : UInt8 := 0x08

/-- `PERMISSION_LBW`. -/
def permissionLbw : UInt8 := 0x10

/-- `PERMISSION_ACFG`. -/
def permissionAcfg : UInt8 := 0x20

/-! ## Requests -/

/-- `CoseEc2Key`. -/
structure CoseEc2Key where
  x : Bytes
  y : Bytes
  deriving DecidableEq

namespace CoseEc2Key

/-- `to_uncompressed`. -/
def toUncompressed (key : CoseEc2Key) : Except Ctap2Error Bytes :=
  if key.x.length ≠ 32 ∨ key.y.length ≠ 32 then .error .invalidParameter
  else .ok (0x04 :: key.x ++ key.y)

/-- `to_cose_value`. -/
def toCoseValue (key : CoseEc2Key) : Value :=
  .map [(.integer (-3), .bytes key.y), (.integer (-2), .bytes key.x), (.integer (-1), .integer 1),
    (.integer 1, .integer 2), (.integer 3, .integer (-25))]

/-- What `from_cose_value` has collected so far. -/
structure Parts where
  kty : Option Int
  crv : Option Int
  x : Option Bytes
  y : Option Bytes

/-- One turn of the loop of `from_cose_value`. -/
def Parts.collect (parts : Parts) : Value × Value → Parts
  | (.integer key, .integer value) =>
      if toI64OrZero key = 1 then { parts with kty := some (toI64OrZero value) }
      else if toI64OrZero key = -1 then { parts with crv := some (toI64OrZero value) }
      else parts
  | (.integer key, .bytes value) =>
      if toI64OrZero key = -2 then { parts with x := some value }
      else if toI64OrZero key = -3 then { parts with y := some value }
      else parts
  | _ => parts

/-- `from_cose_value`. -/
def fromCoseValue : Value → Except Ctap2Error CoseEc2Key
  | .map entries =>
      let parts := entries.foldl Parts.collect ⟨none, none, none, none⟩
      if parts.kty ≠ some 2 ∨ parts.crv ≠ some 1 then .error .invalidParameter
      else
        match parts.x, parts.y with
        | some x, some y =>
            if x.length ≠ 32 ∨ y.length ≠ 32 then .error .invalidParameter else .ok ⟨x, y⟩
        | _, _ => .error .invalidParameter
  | _ => .error .invalidParameter

end CoseEc2Key

/-- `ClientPinRequest`. -/
structure ClientPinRequest where
  pinProtocol : Option Nat
  subCommand : Nat
  keyAgreement : Option CoseEc2Key
  pinAuth : Option Bytes
  newPinEnc : Option Bytes
  pinHashEnc : Option Bytes
  permissions : Option UInt8
  rpId : Option String

/-- `ClientPinRequest::default`. -/
def ClientPinRequest.default : ClientPinRequest where
  pinProtocol := none
  subCommand := 0
  keyAgreement := none
  pinAuth := none
  newPinEnc := none
  pinHashEnc := none
  permissions := none
  rpId := none

namespace ClientPinRequest

/-- `value_to_u8`. -/
def valueToU8 : Value → Except Ctap2Error Nat
  | .integer number => ((toI64 number).bind toU8).elim (.error .invalidParameter) .ok
  | _ => .error .invalidCbor

/-- `value_to_bytes`. -/
def valueToBytes : Value → Except Ctap2Error Bytes
  | .bytes bytes => .ok bytes
  | _ => .error .invalidCbor

/-- `value_to_text`. -/
def valueToText : Value → Except Ctap2Error String
  | .text text => .ok text
  | _ => .error .invalidCbor

/-- The fields of a request. -/
inductive Field
  | pinProtocol
  | subCommand
  | keyAgreement
  | pinAuth
  | newPinEnc
  | pinHashEnc
  | permissions
  | rpId
  deriving DecidableEq, Repr

/-- Read a field from its value. -/
def setField (request : ClientPinRequest) (field : Field) (value : Value) :
    Except Ctap2Error ClientPinRequest :=
  match field with
  | .pinProtocol => (valueToU8 value).map fun n => { request with pinProtocol := some n }
  | .subCommand => (valueToU8 value).map fun n => { request with subCommand := n }
  | .keyAgreement =>
      (CoseEc2Key.fromCoseValue value).map fun key => { request with keyAgreement := some key }
  | .pinAuth => (valueToBytes value).map fun bytes => { request with pinAuth := some bytes }
  | .newPinEnc => (valueToBytes value).map fun bytes => { request with newPinEnc := some bytes }
  | .pinHashEnc => (valueToBytes value).map fun bytes => { request with pinHashEnc := some bytes }
  | .permissions =>
      (valueToU8 value).map fun n => { request with permissions := some (UInt8.ofNat n) }
  | .rpId => (valueToText value).map fun text => { request with rpId := some text }

/-- The value is not null. -/
def present : Value → Bool
  | .null => false
  | _ => true

/-- Read a field if its item is there and not null. -/
def setIfPresent (request : ClientPinRequest) (field : Field) (item : Option Value) :
    Except Ctap2Error ClientPinRequest :=
  match item.filter present with
  | some value => setField request field value
  | none => .ok request

/-- The closure `next`, called for one field after the other: items that have run out leave the
fields as they are. -/
def takeFields (request : ClientPinRequest) :
    List Field → List Value → Except Ctap2Error ClientPinRequest
  | field :: fields, item :: items => do
      let request ← setField request field item
      takeFields request fields items
  | _, _ => .ok request

/-- The parameters of a subcommand, in the order of the positional form. -/
def positional (subCommand : Nat) : List Field :=
  match subCommand with
  | 0x03 => [.keyAgreement, .pinAuth, .newPinEnc]
  | 0x04 => [.keyAgreement, .pinAuth, .newPinEnc, .pinHashEnc]
  | 0x05 => [.keyAgreement, .pinHashEnc]
  | 0x06 => [.keyAgreement, .permissions, .rpId]
  | 0x09 => [.keyAgreement, .pinHashEnc, .permissions, .rpId]
  | _ => []

/-- A third parameter of getPinToken is read as the `permissions` or `rpId` it must not have. -/
def takeExtra (request : ClientPinRequest) (rest : List Value) :
    Except Ctap2Error ClientPinRequest :=
  if request.subCommand = 0x05 then
    match rest.drop 2 with
    | .text text :: _ => .ok { request with rpId := some text }
    | item :: _ => setField request .permissions item
    | [] => .ok request
  else .ok request

/-- `decode_request_from_array`. -/
def decodeFromArray (items : List Value) : Except Ctap2Error ClientPinRequest := do
  let request ← setIfPresent default .pinProtocol items[0]?
  let request ← setIfPresent request .subCommand items[1]?
  let rest := (items.drop 2).filter present
  let request ← takeFields request (positional request.subCommand) rest
  takeExtra request rest

/-- The field a key of the map form stands for. -/
def fieldOfKey : Value → Option Field
  | .integer number =>
      match toI64OrZero number with
      | 0x01 => some .pinProtocol
      | 0x02 => some .subCommand
      | 0x03 => some .keyAgreement
      | 0x04 => some .pinAuth
      | 0x05 => some .newPinEnc
      | 0x06 => some .pinHashEnc
      | 0x09 => some .permissions
      | 0x0A => some .rpId
      | _ => none
  | .text "pinProtocol" => some .pinProtocol
  | .text "subCommand" => some .subCommand
  | .text "keyAgreement" => some .keyAgreement
  | .text "pinAuth" => some .pinAuth
  | .text "newPinEnc" => some .newPinEnc
  | .text "pinHashEnc" => some .pinHashEnc
  | .text "permissions" => some .permissions
  | .text "rpId" => some .rpId
  | _ => none

/-- `decode_request_from_map`, with the fields read so far. -/
def decodeFromMap (request : ClientPinRequest) :
    List (Value × Value) → Except Ctap2Error ClientPinRequest
  | [] => .ok request
  | (key, value) :: entries => do
      let request ← (fieldOfKey key).elim (.ok request) fun field => setField request field value
      decodeFromMap request entries

/-- `decode_client_pin_request`. -/
def decode (cbor : Ciborium) (data : Bytes) : Except Ctap2Error ClientPinRequest := do
  match ← readValue cbor data with
  | .array items => decodeFromArray items
  | .map entries => decodeFromMap default entries
  | _ => .error .invalidCbor

end ClientPinRequest

namespace Auth

variable {β : Type} [StorageBackend β]

/-! ## The retry counter -/

/-- `get_pin_retries`. -/
def getPinRetries (a : Auth β) : Nat := a.storage.readRetries

/-- `is_pin_auth_blocked`, and `is_pin_blocked`. -/
def isPinAuthBlocked (a : Auth β) : Bool := decide (pinBlockThreshold ≤ a.pinFailuresSinceReset)

/-- `reset_pin_retries`. -/
def resetPinRetries (mark : Mark) : Ctap β Unit := do
  Prog.update fun a => { a with pinFailuresSinceReset := 0 }
  persistIgnored mark (storeDecimal pinRetriesKey pinMaxRetries)

/-- `decrement_pin_retries`. -/
def decrementPinRetries (mark : Mark) : Ctap β Unit := do
  let current ← Prog.read getPinRetries
  persistIgnored mark (storeDecimal pinRetriesKey (current - 1))

/-- The state after a PIN failure. -/
def countPinFailure (a : Auth β) : Auth β :=
  { a with pinFailuresSinceReset := min (a.pinFailuresSinceReset + 1) 255, log := .failed :: a.log }

/-- The status of the PIN failure just counted. -/
def pinFailureError (a : Auth β) : Ctap2Error :=
  if a.storage.readRetries = 0 then .pinBlocked
  else if a.isPinAuthBlocked then .pinAuthBlocked
  else .pinInvalid

/-- `register_pin_failure`, and return its error. -/
def failPin {α : Type} : Ctap β α := do
  Prog.update countPinFailure
  Prog.check fun a => .error a.pinFailureError

/-- Compare with the stored hash; `none` if there is nothing to compare with. -/
def comparePinHash (path : PinPath) (submitted : Bytes) : Ctap β (Option Bool) :=
  Prog.act fun a =>
    match a.storage.value pinStorageKey with
    | none => (none, a)
    | some stored =>
        (some (decide (submitted = stored)),
          { a with log := .compared path (decide (submitted = stored)) :: a.log })

/-- `LEFT(SHA-256(pin), 16)`. -/
def pinHash (crypto : CryptoEngine) (pin : Bytes) : Bytes := (crypto.sha256 pin).take pinHashLen

/-- The length of a PIN is allowed. -/
def pinLengthOk (pin : Bytes) : Bool :=
  decide (pinMinLength ≤ pin.length) && decide (pin.length ≤ pinMaxLength)

/-- `invalidate_pin_uv_auth_token`. -/
def invalidatePinUvAuthToken : Ctap β Unit :=
  Prog.update fun a => { a with pinUvAuthToken := none }

/-- Store the hash of a PIN. -/
def storePinHash (mark : Mark) (pin : Bytes) : Ctap β Unit := do
  let hash ← Prog.read fun a => pinHash a.crypto pin
  persist mark (StorageEngine.store pinStorageKey hash)

/-! ## The trait `ClientPin` -/

/-- `set_pin`. -/
def setPin (pin : Bytes) : Ctap β Unit := do
  Prog.ensure (fun _ => pinLengthOk pin) .pinPolicyViolation
  storePinHash .pinSet pin
  resetPinRetries .ordinary
  invalidatePinUvAuthToken

/-- `change_pin`. -/
def changePin (oldPin newPin : Bytes) : Ctap β Unit := do
  Prog.ensure (fun _ => pinLengthOk newPin) .pinPolicyViolation
  Prog.ensure (fun a => a.storage.isPinSet) .pinNotSet
  let submitted ← Prog.read fun a => pinHash a.crypto oldPin
  let matched ← comparePinHash .traitChangePin submitted
  if matched = some true then do
    resetPinRetries .ordinary
    storePinHash .ordinary newPin
    invalidatePinUvAuthToken
  else do
    decrementPinRetries .ordinary
    failPin

/-- `verify_pin`. -/
def verifyPin (pin : Bytes) : Ctap β Unit := do
  Prog.ensure (fun a => a.storage.isPinSet) .pinNotSet
  Prog.ensure (fun a => !a.isPinAuthBlocked) .pinBlocked
  let submitted ← Prog.read fun a => pinHash a.crypto pin
  let matched ← comparePinHash .traitVerifyPin submitted
  if matched = some true then resetPinRetries .ordinary
  else do
    decrementPinRetries .ordinary
    failPin

/-! ## Steps shared by the subcommands -/

/-- `ok_or(MissingParameter)`. -/
def required {α : Type} (parameter : Option α) : Ctap β α :=
  Prog.check fun _ => parameter.elim (.error .missingParameter) .ok

/-- `validate_protocol`. -/
def validateProtocol (pinProtocol : Option Nat) : Ctap β PinUvProtocol := do
  let version ← required pinProtocol
  Prog.check fun _ => (PinUvProtocol.new version).elim (.error .invalidParameter) .ok

/-- The agreement key of the transaction: the announced one, which is consumed, or a new one. -/
def takeAgreementKey : Ctap β Entropy := do
  let announced ← Prog.read fun a => a.pinAgreementKey
  match announced with
  | some key => do
      Prog.update fun a => { a with pinAgreementKey := none }
      pure key
  | none => draw

/-- `perform_key_agreement`. -/
def performKeyAgreement (protocol : PinUvProtocol) (peerCose : CoseEc2Key) : Ctap β Bytes := do
  let peerPoint ← Prog.check fun _ => peerCose.toUncompressed
  let key ← takeAgreementKey
  let z ← Prog.check fun a =>
    (a.crypto.prims.ecdhAgree key peerPoint).elim (.error .invalidParameter) .ok
  Prog.check fun a => (protocol.kdf a.crypto.prims z).mapError fun _ => .unknown

/-- Version 2 draws an initialisation vector; version 1 draws nothing. -/
def drawIv : PinUvProtocol → Ctap β Entropy
  | .one => pure fun _ => 0
  | .two => draw

/-- `PinUvProtocol::encrypt`. -/
def encryptWith (protocol : PinUvProtocol) (secret plaintext : Bytes) : Ctap β Bytes := do
  let entropy ← drawIv protocol
  Prog.check fun a =>
    (protocol.encrypt a.crypto.prims entropy secret plaintext).mapError fun _ => .unknown

/-- The signature over a message under the shared secret must be right. -/
def verifyWith (protocol : PinUvProtocol) (secret message signature : Bytes) : Ctap β Unit :=
  Prog.check fun a =>
    match protocol.verify a.crypto.prims secret message signature with
    | .ok true => .ok ()
    | _ => .error .pinAuthInvalid

/-- The new PIN in `newPinEnc`. -/
def decryptNewPin (protocol : PinUvProtocol) (secret newPinEnc : Bytes) : Ctap β Bytes :=
  Prog.check fun a =>
    match protocol.decrypt a.crypto.prims secret newPinEnc with
    | .error _ => .error .pinAuthInvalid
    | .ok padded =>
        if padded.length ≠ 64 then .error .invalidParameter
        else
          match stripZeroPadding padded with
          | .error _ => .error .pinAuthInvalid
          | .ok pin => if pinLengthOk pin then .ok pin else .error .pinPolicyViolation

/-- The PIN check of a subcommand: take a retry, decrypt, compare, and give the retries back. -/
def checkPinHash (path : PinPath) (protocol : PinUvProtocol) (secret pinHashEnc : Bytes) :
    Ctap β Unit := do
  decrementPinRetries .checkBegun
  let submitted ← Prog.read fun a =>
    protocol.decryptExact a.crypto.prims secret pinHashEnc pinHashLen
  match submitted with
  | .error _ => failPin
  | .ok hash => do
      let matched ← comparePinHash path hash
      if matched = some true then resetPinRetries .checkPassed else failPin

/-- `issue_pin_uv_auth_token`. -/
def issuePinUvAuthToken (protocol : PinUvProtocol) (secret : Bytes) (permissions : UInt8)
    (permissionsRpId : Option String) : Ctap β Bytes := do
  let token ← randomBytes 32
  let encrypted ← encryptWith protocol secret token
  Prog.update fun a =>
    { a with
      pinUvAuthToken := some ⟨token, permissions, permissionsRpId, protocol.version⟩
      pinSharedSecret := some (secret, protocol.version)
      log := .issued token :: a.log }
  pure encrypted

/-- The permissions that need an option of GetInfo, with that option. -/
def permissionOptions : List (UInt8 × String) :=
  [(permissionBe, "bioEnroll"), (permissionAcfg, "authnrCfg"), (permissionCm, "credMgmt"),
    (permissionLbw, "largeBlobs")]

/-- `validate_permissions`. -/
def validatePermissions (permissions : UInt8) : Ctap β Unit := do
  Prog.ensure (fun _ => permissions != 0) .invalidParameter
  Prog.ensure (fun a => permissionOptions.all fun need =>
    permissions &&& need.1 == 0 || a.capabilities.options.contains need.2) .unauthorizedPermission

/-- A token for credentials must be bound to a relying party. -/
def requireRpId (permissions : UInt8) (rpId : Option String) : Ctap β Unit :=
  Prog.ensure (fun _ => permissions &&& (permissionMc ||| permissionGa) == 0 || rpId.isSome)
    .missingParameter

/-! ## Subcommands -/

/-- `handle_get_retries`. -/
def handleGetRetries : Ctap β ClientPinResponse :=
  Prog.read fun a =>
    { ClientPinResponse.default with
      retries := some a.getPinRetries
      powerCycleState := if a.isPinAuthBlocked then some true else none }

/-- `handle_get_key_agreement`. -/
def handleGetKeyAgreement (request : ClientPinRequest) : Ctap β ClientPinResponse := do
  let _ ← validateProtocol request.pinProtocol
  let key ← draw
  let publicKey ← Prog.check fun a =>
    (a.crypto.prims.ecdhPublic key).elim (.error .unknown) .ok
  let coseKey : CoseEc2Key := ⟨(publicKey.drop 1).take 32, (publicKey.drop 33).take 32⟩
  Prog.update fun a => { a with pinAgreementKey := some key }
  pure { ClientPinResponse.default with keyAgreement := some coseKey.toCoseValue }

/-- `handle_set_pin`. -/
def handleSetPin (request : ClientPinRequest) : Ctap β ClientPinResponse := do
  let protocol ← validateProtocol request.pinProtocol
  Prog.ensure (fun a => !a.storage.isPinSet) .pinAuthInvalid
  let peerCose ← required request.keyAgreement
  let newPinEnc ← required request.newPinEnc
  let pinAuth ← required request.pinAuth
  let secret ← performKeyAgreement protocol peerCose
  verifyWith protocol secret newPinEnc pinAuth
  let newPin ← decryptNewPin protocol secret newPinEnc
  setPin newPin
  pure .default

/-- `handle_change_pin`. -/
def handleChangePin (request : ClientPinRequest) : Ctap β ClientPinResponse := do
  let protocol ← validateProtocol request.pinProtocol
  Prog.ensure (fun a => a.storage.isPinSet) .pinNotSet
  Prog.ensure (fun a => a.getPinRetries != 0) .pinBlocked
  Prog.ensure (fun a => !a.isPinAuthBlocked) .pinAuthBlocked
  let peerCose ← required request.keyAgreement
  let pinHashEnc ← required request.pinHashEnc
  let newPinEnc ← required request.newPinEnc
  let pinAuth ← required request.pinAuth
  let secret ← performKeyAgreement protocol peerCose
  verifyWith protocol secret (newPinEnc ++ pinHashEnc) pinAuth
  checkPinHash .changePin protocol secret pinHashEnc
  let newPin ← decryptNewPin protocol secret newPinEnc
  invalidatePinUvAuthToken
  storePinHash .ordinary newPin
  pure .default

/-- `handle_get_pin_token_common`. -/
def handleGetPinTokenCommon (request : ClientPinRequest) (protocol : PinUvProtocol)
    (permissions : UInt8) (permissionsRpId : Option String) : Ctap β ClientPinResponse := do
  Prog.ensure (fun a => a.storage.isPinSet) .pinNotSet
  Prog.ensure (fun a => !a.storage.isForceChangePin) .pinPolicyViolation
  Prog.ensure (fun a => a.getPinRetries != 0) .pinBlocked
  Prog.ensure (fun a => !a.isPinAuthBlocked) .pinAuthBlocked
  let peerCose ← required request.keyAgreement
  let pinHashEnc ← required request.pinHashEnc
  let secret ← performKeyAgreement protocol peerCose
  checkPinHash .pinToken protocol secret pinHashEnc
  let tokenEnc ← issuePinUvAuthToken protocol secret permissions permissionsRpId
  pure { ClientPinResponse.default with pinUvAuthToken := some tokenEnc }

/-- `handle_get_pin_token`. -/
def handleGetPinToken (request : ClientPinRequest) : Ctap β ClientPinResponse := do
  let protocol ← validateProtocol request.pinProtocol
  Prog.ensure (fun _ => request.permissions.isNone && request.rpId.isNone) .invalidParameter
  handleGetPinTokenCommon request protocol (permissionMc ||| permissionGa) none

/-- `handle_get_pin_token_with_permissions`. -/
def handleGetPinTokenWithPermissions (request : ClientPinRequest) :
    Ctap β ClientPinResponse := do
  let protocol ← validateProtocol request.pinProtocol
  let permissions ← required request.permissions
  validatePermissions permissions
  requireRpId permissions request.rpId
  handleGetPinTokenCommon request protocol permissions request.rpId

/-- There is a built-in verifier and GetInfo announces it. -/
def hasBuiltinUv (a : Auth β) : Bool :=
  a.capabilities.options.contains "uv" && a.userVerification.isSome

/-- The answer of the built-in verifier. -/
def askVerifier : Ctap β (Except Ctap2Error Unit) :=
  Prog.act fun a =>
    match a.userVerification with
    | none => (.error .uvBlocked, a)
    | some answers => (answers 0, { a with userVerification := some fun n => answers (n + 1) })

/-- `perform_builtin_uv`. -/
def performBuiltinUv : Ctap β Unit := do
  Prog.ensure hasBuiltinUv .uvBlocked
  Prog.ensure (fun a => a.storage.readUvRetries != 0) .uvBlocked
  let result ← askVerifier
  match result with
  | .ok () => persistIgnored .ordinary (storeDecimal uvRetriesKey pinMaxRetries)
  | .error error => do
      let current ← Prog.read fun a => a.storage.readUvRetries
      persistIgnored .ordinary (storeDecimal uvRetriesKey (current - 1))
      Prog.fail error

/-- `handle_get_uv_token`. -/
def handleGetUvToken (request : ClientPinRequest) : Ctap β ClientPinResponse := do
  let protocol ← validateProtocol request.pinProtocol
  let permissions ← required request.permissions
  validatePermissions permissions
  performBuiltinUv
  requireRpId permissions request.rpId
  let peerCose ← required request.keyAgreement
  let secret ← performKeyAgreement protocol peerCose
  let tokenEnc ← issuePinUvAuthToken protocol secret permissions request.rpId
  pure { ClientPinResponse.default with pinUvAuthToken := some tokenEnc }

/-- `handle_get_uv_retries`. -/
def handleGetUvRetries : Ctap β ClientPinResponse := do
  Prog.ensure hasBuiltinUv .unsupportedOption
  Prog.read fun a =>
    { ClientPinResponse.default with uvRetries := some a.storage.readUvRetries }

/-- The handler of a subcommand, `ClientPinSubCommand::from_u8` included. -/
def clientPinSubCommand (request : ClientPinRequest) : Ctap β ClientPinResponse :=
  match request.subCommand with
  | 0x01 => handleGetRetries
  | 0x02 => handleGetKeyAgreement request
  | 0x03 => handleSetPin request
  | 0x04 => handleChangePin request
  | 0x05 => handleGetPinToken request
  | 0x06 => handleGetUvToken request
  | 0x07 => handleGetUvRetries
  | 0x09 => handleGetPinTokenWithPermissions request
  | _ => Prog.fail .invalidParameter

/-- `handle_client_pin`. -/
def handleClientPin (build : Build) (data : Bytes) : Ctap β ClientPinResponse := do
  let request ← Prog.check fun _ => ClientPinRequest.decode build.cbor data
  clientPinSubCommand request

end Auth

end OpenKey
