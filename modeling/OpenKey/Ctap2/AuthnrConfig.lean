import OpenKey.Ctap2.ClientPin

/-!
# AuthenticatorConfig

`crates/openkey-core/src/ctap2/authnr_config.rs`: the settings that a token with the permission
`acfg` may change.
-/

namespace OpenKey

set_option autoImplicit false

/-! ## Requests -/

/-- `AuthnrConfigRequest`. -/
structure AuthnrConfigRequest where
  subCommand : Nat
  params : Option Value
  pinUvAuthProtocol : Option Nat
  pinUvAuthParam : Option Bytes

namespace AuthnrConfigRequest

/-- `value_to_u8`. -/
def valueToU8 : Value → Except Ctap2Error Nat
  | .integer number => (toU8 number).elim (.error .invalidParameter) .ok
  | _ => .error .invalidParameter

/-- `value_to_bool`. -/
def valueToBool : Value → Except Ctap2Error Bool
  | .bool flag => .ok flag
  | _ => .error .invalidParameter

/-- `value_to_bytes`. -/
def valueToBytes : Value → Except Ctap2Error Bytes
  | .bytes bytes => .ok bytes
  | _ => .error .invalidParameter

/-- `value_to_text`. -/
def valueToText : Value → Except Ctap2Error String
  | .text text => .ok text
  | _ => .error .invalidParameter

/-- The fields of a request. -/
inductive Field
  | subCommand
  | params
  | pinUvAuthProtocol
  | pinUvAuthParam
  deriving DecidableEq, Repr

/-- The field a key stands for. -/
def fieldOfKey : Value → Option Field
  | .integer number =>
      match toI64OrZero number with
      | 0x01 => some .subCommand
      | 0x02 => some .params
      | 0x03 => some .pinUvAuthProtocol
      | 0x04 => some .pinUvAuthParam
      | _ => none
  | .text "subCommand" => some .subCommand
  | .text "subCommandParams" => some .params
  | .text "pinUvAuthProtocol" => some .pinUvAuthProtocol
  | .text "pinUvAuthParam" => some .pinUvAuthParam
  | _ => none

/-- Read a field from its value. -/
def setField (request : AuthnrConfigRequest) (field : Field) (value : Value) :
    Except Ctap2Error AuthnrConfigRequest :=
  match field with
  | .subCommand => (valueToU8 value).map fun n => { request with subCommand := n }
  | .params => .ok { request with params := some value }
  | .pinUvAuthProtocol =>
      (valueToU8 value).map fun n => { request with pinUvAuthProtocol := some n }
  | .pinUvAuthParam =>
      (valueToBytes value).map fun bytes => { request with pinUvAuthParam := some bytes }

/-- The loop of the decoder. -/
def decodeEntries (request : AuthnrConfigRequest) :
    List (Value × Value) → Except Ctap2Error AuthnrConfigRequest
  | [] => .ok request
  | (key, value) :: entries => do
      let request ← (fieldOfKey key).elim (.ok request) fun field => setField request field value
      decodeEntries request entries

/-- `decode_authnr_config_request`. -/
def decode (cbor : Ciborium) (data : Bytes) : Except Ctap2Error AuthnrConfigRequest := do
  match ← readValue cbor data with
  | .map entries => do
      let request ← decodeEntries ⟨0, none, none, none⟩ entries
      if request.subCommand = 0 then .error .missingParameter else .ok request
  | _ => .error .invalidCbor

end AuthnrConfigRequest

/-- The last entry of a map under an integer key or its name. -/
def lastEntry (number : Int) (name : String) : List (Value × Value) → Option Value
  | [] => none
  | (key, value) :: entries =>
      (lastEntry number name entries).or
        (match key with
        | .integer n => if n = number then some value else none
        | .text text => if text = name then some value else none
        | _ => none)

/-- The subcommand and its parameters, encoded as they came: the part of the authenticated
message that `authnr_config_auth_message` and `credential_management_auth_message` share. -/
def subCommandMessage (cbor : Ciborium) (data : Bytes) : Except Ctap2Error Bytes := do
  match ← readValue cbor data with
  | .map entries =>
      match lastEntry 1 "subCommand" entries with
      | some (.integer number) =>
          match toU8 number with
          | some subCommand =>
              .ok (UInt8.ofNat subCommand ::
                (lastEntry 2 "subCommandParams" entries).elim [] cbor.intoWriter)
          | none => .error .invalidParameter
      | _ => .error .invalidParameter
  | _ => .error .invalidCbor

/-- `authnr_config_auth_message`. -/
def authnrConfigAuthMessage (cbor : Ciborium) (data : Bytes) : Except Ctap2Error Bytes :=
  (subCommandMessage cbor data).map (0x0D :: ·)

/-! ## Parameters -/

/-- `params_map`. -/
def paramsMap : Option Value → Except Ctap2Error (List (Value × Value))
  | some (.map entries) => .ok entries
  | _ => .error .invalidParameter

/-- The key of a parameter, by number or by name. -/
def isParam (number : Nat) (name : String) : Value → Bool
  | .integer n => decide (toU8 (toI64OrZero n) = some number)
  | .text text => decide (text = name)
  | _ => false

/-- The first parameter under a key, converted; an absent one is not an error. -/
def param {α : Type} (convert : Value → Except Ctap2Error α) (map : List (Value × Value))
    (number : Nat) (name : String) : Except Ctap2Error (Option α) :=
  match map.find? fun entry => isParam number name entry.1 with
  | some entry => (convert entry.2).map some
  | none => .ok none

/-- `param_u8`. -/
def paramU8 := param AuthnrConfigRequest.valueToU8

/-- `param_bool`. -/
def paramBool := param AuthnrConfigRequest.valueToBool

/-- `param_bytes`. -/
def paramBytes := param AuthnrConfigRequest.valueToBytes

/-- An array of texts. -/
def valueToTexts : Value → Except Ctap2Error (List String)
  | .array items => items.mapM AuthnrConfigRequest.valueToText
  | _ => .error .invalidParameter

/-- `param_text_array`. -/
def paramTextArray := param valueToTexts

/-- `MAX_MIN_PIN_LENGTH_RPIDS`. -/
def maxMinPinLengthRpids : Nat := 32

/-- `cbor_to_vec`, of a list of texts. -/
def cborToVec (cbor : Ciborium) (texts : List String) : Bytes :=
  cbor.intoWriter (.array (texts.map .text))

/-- The parameters of setMinPINLength. -/
structure SetMinPinLengthParams where
  newMin : Nat
  forceChange : Bool
  rpids : Option (List String)
  currentPin : Option Bytes

/-- Read and check the parameters of setMinPINLength. -/
def setMinPinLengthParams (params : Option Value) : Except Ctap2Error SetMinPinLengthParams := do
  let map ← paramsMap params
  match ← paramU8 map 0x02 "newMinPINLength" with
  | none => .error .missingParameter
  | some newMin =>
      if newMin < pinMinLength ∨ newMin > pinMaxLength then .error .pinPolicyViolation
      else do
        let forceChange ← paramBool map 0x04 "forceChangePin"
        let rpids ← paramTextArray map 0x03 "minPinLengthRpIDs"
        let currentPin ← paramBytes map 0x01 "currentPIN"
        if currentPin.isNone && forceChange.getD false then .error .missingParameter
        else .ok ⟨newMin, forceChange.getD false, rpids, currentPin⟩

/-- Read and check the parameters of setMinPINLengthRPIDs. -/
def setMinPinLengthRpidsParams (params : Option Value) : Except Ctap2Error (List String) := do
  let map ← paramsMap params
  match ← paramTextArray map 0x01 "rpIds" with
  | none => .error .missingParameter
  | some rpids =>
      if rpids.length > maxMinPinLengthRpids then .error .invalidParameter else .ok rpids

namespace Auth

variable {β : Type} [StorageBackend β] (build : Build)

/-! ## Subcommands -/

/-- Store a flag. -/
def setFlag (key : String) : Ctap β Unit := persist .ordinary (StorageEngine.store key [0x31])

/-- Delete an entry; a failure is ignored. -/
def clearFlag (key : String) : Ctap β Unit := persistIgnored .ordinary (StorageEngine.delete key)

/-- `toggle_flag`. -/
def toggleFlag (key : String) : Ctap β Unit := do
  let current ← Prog.read fun a => (a.storage.value key).isSome
  if current then clearFlag key else setFlag key

/-- `take_pin_shared_secret`. -/
def takePinSharedSecret : Ctap β (Bytes × Nat) := do
  let secret ← Prog.act fun a => (a.pinSharedSecret, { a with pinSharedSecret := none })
  Prog.check fun _ => secret.elim (.error .pinAuthInvalid) .ok

/-- The PIN in `currentPIN`. -/
def decryptCurrentPin (crypto : CryptoEngine) (secret : Bytes × Nat) (encrypted : Bytes) :
    Except Ctap2Error Bytes :=
  match PinUvProtocol.new secret.2 with
  | none => .error .pinAuthInvalid
  | some protocol =>
      match protocol.decrypt crypto.prims secret.1 encrypted with
      | .error _ => .error .pinAuthInvalid
      | .ok padded => (stripZeroPadding padded).mapError fun _ => .pinAuthInvalid

/-- `verify_current_pin`. -/
def verifyCurrentPin (encrypted : Bytes) : Ctap β Unit := do
  let secret ← takePinSharedSecret
  let submitted ← Prog.check fun a => decryptCurrentPin a.crypto secret encrypted
  Prog.ensure (fun a => a.storage.isPinSet) .pinNotSet
  let hash ← Prog.read fun a => pinHash a.crypto submitted
  let matched ← comparePinHash .currentPin hash
  Prog.ensure (fun _ => decide (matched = some true)) .pinInvalid

/-- Store a list of relying parties. -/
def storeRpids (rpids : List String) : Ctap β Unit :=
  persist .ordinary (StorageEngine.store cfgMinPinLengthRpidsKey (cborToVec build.cbor rpids))

/-- `handle_set_min_pin_length`. -/
def handleSetMinPinLength (params : Option Value) : Ctap β Unit := do
  let params ← Prog.check fun _ => setMinPinLengthParams params
  params.currentPin.elim (pure ()) verifyCurrentPin
  persist .ordinary (StorageEngine.store cfgMinPinLengthKey [UInt8.ofNat params.newMin])
  params.rpids.elim (pure ()) (storeRpids build)
  if params.forceChange then setFlag cfgForceChangePinKey else clearFlag cfgForceChangePinKey

/-- `handle_set_min_pin_length_rpids`. -/
def handleSetMinPinLengthRpids (params : Option Value) : Ctap β Unit := do
  let rpids ← Prog.check fun _ => setMinPinLengthRpidsParams params
  storeRpids build rpids

/-- The handler of a subcommand. -/
def authnrConfigSubCommand (request : AuthnrConfigRequest) : Ctap β Unit :=
  match request.subCommand with
  | 0x01 => setFlag cfgEpPendingKey
  | 0x02 => toggleFlag cfgAlwaysUvKey
  | 0x03 => handleSetMinPinLength build request.params
  | 0x04 => toggleFlag cfgMakeCredUvNotRqdKey
  | 0x05 => handleSetMinPinLengthRpids build request.params
  | _ => Prog.fail .invalidParameter

/-- `handle_authnr_config`. -/
def handleAuthnrConfig (data : Bytes) : Ctap β Unit := do
  let request ← Prog.check fun _ => AuthnrConfigRequest.decode build.cbor data
  Prog.ensure (fun a => decide (request.subCommand = 0x01) || a.storage.isPinSet) .pinNotSet
  let protocol ← required request.pinUvAuthProtocol
  let pinAuth ← required request.pinUvAuthParam
  let message ← Prog.check fun _ => authnrConfigAuthMessage build.cbor data
  let _ ← Prog.check fun a =>
    verifyPinUvAuthForOperation a (some protocol) (some pinAuth) message permissionAcfg none
  authnrConfigSubCommand build request

/-- `consume_ep_pending`. -/
def consumeEpPending : Ctap β Bool := do
  let pending ← Prog.read fun a => (a.storage.value cfgEpPendingKey).isSome
  Prog.when pending (clearFlag cfgEpPendingKey)
  pure pending

end Auth

end OpenKey
