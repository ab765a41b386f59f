import OpenKey.Crypto.PinProtocol
import OpenKey.Ctap2.Codec

/-!
# The state of the authenticator

`Ctap2Authenticator` of `crates/openkey-core/src/ctap2/ctap2.rs`, field by field, with the world
it talks to made explicit: the random generator, the clock, the presence button and the built-in
verifier are streams of answers that the state carries along.

The state also carries a log that no program reads. It records every storage call with the
engine it leaves behind, so that a loss of power between two calls is a suffix of the log, and
the moments a statement about PINs and tokens needs to name.
-/

namespace OpenKey

set_option autoImplicit false

/-- What a build of the firmware fixes: its features and the libraries it is linked with. -/
structure Build where
  /-- The feature `rs256`. -/
  rs256 : Bool
  /-- The feature `std`. -/
  std : Bool
  cbor : Ciborium
  codec : Codec StoredCredential

/-! ## Configuration -/

/-- `Ctap2Capabilities`. -/
structure Ctap2Capabilities where
  aaguid : Bytes
  versions : List String
  extensions : List String
  options : List String
  rpCount : Nat
  maxCredBlobLength : Nat
  maxCredentialIdLength : Nat
  maxCredentialCount : Nat
  firmwareVersion : String
  minPinLength : Option Nat
  pinUvAuthProtocols : List Nat
  security : SecurityFeatures
  maxLargeBlobDataSize : Option Nat

/-- `Ctap2Capabilities::default`. -/
def Ctap2Capabilities.default : Ctap2Capabilities where
  aaguid := List.replicate 16 0
  versions := ["FIDO_2_0", "FIDO_2_1"]
  extensions := ["credProtect", "credBlob", "minPinLength", "hmac-secret", "largeBlobKey"]
  options := ["rk", "up", "largeBlobs", "credMgmt", "ep"]
  rpCount := 0
  maxCredBlobLength := 32
  maxCredentialIdLength := 64
  maxCredentialCount := 10
  firmwareVersion := "0.1.0"
  minPinLength := some 4
  pinUvAuthProtocols := [1, 2]
  security :=
    { secureBoot := false, trustZone := false, hardwareRng := false, sha256Accelerator := false
      debugDisable := false, otpMemory := false, uniqueId := false, tamperDetection := false }
  maxLargeBlobDataSize := some 4096

/-- `AttestationFormat`. -/
inductive AttestationFormat
  | none
  | packed
  | self
  | u2f
  | androidKey
  | apple
  deriving DecidableEq, Repr

/-- `AttestationCertificate`. -/
structure AttestationCertificate where
  cert : Bytes
  privateKey : Bytes

/-! ## Volatile state -/

/-- `PinUvAuthTokenState`. -/
structure PinUvAuthTokenState where
  token : Bytes
  permissions : UInt8
  permissionsRpId : Option String
  protocol : Nat
  deriving DecidableEq

/-- `HmacSecretSession`. -/
structure HmacSecretSession where
  sharedSecret : Bytes
  pinProtocol : Nat
  salts : Bytes

/-- `EnumerateRPsState`, `EnumerateRpsCredMgmtState` and `EnumerateCredentialsState`: a list and
the position in it. Their field `total` is the length of the list. -/
structure Enumeration (α : Type) where
  items : List α
  currentIndex : Nat

/-- `GetNextAssertionState`, without its two dead fields. -/
structure GetNextAssertionState where
  rpId : String
  clientDataHash : Bytes
  allowList : List CredentialDescriptor
  flags : UInt8
  extensions : Option Extensions
  uvSatisfied : Bool
  currentIndex : Nat

/-! ## The log -/

/-- The places that compare a submitted PIN with the stored one. -/
inductive PinPath
  /-- The subcommand changePIN. -/
  | changePin
  /-- The subcommands getPinToken and getPinUvAuthTokenUsingPinWithPermissions. -/
  | pinToken
  /-- The `currentPIN` of setMinPINLength. -/
  | currentPin
  /-- `ClientPin::change_pin`. -/
  | traitChangePin
  /-- `ClientPin::verify_pin`. -/
  | traitVerifyPin
  deriving DecidableEq, Repr

/-- What a storage call means for the PIN retry counter. -/
inductive Mark
  | ordinary
  /-- The hash of an initial PIN is stored. -/
  | pinSet
  /-- A PIN check of a subcommand takes its retry. -/
  | checkBegun
  /-- A PIN check of a subcommand gives the retries back. -/
  | checkPassed
  deriving DecidableEq, Repr

/-- An entry of the log. -/
inductive Event (β : Type)
  /-- An authenticator is opened over the storage. -/
  | booted
  /-- A storage call ends, leaving this engine. -/
  | stored (storage : StorageEngine β) (mark : Mark)
  /-- A submitted PIN is compared with the stored hash. -/
  | compared (path : PinPath) (matched : Bool)
  /-- A PIN failure is registered. -/
  | failed
  /-- A token comes into force. -/
  | issued (token : Bytes)

/-! ## The authenticator -/

/-- The authenticator over backends of type `β`. -/
structure Auth (β : Type) where
  crypto : CryptoEngine
  storage : StorageEngine β
  capabilities : Ctap2Capabilities
  attestationFormat : AttestationFormat
  attestationCert : Option AttestationCertificate
  enumerateRpsState : Option (Enumeration (String × Bytes))
  credMgmtRpsState : Option (Enumeration (String × Bytes))
  credMgmtCredsState : Option (Enumeration Credential)
  getNextAssertionState : Option GetNextAssertionState
  /-- The answers of the button, one per query. -/
  userPresence : Option (Nat → Bool)
  /-- The answers of the built-in verifier, one per query. -/
  userVerification : Option (Nat → Except Ctap2Error Unit)
  pinUvAuthToken : Option PinUvAuthTokenState
  /-- An ephemeral key, given by the draw that made it. -/
  pinAgreementKey : Option Entropy
  pinSharedSecret : Option (Bytes × Nat)
  hmacSecretSession : Option HmacSecretSession
  pinFailuresSinceReset : Nat
  /-- The draws still to come from the system random generator. -/
  rng : Nat → Entropy
  /-- The readings still to come from the system clock, in milliseconds. -/
  clock : Nat → Nat
  /-- `LAST_TS`. -/
  lastTimestamp : Nat
  log : List (Event β)

/-- A handler: a program over the authenticator that fails with a status. -/
abbrev Ctap (β : Type) := Prog (Auth β) Ctap2Error

namespace Auth

variable {β : Type}

/-! ## The outside world -/

/-- One draw from the system random generator. -/
def draw : Ctap β Entropy :=
  Prog.act fun a => (a.rng 0, { a with rng := fun n => a.rng (n + 1) })

/-- `random_bytes`. -/
def randomBytes (len : Nat) : Ctap β Bytes := do
  let entropy ← draw
  pure (entropy.bytes len)

/-- `current_timestamp`: strictly increasing with a clock, zero without. -/
def currentTimestamp (build : Build) : Ctap β Nat :=
  Prog.act fun a =>
    if build.std then
      let candidate := if a.clock 0 > a.lastTimestamp then a.clock 0 else a.lastTimestamp + 1
      (candidate, { a with clock := fun n => a.clock (n + 1), lastTimestamp := candidate })
    else (0, a)

/-- The check of the presence button; without one the user is always present. -/
def checkPresence : Ctap β Unit := do
  let present ← Prog.act fun a =>
    match a.userPresence with
    | none => (true, a)
    | some answers => (answers 0, { a with userPresence := some fun n => answers (n + 1) })
  Prog.ensure (fun _ => present) .operationDenied

/-- A storage call. -/
def onStorage {α : Type} (mark : Mark) (m : Prog (StorageEngine β) EngineError α) :
    Prog (Auth β) EngineError α :=
  .mk fun a =>
    ((m.run a.storage).1,
      { a with storage := (m.run a.storage).2, log := .stored (m.run a.storage).2 mark :: a.log })

/-- A storage call whose failure ends the handler. -/
def persist {α : Type} (mark : Mark) (m : Prog (StorageEngine β) EngineError α) : Ctap β α :=
  Prog.mapError (fun _ => .unknown) (onStorage mark m)

/-- A storage call whose result is discarded. -/
def persistIgnored {α : Type} (mark : Mark) (m : Prog (StorageEngine β) EngineError α) :
    Ctap β Unit := do
  let _ ← (Prog.attempt (onStorage mark m) : Ctap β (Except EngineError α))
  pure ()

end Auth

/-! ## Persisted settings -/

/-- `PIN_STORAGE_KEY`. -/
def pinStorageKey : String := "client_pin_hash"

/-- `PIN_RETRIES_KEY`. -/
def pinRetriesKey : String := "client_pin_retries"

/-- `UV_RETRIES_KEY`. -/
def uvRetriesKey : String := "sys:uv_retries"

/-- `SIGN_COUNTER_STORAGE_KEY`. -/
def signCounterStorageKey : String := "global_sign_count"

/-- `CFG_ALWAYS_UV_KEY`. -/
def cfgAlwaysUvKey : String := "sys:cfg_always_uv"

/-- `CFG_MAKE_CRED_UV_NOT_RQD_KEY`. -/
def cfgMakeCredUvNotRqdKey : String := "sys:cfg_mc_uv_not_rqd"

/-- `CFG_MIN_PIN_LENGTH_KEY`. -/
def cfgMinPinLengthKey : String := "sys:cfg_min_pin_length"

/-- `CFG_MIN_PIN_LENGTH_RPIDS_KEY`. -/
def cfgMinPinLengthRpidsKey : String := "sys:cfg_min_pin_length_rpids"

/-- `CFG_FORCE_CHANGE_PIN_KEY`. -/
def cfgForceChangePinKey : String := "sys:cfg_force_change_pin"

/-- `CFG_EP_PENDING_KEY`. -/
def cfgEpPendingKey : String := "sys:cfg_ep_pending"

/-- `PIN_MAX_RETRIES` and `UV_MAX_RETRIES`. -/
def pinMaxRetries : Nat := 8

/-- `PIN_BLOCK_THRESHOLD`. -/
def pinBlockThreshold : Nat := 3

namespace StorageEngine

variable {β : Type} [StorageBackend β]

/-- A number kept as decimal text; `fallback` if it is absent or malformed. -/
def readDecimal (e : StorageEngine β) (key : String) (bound fallback : Nat) : Nat :=
  (((e.value key).bind ofUtf8).bind (parseUnsigned bound)).getD fallback

/-- `read_retries`. -/
def readRetries (e : StorageEngine β) : Nat := readDecimal e pinRetriesKey 256 pinMaxRetries

/-- `read_uv_retries`. -/
def readUvRetries (e : StorageEngine β) : Nat := readDecimal e uvRetriesKey 256 pinMaxRetries

/-- The persisted signature counter. -/
def signCounter (e : StorageEngine β) : Nat := readDecimal e signCounterStorageKey (2 ^ 32) 0

/-- `is_pin_set`. -/
def isPinSet (e : StorageEngine β) : Bool := (e.value pinStorageKey).isSome

/-- `is_always_uv`. -/
def isAlwaysUv (e : StorageEngine β) : Bool := (e.value cfgAlwaysUvKey).isSome

/-- `is_force_change_pin`. -/
def isForceChangePin (e : StorageEngine β) : Bool := (e.value cfgForceChangePinKey).isSome

/-- `get_min_pin_length`. -/
def getMinPinLength (e : StorageEngine β) (fallback : Nat) : Nat :=
  ((e.value cfgMinPinLengthKey).bind List.head?).elim fallback UInt8.toNat

end StorageEngine

/-- Store a number as decimal text. -/
def storeDecimal {β : Type} [StorageBackend β] (key : String) (n : Nat) :
    Prog (StorageEngine β) EngineError Unit :=
  StorageEngine.store key (utf8 (toString n))

namespace Auth

variable {β : Type} [StorageBackend β]

/-! ## Power -/

/-- The same device opened again over `storage`: what is volatile is gone. -/
def reboot (a : Auth β) (storage : StorageEngine β) (log : List (Event β)) : Auth β :=
  { a with
    storage := storage, enumerateRpsState := none, credMgmtRpsState := none
    credMgmtCredsState := none, getNextAssertionState := none, pinUvAuthToken := none
    pinAgreementKey := none, pinSharedSecret := none, hmacSecretSession := none
    pinFailuresSinceReset := 0, lastTimestamp := 0, log := .booted :: log }

/-! ## The token -/

/-- `verify_pin_uv_auth_message`. -/
def verifyPinUvAuthMessage (a : Auth β) (pinProtocol : Nat) (pinUvAuthParam message : Bytes) :
    Except Ctap2Error Unit :=
  match a.pinUvAuthToken with
  | none => .error .pinAuthInvalid
  | some state =>
      if state.protocol ≠ pinProtocol then .error .pinAuthInvalid
      else
        match PinUvProtocol.new state.protocol with
        | none => .error .pinAuthInvalid
        | some protocol =>
            match protocol.authenticate a.crypto.prims state.token message with
            | .error _ => .error .pinAuthInvalid
            | .ok mac => if mac ≠ pinUvAuthParam then .error .pinAuthInvalid else .ok ()

/-- The scope of a token: its permissions, and the relying party it is bound to. -/
def checkTokenScope (a : Auth β) (requiredPermission : UInt8) (rpId : Option String) :
    Except Ctap2Error Unit :=
  match a.pinUvAuthToken with
  | none => .error .pinAuthInvalid
  | some state =>
      if state.permissions &&& requiredPermission ≠ requiredPermission then
        .error .unauthorizedPermission
      else
        match state.permissionsRpId with
        | none => .ok ()
        | some bound => if rpId ≠ some bound then .error .unauthorizedPermission else .ok ()

/-- `verify_pin_uv_auth_for_operation`. -/
def verifyPinUvAuthForOperation (a : Auth β) (pinProtocol : Option Nat)
    (pinUvAuthParam : Option Bytes) (message : Bytes) (requiredPermission : UInt8)
    (rpId : Option String) : Except Ctap2Error Bool :=
  match pinProtocol, pinUvAuthParam with
  | none, none => .ok false
  | some _, none => .error .missingParameter
  | none, some _ => .error .missingParameter
  | some protocol, some param => do
      verifyPinUvAuthMessage a protocol param message
      checkTokenScope a requiredPermission rpId
      .ok true

end Auth

/-- `hash_rp_id`. -/
def hashRpId (rpId : String) (crypto : CryptoEngine) : Bytes := crypto.sha256 (utf8 rpId)

end OpenKey
