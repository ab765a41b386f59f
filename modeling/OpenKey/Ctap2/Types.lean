import OpenKey.Library.Bytes

/-!
# Messages of the authenticator

The requests, responses and status codes of `crates/openkey-core/src/ctap2`, with the fields
that a handler reads or fills in. A response is kept in its typed form: `encode_cbor` runs last
in every handler and touches no state.
-/

namespace OpenKey

set_option autoImplicit false

/-- A CBOR value, `ciborium::Value`. -/
inductive Value
  /-- Any integer CBOR can express. -/
  | integer (number : Int)
  | bytes (bytes : Bytes)
  /-- A float, by its bits. -/
  | float (bits : UInt64)
  | text (text : String)
  | bool (flag : Bool)
  | null
  | tag (number : Nat) (value : Value)
  | array (items : List Value)
  | map (entries : List (Value × Value))

/-! ## Status codes -/

/-- `Ctap2Error`. An error of a lower layer is `unknown`, as `ctap2_error` maps it. -/
inductive Ctap2Error
  | invalidCommand
  | invalidParameter
  | missingParameter
  | invalidCbor
  | invalidState
  | credentialExists
  | unsupportedAlgorithm
  | unsupportedOption
  | operationDenied
  | noCredentials
  | pinInvalid
  | pinBlocked
  | pinAuthInvalid
  | pinAuthBlocked
  | pinNotSet
  | pinRequired
  | pinPolicyViolation
  | unauthorizedPermission
  | uvBlocked
  | largeBlobStorageFull
  | unknown
  deriving DecidableEq, Repr

/-- `Ctap2Command`. -/
inductive Ctap2Command
  | makeCredential
  | getAssertion
  | getInfo
  | clientPin
  | reset
  | getNextAssertion
  | bioEnroll
  | credentialManagement
  | selection
  | largeBlobs
  | authenticatorConfig
  | getVersion
  | enumerateRpsInitial
  | enumerateRpsNext
  | unknown (value : UInt8)
  deriving DecidableEq, Repr

/-- `Ctap2Command::from_u8`. -/
def Ctap2Command.fromU8 (value : UInt8) : Ctap2Command :=
  match value with
  | 0x01 => .makeCredential
  | 0x02 => .getAssertion
  | 0x04 => .getInfo
  | 0x06 => .clientPin
  | 0x07 => .reset
  | 0x08 => .getNextAssertion
  | 0x09 => .bioEnroll
  | 0x0A => .credentialManagement
  | 0x0B => .selection
  | 0x0C => .largeBlobs
  | 0x0D => .authenticatorConfig
  | 0x0F => .getVersion
  | 0x3B => .enumerateRpsInitial
  | 0x3C => .enumerateRpsNext
  | value => .unknown value

/-! ## Requests -/

structure RelyingParty where
  id : String
  name : Option String
  icon : Option String
  deriving DecidableEq

structure User where
  id : Bytes
  name : Option String
  displayName : Option String
  iconUrl : Option String
  deriving DecidableEq

structure PublicKeyCredParams where
  type : String
  /-- The COSE algorithm, `alg` on the wire. -/
  algorithms : Int
  deriving DecidableEq

structure CredentialDescriptor where
  type : String
  id : Bytes
  transports : Option (List String)
  deriving DecidableEq

/-- Extension inputs. -/
structure Extensions where
  credProtect : Option Nat
  credBlob : Option Bytes
  minPinLength : Bool
  /-- The raw `hmac-secret` input: a boolean or a map. -/
  hmacSecret : Option Value
  largeBlobKey : Bool

/-- `Extensions::has_any`. -/
def Extensions.hasAny (extensions : Extensions) : Bool :=
  extensions.credProtect.isSome || extensions.credBlob.isSome || extensions.minPinLength ||
    extensions.hmacSecret.isSome || extensions.largeBlobKey

structure MakeCredentialOptions where
  rk : Bool
  uv : Bool
  up : Bool
  extended : Bool

structure MakeCredentialRequest where
  clientDataHash : Bytes
  rp : RelyingParty
  user : User
  pubKeyCredParams : List PublicKeyCredParams
  excludeList : List CredentialDescriptor
  extensions : Option Extensions
  options : MakeCredentialOptions
  pinUvAuthParam : Option Bytes
  pinProtocol : Option Nat
  enterpriseProtections : Option Nat

structure GetAssertionOptions where
  up : Bool
  uv : Bool

structure GetAssertionRequest where
  rpId : String
  /-- The wire field `allowList`. -/
  credentials : List CredentialDescriptor
  /-- An alias inside the program, never on the wire. -/
  allowList : Option (List CredentialDescriptor)
  clientDataHash : Bytes
  extensions : Option Extensions
  options : GetAssertionOptions
  pinUvAuthParam : Option Bytes
  pinProtocol : Option Nat
  uv : Option Bool

structure BioEnrollRequest where
  subCommand : Nat

structure LargeBlobsRequest where
  offset : Nat
  get : Option Nat
  set : Option Bytes
  length : Option Nat
  pinUvAuthParam : Option Bytes
  pinUvAuthProtocol : Option Nat

structure CredMgmtParams where
  rpIdHash : Option Bytes
  credentialId : Option CredentialDescriptor
  user : Option User

structure CredentialManagementRequest where
  subCommand : Nat
  subCommandParams : Option CredMgmtParams
  pinUvAuthProtocol : Option Nat
  pinUvAuthParam : Option Bytes

/-! ## Responses -/

/-- Extension outputs. -/
structure ExtensionOutputs where
  credProtect : Option Nat
  minPinLength : Option Nat
  credBlob : Option Bytes
  hmacSecret : Option Value
  largeBlobKey : Option Bytes

/-- `ExtensionOutputs::default`. -/
def ExtensionOutputs.default : ExtensionOutputs where
  credProtect := none
  minPinLength := none
  credBlob := none
  hmacSecret := none
  largeBlobKey := none

structure MakeCredentialResponse where
  fmt : String
  authData : Bytes
  /-- The statement, by its labels in ascending order. -/
  attestationInfo : List (Int × Value)
  extensions : Option ExtensionOutputs

structure GetAssertionResponse where
  credential : Option CredentialDescriptor
  authData : Bytes
  signature : Bytes
  user : Option User
  numberOfCredentials : Option Nat
  extensions : Option ExtensionOutputs

structure CoseAlgorithmEntry where
  alg : Int
  keyType : String
  deriving DecidableEq

structure SecurityFeatures where
  secureBoot : Bool
  trustZone : Bool
  hardwareRng : Bool
  sha256Accelerator : Bool
  debugDisable : Bool
  otpMemory : Bool
  uniqueId : Bool
  tamperDetection : Bool
  deriving DecidableEq

/-- `SecurityFeatures::has_any_features`. -/
def SecurityFeatures.hasAnyFeatures (features : SecurityFeatures) : Bool :=
  features.secureBoot || features.trustZone || features.hardwareRng ||
    features.sha256Accelerator || features.debugDisable || features.otpMemory ||
    features.uniqueId || features.tamperDetection

structure GetInfoResponse where
  versions : List String
  extensions : List String
  aaguid : Bytes
  options : List String
  pinUvAuthProtocols : List Nat
  maxMsgSize : Nat
  rpCount : Nat
  maxCredBlobLength : Nat
  maxCredentialIdLength : Nat
  maxCredentialCount : Nat
  firmwareVersion : Nat
  algorithms : List CoseAlgorithmEntry
  security : Option SecurityFeatures
  maxLargeBlobDataSize : Option Nat
  deriving DecidableEq

structure GetVersionResponse where
  firmwareVersion : String
  firmwareCommitId : String
  firmwareBuildId : String
  deriving DecidableEq

structure ClientPinResponse where
  /-- The COSE key of the authenticator. -/
  keyAgreement : Option Value
  /-- The token, encrypted. -/
  pinUvAuthToken : Option Bytes
  retries : Option Nat
  powerCycleState : Option Bool
  uvRetries : Option Nat

/-- `ClientPinResponse::default`. -/
def ClientPinResponse.default : ClientPinResponse where
  keyAgreement := none
  pinUvAuthToken := none
  retries := none
  powerCycleState := none
  uvRetries := none

structure BioEnrollResponse where
  fingerprintKind : Nat
  maxEnrollments : Nat
  deriving DecidableEq

structure EnumerateRpsResponse where
  rp : RelyingParty
  rpHash : Bytes
  totalRps : Nat
  deriving DecidableEq

structure LargeBlobsResponse where
  config : Option Bytes
  deriving DecidableEq

structure CredsMetadataResponse where
  existingResidentCredentialsCount : Nat
  maxPossibleRemainingResidentCredentialsCount : Nat
  deriving DecidableEq

structure EnumerateRpsEntryResponse where
  rp : RelyingParty
  rpIdHash : Bytes
  totalRps : Nat
  deriving DecidableEq

structure EnumerateCredentialsEntryResponse where
  user : User
  credentialId : CredentialDescriptor
  publicKey : Value
  totalCredentials : Nat
  credProtect : Option Nat
  largeBlobKey : Option Bytes

/-- What `process_command` answers with. -/
inductive CtapResponse
  | makeCredential (response : MakeCredentialResponse)
  | getAssertion (response : GetAssertionResponse)
  | getInfo (response : GetInfoResponse)
  | getVersion (response : GetVersionResponse)
  | clientPin (response : ClientPinResponse)
  | bioEnroll (response : BioEnrollResponse)
  | enumerateRps (response : EnumerateRpsResponse)
  | largeBlobs (response : LargeBlobsResponse)
  | credsMetadata (response : CredsMetadataResponse)
  | enumerateRpsEntry (response : EnumerateRpsEntryResponse)
  | enumerateCredentialsEntry (response : EnumerateCredentialsEntryResponse)
  /-- A success without a payload. -/
  | empty

/-! ## Credential protection -/

/-- `CredProtectPolicy`. -/
inductive CredProtectPolicy
  | userVerificationOptional
  | userVerificationOptionalWithCredentialIdList
  | userVerificationRequired
  deriving DecidableEq, Repr

namespace CredProtectPolicy

/-- `From<u8>`: anything else is the default. -/
def ofU8 (value : Nat) : CredProtectPolicy :=
  match value with
  | 2 => .userVerificationOptionalWithCredentialIdList
  | 3 => .userVerificationRequired
  | _ => .userVerificationOptional

/-- The policy as on the wire. -/
def toU8 : CredProtectPolicy → Nat
  | .userVerificationOptional => 1
  | .userVerificationOptionalWithCredentialIdList => 2
  | .userVerificationRequired => 3

end CredProtectPolicy

/-- `CRED_PROTECT_UV_REQUIRED`. -/
def credProtectUvRequired : Nat := 3

/-- `CRED_PROTECT_ALLOWLIST_REQUIRED`. -/
def credProtectAllowlistRequired : Nat := 2

end OpenKey
