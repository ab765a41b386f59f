import OpenKey.Ctap2.AuthnrConfig
import OpenKey.Ctap2.HmacSecret

/-!
# MakeCredential

`make_credential` of `crates/openkey-core/src/ctap2/ctap2.rs`, with the authenticator data, the
COSE keys and the attestation statements of `attestation.rs`.
-/

namespace OpenKey

set_option autoImplicit false

/-! ## Authenticator data -/

/-- The flag UP: the user was present. -/
def flagUp : UInt8 := 0x01

/-- The flag UV: the user was verified. -/
def flagUv : UInt8 := 0x04

/-- The flag AT: a credential is attested. -/
def flagAt : UInt8 := 0x40

/-- A flag if a condition holds. -/
def flagIf (c : Bool) (flag : UInt8) : UInt8 := if c then flag else 0

/-- The first 37 bytes of the authenticator data: the hash of the relying party, the flags and the
signature counter. -/
def authDataHeader (rpIdHash : Bytes) (flags : UInt8) (signCount : Nat) : Bytes :=
  rpIdHash ++ flags :: Bytes.beBytes 4 signCount

/-- An elliptic-curve COSE key. -/
def coseKeyEc2 (algorithm curve : Int) (x y : Bytes) : Value :=
  .map [(.integer (-3), .bytes y), (.integer (-2), .bytes x), (.integer (-1), .integer curve),
    (.integer 1, .integer 2), (.integer 3, .integer algorithm)]

/-- An RSA COSE key. -/
def coseKeyRsa (algorithm : Int) (n e : Bytes) : Value :=
  .map [(.integer (-2), .bytes e), (.integer (-1), .bytes n), (.integer 1, .integer 3),
    (.integer 3, .integer algorithm)]

/-- An Ed25519 COSE key. -/
def coseKeyOkp (publicKey : Bytes) : Value :=
  .map [(.integer (-2), .bytes publicKey), (.integer (-1), .integer 6), (.integer 1, .integer 1),
    (.integer 3, .integer (-8))]

/-- The COSE key in the attested credential data. -/
def attestedKey (build : Build) (crypto : CryptoEngine) (algorithm : Int) (publicKey : Bytes) :
    Except Ctap2Error Value :=
  let ec2 (curve : Int) (len : Nat) : Except Ctap2Error Value :=
    if publicKey.length = 1 + 2 * len then
      .ok (coseKeyEc2 algorithm curve ((publicKey.drop 1).take len)
        ((publicKey.drop (1 + len)).take len))
    else .error .unknown
  if algorithm = -7 then ec2 1 32
  else if algorithm = -35 then ec2 2 48
  else if build.rs256 ∧ (algorithm = -37 ∨ algorithm = -257) then
    match crypto.rsaPublicKeyParts publicKey with
    | .ok (n, e) => .ok (coseKeyRsa algorithm n e)
    | .error _ => .error .unknown
  else .ok (coseKeyOkp publicKey)

/-- The attested credential data: `aaguid || credIdLen || credId || COSE_Key`. -/
def attestedCredentialData (build : Build) (crypto : CryptoEngine) (aaguid credentialId : Bytes)
    (algorithm : Int) (publicKey : Bytes) : Except Ctap2Error Bytes := do
  let key ← attestedKey build crypto algorithm publicKey
  let encoded ← (encodeCbor build.cbor key).mapError fun _ => .unknown
  .ok (aaguid ++ Bytes.beBytes 2 credentialId.length ++ credentialId ++ encoded)

/-! ## Attestation -/

/-- `AttestationFormat::as_str`. -/
def AttestationFormat.asStr : AttestationFormat → String
  | .none => "none"
  | .packed => "packed"
  | .self => "self"
  | .u2f => "u2f"
  | .androidKey => "android-key"
  | .apple => "apple"

namespace Auth

variable {β : Type} [StorageBackend β] (build : Build)

/-- A signature by an algorithm that draws from the random generator. -/
def signRandomised (sign : CryptoEngine → Entropy → Except String Bytes) : Ctap β Bytes := do
  let entropy ← draw
  Prog.check fun a => (sign a.crypto entropy).mapError fun _ => .unknown

/-- A signature with a credential key. Algorithms without a branch of their own sign as EdDSA. -/
def signAssertion (algorithm : Int) (privateKey data : Bytes) : Ctap β Bytes :=
  if algorithm = -7 then signRandomised fun crypto entropy =>
    crypto.signP256 entropy privateKey data
  else if algorithm = -35 then
    signRandomised fun crypto entropy => crypto.signP384 entropy privateKey data
  else if build.rs256 ∧ algorithm = -37 then
    signRandomised fun crypto entropy => crypto.signRsaPss entropy privateKey data
  else if build.rs256 ∧ algorithm = -257 then
    signRandomised fun crypto entropy => crypto.signRsa entropy privateKey data
  else Prog.check fun a => (a.crypto.sign data privateKey).mapError fun _ => .unknown

/-- `sign_for_attestation`: as above, but only for the algorithms it knows. -/
def signForAttestation (algorithm : Int) (privateKey data : Bytes) : Ctap β Bytes := do
  Prog.ensure (fun _ => decide (algorithm = -7 ∨ algorithm = -35 ∨ algorithm = -8 ∨
    (build.rs256 ∧ (algorithm = -37 ∨ algorithm = -257)))) .unsupportedAlgorithm
  signAssertion build algorithm privateKey data

/-- `SelfAttestation::generate`, and `PackedAttestation::generate` without a certificate. -/
def selfAttestation (data privateKey : Bytes) (algorithm : Int) : Ctap β (List (Int × Value)) := do
  let signature ← signForAttestation build algorithm privateKey data
  pure [(2, .bytes signature), (3, .integer algorithm)]

/-- `PackedAttestation::generate`. -/
def packedAttestation (data privateKey : Bytes) (algorithm : Int) :
    Ctap β (List (Int × Value)) := do
  let certificate ← Prog.read fun a => a.attestationCert
  match certificate with
  | none => selfAttestation build data privateKey algorithm
  | some certificate => do
      let signature ← signForAttestation build algorithm certificate.privateKey data
      pure [(1, .array [.bytes certificate.cert]), (2, .bytes signature),
        (3, .integer algorithm)]

/-- The attestation statement in a format. -/
def attest (format : AttestationFormat) (data privateKey : Bytes) (algorithm : Int) :
    Ctap β (List (Int × Value)) :=
  match format with
  | .none => pure []
  | .self => selfAttestation build data privateKey algorithm
  | .packed => packedAttestation build data privateKey algorithm
  | _ => Prog.fail .unsupportedOption

/-! ## The command -/

/-- The algorithm is one of those keys can be made for. -/
def algorithmSupported (algorithm : Int) : Bool :=
  decide (algorithm = -7 ∨ algorithm = -8 ∨ algorithm = -35 ∨
    (build.rs256 ∧ (algorithm = -37 ∨ algorithm = -257)))

/-- The first supported algorithm of the request; EdDSA if it names none. -/
def selectAlgorithm (params : List PublicKeyCredParams) : Except Ctap2Error Int :=
  if params = [] then .ok (-8)
  else
    match (params.map (·.algorithms)).find? (algorithmSupported build) with
    | some algorithm => .ok algorithm
    | none => .error .unsupportedAlgorithm

/-- The exclude list names no credential of this relying party. -/
def checkExcludeList (a : Auth β) (rpIdHash : Bytes) :
    List CredentialDescriptor → Except Ctap2Error Unit
  | [] => .ok ()
  | descriptor :: rest =>
      match a.storage.getCredential descriptor.id a.crypto with
      | .error _ => .error .unknown
      | .ok none => checkExcludeList a rpIdHash rest
      | .ok (some credential) =>
          if credential.rpIdHash = rpIdHash then .error .credentialExists
          else checkExcludeList a rpIdHash rest

/-- The `credBlob` of the request. -/
def requestedCredBlob (extensions : Option Extensions) : Except Ctap2Error Bytes :=
  match extensions.bind (·.credBlob) with
  | some blob => if blob.length > 32 then .error .invalidParameter else .ok blob
  | none => .ok []

/-- The `credProtect` policy of the request. -/
def requestedPolicy (extensions : Option Extensions) : CredProtectPolicy :=
  ((extensions.bind (·.credProtect)).map CredProtectPolicy.ofU8).getD .userVerificationOptional

/-- A draw and a key pair from it. -/
def drawKeyPair (generate : CryptoEngine → Entropy → Except String (Bytes × Bytes)) :
    Ctap β (Bytes × Bytes) := do
  let entropy ← draw
  Prog.check fun a => (generate a.crypto entropy).mapError fun _ => .unknown

/-- An RSA key pair, its public key in PKCS#1 form. -/
def rsaKeyPair (crypto : CryptoEngine) (entropy : Entropy) : Except String (Bytes × Bytes) := do
  let (pkcs8, n, e) ← crypto.generateRsaKeyPair entropy
  let publicKey ← crypto.rsaPublicKeyDer n e
  .ok (pkcs8, publicKey)

/-- The key pair of a new credential. -/
def newKeyPair (algorithm : Int) : Ctap β (Bytes × Bytes) :=
  if algorithm = -7 then drawKeyPair CryptoEngine.generateP256KeyPair
  else if algorithm = -35 then drawKeyPair CryptoEngine.generateP384KeyPair
  else if build.rs256 ∧ (algorithm = -37 ∨ algorithm = -257) then drawKeyPair rsaKeyPair
  else drawKeyPair CryptoEngine.generateKeyPair

/-- The `largeBlobKey` of a new credential, if it is requested. -/
def newLargeBlobKey (extensions : Option Extensions) : Ctap β (Option Bytes) :=
  if extensions.any (·.largeBlobKey) then do
    let key ← randomBytes 32
    pure (some key)
  else pure none

/-- The `hmac-secret` input of the request. -/
def requestedHmacSecret (extensions : Option Extensions) : Except Ctap2Error Bool :=
  match extensions.bind (·.hmacSecret) with
  | some raw => HmacSecret.parseMakeCredential raw
  | none => .ok false

/-- `CredRandomWithUV` and `CredRandomWithoutUV` of a new credential, if they are requested. -/
def newCredRandoms (extensions : Option Extensions) : Ctap β (Option Bytes × Option Bytes) := do
  let requested ← Prog.check fun _ => requestedHmacSecret extensions
  if requested then do
    let withUv ← randomBytes 32
    let withoutUv ← randomBytes 32
    pure (some withUv, some withoutUv)
  else pure (none, none)

/-- `store_credential`: make room, draw the nonce, encrypt and write. -/
def storeCredential (credential : Credential) : Ctap β Unit := do
  persist .ordinary StorageEngine.makeRoom
  let nonce ← randomBytes 12
  let crypto ← Prog.read fun a => a.crypto
  persist .ordinary (StorageEngine.insertCredential build.codec crypto credential nonce)

/-- The extension outputs of MakeCredential. -/
def makeCredentialOutputs (a : Auth β) (extensions : Extensions) (credBlob : Bytes)
    (largeBlobKey : Option Bytes) : Except Ctap2Error ExtensionOutputs := do
  let hmacSecret ← requestedHmacSecret (some extensions)
  .ok
    { credProtect := extensions.credProtect.map fun _ => (requestedPolicy (some extensions)).toU8
      minPinLength :=
        if extensions.minPinLength then
          some (a.storage.getMinPinLength (a.capabilities.minPinLength.getD 4))
        else none
      credBlob := if credBlob = [] then none else some credBlob
      hmacSecret := if hmacSecret then some (.bool true) else none
      largeBlobKey := if extensions.largeBlobKey then largeBlobKey else none }

/-- The extension outputs, if the request has extensions. -/
def extensionOutputs (a : Auth β) (extensions : Option Extensions) (credBlob : Bytes)
    (largeBlobKey : Option Bytes) : Except Ctap2Error (Option ExtensionOutputs) :=
  match extensions.filter Extensions.hasAny with
  | some extensions => (makeCredentialOutputs a extensions credBlob largeBlobKey).map some
  | none => .ok none

/-- The checks of a request for a credential operation: the token, if one is used, and the
settings that demand one. The result is whether the user was verified. -/
def authenticateOperation (pinProtocol : Option Nat) (pinUvAuthParam : Option Bytes)
    (clientDataHash : Bytes) (permission : UInt8) (rpId : String) (uv : Bool) : Ctap β Bool := do
  let pinAuthenticated ← Prog.check fun a =>
    verifyPinUvAuthForOperation a pinProtocol pinUvAuthParam clientDataHash permission (some rpId)
  Prog.ensure (fun a => !(uv && a.storage.isPinSet && !pinAuthenticated)) .pinRequired
  Prog.ensure (fun a => !(a.storage.isAlwaysUv && !uv)) .pinRequired
  pure pinAuthenticated

/-- The credential a request asks for, not yet stored. -/
def newCredential (request : MakeCredentialRequest) (algorithm : Int) (rpIdHash credBlob : Bytes) :
    Ctap β Credential := do
  let credentialId ← randomBytes 16
  let keys ← newKeyPair build algorithm
  let largeBlobKey ← newLargeBlobKey request.extensions
  let credRandoms ← newCredRandoms request.extensions
  let createdAt ← currentTimestamp build
  pure
    { credentialId := credentialId
      publicKey := keys.2
      privateKey := keys.1
      signCount := 0
      rpIdHash := rpIdHash
      userHandle := some request.user.id
      credBlob := credBlob
      createdAt := createdAt
      algorithm := algorithm
      rpId := request.rp.id
      largeBlobKey := largeBlobKey
      userName := request.user.name
      userDisplayName := request.user.displayName
      credProtect := some (requestedPolicy request.extensions).toU8
      credRandomWithUv := credRandoms.1
      credRandomWithoutUv := credRandoms.2 }

/-- The answer for a stored credential. -/
def makeCredentialResponse (request : MakeCredentialRequest) (credential : Credential)
    (pinAuthenticated : Bool) : Ctap β MakeCredentialResponse := do
  let flags := flagAt ||| flagIf request.options.up flagUp ||| flagIf pinAuthenticated flagUv
  let attested ← Prog.check fun a =>
    attestedCredentialData build a.crypto a.capabilities.aaguid credential.credentialId
      credential.algorithm credential.publicKey
  let authData := authDataHeader credential.rpIdHash flags 0 ++ attested
  let extensions ← Prog.check fun a =>
    extensionOutputs a request.extensions credential.credBlob credential.largeBlobKey
  let enterprisePending ← consumeEpPending
  let configured ← Prog.read fun a => a.attestationFormat
  let format := if enterprisePending then .packed else configured
  let attestationInfo ← attest build format (authData ++ request.clientDataHash)
    credential.privateKey credential.algorithm
  pure ⟨format.asStr, authData, attestationInfo, extensions⟩

/-- `make_credential`. -/
def makeCredential (request : MakeCredentialRequest) : Ctap β MakeCredentialResponse := do
  let pinAuthenticated ← authenticateOperation request.pinProtocol request.pinUvAuthParam
    request.clientDataHash permissionMc request.rp.id request.options.uv
  Prog.when request.options.up checkPresence
  let rpIdHash ← Prog.read fun a => hashRpId request.rp.id a.crypto
  let algorithm ← Prog.check fun _ => selectAlgorithm build request.pubKeyCredParams
  Prog.check fun a => checkExcludeList a rpIdHash request.excludeList
  let credBlob ← Prog.check fun _ => requestedCredBlob request.extensions
  let credential ← newCredential build request algorithm rpIdHash credBlob
  storeCredential build credential
  makeCredentialResponse build request credential pinAuthenticated

end Auth

end OpenKey
