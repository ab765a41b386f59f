import OpenKey.Ctap2.MakeCredential

/-!
# GetAssertion and GetNextAssertion

`get_assertion`, `handle_get_next_assertion` and the selection of credentials of
`crates/openkey-core/src/ctap2/ctap2.rs`.
-/

namespace OpenKey

set_option autoImplicit false

/-! ## Selection -/

/-- `is_cred_protect_allowed`. -/
def isCredProtectAllowed (credential : Credential) (uvSatisfied namedInAllowList : Bool) : Bool :=
  uvSatisfied ||
    (if credential.credProtect = some credProtectUvRequired then false
    else if credential.credProtect = some credProtectAllowlistRequired then namedInAllowList
    else true)

/-- The descriptors a request names: the alias if it has any, else the wire field. -/
def GetAssertionRequest.named (request : GetAssertionRequest) : List CredentialDescriptor :=
  match request.allowList with
  | some (descriptor :: rest) => descriptor :: rest
  | _ => request.credentials

namespace Auth

variable {β : Type} [StorageBackend β] (build : Build)

/-- `cred_protect_uv_satisfied`. -/
def credProtectUvSatisfied (a : Auth β) (pinAuthenticated : Bool) : Bool :=
  pinAuthenticated || a.storage.isAlwaysUv

/-- The first named credential of the relying party that may be used. -/
def selectNamed (a : Auth β) (rpIdHash : Bytes) (uvSatisfied : Bool) :
    List CredentialDescriptor → Except Ctap2Error (Option Credential)
  | [] => .ok none
  | descriptor :: rest =>
      match a.storage.getCredential descriptor.id a.crypto with
      | .error _ => .error .unknown
      | .ok none => selectNamed a rpIdHash uvSatisfied rest
      | .ok (some credential) =>
          if credential.rpIdHash = rpIdHash ∧ isCredProtectAllowed credential uvSatisfied true then
            .ok (some credential)
          else selectNamed a rpIdHash uvSatisfied rest

/-- The credentials of a relying party that may be discovered. -/
def discoverable (a : Auth β) (rpId : String) (uvSatisfied : Bool) : List Credential :=
  (a.storage.findByRpId rpId a.crypto).filter fun c => isCredProtectAllowed c uvSatisfied false

/-- The credential that answers a request: a named one, else the first of the relying party. -/
def selectCredential (a : Auth β) (request : GetAssertionRequest) (uvSatisfied : Bool) :
    Except Ctap2Error Credential :=
  match selectNamed a (hashRpId request.rpId a.crypto) uvSatisfied request.named with
  | .error error => .error error
  | .ok (some credential) => .ok credential
  | .ok none =>
      match discoverable a request.rpId uvSatisfied with
      | [] => .error .noCredentials
      | credential :: _ => .ok credential

/-- The id of a named credential, if it may be used for the relying party. -/
def matchingId (a : Auth β) (rpId : String) (uvSatisfied : Bool)
    (descriptor : CredentialDescriptor) : Option Bytes :=
  match a.storage.getCredential descriptor.id a.crypto with
  | .ok (some credential) =>
      if credential.rpId = rpId ∧ isCredProtectAllowed credential uvSatisfied true then
        some credential.credentialId
      else none
  | _ => none

/-- `find_matching_credentials`. -/
def findMatchingCredentials (a : Auth β) (rpId : String) (allowList : List CredentialDescriptor)
    (uvSatisfied : Bool) : List Bytes :=
  if allowList = [] then (discoverable a rpId uvSatisfied).map (·.credentialId)
  else allowList.filterMap (matchingId a rpId uvSatisfied)

/-! ## The signature counter -/

/-- `next_sign_count`: the next value, persisted before it is used. -/
def nextSignCount : Ctap β Nat := do
  let current ← Prog.read fun a => a.storage.signCounter
  Prog.ensure (fun _ => decide (current + 1 < 2 ^ 32)) .unknown
  persist .ordinary (storeDecimal signCounterStorageKey (current + 1))
  pure (current + 1)

/-- The parts of a response that are signed. -/
structure Assertion where
  authData : Bytes
  signature : Bytes

/-- Count, and sign `authData || clientDataHash`. -/
def signCounted (credential : Credential) (rpIdHash : Bytes) (flags : UInt8)
    (clientDataHash : Bytes) : Ctap β Assertion := do
  let signCount ← nextSignCount
  persist .ordinary
    (StorageEngine.updateSignCount build.codec credential.credentialId signCount)
  let authData := authDataHeader rpIdHash flags signCount
  let signature ← signAssertion build credential.algorithm credential.privateKey
    (authData ++ clientDataHash)
  pure ⟨authData, signature⟩

/-! ## hmac-secret -/

/-- The secret of a credential for the extension. -/
def credRandom (credential : Credential) (withUv : Bool) : Option Bytes :=
  if withUv then credential.credRandomWithUv else credential.credRandomWithoutUv

/-- The output of the extension in the first assertion, which opens the session. -/
def firstHmacSecret (credential : Credential) (up pinAuthenticated : Bool) (raw : Value) :
    Ctap β (Option Value) := do
  Prog.ensure (fun _ => up) .unsupportedOption
  let request ← Prog.check fun _ => HmacSecret.parseGetAssertion raw
  match credRandom credential pinAuthenticated with
  | none => pure none
  | some secret => do
      let session ← beginSession request
      let encrypted ← sessionOutput session secret
      Prog.update fun a => { a with hmacSecretSession := some session }
      pure (some (.bytes encrypted))

/-- The extension outputs of the first assertion. -/
def getAssertionOutputs (request : GetAssertionRequest) (extensions : Extensions)
    (credential : Credential) (pinAuthenticated : Bool) : Ctap β ExtensionOutputs := do
  let hmacSecret ← extensions.hmacSecret.elim (pure none)
    (firstHmacSecret credential request.options.up pinAuthenticated)
  pure
    { ExtensionOutputs.default with
      hmacSecret := hmacSecret
      credBlob := if credential.credBlob = [] then none else some credential.credBlob
      largeBlobKey := if extensions.largeBlobKey then credential.largeBlobKey else none }

/-- The extension outputs, if the request has extensions. -/
def firstExtensions (request : GetAssertionRequest) (credential : Credential)
    (pinAuthenticated : Bool) : Ctap β (Option ExtensionOutputs) :=
  match request.extensions.filter Extensions.hasAny with
  | some extensions => do
      let outputs ← getAssertionOutputs request extensions credential pinAuthenticated
      pure (some outputs)
  | none => pure none

/-- The output of the extension in a chained assertion. -/
def chainedHmacSecret (state : GetNextAssertionState) (credential : Credential) :
    Ctap β (Option Value) := do
  let session ← Prog.read fun a => a.hmacSecretSession
  match (state.extensions.bind (·.hmacSecret)).isSome, credRandom credential state.uvSatisfied,
    session with
  | true, some secret, some session => do
      let encrypted ← sessionOutput session secret
      pure (some (.bytes encrypted))
  | _, _, _ => pure none

/-- End the hmac-secret session. -/
def endHmacSession : Ctap β Unit := Prog.update fun a => { a with hmacSecretSession := none }

/-! ## Responses -/

/-- The descriptor of a credential. -/
def descriptorOf (credential : Credential) : CredentialDescriptor :=
  ⟨"public-key", credential.credentialId, none⟩

/-- The user of a credential, by id only. -/
def userOf (credential : Credential) : User :=
  ⟨credential.userHandle.getD [], none, none, none⟩

/-- `as u16`. -/
def asU16 (n : Nat) : Nat := n % 2 ^ 16

/-! ## GetAssertion -/

/-- The flags of an assertion. -/
def assertionFlags (up pinAuthenticated : Bool) : UInt8 :=
  flagIf up flagUp ||| flagIf pinAuthenticated flagUv

/-- What GetAssertion leaves for GetNextAssertion: a state if there is more than one match. -/
def openEnumeration (request : GetAssertionRequest) (flags : UInt8) (uvSatisfied : Bool)
    (credential : Credential) : Ctap β Nat := do
  let matching ← Prog.read fun a =>
    findMatchingCredentials a request.rpId request.named uvSatisfied
  if matching.length > 1 then do
    Prog.update fun a =>
      { a with
        getNextAssertionState := some
          { rpId := request.rpId
            clientDataHash := request.clientDataHash
            allowList := request.named
            flags := flags
            extensions := request.extensions
            uvSatisfied := uvSatisfied
            currentIndex := (matching.findIdx? (· = credential.credentialId)).getD 0 } }
    pure matching.length
  else do
    endHmacSession
    pure matching.length

/-- `get_assertion`. -/
def getAssertion (request : GetAssertionRequest) : Ctap β GetAssertionResponse := do
  let pinAuthenticated ← authenticateOperation request.pinProtocol request.pinUvAuthParam
    request.clientDataHash permissionGa request.rpId request.options.uv
  Prog.when request.options.up checkPresence
  let uvSatisfied ← Prog.read fun a => a.credProtectUvSatisfied pinAuthenticated
  let credential ← Prog.check fun a => selectCredential a request uvSatisfied
  let flags := assertionFlags request.options.up pinAuthenticated
  let rpIdHash ← Prog.read fun a => hashRpId request.rpId a.crypto
  let assertion ← signCounted build credential rpIdHash flags request.clientDataHash
  let extensions ← firstExtensions request credential pinAuthenticated
  let total ← openEnumeration request flags uvSatisfied credential
  pure
    { credential := some (descriptorOf credential)
      authData := assertion.authData
      signature := assertion.signature
      user := some (userOf credential)
      numberOfCredentials := if total > 1 then some (asU16 total) else none
      extensions := extensions }

/-! ## GetNextAssertion -/

/-- Take the state of the enumeration. -/
def takeNextState : Ctap β GetNextAssertionState := do
  let state ← Prog.act fun a => (a.getNextAssertionState, { a with getNextAssertionState := none })
  Prog.check fun _ => state.elim (.error .invalidState) .ok

/-- The next match; if there is none the enumeration and the hmac-secret session end. -/
def nextMatch (state : GetNextAssertionState) (matching : List Bytes) : Ctap β Bytes :=
  match matching[state.currentIndex + 1]? with
  | some credentialId => pure credentialId
  | none => do
      endHmacSession
      Prog.fail .noCredentials

/-- The stored credential with this id. -/
def loadCredential (credentialId : Bytes) : Ctap β Credential :=
  Prog.check fun a =>
    match a.storage.getCredential credentialId a.crypto with
    | .ok (some credential) => .ok credential
    | .ok none => .error .noCredentials
    | .error _ => .error .unknown

/-- `build_get_assertion_response`. -/
def buildGetAssertionResponse (credential : Credential) (total : Nat) (clientDataHash : Bytes)
    (flags : UInt8) (chainedHmac : Option Value) : Ctap β GetAssertionResponse := do
  let rpIdHash ← Prog.read fun a => a.crypto.sha256 (utf8 credential.rpId)
  let assertion ← signCounted build credential rpIdHash flags clientDataHash
  pure
    { credential := some (descriptorOf credential)
      authData := assertion.authData
      signature := assertion.signature
      user := some (userOf credential)
      numberOfCredentials := some (asU16 total)
      extensions := chainedHmac.map fun output =>
        { ExtensionOutputs.default with hmacSecret := some output } }

/-- `handle_get_next_assertion`. -/
def handleGetNextAssertion : Ctap β GetAssertionResponse := do
  let state ← takeNextState
  let matching ← Prog.read fun a =>
    findMatchingCredentials a state.rpId state.allowList state.uvSatisfied
  let credentialId ← nextMatch state matching
  let credential ← loadCredential credentialId
  let chainedHmac ← chainedHmacSecret state credential
  Prog.when (decide (matching.length ≤ state.currentIndex + 2)) endHmacSession
  Prog.update fun a =>
    { a with
      getNextAssertionState := some { state with currentIndex := state.currentIndex + 1 } }
  buildGetAssertionResponse build credential matching.length state.clientDataHash state.flags
    chainedHmac

end Auth

end OpenKey
