import OpenKey.Ctap2.GetAssertion
import Mathlib.Data.List.Infix

/-!
# Managing what is stored

The handlers of `crates/openkey-core/src/ctap2/ctap2.rs` for CredentialManagement, LargeBlobs and
the two commands that enumerate relying parties.
-/

namespace OpenKey

set_option autoImplicit false

/-- `as u8`. -/
def asU8 (n : Nat) : Nat := n % 2 ^ 8

/-- `as u32`. -/
def asU32 (n : Nat) : Nat := n % 2 ^ 32

/-- `str::contains`. -/
def containsText (text sub : String) : Bool := decide (sub.toList <:+: text.toList)

namespace Auth

variable {β : Type} [StorageBackend β] (build : Build)

/-! ## Enumerations -/

/-- Start an enumeration at its first item; an empty one is not started. -/
def beginEnumeration {α : Type} (put : Option (Enumeration α) → Auth β → Auth β) (items : List α) :
    Ctap β α :=
  match items with
  | [] => Prog.fail .noCredentials
  | first :: rest => do
      Prog.update (put (some ⟨first :: rest, 0⟩))
      pure first

/-- Go on with an enumeration; after its last item it is over. -/
def nextInEnumeration {α : Type} (get : Auth β → Option (Enumeration α))
    (put : Option (Enumeration α) → Auth β → Auth β) : Ctap β (α × Nat) := do
  let state ← Prog.check fun a => (get a).elim (.error .invalidState) .ok
  match state.items[state.currentIndex + 1]? with
  | none => do
      Prog.update (put none)
      Prog.fail .noCredentials
  | some item => do
      Prog.update (put (some { state with currentIndex := state.currentIndex + 1 }))
      pure (item, state.items.length)

/-! ## EnumerateRPs -/

/-- Set the state of EnumerateRPs. -/
def putEnumerateRps (state : Option (Enumeration (String × Bytes))) (a : Auth β) : Auth β :=
  { a with enumerateRpsState := state }

/-- The answer of EnumerateRPs. -/
def enumerateRpsResponse (rp : String × Bytes) (total : Nat) : EnumerateRpsResponse :=
  ⟨⟨rp.1, none, none⟩, rp.2, asU8 total⟩

/-- `handle_enumerate_rps_initial`. -/
def handleEnumerateRpsInitial : Ctap β EnumerateRpsResponse := do
  let rps ← Prog.read fun a => a.storage.enumerateRps
  let first ← beginEnumeration putEnumerateRps rps
  pure (enumerateRpsResponse first rps.length)

/-- `handle_enumerate_rps_next`. -/
def handleEnumerateRpsNext : Ctap β EnumerateRpsResponse := do
  let (rp, total) ← nextInEnumeration (fun a => a.enumerateRpsState) putEnumerateRps
  pure (enumerateRpsResponse rp total)

/-! ## LargeBlobs -/

/-- `usize::try_from`. -/
def toUsize (n : Nat) : Except Ctap2Error Nat :=
  if n < usizeRange then .ok n else .error .invalidParameter

/-- The status a failed write of large blobs is mapped to. -/
def largeBlobsError : EngineError → Ctap2Error
  | .storage (.invalidParameter _) => .invalidParameter
  | .storage (.backendError text) =>
      if containsText text "exceeds sector capacity" then .largeBlobStorageFull else .unknown
  | .storage _ => .unknown
  | .message text =>
      if containsText text "InvalidParameter" || containsText text "sparse" ||
        containsText text "exceeds" then .invalidParameter
      else .unknown

/-- A write of large blobs whose range is in order. -/
structure LargeBlobsWrite where
  offset : Nat
  data : Bytes
  expectedLen : Option Nat

/-- The checks of the range before a write. -/
def checkLargeBlobsWrite (maxSize : Nat) (request : LargeBlobsRequest) (data : Bytes) :
    Except Ctap2Error LargeBlobsWrite := do
  let expectedLen ← request.length.elim (.ok none) fun n => (toUsize n).map some
  let offset ← toUsize request.offset
  let writeEnd ← toUsize (offset + data.length)
  if writeEnd > maxSize then .error .invalidParameter
  else if expectedLen.any (· > maxSize) then .error .invalidParameter
  else if expectedLen.any (writeEnd > ·) then .error .invalidParameter
  else .ok ⟨offset, data, expectedLen⟩

/-- The limit on large blobs. -/
def largeBlobsLimit (a : Auth β) : Nat :=
  (a.capabilities.maxLargeBlobDataSize.getD maxLargeBlobsSize) % usizeRange

/-- The read of a request without `set`. -/
def readLargeBlobs (request : LargeBlobsRequest) : Ctap β LargeBlobsResponse := do
  let offset ← Prog.check fun _ => toUsize request.offset
  Prog.read fun a =>
    ⟨some (a.storage.readLargeBlobs offset ((request.get.getD 0) % usizeRange))⟩

/-- The write of a request with `set`. -/
def writeLargeBlobs (request : LargeBlobsRequest) (data : Bytes) : Ctap β LargeBlobsResponse := do
  let write ← Prog.check fun a => checkLargeBlobsWrite a.largeBlobsLimit request data
  Prog.mapError largeBlobsError (onStorage .ordinary
    (StorageEngine.writeLargeBlobs write.offset write.data write.expectedLen))
  pure ⟨none⟩

/-- `handle_large_blobs`. -/
def handleLargeBlobs (data : Bytes) : Ctap β LargeBlobsResponse := do
  let request ← Prog.check fun _ =>
    (build.cbor.decodeLargeBlobs data).mapError fun _ => .invalidParameter
  match request.set with
  | none => readLargeBlobs request
  | some blob => writeLargeBlobs request blob

/-! ## CredentialManagement -/

/-- `credential_management_auth_message`. -/
def credentialManagementAuthMessage (cbor : Ciborium) (data : Bytes) : Except Ctap2Error Bytes :=
  subCommandMessage cbor data

/-- `cose_key_value`: only ES256 keys have a form of their own. -/
def coseKeyValue (credential : Credential) : Value :=
  let key := credential.publicKey
  if credential.algorithm = -7 then
    let (x, y) :=
      if key.length = 65 ∧ key.head? = some 0x04 then ((key.drop 1).take 32, (key.drop 33).take 32)
      else if key.length = 64 then (key.take 32, (key.drop 32).take 32)
      else (key, [])
    .map [(.integer 1, .integer 2), (.integer 3, .integer (-7)), (.integer (-1), .integer 1),
      (.integer (-2), .bytes x), (.integer (-3), .bytes y)]
  else
    .map [(.integer 1, .integer 1), (.integer 3, .integer (-8)), (.integer (-1), .integer 6),
      (.integer (-2), .bytes key)]

/-- `build_enumerate_cred_entry`. -/
def buildEnumerateCredEntry (credential : Credential) (total : Nat) :
    EnumerateCredentialsEntryResponse where
  user := ⟨credential.userHandle.getD [], credential.userName, credential.userDisplayName, none⟩
  credentialId := descriptorOf credential
  publicKey := coseKeyValue credential
  totalCredentials := asU32 total
  credProtect := credential.credProtect
  largeBlobKey := credential.largeBlobKey

/-- Set the state of enumerateRPs. -/
def putCredMgmtRps (state : Option (Enumeration (String × Bytes))) (a : Auth β) : Auth β :=
  { a with credMgmtRpsState := state }

/-- Set the state of enumerateCredentials. -/
def putCredMgmtCreds (state : Option (Enumeration Credential)) (a : Auth β) : Auth β :=
  { a with credMgmtCredsState := state }

/-- The answer of enumerateRPs. -/
def enumerateRpsEntry (rp : String × Bytes) (total : Nat) : EnumerateRpsEntryResponse :=
  ⟨⟨rp.1, some rp.1, none⟩, rp.2, asU32 total⟩

/-- `handle_cred_mgmt_get_metadata`. -/
def handleCredMgmtGetMetadata : Ctap β CtapResponse :=
  Prog.read fun a =>
    .credsMetadata ⟨asU32 a.storage.getCredentialsCount, asU32 a.storage.getMaxPossibleRemaining⟩

/-- `handle_cred_mgmt_enumerate_rps_begin`. -/
def handleCredMgmtEnumerateRpsBegin : Ctap β CtapResponse := do
  let rps ← Prog.read fun a => a.storage.enumerateRps
  let first ← beginEnumeration putCredMgmtRps rps
  pure (.enumerateRpsEntry (enumerateRpsEntry first rps.length))

/-- `handle_cred_mgmt_enumerate_rps_next`. -/
def handleCredMgmtEnumerateRpsNext : Ctap β CtapResponse := do
  let (rp, total) ← nextInEnumeration (fun a => a.credMgmtRpsState) putCredMgmtRps
  pure (.enumerateRpsEntry (enumerateRpsEntry rp total))

/-- `handle_cred_mgmt_enumerate_creds_begin`. -/
def handleCredMgmtEnumerateCredsBegin (rpHash : Bytes) : Ctap β CtapResponse := do
  let creds ← Prog.read fun a => a.storage.findCredentialsByRpHash rpHash a.crypto
  let first ← beginEnumeration putCredMgmtCreds creds
  pure (.enumerateCredentialsEntry (buildEnumerateCredEntry first creds.length))

/-- `handle_cred_mgmt_enumerate_creds_next`. -/
def handleCredMgmtEnumerateCredsNext : Ctap β CtapResponse := do
  let (credential, total) ← nextInEnumeration (fun a => a.credMgmtCredsState) putCredMgmtCreds
  pure (.enumerateCredentialsEntry (buildEnumerateCredEntry credential total))

/-- `handle_cred_mgmt_delete_credential`. -/
def handleCredMgmtDeleteCredential (credentialId : Bytes) : Ctap β CtapResponse := do
  let _ ← Prog.mapError (fun _ => Ctap2Error.noCredentials)
    (onStorage .ordinary (StorageEngine.deleteCredential credentialId))
  pure .empty

/-- `handle_cred_mgmt_update_user`. -/
def handleCredMgmtUpdateUser (credentialId : Bytes) (user : User) : Ctap β CtapResponse := do
  let updated ← persist .ordinary
    (StorageEngine.updateUserInfo build.codec credentialId user.name user.displayName)
  Prog.ensure (fun _ => updated) .noCredentials
  pure .empty

/-- `ok_or(InvalidParameter)`. -/
def demanded {α : Type} (parameter : Option α) : Ctap β α :=
  Prog.check fun _ => parameter.elim (.error .invalidParameter) .ok

/-- The handler of a subcommand. -/
def credMgmtSubCommand (request : CredentialManagementRequest) : Ctap β CtapResponse :=
  match request.subCommand with
  | 0x01 => handleCredMgmtGetMetadata
  | 0x02 => handleCredMgmtEnumerateRpsBegin
  | 0x03 => handleCredMgmtEnumerateRpsNext
  | 0x04 => do
      let params ← demanded request.subCommandParams
      let rpHash ← demanded params.rpIdHash
      handleCredMgmtEnumerateCredsBegin rpHash
  | 0x05 => handleCredMgmtEnumerateCredsNext
  | 0x06 => do
      let params ← demanded request.subCommandParams
      let descriptor ← demanded params.credentialId
      handleCredMgmtDeleteCredential descriptor.id
  | 0x07 => do
      let params ← demanded request.subCommandParams
      let descriptor ← demanded params.credentialId
      let user ← demanded params.user
      handleCredMgmtUpdateUser build descriptor.id user
  | _ => Prog.fail .invalidParameter

/-- `handle_credential_management`. -/
def handleCredentialManagement (data : Bytes) : Ctap β CtapResponse := do
  let request ← Prog.check fun _ =>
    (build.cbor.decodeCredentialManagement data).mapError fun _ => .invalidParameter
  let message ← Prog.check fun _ => credentialManagementAuthMessage build.cbor data
  let pinAuthenticated ← Prog.check fun a =>
    verifyPinUvAuthForOperation a request.pinUvAuthProtocol request.pinUvAuthParam message
      permissionCm none
  Prog.ensure (fun a => pinAuthenticated || a.storage.isPinSet) .pinNotSet
  Prog.ensure (fun _ => pinAuthenticated) .pinRequired
  credMgmtSubCommand build request

end Auth

end OpenKey
