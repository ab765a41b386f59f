import OpenKey.Crypto.Engine
import OpenKey.Storage.Backend

/-!
# The storage engine

`StorageEngine` of `crates/openkey-storage/src/storage.rs`: an in-memory index of credentials,
a key-value store and the large-blob array, written through to an optional backend. Each
operation is a program over the engine in the order of the source, so what it has changed when
the backend fails is what the source has changed.

The CBOR form of a stored credential is a codec, a parameter of the operations that write one.
Log messages are left out.
-/

namespace OpenKey

open Std

set_option autoImplicit false

/-! ## Records -/

/-- A FIDO2 credential. -/
structure Credential where
  credentialId : Bytes
  publicKey : Bytes
  /-- Empty while the credential is at rest. -/
  privateKey : Bytes
  signCount : Nat
  rpIdHash : Bytes
  userHandle : Option Bytes
  credBlob : Bytes
  createdAt : Nat
  /-- COSE algorithm. -/
  algorithm : Int
  rpId : String
  largeBlobKey : Option Bytes
  userName : Option String
  userDisplayName : Option String
  /-- The credProtect policy as on the wire; `none` in old records. -/
  credProtect : Option Nat
  credRandomWithUv : Option Bytes
  credRandomWithoutUv : Option Bytes
  deriving DecidableEq

/-- A credential at rest, with its private key encrypted. -/
structure StoredCredential where
  credential : Credential
  encryptedPrivateKey : Bytes
  nonce : Bytes
  deriving DecidableEq

/-- `Box<dyn Error>`: a storage error or a message. -/
inductive EngineError
  | storage (error : StorageError)
  | message (text : String)
  deriving DecidableEq, Repr

/-- The storage engine over backends of type `β`. -/
structure StorageEngine (β : Type) where
  credentials : ExtTreeMap Bytes StoredCredential
  kvStore : KvMap
  largeBlobs : Bytes
  backend : Option β
  /-- Writes counted per sector; informational. -/
  wearCounters : ExtTreeMap String Nat
  maxCredentialCount : Option Nat

/-- `LARGE_BLOBS_STORAGE_KEY`. -/
def largeBlobsStorageKey : String := "sys:large_blobs"

/-- `MAX_LARGE_BLOBS_SIZE`. -/
def maxLargeBlobsSize : Nat := 4096

/-- A codec for stores without credentials: none has an encoding that can be decoded. -/
def unusedCodec : Codec StoredCredential where
  encode _ := List.replicate (2 ^ 64) 0
  decode _ := none
  decode_encode _ h := by
    rw [List.length_replicate] at h
    exact absurd h (Nat.lt_irrefl _)

/-- One more than the greatest `usize` of the microcontroller. -/
def usizeRange : Nat := 2 ^ 32

/-- A hexadecimal digit. -/
def hexDigit (n : Nat) : Char := "0123456789abcdef".toList.getD n '0'

/-- `hex::encode`. -/
def hexEncode (bytes : Bytes) : String :=
  .ofList (bytes.flatMap fun b => [hexDigit (b.toNat / 16), hexDigit (b.toNat % 16)])

/-- The backend key of a credential. -/
def credKey (credentialId : Bytes) : String := "cred:" ++ hexEncode credentialId

/-- `Iterator::min_by_key`: the first of the smallest. -/
def minByKey {α : Type} (key : α → Nat) : List α → Option α
  | [] => none
  | a :: as =>
      match minByKey key as with
      | none => some a
      | some b => if key b < key a then some b else some a

namespace StorageEngine

variable {β : Type} [StorageBackend β]

/-- An engine that has loaded nothing. -/
def empty (backend : Option β) : StorageEngine β where
  credentials := ∅
  kvStore := ∅
  largeBlobs := []
  backend := backend
  wearCounters := ∅
  maxCredentialCount := none

/-- `new`: an engine in memory only. -/
def new : StorageEngine β := empty none

section Loading

variable (codec : Codec StoredCredential)

/-- One turn of the loading loop. Entries that are not credentials are skipped. -/
def loadEntry (key : String) (value : Bytes) (e : StorageEngine β) : StorageEngine β :=
  if key = largeBlobsStorageKey then { e with largeBlobs := value }
  else
    match codec.decode value with
    | some stored =>
        { e with credentials := e.credentials.insert stored.credential.credentialId stored }
    | none => e

/-- The loading loop; the first read that fails ends it. -/
def loadKeys (b : β) : List String → Prog (StorageEngine β) StorageError Unit
  | [] => pure ()
  | key :: keys => do
      let value ← Prog.check fun _ => StorageBackend.read b key
      Prog.update fun e => value.elim e fun value => loadEntry codec key value e
      loadKeys b keys

/-- `load_from_backend`. -/
def loadFromBackend (b : β) : Prog (StorageEngine β) StorageError Unit := do
  let keys ← Prog.check fun _ => StorageBackend.listKeys b
  loadKeys codec b keys

/-- `with_backend`: a load that fails is logged and what was loaded is kept. -/
def withBackend (b : β) : StorageEngine β := ((loadFromBackend codec b).run (empty (some b))).2

end Loading

/-! ## Access to the backend -/

/-- A call on the backend, if there is one. -/
def onBackend (m : Prog β StorageError Unit) : Prog (StorageEngine β) EngineError Unit :=
  .mk fun e =>
    match e.backend with
    | none => (.ok (), e)
    | some b => ((m.run b).1.mapError .storage, { e with backend := some (m.run b).2 })

omit [StorageBackend β] in
/-- A call on the backend changes nothing else. -/
theorem onBackend_snd (m : Prog β StorageError Unit) (e : StorageEngine β) :
    ∃ backend, ((onBackend m).run e).2 = { e with backend := backend } := by
  cases h : e.backend with
  | none => exact ⟨none, by simp only [onBackend, h]; rw [← h]⟩
  | some b => exact ⟨some (m.run b).2, by simp only [onBackend, h]⟩

/-- A call on the backend whose result is discarded. -/
def onBackendIgnored (m : Prog β StorageError Unit) : Prog (StorageEngine β) EngineError Unit := do
  let _ ← (Prog.attempt (onBackend m) :
    Prog (StorageEngine β) EngineError (Except EngineError Unit))
  pure ()

/-- `increment_wear_counter`: it warns and never fails. -/
def incrementWearCounter (sector : String) : Prog (StorageEngine β) EngineError Unit :=
  Prog.update fun e =>
    { e with wearCounters := e.wearCounters.insert sector ((e.wearCounters[sector]?).getD 0 + 1) }

/-! ## Key-value entries -/

/-- `store`: the backend first, then memory. -/
def store (key : String) (value : Bytes) : Prog (StorageEngine β) EngineError Unit := do
  incrementWearCounter "kv"
  onBackend (StorageBackend.write key value)
  Prog.update fun e => { e with kvStore := e.kvStore.insert key value }

/-- `retrieve`: the backend first, then memory. -/
def retrieve (e : StorageEngine β) (key : String) : Except EngineError Bytes :=
  let fromMemory : Except EngineError Bytes :=
    match e.kvStore[key]? with
    | some value => .ok value
    | none => .error (.message ("Key '" ++ key ++ "' not found"))
  match e.backend with
  | none => fromMemory
  | some b =>
      match StorageBackend.read b key with
      | .error error => .error (.storage error)
      | .ok (some value) => .ok value
      | .ok none => fromMemory

/-- The entry under a key, with a failed read as an absent one. -/
def value (e : StorageEngine β) (key : String) : Option Bytes := (e.retrieve key).toOption

/-- `delete`: the result of the backend is discarded. -/
def delete (key : String) : Prog (StorageEngine β) EngineError Unit := do
  onBackendIgnored (StorageBackend.delete key)
  Prog.update fun e => { e with kvStore := e.kvStore.erase key }

/-! ## Credentials -/

/-- `delete_credential`: memory first, then the backend. -/
def deleteCredential (credentialId : Bytes) : Prog (StorageEngine β) EngineError Bool := do
  let found ← Prog.read fun e => (e.credentials[credentialId]?).isSome
  if found then do
    Prog.update fun e => { e with credentials := e.credentials.erase credentialId }
    onBackend (StorageBackend.delete (credKey credentialId))
    pure true
  else pure false

/-- The stored credentials, in the order of their ids. -/
def records (e : StorageEngine β) : List StoredCredential := e.credentials.toList.map (·.2)

/-- The credential `prune_oldest_credential` picks. -/
def oldest (e : StorageEngine β) : Option StoredCredential :=
  minByKey (fun s => s.credential.createdAt) e.records

/-- `prune_oldest_credential`. -/
def pruneOldestCredential : Prog (StorageEngine β) EngineError Unit := do
  let found ← Prog.read oldest
  match found with
  | some s => do
      let _ ← deleteCredential s.credential.credentialId
      pure ()
  | none => pure ()

/-- The engine is at its limit of credentials. -/
def isFull (e : StorageEngine β) : Bool :=
  e.maxCredentialCount.elim false fun max => decide (max ≤ e.credentials.size)

/-- The first part of `store_credential`: make room. -/
def makeRoom : Prog (StorageEngine β) EngineError Unit := do
  let full ← Prog.read isFull
  Prog.when full pruneOldestCredential

/-- The credential at rest: the private key only in encrypted form. -/
def atRest (crypto : CryptoEngine) (credential : Credential) (nonce : Bytes) :
    Except EngineError StoredCredential :=
  match crypto.encrypt credential.privateKey nonce with
  | .ok encrypted =>
      .ok { credential := { credential with privateKey := [] }
            encryptedPrivateKey := encrypted, nonce := nonce }
  | .error text => .error (.message text)

section

variable (codec : Codec StoredCredential)

/-- Write a credential to the backend. -/
def writeCredential (credentialId : Bytes) (stored : StoredCredential) :
    Prog (StorageEngine β) EngineError Unit :=
  onBackend (StorageBackend.write (credKey credentialId) (codec.encode stored))

/-- The second part of `store_credential`: encrypt, persist, index. -/
def insertCredential (crypto : CryptoEngine) (credential : Credential) (nonce : Bytes) :
    Prog (StorageEngine β) EngineError Unit := do
  let stored ← Prog.check fun _ => atRest crypto credential nonce
  incrementWearCounter "credentials"
  writeCredential codec stored.credential.credentialId stored
  Prog.update fun e =>
    { e with credentials := e.credentials.insert stored.credential.credentialId stored }

/-- `store_credential`, with the nonce its caller's generator yields. -/
def storeCredential (crypto : CryptoEngine) (credential : Credential) (nonce : Bytes) :
    Prog (StorageEngine β) EngineError Unit := do
  makeRoom
  insertCredential codec crypto credential nonce

/-- Rewrite the record of a stored credential: memory first, then the backend. -/
def rewriteCredential (credentialId : Bytes) (stored : StoredCredential) :
    Prog (StorageEngine β) EngineError Unit := do
  Prog.update fun e => { e with credentials := e.credentials.insert credentialId stored }
  writeCredential codec credentialId stored

/-- `update_sign_count`. -/
def updateSignCount (credentialId : Bytes) (signCount : Nat) :
    Prog (StorageEngine β) EngineError Unit := do
  let found ← Prog.read fun e => e.credentials[credentialId]?
  match found with
  | some stored =>
      rewriteCredential codec credentialId
        { stored with credential := { stored.credential with signCount := signCount } }
  | none => Prog.fail (.message "Credential not found")

/-- `update_user_info`. -/
def updateUserInfo (credentialId : Bytes) (userName userDisplayName : Option String) :
    Prog (StorageEngine β) EngineError Bool := do
  let found ← Prog.read fun e => e.credentials[credentialId]?
  match found with
  | some stored => do
      rewriteCredential codec credentialId
        { stored with
          credential := { stored.credential with
            userName := userName, userDisplayName := userDisplayName } }
      pure true
  | none => pure false

end

/-- A stored credential with its private key decrypted. -/
def unlock (crypto : CryptoEngine) (stored : StoredCredential) : Except EngineError Credential :=
  match crypto.decrypt stored.encryptedPrivateKey stored.nonce with
  | .ok privateKey => .ok { stored.credential with privateKey := privateKey }
  | .error text => .error (.message text)

/-- `get_credential`: an unknown id is not an error. -/
def getCredential (e : StorageEngine β) (credentialId : Bytes) (crypto : CryptoEngine) :
    Except EngineError (Option Credential) :=
  match e.credentials[credentialId]? with
  | some stored => (unlock crypto stored).map some
  | none => .ok none

/-- `find_credentials_by_rp_hash`: those that decrypt. -/
def findCredentialsByRpHash (e : StorageEngine β) (rpHash : Bytes) (crypto : CryptoEngine) :
    List Credential :=
  (e.records.filter fun s => s.credential.rpIdHash = rpHash).filterMap fun s =>
    (unlock crypto s).toOption

/-- `find_by_rp_id`. -/
def findByRpId (e : StorageEngine β) (rpId : String) (crypto : CryptoEngine) : List Credential :=
  findCredentialsByRpHash e (crypto.sha256 (utf8 rpId)) crypto

/-- The loop of `enumerate_rps`: each hash once, with the first id seen. -/
def enumerateRpsFrom (seen : List Bytes) : List StoredCredential → List (String × Bytes)
  | [] => []
  | s :: rest =>
      if s.credential.rpId = "" then enumerateRpsFrom seen rest
      else if s.credential.rpIdHash ∈ seen then enumerateRpsFrom seen rest
      else
        (s.credential.rpId, s.credential.rpIdHash) ::
          enumerateRpsFrom (s.credential.rpIdHash :: seen) rest

/-- `enumerate_rps`. -/
def enumerateRps (e : StorageEngine β) : List (String × Bytes) :=
  enumerateRpsFrom [] e.records

/-- `get_credentials_count`. -/
def getCredentialsCount (e : StorageEngine β) : Nat := e.credentials.size

/-- `get_max_possible_remaining`. -/
def getMaxPossibleRemaining (e : StorageEngine β) : Nat :=
  e.maxCredentialCount.getD 50 - e.credentials.size

/-! ## Large blobs -/

/-- `read_large_blobs`. -/
def readLargeBlobs (e : StorageEngine β) (offset count : Nat) : Bytes :=
  (e.largeBlobs.drop offset).take count

/-- The checks of `write_large_blobs`, in order; the result is the end of the fragment. -/
def checkLargeBlobs (e : StorageEngine β) (offset : Nat) (data : Bytes)
    (expectedLen : Option Nat) : Except EngineError Nat :=
  let invalid (text : String) : Except EngineError Nat :=
    .error (.storage (.invalidParameter text))
  let last := offset + data.length
  if usizeRange ≤ last then invalid "large blobs offset overflow"
  else if last > maxLargeBlobsSize then
    invalid "Large blobs write exceeds maximum supported size (4096 bytes)"
  else if expectedLen.any (· > maxLargeBlobsSize) then
    invalid "Large blob exceeds maximum supported size (4096 bytes)"
  else if expectedLen.any (last > ·) then
    invalid ("large blobs write end " ++ toString last ++ " exceeds expected_len " ++
      toString (expectedLen.getD 0))
  else if offset > e.largeBlobs.length then
    invalid ("sparse hole: offset " ++ toString offset ++ " > current_len " ++
      toString e.largeBlobs.length)
  else .ok last

/-- `Vec::resize` with zeros, growing only. -/
def grow (blobs : Bytes) (target : Nat) : Bytes :=
  blobs ++ List.replicate (target - blobs.length) 0

/-- The array after a fragment is written into it. -/
def splicedBlobs (blobs : Bytes) (offset : Nat) (data : Bytes) (expectedLen : Option Nat) : Bytes :=
  let last := offset + data.length
  Bytes.splice (grow blobs (max (expectedLen.getD last) last)) offset data

/-- `write_large_blobs`: memory first, then the backend. -/
def writeLargeBlobs (offset : Nat) (data : Bytes) (expectedLen : Option Nat) :
    Prog (StorageEngine β) EngineError Unit := do
  let _ ← Prog.check fun e => checkLargeBlobs e offset data expectedLen
  let blobs ← Prog.read fun e => splicedBlobs e.largeBlobs offset data expectedLen
  Prog.update fun e => { e with largeBlobs := blobs }
  onBackend (StorageBackend.write largeBlobsStorageKey blobs)

/-- `clear_large_blobs`: the result of the backend is discarded. -/
def clearLargeBlobs : Prog (StorageEngine β) EngineError Unit := do
  Prog.update fun e => { e with largeBlobs := [] }
  onBackendIgnored (StorageBackend.delete largeBlobsStorageKey)

/-- `get_large_blobs_len`. -/
def getLargeBlobsLen (e : StorageEngine β) : Nat := e.largeBlobs.length

/-! ## Reset -/

/-- Delete keys one by one, whatever each deletion says. -/
def deleteAll : List String → Prog (StorageEngine β) EngineError Unit
  | [] => pure ()
  | key :: keys => do
      onBackendIgnored (StorageBackend.delete key)
      deleteAll keys

/-- The keys `clear` deletes: none if they cannot be listed. -/
def knownKeys (e : StorageEngine β) : List String :=
  e.backend.elim [] fun b => (StorageBackend.listKeys b).toOption.getD []

/-- `clear`: every key of the backend, the credentials and the entries; not the large blobs. -/
def clear : Prog (StorageEngine β) EngineError Unit := do
  let keys ← Prog.read knownKeys
  deleteAll keys
  Prog.update fun e => { e with credentials := ∅, kvStore := ∅ }

end StorageEngine

end OpenKey
