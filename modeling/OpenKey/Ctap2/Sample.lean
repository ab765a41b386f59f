import OpenKey.Ctap2.Commands
import OpenKey.Library.Cbor

/-!
# Libraries and a device for concrete runs

The development leaves the CBOR library and the cryptographic algorithms open. Here they are
filled in, so that a run on concrete bytes can be computed: CBOR in full, the derived decoders for
the fields the handlers read, and the algorithms as tables of their real values at the arguments
that occur in the runs below. The device draws the bytes 1, 2, 3, ..., one per draw.
-/

namespace OpenKey

set_option autoImplicit false

/-! ## CBOR -/

mutual

/-- The CBOR form of a value. -/
def encodeValue : Value → Bytes
  | .integer number =>
      if 0 ≤ number then Cbor.encodeHead 0 number.toNat else Cbor.encodeHead 1 (-1 - number).toNat
  | .bytes bytes => Cbor.encodeHead 2 bytes.length ++ bytes
  | .text text => Cbor.encodeText text
  | .array items => Cbor.encodeHead 4 items.length ++ encodeItems items
  | .map entries => Cbor.encodeHead 5 entries.length ++ encodeEntries entries
  | .tag number value => Cbor.encodeHead 6 number ++ encodeValue value
  | .bool flag => [if flag then 0xf5 else 0xf4]
  | .null => [0xf6]
  | .float bits => 0xfb :: Bytes.beBytes 8 bits.toNat

/-- The items of an array. -/
def encodeItems : List Value → Bytes
  | [] => []
  | item :: items => encodeValue item ++ encodeItems items

/-- The entries of a map. -/
def encodeEntries : List (Value × Value) → Bytes
  | [] => []
  | (key, value) :: entries => encodeValue key ++ encodeValue value ++ encodeEntries entries

end

/-- A value without an argument in its head, or a float. -/
def simpleValue (initial : UInt8) (n : Nat) : Option Value :=
  match initial with
  | 0xf4 => some (.bool false)
  | 0xf5 => some (.bool true)
  | 0xf6 => some .null
  | 0xfb => some (.float (UInt64.ofNat n))
  | _ => none

/-- Read a value; `fuel` bounds its depth. -/
def decodeValue : Nat → Cbor.Reader Value
  | 0 => fun _ => none
  | fuel + 1 => fun input =>
      match Cbor.decodeHead input with
      | none => none
      | some ((major, n), rest) =>
          match major with
          | 0 => some (.integer n, rest)
          | 1 => some (.integer (-1 - n), rest)
          | 2 => if rest.length < n then none else some (.bytes (rest.take n), rest.drop n)
          | 3 => (Cbor.takeText n rest).map fun (text, rest) => (.text text, rest)
          | 4 => (Cbor.readMany (decodeValue fuel) n rest).map fun (items, rest) =>
              (.array items, rest)
          | 5 => (Cbor.readMany (Cbor.decodeEntry (decodeValue fuel) (decodeValue fuel)) n rest).map
              fun (entries, rest) => (.map entries, rest)
          | 6 => (decodeValue fuel rest).map fun (value, rest) => (.tag n value, rest)
          | _ => (simpleValue (input.headD 0) n).map fun value => (value, rest)

/-! ## Derived decoders -/

namespace Value

def asInteger : Value → Option Int
  | .integer number => some number
  | _ => none

def asBytes : Value → Option Bytes
  | .bytes bs => some bs
  | _ => none

def asText : Value → Option String
  | .text t => some t
  | _ => none

def asBool : Value → Option Bool
  | .bool flag => some flag
  | _ => none

def asArray : Value → Option (List Value)
  | .array items => some items
  | _ => none

/-- The value under a name in a map. -/
def field (name : String) : Value → Option Value
  | .map entries => (entries.find? fun entry => entry.1.asText = some name).map (·.2)
  | _ => none

/-- A field that may be absent. -/
def optional {α : Type} (name : String) (read : Value → Option α) (value : Value) :
    Option (Option α) :=
  match value.field name with
  | none => some none
  | some item => (read item).map some

def asDescriptor (value : Value) : Option CredentialDescriptor := do
  let type ← (← value.field "type").asText
  let id ← (← value.field "id").asBytes
  some ⟨type, id, none⟩

def asDescriptors (value : Value) : Option (List CredentialDescriptor) := do
  (← value.asArray).mapM asDescriptor

def asRelyingParty (value : Value) : Option RelyingParty := do
  let id ← (← value.field "id").asText
  some ⟨id, none, none⟩

def asUser (value : Value) : Option User := do
  let id ← (← value.field "id").asBytes
  some ⟨id, none, none, none⟩

def asCredParams (value : Value) : Option (List PublicKeyCredParams) := do
  (← value.asArray).mapM fun item => do
    let type ← (← item.field "type").asText
    let algorithm ← (← item.field "alg").asInteger
    some ⟨type, algorithm⟩

def asNat (value : Value) : Option Nat := value.asInteger.map Int.toNat

def asExtensions (value : Value) : Option Extensions := do
  let credProtect ← value.optional "credProtect" asNat
  let credBlob ← value.optional "credBlob" asBytes
  let minPinLength ← value.optional "minPinLength" asBool
  let largeBlobKey ← value.optional "largeBlobKey" asBool
  some ⟨credProtect, credBlob, minPinLength.getD false, value.field "hmac-secret",
    largeBlobKey.getD false⟩

def asMakeCredentialOptions (value : Value) : Option MakeCredentialOptions := do
  let rk ← value.optional "rk" asBool
  let uv ← value.optional "uv" asBool
  let up ← value.optional "up" asBool
  let extended ← value.optional "att" asBool
  some ⟨rk.getD false, uv.getD false, up.getD true, extended.getD false⟩

def asGetAssertionOptions (value : Value) : Option GetAssertionOptions := do
  let up ← value.optional "up" asBool
  let uv ← value.optional "uv" asBool
  some ⟨up.getD true, uv.getD false⟩

def asMakeCredentialRequest (value : Value) : Option MakeCredentialRequest := do
  let clientDataHash ← (← value.field "clientDataHash").asBytes
  let rp ← (← value.field "rp").asRelyingParty
  let user ← (← value.field "user").asUser
  let params ← (← value.field "pubKeyCredParams").asCredParams
  let excludeList ← value.optional "excludeList" asDescriptors
  let extensions ← value.optional "extensions" asExtensions
  let options ← value.optional "options" asMakeCredentialOptions
  let pinUvAuthParam ← value.optional "pinUvAuthParam" asBytes
  let pinProtocol ← value.optional "pinUvAuthProtocol" asNat
  let enterprise ← value.optional "enterpriseAttestation" asNat
  some ⟨clientDataHash, rp, user, params, excludeList.getD [], extensions,
    options.getD ⟨false, false, true, false⟩, pinUvAuthParam, pinProtocol, enterprise⟩

def asGetAssertionRequest (value : Value) : Option GetAssertionRequest := do
  let rpId ← (← value.field "rpId").asText
  let credentials ← value.optional "allowList" asDescriptors
  let clientDataHash ← (← value.field "clientDataHash").asBytes
  let extensions ← value.optional "extensions" asExtensions
  let options ← value.optional "options" asGetAssertionOptions
  let pinUvAuthParam ← value.optional "pinUvAuthParam" asBytes
  let pinProtocol ← value.optional "pinUvAuthProtocol" asNat
  let uv ← value.optional "uv" asBool
  some ⟨rpId, credentials.getD [], none, clientDataHash, extensions, options.getD ⟨true, false⟩,
    pinUvAuthParam, pinProtocol, uv⟩

def asLargeBlobsRequest (value : Value) : Option LargeBlobsRequest := do
  let offset ← (← value.field "offset").asNat
  let get ← value.optional "get" asNat
  let set ← value.optional "set" asBytes
  let length ← value.optional "length" asNat
  let pinUvAuthParam ← value.optional "pinUvAuthParam" asBytes
  let pinProtocol ← value.optional "pinUvAuthProtocol" asNat
  some ⟨offset, get, set, length, pinUvAuthParam, pinProtocol⟩

end Value

/-- Read a request from bytes. -/
def readRequest {α : Type} (read : Value → Option α) (data : Bytes) : Option α :=
  (decodeValue 8 data).bind fun item => read item.1

/-- The CBOR library; BioEnroll and CredentialManagement do not occur in the runs. -/
def sampleCbor : Ciborium where
  fromReader := decodeValue 8
  intoWriter := encodeValue
  makeCredentialRequest := readRequest Value.asMakeCredentialRequest
  getAssertionRequest := readRequest Value.asGetAssertionRequest
  bioEnrollRequest _ := none
  credentialManagementRequest _ := none
  largeBlobsRequest := readRequest Value.asLargeBlobsRequest

/-! ## Algorithms -/

/-- The first entry of a table under a key. -/
def tableEntry {α γ : Type} [DecidableEq α] (table : List (α × γ)) (key : α) : Option γ :=
  (table.find? fun entry => entry.1 = key).map (·.2)

/-- Thirty-two bytes, given as a number. -/
def word32 (n : Nat) : Bytes := Bytes.beBytes 32 n

/-- A block of AES, given as a number. -/
def word16 (n : Nat) : Bytes := Bytes.beBytes 16 n

/-- Thirty-two bytes from a table; zeros for a key that is not there. -/
def tableDigest {α : Type} [DecidableEq α] (table : List (α × Nat)) (key : α) : Bytes :=
  word32 ((tableEntry table key).getD 0)

theorem length_tableDigest {α : Type} [DecidableEq α] (table : List (α × Nat)) (key : α) :
    (tableDigest table key).length = 32 := by
  unfold tableDigest word32
  exact Bytes.length_beBytes 32 _

/-- What a draw of the device yields. -/
def drawn (len : Nat) (byte : UInt8) : Bytes := List.replicate len byte

/-- The hash of the client data in the requests. -/
def sampleClientDataHash : Bytes := drawn 32 0xcd

/-- The salt of the extension hmac-secret in the requests. -/
def sampleSalt : Bytes := drawn 32 0x5a

/-- The key of the platform: the generator of P-256. -/
def samplePlatformX : Bytes :=
  word32 0x6b17d1f2e12c4247f8bce6e563a440f277037d812deb33a0f4a13945d898c296

def samplePlatformY : Bytes :=
  word32 0x4fe342e2fe1a7f9b8ee7eb4a7c0f9e162bce33576b315ececbb6406837bf51f5

/-- The x coordinates the key agreements end with, by the draw of the device, and their hashes. -/
def sampleAgreements : List (UInt8 × Nat × Nat) :=
  [(1, 0x6ff03b949241ce1dadd43519e6960e0a85b41a69a05c328103aa2bce1594ca16,
      0x5f9441b96bbf196e9c2e44656c62cc7f87f255be3d7df2cde304675d8c8012e1),
    (2, 0x550f471003f3df97c3df506ac797f6721fb1a1fb7b8f6f83d224498a65c88e24,
      0x496992ff5bdcd1df15937fa4c35d03c6741e4d4964a42e27da2e9c3d72963df5),
    (3, 0x591ab771ebbcfd6d9cb9094d106528add1a69d44c2c1f627f089ec58b9c61adf,
      0x34da1d8c65f4016dae95056014cde965102fb833bd434ed06cae1006195b89dc),
    (4, 0x73103ec30b3ccf57daae08e93534aef144a35940cf6bbba12a0cf7cbd5d65a64,
      0xe19b77d7b28ef1820a4d3fc741f976b084f6264f2865db28d56fc227fab68e24),
    (14, 0x6d1385ffacc9bd4850b750da17c063432bcdb523d90ec9cf9250ba5a1bd30663,
      0x99d6e324525793e455527089e7fd340241aba0ff775b3cc84af53146bb08a0ed)]

/-- The PIN 1234, padded and encrypted under the first secret. -/
def sampleNewPinEnc : Bytes := Bytes.beBytes 64
  (0x45b5cc1ae24f0a0ddb912c2a52cd3488bcd4489ef68af3e1e22633cd07debff6 * 2 ^ 256 +
    0x596807fa8e57189591cb93a7847581731f9c63151ebb77afea7b2199954907ef)

/-- The hash of the PIN, encrypted under the secret of the second draw. -/
def samplePinHashEnc : Bytes := word16 0x007b74c85a9b7903672883c3926a4368

/-- The salt, encrypted under the third secret. -/
def sampleSaltEnc : Bytes :=
  word32 0x24d86641e490433ccffa61fc1ea1f7a034c1f3bf7e5ca4fb18247eeb54bcb4f3

/-- What the credentials sign, by the flags and their signature counter. -/
def sampleSigned (flags : UInt8) (signCount : Nat) : Bytes :=
  authDataHeader (word32 0xa379a6f6eeafb9a55e378c118034e2751e682fab9f2d30ab13d2125586ce1947) flags
    signCount ++ sampleClientDataHash

/-- Pairs of AES blocks, plain and encrypted, under the secrets of the runs. -/
def sampleBlocks : List (Bytes × Bytes) :=
  [(word16 0x31323334000000000000000000000000, word16 0x45b5cc1ae24f0a0ddb912c2a52cd3488),
    (word16 0x45b5cc1ae24f0a0ddb912c2a52cd3488, word16 0xbcd4489ef68af3e1e22633cd07debff6),
    (word16 0xbcd4489ef68af3e1e22633cd07debff6, word16 0x596807fa8e57189591cb93a784758173),
    (word16 0x596807fa8e57189591cb93a784758173, word16 0x1f9c63151ebb77afea7b2199954907ef),
    (word16 0x03ac674216f3e15c761ee1a5e255f067, word16 0x007b74c85a9b7903672883c3926a4368),
    (word16 0x03030303030303030303030303030303, word16 0xb8e93006a7d1a65214e8905fb12184a9),
    (word16 0xbbea3305a4d2a55117eb935cb22287aa, word16 0x5eef0020692ea6657813177b016976bb),
    (word16 0x5a5a5a5a5a5a5a5a5a5a5a5a5a5a5a5a, word16 0x24d86641e490433ccffa61fc1ea1f7a0),
    (word16 0x7e823c1bbeca196695a03ba644fbadfa, word16 0x34c1f3bf7e5ca4fb18247eeb54bcb4f3),
    (word16 0x239333acfc84de440c65ee5266a1ebd6, word16 0x724f810f6e6907c6cdf053452c2204d9),
    (word16 0x42809c02b2e0d434861366bf24da7167, word16 0xc6e02df261160c77353a1a3f74f43359),
    (word16 0x81f234f0b49fdfcd74743434a2625797, word16 0x594e98a1332dfe5148b9c34c7598971a),
    (word16 0xbad8e809029167d7a5f524ee240ab303, word16 0x85809e45e75a47ac2a675e6cc1705776),
    (word16 0x03ac674216f3e15c761ee1a5e255f067, word16 0x6c0f421e8e7d93bd8e0a0f45797ca723),
    (word16 0x0f0f0f0f0f0f0f0f0f0f0f0f0f0f0f0f, word16 0xfde465517f9b92483c019b4d28b80f5d),
    (word16 0xf2eb6a5e70949d47330e944227b70052, word16 0xe14a42aa87acdf318f8e249db3e12323),
    (word16 0xf8638b979b2f4f793ddb6dbd197e0ee2, word16 0xb14dc50c79f5445e1460e763f4b03306),
    (word16 0x03ac674216f3e15c761ee1a5e255f067, word16 0x3d915dc7170a7d666fb1ff1450ff99f7),
    (word16 0x04040404040404040404040404040404, word16 0xaf411033ed47d0e45dea5301bae350fd),
    (word16 0xab451437e943d4e059ee5705bee754f9, word16 0x6c2e18e83f0be0b29c30ce79bf2df11e),
    (word16 0x03ac674216f3e15c761ee1a5e255f067, word16 0x8915e1b683c7ac48e388e30c618c574e),
    (word16 0x05050505050505050505050505050505, word16 0x9e0799d5a1e1a01a1ddd2899559c01b0),
    (word16 0x9b029cd0a4e4a51f18d82d9c509904b5, word16 0xb2092cf7dbd1882b7cfe5ec2b9422822)]

/-- Sealed private keys, with the draw of the nonce and the draw of the key. -/
def sampleSealed : List ((Bytes × Bytes) × Bytes) :=
  [((drawn 12 8, drawn 32 5), Bytes.beBytes 48
      0x19ec6261fbf552003b8e7b5cfa3c4587fabb1d68770ca21230dd71e1037f03a92562efa6134bcedbdaaecd7738214909),
    ((drawn 12 13, drawn 32 10), Bytes.beBytes 48
      0x9010cbf76eceb4a24351257b55fa590457914a615b8ec9a6d255d84e26914779afca3ed04a34f7e3741f209c74d4638e)]

/-- Ed25519 signatures: the key, the counter signed, and the two halves of the signature. -/
def sampleSignatures : List ((Bytes × Bytes) × Bytes) :=
  [((drawn 32 5, sampleSigned 0x01 1),
      word32 0x70e4569889836cf378b47bb836fc8909c156a6e207ed54505d8cc498c22e96a6 ++
      word32 0xbebdaa6d2d11d5939e0bb5d65ad74627f11455ff1913408a91ccd487534b440a),
    ((drawn 32 10, sampleSigned 0x01 2),
      word32 0x72480b1a277c7dc42729b2c3245b8797c5130ae50bfbccb683f241952b37d96a ++
      word32 0xfedfe6042fb528a91e4a94287af39912d9965db5c03781093b584a1d14dce90f),
    ((drawn 32 5, sampleSigned 0x01 2),
      word32 0xfa46905d95dc8c8b851af29b5d5b0ff04c87b5e7bb0abca25da7242e3985464c ++
      word32 0x64c67f3caa8d9fab128745e15099eed6948397dcf6abe04c65b1401c47adf100),
    ((drawn 32 5, sampleSigned 0x05 1),
      word32 0xa1862f77a2df5310d079e0321bbf88cb6a590a67bf5cc18e8c7bb620f59d18a9 ++
      word32 0x4a3dc6b856695ea10639a196ff9a967228560fcb5f32338047bfb3bbe8fc2e0a)]

/-- SHA-256 at the arguments of the runs. -/
def sampleSha256 : Bytes → Bytes :=
  tableDigest ([
    (utf8 "example.com", 0xa379a6f6eeafb9a55e378c118034e2751e682fab9f2d30ab13d2125586ce1947),
    (utf8 "1234", 0x03ac674216f3e15c761ee1a5e255f067953623c8b388b4459e13f978d7c846f4),
    (utf8 "5678", 0xf8638b979b2f4f793ddb6dbd197e0ee25a7a6ea32b0ae22f5e3c5d119d839e75)] ++
    sampleAgreements.map fun entry => (word32 entry.2.1, entry.2.2))

/-- HMAC-SHA-256 at the arguments of the runs. -/
def sampleHmac (key data : Bytes) : Bytes :=
  tableDigest [
    ((word32 0x5f9441b96bbf196e9c2e44656c62cc7f87f255be3d7df2cde304675d8c8012e1, sampleNewPinEnc),
      0xc127e60fbeff89fafda302628724399878c5efea16146c08214c366bef194bdc),
    ((drawn 32 3, [0x0d, 0x02]),
      0x3ddd09eadbb2e1d4ebece9dd90f5c6e9f9da0471994a12f88d116cc202251a73),
    ((drawn 32 5, [0x0d, 0x02]),
      0xa201d53dd205c89facf356172669ee2a337c1929362b16ef4584c79aaedc582d),
    ((word32 0x99d6e324525793e455527089e7fd340241aba0ff775b3cc84af53146bb08a0ed, sampleSaltEnc),
      0x9c5eadba127d3c979a31322c20801deaa9a480a5458ea8fa1094c449905b68d8),
    ((drawn 32 7, sampleSalt), 0x239333acfc84de440c65ee5266a1ebd630cf1d0ddc89d3f24be335fa08f875be),
    ((drawn 32 12, sampleSalt),
      0x81f234f0b49fdfcd74743434a2625797e39670a831bc9986ed4ce7a251922419),
    ((drawn 32 15, sampleClientDataHash),
      0x1e429693adb207325980e54b520077c7f61f4f2ae4c40b46be4cd312d9a35c6b)] (key, data)

/-- The engine of the device, under a master key of zeros. -/
def sampleCrypto : CryptoEngine where
  prims := { unusedCrypto.prims with
    sha256 := sampleSha256
    length_sha256 := fun _ => length_tableDigest _ _
    hmacSha256 := sampleHmac
    length_hmacSha256 := fun _ _ => length_tableDigest _ _
    aeadSeal := fun _ nonce plaintext => tableEntry sampleSealed (nonce, plaintext)
    aeadOpen := fun _ nonce ciphertext => tableEntry
      (sampleSealed.map fun entry => ((entry.1.1, entry.2), entry.1.2)) (nonce, ciphertext)
    aesEncrypt := fun _ block => (tableEntry sampleBlocks block).getD block
    aesDecrypt := fun _ block =>
      (tableEntry (sampleBlocks.map Prod.swap) block).getD block
    ed25519Public := fun seed => tableEntry [
      (drawn 32 5, word32 0x6e7a1cdd29b0b78fd13af4c5598feff4ef2a97166e3ca6f2e4fbfccd80505bf1),
      (drawn 32 10, word32 0x43a72e714401762df66b68c26dfbdf2682aaec9f2474eca4613e424a0fbafd3c)] seed
    ed25519Sign := fun seed data => tableEntry sampleSignatures (seed, data)
    ecdhPublic := fun key => tableEntry [(drawn 32 14,
      0x04 :: word32 0x6d1385ffacc9bd4850b750da17c063432bcdb523d90ec9cf9250ba5a1bd30663 ++
        word32 0x9bc89cbeb62959b428c88a6e9f88a553d689a1a15b2a26a8ba5f66d97fcd87b4)] (key.bytes 32)
    ecdhAgree := fun key peer => tableEntry
      (sampleAgreements.map fun entry => ((drawn 32 entry.1,
        0x04 :: samplePlatformX ++ samplePlatformY), word32 entry.2.1)) (key.bytes 32, peer) }
  key := List.replicate 32 0
  length_key := length_zeros

/-! ## The device -/

/-- A build for a microcontroller. -/
def sampleBuild : Build where
  rs256 := false
  std := false
  cbor := sampleCbor
  codec := unusedCodec

/-- A new device over a storage engine, that lets a token configure it. -/
def sampleDevice (storage : StorageEngine KvMap) : Auth KvMap :=
  let device := Auth.new (List.replicate 16 0) sampleCrypto storage
    (fun n _ => UInt8.ofNat (n + 1)) fun n => n
  { device with capabilities :=
      { device.capabilities with options := device.capabilities.options ++ ["authnrCfg"] } }

/-- The device with its storage in memory. -/
def memoryDevice : Auth KvMap := sampleDevice .new

/-- The device with its storage on a medium that is still empty. -/
def backedDevice : Auth KvMap := sampleDevice (.withBackend unusedCodec ∅)

/-! ## Commands -/

/-- A map with integer keys. -/
def intMap (entries : List (Int × Value)) : Value :=
  .map (entries.map fun entry => (.integer entry.1, entry.2))

/-- A map with texts as keys. -/
def textMap (entries : List (String × Value)) : Value :=
  .map (entries.map fun entry => (.text entry.1, entry.2))

/-- The COSE key of the platform. -/
def samplePlatformKey : Value :=
  intMap [(1, .integer 2), (3, .integer (-25)), (-1, .integer 1), (-2, .bytes samplePlatformX),
    (-3, .bytes samplePlatformY)]

/-- The request of setPIN, to 1234. -/
def setPinData : Bytes :=
  encodeValue (intMap [(1, .integer 1), (2, .integer 3), (3, samplePlatformKey),
    (4, .bytes (word16 0xc127e60fbeff89fafda3026287243998)), (5, .bytes sampleNewPinEnc)])

/-- setPIN, to 1234. -/
def setPinCommand : Input := .command 0x06 setPinData

/-- getPinUvAuthTokenUsingPinWithPermissions, with the permission acfg and an encrypted hash. -/
def getTokenData (pinHashEnc : Bytes) : Bytes :=
  encodeValue (intMap [(1, .integer 1), (2, .integer 9), (3, samplePlatformKey),
    (6, .bytes pinHashEnc), (9, .integer 0x20)])

/-- The request with the right PIN, with the key agreement of the second draw. -/
def getTokenCommand : Input := .command 0x06 (getTokenData samplePinHashEnc)

/-- The request with the PIN 5678, with the same key agreement. -/
def wrongTokenCommand : Input :=
  .command 0x06 (getTokenData (word16 0xb14dc50c79f5445e1460e763f4b03306))

/-- The request with the right PIN, with the key agreement of the third draw. -/
def secondTokenData : Bytes := getTokenData (word16 0x3d915dc7170a7d666fb1ff1450ff99f7)

/-- The request with the right PIN, with the key agreement of the fourth draw. -/
def laterTokenCommand : Input :=
  .command 0x06 (getTokenData (word16 0x8915e1b683c7ac48e388e30c618c574e))

/-- getKeyAgreement. -/
def getKeyAgreementCommand : Input :=
  .command 0x06 (encodeValue (intMap [(1, .integer 1), (2, .integer 2)]))

/-- MakeCredential for a user of example.com, with a level of credProtect and hmac-secret. -/
def makeCredentialCommand (user : UInt8) (credProtect : Int) : Input :=
  .command 0x01 (encodeValue (intMap [(1, .bytes sampleClientDataHash),
    (2, textMap [("id", .text "example.com")]), (3, textMap [("id", .bytes [user])]),
    (4, .array [textMap [("alg", .integer (-8)), ("type", .text "public-key")]]),
    (6, textMap [("credProtect", .integer credProtect), ("hmac-secret", .bool true)])]))

/-- A request for an assertion of example.com, with the entries `more`. -/
def getAssertionData (more : List (Int × Value)) : Bytes :=
  encodeValue (intMap ([(1, .text "example.com"), (2, .bytes sampleClientDataHash)] ++ more))

/-- GetAssertion. -/
def getAssertionCommand (more : List (Int × Value)) : Input :=
  .command 0x02 (getAssertionData more)

/-- An allow list that names these ids. -/
def allowListEntry (ids : List Bytes) : Int × Value :=
  (3, .array (ids.map fun id => textMap [("id", .bytes id), ("type", .text "public-key")]))

/-- The extension hmac-secret with the sample salt. -/
def hmacSecretEntry : Int × Value :=
  (4, textMap [("hmac-secret", intMap [(1, samplePlatformKey), (2, .bytes sampleSaltEnc),
    (3, .bytes (word16 0x9c5eadba127d3c979a31322c20801dea)), (4, .integer 1)])])

/-- GetNextAssertion. -/
def getNextAssertionCommand : Input := .command 0x08 []

/-- A write of one byte of large blobs, without authentication. -/
def writeBlobData : Bytes :=
  encodeValue (textMap [("offset", .integer 0), ("set", .bytes [1]), ("length", .integer 1)])

/-- toggleAlwaysUv, under the token the third draw yields. -/
def toggleAlwaysUvData : Bytes :=
  encodeValue (intMap [(1, .integer 2), (3, .integer 1),
    (4, .bytes (word16 0x3ddd09eadbb2e1d4ebece9dd90f5c6e9))])

def toggleAlwaysUvCommand : Input := .command 0x0D toggleAlwaysUvData

/-- getPinToken, with the key agreement of the fourteenth draw. -/
def getPinTokenCommand : Input :=
  .command 0x06 (encodeValue (intMap [(1, .integer 1), (2, .integer 5), (3, samplePlatformKey),
    (6, .bytes (word16 0x6c0f421e8e7d93bd8e0a0f45797ca723))]))

/-- User verification by the token the fifteenth draw yields. -/
def verifiedEntries : List (Int × Value) :=
  [(5, textMap [("uv", .bool true)]), (6, .bytes (word16 0x1e429693adb207325980e54b520077c7)),
    (7, .integer 1)]

/-- The two credentials the device makes after a PIN is set and a token is issued. -/
def sampleSetup (credProtect : Int) : List Input :=
  [setPinCommand, getTokenCommand, makeCredentialCommand 1 credProtect,
    makeCredentialCommand 2 credProtect]

/-- The id of the first of them. -/
def firstId : Bytes := drawn 16 4

/-! ## Managing the device -/

namespace Value

def asCredMgmtParams (value : Value) : Option CredMgmtParams := do
  let rpIdHash ← value.optional "rpIDHash" asBytes
  let credentialId ← value.optional "credentialId" asDescriptor
  let user ← value.optional "user" asUser
  some ⟨rpIdHash, credentialId, user⟩

def asCredentialManagementRequest (value : Value) : Option CredentialManagementRequest := do
  let subCommand ← (← value.field "subCommand").asNat
  let params ← value.optional "subCommandParams" asCredMgmtParams
  let pinProtocol ← value.optional "pinUvAuthProtocol" asNat
  let pinUvAuthParam ← value.optional "pinUvAuthParam" asBytes
  some ⟨subCommand, params, pinProtocol, pinUvAuthParam⟩

end Value

/-- The build with the decoder of CredentialManagement. -/
def managedBuild : Build where
  rs256 := false
  std := false
  cbor := { sampleCbor with
    credentialManagementRequest := readRequest Value.asCredentialManagementRequest }
  codec := unusedCodec

/-- Values of the algorithms at more arguments. -/
structure Tables where
  hashes : List (Bytes × Nat) := []
  macs : List ((Bytes × Bytes) × Nat) := []
  blocks : List (Bytes × Bytes) := []
  /-- Key agreements with the platform: the draw of the device, the x coordinate and its hash. -/
  agreements : List (UInt8 × Nat × Nat) := []

/-- SHA-256 with these tables. -/
def Tables.sha256 (tables : Tables) (data : Bytes) : Bytes :=
  (tableEntry (tables.hashes ++
    tables.agreements.map fun entry => (word32 entry.2.1, entry.2.2)) data).elim
      (sampleSha256 data) word32

/-- HMAC-SHA-256 with these tables. -/
def Tables.hmac (tables : Tables) (key data : Bytes) : Bytes :=
  (tableEntry tables.macs (key, data)).elim (sampleHmac key data) word32

theorem Tables.length_sha256 (tables : Tables) (data : Bytes) :
    (tables.sha256 data).length = 32 := by
  unfold Tables.sha256
  cases tableEntry _ data with
  | none => exact sampleCrypto.prims.length_sha256 data
  | some n => exact Bytes.length_beBytes 32 n

theorem Tables.length_hmac (tables : Tables) (key data : Bytes) :
    (tables.hmac key data).length = 32 := by
  unfold Tables.hmac
  cases tableEntry tables.macs (key, data) with
  | none => exact sampleCrypto.prims.length_hmacSha256 key data
  | some n => exact Bytes.length_beBytes 32 n

/-- The engine with more values. -/
def managedCrypto (tables : Tables) : CryptoEngine :=
  { sampleCrypto with
    prims := { sampleCrypto.prims with
      sha256 := tables.sha256
      length_sha256 := tables.length_sha256
      hmacSha256 := tables.hmac
      length_hmacSha256 := tables.length_hmac
      aesEncrypt := fun key block =>
        (tableEntry tables.blocks block).getD (sampleCrypto.prims.aesEncrypt key block)
      aesDecrypt := fun key block => (tableEntry (tables.blocks.map Prod.swap) block).getD
        (sampleCrypto.prims.aesDecrypt key block)
      ecdhAgree := fun key peer => (tableEntry (tables.agreements.map fun entry =>
        ((drawn 32 entry.1, 0x04 :: samplePlatformX ++ samplePlatformY), word32 entry.2.1))
          (key.bytes 32, peer)).or (sampleCrypto.prims.ecdhAgree key peer) } }

/-- The device with that engine. -/
def managedDevice (tables : Tables) : Auth KvMap :=
  { memoryDevice with crypto := managedCrypto tables }

/-- getPinUvAuthTokenUsingPinWithPermissions, with these permissions. -/
def getTokenFor (permissions : UInt8) : Input :=
  .command 0x06 (encodeValue (intMap [(1, .integer 1), (2, .integer 9), (3, samplePlatformKey),
    (6, .bytes samplePinHashEnc), (9, .integer permissions.toNat)]))

/-- CredentialManagement, with the first half of a MAC. -/
def manageData (subCommand : Nat) (params : List (Int × Value)) (mac : Nat) : Bytes :=
  encodeValue (intMap [(1, .integer subCommand), (2, intMap params), (3, .integer 1),
    (4, .bytes (word16 mac))])

/-- The parameter of deleteCredential. -/
def credentialParam (id : Bytes) : Int × Value :=
  (2, textMap [("id", .bytes id), ("type", .text "public-key")])

end OpenKey
