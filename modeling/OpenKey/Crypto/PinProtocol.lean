import OpenKey.Crypto.Engine

/-!
# The PIN/UV auth protocols

`PinUvProtocol` of `crates/openkey-crypto/src/pin_protocol.rs`: key derivation, AES-256-CBC
without padding and message authentication, in the two versions of CTAP 2.1. The block cipher,
the hash and the key agreement are primitives; the chaining, the length checks and the choice of
keys are the source's own.
-/

namespace OpenKey

set_option autoImplicit false

/-- `AES_BLOCK_LEN`. -/
def aesBlockLen : Nat := 16

/-- `PIN_HASH_LEN`: the bytes of a PIN hash that are compared. -/
def pinHashLen : Nat := 16

section

variable (prims : Primitives)

/-- Split into blocks of sixteen bytes; `fuel` bounds their number. -/
def aesBlocks : Nat → Bytes → List Bytes
  | 0, _ => []
  | fuel + 1, data => if data = [] then [] else
      data.take aesBlockLen :: aesBlocks fuel (data.drop aesBlockLen)

/-- Bytewise exclusive or. -/
def xorBytes (as bs : Bytes) : Bytes := List.zipWith (· ^^^ ·) as bs

/-- The checks both directions of AES-256-CBC start with. -/
def aes256CbcCheck (key iv data : Bytes) : Except String Unit :=
  if key.length ≠ 32 then .error "AES-256 key must be 32 bytes"
  else if iv.length ≠ aesBlockLen then .error "AES IV must be 16 bytes"
  else if data.length % aesBlockLen ≠ 0 then .error "AES-CBC input must be a multiple of 16 bytes"
  else .ok ()

/-- Chain the blocks forward. -/
def cbcEncryptBlocks (key : Bytes) : Bytes → List Bytes → Bytes
  | _, [] => []
  | prev, block :: blocks =>
      let out := prims.aesEncrypt key (xorBytes block prev)
      out ++ cbcEncryptBlocks key out blocks

/-- Undo the chaining. -/
def cbcDecryptBlocks (key : Bytes) : Bytes → List Bytes → Bytes
  | _, [] => []
  | prev, block :: blocks =>
      xorBytes (prims.aesDecrypt key block) prev ++ cbcDecryptBlocks key block blocks

/-- `aes256_cbc_encrypt`. -/
def aes256CbcEncrypt (key iv data : Bytes) : Except String Bytes :=
  (aes256CbcCheck key iv data).map fun _ =>
    cbcEncryptBlocks prims key iv (aesBlocks data.length data)

/-- `aes256_cbc_decrypt`. -/
def aes256CbcDecrypt (key iv data : Bytes) : Except String Bytes :=
  (aes256CbcCheck key iv data).map fun _ =>
    cbcDecryptBlocks prims key iv (aesBlocks data.length data)

end

/-- `strip_zero_padding`: drop the zeros at the end; something must be left. -/
def stripZeroPadding (data : Bytes) : Except String Bytes :=
  match (data.reverse.dropWhile (· = 0)).reverse with
  | [] => .error "Plaintext is entirely zero padding"
  | stripped => .ok stripped

/-- A PIN/UV auth protocol of CTAP 2.1. -/
inductive PinUvProtocol
  | one
  | two
  deriving DecidableEq, Repr

namespace PinUvProtocol

/-- `new`: only versions 1 and 2 are supported. -/
def new (version : Nat) : Option PinUvProtocol :=
  if version = 1 then some .one else if version = 2 then some .two else none

/-- `version`. -/
def version : PinUvProtocol → Nat
  | .one => 1
  | .two => 2

variable (prims : Primitives)

/-- `kdf`: the shared secret from the x coordinate of the key agreement. -/
def kdf (protocol : PinUvProtocol) (z : Bytes) : Except String Bytes :=
  match protocol with
  | .one => .ok (prims.sha256 z)
  | .two =>
      -- the two keys differ by the info of the expansion, "CTAP2 HMAC key" and "CTAP2 AES key"
      let zeros : Bytes := List.replicate 32 0
      match prims.hkdfSha256 z zeros [0x43, 0x54, 0x41, 0x50, 0x32, 0x20, 0x48, 0x4d, 0x41, 0x43,
          0x20, 0x6b, 0x65, 0x79] 32,
        prims.hkdfSha256 z zeros [0x43, 0x54, 0x41, 0x50, 0x32, 0x20, 0x41, 0x45, 0x53, 0x20,
          0x6b, 0x65, 0x79] 32 with
      | some hmacKey, some aesKey => .ok (hmacKey ++ aesKey)
      | _, _ => .error "HKDF expand failed"

/-- `encrypt`; version 2 prefixes an initialisation vector drawn from the generator. -/
def encrypt (protocol : PinUvProtocol) (entropy : Entropy) (sharedSecret plaintext : Bytes) :
    Except String Bytes :=
  if plaintext.length % aesBlockLen ≠ 0 then .error "Plaintext must be a multiple of 16 bytes"
  else
    match protocol with
    | .one =>
        if sharedSecret.length ≠ 32 then .error "Protocol 1 shared secret must be 32 bytes"
        else aes256CbcEncrypt prims sharedSecret (List.replicate aesBlockLen 0) plaintext
    | .two =>
        if sharedSecret.length ≠ 64 then .error "Protocol 2 shared secret must be 64 bytes"
        else
          let iv := entropy.bytes aesBlockLen
          (aes256CbcEncrypt prims (sharedSecret.drop 32) iv plaintext).map (iv ++ ·)

/-- `decrypt`. -/
def decrypt (protocol : PinUvProtocol) (sharedSecret ciphertext : Bytes) : Except String Bytes :=
  match protocol with
  | .one =>
      if sharedSecret.length ≠ 32 then .error "Protocol 1 shared secret must be 32 bytes"
      else aes256CbcDecrypt prims sharedSecret (List.replicate aesBlockLen 0) ciphertext
  | .two =>
      if sharedSecret.length ≠ 64 then .error "Protocol 2 shared secret must be 64 bytes"
      else if ciphertext.length < aesBlockLen then
        .error "Protocol 2 ciphertext too short to contain an IV"
      else
        aes256CbcDecrypt prims (sharedSecret.drop 32) (ciphertext.take aesBlockLen)
          (ciphertext.drop aesBlockLen)

/-- `decrypt_exact`: the first `expected` bytes, padding kept. -/
def decryptExact (protocol : PinUvProtocol) (sharedSecret ciphertext : Bytes) (expected : Nat) :
    Except String Bytes := do
  let plaintext ← decrypt prims protocol sharedSecret ciphertext
  if plaintext.length < expected then .error "Plaintext too short"
  else .ok (plaintext.take expected)

/-- `authenticate`: the MAC of a message, truncated in version 1. -/
def authenticate (protocol : PinUvProtocol) (key message : Bytes) : Except String Bytes :=
  match protocol with
  | .one =>
      if key.length ≠ 32 then .error "Protocol 1 authentication key must be 32 bytes"
      else .ok ((prims.hmacSha256 key message).take 16)
  | .two =>
      if key.length < 32 then .error "Protocol 2 authentication key too short"
      else .ok (prims.hmacSha256 (key.take 32) message)

/-- `verify`: does the signature equal the MAC? -/
def verify (protocol : PinUvProtocol) (key message signature : Bytes) : Except String Bool := do
  let expected ← authenticate prims protocol key message
  .ok (expected = signature)

/-! ## The length of the secret -/

/-- The length of a shared secret. -/
def secretLen : PinUvProtocol → Nat
  | .one => 32
  | .two => 64

variable {prims}

theorem aes256CbcEncrypt_total {key iv data : Bytes} (hkey : key.length = 32)
    (hiv : iv.length = aesBlockLen) (hdata : data.length % aesBlockLen = 0) :
    ∃ encrypted, aes256CbcEncrypt prims key iv data = .ok encrypted := by
  unfold aes256CbcEncrypt aes256CbcCheck
  rw [if_neg (not_not.mpr hkey), if_neg (not_not.mpr hiv), if_neg (not_not.mpr hdata)]
  exact ⟨_, rfl⟩

/-- Whole blocks can be encrypted under a secret of the right length. -/
theorem encrypt_total {protocol : PinUvProtocol} {secret plaintext : Bytes} (entropy : Entropy)
    (hsecret : secret.length = protocol.secretLen) (hdata : plaintext.length % aesBlockLen = 0) :
    ∃ encrypted, protocol.encrypt prims entropy secret plaintext = .ok encrypted := by
  unfold encrypt
  rw [if_neg (not_not.mpr hdata)]
  cases protocol with
  | one =>
      have hlength : secret.length = 32 := hsecret
      dsimp only
      rw [if_neg (not_not.mpr hlength)]
      exact aes256CbcEncrypt_total hlength List.length_replicate hdata
  | two =>
      have hlength : secret.length = 64 := hsecret
      have hkey : (secret.drop 32).length = 32 := by rw [List.length_drop, hlength]
      dsimp only
      rw [if_neg (not_not.mpr hlength)]
      obtain ⟨encrypted, hencrypted⟩ : ∃ encrypted, aes256CbcEncrypt prims (secret.drop 32)
          (entropy.bytes aesBlockLen) plaintext = .ok encrypted :=
        aes256CbcEncrypt_total hkey (entropy.length_bytes aesBlockLen) hdata
      rw [hencrypted]
      exact ⟨_, rfl⟩

/-- Only a secret of that length decrypts anything. -/
theorem length_of_decrypt {protocol : PinUvProtocol} {secret ciphertext plaintext : Bytes}
    (h : protocol.decrypt prims secret ciphertext = .ok plaintext) :
    secret.length = protocol.secretLen := by
  unfold decrypt at h
  cases protocol with
  | one =>
      dsimp only at h
      split at h
      · cases h
      · next hlength => exact not_not.mp hlength
  | two =>
      dsimp only at h
      split at h
      · cases h
      · next hlength => exact not_not.mp hlength

/-- Nor does another one encrypt anything. -/
theorem length_of_encrypt {protocol : PinUvProtocol} {entropy : Entropy}
    {secret plaintext ciphertext : Bytes}
    (h : protocol.encrypt prims entropy secret plaintext = .ok ciphertext) :
    secret.length = protocol.secretLen := by
  unfold encrypt at h
  split at h
  · cases h
  · cases protocol with
    | one =>
        dsimp only at h
        split at h
        · cases h
        · next hlength => exact not_not.mp hlength
    | two =>
        dsimp only at h
        split at h
        · cases h
        · next hlength => exact not_not.mp hlength

end PinUvProtocol

end OpenKey
