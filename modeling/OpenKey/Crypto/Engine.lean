import OpenKey.Library.Bytes

/-!
# The crypto engine

`CryptoEngine` of `crates/openkey-crypto/src/crypto.rs`. The algorithms themselves come from
third-party crates (`ring`, `rsa`, `aes`) and are gathered in `Primitives`. The system random
generator is explicit: an operation that draws from it takes an `Entropy`.
-/

namespace OpenKey

set_option autoImplicit false

/-- One draw from the system random generator: as many bytes as the caller asks for. -/
abbrev Entropy := Nat → UInt8

/-- The first `len` bytes of a draw. -/
def Entropy.bytes (entropy : Entropy) (len : Nat) : Bytes := (List.range len).map entropy

@[simp] theorem Entropy.length_bytes (entropy : Entropy) (len : Nat) :
    (entropy.bytes len).length = len := by
  simp [Entropy.bytes]

/-- The third-party algorithms. `none` is the failure of a call. -/
structure Primitives where
  sha256 : Bytes → Bytes
  length_sha256 : ∀ data, (sha256 data).length = 32
  /-- `hmacSha256 key data`. -/
  hmacSha256 : Bytes → Bytes → Bytes
  length_hmacSha256 : ∀ key data, (hmacSha256 key data).length = 32
  /-- `hkdfSha256 ikm salt info len`. -/
  hkdfSha256 : Bytes → Bytes → Bytes → Nat → Option Bytes
  /-- ChaCha20-Poly1305 with an empty header: `aeadSeal key nonce plaintext`. -/
  aeadSeal : Bytes → Bytes → Bytes → Option Bytes
  /-- `aeadOpen key nonce ciphertext`. -/
  aeadOpen : Bytes → Bytes → Bytes → Option Bytes
  /-- One block of AES-256: `aesEncrypt key block`. -/
  aesEncrypt : Bytes → Bytes → Bytes
  aesDecrypt : Bytes → Bytes → Bytes
  /-- The Ed25519 public key of a seed. -/
  ed25519Public : Bytes → Option Bytes
  /-- `ed25519Sign seed data`. -/
  ed25519Sign : Bytes → Bytes → Option Bytes
  /-- A P-256 key pair: PKCS#8 and the uncompressed point. -/
  p256Generate : Entropy → Option (Bytes × Bytes)
  /-- `p256Sign entropy pkcs8 message`. -/
  p256Sign : Entropy → Bytes → Bytes → Option Bytes
  p384Generate : Entropy → Option (Bytes × Bytes)
  p384Sign : Entropy → Bytes → Bytes → Option Bytes
  /-- An RSA key pair: PKCS#8, modulus and exponent. -/
  rsaGenerate : Entropy → Option (Bytes × Bytes × Bytes)
  /-- `RSAPublicKey` from modulus and exponent. -/
  rsaPublicDer : Bytes → Bytes → Option Bytes
  /-- Modulus and exponent of an `RSAPublicKey`. -/
  rsaPublicParts : Bytes → Option (Bytes × Bytes)
  rsaPkcs1Sign : Entropy → Bytes → Bytes → Option Bytes
  rsaPssSign : Entropy → Bytes → Bytes → Option Bytes
  /-- The public point of an ephemeral P-256 key, given by the draw that made it. -/
  ecdhPublic : Entropy → Option Bytes
  /-- `ecdhAgree key peer`: the x coordinate of the shared point. -/
  ecdhAgree : Entropy → Bytes → Option Bytes

/-- A master key of 32 bytes over the primitives. -/
structure CryptoEngine where
  prims : Primitives
  key : Bytes
  length_key : key.length = 32

namespace CryptoEngine

variable (crypto : CryptoEngine)

/-- `compute_hmac`: the second argument is the key. -/
def computeHmac (data keyId : Bytes) : Bytes := crypto.prims.hmacSha256 keyId data

/-- `sha256`. -/
def sha256 (data : Bytes) : Bytes := crypto.prims.sha256 data

@[simp] theorem length_sha256 (data : Bytes) : (crypto.sha256 data).length = 32 :=
  crypto.prims.length_sha256 data

/-- `encrypt`: ChaCha20-Poly1305 under the master key. -/
def encrypt (plaintext nonce : Bytes) : Except String Bytes :=
  if nonce.length ≠ 12 then .error "Nonce must be exactly 12 bytes"
  else
    match crypto.prims.aeadSeal crypto.key nonce plaintext with
    | some ciphertext => .ok ciphertext
    | none => .error "Encryption failed: Unspecified"

/-- `decrypt`. -/
def decrypt (ciphertext nonce : Bytes) : Except String Bytes :=
  if nonce.length ≠ 12 then .error "Nonce must be exactly 12 bytes"
  else
    match crypto.prims.aeadOpen crypto.key nonce ciphertext with
    | some plaintext => .ok plaintext
    | none => .error "Decryption failed: Unspecified"

/-- `generate_key_pair`: an Ed25519 seed and its public key. -/
def generateKeyPair (entropy : Entropy) : Except String (Bytes × Bytes) :=
  let seed := entropy.bytes 32
  match crypto.prims.ed25519Public seed with
  | some publicKey => .ok (seed, publicKey)
  | none => .error "Invalid Ed25519 private key"

/-- `generate_p256_key_pair`. -/
def generateP256KeyPair (entropy : Entropy) : Except String (Bytes × Bytes) :=
  (crypto.prims.p256Generate entropy).elim (.error "Failed to generate P-256 PKCS#8") .ok

/-- `generate_p384_key_pair`. -/
def generateP384KeyPair (entropy : Entropy) : Except String (Bytes × Bytes) :=
  (crypto.prims.p384Generate entropy).elim (.error "Failed to generate P-384 PKCS#8") .ok

/-- `generate_rsa_key_pair`. -/
def generateRsaKeyPair (entropy : Entropy) : Except String (Bytes × Bytes × Bytes) :=
  (crypto.prims.rsaGenerate entropy).elim (.error "RSA key generation failed") .ok

/-- `rsa_public_key_der`. -/
def rsaPublicKeyDer (n e : Bytes) : Except String Bytes :=
  (crypto.prims.rsaPublicDer n e).elim (.error "Invalid RSA public key") .ok

/-- `rsa_public_key_parts`. -/
def rsaPublicKeyParts (der : Bytes) : Except String (Bytes × Bytes) :=
  (crypto.prims.rsaPublicParts der).elim (.error "Invalid RSA public key DER") .ok

/-- `sign`: Ed25519 from the seed. -/
def sign (data privateKey : Bytes) : Except String Bytes :=
  if privateKey.length ≠ 32 then .error "Ed25519 private key must be 32 bytes"
  else (crypto.prims.ed25519Sign privateKey data).elim (.error "Invalid Ed25519 private key") .ok

/-- `sign_p256`. -/
def signP256 (entropy : Entropy) (privateKey message : Bytes) : Except String Bytes :=
  (crypto.prims.p256Sign entropy privateKey message).elim (.error "P-256 signing failed") .ok

/-- `sign_p384`. -/
def signP384 (entropy : Entropy) (privateKey message : Bytes) : Except String Bytes :=
  (crypto.prims.p384Sign entropy privateKey message).elim (.error "P-384 signing failed") .ok

/-- `sign_rsa`: PKCS#1 v1.5. -/
def signRsa (entropy : Entropy) (privateKey message : Bytes) : Except String Bytes :=
  (crypto.prims.rsaPkcs1Sign entropy privateKey message).elim (.error "RSA signing failed") .ok

/-- `sign_rsa_pss`. -/
def signRsaPss (entropy : Entropy) (privateKey message : Bytes) : Except String Bytes :=
  (crypto.prims.rsaPssSign entropy privateKey message).elim
    (.error "RSA-PSS signing failed") .ok

end CryptoEngine

theorem length_zeros : (List.replicate 32 (0 : UInt8)).length = 32 := List.length_replicate

/-- An engine for runs that call no algorithm. -/
def unusedCrypto : CryptoEngine where
  prims := {
    sha256 := fun _ => List.replicate 32 0
    length_sha256 := fun _ => List.length_replicate
    hmacSha256 := fun _ _ => List.replicate 32 0
    length_hmacSha256 := fun _ _ => List.length_replicate
    hkdfSha256 := fun _ _ _ _ => none
    aeadSeal := fun _ _ _ => none
    aeadOpen := fun _ _ _ => none
    aesEncrypt := fun _ block => block
    aesDecrypt := fun _ block => block
    ed25519Public := fun _ => none
    ed25519Sign := fun _ _ => none
    p256Generate := fun _ => none
    p256Sign := fun _ _ _ => none
    p384Generate := fun _ => none
    p384Sign := fun _ _ _ => none
    rsaGenerate := fun _ => none
    rsaPublicDer := fun _ _ => none
    rsaPublicParts := fun _ => none
    rsaPkcs1Sign := fun _ _ _ => none
    rsaPssSign := fun _ _ _ => none
    ecdhPublic := fun _ => none
    ecdhAgree := fun _ _ => none }
  key := List.replicate 32 0
  length_key := length_zeros

theorem length_sha256_unused (data : Bytes) : (unusedCrypto.prims.sha256 data).length = 32 :=
  unusedCrypto.prims.length_sha256 data

theorem length_hmacSha256_unused (key data : Bytes) :
    (unusedCrypto.prims.hmacSha256 key data).length = 32 :=
  unusedCrypto.prims.length_hmacSha256 key data

end OpenKey
