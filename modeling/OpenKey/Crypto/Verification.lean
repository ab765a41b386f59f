import OpenKey.Crypto.Engine

/-!
# Checking signatures

`verify`, `verify_p256`, `verify_p384`, `verify_rsa_pss` and `verify_rsa` of
`crates/openkey-crypto/src/crypto.rs`. The checks come from `ring`, as the signatures do, and are
gathered in `Verifiers`.

The authenticator hands its public keys out in two forms: raw, and as the COSE key of the attested
credential data. `checkRaw` is what a holder of the first form does, `checkCose` what a relying
party does with the second.
-/

namespace OpenKey

set_option autoImplicit false

/-- The checks of signatures: `key message signature`. -/
structure Verifiers where
  ed25519 : Bytes → Bytes → Bytes → Bool
  /-- ECDSA over P-256 with SHA-256, the signature in DER. -/
  p256 : Bytes → Bytes → Bytes → Bool
  /-- ECDSA over P-384 with SHA-384. -/
  p384 : Bytes → Bytes → Bytes → Bool
  /-- RSA-PSS with SHA-256, the key as an `RSAPublicKey`. -/
  rsaPss : Bytes → Bytes → Bytes → Bool
  /-- RSA PKCS#1 v1.5 with SHA-256. -/
  rsaPkcs1 : Bytes → Bytes → Bytes → Bool

/-- What the crates promise: a signature checks under the public key it was made for, a point is
generated in uncompressed form, and an `RSAPublicKey` holds the numbers it was made of. -/
structure Verifiers.Sound (verifiers : Verifiers) (prims : Primitives) : Prop where
  ed25519 : ∀ {seed publicKey data signature : Bytes}, prims.ed25519Public seed = some publicKey →
    prims.ed25519Sign seed data = some signature →
      verifiers.ed25519 publicKey data signature = true
  p256 : ∀ {entropy entropy' : Entropy} {pkcs8 point data signature : Bytes},
    prims.p256Generate entropy = some (pkcs8, point) →
      prims.p256Sign entropy' pkcs8 data = some signature →
        verifiers.p256 point data signature = true
  p384 : ∀ {entropy entropy' : Entropy} {pkcs8 point data signature : Bytes},
    prims.p384Generate entropy = some (pkcs8, point) →
      prims.p384Sign entropy' pkcs8 data = some signature →
        verifiers.p384 point data signature = true
  rsaPss : ∀ {entropy entropy' : Entropy} {pkcs8 n e der data signature : Bytes},
    prims.rsaGenerate entropy = some (pkcs8, n, e) → prims.rsaPublicDer n e = some der →
      prims.rsaPssSign entropy' pkcs8 data = some signature →
        verifiers.rsaPss der data signature = true
  rsaPkcs1 : ∀ {entropy entropy' : Entropy} {pkcs8 n e der data signature : Bytes},
    prims.rsaGenerate entropy = some (pkcs8, n, e) → prims.rsaPublicDer n e = some der →
      prims.rsaPkcs1Sign entropy' pkcs8 data = some signature →
        verifiers.rsaPkcs1 der data signature = true
  uncompressed : ∀ {entropy : Entropy} {pkcs8 point : Bytes},
    prims.p256Generate entropy = some (pkcs8, point) ∨
      prims.p384Generate entropy = some (pkcs8, point) → point.head? = some 0x04
  parts : ∀ {n e der : Bytes}, prims.rsaPublicDer n e = some der →
    prims.rsaPublicParts der = some (n, e)

/-! ## The engine -/

namespace CryptoEngine

variable (verifiers : Verifiers)

/-- `verify`: an invalid signature is an error, never `false`. -/
def verify (data signature publicKey : Bytes) : Except String Bool :=
  if verifiers.ed25519 publicKey data signature then .ok true
  else .error "Signature verification failed: Unspecified"

/-- `verify_p256`. -/
def verifyP256 (publicKey message signature : Bytes) : Except String Unit :=
  if verifiers.p256 publicKey message signature then .ok ()
  else .error "P-256 verification failed: Unspecified"

/-- `verify_p384`. -/
def verifyP384 (publicKey message signature : Bytes) : Except String Unit :=
  if verifiers.p384 publicKey message signature then .ok ()
  else .error "P-384 verification failed: Unspecified"

/-- `verify_rsa_pss`. -/
def verifyRsaPss (publicKey message signature : Bytes) : Except String Unit :=
  if verifiers.rsaPss publicKey message signature then .ok ()
  else .error "RSA-PSS verification failed: Unspecified"

/-- `verify_rsa`. -/
def verifyRsa (publicKey message signature : Bytes) : Except String Unit :=
  if verifiers.rsaPkcs1 publicKey message signature then .ok ()
  else .error "RSA verification failed: Unspecified"

/-- What an algorithm checks a signature with, under a key in the form it is stored in. -/
def checkRaw (rs256 : Bool) (algorithm : Int) (publicKey message signature : Bytes) : Bool :=
  if algorithm = -7 then (verifyP256 verifiers publicKey message signature).isOk
  else if algorithm = -35 then (verifyP384 verifiers publicKey message signature).isOk
  else if rs256 ∧ algorithm = -37 then (verifyRsaPss verifiers publicKey message signature).isOk
  else if rs256 ∧ algorithm = -257 then (verifyRsa verifiers publicKey message signature).isOk
  else (verify verifiers message signature publicKey).isOk

end CryptoEngine

end OpenKey
