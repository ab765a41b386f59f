import OpenKey.Crypto.Engine

/-!
# Hybrid encryption

`crates/openkey-crypto/src/hybrid.rs`: a sealed box. The sender makes a key pair for one message,
agrees with the public key of the recipient, derives a key and seals the message under it, with its
own public key as the header.

**The sealed box (`sealed_box`).** The wire format is exact. Of the ciphertexts that carry a public
key, `hybridDecrypt` opens those that `hybridEncrypt` makes and no others. `hybridDecryptStatic`
opens one kind more: it does not refuse the shared secret of zeros, as `ring` does. What is sealed
for a stored key is read back from its bytes. Two stored keys agree on a secret.
-/

namespace OpenKey

set_option autoImplicit false

/-- The third-party algorithms of the scheme. `none` is the failure of a call. -/
structure HybridPrimitives where
  /-- The X25519 public key of a private key. -/
  x25519Public : Bytes → Bytes
  /-- `x25519 key peer`: the shared secret. -/
  x25519 : Bytes → Bytes → Bytes
  /-- `hkdfSha256 ikm salt info len`. -/
  hkdfSha256 : Bytes → Bytes → Bytes → Nat → Option Bytes
  /-- ChaCha20-Poly1305: `aeadSeal key nonce header plaintext`. -/
  aeadSeal : Bytes → Bytes → Bytes → Bytes → Option Bytes
  /-- `aeadOpen key nonce header ciphertext`. -/
  aeadOpen : Bytes → Bytes → Bytes → Bytes → Option Bytes

/-- `HybridCiphertext`. -/
structure HybridCiphertext where
  ephemeralPublicKey : Bytes
  nonce : { nonce : Bytes // nonce.length = 12 }
  ciphertext : Bytes
  deriving DecidableEq

namespace HybridCiphertext

/-- `serialize`. -/
def serialize (ct : HybridCiphertext) : Bytes :=
  ct.ephemeralPublicKey ++ (ct.nonce.1 ++ ct.ciphertext)

/-- `deserialize`. -/
def deserialize (data : Bytes) : Except String HybridCiphertext :=
  if h : data.length < 60 then
    .error ("Data too short for hybrid ciphertext: got " ++ toString data.length ++
      " bytes, need at least 60")
  else .ok {
    ephemeralPublicKey := data.take 32
    nonce := ⟨(data.drop 32).take 12, by rw [List.length_take, List.length_drop]; omega⟩
    ciphertext := (data.drop 32).drop 12 }

/-- What the wire carries, and what is read off it. -/
theorem deserialize_eq_ok {data : Bytes} {ct : HybridCiphertext} :
    deserialize data = .ok ct ↔ ct.ephemeralPublicKey.length = 32 ∧ 16 ≤ ct.ciphertext.length ∧
      ct.serialize = data := by
  unfold deserialize serialize
  constructor
  · intro h
    by_cases hshort : data.length < 60
    · rw [dif_pos hshort] at h
      cases h
    · rw [dif_neg hshort] at h
      obtain rfl := Except.ok.inj h
      refine ⟨?_, ?_, ?_⟩
      · rw [List.length_take]
        omega
      · rw [List.length_drop, List.length_drop]
        omega
      · rw [List.take_append_drop, List.take_append_drop]
  · rintro ⟨hkey, hlen, rfl⟩
    obtain ⟨key, ⟨nonce, hnonce⟩, ciphertext⟩ := ct
    simp only at hkey hlen ⊢
    rw [dif_neg (by rw [List.length_append, List.length_append]; omega)]
    simp only [List.take_left' hkey, List.drop_left' hkey, List.take_left' hnonce,
      List.drop_left' hnonce]

end HybridCiphertext

namespace HybridPrimitives

variable (prims : HybridPrimitives)

/-- `derive_symmetric_key`: the salt names both parties. -/
def deriveSymmetricKey (shared ephemeral recipient : Bytes) : Except String Bytes :=
  (prims.hkdfSha256 shared (ephemeral ++ recipient) (utf8 "openkey-ecies-v1") 32).elim
    (.error "HKDF expand failed: Unspecified") .ok

/-- `agree_ephemeral` of `ring`: a shared secret of zeros is refused. -/
def agreeEphemeral (key peer : Bytes) : Except String Bytes :=
  if prims.x25519 key peer = List.replicate 32 0 then .error "ECDH agreement failed: Unspecified"
  else .ok (prims.x25519 key peer)

/-- A key of 32 bytes, or the text that says whose it is not. -/
def requireLength (name : String) (key : Bytes) : Except String Unit :=
  if key.length = 32 then .ok ()
  else .error (name ++ " must be 32 bytes, got " ++ toString key.length)

/-- `hybrid_generate_static_keypair`: a private key that can be stored, and its public key. -/
def hybridGenerateStaticKeypair (entropy : Entropy) : Bytes × Bytes :=
  (entropy.bytes 32, prims.x25519Public (entropy.bytes 32))

/-- `hybrid_diffie_hellman`. -/
def hybridDiffieHellman (myPrivate peerPublic : Bytes) : Except String Bytes := do
  requireLength "Private key" myPrivate
  requireLength "Public key" peerPublic
  pure (prims.x25519 myPrivate peerPublic)

/-- `hybrid_encrypt`, with the draws of the ephemeral key and of the nonce. -/
def hybridEncrypt (key nonce : Entropy) (recipientPublicKey plaintext : Bytes) :
    Except String HybridCiphertext := do
  requireLength "Recipient public key" recipientPublicKey
  let ephemeral := prims.x25519Public (key.bytes 32)
  let shared ← prims.agreeEphemeral (key.bytes 32) recipientPublicKey
  let symmetricKey ← prims.deriveSymmetricKey shared ephemeral recipientPublicKey
  (prims.aeadSeal symmetricKey (nonce.bytes 12) ephemeral plaintext).elim
    (.error "Encryption failed: Unspecified")
    fun ciphertext => .ok ⟨ephemeral, ⟨nonce.bytes 12, Entropy.length_bytes _ _⟩, ciphertext⟩

/-- The checks that both decryptions make of a ciphertext and of the recipient. -/
def checkRecipient (recipientPrivate recipientPublic : Bytes) (ct : HybridCiphertext) :
    Except String Unit := do
  requireLength "Recipient public key" recipientPublic
  requireLength "Ephemeral public key" ct.ephemeralPublicKey
  if ct.ciphertext.length < 16 then
    throw "Ciphertext too short to contain an authentication tag"
  if prims.x25519Public recipientPrivate ≠ recipientPublic then
    throw "Recipient public key does not match the provided private key"

/-- Both decryptions, once there is a shared secret. -/
def openShared (shared recipientPublic : Bytes) (ct : HybridCiphertext) : Except String Bytes := do
  let symmetricKey ← prims.deriveSymmetricKey shared ct.ephemeralPublicKey recipientPublic
  (prims.aeadOpen symmetricKey ct.nonce.1 ct.ephemeralPublicKey ct.ciphertext).elim
    (.error "Decryption failed: Unspecified") .ok

/-- `hybrid_decrypt`, with a private key that is used once. -/
def hybridDecrypt (recipientPrivate recipientPublic : Bytes) (ct : HybridCiphertext) :
    Except String Bytes := do
  prims.checkRecipient recipientPrivate recipientPublic ct
  let shared ← prims.agreeEphemeral recipientPrivate ct.ephemeralPublicKey
  prims.openShared shared recipientPublic ct

/-- `hybrid_decrypt_static`, with a private key that was stored. -/
def hybridDecryptStatic (recipientPrivate recipientPublic : Bytes) (ct : HybridCiphertext) :
    Except String Bytes := do
  requireLength "Recipient private key" recipientPrivate
  prims.checkRecipient recipientPrivate recipientPublic ct
  prims.openShared (prims.x25519 recipientPrivate ct.ephemeralPublicKey) recipientPublic ct

/-- X25519 agrees, and ChaCha20-Poly1305 opens what it seals and nothing else. -/
structure Sound : Prop where
  length_public : ∀ key, (prims.x25519Public key).length = 32
  agree : ∀ key key', prims.x25519 key (prims.x25519Public key') =
    prims.x25519 key' (prims.x25519Public key)
  open_iff : ∀ {key nonce header plaintext ciphertext},
    prims.aeadOpen key nonce header ciphertext = some plaintext ↔
      prims.aeadSeal key nonce header plaintext = some ciphertext
  length_seal : ∀ {key nonce header plaintext ciphertext},
    prims.aeadSeal key nonce header plaintext = some ciphertext →
      ciphertext.length = plaintext.length + 16

variable {prims}

/-- Both parties come to the same secret. -/
theorem Sound.shared (hsound : prims.Sound) {key key' peer : Bytes}
    (hpeer : peer = prims.x25519Public key') :
    prims.x25519 key peer = prims.x25519 key' (prims.x25519Public key) := by
  rw [hpeer]
  exact hsound.agree key key'

/-- Two stored keys agree on a secret, whichever of the parties asks for it. -/
theorem hybridDiffieHellman_agree (hsound : prims.Sound) (mine peer : Entropy) : ∃ shared,
    prims.hybridDiffieHellman (prims.hybridGenerateStaticKeypair mine).1
        (prims.hybridGenerateStaticKeypair peer).2 = .ok shared ∧
      prims.hybridDiffieHellman (prims.hybridGenerateStaticKeypair peer).1
        (prims.hybridGenerateStaticKeypair mine).2 = .ok shared := by
  have hrun (a b : Entropy) : prims.hybridDiffieHellman (prims.hybridGenerateStaticKeypair a).1
      (prims.hybridGenerateStaticKeypair b).2 =
        .ok (prims.x25519 (a.bytes 32) (prims.x25519Public (b.bytes 32))) := by
    unfold hybridDiffieHellman hybridGenerateStaticKeypair requireLength
    simp only
    rw [if_pos (Entropy.length_bytes a 32), if_pos (hsound.length_public _)]
    rfl
  refine ⟨_, hrun mine peer, ?_⟩
  rw [hrun, hsound.shared rfl]

/-! ## What succeeds -/

theorem requireLength_bind {α : Type} {name : String} {key : Bytes} {f : Unit → Except String α}
    {a : α} : requireLength name key >>= f = .ok a ↔ key.length = 32 ∧ f () = .ok a := by
  unfold requireLength
  by_cases h : key.length = 32
  · rw [if_pos h]
    exact ⟨fun hf => ⟨h, hf⟩, And.right⟩
  · rw [if_neg h]
    refine ⟨fun hf => ?_, fun hf => absurd hf.1 h⟩
    cases hf

theorem agreeEphemeral_bind {α : Type} {key peer : Bytes} {f : Bytes → Except String α} {a : α} :
    prims.agreeEphemeral key peer >>= f = .ok a ↔
      prims.x25519 key peer ≠ List.replicate 32 0 ∧ f (prims.x25519 key peer) = .ok a := by
  unfold agreeEphemeral
  by_cases h : prims.x25519 key peer = List.replicate 32 0
  · rw [if_pos h]
    refine ⟨fun hf => ?_, fun hf => absurd h hf.1⟩
    cases hf
  · rw [if_neg h]
    exact ⟨fun hf => ⟨h, hf⟩, And.right⟩

theorem deriveSymmetricKey_bind {α : Type} {shared ephemeral recipient : Bytes}
    {f : Bytes → Except String α} {a : α} :
    prims.deriveSymmetricKey shared ephemeral recipient >>= f = .ok a ↔
      ∃ key, prims.deriveSymmetricKey shared ephemeral recipient = .ok key ∧ f key = .ok a := by
  cases prims.deriveSymmetricKey shared ephemeral recipient with
  | error e =>
    refine ⟨fun hf => ?_, fun ⟨_, hkey, _⟩ => ?_⟩
    · cases hf
    · cases hkey
  | ok key =>
    refine ⟨fun hf => ⟨key, rfl, hf⟩, fun ⟨_, hkey, hf⟩ => ?_⟩
    cases hkey
    exact hf

/-- The ciphertext is the sealing of the text under the key of the two parties. -/
def Seals (prims : HybridPrimitives) (shared recipient plaintext : Bytes) (ct : HybridCiphertext) :
    Prop :=
  ∃ key, prims.deriveSymmetricKey shared ct.ephemeralPublicKey recipient = .ok key ∧
    prims.aeadSeal key ct.nonce.1 ct.ephemeralPublicKey plaintext = some ct.ciphertext

theorem hybridEncrypt_eq_ok {key nonce : Entropy} {recipient plaintext : Bytes}
    {ct : HybridCiphertext} :
    prims.hybridEncrypt key nonce recipient plaintext = .ok ct ↔
      recipient.length = 32 ∧ prims.x25519 (key.bytes 32) recipient ≠ List.replicate 32 0 ∧
        ct.ephemeralPublicKey = prims.x25519Public (key.bytes 32) ∧ ct.nonce.1 = nonce.bytes 12 ∧
        prims.Seals (prims.x25519 (key.bytes 32) recipient) recipient plaintext ct := by
  unfold hybridEncrypt Seals
  rw [requireLength_bind]
  refine and_congr_right fun _ => ?_
  simp only
  rw [agreeEphemeral_bind]
  refine and_congr_right fun _ => ?_
  rw [deriveSymmetricKey_bind]
  obtain ⟨ephemeral, ⟨drawn, hdrawn⟩, ciphertext⟩ := ct
  constructor
  · rintro ⟨symmetric, hsymmetric, hseal⟩
    cases hsealed : prims.aeadSeal symmetric (nonce.bytes 12) (prims.x25519Public (key.bytes 32))
        plaintext with
    | none =>
      rw [hsealed] at hseal
      cases hseal
    | some sealed =>
      rw [hsealed] at hseal
      cases hseal
      exact ⟨rfl, rfl, symmetric, hsymmetric, hsealed⟩
  · rintro ⟨rfl, rfl, symmetric, hsymmetric, hseal⟩
    refine ⟨symmetric, hsymmetric, ?_⟩
    rw [hseal]
    rfl

section

variable (hsound : prims.Sound) {recipientPrivate recipientPublic plaintext : Bytes}
  {ct : HybridCiphertext}

include hsound

theorem openShared_eq_ok {shared : Bytes} :
    prims.openShared shared recipientPublic ct = .ok plaintext ↔
      prims.Seals shared recipientPublic plaintext ct := by
  unfold openShared Seals
  rw [deriveSymmetricKey_bind]
  refine exists_congr fun key => and_congr_right fun _ => ?_
  rw [← hsound.open_iff]
  cases prims.aeadOpen key ct.nonce.1 ct.ephemeralPublicKey ct.ciphertext with
  | none =>
    refine ⟨fun h => ?_, fun h => ?_⟩
    · cases h
    · cases h
  | some opened =>
    exact ⟨fun h => congrArg some (Except.ok.inj h), fun h => congrArg _ (Option.some.inj h)⟩

theorem Seals.length_ciphertext {shared : Bytes}
    (h : prims.Seals shared recipientPublic plaintext ct) :
    ct.ciphertext.length = plaintext.length + 16 := by
  obtain ⟨key, -, hseal⟩ := h
  exact hsound.length_seal hseal

omit hsound in
theorem checkRecipient_bind {α : Type} {f : Unit → Except String α} {a : α} :
    prims.checkRecipient recipientPrivate recipientPublic ct >>= f = .ok a ↔
      recipientPublic.length = 32 ∧ ct.ephemeralPublicKey.length = 32 ∧ 16 ≤ ct.ciphertext.length ∧
        prims.x25519Public recipientPrivate = recipientPublic ∧ f () = .ok a := by
  unfold checkRecipient
  rw [bind_assoc, requireLength_bind]
  refine and_congr_right fun _ => ?_
  rw [bind_assoc, requireLength_bind]
  refine and_congr_right fun _ => ?_
  by_cases htag : ct.ciphertext.length < 16
  · rw [if_pos htag]
    refine ⟨fun h => ?_, fun h => absurd h.1 (Nat.not_le_of_lt htag)⟩
    cases h
  · rw [if_neg htag]
    by_cases hkey : prims.x25519Public recipientPrivate = recipientPublic
    · rw [if_neg (not_not.mpr hkey)]
      exact ⟨fun h => ⟨Nat.le_of_not_lt htag, hkey, h⟩, fun h => h.2.2⟩
    · rw [if_pos hkey]
      refine ⟨fun h => ?_, fun h => absurd h.2.1 hkey⟩
      cases h

/-- What both decryptions ask for. -/
theorem checked_openShared {shared : Bytes} :
    (recipientPublic.length = 32 ∧ ct.ephemeralPublicKey.length = 32 ∧ 16 ≤ ct.ciphertext.length ∧
      prims.x25519Public recipientPrivate = recipientPublic ∧
      prims.openShared shared recipientPublic ct = .ok plaintext) ↔
    ct.ephemeralPublicKey.length = 32 ∧ recipientPublic = prims.x25519Public recipientPrivate ∧
      prims.Seals shared recipientPublic plaintext ct := by
  rw [openShared_eq_ok hsound]
  constructor
  · rintro ⟨-, hlength, -, rfl, hseals⟩
    exact ⟨hlength, rfl, hseals⟩
  · rintro ⟨hlength, rfl, hseals⟩
    have hciphertext := hseals.length_ciphertext hsound
    exact ⟨hsound.length_public _, hlength, by omega, rfl, hseals⟩

theorem hybridDecryptStatic_eq_ok :
    prims.hybridDecryptStatic recipientPrivate recipientPublic ct = .ok plaintext ↔
      recipientPrivate.length = 32 ∧ ct.ephemeralPublicKey.length = 32 ∧
        recipientPublic = prims.x25519Public recipientPrivate ∧
        prims.Seals (prims.x25519 recipientPrivate ct.ephemeralPublicKey) recipientPublic plaintext
          ct := by
  unfold hybridDecryptStatic
  rw [requireLength_bind, checkRecipient_bind, checked_openShared hsound]

theorem hybridDecrypt_eq_ok :
    prims.hybridDecrypt recipientPrivate recipientPublic ct = .ok plaintext ↔
      prims.x25519 recipientPrivate ct.ephemeralPublicKey ≠ List.replicate 32 0 ∧
        ct.ephemeralPublicKey.length = 32 ∧
        recipientPublic = prims.x25519Public recipientPrivate ∧
        prims.Seals (prims.x25519 recipientPrivate ct.ephemeralPublicKey) recipientPublic plaintext
          ct := by
  unfold hybridDecrypt
  rw [checkRecipient_bind, agreeEphemeral_bind, ← checked_openShared hsound]
  constructor
  · rintro ⟨hrecipient, hlength, htag, hkey, hshared, hopen⟩
    exact ⟨hshared, hrecipient, hlength, htag, hkey, hopen⟩
  · rintro ⟨hshared, hrecipient, hlength, htag, hkey, hopen⟩
    exact ⟨hrecipient, hlength, htag, hkey, hshared, hopen⟩

end

/-- The sealed box. The wire carries exactly the ciphertexts with a key of 32 bytes and room for a
tag. A ciphertext under the public key of a draw is opened exactly if it is what that draw makes of
the text for that recipient. `hybridDecryptStatic` opens what is sealed under the shared secret of
its key, be it zeros or not, and so all that `hybridDecrypt` opens. What was sealed for a stored key
is read back from its bytes. Two stored keys agree on a secret. -/
theorem sealed_box (hsound : prims.Sound) :
    (∀ (data : Bytes) (ct : HybridCiphertext), HybridCiphertext.deserialize data = .ok ct ↔
      ct.ephemeralPublicKey.length = 32 ∧ 16 ≤ ct.ciphertext.length ∧ ct.serialize = data) ∧
    (∀ (key nonce : Entropy) (recipientPrivate plaintext : Bytes) (ct : HybridCiphertext),
      ct.ephemeralPublicKey = prims.x25519Public (key.bytes 32) → ct.nonce.1 = nonce.bytes 12 →
        (prims.hybridDecrypt recipientPrivate (prims.x25519Public recipientPrivate) ct =
            .ok plaintext ↔
          prims.hybridEncrypt key nonce (prims.x25519Public recipientPrivate) plaintext =
            .ok ct)) ∧
    (∀ (recipientPrivate recipientPublic plaintext : Bytes) (ct : HybridCiphertext),
      prims.hybridDecryptStatic recipientPrivate recipientPublic ct = .ok plaintext ↔
        recipientPrivate.length = 32 ∧ ct.ephemeralPublicKey.length = 32 ∧
          recipientPublic = prims.x25519Public recipientPrivate ∧
          prims.Seals (prims.x25519 recipientPrivate ct.ephemeralPublicKey) recipientPublic
            plaintext ct) ∧
    (∀ (recipientPrivate recipientPublic plaintext : Bytes) (ct : HybridCiphertext),
      recipientPrivate.length = 32 →
        (prims.hybridDecrypt recipientPrivate recipientPublic ct = .ok plaintext ↔
          prims.hybridDecryptStatic recipientPrivate recipientPublic ct = .ok plaintext ∧
            prims.x25519 recipientPrivate ct.ephemeralPublicKey ≠ List.replicate 32 0)) ∧
    (∀ (recipient key nonce : Entropy) (plaintext : Bytes) (ct : HybridCiphertext),
      prims.hybridEncrypt key nonce (prims.hybridGenerateStaticKeypair recipient).2 plaintext =
          .ok ct →
        (HybridCiphertext.deserialize ct.serialize >>= prims.hybridDecryptStatic
          (prims.hybridGenerateStaticKeypair recipient).1
          (prims.hybridGenerateStaticKeypair recipient).2) = .ok plaintext) ∧
    ∀ mine peer : Entropy, ∃ shared,
      prims.hybridDiffieHellman (prims.hybridGenerateStaticKeypair mine).1
          (prims.hybridGenerateStaticKeypair peer).2 = .ok shared ∧
        prims.hybridDiffieHellman (prims.hybridGenerateStaticKeypair peer).1
          (prims.hybridGenerateStaticKeypair mine).2 = .ok shared := by
  refine ⟨fun data ct => HybridCiphertext.deserialize_eq_ok, ?_,
    fun _ _ _ _ => hybridDecryptStatic_eq_ok hsound, ?_, ?_, hybridDiffieHellman_agree hsound⟩
  · intro key nonce recipientPrivate plaintext ct hephemeral hnonce
    rw [hybridDecrypt_eq_ok hsound, hybridEncrypt_eq_ok, hsound.shared hephemeral]
    constructor
    · rintro ⟨hzeros, -, -, hseals⟩
      exact ⟨hsound.length_public _, hzeros, hephemeral, hnonce, hseals⟩
    · rintro ⟨-, hzeros, -, -, hseals⟩
      exact ⟨hzeros, hephemeral ▸ hsound.length_public _, rfl, hseals⟩
  · intro recipientPrivate recipientPublic plaintext ct hprivate
    rw [hybridDecrypt_eq_ok hsound, hybridDecryptStatic_eq_ok hsound]
    constructor
    · rintro ⟨hzeros, hlength, hpublic, hseals⟩
      exact ⟨⟨hprivate, hlength, hpublic, hseals⟩, hzeros⟩
    · rintro ⟨⟨-, hlength, hpublic, hseals⟩, hzeros⟩
      exact ⟨hzeros, hlength, hpublic, hseals⟩
  · intro recipient key nonce plaintext ct hmade
    obtain ⟨-, -, hephemeral, -, hseals⟩ := hybridEncrypt_eq_ok.mp hmade
    have hlength : ct.ephemeralPublicKey.length = 32 := by
      rw [hephemeral]
      exact hsound.length_public _
    have hciphertext := hseals.length_ciphertext hsound
    have hwire : HybridCiphertext.deserialize ct.serialize = .ok ct :=
      HybridCiphertext.deserialize_eq_ok.mpr ⟨hlength, by omega, rfl⟩
    rw [hwire]
    refine (hybridDecryptStatic_eq_ok hsound).mpr ⟨Entropy.length_bytes _ _, hlength, rfl, ?_⟩
    rw [hsound.shared hephemeral]
    exact hseals

/-! ## Boxes for a key of ones, from a key of nines and under the secret of zeros -/

def onesKey : Bytes := List.replicate 32 0x01

def ninesKey : Bytes := List.replicate 32 0x09

def onesPoint : Bytes :=
  Bytes.beBytes 32 0xa4e09292b651c278b9772c569f5fa9bb13d906b46ab68c9df9dc2b4409f8a209

def ninesPoint : Bytes :=
  Bytes.beBytes 32 0x57db4b359f23ae5e146e4e2512056704722506348c150c14753d0c933d04d421

/-- What X25519 makes of the two keys. -/
def boxPublic (key : Bytes) : Bytes :=
  if key = onesKey then onesPoint
  else if key = ninesKey then ninesPoint
  else List.replicate 32 0

def boxShared : Bytes :=
  Bytes.beBytes 32 0x634375b91f57de547bb24e6475f7f89fb24cbaead41002ee0183622090ed5931

def boxKey : Bytes :=
  Bytes.beBytes 32 0x314b4b1fedfd1bfab4ad79a7e30bfc6ca4a2d87304e275ca2f61b580a357ebd0

def boxSealed : Bytes := Bytes.beBytes 19 0xfcb3e6d85b502a69571aa0c642f2d2ba2ab8dd

/-- A point of order one: any key agrees on zeros with it. -/
def zerosPoint : Bytes := List.replicate 32 0

def zerosKey : Bytes :=
  Bytes.beBytes 32 0xf0fa4d7115a054ced978cf822b288ee204e1ff591381554964edcc6c39a20265

def zerosSealed : Bytes := Bytes.beBytes 19 0xb530cd5dc0d7c5f2da6a92f10001c777505986

/-- What the text of the boxes is sealed to. -/
def boxSeal (key header : Bytes) : Option Bytes :=
  if key = boxKey ∧ header = ninesPoint then some boxSealed
  else if key = zerosKey ∧ header = zerosPoint then some zerosSealed
  else none

/-- The algorithms on the two keys and one text. -/
def boxPrims : HybridPrimitives where
  x25519Public := boxPublic
  x25519 key peer :=
    if key = onesKey ∧ peer = ninesPoint ∨ key = ninesKey ∧ peer = onesPoint then boxShared
    else List.replicate 32 0
  hkdfSha256 ikm salt info len :=
    if info = utf8 "openkey-ecies-v1" ∧ len = 32 then
      if ikm = boxShared ∧ salt = ninesPoint ++ onesPoint then some boxKey
      else if ikm = List.replicate 32 0 ∧ salt = zerosPoint ++ onesPoint then some zerosKey
      else none
    else none
  aeadSeal key nonce header plaintext :=
    if nonce = List.replicate 12 0x07 ∧ plaintext = [1, 2, 3] then boxSeal key header else none
  aeadOpen key nonce header ciphertext :=
    if nonce = List.replicate 12 0x07 ∧ boxSeal key header = some ciphertext then some [1, 2, 3]
    else none

theorem length_boxSeal {key header ciphertext : Bytes} (h : boxSeal key header = some ciphertext) :
    ciphertext.length = 19 := by
  unfold boxSeal at h
  split_ifs at h
  · obtain rfl := Option.some.inj h
    exact Bytes.length_beBytes _ _
  · obtain rfl := Option.some.inj h
    exact Bytes.length_beBytes _ _

theorem boxPublic_eq_onesPoint {key : Bytes} : boxPublic key = onesPoint ↔ key = onesKey := by
  unfold boxPublic
  by_cases hones : key = onesKey
  · rw [if_pos hones]
    exact iff_of_true rfl hones
  · rw [if_neg hones]
    refine iff_of_false ?_ hones
    by_cases hnines : key = ninesKey
    · rw [if_pos hnines]
      decide +kernel
    · rw [if_neg hnines]
      decide +kernel

theorem boxPublic_eq_ninesPoint {key : Bytes} : boxPublic key = ninesPoint ↔ key = ninesKey := by
  unfold boxPublic
  by_cases hones : key = onesKey
  · rw [if_pos hones, hones]
    decide +kernel
  · rw [if_neg hones]
    by_cases hnines : key = ninesKey
    · rw [if_pos hnines]
      exact iff_of_true rfl hnines
    · rw [if_neg hnines]
      refine iff_of_false ?_ hnines
      decide +kernel

theorem sound_boxPrims : boxPrims.Sound where
  length_public key := by
    show (boxPublic key).length = 32
    unfold boxPublic
    split
    · exact Bytes.length_beBytes _ _
    · split
      · exact Bytes.length_beBytes _ _
      · exact List.length_replicate
  agree key key' := by
    have hagree : key = onesKey ∧ boxPublic key' = ninesPoint ∨
        key = ninesKey ∧ boxPublic key' = onesPoint ↔
          key' = onesKey ∧ boxPublic key = ninesPoint ∨
            key' = ninesKey ∧ boxPublic key = onesPoint := by
      rw [boxPublic_eq_ninesPoint, boxPublic_eq_onesPoint, boxPublic_eq_ninesPoint,
        boxPublic_eq_onesPoint]
      exact or_comm.trans (or_congr and_comm and_comm)
    exact if_congr hagree rfl rfl
  open_iff {key nonce header plaintext ciphertext} := by
    show (if nonce = List.replicate 12 0x07 ∧ boxSeal key header = some ciphertext then
        some [1, 2, 3] else none) = some plaintext ↔
      (if nonce = List.replicate 12 0x07 ∧ plaintext = [1, 2, 3] then boxSeal key header
        else none) = some ciphertext
    constructor
    · intro h
      obtain ⟨⟨hnonce, hseal⟩, hplaintext⟩ := Option.ite_none_right_eq_some.mp h
      exact Option.ite_none_right_eq_some.mpr
        ⟨⟨hnonce, (Option.some.inj hplaintext).symm⟩, hseal⟩
    · intro h
      obtain ⟨⟨hnonce, rfl⟩, hseal⟩ := Option.ite_none_right_eq_some.mp h
      exact Option.ite_none_right_eq_some.mpr ⟨⟨hnonce, hseal⟩, rfl⟩
  length_seal h := by
    obtain ⟨⟨-, rfl⟩, hseal⟩ := Option.ite_none_right_eq_some.mp h
    exact length_boxSeal hseal

def boxCiphertext : HybridCiphertext := ⟨ninesPoint, ⟨List.replicate 12 0x07, rfl⟩, boxSealed⟩

/-- A box from the point of order one. -/
def zerosCiphertext : HybridCiphertext := ⟨zerosPoint, ⟨List.replicate 12 0x07, rfl⟩, zerosSealed⟩

/-- Both decryptions open the first box; the second only the static one opens. -/
theorem sealed_box_opened :
    HybridCiphertext.deserialize boxCiphertext.serialize = .ok boxCiphertext ∧
      boxPrims.hybridDecrypt onesKey onesPoint boxCiphertext = .ok [1, 2, 3] ∧
      boxPrims.hybridDecryptStatic onesKey onesPoint boxCiphertext = .ok [1, 2, 3] ∧
      boxPrims.hybridDecryptStatic onesKey onesPoint zerosCiphertext = .ok [1, 2, 3] ∧
      ¬boxPrims.hybridDecrypt onesKey onesPoint zerosCiphertext = .ok [1, 2, 3] := by
  obtain ⟨hwire, hinverse, hopens, hstatic, -⟩ := sealed_box sound_boxPrims
  have hmade : boxPrims.hybridEncrypt (fun _ => 0x09) (fun _ => 0x07) onesPoint [1, 2, 3] =
      .ok boxCiphertext := by decide +kernel
  have hopened : boxPrims.hybridDecrypt onesKey onesPoint boxCiphertext = .ok [1, 2, 3] :=
    (hinverse (fun _ => 0x09) (fun _ => 0x07) onesKey [1, 2, 3] boxCiphertext (by decide +kernel)
      (by decide +kernel)).mpr hmade
  have hones : onesKey.length = 32 := List.length_replicate
  have hzeros : boxPrims.Seals (boxPrims.x25519 onesKey zerosPoint) onesPoint [1, 2, 3]
      zerosCiphertext := ⟨zerosKey, by decide +kernel, by decide +kernel⟩
  refine ⟨(hwire _ _).mpr ⟨by decide +kernel, by decide +kernel, rfl⟩, hopened,
    ((hstatic onesKey onesPoint [1, 2, 3] boxCiphertext hones).mp hopened).1,
    (hopens _ _ _ _).mpr ⟨hones, by decide +kernel, by decide +kernel, hzeros⟩, fun h => ?_⟩
  exact ((hstatic _ _ _ _ hones).mp h).2 (by decide +kernel)

end HybridPrimitives

end OpenKey
