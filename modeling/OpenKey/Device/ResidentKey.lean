import OpenKey.Device.Applet
import OpenKey.Library.Blob

/-!
# Keys and retries of the PIV and OpenPGP applets

`yubico_piv.rs` and `yubico_openpgp.rs` have the same two algorithms, checks of key lengths, form of
a key in storage and public key object; each file has its own copy. A counter of retries is also
kept in the same way.
-/

namespace OpenKey

open Command

set_option autoImplicit false

/-- `ALG_P256` and `ALG_ED25519`. -/
inductive KeyAlg
  | p256
  | ed25519
  deriving DecidableEq, Repr

namespace KeyAlg

/-- The identifier of an algorithm. -/
def id : KeyAlg → UInt8
  | .p256 => 0x11
  | .ed25519 => 0xE0

/-- `is_valid_alg`, with the algorithm. -/
def ofId (b : UInt8) : Option KeyAlg :=
  if b = 0x11 then some .p256 else if b = 0xE0 then some .ed25519 else none

@[simp] theorem ofId_id (alg : KeyAlg) : ofId alg.id = some alg := by
  cases alg <;> decide

end KeyAlg

/-- `key_lengths_ok`. -/
def KeyLengthsOk : KeyAlg → Nat → Nat → Prop
  | .ed25519, privLen, pubLen => privLen = 32 ∧ pubLen = 32
  | .p256, privLen, pubLen => 32 < privLen ∧ privLen ≤ 256 ∧ pubLen = 65

instance (alg : KeyAlg) (privLen pubLen : Nat) : Decidable (KeyLengthsOk alg privLen pubLen) := by
  cases alg <;> unfold KeyLengthsOk <;> infer_instance

/-- A key pair in a slot. -/
structure ResidentKey where
  alg : KeyAlg
  privKey : Bytes
  pubKey : Bytes
  lengths_ok : KeyLengthsOk alg privKey.length pubKey.length
  deriving DecidableEq

namespace ResidentKey

/-- The key in storage. -/
def serialize (key : ResidentKey) : Bytes :=
  [key.alg.id] ++ (Bytes.beBytes 2 key.privKey.length ++ key.privKey ++
    (Bytes.beBytes 2 key.pubKey.length ++ key.pubKey))

/-- A key around its parts. -/
def build (alg : KeyAlg) (privKey pubKey : Bytes) : Blob.Reader ResidentKey :=
  if h : KeyLengthsOk alg privKey.length pubKey.length then pure ⟨alg, privKey, pubKey, h⟩
  else failure

/-- An algorithm. -/
def readAlg : Blob.Reader KeyAlg := do
  let b ← Blob.byte
  (KeyAlg.ofId b).elim failure pure

/-- The key in storage, read back. -/
def read : Blob.Reader ResidentKey := do
  let alg ← readAlg
  let privKey ← Blob.prefixed 2
  let pubKey ← Blob.prefixed 2
  build alg privKey pubKey

theorem length_lt (key : ResidentKey) :
    key.privKey.length < 256 ^ 2 ∧ key.pubKey.length < 256 ^ 2 := by
  have hok := key.lengths_ok
  cases halg : key.alg with
  | p256 =>
      rw [halg] at hok
      unfold KeyLengthsOk at hok
      omega
  | ed25519 =>
      rw [halg] at hok
      unfold KeyLengthsOk at hok
      omega

theorem length_serialize_le (key : ResidentKey) : key.serialize.length ≤ 2 ^ 18 := by
  have hlt := key.length_lt
  simp only [serialize, List.length_append, List.length_singleton, Bytes.length_beBytes]
  omega

theorem reads_build (key : ResidentKey) :
    Blob.Reads (build key.alg key.privKey key.pubKey) [] key := by
  intro rest
  rw [build, dif_pos key.lengths_ok]
  rfl

theorem reads_alg (alg : KeyAlg) : Blob.Reads readAlg [alg.id] alg := by
  refine Blob.reads_bind_last (Blob.reads_byte _) ?_
  rw [KeyAlg.ofId_id]
  exact Blob.reads_pure alg

/-- A key is read back as it was written. -/
theorem reads_serialize (key : ResidentKey) : Blob.Reads read key.serialize key := by
  obtain ⟨hpriv, hpub⟩ := key.length_lt
  refine Blob.reads_bind (reads_alg key.alg) ?_
  refine Blob.reads_bind (Blob.reads_prefixed hpriv) ?_
  exact Blob.reads_bind_last (Blob.reads_prefixed hpub) (reads_build key)

theorem readAlg_eq_some {bytes rest : Bytes} {alg : KeyAlg}
    (h : readAlg bytes = some (alg, rest)) : bytes = [alg.id] ++ rest := by
  obtain ⟨b, mid, hbyte, hid⟩ := Blob.bind_eq_some h
  rw [Blob.inverts_byte _ _ _ hbyte]
  unfold KeyAlg.ofId at hid
  split at hid
  · next hb =>
      cases hid
      rw [hb]
      rfl
  · split at hid
    · next hb =>
        cases hid
        rw [hb]
        rfl
    · cases hid

theorem build_eq_some {alg : KeyAlg} {privKey pubKey bytes rest : Bytes} {key : ResidentKey}
    (h : build alg privKey pubKey bytes = some (key, rest)) :
    alg = key.alg ∧ privKey = key.privKey ∧ pubKey = key.pubKey ∧ bytes = rest := by
  unfold build at h
  split at h
  · cases h
    exact ⟨rfl, rfl, rfl, rfl⟩
  · cases h

/-- Only what is written for a key is read as that key. -/
theorem inverts_read : Blob.Inverts read serialize := by
  intro bytes key rest h
  obtain ⟨alg, atPriv, halg, h⟩ := Blob.bind_eq_some h
  obtain ⟨privKey, atPub, hpriv, h⟩ := Blob.bind_eq_some h
  obtain ⟨pubKey, behind, hpub, h⟩ := Blob.bind_eq_some h
  obtain ⟨rfl, rfl, rfl, rfl⟩ := build_eq_some h
  rw [readAlg_eq_some halg, Blob.inverts_prefixed 2 _ _ _ hpriv, Blob.inverts_prefixed 2 _ _ _ hpub]
  unfold serialize
  simp only [List.append_assoc]

/-- `pubkey_object`: `7F49 [80 01 alg][86 pubkey]`. -/
def pubkeyObject (key : ResidentKey) : Bytes :=
  let inner := [0x80, 0x01, key.alg.id, 0x86, UInt8.ofNat key.pubKey.length] ++ key.pubKey
  [0x7F, 0x49, UInt8.ofNat inner.length] ++ inner

end ResidentKey

/-! ## Retries -/

/-- `retries.saturating_sub(1)`. -/
def oneFewer (retries : UInt8) : UInt8 := if retries = 0 then 0 else retries - 1

theorem toNat_oneFewer (retries : UInt8) : (oneFewer retries).toNat = retries.toNat - 1 := by
  unfold oneFewer
  split
  · next hzero => rw [hzero]; rfl
  · next hne =>
      have hone : (1 : UInt8) ≤ retries := by
        rw [UInt8.le_iff_toNat_le]
        have hpos : retries.toNat ≠ 0 := fun h => hne (UInt8.toNat_inj.mp h)
        exact Nat.one_le_iff_ne_zero.mpr hpos
      exact UInt8.toNat_sub_of_le _ _ hone

theorem oneFewer_le (retries : UInt8) : oneFewer retries ≤ retries := by
  rw [UInt8.le_iff_toNat_le, toNat_oneFewer]
  exact Nat.sub_le _ _

/-- A retry is used up, if there is one. -/
theorem oneFewer_ne {retries : UInt8} (h : retries ≠ 0) : oneFewer retries ≠ retries := by
  intro heq
  have hpos : retries.toNat ≠ 0 := fun hzero => h (UInt8.toNat_inj.mp hzero)
  have hsame := congrArg UInt8.toNat heq
  rw [toNat_oneFewer] at hsame
  omega

/-! ## Making and using keys -/

variable {S V : Type} (crypto : AppletCrypto)

theorem generateKeyPair_lengths {entropy : Entropy} {priv pub : Bytes}
    (h : crypto.generateKeyPair entropy = .ok (priv, pub)) :
    KeyLengthsOk .ed25519 priv.length pub.length := by
  unfold CryptoEngine.generateKeyPair at h
  simp only at h
  split at h
  · next publicKey hpub =>
      cases h
      exact ⟨Entropy.length_bytes entropy 32, crypto.length_ed25519Public hpub⟩
  · cases h

theorem generateP256KeyPair_lengths {entropy : Entropy} {priv pub : Bytes}
    (h : crypto.generateP256KeyPair entropy = .ok (priv, pub)) :
    KeyLengthsOk .p256 priv.length pub.length := by
  unfold CryptoEngine.generateP256KeyPair at h
  cases hgen : crypto.prims.p256Generate entropy with
  | none =>
      rw [hgen] at h
      cases h
  | some pair =>
      rw [hgen] at h
      cases h
      exact crypto.length_p256Generate hgen

/-- The pair that `generate_key_pair` or `generate_p256_key_pair` makes. -/
def generatedKey (entropy : Entropy) : KeyAlg → Option ResidentKey
  | .ed25519 =>
      match h : crypto.generateKeyPair entropy with
      | .ok (priv, pub) => some ⟨.ed25519, priv, pub, generateKeyPair_lengths crypto h⟩
      | .error _ => none
  | .p256 =>
      match h : crypto.generateP256KeyPair entropy with
      | .ok (priv, pub) => some ⟨.p256, priv, pub, generateP256KeyPair_lengths crypto h⟩
      | .error _ => none

/-- A new key. -/
def generateKey (alg : KeyAlg) : Command S V ResidentKey := do
  let entropy ← draw
  orRefuse (generatedKey crypto entropy alg) swConditionsNotSatisfied

/-- A signature with a key; only P-256 draws from the random generator. -/
def signWith (key : ResidentKey) (data : Bytes) : Command S V Bytes :=
  match key.alg with
  | .ed25519 => orRefuse (crypto.sign data key.privKey).toOption swConditionsNotSatisfied
  | .p256 => do
      let entropy ← draw
      orRefuse (crypto.signP256 entropy key.privKey data).toOption swConditionsNotSatisfied

/-- A change of the state in memory, if it can be had. -/
def whenLoaded (change : S → S) : Command S V Unit := do
  let result ← tryLoad
  match result with
  | .ok () => do
      let state ← loadedState
      setState (change state)
  | .error _ => pure ()

/-- `persist_state`; if it fails, a change to the state in memory before the failure is handed
on. -/
def persistOr (rollback : S → S) : Command S V Unit := do
  let result ← tryPersist
  match result with
  | .ok () => pure ()
  | .error sw => do
      whenLoaded rollback
      refuse sw

end OpenKey
