import OpenKey.Ctap2.Registration
import OpenKey.Device.AppletUses

/-!
# Cells with key pairs

What the PIV and the OpenPGP applet have in common as cells: commands that are foretold by what is
known of the cell (`Foretold`, with a rule for each check), keys that were made by the generator
(`ResidentKey.Generated`), and signatures that check under them (`run_signWith`).
-/

namespace OpenKey

open Command

set_option autoImplicit false

/-! ## Commands that are foretold -/

section

variable {S V ν α : Type}

/-- The result of a command is the one that was foretold, and so is what is then known. -/
def Foretold (R : Cell S V → ν → Prop) (result : Except UInt16 ResponseData × ν)
    (out : Except Fault ResponseData × Cell S V) : Prop :=
  out.1 = result.1.mapError .status ∧ R out.2 result.2

variable {R : Cell S V → ν → Prop} {c : Cell S V} {v : ν}

theorem foretold_refuse (hR : R c v) (sw : UInt16) :
    Foretold R (.error sw, v) (Cell.run (refuse sw) c) := ⟨rfl, hR⟩

theorem foretold_pure (hR : R c v) (response : ResponseData) :
    Foretold R (.ok response, v) (Cell.run (pure response) c) := ⟨rfl, hR⟩

theorem foretold_require {p : Prop} [Decidable p] {b : Bool} (hb : b = true ↔ p) (hR : R c v)
    {sw : UInt16} {result : Except UInt16 ResponseData × ν} {f : Unit → Command S V ResponseData}
    (hf : p → Foretold R result (Cell.run (f ()) c)) :
    Foretold R (if p then result else (.error sw, v)) (Cell.run (require b sw >>= f) c) := by
  rw [Cell.run_require_bind]
  by_cases hp : p
  · rw [if_pos hp, if_pos (hb.mpr hp)]
    exact hf hp
  · rw [if_neg hp, if_neg (mt hb.mp hp)]
    exact foretold_refuse hR sw

theorem foretold_orRefuse (hR : R c v) {value : Option α} {sw : UInt16}
    {g : α → Except UInt16 ResponseData × ν} {f : α → Command S V ResponseData}
    (hf : ∀ a, value = some a → Foretold R (g a) (Cell.run (f a) c)) :
    Foretold R (value.elim (.error sw, v) g) (Cell.run (orRefuse value sw >>= f) c) := by
  rw [Cell.run_orRefuse_bind]
  cases value with
  | none => exact foretold_refuse hR sw
  | some a => exact hf a rfl

theorem foretold_ite {p : Prop} [Decidable p] {a b : Except UInt16 ResponseData × ν}
    {m m' : Command S V ResponseData} (hpos : p → Foretold R a (Cell.run m c))
    (hneg : ¬p → Foretold R b (Cell.run m' c)) :
    Foretold R (if p then a else b) (Cell.run (if p then m else m') c) := by
  by_cases h : p
  · rw [if_pos h, if_pos h]
    exact hpos h
  · rw [if_neg h, if_neg h]
    exact hneg h

/-- A cell takes every state. -/
theorem Cell.run_persistOr_bind (rollback : S → S) (f : Unit → Command S V α) (c : Cell S V) :
    Cell.run (persistOr rollback >>= f) c =
      Cell.run (f ()) { c with kept := c.state, rng := fun n => c.rng (n + 1) } := rfl

end

/-! ## Retries -/

theorem swRetries_ne (left : UInt8) : swRetries left ≠ swSecurityStatus := by
  have hall : ∀ n < 256, swRetries (UInt8.ofNat n) ≠ swSecurityStatus := by decide +kernel
  have hleft := hall left.toNat left.toNat_lt
  rwa [UInt8.ofNat_toNat] at hleft

/-! ## Key pairs -/

/-- A public key, as its holder is told. -/
structure PublicKey where
  alg : KeyAlg
  bytes : Bytes
  deriving DecidableEq

namespace PublicKey

/-- The data object of a public key. -/
def object (key : PublicKey) : Bytes :=
  let inner := [0x80, 0x01, key.alg.id, 0x86, UInt8.ofNat key.bytes.length] ++ key.bytes
  [0x7F, 0x49, UInt8.ofNat inner.length] ++ inner

/-- The check of a signature. -/
def checks (verifiers : Verifiers) (key : PublicKey) (data signature : Bytes) : Bool :=
  match key.alg with
  | .ed25519 => verifiers.ed25519 key.bytes data signature
  | .p256 => verifiers.p256 key.bytes data signature

/-- The key stands behind a header of eight bytes. -/
theorem drop_object (key : PublicKey) : key.object.drop 8 = key.bytes := rfl

end PublicKey

namespace ResidentKey

/-- The part of a key that is told. -/
def publicKey (key : ResidentKey) : PublicKey := ⟨key.alg, key.pubKey⟩

/-- The key came from the generator. -/
def Generated (crypto : AppletCrypto) (key : ResidentKey) : Prop :=
  ∃ entropy, generatedKey crypto entropy key.alg = some key

/-- The signature of a key, from a draw; only P-256 needs it. -/
def signature (crypto : AppletCrypto) (key : ResidentKey) (entropy : Entropy) (data : Bytes) :
    Option Bytes :=
  match key.alg with
  | .ed25519 => (crypto.sign data key.privKey).toOption
  | .p256 => (crypto.signP256 entropy key.privKey data).toOption

variable {crypto : AppletCrypto}

/-- The halves of a pair, with the draw that it was made of. -/
def Halves (prims : Primitives) (entropy : Entropy) (priv pub : Bytes) : KeyAlg → Prop
  | .ed25519 => prims.ed25519Public priv = some pub
  | .p256 => prims.p256Generate entropy = some (priv, pub)

theorem of_generatedKey {entropy : Entropy} {alg : KeyAlg} {key : ResidentKey}
    (h : generatedKey crypto entropy alg = some key) :
    key.alg = alg ∧ Halves crypto.prims entropy key.privKey key.pubKey alg := by
  cases alg with
  | ed25519 =>
    simp only [generatedKey] at h
    split at h
    · next priv pub hpair =>
      cases h
      refine ⟨rfl, ?_⟩
      unfold CryptoEngine.generateKeyPair at hpair
      simp only at hpair
      split at hpair
      · next hpublic =>
        cases hpair
        exact hpublic
      · cases hpair
    · cases h
  | p256 =>
    simp only [generatedKey] at h
    split at h
    · next priv pub hpair =>
      cases h
      refine ⟨rfl, ?_⟩
      unfold CryptoEngine.generateP256KeyPair at hpair
      cases hmade : crypto.prims.p256Generate entropy with
      | none =>
        rw [hmade] at hpair
        cases hpair
      | some pair =>
        rw [hmade] at hpair
        exact hmade.trans (congrArg some (Except.ok.inj hpair))
    · cases h

theorem generated_of_generatedKey {entropy : Entropy} {alg : KeyAlg} {key : ResidentKey}
    (h : generatedKey crypto entropy alg = some key) : key.Generated crypto := by
  have halg := (of_generatedKey h).1
  subst halg
  exact ⟨entropy, h⟩

/-- A signature checks under the public key of its pair. -/
theorem Generated.checks {verifiers : Verifiers} (hsound : verifiers.Sound crypto.prims)
    {key : ResidentKey} (hkey : key.Generated crypto) {entropy : Entropy} {data signed : Bytes}
    (h : key.signature crypto entropy data = some signed) :
    key.publicKey.checks verifiers data signed = true := by
  obtain ⟨made, hmade⟩ := hkey
  obtain ⟨-, hpair⟩ := of_generatedKey hmade
  unfold signature at h
  unfold PublicKey.checks publicKey
  cases halg : key.alg with
  | ed25519 =>
    rw [halg] at h hpair
    simp only at h
    unfold CryptoEngine.sign at h
    split at h
    · cases h
    · cases hsigned : crypto.prims.ed25519Sign key.privKey data with
      | none =>
        rw [hsigned] at h
        cases h
      | some made =>
        rw [hsigned] at h
        obtain rfl : made = signed := Option.some.inj h
        exact hsound.ed25519 hpair hsigned
  | p256 =>
    rw [halg] at h hpair
    simp only at h
    unfold CryptoEngine.signP256 at h
    cases hsigned : crypto.prims.p256Sign entropy key.privKey data with
    | none =>
      rw [hsigned] at h
      cases h
    | some made =>
      rw [hsigned] at h
      obtain rfl : made = signed := Option.some.inj h
      exact hsound.p256 hpair hsigned

end ResidentKey

/-! ## Keys of a cell -/

section

variable {S V α : Type} (crypto : AppletCrypto)

theorem Cell.run_generateKey_bind (alg : KeyAlg) (f : ResidentKey → Command S V α)
    (c : Cell S V) : Cell.run (generateKey crypto alg >>= f) c =
      match generatedKey crypto (c.rng 0) alg with
      | some key => Cell.run (f key) { c with rng := fun n => c.rng (n + 1) }
      | none => (.error (.status swConditionsNotSatisfied),
          { c with rng := fun n => c.rng (n + 1) }) := by
  show Cell.run (orRefuse (generatedKey crypto (c.rng 0) alg) swConditionsNotSatisfied >>= f)
    { c with rng := fun n => c.rng (n + 1) } = _
  rw [Cell.run_orRefuse_bind]
  cases generatedKey crypto (c.rng 0) alg with
  | none => rfl
  | some key => rfl

/-- GENERATE puts the new key in its place, or fails to make one. -/
theorem Cell.run_generate (alg : KeyAlg) (put : S → ResidentKey → S) (rollback : S → S)
    (c : Cell S V) : Cell.run (do
        let key ← generateKey crypto alg
        let state ← stateMut
        setState (put state key)
        persistOr rollback
        pure (.ok key.pubkeyObject) : Command S V ResponseData) c =
      match generatedKey crypto (c.rng 0) alg with
      | some key => (.ok (.ok key.publicKey.object),
          ⟨⟨put c.state key, put c.state key, c.session⟩, fun n => c.rng (n + 2)⟩)
      | none => (.error (.status swConditionsNotSatisfied),
          { c with rng := fun n => c.rng (n + 1) }) := by
  rw [Cell.run_generateKey_bind]
  cases generatedKey crypto (c.rng 0) alg with
  | none => rfl
  | some key => rfl

/-- What a holder of a public key may be answered that asks for a signature: one that checks, or a
failure that the key pair does have. -/
inductive SignatureAnswer (verifiers : Verifiers) (key : PublicKey) (data : Bytes) :
    Except Fault ResponseData → Prop
  | signed {signature : Bytes} (hcheck : key.checks verifiers data signature = true) :
      SignatureAnswer verifiers key data (.ok (.ok signature))
  | failed {pair : ResidentKey} {entropy : Entropy} (hpublic : pair.publicKey = key)
      (hpair : pair.Generated crypto) (hfails : pair.signature crypto entropy data = none) :
      SignatureAnswer verifiers key data (.error (.status swConditionsNotSatisfied))

/-- A key that came from the generator signs so that it checks. -/
theorem Cell.run_signWith {verifiers : Verifiers} (hsound : verifiers.Sound crypto.prims)
    {key : ResidentKey} (hkey : key.Generated crypto) (data : Bytes) (c : Cell S V) :
    ∃ answer rng, Cell.run (do
        let signature ← signWith crypto key data
        pure (.ok signature) : Command S V ResponseData) c = (answer, { c with rng := rng }) ∧
      SignatureAnswer crypto verifiers key.publicKey data answer := by
  have hsigned : ∃ entropy rng, Cell.run (do
      let signature ← signWith crypto key data
      pure (.ok signature) : Command S V ResponseData) c =
        Cell.run (do
          let signature ← orRefuse (key.signature crypto entropy data) swConditionsNotSatisfied
          pure (.ok signature) : Command S V ResponseData) { c with rng := rng } := by
    unfold signWith ResidentKey.signature
    cases key.alg with
    | ed25519 => exact ⟨c.rng 0, c.rng, rfl⟩
    | p256 => exact ⟨c.rng 0, fun n => c.rng (n + 1), rfl⟩
  obtain ⟨entropy, rng, hrun⟩ := hsigned
  rw [hrun, run_orRefuse_bind]
  cases hsignature : key.signature crypto entropy data with
  | none => exact ⟨_, rng, rfl, .failed rfl hkey hsignature⟩
  | some signature => exact ⟨_, rng, rfl, .signed (hkey.checks hsound hsignature)⟩

end

/-! ## A key pair for runs on fixed inputs -/

/-- The Ed25519 public key of the seed of nines. -/
def ninesPublic : Bytes :=
  Bytes.beBytes 32 0xfd1724385aa0c75b64fb78cd602fa1d991fdebf76b13c58ed702eac835e9f618

/-- Its signature of `01 02 03`. -/
def ninesSignature : Bytes :=
  Bytes.beBytes 32 0x22b6ef9dca6d7bbfd22f5e52555ff670bcad16a4e9548c090e3d53b1f3ceee75 ++
    Bytes.beBytes 32 0xbbf31a91a5189b499ce56a523f5dadedd2a581b35614dce4f2e84bb5d8158908

def ninesPairs : List (Bytes × Bytes) := [(List.replicate 32 0x09, ninesPublic)]

def ninesSignatures : List ((Bytes × Bytes) × Bytes) :=
  [((List.replicate 32 0x09, [1, 2, 3]), ninesSignature)]

theorem length_ninesPairs {seed pub : Bytes} (h : tableEntry ninesPairs seed = some pub) :
    pub.length = 32 := by
  have hentry := List.mem_singleton.mp (Auth.tableEntry_mem h)
  obtain rfl : pub = ninesPublic := congrArg Prod.snd hentry
  exact Bytes.length_beBytes _ _

namespace KnownAead

variable (known : KnownAead)

/-- A crypto engine with this AEAD that knows the key pair of nines and no other. -/
def signing : AppletCrypto where
  prims := { (known.crypto (List.replicate 32 0x02) length_masterKey).prims with
    length_sha256 := length_sha256_unused
    length_hmacSha256 := length_hmacSha256_unused
    ed25519Public := tableEntry ninesPairs
    ed25519Sign := fun seed data => tableEntry ninesSignatures (seed, data) }
  key := List.replicate 32 0x02
  length_key := length_masterKey
  hmacSha1 _ _ := List.replicate 20 0
  length_hmacSha1 := length_sha1Zeros
  hmacSha512 _ _ := List.replicate 64 0
  length_hmacSha512 := length_sha512Zeros
  length_ed25519Public := length_ninesPairs
  length_p256Generate h := nomatch h

theorem sound_signing : AeadSound known.signing.prims where
  open_seal := open_seal
  open_other := open_other
  seal_ne_nil := (known.sound (List.replicate 32 0x02) length_masterKey).seal_ne_nil

theorem total_signing : AeadTotal known.signing.prims where
  seal_isSome := (known.total (List.replicate 32 0x02) length_masterKey).seal_isSome

/-- The checks of its signatures. -/
def verifiers : Verifiers := Auth.tableVerifiers known.signing.prims id ninesSignatures

theorem sound_verifiers : known.verifiers.Sound known.signing.prims :=
  Auth.SignsFromTable.sound ⟨fun _ _ => rfl, fun _ => rfl, fun _ => rfl, fun _ => rfl,
    fun _ _ => rfl⟩

end KnownAead

end OpenKey
