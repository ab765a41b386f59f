import OpenKey.Crypto.Verification
import OpenKey.Ctap2.Completeness

/-!
# The keys of credentials

A credential signs with the key pair it was made with, and three places hand its public key out:
the record holds it raw, MakeCredential attests it as a COSE key, and enumerateCredentials lists it
as another.

**Attested keys (`checkCose_of_attested`).** What the credential signs checks under the attested
key, whatever the algorithm.

**Listed keys (`coseKeyValue_attested_iff`).** `cose_key_value` has a form of its own for ES256
only, and calls every other key an Ed25519 key. So the listed key has the entries of the attested
one for ES256 and EdDSA, and for no other algorithm.
-/

namespace OpenKey

open Prog (bind_eq_ok check_eq_ok)

set_option autoImplicit false

/-! ## Pairs and signatures -/

/-- The key pair a draw yields, for an algorithm. -/
def CryptoEngine.keyPair (build : Build) (algorithm : Int) (crypto : CryptoEngine)
    (entropy : Entropy) : Except String (Bytes × Bytes) :=
  if algorithm = -7 then crypto.generateP256KeyPair entropy
  else if algorithm = -35 then crypto.generateP384KeyPair entropy
  else if build.rs256 ∧ (algorithm = -37 ∨ algorithm = -257) then Auth.rsaKeyPair crypto entropy
  else crypto.generateKeyPair entropy

namespace Auth

variable {β : Type} [StorageBackend β] (build : Build)

omit [StorageBackend β] in
theorem newKeyPair_eq (algorithm : Int) : (newKeyPair build algorithm : Ctap β (Bytes × Bytes)) =
    drawKeyPair (CryptoEngine.keyPair build algorithm) := by
  have hpair : CryptoEngine.keyPair build algorithm =
      if algorithm = -7 then CryptoEngine.generateP256KeyPair
      else if algorithm = -35 then CryptoEngine.generateP384KeyPair
      else if build.rs256 ∧ (algorithm = -37 ∨ algorithm = -257) then rsaKeyPair
      else CryptoEngine.generateKeyPair := by
    funext crypto entropy
    unfold CryptoEngine.keyPair
    split_ifs <;> rfl
  rw [hpair]
  unfold newKeyPair
  split_ifs <;> rfl

omit [StorageBackend β] in
theorem newKeyPair_ok {algorithm : Int} {keys : Bytes × Bytes} {a b : Auth β}
    (h : (newKeyPair build algorithm).run a = (.ok keys, b)) :
    ∃ entropy, a.crypto.keyPair build algorithm entropy = .ok keys := by
  rw [newKeyPair_eq] at h
  obtain ⟨entropy, a₁, h₁, h⟩ := bind_eq_ok.mp h
  cases h₁
  obtain ⟨hkeys, -⟩ := check_eq_ok.mp h
  exact ⟨_, Except.mapError_eq_ok.mp hkeys⟩

omit [StorageBackend β] in
theorem signRandomised_ok {sign : CryptoEngine → Entropy → Except String Bytes}
    {signature : Bytes} {a b : Auth β} (h : (signRandomised sign).run a = (.ok signature, b)) :
    ∃ entropy, sign a.crypto entropy = .ok signature := by
  obtain ⟨entropy, a₁, h₁, h⟩ := bind_eq_ok.mp h
  cases h₁
  obtain ⟨hsign, -⟩ := check_eq_ok.mp h
  exact ⟨_, Except.mapError_eq_ok.mp hsign⟩

omit [StorageBackend β] in
theorem signAssertion_ok {algorithm : Int} {privateKey data signature : Bytes} {a b : Auth β}
    (h : (signAssertion build algorithm privateKey data).run a = (.ok signature, b)) :
    ∃ entropy, a.crypto.signature build algorithm privateKey data entropy = .ok signature := by
  unfold signAssertion at h
  unfold CryptoEngine.signature
  split_ifs at h ⊢
  · exact signRandomised_ok h
  · exact signRandomised_ok h
  · exact signRandomised_ok h
  · exact signRandomised_ok h
  · exact ⟨fun _ => 0, Except.mapError_eq_ok.mp (check_eq_ok.mp h).1⟩

end Auth

/-! ## Checking under the raw key -/

section Raw

variable {build : Build} {crypto : CryptoEngine} {verifiers : Verifiers}

theorem generateKeyPair_ok {entropy : Entropy} {privateKey publicKey : Bytes}
    (h : crypto.generateKeyPair entropy = .ok (privateKey, publicKey)) :
    crypto.prims.ed25519Public privateKey = some publicKey := by
  unfold CryptoEngine.generateKeyPair at h
  cases hpublic : crypto.prims.ed25519Public (entropy.bytes 32) with
  | none => simp [hpublic] at h
  | some found =>
      simp only [hpublic, Except.ok.injEq, Prod.mk.injEq] at h
      obtain ⟨rfl, rfl⟩ := h
      exact hpublic

theorem rsaKeyPair_ok {entropy : Entropy} {privateKey publicKey : Bytes}
    (h : Auth.rsaKeyPair crypto entropy = .ok (privateKey, publicKey)) :
    ∃ n e, crypto.prims.rsaGenerate entropy = some (privateKey, n, e) ∧
      crypto.prims.rsaPublicDer n e = some publicKey := by
  obtain ⟨⟨pkcs8, n, e⟩, hgenerate, h⟩ := Except.bind_eq_ok.mp h
  obtain ⟨der, hder, h⟩ := Except.bind_eq_ok.mp h
  cases h
  exact ⟨n, e, Option.elim_error_eq_ok.mp hgenerate, Option.elim_error_eq_ok.mp hder⟩

theorem sign_ok {data privateKey signature : Bytes}
    (h : crypto.sign data privateKey = .ok signature) :
    crypto.prims.ed25519Sign privateKey data = some signature := by
  unfold CryptoEngine.sign at h
  split at h
  · cases h
  · exact Option.elim_error_eq_ok.mp h

/-- What a key pair signs checks under its public key. -/
theorem checkRaw_of_keyPair (hsound : verifiers.Sound crypto.prims) {algorithm : Int}
    {entropy entropy' : Entropy} {privateKey publicKey data signature : Bytes}
    (hkeys : crypto.keyPair build algorithm entropy = .ok (privateKey, publicKey))
    (hsign : crypto.signature build algorithm privateKey data entropy' = .ok signature) :
    CryptoEngine.checkRaw verifiers build.rs256 algorithm publicKey data signature = true := by
  unfold CryptoEngine.keyPair at hkeys
  unfold CryptoEngine.signature at hsign
  unfold CryptoEngine.checkRaw
  by_cases h7 : algorithm = -7
  · simp only [h7, if_true] at hkeys hsign ⊢
    simp [CryptoEngine.verifyP256, Except.isOk, Except.toBool,
      hsound.p256 (Option.elim_error_eq_ok.mp hkeys) (Option.elim_error_eq_ok.mp hsign)]
  by_cases h35 : algorithm = -35
  · subst h35
    simp only [show ¬(-35 : Int) = -7 by decide, if_false, if_true] at hkeys hsign ⊢
    simp [CryptoEngine.verifyP384, Except.isOk, Except.toBool,
      hsound.p384 (Option.elim_error_eq_ok.mp hkeys) (Option.elim_error_eq_ok.mp hsign)]
  simp only [h7, h35, if_false] at hkeys hsign ⊢
  by_cases hpss : build.rs256 = true ∧ algorithm = -37
  · rw [if_pos ⟨hpss.1, .inl hpss.2⟩] at hkeys
    rw [if_pos hpss] at hsign ⊢
    obtain ⟨n, e, hgenerate, hder⟩ := rsaKeyPair_ok hkeys
    simp [CryptoEngine.verifyRsaPss, Except.isOk, Except.toBool,
      hsound.rsaPss hgenerate hder (Option.elim_error_eq_ok.mp hsign)]
  by_cases hpkcs : build.rs256 = true ∧ algorithm = -257
  · rw [if_pos ⟨hpkcs.1, .inr hpkcs.2⟩] at hkeys
    rw [if_neg hpss, if_pos hpkcs] at hsign ⊢
    obtain ⟨n, e, hgenerate, hder⟩ := rsaKeyPair_ok hkeys
    simp [CryptoEngine.verifyRsa, Except.isOk, Except.toBool,
      hsound.rsaPkcs1 hgenerate hder (Option.elim_error_eq_ok.mp hsign)]
  rw [if_neg fun h => h.2.elim (fun h37 => hpss ⟨h.1, h37⟩) fun h257 => hpkcs ⟨h.1, h257⟩]
    at hkeys
  rw [if_neg hpss, if_neg hpkcs] at hsign ⊢
  simp [CryptoEngine.verify, Except.isOk, Except.toBool,
    hsound.ed25519 (generateKeyPair_ok hkeys) (sign_ok hsign)]

end Raw

/-! ## Checking under a COSE key -/

/-- An entry of a COSE key. -/
def coseEntry (label : Int) : Value → Option Value
  | .map entries => entries.findSome? fun entry =>
      match entry.1 with
      | .integer n => if n = label then some entry.2 else none
      | _ => none
  | _ => none

/-- A relying party checks a signature under a COSE key, by the type of the key and its
algorithm. -/
def checkCose (verifiers : Verifiers) (crypto : CryptoEngine) (key : Value)
    (message signature : Bytes) : Bool :=
  match coseEntry 1 key, coseEntry 3 key, coseEntry (-1) key, coseEntry (-2) key,
    coseEntry (-3) key with
  | some (.integer 1), some (.integer (-8)), some (.integer 6), some (.bytes x), _ =>
      (CryptoEngine.verify verifiers message signature x).isOk
  | some (.integer 2), some (.integer (-7)), some (.integer 1), some (.bytes x), some (.bytes y) =>
      (CryptoEngine.verifyP256 verifiers (0x04 :: x ++ y) message signature).isOk
  | some (.integer 2), some (.integer (-35)), some (.integer 2), some (.bytes x),
    some (.bytes y) => (CryptoEngine.verifyP384 verifiers (0x04 :: x ++ y) message signature).isOk
  | some (.integer 3), some (.integer algorithm), some (.bytes n), some (.bytes e), _ =>
      match crypto.rsaPublicKeyDer n e with
      | .ok der =>
          if algorithm = -37 then (CryptoEngine.verifyRsaPss verifiers der message signature).isOk
          else if algorithm = -257 then
            (CryptoEngine.verifyRsa verifiers der message signature).isOk
          else false
      | .error _ => false
  | _, _, _, _, _ => false

section Cose

variable {build : Build} {crypto : CryptoEngine} {verifiers : Verifiers}

/-- An uncompressed point is put together again from its coordinates. -/
theorem point_eq {point : Bytes} {len : Nat} (hhead : point.head? = some 0x04)
    (hlen : point.length = 1 + 2 * len) :
    0x04 :: (point.drop 1).take len ++ (point.drop (1 + len)).take len = point := by
  rcases point with _ | ⟨b, rest⟩
  · cases hhead
  · obtain rfl : b = 0x04 := by simpa using hhead
    have hrest : rest.length = len + len := by
      simp only [List.length_cons] at hlen
      omega
    have hdrop : (((0x04 : UInt8) :: rest).drop (1 + len)) = rest.drop len := by
      rw [Nat.add_comm, List.drop_succ_cons]
    have htake : (rest.drop len).take len = rest.drop len :=
      List.take_of_length_le (by rw [List.length_drop]; omega)
    rw [hdrop, htake, List.drop_one, List.tail_cons, List.cons_append, List.take_append_drop]

/-- The point of a key pair for ES256 or ES384. -/
theorem head_of_keyPair (hsound : verifiers.Sound crypto.prims) {algorithm : Int}
    {entropy : Entropy} {privateKey publicKey : Bytes}
    (hkeys : crypto.keyPair build algorithm entropy = .ok (privateKey, publicKey))
    (halgorithm : algorithm = -7 ∨ algorithm = -35) : publicKey.head? = some 0x04 := by
  unfold CryptoEngine.keyPair at hkeys
  rcases halgorithm with rfl | rfl
  · rw [if_pos rfl] at hkeys
    exact hsound.uncompressed (.inl (Option.elim_error_eq_ok.mp hkeys))
  · rw [if_neg (by decide), if_pos rfl] at hkeys
    exact hsound.uncompressed (.inr (Option.elim_error_eq_ok.mp hkeys))

/-- Checking under the attested key is checking under the key pair's public key. -/
theorem checkCose_attestedKey (hsound : verifiers.Sound crypto.prims) {algorithm : Int}
    {entropy : Entropy} {privateKey publicKey : Bytes} {key : Value}
    (hsupported : Auth.algorithmSupported build algorithm = true)
    (hkeys : crypto.keyPair build algorithm entropy = .ok (privateKey, publicKey))
    (hkey : attestedKey build crypto algorithm publicKey = .ok key) (message signature : Bytes) :
    checkCose verifiers crypto key message signature =
      CryptoEngine.checkRaw verifiers build.rs256 algorithm publicKey message signature := by
  have hhead := head_of_keyPair hsound hkeys
  unfold attestedKey at hkey
  unfold CryptoEngine.checkRaw
  by_cases h7 : algorithm = -7
  · subst h7
    simp only [if_true] at hkey ⊢
    split at hkey
    · next hlen =>
        cases hkey
        exact congrArg
          (fun point => (CryptoEngine.verifyP256 verifiers point message signature).isOk)
          (point_eq (hhead (.inl rfl)) hlen)
    · cases hkey
  by_cases h35 : algorithm = -35
  · subst h35
    simp only [show ¬(-35 : Int) = -7 by decide, if_false, if_true] at hkey ⊢
    split at hkey
    · next hlen =>
        cases hkey
        exact congrArg
          (fun point => (CryptoEngine.verifyP384 verifiers point message signature).isOk)
          (point_eq (hhead (.inr rfl)) hlen)
    · cases hkey
  simp only [h7, h35, if_false] at hkey ⊢
  by_cases hrsa : build.rs256 = true ∧ (algorithm = -37 ∨ algorithm = -257)
  · rw [if_pos hrsa] at hkey
    unfold CryptoEngine.keyPair at hkeys
    rw [if_neg h7, if_neg h35, if_pos hrsa] at hkeys
    obtain ⟨n, e, -, hder⟩ := rsaKeyPair_ok hkeys
    have hparts : crypto.rsaPublicKeyParts publicKey = .ok (n, e) :=
      Option.elim_error_eq_ok.mpr (hsound.parts hder)
    have hback : crypto.rsaPublicKeyDer n e = .ok publicKey := Option.elim_error_eq_ok.mpr hder
    rw [hparts] at hkey
    cases hkey
    rcases hrsa with ⟨hrs, rfl | rfl⟩ <;>
      simp [checkCose, coseEntry, coseKeyRsa, hback, hrs]
  · rw [if_neg hrsa] at hkey
    cases hkey
    have hed : algorithm = -8 := by
      unfold Auth.algorithmSupported at hsupported
      rcases of_decide_eq_true hsupported with h | h | h | h
      · exact absurd h h7
      · exact h
      · exact absurd h h35
      · exact absurd h hrsa
    subst hed
    simp [checkCose, coseEntry, coseKeyOkp]

/-- What a key pair signs checks under the key that is attested for it. -/
theorem checkCose_of_attested (hsound : verifiers.Sound crypto.prims) {algorithm : Int}
    {entropy entropy' : Entropy} {privateKey publicKey data signature : Bytes} {key : Value}
    (hsupported : Auth.algorithmSupported build algorithm = true)
    (hkeys : crypto.keyPair build algorithm entropy = .ok (privateKey, publicKey))
    (hkey : attestedKey build crypto algorithm publicKey = .ok key)
    (hsign : crypto.signature build algorithm privateKey data entropy' = .ok signature) :
    checkCose verifiers crypto key data signature = true := by
  rw [checkCose_attestedKey hsound hsupported hkeys hkey]
  exact checkRaw_of_keyPair hsound hkeys hsign

/-! ## Listed keys -/

/-- Two COSE keys have the same entries. -/
def SameKey (key key' : Value) : Prop := ∀ label, coseEntry label key = coseEntry label key'

theorem sameKey_okp (publicKey : Bytes) :
    SameKey (.map [(.integer 1, .integer 1), (.integer 3, .integer (-8)),
      (.integer (-1), .integer 6), (.integer (-2), .bytes publicKey)]) (coseKeyOkp publicKey) := by
  intro label
  by_cases h1 : (1 : Int) = label
  · subst h1; rfl
  by_cases h3 : (3 : Int) = label
  · subst h3; rfl
  by_cases hm1 : (-1 : Int) = label
  · subst hm1; rfl
  simp [coseEntry, coseKeyOkp, List.findSome?_cons, h1, h3, hm1]

theorem sameKey_ec2 (x y : Bytes) :
    SameKey (.map [(.integer 1, .integer 2), (.integer 3, .integer (-7)),
      (.integer (-1), .integer 1), (.integer (-2), .bytes x), (.integer (-3), .bytes y)])
      (coseKeyEc2 (-7) 1 x y) := by
  intro label
  by_cases h1 : (1 : Int) = label
  · subst h1; rfl
  by_cases h3 : (3 : Int) = label
  · subst h3; rfl
  by_cases hm1 : (-1 : Int) = label
  · subst hm1; rfl
  by_cases hm2 : (-2 : Int) = label
  · subst hm2; rfl
  simp [coseEntry, coseKeyEc2, List.findSome?_cons, h1, h3, hm1, hm2]

/-- The listed key has the entries of the attested key exactly for ES256 and EdDSA. -/
theorem coseKeyValue_attested_iff {credential : Credential} {key : Value}
    (hsupported : Auth.algorithmSupported build credential.algorithm = true)
    (hpoint : credential.algorithm = -7 → credential.publicKey.head? = some 0x04)
    (hkey : attestedKey build crypto credential.algorithm credential.publicKey = .ok key) :
    SameKey (Auth.coseKeyValue credential) key ↔
      credential.algorithm = -7 ∨ credential.algorithm = -8 := by
  unfold attestedKey at hkey
  unfold Auth.coseKeyValue
  by_cases h7 : credential.algorithm = -7
  · simp only [h7, if_true, true_or, iff_true] at hkey ⊢
    split at hkey
    · next hlen =>
        cases hkey
        rw [if_pos ⟨hlen, hpoint h7⟩]
        exact sameKey_ec2 _ _
    · cases hkey
  by_cases h35 : credential.algorithm = -35
  · simp only [h35, show ¬(-35 : Int) = -7 by decide, show ¬(-35 : Int) = -8 by decide, if_false,
      if_true, or_self, iff_false] at hkey ⊢
    split at hkey
    · cases hkey
      intro h
      have hkty := h 1
      simp [coseEntry, coseKeyEc2] at hkty
    · cases hkey
  simp only [h7, h35, if_false, false_or] at hkey ⊢
  by_cases hrsa : build.rs256 = true ∧
      (credential.algorithm = -37 ∨ credential.algorithm = -257)
  · rw [if_pos hrsa] at hkey
    have hne : ¬credential.algorithm = -8 := by
      rcases hrsa.2 with h | h <;> rw [h] <;> decide
    cases hparts : crypto.rsaPublicKeyParts credential.publicKey with
    | error text =>
        rw [hparts] at hkey
        cases hkey
    | ok parts =>
        rw [hparts] at hkey
        cases hkey
        refine ⟨fun h => ?_, fun h => absurd h hne⟩
        have hkty := h 1
        simp [coseEntry, coseKeyRsa] at hkty
  · rw [if_neg hrsa] at hkey
    cases hkey
    have hed : credential.algorithm = -8 := by
      unfold Auth.algorithmSupported at hsupported
      rcases of_decide_eq_true hsupported with h | h | h | h
      · exact absurd h h7
      · exact h
      · exact absurd h h35
      · exact absurd h hrsa
    exact ⟨fun _ => hed, fun _ => sameKey_okp _⟩

end Cose

end OpenKey
