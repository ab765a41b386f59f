import OpenKey.Device.Persistence

/-!
# An AEAD that knows some ciphertexts

For runs on fixed inputs: an AEAD with the ciphertexts of ChaCha20-Poly1305 for the plaintexts of a
table, under their keys and nonces. Every other plaintext is put behind its key and nonce, so that
it too has one ciphertext, which opens under its key only (`KnownAead.sound`).
-/

namespace OpenKey

set_option autoImplicit false

theorem mem_of_lookup {α γ : Type} [BEq α] [LawfulBEq α] {table : List (α × γ)} {a : α} {c : γ}
    (h : table.lookup a = some c) : (a, c) ∈ table := by
  obtain ⟨l₁, l₂, rfl, -⟩ := List.lookup_eq_some_iff.mp h
  simp

/-- A key, a nonce and a plaintext, with the ciphertext. -/
abbrev AeadRow := (Bytes × Bytes × Bytes) × Bytes

/-- A row whose key and nonce are one byte over and over. -/
def AeadRow.of (key nonce : UInt8) (plaintext ciphertext : Bytes) : AeadRow :=
  ((List.replicate 32 key, List.replicate 12 nonce, plaintext), ciphertext)

/-- The row as it is looked up to open the ciphertext. -/
def AeadRow.flip (row : AeadRow) : AeadRow := ((row.1.1, row.1.2.1, row.2), row.1.2.2)

/-- A table of ciphertexts that can be told apart, also from the ciphertexts outside the table. -/
structure KnownAead where
  rows : List AeadRow
  opens : ∀ row ∈ rows, (rows.map AeadRow.flip).lookup (row.1.1, row.1.2.1, row.2) =
    some row.1.2.2
  one_key : ∀ row ∈ rows, ∀ row' ∈ rows, row.1.2.1 = row'.1.2.1 → row.2 = row'.2 →
    row.1.1 = row'.1.1
  apart : ∀ row ∈ rows, ¬row.1.2.1 <+: row.2.drop 32
  ne_nil : ∀ row ∈ rows, row.2 ≠ []

namespace KnownAead

variable (known : KnownAead)

/-- Put a plaintext behind its key and nonce. -/
def label (key nonce plaintext : Bytes) : Bytes := key ++ (nonce ++ plaintext)

def sealText (key nonce plaintext : Bytes) : Option Bytes :=
  match known.rows.lookup (key, nonce, plaintext) with
  | some ciphertext => some ciphertext
  | none => if key.length = 32 ∧ nonce.length = 12 then some (label key nonce plaintext) else none

def openText (key nonce ciphertext : Bytes) : Option Bytes :=
  match (known.rows.map AeadRow.flip).lookup (key, nonce, ciphertext) with
  | some plaintext => some plaintext
  | none =>
      if key.length = 32 ∧ nonce.length = 12 ∧ label key nonce [] <+: ciphertext then
        some (ciphertext.drop 44)
      else none

variable {known}

theorem lookup_flip {key nonce ciphertext plaintext : Bytes}
    (h : (known.rows.map AeadRow.flip).lookup (key, nonce, ciphertext) = some plaintext) :
    ((key, nonce, plaintext), ciphertext) ∈ known.rows := by
  obtain ⟨⟨⟨k, n, p⟩, c⟩, hrow, heq⟩ := List.mem_map.mp (mem_of_lookup h)
  cases heq
  exact hrow

/-- No ciphertext of the table looks like one outside it. -/
theorem no_label_before {row : AeadRow} (hrow : row ∈ known.rows) {key : Bytes}
    (hkey : key.length = 32) : ¬label key row.1.2.1 [] <+: row.2 := by
  rintro ⟨rest, heq⟩
  refine known.apart row hrow ⟨rest, ?_⟩
  rw [← heq, label, List.append_nil, List.append_assoc, List.drop_left' hkey]

theorem open_seal {key nonce plaintext ciphertext : Bytes}
    (h : known.sealText key nonce plaintext = some ciphertext) :
    known.openText key nonce ciphertext = some plaintext := by
  unfold sealText at h
  unfold openText
  cases hlookup : known.rows.lookup (key, nonce, plaintext) with
  | some found =>
      rw [hlookup] at h
      cases h
      have hopen := known.opens _ (mem_of_lookup hlookup)
      simp only at hopen
      rw [hopen]
  | none =>
      rw [hlookup] at h
      simp only at h
      split at h
      · next hlen =>
          cases h
          cases hflip : (known.rows.map AeadRow.flip).lookup
              (key, nonce, label key nonce plaintext) with
          | some other =>
              refine absurd ?_ (no_label_before (lookup_flip hflip) hlen.1)
              exact ⟨plaintext, by simp [label]⟩
          | none =>
              simp only
              rw [if_pos ⟨hlen.1, hlen.2, plaintext, by simp [label]⟩, label, ← List.append_assoc,
                List.drop_left' (by rw [List.length_append, hlen.1, hlen.2])]
      · cases h

theorem open_other {key key' nonce plaintext ciphertext : Bytes}
    (h : known.openText key nonce ciphertext = some plaintext) (hne : key' ≠ key) :
    known.openText key' nonce ciphertext = none := by
  unfold openText at h ⊢
  cases hother : (known.rows.map AeadRow.flip).lookup (key', nonce, ciphertext) with
  | some found =>
      exfalso
      have hrow := lookup_flip hother
      cases hmine : (known.rows.map AeadRow.flip).lookup (key, nonce, ciphertext) with
      | some mine => exact hne (known.one_key _ hrow _ (lookup_flip hmine) rfl rfl)
      | none =>
          rw [hmine] at h
          simp only at h
          split at h
          · next hlen => exact no_label_before hrow hlen.1 hlen.2.2
          · cases h
  | none =>
      refine if_neg ?_
      rintro ⟨hlen, hnonce, hprefix⟩
      cases hmine : (known.rows.map AeadRow.flip).lookup (key, nonce, ciphertext) with
      | some mine => exact no_label_before (lookup_flip hmine) hlen hprefix
      | none =>
          rw [hmine] at h
          simp only at h
          split at h
          · next hlen' =>
              obtain ⟨rest, heq⟩ := hprefix
              obtain ⟨rest', heq'⟩ := hlen'.2.2
              refine hne ?_
              rw [label, List.append_assoc] at heq heq'
              exact List.append_inj_left (heq.trans heq'.symm) (hlen.trans hlen'.1.symm)
          · cases h

/-- The system random generator of a run: every draw is one byte over and over. -/
def constantDraws (b : UInt8) : Nat → Entropy := fun _ _ => b

/-- The length of the master key of the runs. -/
theorem length_masterKey : (List.replicate 32 (0x02 : UInt8)).length = 32 := List.length_replicate

/-- The length of the key that another boot draws. -/
theorem length_otherKey : (List.replicate 32 (0x42 : UInt8)).length = 32 := List.length_replicate

variable (known) in
/-- A crypto engine with this AEAD. -/
def crypto (key : Bytes) (hkey : key.length = 32) : AppletCrypto where
  prims := { unusedCrypto.prims with
    length_sha256 := length_sha256_unused
    length_hmacSha256 := length_hmacSha256_unused
    aeadSeal := known.sealText
    aeadOpen := known.openText }
  key := key
  length_key := hkey
  hmacSha1 _ _ := List.replicate 20 0
  length_hmacSha1 := length_sha1Zeros
  hmacSha512 _ _ := List.replicate 64 0
  length_hmacSha512 := length_sha512Zeros
  length_ed25519Public h := nomatch h
  length_p256Generate h := nomatch h

theorem sound (key : Bytes) (hkey : key.length = 32) : AeadSound (known.crypto key hkey).prims where
  open_seal := open_seal
  open_other := open_other
  seal_ne_nil h := by
    change known.sealText _ _ _ = some _ at h
    unfold sealText at h
    split at h
    · next hlookup =>
        cases h
        exact known.ne_nil _ (mem_of_lookup hlookup)
    · split at h
      · next hlen =>
          cases h
          intro hnil
          have hlength := congrArg List.length hnil
          simp only [label, List.length_append, List.length_nil, hlen.1] at hlength
          omega
      · cases h

theorem total (key : Bytes) (hkey : key.length = 32) : AeadTotal (known.crypto key hkey).prims where
  seal_isSome hkey hnonce _ := by
    show (known.sealText _ _ _).isSome
    unfold sealText
    split
    · rfl
    · rw [if_pos ⟨hkey, hnonce⟩]
      rfl

end KnownAead

end OpenKey
