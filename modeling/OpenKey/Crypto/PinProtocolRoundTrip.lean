import OpenKey.Crypto.PinProtocol
import OpenKey.Library.Cbc
import OpenKey.Library.Checked

/-!
# PIN/UV protocol encryption

**Theorem (`pin_protocol_round_trip`).** If AES inverts itself on blocks, then under both protocols
`decrypt` undoes `encrypt`, it panics for no secret and no ciphertext, and it rejects what is not
made of whole blocks. A padded PIN loses its padding again if it does not end in a zero.

`decrypt` is embedded twice: in `PinProtocol` by its results, and here with the conversions of a
chunk to a block and the slices, which panic on a wrong length.
-/

namespace OpenKey

set_option autoImplicit false

/-! ## Padding -/

/-- `PIN_PAD_LEN`. -/
def pinPadLen : Nat := 64

/-- `zero_pad_to_64`. -/
def zeroPadTo64 (data : Bytes) : Except String Bytes :=
  if data.length > pinPadLen then
    .error ("PIN is " ++ toString data.length ++ " bytes, exceeding the 63-byte limit")
  else .ok (data ++ List.replicate (pinPadLen - data.length) 0)

theorem dropWhile_replicate_append (n : Nat) (bs : Bytes) :
    (List.replicate n 0 ++ bs).dropWhile (fun b => decide (b = 0)) =
      bs.dropWhile fun b => decide (b = 0) := by
  induction n with
  | zero => rfl
  | succ n ih => rw [List.replicate_succ, List.cons_append, List.dropWhile_cons_of_pos rfl, ih]

/-- Padding is stripped from what does not end in a zero. -/
theorem stripZeroPadding_append {data : Bytes} (hne : data ≠ []) (hlast : data.getLast? ≠ some 0)
    (n : Nat) : stripZeroPadding (data ++ List.replicate n 0) = .ok data := by
  obtain ⟨front, last, rfl⟩ : ∃ front last, data = front ++ [last] :=
    ⟨_, _, (List.dropLast_append_getLast hne).symm⟩
  rw [List.getLast?_concat] at hlast
  have hzero : last ≠ 0 := fun h => hlast (congrArg some h)
  have hstripped : ((front ++ [last] ++ List.replicate n 0).reverse.dropWhile
      fun b => decide (b = 0)).reverse = front ++ [last] := by
    rw [List.reverse_append, List.reverse_replicate, dropWhile_replicate_append,
      List.reverse_append, List.reverse_singleton, List.singleton_append,
      List.dropWhile_cons_of_neg (by simpa using hzero), List.reverse_cons, List.reverse_reverse]
  unfold stripZeroPadding
  rw [hstripped]
  cases front <;> rfl

theorem zeroPadTo64_strip {data : Bytes} (hpos : 1 ≤ data.length) (hlen : data.length ≤ 64)
    (hlast : data.getLast? ≠ some 0) :
    ∃ padded, zeroPadTo64 data = .ok padded ∧ stripZeroPadding padded = .ok data := by
  refine ⟨_, if_neg (Nat.not_lt.mpr hlen), stripZeroPadding_append ?_ hlast _⟩
  rintro rfl
  cases hpos

/-! ## Blocks -/

/-- A block of AES. -/
def IsBlock (bs : Bytes) : Prop := bs.length = aesBlockLen

theorem aesBlocks_flatten {blocks : List Bytes} (h : ∀ block ∈ blocks, IsBlock block) {fuel : Nat}
    (hfuel : blocks.length ≤ fuel) : aesBlocks fuel blocks.flatten = blocks := by
  induction blocks generalizing fuel with
  | nil => cases fuel <;> rfl
  | cons block blocks ih =>
      have hblock : block.length = aesBlockLen := h block List.mem_cons_self
      cases fuel with
      | zero => cases hfuel
      | succ fuel =>
          have hne : (block :: blocks).flatten ≠ [] := by
            intro hnil
            rw [List.flatten_cons] at hnil
            rw [(List.append_eq_nil_iff.mp hnil).1] at hblock
            cases hblock
          rw [aesBlocks, if_neg hne, List.flatten_cons, List.take_left' hblock,
            List.drop_left' hblock, ih (fun b hb => h b (List.mem_cons_of_mem _ hb))
              (Nat.le_of_succ_le_succ hfuel)]

theorem aesBlocks_spec {fuel : Nat} {data : Bytes} (hdata : data.length % aesBlockLen = 0)
    (hfuel : data.length ≤ fuel) :
    (∀ block ∈ aesBlocks fuel data, IsBlock block) ∧ (aesBlocks fuel data).flatten = data := by
  induction fuel generalizing data with
  | zero =>
      rw [List.eq_nil_of_length_eq_zero (Nat.le_zero.mp hfuel), aesBlocks]
      exact ⟨fun _ h => absurd h List.not_mem_nil, rfl⟩
  | succ fuel ih =>
      rw [aesBlocks]
      by_cases hnil : data = []
      · rw [if_pos hnil, hnil]
        exact ⟨fun _ h => absurd h List.not_mem_nil, rfl⟩
      · rw [if_neg hnil]
        have hpos : 0 < data.length := List.length_pos_iff.mpr hnil
        have hsixteen : aesBlockLen = 16 := rfl
        rw [hsixteen] at hdata
        have hlong : aesBlockLen ≤ data.length := by
          rw [hsixteen]
          omega
        have hrest : (data.drop aesBlockLen).length % aesBlockLen = 0 := by
          rw [List.length_drop, hsixteen]
          omega
        have hshort : (data.drop aesBlockLen).length ≤ fuel := by
          rw [List.length_drop, hsixteen]
          omega
        obtain ⟨hblocks, hflat⟩ := ih hrest hshort
        refine ⟨?_, ?_⟩
        · intro block hmem
          rcases List.mem_cons.mp hmem with rfl | hmem
          · exact List.length_take_of_le hlong
          · exact hblocks block hmem
        · rw [List.flatten_cons, hflat, List.take_append_drop]

theorem length_flatten_blocks {blocks : List Bytes} (h : ∀ block ∈ blocks, IsBlock block) :
    blocks.flatten.length = aesBlockLen * blocks.length := by
  induction blocks with
  | nil => rfl
  | cons block blocks ih =>
      have hblock : block.length = aesBlockLen := h block List.mem_cons_self
      rw [List.flatten_cons, List.length_append, hblock,
        ih fun b hb => h b (List.mem_cons_of_mem _ hb), List.length_cons, Nat.mul_succ,
        Nat.add_comm]

theorem xorBytes_self_cancel {as bs : Bytes} (h : as.length = bs.length) :
    xorBytes (xorBytes as bs) bs = as := by
  induction as generalizing bs with
  | nil => rfl
  | cons a as ih =>
      cases bs with
      | nil => cases h
      | cons b bs =>
          show ((a ^^^ b) ^^^ b) :: xorBytes (xorBytes as bs) bs = a :: as
          rw [ih (Nat.succ.inj h), UInt8.xor_assoc, UInt8.xor_self, UInt8.xor_zero]

theorem isBlock_xorBytes {as bs : Bytes} (ha : IsBlock as) (hb : IsBlock bs) :
    IsBlock (xorBytes as bs) := by
  unfold IsBlock xorBytes
  rw [List.length_zipWith, ha, hb, Nat.min_self]

/-! ## AES -/

/-- AES-256 maps blocks to blocks, and its decryption inverts its encryption. -/
structure AesSound (prims : Primitives) : Prop where
  block : ∀ {key block}, key.length = 32 → IsBlock block → IsBlock (prims.aesEncrypt key block)
  inverse : ∀ {key block}, key.length = 32 → IsBlock block →
    prims.aesDecrypt key (prims.aesEncrypt key block) = block

variable {prims : Primitives}

theorem AesSound.cipher (h : AesSound prims) {key : Bytes} (hkey : key.length = 32) :
    Cbc.Cipher xorBytes (prims.aesEncrypt key) (prims.aesDecrypt key) IsBlock where
  combined := isBlock_xorBytes
  cancel ha hb := xorBytes_self_cancel (ha.trans hb.symm)
  encrypted := h.block hkey
  inverse := h.inverse hkey

theorem cbcEncryptBlocks_eq (key prev : Bytes) (blocks : List Bytes) :
    cbcEncryptBlocks prims key prev blocks =
      (Cbc.encrypt xorBytes (prims.aesEncrypt key) prev blocks).flatten := by
  induction blocks generalizing prev with
  | nil => rfl
  | cons block blocks ih => rw [cbcEncryptBlocks, ih, Cbc.encrypt, List.flatten_cons]

theorem cbcDecryptBlocks_eq (key prev : Bytes) (blocks : List Bytes) :
    cbcDecryptBlocks prims key prev blocks =
      (Cbc.decrypt xorBytes (prims.aesDecrypt key) prev blocks).flatten := by
  induction blocks generalizing prev with
  | nil => rfl
  | cons block blocks ih => rw [cbcDecryptBlocks, ih, Cbc.decrypt, List.flatten_cons]

theorem aes256CbcCheck_ok {key iv data : Bytes} : aes256CbcCheck key iv data = .ok () ↔
    key.length = 32 ∧ IsBlock iv ∧ data.length % aesBlockLen = 0 := by
  unfold aes256CbcCheck IsBlock
  by_cases hkey : key.length = 32
  · by_cases hiv : iv.length = aesBlockLen
    · by_cases hdata : data.length % aesBlockLen = 0
      · simp [hkey, hiv, hdata]
      · simp [hkey, hiv, hdata]
    · simp [hkey, hiv]
  · simp [hkey]

/-- AES-256-CBC round trips, whatever the initialisation vector. -/
theorem AesSound.cbc (h : AesSound prims) {key iv plaintext ciphertext : Bytes}
    (hencrypt : aes256CbcEncrypt prims key iv plaintext = .ok ciphertext) :
    aes256CbcDecrypt prims key iv ciphertext = .ok plaintext := by
  unfold aes256CbcEncrypt at hencrypt
  cases hcheck : aes256CbcCheck key iv plaintext with
  | error error =>
      rw [hcheck] at hencrypt
      cases hencrypt
  | ok _ =>
      rw [hcheck] at hencrypt
      cases hencrypt
      obtain ⟨hkey, hiv, hdata⟩ := aes256CbcCheck_ok.mp hcheck
      obtain ⟨hblocks, hflat⟩ := aesBlocks_spec hdata (Nat.le_refl _)
      have hcipher := h.cipher hkey
      have hout := hcipher.ok_encrypt hblocks hiv
      rw [cbcEncryptBlocks_eq]
      generalize hchain : Cbc.encrypt xorBytes (prims.aesEncrypt key) iv
        (aesBlocks plaintext.length plaintext) = chained at hout
      have hmod : chained.flatten.length % aesBlockLen = 0 := by
        rw [length_flatten_blocks hout, Nat.mul_mod_right]
      have hfuel : chained.length ≤ chained.flatten.length := by
        rw [length_flatten_blocks hout]
        exact Nat.le_mul_of_pos_left _ (by decide)
      have hagain : aes256CbcCheck key iv chained.flatten = .ok () :=
        aes256CbcCheck_ok.mpr ⟨hkey, hiv, hmod⟩
      unfold aes256CbcDecrypt
      rw [hagain, aesBlocks_flatten hout hfuel, cbcDecryptBlocks_eq, ← hchain,
        hcipher.decrypt_encrypt hblocks hiv, hflat]
      rfl

namespace PinUvProtocol

/-- `decrypt` undoes `encrypt`. -/
theorem decrypt_encrypt (h : AesSound prims) {protocol : PinUvProtocol} {entropy : Entropy}
    {secret plaintext ciphertext : Bytes}
    (hencrypt : protocol.encrypt prims entropy secret plaintext = .ok ciphertext) :
    protocol.decrypt prims secret ciphertext = .ok plaintext := by
  unfold encrypt at hencrypt
  split at hencrypt
  · cases hencrypt
  · cases protocol with
    | one =>
        dsimp only at hencrypt
        split at hencrypt
        · cases hencrypt
        · next hsecret =>
            unfold decrypt
            rw [if_neg hsecret]
            exact h.cbc hencrypt
    | two =>
        dsimp only at hencrypt
        split at hencrypt
        · cases hencrypt
        · next hsecret =>
            cases hcbc : aes256CbcEncrypt prims (secret.drop 32) (entropy.bytes aesBlockLen)
                plaintext with
            | error error =>
                rw [hcbc] at hencrypt
                cases hencrypt
            | ok encrypted =>
                rw [hcbc] at hencrypt
                cases hencrypt
                have hiv : (entropy.bytes aesBlockLen).length = aesBlockLen :=
                  entropy.length_bytes aesBlockLen
                have hlong : ¬(entropy.bytes aesBlockLen ++ encrypted).length < aesBlockLen := by
                  rw [List.length_append, hiv]
                  omega
                unfold decrypt
                dsimp only
                rw [if_neg hsecret, if_neg hlong, List.take_left' hiv, List.drop_left' hiv]
                exact h.cbc hcbc

end PinUvProtocol

/-! ## Panics -/

/-- `Array::try_from(..).unwrap()`, for an array of a block. -/
def toBlock (chunk : Bytes) : Except Panic Bytes :=
  if chunk.length = aesBlockLen then .ok chunk else .error .outOfRange

section

variable (prims : Primitives)

/-- The loop of `aes256_cbc_decrypt` over the chunks. -/
def cbcDecryptLoop (key : Bytes) : Bytes → List Bytes → Except Panic Bytes
  | _, [] => .ok []
  | prev, chunk :: chunks => do
      let block ← toBlock chunk
      let rest ← cbcDecryptLoop key block chunks
      pure (xorBytes (prims.aesDecrypt key block) prev ++ rest)

/-- `aes256_cbc_decrypt`, with its panics. -/
def aes256CbcDecryptChecked (key iv data : Bytes) : Except Panic (Except String Bytes) :=
  match aes256CbcCheck key iv data with
  | .error error => pure (.error error)
  | .ok () => do
      let prev ← toBlock iv
      let out ← cbcDecryptLoop prims key prev (aesBlocks data.length data)
      pure (.ok out)

/-- `PinUvProtocol::decrypt`, with its panics. -/
def PinUvProtocol.decryptChecked (protocol : PinUvProtocol) (sharedSecret ciphertext : Bytes) :
    Except Panic (Except String Bytes) :=
  match protocol with
  | .one =>
      if sharedSecret.length ≠ 32 then
        pure (.error "Protocol 1 shared secret must be 32 bytes")
      else aes256CbcDecryptChecked prims sharedSecret (List.replicate aesBlockLen 0) ciphertext
  | .two =>
      if sharedSecret.length ≠ 64 then
        pure (.error "Protocol 2 shared secret must be 64 bytes")
      else if ciphertext.length < aesBlockLen then
        pure (.error "Protocol 2 ciphertext too short to contain an IV")
      else do
        let key ← Checked.slice sharedSecret 32 sharedSecret.length
        let iv ← Checked.slice ciphertext 0 aesBlockLen
        let ct ← Checked.slice ciphertext aesBlockLen ciphertext.length
        aes256CbcDecryptChecked prims key iv ct

variable {prims}

theorem cbcDecryptLoop_ok (key prev : Bytes) {blocks : List Bytes}
    (h : ∀ block ∈ blocks, IsBlock block) :
    cbcDecryptLoop prims key prev blocks = .ok (cbcDecryptBlocks prims key prev blocks) := by
  induction blocks generalizing prev with
  | nil => rfl
  | cons block blocks ih =>
      have hblock : toBlock block = .ok block := if_pos (h block List.mem_cons_self)
      rw [cbcDecryptLoop, hblock]
      show (cbcDecryptLoop prims key block blocks >>= _) = _
      rw [ih block fun b hb => h b (List.mem_cons_of_mem _ hb)]
      rfl

theorem aes256CbcDecryptChecked_ok (key iv data : Bytes) :
    aes256CbcDecryptChecked prims key iv data = .ok (aes256CbcDecrypt prims key iv data) := by
  unfold aes256CbcDecryptChecked aes256CbcDecrypt
  cases hcheck : aes256CbcCheck key iv data with
  | error error => rfl
  | ok _ =>
      obtain ⟨-, hiv, hdata⟩ := aes256CbcCheck_ok.mp hcheck
      have hblock : toBlock iv = .ok iv := if_pos hiv
      dsimp only
      rw [hblock]
      show (cbcDecryptLoop prims key iv (aesBlocks data.length data) >>= _) = _
      rw [cbcDecryptLoop_ok key iv (aesBlocks_spec hdata (Nat.le_refl _)).1]
      rfl

/-- `decrypt` does not panic. -/
theorem PinUvProtocol.decryptChecked_ok (protocol : PinUvProtocol) (secret ciphertext : Bytes) :
    protocol.decryptChecked prims secret ciphertext =
      .ok (protocol.decrypt prims secret ciphertext) := by
  unfold decryptChecked decrypt
  cases protocol with
  | one =>
      dsimp only
      split
      · rfl
      · exact aes256CbcDecryptChecked_ok _ _ _
  | two =>
      dsimp only
      by_cases hsecret : secret.length ≠ 64
      · rw [if_pos hsecret, if_pos hsecret]
        rfl
      · rw [if_neg hsecret, if_neg hsecret]
        by_cases hshort : ciphertext.length < aesBlockLen
        · rw [if_pos hshort, if_pos hshort]
          rfl
        · rw [if_neg hshort, if_neg hshort]
          have hkey : 32 ≤ secret.length := by omega
          have hlong : aesBlockLen ≤ ciphertext.length := Nat.le_of_not_lt hshort
          have htail : ∀ (bs : Bytes) (n : Nat), n ≤ bs.length →
              Checked.slice bs n bs.length = .ok (bs.drop n) := by
            intro bs n hn
            rw [Checked.slice_ok hn (Nat.le_refl _), List.take_of_length_le]
            rw [List.length_drop]
          rw [htail secret 32 hkey, Checked.slice_zero hlong, htail ciphertext aesBlockLen hlong]
          exact aes256CbcDecryptChecked_ok _ _ _

end

/-! ## The round trip -/

namespace PinUvProtocol

/-- What is decrypted of a ciphertext: protocol two takes its initialisation vector off. -/
def body (protocol : PinUvProtocol) (ciphertext : Bytes) : Bytes :=
  match protocol with
  | .one => ciphertext
  | .two => ciphertext.drop aesBlockLen

/-- What is not made of whole blocks is rejected. -/
theorem decrypt_incomplete {protocol : PinUvProtocol} (secret : Bytes) {ciphertext : Bytes}
    (h : (protocol.body ciphertext).length % aesBlockLen ≠ 0 ∨
      protocol = .two ∧ ciphertext.length < aesBlockLen) :
    ∃ error, protocol.decrypt prims secret ciphertext = .error error := by
  have hcbc : ∀ key iv data, data.length % aesBlockLen ≠ 0 →
      ∃ error, aes256CbcDecrypt prims key iv data = .error error := by
    intro key iv data hdata
    unfold aes256CbcDecrypt
    cases hcheck : aes256CbcCheck key iv data with
    | error error => exact ⟨error, rfl⟩
    | ok _ => exact absurd (aes256CbcCheck_ok.mp hcheck).2.2 hdata
  unfold decrypt
  cases protocol with
  | one =>
      dsimp only
      split
      · exact ⟨_, rfl⟩
      · exact hcbc _ _ _ (h.resolve_right nofun)
  | two =>
      dsimp only
      split
      · exact ⟨_, rfl⟩
      · split
        · exact ⟨_, rfl⟩
        · next hlong => exact hcbc _ _ _ (h.resolve_right fun hshort => hlong hshort.2)

/-- Only whole blocks are encrypted. -/
theorem blocks_of_encrypt {protocol : PinUvProtocol} {entropy : Entropy}
    {secret plaintext ciphertext : Bytes}
    (h : protocol.encrypt prims entropy secret plaintext = .ok ciphertext) :
    plaintext.length % aesBlockLen = 0 := by
  unfold encrypt at h
  split at h
  · cases h
  · next hblocks => exact not_not.mp hblocks

/-- Whole blocks can be encrypted under exactly the secrets of the protocol's length, and decrypt
to what they were; padding is undone; partial blocks are rejected; and nothing panics. -/
theorem pin_protocol_round_trip (haes : AesSound prims) :
    (∀ (protocol : PinUvProtocol) entropy secret plaintext,
        secret.length = protocol.secretLen → plaintext.length % aesBlockLen = 0 →
        ∃ ciphertext, protocol.encrypt prims entropy secret plaintext = .ok ciphertext ∧
          protocol.decrypt prims secret ciphertext = .ok plaintext) ∧
      (∀ (protocol : PinUvProtocol) entropy secret plaintext ciphertext,
        protocol.encrypt prims entropy secret plaintext = .ok ciphertext →
        secret.length = protocol.secretLen ∧ plaintext.length % aesBlockLen = 0 ∧
          protocol.decrypt prims secret ciphertext = .ok plaintext) ∧
      (∀ (protocol : PinUvProtocol) secret ciphertext,
        ((protocol.body ciphertext).length % aesBlockLen ≠ 0 ∨
            protocol = .two ∧ ciphertext.length < aesBlockLen) →
        ∃ error, protocol.decryptChecked prims secret ciphertext = .ok (.error error)) ∧
      (∀ (protocol : PinUvProtocol) secret ciphertext,
        protocol.decryptChecked prims secret ciphertext =
          .ok (protocol.decrypt prims secret ciphertext)) ∧
      ∀ data : Bytes, 1 ≤ data.length → data.length ≤ 64 → data.getLast? ≠ some 0 →
        ∃ padded, zeroPadTo64 data = .ok padded ∧ stripZeroPadding padded = .ok data := by
  refine ⟨fun protocol entropy secret plaintext hsecret hblocks => ?_,
    fun protocol entropy secret plaintext ciphertext hencrypt => ?_, ?_, decryptChecked_ok,
    fun data hpos hlen hlast => zeroPadTo64_strip hpos hlen hlast⟩
  · have htotal : ∃ encrypted, protocol.encrypt prims entropy secret plaintext = .ok encrypted :=
      encrypt_total entropy hsecret hblocks
    obtain ⟨ciphertext, hencrypt⟩ := htotal
    exact ⟨ciphertext, hencrypt, decrypt_encrypt haes hencrypt⟩
  · have hdecrypt := decrypt_encrypt haes hencrypt
    exact ⟨length_of_decrypt hdecrypt, blocks_of_encrypt hencrypt, hdecrypt⟩
  · intro protocol secret ciphertext hpartial
    obtain ⟨error, herror⟩ := @decrypt_incomplete prims protocol secret ciphertext hpartial
    exact ⟨error, by rw [decryptChecked_ok, herror]⟩

/-- AES with the values it has on one block: the key, the block and its encryption. -/
def oneBlockPrims (block encrypted : Bytes) : Primitives :=
  { unusedCrypto.prims with
    aesEncrypt := fun _ b => if b = block then encrypted else if b = encrypted then block else b
    aesDecrypt := fun _ b => if b = block then encrypted else if b = encrypted then block else b }

theorem aesSound_oneBlock {block encrypted : Bytes} (hblock : IsBlock block)
    (hencrypted : IsBlock encrypted) : AesSound (oneBlockPrims block encrypted) where
  block {key b} _ hb := by
    show IsBlock (if b = block then encrypted else if b = encrypted then block else b)
    split
    · exact hencrypted
    · split
      · exact hblock
      · exact hb
  inverse {key b} _ _ := by
    simp only [oneBlockPrims]
    grind

/-- The PIN 1234, padded to a block. -/
def samplePinBlock : Bytes := Bytes.beBytes 16 0x31323334000000000000000000000000

/-- What AES makes of it, under the key of a run. -/
def samplePinEnc : Bytes := Bytes.beBytes 16 0x45b5cc1ae24f0a0ddb912c2a52cd3488

/-- The block of the PIN can be encrypted and comes back. -/
theorem pin_protocol_round_trip_one :
    ∃ ciphertext, PinUvProtocol.one.encrypt (oneBlockPrims samplePinBlock samplePinEnc)
        (fun _ => 0) (Bytes.beBytes 32
          0x5f9441b96bbf196e9c2e44656c62cc7f87f255be3d7df2cde304675d8c8012e1) samplePinBlock =
        .ok ciphertext ∧
      PinUvProtocol.one.decrypt (oneBlockPrims samplePinBlock samplePinEnc) (Bytes.beBytes 32
        0x5f9441b96bbf196e9c2e44656c62cc7f87f255be3d7df2cde304675d8c8012e1) ciphertext =
        .ok samplePinBlock :=
  (pin_protocol_round_trip (aesSound_oneBlock (Bytes.length_beBytes 16 _)
    (Bytes.length_beBytes 16 _))).1 .one (fun _ => 0) _ samplePinBlock (Bytes.length_beBytes 32 _)
    (by decide +kernel)

end PinUvProtocol

end OpenKey
