import Mathlib.Data.Nat.Basic
import Mathlib.Tactic.Ring
import Mathlib.Tactic.NormNum

/-!
# Byte strings

Fixed-width integers on the wire, in both byte orders, and codecs that decode what they
encode.
-/

/-- A byte string. -/
abbrev Bytes := List UInt8

instance : LawfulBEq Bytes := inferInstance

/-- The UTF-8 form of a text. -/
def utf8 (text : String) : Bytes := text.toByteArray.data.toList

/-- The text a byte string is the UTF-8 form of, if any. -/
def ofUtf8 (bytes : Bytes) : Option String := String.fromUTF8? ⟨bytes.toArray⟩

theorem ofUtf8_utf8 (text : String) : ofUtf8 (utf8 text) = some text := by
  rw [ofUtf8, utf8, Array.toArray_toList, String.fromUTF8?, dif_pos text.isValidUTF8]
  rfl

namespace Bytes

/-! ## Fixed-width integers -/

/-- The low `w` bytes of `n`, least significant first. -/
def leBytes : Nat → Nat → Bytes
  | 0, _ => []
  | w + 1, n => UInt8.ofNat n :: leBytes w (n / 256)

/-- The number a little-endian byte string stands for. -/
def leNat : Bytes → Nat
  | [] => 0
  | b :: bs => b.toNat + 256 * leNat bs

@[simp] theorem length_leBytes (w n : Nat) : (leBytes w n).length = w := by
  induction w generalizing n with
  | zero => rfl
  | succ w ih => simp [leBytes, ih]

theorem leNat_leBytes (w n : Nat) : leNat (leBytes w n) = n % 256 ^ w := by
  induction w generalizing n with
  | zero => simp [leBytes, leNat, Nat.mod_one]
  | succ w ih =>
      rw [leBytes, leNat, ih, pow_succ, Nat.mul_comm (256 ^ w) 256, Nat.mod_mul]
      simp

theorem leNat_leBytes_of_lt {w n : Nat} (h : n < 256 ^ w) : leNat (leBytes w n) = n := by
  rw [leNat_leBytes, Nat.mod_eq_of_lt h]

theorem leNat_lt (bs : Bytes) : leNat bs < 256 ^ bs.length := by
  induction bs with
  | nil => exact Nat.one_pos
  | cons b bs ih =>
      have hb := b.toNat_lt
      rw [leNat, List.length_cons, pow_succ]
      omega

theorem leBytes_leNat (bs : Bytes) : leBytes bs.length (leNat bs) = bs := by
  induction bs with
  | nil => rfl
  | cons b bs ih =>
      have hb := b.toNat_lt
      rw [List.length_cons, leBytes, leNat]
      congr 1
      · rw [UInt8.ofNat_add, UInt8.ofNat_toNat, UInt8.ofNat_mul]
        simp
      · rw [show (b.toNat + 256 * leNat bs) / 256 = leNat bs by omega, ih]

/-- The low `w` bytes of `n`, most significant first. -/
def beBytes (w n : Nat) : Bytes := (leBytes w n).reverse

/-- The number a big-endian byte string stands for. -/
def beNat (bs : Bytes) : Nat := leNat bs.reverse

theorem beNat_lt (bs : Bytes) : beNat bs < 256 ^ bs.length := by
  have h := leNat_lt bs.reverse
  rwa [List.length_reverse] at h

theorem length_flatMap_le {α : Type} {f : α → Bytes} {k : Nat} {l : List α}
    (h : ∀ a ∈ l, (f a).length ≤ k) : (l.flatMap f).length ≤ k * l.length := by
  induction l with
  | nil => exact Nat.zero_le _
  | cons a l ih =>
      have hhead := h a List.mem_cons_self
      have htail := ih fun b hb => h b (List.mem_cons_of_mem a hb)
      rw [List.flatMap_cons, List.length_append, List.length_cons, Nat.mul_succ]
      omega

@[simp] theorem length_beBytes (w n : Nat) : (beBytes w n).length = w := by
  simp [beBytes]

theorem beNat_beBytes_of_lt {w n : Nat} (h : n < 256 ^ w) : beNat (beBytes w n) = n := by
  rw [beNat, beBytes, List.reverse_reverse, leNat_leBytes_of_lt h]

theorem beBytes_beNat (bs : Bytes) : beBytes bs.length (beNat bs) = bs := by
  have h := leBytes_leNat bs.reverse
  rw [List.length_reverse] at h
  rw [beBytes, beNat, h, List.reverse_reverse]

end Bytes

/-! ## Overwriting a range -/

/-- `old` with the range from `start` on overwritten by `mid`. -/
def Bytes.splice (old : Bytes) (start : Nat) (mid : Bytes) : Bytes :=
  old.take start ++ mid ++ old.drop (start + mid.length)

namespace Bytes

theorem getElem?_splice {old mid : Bytes} {start : Nat} (h : start + mid.length ≤ old.length)
    (i : Nat) :
    (old.splice start mid)[i]? =
      if i < start then old[i]? else if i < start + mid.length then mid[i - start]?
      else old[i]? := by
  have htake : (old.take start).length = start := by
    rw [List.length_take]
    omega
  rw [splice, List.append_assoc]
  by_cases h₁ : i < start
  · rw [if_pos h₁, List.getElem?_append_left (by omega), List.getElem?_take_of_lt h₁]
  · rw [if_neg h₁, List.getElem?_append_right (by omega), htake]
    by_cases h₂ : i < start + mid.length
    · rw [if_pos h₂, List.getElem?_append_left (by omega)]
    · rw [if_neg h₂, List.getElem?_append_right (by omega), List.getElem?_drop]
      congr 1
      omega

theorem length_splice {old mid : Bytes} {start : Nat} (h : start + mid.length ≤ old.length) :
    (old.splice start mid).length = old.length := by
  simp only [splice, List.length_append, List.length_take, List.length_drop]
  omega

/-- A window that contains the overwritten range sees the range overwritten. -/
theorem window_splice {old mid : Bytes} {start len offset : Nat}
    (hin : offset + mid.length ≤ len) (hlen : start + len ≤ old.length) :
    ((old.splice (start + offset) mid).drop start).take len =
      splice ((old.drop start).take len) offset mid := by
  have hwin : ((old.drop start).take len).length = len := by
    rw [List.length_take, List.length_drop]
    omega
  apply List.ext_getElem?
  intro i
  rw [List.getElem?_take, List.getElem?_drop, getElem?_splice (by omega),
    getElem?_splice (by omega)]
  by_cases hi : i < len
  · rw [if_pos hi, List.getElem?_take_of_lt hi, List.getElem?_drop]
    have hsub : start + i - (start + offset) = i - offset := by omega
    rw [hsub]
    by_cases h₁ : i < offset
    · rw [if_pos h₁, if_pos (by omega)]
    · rw [if_neg h₁, if_neg (by omega)]
      by_cases h₂ : i < offset + mid.length
      · rw [if_pos h₂, if_pos (by omega)]
      · rw [if_neg h₂, if_neg (by omega)]
  · rw [if_neg hi, if_neg (by omega), if_neg (by omega), List.getElem?_take, if_neg hi]

/-- A window disjoint from the overwritten range does not see it. -/
theorem window_splice_disjoint {old mid : Bytes} {start len offset : Nat}
    (hdis : start + len ≤ offset ∨ offset + mid.length ≤ start)
    (hlen : offset + mid.length ≤ old.length) :
    ((old.splice offset mid).drop start).take len = (old.drop start).take len := by
  apply List.ext_getElem?
  intro i
  rw [List.getElem?_take, List.getElem?_take, List.getElem?_drop, List.getElem?_drop,
    getElem?_splice hlen]
  by_cases hi : i < len
  · rw [if_pos hi, if_pos hi]
    by_cases h₁ : start + i < offset
    · rw [if_pos h₁]
    · rw [if_neg h₁, if_neg (by omega)]
  · rw [if_neg hi, if_neg hi]

end Bytes

/-! ## Decimal text -/

/-- The digits of an unsigned number, behind an optional plus sign. -/
def unsignedDigits (text : String) : List Char :=
  match text.toList with
  | '+' :: rest => rest
  | chars => chars

/-- `str::parse` at an unsigned type whose values are below `bound`. -/
def parseUnsigned (bound : Nat) (text : String) : Option Nat :=
  let digits := unsignedDigits text
  let value := Nat.ofDigitChars 10 digits 0
  if digits ≠ [] ∧ digits.all Char.isDigit = true ∧ value < bound then some value else none

theorem unsignedDigits_toString (n : Nat) : unsignedDigits (toString n) = Nat.toDigits 10 n := by
  have hlist : (toString n).toList = Nat.toDigits 10 n := by
    rw [Nat.toString_eq_ofList_toDigits, String.toList_ofList]
  rw [unsignedDigits, hlist]
  split
  · next rest heq =>
      have hplus : ('+').isDigit = true :=
        Nat.isDigit_of_mem_toDigits (b := 10) (n := n) (by decide) (by decide)
          (by rw [heq]; exact List.mem_cons_self)
      exact absurd hplus (by decide)
  · rfl

/-- Parsing inverts printing, for numbers of the type. -/
theorem parseUnsigned_toString {bound n : Nat} (h : n < bound) :
    parseUnsigned bound (toString n) = some n := by
  have hdigits : ∀ c ∈ Nat.toDigits 10 n, c.isDigit = true := fun _ hc =>
    Nat.isDigit_of_mem_toDigits (by decide) (by decide) hc
  simp only [parseUnsigned, unsignedDigits_toString, Nat.ofDigitChars_ten_toDigits]
  exact if_pos ⟨Nat.toDigits_ne_nil, List.all_eq_true.mpr hdigits, h⟩

theorem parseUnsigned_lt {bound n : Nat} {text : String}
    (h : parseUnsigned bound text = some n) : n < bound := by
  simp only [parseUnsigned] at h
  split at h
  · next hc =>
      obtain rfl := Option.some.inj h
      exact hc.2.2
  · exact absurd h (by simp)

/-! ## Codecs -/

/-- A serialisation format: decoding inverts encoding, for every value whose encoding has a
length that a machine can address. -/
structure Codec (α : Type) where
  /-- The serialised form. -/
  encode : α → Bytes
  /-- The value a byte string stands for, if any. -/
  decode : Bytes → Option α
  /-- Decoding inverts encoding. -/
  decode_encode : ∀ a, (encode a).length < 2 ^ 64 → decode (encode a) = some a
