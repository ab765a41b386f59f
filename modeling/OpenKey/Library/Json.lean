import OpenKey.Library.Bytes

/-!
# Pretty-printed JSON

Objects whose members are arrays of bytes, printed over several lines with an indentation of two
blanks, and a reader for that form. A reader takes an item off the front of a text and returns
the rest; `Reads` says so for every rest of a kind.
-/

namespace Json

set_option autoImplicit false

variable {α : Type}

/-- A reader: the item at the front, and the characters after it. -/
abbrev Reader (α : Type) := List Char → Option (α × List Char)

/-- `read` takes off what `written` put in front of a rest of this kind, and stops there. -/
def Reads (kind : List Char → Prop) (read : Reader α) (a : α) (written : List Char) : Prop :=
  ∀ rest, kind rest → read (written ++ rest) = some (a, rest)

/-- Any rest. -/
def anyRest (_ : List Char) : Prop := True

/-- Take off a fixed text. -/
def expect : List Char → List Char → Option (List Char)
  | [], text => some text
  | _ :: _, [] => none
  | c :: cs, d :: ds => if c = d then expect cs ds else none

theorem expect_append (expected rest : List Char) :
    expect expected (expected ++ rest) = some rest := by
  induction expected with
  | nil => rfl
  | cons c cs ih => rw [List.cons_append, expect, if_pos rfl, ih]

/-! ## Numbers -/

/-- A rest that does not start with a digit. -/
def NoDigit (rest : List Char) : Prop := ∀ c, rest.head? = some c → c.isDigit = false

/-- Print a byte. -/
def printByte (b : UInt8) : List Char := Nat.toDigits 10 b.toNat

/-- Read a byte. -/
def readByte : Reader UInt8 := fun text =>
  let digits := text.takeWhile Char.isDigit
  let n := Nat.ofDigitChars 10 digits 0
  if digits ≠ [] ∧ n < 256 then some (UInt8.ofNat n, text.dropWhile Char.isDigit) else none

theorem reads_byte (b : UInt8) : Reads NoDigit readByte b (printByte b) := by
  intro rest hrest
  have hdigits : ∀ c ∈ printByte b, c.isDigit = true := fun _ hc =>
    Nat.isDigit_of_mem_toDigits (by decide) (by decide) hc
  have hnone : rest.takeWhile Char.isDigit = [] ∧ rest.dropWhile Char.isDigit = rest := by
    cases rest with
    | nil => exact ⟨rfl, rfl⟩
    | cons c cs => simp [hrest c rfl]
  have htake : (printByte b ++ rest).takeWhile Char.isDigit = printByte b := by
    rw [List.takeWhile_append_of_pos hdigits, hnone.1, List.append_nil]
  have hdrop : (printByte b ++ rest).dropWhile Char.isDigit = rest := by
    rw [List.dropWhile_append_of_pos hdigits, hnone.2]
  have hvalue : Nat.ofDigitChars 10 (printByte b) 0 = b.toNat := Nat.ofDigitChars_ten_toDigits
  simp only [readByte, htake, hdrop, hvalue]
  rw [if_pos ⟨Nat.toDigits_ne_nil, b.toNat_lt⟩, UInt8.ofNat_toNat]

/-! ## Strings -/

/-- A hexadecimal digit. -/
def hexDigit (n : Nat) : Char := "0123456789abcdef".toList.getD n '0'

/-- The value of a hexadecimal digit. -/
def hexValue (c : Char) : Nat := "0123456789abcdef".toList.idxOf c

/-- A character inside a string. -/
def escape (c : Char) : List Char :=
  if c = '"' then ['\\', '"']
  else if c = '\\' then ['\\', '\\']
  else if c = Char.ofNat 8 then ['\\', 'b']
  else if c = Char.ofNat 9 then ['\\', 't']
  else if c = Char.ofNat 10 then ['\\', 'n']
  else if c = Char.ofNat 12 then ['\\', 'f']
  else if c = Char.ofNat 13 then ['\\', 'r']
  else if c.toNat < 32 then
    ['\\', 'u', '0', '0', hexDigit (c.toNat / 16), hexDigit (c.toNat % 16)]
  else [c]

/-- Print a string. -/
def printString (text : List Char) : List Char := '"' :: (text.flatMap escape ++ ['"'])

/-- Read a string, after the quote that opens it. -/
def readBody : Reader (List Char)
  | [] => none
  | '"' :: rest => some ([], rest)
  | '\\' :: 'u' :: '0' :: '0' :: a :: b :: rest =>
      (readBody rest).map fun p => (Char.ofNat (16 * hexValue a + hexValue b) :: p.1, p.2)
  | '\\' :: c :: rest =>
      let plain := match c with
        | 'b' => Char.ofNat 8
        | 't' => Char.ofNat 9
        | 'n' => Char.ofNat 10
        | 'f' => Char.ofNat 12
        | 'r' => Char.ofNat 13
        | c => c
      (readBody rest).map fun p => (plain :: p.1, p.2)
  | c :: rest => (readBody rest).map fun p => (c :: p.1, p.2)

/-- Read a string. -/
def readString : Reader (List Char) := fun text => (expect ['"'] text).bind readBody

theorem hexValue_hexDigit : ∀ n < 16, hexValue (hexDigit n) = n := by decide

theorem readBody_escape (c : Char) (text : List Char) :
    readBody (escape c ++ text) = (readBody text).map fun p => (c :: p.1, p.2) := by
  unfold escape
  split_ifs with h₁ h₂ h₃ h₄ h₅ h₆ h₇ h₈
  · subst h₁
    simp [readBody]
  · subst h₂
    simp [readBody]
  · subst h₃
    simp [readBody]
  · subst h₄
    simp [readBody]
  · subst h₅
    simp [readBody]
  · subst h₆
    simp [readBody]
  · subst h₇
    simp [readBody]
  · have hhi := hexValue_hexDigit (c.toNat / 16) (by omega)
    have hlo := hexValue_hexDigit (c.toNat % 16) (by omega)
    have hsum : 16 * (c.toNat / 16) + c.toNat % 16 = c.toNat := by omega
    simp [readBody, hhi, hlo, hsum, Char.ofNat_toNat]
  · rw [List.cons_append, List.nil_append, readBody]
    · exact h₁
    · exact fun _ _ _ h => absurd h h₂
    · exact fun _ _ h => absurd h h₂

theorem readBody_flatMap (text rest : List Char) :
    readBody (text.flatMap escape ++ '"' :: rest) = some (text, rest) := by
  induction text with
  | nil => simp [readBody]
  | cons c text ih => rw [List.flatMap_cons, List.append_assoc, readBody_escape, ih]; rfl

theorem reads_string (text : List Char) : Reads anyRest readString text (printString text) := by
  intro rest _
  have hopen : printString text ++ rest = ['"'] ++ (text.flatMap escape ++ '"' :: rest) := by
    simp [printString]
  rw [hopen, readString, expect_append]
  exact readBody_flatMap text rest

/-! ## Sequences -/

/-- How a sequence is laid out: without items, before the first, between two, after the last. -/
structure Layout where
  empty : List Char
  opening : List Char
  separator : List Char
  closing : List Char

namespace Layout

variable (layout : Layout)

/-- Print a sequence. -/
def print (item : α → List Char) : List α → List Char
  | [] => layout.empty
  | a :: as =>
      layout.opening ++ item a ++ as.flatMap (fun a => layout.separator ++ item a) ++ layout.closing

/-- Read items, each behind a separator, until the end; `fuel` bounds their number. -/
def readRest (item : Reader α) : Nat → Reader (List α)
  | 0, _ => none
  | fuel + 1, text =>
      match expect layout.closing text with
      | some rest => some ([], rest)
      | none =>
          (expect layout.separator text).bind fun text => (item text).bind fun p =>
            (readRest item fuel p.2).map fun q => (p.1 :: q.1, q.2)

/-- Read a sequence. -/
def read (item : Reader α) : Reader (List α) := fun text =>
  match expect layout.empty text with
  | some rest => some ([], rest)
  | none =>
      (expect layout.opening text).bind fun text => (item text).bind fun p =>
        (readRest layout item (text.length + 1) p.2).map fun q => (p.1 :: q.1, q.2)

/-- The parts of a layout can be told apart, and an item can stand before them. -/
structure Clear (kind : List Char → Prop) : Prop where
  opening : ∀ text, expect layout.empty (layout.opening ++ text) = none
  closing : ∀ text, expect layout.closing (layout.separator ++ text) = none
  separates : layout.separator ≠ []
  before_separator : ∀ text, kind (layout.separator ++ text)
  before_closing : ∀ text, kind (layout.closing ++ text)

variable {layout} {kind : List Char → Prop} {item : Reader α} {printed : α → List Char}

theorem kind_rest (h : layout.Clear kind) (as : List α) (rest : List Char) :
    kind (as.flatMap (fun a => layout.separator ++ printed a) ++ (layout.closing ++ rest)) := by
  cases as with
  | nil => exact h.before_closing rest
  | cons a as =>
      rw [List.flatMap_cons, List.append_assoc, List.append_assoc]
      exact h.before_separator _

theorem readRest_flatMap (h : layout.Clear kind) (hitem : ∀ a, Reads kind item a (printed a))
    (as : List α) (rest : List Char) (fuel : Nat) (hfuel : as.length < fuel) :
    readRest layout item fuel (as.flatMap (fun a => layout.separator ++ printed a) ++
      (layout.closing ++ rest)) = some (as, rest) := by
  induction as generalizing fuel with
  | nil =>
      obtain ⟨fuel, rfl⟩ := Nat.exists_eq_add_of_lt hfuel
      rw [List.flatMap_nil, List.nil_append, readRest, expect_append]
  | cons a as ih =>
      obtain ⟨fuel, rfl⟩ : ∃ n, fuel = n + 1 := ⟨fuel - 1, by omega⟩
      rw [List.flatMap_cons, List.append_assoc, List.append_assoc, readRest, h.closing,
        expect_append, Option.bind_some, hitem a _ (kind_rest h as rest), Option.bind_some,
        ih fuel (Nat.lt_of_succ_lt_succ hfuel)]
      rfl

theorem length_le_flatMap (h : layout.Clear kind) (as : List α) :
    as.length ≤ (as.flatMap fun a => layout.separator ++ printed a).length := by
  induction as with
  | nil => exact Nat.le_refl 0
  | cons a as ih =>
      have hpos := List.length_pos_iff.mpr h.separates
      rw [List.flatMap_cons, List.length_append, List.length_append, List.length_cons]
      omega

theorem reads_print (h : layout.Clear kind) (hitem : ∀ a, Reads kind item a (printed a))
    (as : List α) : Reads anyRest (layout.read item) as (layout.print printed as) := by
  intro rest _
  cases as with
  | nil => rw [print, read, expect_append]
  | cons a as =>
      have hsome : as.length ≤ (as.flatMap fun a => layout.separator ++ printed a).length :=
        length_le_flatMap h as
      rw [print, List.append_assoc, List.append_assoc, List.append_assoc, read, h.opening,
        expect_append, Option.bind_some, hitem a _ (kind_rest h as rest), Option.bind_some,
        readRest_flatMap h hitem as rest _ (by simp only [List.length_append]; omega)]
      rfl

end Layout

/-! ## Arrays and objects -/

/-- An array that is a member of the outermost object. -/
def arrayLayout : Layout where
  empty := "[]".toList
  opening := "[\n    ".toList
  separator := ",\n    ".toList
  closing := "\n  ]".toList

/-- The outermost object. -/
def objectLayout : Layout where
  empty := "\x7b\x7d".toList
  opening := "\x7b\n".toList
  separator := ",\n".toList
  closing := "\n\x7d".toList

/-- Print an array of bytes. -/
def printArray (bs : Bytes) : List Char := arrayLayout.print printByte bs

/-- Read an array of bytes. -/
def readArray : Reader Bytes := arrayLayout.read readByte

theorem noDigit_append {text : List Char} (rest : List Char) {c : Char} (h : text.head? = some c)
    (hc : c.isDigit = false) : NoDigit (text ++ rest) := by
  intro d hd
  rw [List.head?_append, h] at hd
  exact Option.some.inj hd ▸ hc

theorem clear_arrayLayout : arrayLayout.Clear NoDigit where
  opening _ := rfl
  closing _ := rfl
  separates := by decide
  before_separator text := noDigit_append text (c := ',') rfl (by decide)
  before_closing text := noDigit_append text (c := '\n') rfl (by decide)

theorem reads_array (bs : Bytes) : Reads anyRest readArray bs (printArray bs) :=
  Layout.reads_print clear_arrayLayout reads_byte bs

/-- Print a member of an object. -/
def printMember (member : String × Bytes) : List Char :=
  "  ".toList ++ printString member.1.toList ++ ": ".toList ++ printArray member.2

/-- Read a member of an object. -/
def readMember : Reader (String × Bytes) := fun text =>
  (expect "  ".toList text).bind fun text => (readString text).bind fun p =>
    (expect ": ".toList p.2).bind fun text => (readArray text).map fun q =>
      ((String.ofList p.1, q.1), q.2)

theorem reads_member (member : String × Bytes) :
    Reads anyRest readMember member (printMember member) := by
  intro rest _
  rw [printMember, List.append_assoc, List.append_assoc, List.append_assoc, readMember,
    expect_append, Option.bind_some, reads_string member.1.toList _ trivial, Option.bind_some,
    expect_append, Option.bind_some, reads_array member.2 rest trivial]
  simp

/-- Print an object. -/
def printObject (members : List (String × Bytes)) : List Char :=
  objectLayout.print printMember members

/-- Read an object. -/
def readObject : Reader (List (String × Bytes)) := objectLayout.read readMember

theorem clear_objectLayout : objectLayout.Clear anyRest where
  opening _ := rfl
  closing _ := rfl
  separates := by decide
  before_separator _ := trivial
  before_closing _ := trivial

theorem reads_object (members : List (String × Bytes)) :
    Reads anyRest readObject members (printObject members) :=
  Layout.reads_print clear_objectLayout reads_member members

example : printObject [("pin", [1, 20]), ("a\n", [])] =
    "\x7b\n  \"pin\": [\n    1,\n    20\n  ],\n  \"a\\n\": []\n\x7d".toList := by decide

end Json
