import OpenKey.Library.Bytes

/-!
# CBOR items

The part of the Concise Binary Object Representation that snapshots need: heads, texts, and
arrays and maps of definite length. Every reader takes an item off the front of its input and
returns the rest; `Reads` says that it takes off exactly what a writer put there.
-/

namespace Cbor

open Bytes

set_option autoImplicit false

variable {α β : Type}

/-- A reader: the item at the front, and the bytes after it. -/
abbrev Reader (α : Type) := Bytes → Option (α × Bytes)

/-- `read` takes off what `written` put in front, and stops there. -/
def Reads (read : Reader α) (a : α) (written : Bytes) : Prop :=
  ∀ rest, read (written ++ rest) = some (a, rest)

/-- Return a value without reading. -/
def done (a : α) : Reader α := fun bs => some (a, bs)

/-- Read one thing after another. -/
def andThen (read : Reader α) (next : α → Reader β) : Reader β := fun bs =>
  match read bs with
  | none => none
  | some (a, rest) => next a rest

theorem reads_done (a : α) : Reads (done a) a [] := fun _ => rfl

theorem Reads.andThen {read : Reader α} {next : α → Reader β} {a : α} {b : β} {w w' : Bytes}
    (h : Reads read a w) (h' : Reads (next a) b w') : Reads (andThen read next) b (w ++ w') := by
  intro rest
  rw [Cbor.andThen, List.append_assoc, h]
  exact h' rest

/-! ## Heads -/

/-- The initial byte: major type and additional information. -/
def initial (major info : Nat) : UInt8 := UInt8.ofNat (32 * major + info)

/-- The head of an item: major type and argument, in the shortest form. -/
def encodeHead (major n : Nat) : Bytes :=
  if n < 24 then [initial major n]
  else if n < 2 ^ 8 then initial major 24 :: beBytes 1 n
  else if n < 2 ^ 16 then initial major 25 :: beBytes 2 n
  else if n < 2 ^ 32 then initial major 26 :: beBytes 4 n
  else initial major 27 :: beBytes 8 n

/-- A big-endian number of `w` bytes. -/
def takeNat (w : Nat) : Reader Nat := fun bs =>
  if bs.length < w then none else some (beNat (bs.take w), bs.drop w)

/-- Read a head. -/
def decodeHead : Reader (Nat × Nat)
  | [] => none
  | b :: rest =>
      let info := b.toNat % 32
      let argument : Option (Nat × Bytes) :=
        if info < 24 then some (info, rest)
        else if info = 24 then takeNat 1 rest
        else if info = 25 then takeNat 2 rest
        else if info = 26 then takeNat 4 rest
        else if info = 27 then takeNat 8 rest
        else none
      argument.map fun (n, rest) => ((b.toNat / 32, n), rest)

theorem reads_takeNat {w n : Nat} (h : n < 256 ^ w) : Reads (takeNat w) n (beBytes w n) := by
  intro rest
  have hlen : (beBytes w n).length = w := length_beBytes w n
  rw [takeNat, if_neg (by rw [List.length_append]; omega), List.take_append_of_le_length hlen.ge,
    List.drop_append_of_le_length hlen.ge, List.take_of_length_le hlen.le,
    List.drop_eq_nil_of_le hlen.le, beNat_beBytes_of_lt h, List.nil_append]

theorem initial_toNat {major info : Nat} (hm : major < 8) (hi : info < 32) :
    (initial major info).toNat = 32 * major + info := by
  rw [initial, UInt8.toNat_ofNat', Nat.mod_eq_of_lt (by omega)]

theorem reads_head {major n : Nat} (hm : major < 8) (hn : n < 2 ^ 64) :
    Reads decodeHead (major, n) (encodeHead major n) := by
  have hdiv : ∀ info < 32, (initial major info).toNat / 32 = major := by
    intro info hi
    rw [initial_toNat hm hi]
    omega
  have hmod : ∀ info < 32, (initial major info).toNat % 32 = info := by
    intro info hi
    rw [initial_toNat hm hi]
    omega
  intro rest
  rw [encodeHead]
  split
  next h =>
    simp only [List.singleton_append, decodeHead, hdiv n (by omega), hmod n (by omega), if_pos h]
    rfl
  split
  next h =>
    simp [List.cons_append, decodeHead, hdiv 24, hmod 24, reads_takeNat (w := 1) h rest]
  split
  next h =>
    simp [List.cons_append, decodeHead, hdiv 25, hmod 25, reads_takeNat (w := 2) h rest]
  split
  next h =>
    simp [List.cons_append, decodeHead, hdiv 26, hmod 26, reads_takeNat (w := 4) h rest]
  · simp [List.cons_append, decodeHead, hdiv 27, hmod 27, reads_takeNat (w := 8) hn rest]

/-! ## Items -/

/-- Read a head of the given major type. -/
def expectHead (major : Nat) : Reader Nat :=
  andThen decodeHead fun (m, n) => if m = major then done n else fun _ => none

theorem reads_expectHead {major n : Nat} (hm : major < 8) (hn : n < 2 ^ 64) :
    Reads (expectHead major) n (encodeHead major n) := by
  intro rest
  rw [expectHead, andThen, reads_head hm hn]
  simp only [if_true]
  rfl

/-- Read `n` items in a row. -/
def readMany (read : Reader α) : Nat → Reader (List α)
  | 0 => done []
  | n + 1 => andThen read fun a => andThen (readMany read n) fun as => done (a :: as)

theorem reads_many {read : Reader α} {write : α → Bytes} {l : List α}
    (h : ∀ a ∈ l, Reads read a (write a)) :
    Reads (readMany read l.length) l (l.flatMap write) := by
  induction l with
  | nil => exact reads_done []
  | cons a l ih =>
      have hl := ih fun x hx => h x (List.mem_cons_of_mem a hx)
      rw [List.flatMap_cons, ← List.append_nil (l.flatMap write)]
      exact (h a List.mem_cons_self).andThen (hl.andThen (reads_done (a :: l)))

/-- An array of definite length. -/
def encodeArray (write : α → Bytes) (l : List α) : Bytes :=
  encodeHead 4 l.length ++ l.flatMap write

/-- Read an array. -/
def decodeArray (read : Reader α) : Reader (List α) := andThen (expectHead 4) (readMany read)

theorem reads_array {read : Reader α} {write : α → Bytes} {l : List α} (hlen : l.length < 2 ^ 64)
    (h : ∀ a ∈ l, Reads read a (write a)) :
    Reads (decodeArray read) l (encodeArray write l) :=
  (reads_expectHead (by omega) hlen).andThen (reads_many h)

/-- A map of definite length, entries in order. -/
def encodeMap (writeKey : α → Bytes) (writeValue : β → Bytes) (l : List (α × β)) : Bytes :=
  encodeHead 5 l.length ++ l.flatMap fun e => writeKey e.1 ++ writeValue e.2

/-- Read one entry of a map. -/
def decodeEntry (readKey : Reader α) (readValue : Reader β) : Reader (α × β) :=
  andThen readKey fun k => andThen readValue fun v => done (k, v)

/-- Read a map. -/
def decodeMap (readKey : Reader α) (readValue : Reader β) : Reader (List (α × β)) :=
  andThen (expectHead 5) (readMany (decodeEntry readKey readValue))

theorem reads_map {readKey : Reader α} {readValue : Reader β} {writeKey : α → Bytes}
    {writeValue : β → Bytes} {l : List (α × β)} (hlen : l.length < 2 ^ 64)
    (hk : ∀ e ∈ l, Reads readKey e.1 (writeKey e.1))
    (hv : ∀ e ∈ l, Reads readValue e.2 (writeValue e.2)) :
    Reads (decodeMap readKey readValue) l (encodeMap writeKey writeValue l) := by
  refine (reads_expectHead (by omega) hlen).andThen (reads_many fun e he => ?_)
  rw [← List.append_nil (writeValue e.2)]
  exact (hk e he).andThen ((hv e he).andThen (reads_done e))

/-- A text. -/
def encodeText (s : String) : Bytes :=
  encodeHead 3 (utf8 s).length ++ utf8 s

/-- Take `n` bytes that are valid UTF-8. -/
def takeText (n : Nat) : Reader String := fun bs =>
  if bs.length < n then none
  else (ofUtf8 (bs.take n)).map fun s => (s, bs.drop n)

/-- Read a text. -/
def decodeText : Reader String := andThen (expectHead 3) takeText

theorem reads_text {s : String} (hlen : (utf8 s).length < 2 ^ 64) :
    Reads decodeText s (encodeText s) := by
  refine (reads_expectHead (by omega) hlen).andThen fun rest => ?_
  rw [takeText, if_neg (by simp), List.take_left, List.drop_left, ofUtf8_utf8]
  rfl

/-- The unsigned integer of a byte. -/
def encodeByte (b : UInt8) : Bytes := encodeHead 0 b.toNat

/-- Read a byte. -/
def decodeByte : Reader UInt8 :=
  andThen (expectHead 0) fun n => if n < 256 then done (UInt8.ofNat n) else fun _ => none

theorem reads_byte (b : UInt8) : Reads decodeByte b (encodeByte b) := by
  have hb := b.toNat_lt
  have hhead : Reads (expectHead 0) b.toNat (encodeByte b) :=
    reads_expectHead (by omega) (by omega)
  intro rest
  rw [decodeByte, andThen, hhead]
  simp only [if_pos hb, UInt8.ofNat_toNat]
  rfl

/-! ## Lengths -/

theorem length_encodeHead_pos (major n : Nat) : 0 < (encodeHead major n).length := by
  rw [encodeHead]
  split_ifs <;> simp

/-- Items in a row are at least as long as each of them and as their number. -/
theorem length_le_flatMap (write : α → Bytes) (l : List α) (hpos : ∀ a, 0 < (write a).length) :
    l.length ≤ (l.flatMap write).length := by
  induction l with
  | nil => simp
  | cons a l ih =>
      have ha := hpos a
      rw [List.flatMap_cons, List.length_append, List.length_cons]
      omega

theorem length_mem_le_flatMap (write : α → Bytes) {l : List α} {a : α} (h : a ∈ l) :
    (write a).length ≤ (l.flatMap write).length := by
  induction l with
  | nil => simp at h
  | cons x l ih =>
      rw [List.flatMap_cons, List.length_append]
      obtain rfl | h := List.mem_cons.mp h
      · omega
      · have := ih h
        omega

end Cbor
