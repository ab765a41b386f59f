import OpenKey.Library.Bytes

/-!
# Arithmetic and slices that may panic

On a target with words of 32 bits, an addition that leaves their range panics, and so do a
subtraction below zero, a slice that is not in its buffer and a copy that does not fit. A program
over these operations is safe when it returns.
-/

/-- Why a program panics. -/
inductive Panic
  | overflow
  | outOfRange
  deriving DecidableEq, Repr

namespace Checked

set_option autoImplicit false

/-- The sum of two words. -/
def add (a b : Nat) : Except Panic Nat := if a + b < 2 ^ 32 then .ok (a + b) else .error .overflow

/-- The difference of two words. -/
def sub (a b : Nat) : Except Panic Nat := if b ≤ a then .ok (a - b) else .error .overflow

/-- `bs[i]`. -/
def byte (bs : Bytes) (i : Nat) : Except Panic UInt8 :=
  match bs[i]? with
  | some b => .ok b
  | none => .error .outOfRange

/-- `bs[i..j]`. -/
def slice (bs : Bytes) (i j : Nat) : Except Panic Bytes :=
  if i ≤ j ∧ j ≤ bs.length then .ok ((bs.drop i).take (j - i)) else .error .outOfRange

/-- `bs[i..i + mid.len()].copy_from_slice(mid)`. -/
def copyAt (bs : Bytes) (i : Nat) (mid : Bytes) : Except Panic Bytes :=
  if i + mid.length ≤ bs.length then .ok (bs.splice i mid) else .error .outOfRange

theorem add_ok {a b : Nat} (h : a + b < 2 ^ 32) : add a b = .ok (a + b) := if_pos h

theorem sub_ok {a b : Nat} (h : b ≤ a) : sub a b = .ok (a - b) := if_pos h

theorem byte_ok {bs : Bytes} {i : Nat} {b : UInt8} (h : bs[i]? = some b) : byte bs i = .ok b := by
  rw [byte, h]

theorem slice_ok {bs : Bytes} {i j : Nat} (hij : i ≤ j) (hj : j ≤ bs.length) :
    slice bs i j = .ok ((bs.drop i).take (j - i)) := if_pos ⟨hij, hj⟩

theorem slice_zero {bs : Bytes} {j : Nat} (hj : j ≤ bs.length) :
    slice bs 0 j = .ok (bs.take j) := slice_ok (Nat.zero_le j) hj

theorem copyAt_ok {bs mid : Bytes} {i : Nat} (h : i + mid.length ≤ bs.length) :
    copyAt bs i mid = .ok (bs.splice i mid) := if_pos h

end Checked
