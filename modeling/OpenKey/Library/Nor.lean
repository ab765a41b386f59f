import Mathlib.Tactic.Common
import OpenKey.Library.Bytes

/-!
# Memory that is programmed by clearing bits

A memory is a byte for every address. Programming bytes at an address leaves there what both the old
byte and the new one have set, and everything else as it was (`program`).

Programming one string behind the other is programming both at once (`program_append`). Programming
a window of the memory that has been read, with some bytes of it replaced, is programming those
bytes (`program_splice_window`).
-/

namespace Nor

set_option autoImplicit false

/-- A byte for every address. -/
abbrev Memory := Nat → UInt8

/-- Program bytes from an address on. -/
def program (m : Memory) (start : Nat) (bs : Bytes) : Memory := fun a =>
  if start ≤ a then
    match bs[a - start]? with
    | some b => m a &&& b
    | none => m a
  else m a

/-- Erase a range. -/
def erase (m : Memory) (start len : Nat) : Memory := fun a =>
  if start ≤ a ∧ a < start + len then 0xFF else m a

/-- The bytes from an address on. -/
def window (m : Memory) (start len : Nat) : Bytes := (List.range len).map fun i => m (start + i)

@[simp] theorem length_window (m : Memory) (start len : Nat) :
    (window m start len).length = len := by
  simp [window]

theorem getElem?_window {m : Memory} {start len i : Nat} (h : i < len) :
    (window m start len)[i]? = some (m (start + i)) := by
  simp [window, List.getElem?_range h]

theorem program_of_lt {m : Memory} {start a : Nat} (bs : Bytes) (h : a < start) :
    program m start bs a = m a := if_neg (Nat.not_le.mpr h)

theorem program_of_none {m : Memory} {start a : Nat} {bs : Bytes} (h : bs[a - start]? = none) :
    program m start bs a = m a := by
  unfold program
  split
  · rw [h]
  · rfl

theorem program_of_some {m : Memory} {start a : Nat} {bs : Bytes} {b : UInt8} (hle : start ≤ a)
    (h : bs[a - start]? = some b) : program m start bs a = m a &&& b := by
  unfold program
  rw [if_pos hle, h]

/-- Outside the range nothing changes. -/
theorem program_outside {m : Memory} {start a : Nat} {bs : Bytes}
    (h : a < start ∨ start + bs.length ≤ a) : program m start bs a = m a := by
  rcases h with h | h
  · exact program_of_lt bs h
  · exact program_of_none (List.getElem?_eq_none (by omega))

/-- Inside it the bits that both have set are left. -/
theorem program_inside {m : Memory} {start i : Nat} {bs : Bytes} (h : i < bs.length) :
    program m start bs (start + i) = m (start + i) &&& bs[i] :=
  program_of_some (Nat.le_add_right start i)
    (by rw [Nat.add_sub_cancel_left]; exact List.getElem?_eq_getElem h)

@[simp] theorem program_nil (m : Memory) (start : Nat) : program m start [] = m :=
  funext fun _ => program_of_none List.getElem?_nil

/-- One string behind the other. -/
theorem program_append (m : Memory) (start : Nat) (as bs : Bytes) :
    program (program m start as) (start + as.length) bs = program m start (as ++ bs) := by
  funext a
  by_cases hfirst : a < start + as.length
  · rw [program_of_lt bs hfirst]
    by_cases hle : start ≤ a
    · have hget : (as ++ bs)[a - start]? = as[a - start]? :=
        List.getElem?_append_left (by omega)
      unfold program
      rw [hget]
    · rw [program_of_lt _ (Nat.not_le.mp hle), program_of_lt _ (Nat.not_le.mp hle)]
  · have hpast : as[a - start]? = none := List.getElem?_eq_none (by omega)
    have hget : (as ++ bs)[a - start]? = bs[a - (start + as.length)]? := by
      rw [List.getElem?_append_right (by omega), Nat.sub_sub]
    have hstart : start ≤ a := by omega
    have hfirst' : program m start as a = m a := program_of_none hpast
    unfold program at hfirst' ⊢
    rw [hget, hfirst', if_pos (Nat.not_lt.mp hfirst), if_pos hstart]

/-- What is read back is left as it is; what is replaced in it is programmed. -/
theorem program_splice_window {m : Memory} {start len offset : Nat} {bs : Bytes}
    (h : offset + bs.length ≤ len) :
    program m start ((window m start len).splice offset bs) = program m (start + offset) bs := by
  have hlen : offset + bs.length ≤ (window m start len).length := by rwa [length_window]
  funext a
  by_cases hle : start ≤ a
  · have hget := Bytes.getElem?_splice hlen (a - start)
    by_cases hbefore : a - start < offset
    · rw [if_pos hbefore, getElem?_window (by omega)] at hget
      rw [program_of_some hle hget, program_of_lt bs (by omega), Nat.add_sub_of_le hle,
        UInt8.and_self]
    · rw [if_neg hbefore] at hget
      by_cases hinside : a - start < offset + bs.length
      · rw [if_pos hinside] at hget
        unfold program
        rw [if_pos hle, hget, if_pos (by omega), Nat.sub_sub]
      · rw [if_neg hinside] at hget
        have houtside : program m (start + offset) bs a = m a := program_outside (.inr (by omega))
        rw [houtside]
        by_cases hwindow : a - start < len
        · rw [getElem?_window hwindow] at hget
          rw [program_of_some hle hget, Nat.add_sub_of_le hle, UInt8.and_self]
        · have hnone : (window m start len)[a - start]? = none :=
            List.getElem?_eq_none (by rw [length_window]; omega)
          exact program_of_none (hget.trans hnone)
  · rw [program_of_lt _ (Nat.not_le.mp hle), program_of_lt bs (by omega)]

/-- Programming within a window, seen in the window. -/
theorem window_program {m : Memory} {start len offset : Nat} {bs : Bytes}
    (h : offset + bs.length ≤ len) :
    window (program m (start + offset) bs) start len =
      (window m start len).splice offset
        (List.zipWith (· &&& ·) ((window m start len).drop offset) bs) := by
  have hzip : (List.zipWith (· &&& ·) ((window m start len).drop offset) bs).length =
      bs.length := by
    rw [List.length_zipWith, List.length_drop, length_window]
    omega
  apply List.ext_getElem?
  intro i
  rw [Bytes.getElem?_splice (by rw [hzip, length_window]; exact h), hzip]
  by_cases hi : i < len
  · rw [getElem?_window hi, getElem?_window hi]
    by_cases hbefore : i < offset
    · rw [if_pos hbefore, program_of_lt bs (by omega)]
    · rw [if_neg hbefore]
      by_cases hinside : i < offset + bs.length
      · have hbyte : i - offset < bs.length := by omega
        have haddr : start + i = start + offset + (i - offset) := by omega
        have hback : offset + (i - offset) = i := by omega
        rw [if_pos hinside, List.getElem?_zipWith, List.getElem?_drop, hback, getElem?_window hi,
          List.getElem?_eq_getElem hbyte, haddr, program_inside hbyte]
      · rw [if_neg hinside, program_outside (.inr (by omega))]
  · have hnone : ∀ m : Memory, (window m start len)[i]? = none := fun m =>
      List.getElem?_eq_none (by rw [length_window]; omega)
    rw [hnone, hnone, if_neg (by omega), if_neg (by omega)]

/-- Erasing within a window. -/
theorem window_erase {m : Memory} {start len offset n : Nat} (h : offset + n ≤ len) :
    window (erase m (start + offset) n) start len =
      (window m start len).splice offset (List.replicate n 0xFF) := by
  apply List.ext_getElem?
  intro i
  rw [Bytes.getElem?_splice (by rw [List.length_replicate, length_window]; exact h),
    List.length_replicate]
  by_cases hi : i < len
  · rw [getElem?_window hi, getElem?_window hi, erase]
    by_cases hinside : offset ≤ i ∧ i < offset + n
    · rw [if_pos (by omega), if_neg (by omega), if_pos hinside.2,
        List.getElem?_replicate_of_lt (by omega)]
    · rw [if_neg (by omega)]
      by_cases hbefore : i < offset
      · rw [if_pos hbefore]
      · rw [if_neg hbefore, if_neg (by omega)]
  · have hnone : ∀ m : Memory, (window m start len)[i]? = none := fun m =>
      List.getElem?_eq_none (by rw [length_window]; omega)
    rw [hnone, hnone, if_neg (by omega), if_neg (by omega)]

/-- Reading within a window. -/
theorem window_window {m : Memory} {start len offset n : Nat} (h : offset + n ≤ len) :
    window m (start + offset) n = ((window m start len).drop offset).take n := by
  apply List.ext_getElem?
  intro i
  rw [List.getElem?_take, List.getElem?_drop]
  by_cases hi : i < n
  · rw [if_pos hi, getElem?_window hi, getElem?_window (by omega), Nat.add_assoc]
  · rw [if_neg hi]
    exact List.getElem?_eq_none (by rw [length_window]; omega)

end Nor
