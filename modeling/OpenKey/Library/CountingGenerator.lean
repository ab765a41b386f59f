import Mathlib.Data.BitVec
import Mathlib.GroupTheory.OrderOfElement

/-!
# Generators that count and mix

A generator whose state goes up by a fixed step, and whose word is a one-to-one mix of the new
state. Such a generator repeats itself with the period of its step and at no other place
(`word_eq_word`).

The mix of such a generator is put together from steps that can be undone: a product with an odd
constant (`mul_injective`), and exclusive or with the word itself moved to the right
(`xorShift_injective`).
-/

set_option autoImplicit false

namespace CountingGenerator

/-! ## Mixing -/

section Mixing

variable {w : Nat}

/-- Exclusive or with the word itself, moved to the right by `k`. -/
def xorShift (k : Nat) (x : BitVec w) : BitVec w := x ^^^ (x >>> k)

theorem getLsbD_xorShift (k : Nat) (x : BitVec w) (i : Nat) :
    (xorShift k x).getLsbD i = (x.getLsbD i ^^ x.getLsbD (i + k)) := by
  rw [xorShift, BitVec.getLsbD_xor, BitVec.getLsbD_ushiftRight, Nat.add_comm]

/-- The top bits are still there, and each bit is read off from a higher one. -/
theorem xorShift_injective {k : Nat} (hk : 0 < k) :
    Function.Injective (xorShift k : BitVec w → BitVec w) := by
  intro x y h
  have hbits : ∀ n i : Nat, w - i ≤ n → x.getLsbD i = y.getLsbD i := by
    intro n
    induction n with
    | zero =>
      intro i hi
      rw [BitVec.getLsbD_of_ge x i (by omega), BitVec.getLsbD_of_ge y i (by omega)]
    | succ n ih =>
      intro i hi
      have hi' := congrArg (fun z => z.getLsbD i) h
      simp only [getLsbD_xorShift, ih (i + k) (by omega)] at hi'
      exact Bool.xor_left_inj.mp hi'
  exact BitVec.eq_of_getLsbD_eq fun i _ => hbits _ i (Nat.le_refl _)

/-- A product with a constant that has an inverse. -/
theorem mul_injective {c d : BitVec w} (h : c * d = 1) :
    Function.Injective fun x : BitVec w => x * c := by
  intro x y hxy
  have hd := congrArg (· * d) hxy
  simpa only [mul_assoc, h, mul_one] using hd

end Mixing

/-! ## Counting -/

section Counting

variable {σ β : Type*} [AddGroup σ] (step : σ) (mix : σ → β)

/-- One word, and the state after it. -/
def next (s : σ) : β × σ := (mix (s + step), s + step)

/-- The state after `n` words. -/
def after (n : Nat) (s : σ) : σ := s + n • step

/-- The word that comes after `n` others. -/
def word (n : Nat) (s : σ) : β := mix (after step (n + 1) s)

@[simp] theorem after_zero (s : σ) : after step 0 s = s := by
  rw [after, zero_nsmul, add_zero]

theorem after_succ (n : Nat) (s : σ) : after step (n + 1) s = after step n (s + step) := by
  rw [after, after, add_assoc, succ_nsmul']

theorem after_add (m n : Nat) (s : σ) : after step (m + n) s = after step n (after step m s) := by
  rw [after, after, after, add_assoc, add_nsmul]

theorem word_zero (s : σ) : word step mix 0 s = (next step mix s).1 := by
  rw [word, after_succ, after_zero, next]

theorem word_after (m n : Nat) (s : σ) :
    word step mix n (after step m s) = word step mix (m + n) s := by
  rw [word, word, ← after_add, Nat.add_assoc]

/-- Two states of a run are the same where a period lies between them. -/
theorem after_eq_after {step : σ} {m n : Nat} {s : σ} :
    after step m s = after step n s ↔ m ≡ n [MOD addOrderOf step] := by
  rw [after, after, add_right_inj, nsmul_eq_nsmul_iff_modEq]

/-- Two words of a run are the same where a period lies between them. -/
theorem word_eq_word {step : σ} {mix : σ → β} (hmix : Function.Injective mix) {m n : Nat} {s : σ} :
    word step mix m s = word step mix n s ↔ m ≡ n [MOD addOrderOf step] := by
  rw [word, word, hmix.eq_iff, after_eq_after]
  exact ⟨Nat.ModEq.add_right_cancel' 1, Nat.ModEq.add_right 1⟩

end Counting

/-- A step with an inverse goes through all words before it comes back. -/
theorem addOrderOf_of_mul {w : Nat} {c d : BitVec w} (h : c * d = 1) : addOrderOf c = 2 ^ w := by
  have hzero (n : Nat) : n • c = 0 ↔ 2 ^ w ∣ n := by
    rw [nsmul_eq_mul, BitVec.natCast_eq_ofNat]
    constructor
    · intro hn
      have hd := congrArg (· * d) hn
      simp only [mul_assoc, h, mul_one, zero_mul] at hd
      have hnat := congrArg BitVec.toNat hd
      rw [BitVec.toNat_ofNat] at hnat
      exact Nat.dvd_of_mod_eq_zero hnat
    · intro hn
      have : BitVec.ofNat w n = 0 := by
        apply BitVec.eq_of_toNat_eq
        rw [BitVec.toNat_ofNat, Nat.mod_eq_zero_of_dvd hn]
        rfl
      rw [this, zero_mul]
  apply Nat.dvd_antisymm
  · exact addOrderOf_dvd_of_nsmul_eq_zero ((hzero _).mpr (Nat.dvd_refl _))
  · exact (hzero _).mp (addOrderOf_nsmul_eq_zero c)

/-- Every state is on the way of every other one. -/
theorem exists_after_eq {w : Nat} {c d : BitVec w} (h : c * d = 1) (s t : BitVec w) :
    ∃ n < 2 ^ w, after c n s = t := by
  refine ⟨((t - s) * d).toNat, BitVec.isLt _, ?_⟩
  have hdc : d * c = 1 := by rw [mul_comm, h]
  rw [after, nsmul_eq_mul, BitVec.natCast_eq_ofNat, BitVec.ofNat_toNat, BitVec.setWidth_eq,
    mul_assoc, hdc, mul_one, add_sub_cancel]

end CountingGenerator
