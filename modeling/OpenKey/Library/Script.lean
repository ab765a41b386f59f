import OpenKey.Library.Prog

/-!
# Scripts

A script asks for operations, one after the other, and goes on with their answers. It is a tree,
so what holds of a program for every meaning of its operations is proved by one induction: if
each answer keeps a frame, `Script.keeps_perform` says that every script does. `Script.Asks` is for
scripts that do not ask for every operation, or not with every argument.
-/

/-- A script over operations `Op`, each with its type of answers, that returns an `α` or fails
with an `ε`. -/
inductive Script (Op : Type) (Ans : Op → Type) (ε α : Type) : Type
  | done (a : α)
  | fail (e : ε)
  | ask (op : Op) (next : Ans op → Script Op Ans ε α)

namespace Script

variable {Op : Type} {Ans : Op → Type} {σ ε α β : Type}

/-- One script after the other. -/
def andThen : Script Op Ans ε α → (α → Script Op Ans ε β) → Script Op Ans ε β
  | .done a, f => f a
  | .fail e, _ => .fail e
  | .ask op next, f => .ask op fun answer => (next answer).andThen f

instance : Monad (Script Op Ans ε) where
  pure := .done
  bind := andThen

/-- Ask for one operation. -/
def call (op : Op) : Script Op Ans ε (Ans op) := .ask op .done

/-- A value that may be a failure. -/
def lift : Except ε α → Script Op Ans ε α
  | .ok a => .done a
  | .error e => .fail e

/-- Continue only if `c` holds. -/
def require (c : Bool) (e : ε) : Script Op Ans ε Unit := if c then .done () else .fail e

/-- Run a script and hand its result, success or failure, on. -/
def attempt : Script Op Ans ε α → Script Op Ans ε (Except ε α)
  | .done a => .done (.ok a)
  | .fail e => .done (.error e)
  | .ask op next => .ask op fun answer => (next answer).attempt

variable (answer : ∀ op, Prog σ ε (Ans op))

/-- The program of a script, given the meaning of its operations. -/
def perform : Script Op Ans ε α → Prog σ ε α
  | .done a => pure a
  | .fail e => Prog.fail e
  | .ask op next => do
      let a ← answer op
      (next a).perform

/-- What each operation keeps, every script keeps. -/
theorem keeps_perform {F : Prog.Frame σ} (h : ∀ op, Prog.Keeps F (answer op))
    (script : Script Op Ans ε α) : Prog.Keeps F (script.perform answer) := by
  induction script with
  | done a => exact Prog.Keeps.pure a
  | fail e => exact Prog.Keeps.fail e
  | ask op next ih => exact (h op).bind ih

/-! ## The operations of a script -/

/-- Every operation that the script asks for, whatever the answers are, is one of `P`. -/
def Asks (P : Op → Prop) : Script Op Ans ε α → Prop
  | .done _ => True
  | .fail _ => True
  | .ask op next => P op ∧ ∀ a, (next a).Asks P

section

variable {P : Op → Prop}

@[simp] theorem asks_pure (a : α) : (pure a : Script Op Ans ε α).Asks P := trivial

@[simp] theorem asks_fail (e : ε) : (.fail e : Script Op Ans ε α).Asks P := trivial

@[simp] theorem asks_lift (x : Except ε α) : (lift x : Script Op Ans ε α).Asks P := by
  cases x <;> trivial

@[simp] theorem asks_require (c : Bool) (e : ε) :
    (require c e : Script Op Ans ε Unit).Asks P := by
  cases c <;> trivial

theorem Asks.call {op : Op} (h : P op) : (call op : Script Op Ans ε (Ans op)).Asks P :=
  ⟨h, fun _ => trivial⟩

theorem Asks.bind {m : Script Op Ans ε α} {f : α → Script Op Ans ε β} (hm : m.Asks P)
    (hf : ∀ a, (f a).Asks P) : (m >>= f).Asks P := by
  induction m with
  | done a => exact hf a
  | fail e => trivial
  | ask op next ih => exact ⟨hm.1, fun a => ih a (hm.2 a)⟩

theorem Asks.ite {c : Prop} [Decidable c] {m₁ m₂ : Script Op Ans ε α} (h₁ : m₁.Asks P)
    (h₂ : m₂.Asks P) : (if c then m₁ else m₂).Asks P := by
  split
  · exact h₁
  · exact h₂

/-- What each operation of a script keeps, the script keeps. -/
theorem Asks.keeps {F : Prog.Frame σ} (h : ∀ op, P op → Prog.Keeps F (answer op))
    {script : Script Op Ans ε α} (hs : script.Asks P) : Prog.Keeps F (script.perform answer) := by
  induction script with
  | done a => exact Prog.Keeps.pure a
  | fail e => exact Prog.Keeps.fail e
  | ask op next ih => exact (h op hs.1).bind fun a => ih a (hs.2 a)

end

/-! ## Runs -/

theorem run_perform_bind (m : Script Op Ans ε α) (f : α → Script Op Ans ε β) (s : σ) :
    ((m >>= f).perform answer).run s =
      ((m.perform answer) >>= fun a => (f a).perform answer).run s := by
  induction m generalizing s with
  | done a => rfl
  | fail e => rfl
  | ask op next ih =>
      show ((answer op) >>= fun a => ((next a) >>= f).perform answer).run s =
        (((answer op) >>= fun a => (next a).perform answer) >>= fun a =>
          (f a).perform answer).run s
      rw [Prog.run_bind, Prog.run_bind, Prog.run_bind]
      rcases (answer op).run s with ⟨_ | a, t⟩
      · rfl
      · exact ih a t

theorem snd_run_attempt (m : Script Op Ans ε α) (s : σ) :
    ((m.attempt.perform answer).run s).2 = ((m.perform answer).run s).2 := by
  induction m generalizing s with
  | done a => rfl
  | fail e => rfl
  | ask op next ih =>
      show (((answer op) >>= fun a => (next a).attempt.perform answer).run s).2 =
        (((answer op) >>= fun a => (next a).perform answer).run s).2
      rw [Prog.run_bind, Prog.run_bind]
      rcases (answer op).run s with ⟨_ | a, t⟩
      · rfl
      · exact ih a t

theorem run_attempt_eq_ok {m : Script Op Ans ε α} {a : α} {s t : σ}
    (h : (m.attempt.perform answer).run s = (.ok (.ok a), t)) :
    (m.perform answer).run s = (.ok a, t) := by
  induction m generalizing s with
  | done b =>
      obtain ⟨hb, rfl⟩ := Prod.mk.inj h
      obtain rfl := Except.ok.inj (Except.ok.inj hb)
      rfl
  | fail e => exact nomatch Except.ok.inj (congrArg Prod.fst h)
  | ask op next ih =>
      obtain ⟨b, u, hop, hrest⟩ := Prog.bind_eq_ok.mp h
      exact Prog.bind_eq_ok.mpr ⟨b, u, hop, ih b hrest⟩

/-- Where no operation fails, an attempt does not. -/
theorem run_attempt_bind {I : σ → Prop}
    (hanswer : ∀ op s, I s → ∃ a t, (answer op).run s = (.ok a, t) ∧ I t)
    (m : Script Op Ans ε α) (f : Except ε α → Script Op Ans ε β) {s : σ} (hs : I s) :
    ((m.attempt >>= f).perform answer).run s =
      ((f ((m.perform answer).run s).1).perform answer).run ((m.perform answer).run s).2 := by
  induction m generalizing s with
  | done a => rfl
  | fail e => rfl
  | ask op next ih =>
      obtain ⟨a, t, hrun, ht⟩ := hanswer op s hs
      have hleft : ((ask op next).attempt >>= f).perform answer =
          (answer op) >>= fun a => ((next a).attempt >>= f).perform answer := rfl
      have hright : (ask op next).perform answer =
          (answer op) >>= fun a => (next a).perform answer := rfl
      rw [hleft, hright, Prog.run_bind_of_ok hrun, Prog.run_bind_of_ok hrun]
      exact ih a ht

end Script
