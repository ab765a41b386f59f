import OpenKey.Library.Script

/-!
# Programs that simulate each other

Two programs over different states. One simulates the other along a relation if from related states
they return the same and leave related states.

Programs put together in the same way simulate each other where their parts do, scripts where the
answers to their operations do (`Script.simulates_perform`), and whole runs where the single steps
do (`Simulates.results`).
-/

namespace Prog

variable {σ τ ε ε' α β ι : Type}

/-- From states along `R`, the two programs return the same and leave states along `R`. -/
def Simulates (R : σ → τ → Prop) (m : Prog σ ε α) (m' : Prog τ ε α) : Prop :=
  ∀ s t, R s t → (m.run s).1 = (m'.run t).1 ∧ R (m.run s).2 (m'.run t).2

section

variable {R : σ → τ → Prop}

theorem Simulates.pure (a : α) : Simulates R (pure a : Prog σ ε α) (pure a) :=
  fun _ _ h => ⟨rfl, h⟩

theorem Simulates.fail (e : ε) : Simulates R (fail e : Prog σ ε α) (fail e) :=
  fun _ _ h => ⟨rfl, h⟩

theorem Simulates.read {f : σ → α} {f' : τ → α} (hf : ∀ s t, R s t → f s = f' t) :
    Simulates R (read f : Prog σ ε α) (read f') :=
  fun s t h => ⟨congrArg Except.ok (hf s t h), h⟩

theorem Simulates.update {g : σ → σ} {g' : τ → τ} (hg : ∀ s t, R s t → R (g s) (g' t)) :
    Simulates R (update g : Prog σ ε Unit) (update g') :=
  fun s t h => ⟨rfl, hg s t h⟩

theorem Simulates.ensure {c : σ → Bool} {c' : τ → Bool} {e : ε}
    (hc : ∀ s t, R s t → c s = c' t) :
    Simulates R (ensure c e : Prog σ ε Unit) (ensure c' e) := fun s t h => by
  refine ⟨?_, h⟩
  rw [run_ensure, run_ensure, hc s t h]

theorem Simulates.act {g : σ → α × σ} {g' : τ → α × τ}
    (hg : ∀ s t, R s t → (g s).1 = (g' t).1 ∧ R (g s).2 (g' t).2) :
    Simulates R (act g : Prog σ ε α) (act g') :=
  fun s t h => ⟨congrArg Except.ok (hg s t h).1, (hg s t h).2⟩

theorem Simulates.bind {m : Prog σ ε α} {m' : Prog τ ε α} {f : α → Prog σ ε β}
    {f' : α → Prog τ ε β} (hm : Simulates R m m') (hf : ∀ a, Simulates R (f a) (f' a)) :
    Simulates R (m >>= f) (m' >>= f') := by
  intro s t h
  obtain ⟨hres, hst⟩ := hm s t h
  rw [run_bind, run_bind]
  cases hs : m.run s with
  | mk r u =>
    cases ht : m'.run t with
    | mk r' v =>
      rw [hs, ht] at hres hst
      obtain rfl : r = r' := hres
      cases r with
      | ok a => exact hf a u v hst
      | error e => exact ⟨rfl, hst⟩

/-- What is read is a value of some state. -/
theorem Simulates.read_bind {f : σ → α} {f' : τ → α} {k : α → Prog σ ε β} {k' : α → Prog τ ε β}
    (hf : ∀ s t, R s t → f s = f' t) (hk : ∀ s, Simulates R (k (f s)) (k' (f s))) :
    Simulates R (Prog.read f >>= k) (Prog.read f' >>= k') := by
  intro s t h
  rw [run_read_bind, run_read_bind, ← hf s t h]
  exact hk s s t h

theorem Simulates.ite {c : Prop} [Decidable c] {m₁ m₂ : Prog σ ε α} {m₁' m₂' : Prog τ ε α}
    (h₁ : c → Simulates R m₁ m₁') (h₂ : ¬c → Simulates R m₂ m₂') :
    Simulates R (if c then m₁ else m₂) (if c then m₁' else m₂') := by
  by_cases h : c
  · rw [if_pos h, if_pos h]
    exact h₁ h
  · rw [if_neg h, if_neg h]
    exact h₂ h

/-! ## Runs -/

/-- The results of programs that are run one after the other, whether or not they fail. -/
def results (m : ι → Prog σ ε α) : List ι → σ → List (Except ε α) × σ
  | [], s => ([], s)
  | i :: is, s =>
    let (r, s) := (m i).run s
    let (rs, s) := results m is s
    (r :: rs, s)

/-- Along a run, the results are the same and the states stay related. -/
theorem Simulates.results {m : ι → Prog σ ε α} {m' : ι → Prog τ ε α}
    (h : ∀ i, Simulates R (m i) (m' i)) (is : List ι) {s : σ} {t : τ} (hst : R s t) :
    (Prog.results m is s).1 = (Prog.results m' is t).1 ∧
      R (Prog.results m is s).2 (Prog.results m' is t).2 := by
  induction is generalizing s t with
  | nil => exact ⟨rfl, hst⟩
  | cons i is ih =>
    obtain ⟨hres, hnext⟩ := h i s t hst
    obtain ⟨hrest, hlast⟩ := ih hnext
    exact ⟨congrArg₂ List.cons hres hrest, hlast⟩

end

end Prog

namespace Script

variable {Op : Type} {Ans : Op → Type} {σ τ ε α : Type} {R : σ → τ → Prop}
  {answer : ∀ op, Prog σ ε (Ans op)} {answer' : ∀ op, Prog τ ε (Ans op)}

/-- One script, with two meanings of its operations. -/
theorem simulates_perform (h : ∀ op, Prog.Simulates R (answer op) (answer' op))
    (script : Script Op Ans ε α) :
    Prog.Simulates R (script.perform answer) (script.perform answer') := by
  induction script with
  | done a => exact .pure a
  | fail e => exact .fail e
  | ask op next ih => exact (h op).bind ih

end Script
