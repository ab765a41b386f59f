import OpenKey.Library.Simulation

/-!
# Transcripts

A specification from the outside: `step v x w` says that one who knows `v` may see `x`, and then
knows `w`. A machine keeps to it if there is a relation between its states and what is known,
along which everything it returns may be seen (`Transcript.of_results`).
-/

/-- What is known before and after everything that is seen. -/
inductive Transcript {ν ξ : Type} (step : ν → ξ → ν → Prop) : ν → List ξ → ν → Prop
  | nil (v : ν) : Transcript step v [] v
  | cons {v w u : ν} {x : ξ} {log : List ξ} (hstep : step v x w)
      (hrest : Transcript step w log u) : Transcript step v (x :: log) u

namespace Transcript

variable {ν ξ σ ε α ι : Type}

/-- What each program of a machine keeps to, all its runs keep to. -/
theorem of_results {step : ν → ι × Except ε α → ν → Prop} {R : σ → ν → Prop}
    {m : ι → Prog σ ε α}
    (h : ∀ i s v, R s v → ∃ w, step v (i, ((m i).run s).1) w ∧ R ((m i).run s).2 w)
    (is : List ι) {s : σ} {v : ν} (hsv : R s v) :
    ∃ w, Transcript step v (is.zip (Prog.results m is s).1) w ∧ R (Prog.results m is s).2 w := by
  induction is generalizing s v with
  | nil => exact ⟨v, .nil v, hsv⟩
  | cons i is ih =>
    obtain ⟨w, hstep, hsw⟩ := h i s v hsv
    obtain ⟨u, hrest, hlast⟩ := ih hsw
    exact ⟨u, .cons hstep hrest, hlast⟩

/-- Where what is seen decides what is then known, it decides so along a transcript. -/
theorem unique {step : ν → ξ → ν → Prop} (h : ∀ v x w w', step v x w → step v x w' → w = w')
    {v w u : ν} {log : List ξ} (hw : Transcript step v log w) (hu : Transcript step v log u) :
    w = u := by
  induction hw with
  | nil v =>
    cases hu
    rfl
  | cons hstep _ ih =>
    cases hu with
    | cons hstep' hrest' =>
      obtain rfl := h _ _ _ _ hstep hstep'
      exact ih hrest'

end Transcript
