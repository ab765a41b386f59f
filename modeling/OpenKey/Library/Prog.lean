import Mathlib.Logic.Relation
import Mathlib.Tactic.Common

/-!
# Stateful programs that keep their state on failure

`Prog σ ε α` is a computation that reads and writes a state `σ` and either returns an `α` or
fails with an `ε`. A failure does not roll the state back: whatever was written before it
stays written, which is what a method on a mutable reference returning a result does.

Two ways of reasoning about such programs live here.

* `bind_eq_ok` and its companions take a finished run apart, step by step.
* `Keeps F m` says that every run of `m`, failed or not, moves the state along the preorder
  `F`. It composes through every constructor of the language, so an invariant of a large
  program is a list of facts about its primitive writes. `KeepsAt F m s` is the same from one
  state, for steps that are only allowed after a check.

`Avoids e m` says that no run of `m` fails with `e`, and composes in the same way.

`Coupled` is the two-run version: related states stay related and the results are equal.
-/

theorem Except.mapError_eq_ok {ε ε' α : Type} {f : ε → ε'} {x : Except ε α} {a : α} :
    x.mapError f = .ok a ↔ x = .ok a := by
  cases x with
  | error e => simp [Except.mapError]
  | ok b => simp [Except.mapError]

theorem Except.map_eq_ok {ε α β : Type} {x : Except ε α} {f : α → β} {b : β} :
    x.map f = .ok b ↔ ∃ a, x = .ok a ∧ f a = b := by
  cases x with
  | error e => simp [Except.map]
  | ok a => simp [Except.map]

theorem Except.bind_eq_ok {ε α β : Type} {x : Except ε α} {f : α → Except ε β} {b : β} :
    (x >>= f) = .ok b ↔ ∃ a, x = .ok a ∧ f a = .ok b := by
  cases x with
  | error e => simp [bind, Except.bind]
  | ok a => simp [bind, Except.bind]

theorem Except.bind_ne_error {ε α β : Type} {x : Except ε α} {f : α → Except ε β} {e : ε}
    (hx : x ≠ .error e) (hf : ∀ a, f a ≠ .error e) : (x >>= f) ≠ .error e := by
  cases x with
  | error e' => exact fun h => hx (congrArg Except.error (Except.error.inj h))
  | ok a => exact hf a

theorem Except.map_ne_error {ε α β : Type} {x : Except ε α} {f : α → β} {e : ε}
    (hx : x ≠ .error e) : x.map f ≠ .error e := by
  cases x with
  | error e' => exact fun h => hx (congrArg Except.error (Except.error.inj h))
  | ok a => exact fun h => by cases h

theorem Option.elim_error_eq_ok {ε α : Type} {o : Option α} {e : ε} {a : α} :
    o.elim (.error e) Except.ok = .ok a ↔ o = some a := by
  cases o with
  | none => simp
  | some b => simp

/-- A program over the state `σ`, failing with `ε`. -/
structure Prog (σ ε α : Type) where
  /-- The result, and the state left behind in either case. -/
  run : σ → Except ε α × σ

namespace Prog

variable {σ τ ε ε' α β : Type}

instance : Monad (Prog σ ε) where
  pure a := ⟨fun s => (.ok a, s)⟩
  bind m f := ⟨fun s =>
    match m.run s with
    | (.ok a, s') => (f a).run s'
    | (.error e, s') => (.error e, s')⟩

/-- Fail with `e`. -/
def fail (e : ε) : Prog σ ε α := ⟨fun s => (.error e, s)⟩

/-- A value computed from the current state. -/
def read (f : σ → α) : Prog σ ε α := ⟨fun s => (.ok (f s), s)⟩

/-- A fallible computation that only reads the state. -/
def check (f : σ → Except ε α) : Prog σ ε α := ⟨fun s => (f s, s)⟩

/-- Continue only if `c` holds of the state. -/
def ensure (c : σ → Bool) (e : ε) : Prog σ ε Unit :=
  ⟨fun s => (if c s then .ok () else .error e, s)⟩

/-- Rewrite the state. -/
def update (g : σ → σ) : Prog σ ε Unit := ⟨fun s => (.ok (), g s)⟩

/-- Rewrite the state and return a value. -/
def act (g : σ → α × σ) : Prog σ ε α := ⟨fun s => (.ok (g s).1, (g s).2)⟩

/-- Run `m` and hand its result, success or failure, to the program. -/
def attempt (m : Prog σ ε α) : Prog σ ε' (Except ε α) := ⟨fun s => (.ok (m.run s).1, (m.run s).2)⟩

/-- Translate the failures of `m`. -/
def mapError (f : ε → ε') (m : Prog σ ε α) : Prog σ ε' α :=
  ⟨fun s => ((m.run s).1.mapError f, (m.run s).2)⟩

/-- Run `m` if `c` holds. -/
def when (c : Bool) (m : Prog σ ε Unit) : Prog σ ε Unit := if c then m else pure ()

/-- Run `m` on a component of the state. -/
def zoom (get : τ → σ) (put : σ → τ → τ) (m : Prog σ ε α) : Prog τ ε α :=
  ⟨fun t => ((m.run (get t)).1, put (m.run (get t)).2 t)⟩

/-! ## Running a program -/

@[simp] theorem run_pure (a : α) (s : σ) : (pure a : Prog σ ε α).run s = (.ok a, s) := rfl

@[simp] theorem run_fail (e : ε) (s : σ) : (fail e : Prog σ ε α).run s = (.error e, s) := rfl

@[simp] theorem run_read (f : σ → α) (s : σ) : (read f : Prog σ ε α).run s = (.ok (f s), s) := rfl

@[simp] theorem run_check (f : σ → Except ε α) (s : σ) : (check f).run s = (f s, s) := rfl

@[simp] theorem run_ensure (c : σ → Bool) (e : ε) (s : σ) :
    (ensure c e).run s = (if c s then .ok () else .error e, s) := rfl

@[simp] theorem run_update (g : σ → σ) (s : σ) :
    (update g : Prog σ ε Unit).run s = (.ok (), g s) := rfl

@[simp] theorem run_act (g : σ → α × σ) (s : σ) :
    (act g : Prog σ ε α).run s = (.ok (g s).1, (g s).2) := rfl

@[simp] theorem run_mapError (f : ε → ε') (m : Prog σ ε α) (s : σ) :
    (mapError f m).run s = ((m.run s).1.mapError f, (m.run s).2) := rfl

@[simp] theorem run_zoom (get : τ → σ) (put : σ → τ → τ) (m : Prog σ ε α) (t : τ) :
    (zoom get put m).run t = ((m.run (get t)).1, put (m.run (get t)).2 t) := rfl

theorem run_bind (m : Prog σ ε α) (f : α → Prog σ ε β) (s : σ) :
    (m >>= f).run s =
      match m.run s with
      | (.ok a, s') => (f a).run s'
      | (.error e, s') => (.error e, s') := rfl

theorem run_bind_of_ok {m : Prog σ ε α} {f : α → Prog σ ε β} {s s' : σ} {a : α}
    (h : m.run s = (.ok a, s')) : (m >>= f).run s = (f a).run s' := by
  rw [run_bind, h]

theorem run_bind_of_error {m : Prog σ ε α} {f : α → Prog σ ε β} {s s' : σ} {e : ε}
    (h : m.run s = (.error e, s')) : (m >>= f).run s = (.error e, s') := by
  rw [run_bind, h]

@[simp] theorem run_map (f : α → β) (m : Prog σ ε α) (s : σ) :
    (f <$> m).run s = ((m.run s).1.map f, (m.run s).2) := by
  show (m >>= fun a => pure (f a)).run s = _
  rw [run_bind]
  cases m.run s with
  | mk r u => cases r <;> rfl

@[simp] theorem run_read_bind (f : σ → α) (k : α → Prog σ ε β) (s : σ) :
    (read f >>= k).run s = (k (f s)).run s := rfl

@[simp] theorem run_update_bind (g : σ → σ) (k : Unit → Prog σ ε β) (s : σ) :
    (update g >>= k).run s = (k ()).run (g s) := rfl

@[simp] theorem run_act_bind (g : σ → α × σ) (k : α → Prog σ ε β) (s : σ) :
    (act g >>= k).run s = (k (g s).1).run (g s).2 := rfl

@[simp] theorem run_attempt_bind (m : Prog σ ε α) (k : Except ε α → Prog σ ε' β) (s : σ) :
    (attempt m >>= k).run s = (k (m.run s).1).run (m.run s).2 := rfl

theorem run_check_bind {f : σ → Except ε α} {k : α → Prog σ ε β} {s : σ} {a : α}
    (h : f s = .ok a) : (check f >>= k).run s = (k a).run s :=
  run_bind_of_ok (by rw [run_check, h])

theorem run_check_bind_error {f : σ → Except ε α} {k : α → Prog σ ε β} {s : σ} {e : ε}
    (h : f s = .error e) : (check f >>= k).run s = (.error e, s) :=
  run_bind_of_error (by rw [run_check, h])

theorem run_ensure_bind {c : σ → Bool} {e : ε} {k : Unit → Prog σ ε β} {s : σ} (h : c s = true) :
    (ensure c e >>= k).run s = (k ()).run s :=
  run_bind_of_ok (by rw [run_ensure, if_pos h])

theorem run_ensure_bind_error {c : σ → Bool} {e : ε} {k : Unit → Prog σ ε β} {s : σ}
    (h : c s = false) : (ensure c e >>= k).run s = (.error e, s) :=
  run_bind_of_error (by rw [run_ensure, h]; rfl)

/-- A sequence that starts with a check fails in the state it started in, or goes on from there. -/
theorem check_bind_elim {f : σ → Except ε α} {k : α → Prog σ ε β} {s : σ}
    {P : Except ε β × σ → Prop} (herror : ∀ e, P (.error e, s))
    (h : ∀ a, f s = .ok a → P ((k a).run s)) : P ((check f >>= k).run s) := by
  cases hf : f s with
  | error e =>
      rw [run_check_bind_error hf]
      exact herror e
  | ok a =>
      rw [run_check_bind hf]
      exact h a hf

theorem ensure_bind_elim {c : σ → Bool} {e : ε} {k : Unit → Prog σ ε β} {s : σ}
    {P : Except ε β × σ → Prop} (herror : ∀ e, P (.error e, s))
    (h : c s = true → P ((k ()).run s)) : P ((ensure c e >>= k).run s) := by
  cases hc : c s with
  | false =>
      rw [run_ensure_bind_error hc]
      exact herror e
  | true =>
      rw [run_ensure_bind hc]
      exact h hc

theorem bind_bind {γ : Type} (m : Prog σ ε α) (f : α → Prog σ ε β) (g : β → Prog σ ε γ) :
    (m >>= f >>= g) = (m >>= fun a => f a >>= g) := by
  show Prog.mk _ = Prog.mk _
  refine congrArg Prog.mk (funext fun s => ?_)
  show (m >>= f >>= g).run s = (m >>= fun a => f a >>= g).run s
  rw [run_bind, run_bind, run_bind]
  rcases m.run s with ⟨e | a, t⟩
  · rfl
  · rfl

theorem snd_run_bind_pure (m : Prog σ ε α) (f : α → β) (s : σ) :
    ((m >>= fun a => pure (f a)).run s).2 = (m.run s).2 := by
  rw [run_bind]
  cases m.run s with
  | mk r u => cases r <;> rfl

/-! ## Taking a run apart -/

/-- A sequence succeeds exactly when its parts do, one after the other. -/
theorem bind_eq_ok {m : Prog σ ε α} {f : α → Prog σ ε β} {s t : σ} {b : β} :
    (m >>= f).run s = (.ok b, t) ↔ ∃ a u, m.run s = (.ok a, u) ∧ (f a).run u = (.ok b, t) := by
  rw [run_bind]
  constructor
  · intro h
    cases hm : m.run s with
    | mk r u =>
        cases r with
        | ok a => exact ⟨a, u, rfl, by simpa [hm] using h⟩
        | error e => simp [hm] at h
  · rintro ⟨a, u, hm, hf⟩
    rw [hm]
    exact hf

theorem ensure_eq_ok {c : σ → Bool} {e : ε} {u : Unit} {s t : σ} :
    (ensure c e).run s = (.ok u, t) ↔ c s = true ∧ s = t := by
  by_cases h : c s <;> simp [h]

theorem check_eq_ok {f : σ → Except ε α} {a : α} {s t : σ} :
    (check f).run s = (.ok a, t) ↔ f s = .ok a ∧ s = t := by
  rw [run_check, Prod.mk.injEq]

theorem map_eq_ok {f : α → β} {m : Prog σ ε α} {s t : σ} {b : β} :
    (f <$> m).run s = (.ok b, t) ↔ ∃ a, m.run s = (.ok a, t) ∧ f a = b := by
  rw [run_map]
  cases m.run s with
  | mk r u =>
      cases r with
      | error e => simp [Except.map]
      | ok a => simp [Except.map, and_comm]

/-! ## What every run keeps -/

/-- A preorder on states: what a run is allowed to do to them. -/
structure Frame (σ : Type) where
  /-- `rel s t`: going from `s` to `t` is allowed. -/
  rel : σ → σ → Prop
  /-- Doing nothing is allowed. -/
  refl : ∀ s, rel s s
  /-- Allowed moves compose. -/
  trans : ∀ {r s t}, rel r s → rel s t → rel r t

/-- The moves that keep an invariant. -/
def Frame.invariant (I : σ → Prop) : Frame σ where
  rel s t := I s → I t
  refl _ := id
  trans h₁ h₂ := h₂ ∘ h₁

/-- The moves that leave an observation of the state unchanged. -/
def Frame.constant (f : σ → α) : Frame σ where
  rel s t := f t = f s
  refl _ := rfl
  trans h₁ h₂ := h₂.trans h₁

/-- Every move is allowed. -/
def Frame.any : Frame σ where
  rel _ _ := True
  refl _ := trivial
  trans _ _ := trivial

/-- The moves allowed by both frames. -/
def Frame.and (F G : Frame σ) : Frame σ where
  rel s t := F.rel s t ∧ G.rel s t
  refl s := ⟨F.refl s, G.refl s⟩
  trans h₁ h₂ := ⟨F.trans h₁.1 h₂.1, G.trans h₁.2 h₂.2⟩

/-- Every run of `m`, failed or not, is a move of `F`. -/
def Keeps (F : Frame σ) (m : Prog σ ε α) : Prop := ∀ s, F.rel s (m.run s).2

/-- The run of `m` from `s`, failed or not, is a move of `F`. -/
def KeepsAt (F : Frame σ) (m : Prog σ ε α) (s : σ) : Prop := F.rel s (m.run s).2

section

variable {F : Frame σ}

theorem Keeps.pure (a : α) : Keeps F (pure a : Prog σ ε α) := fun s => F.refl s

theorem Keeps.fail (e : ε) : Keeps F (fail e : Prog σ ε α) := fun s => F.refl s

theorem Keeps.read (f : σ → α) : Keeps F (read f : Prog σ ε α) := fun s => F.refl s

theorem Keeps.check (f : σ → Except ε α) : Keeps F (check f) := fun s => F.refl s

theorem Keeps.ensure (c : σ → Bool) (e : ε) : Keeps F (ensure c e) := fun s => F.refl s

theorem Keeps.update {g : σ → σ} (h : ∀ s, F.rel s (g s)) :
    Keeps F (update g : Prog σ ε Unit) := h

theorem Keeps.act {g : σ → α × σ} (h : ∀ s, F.rel s (g s).2) :
    Keeps F (act g : Prog σ ε α) := h

theorem Keeps.bind {m : Prog σ ε α} {f : α → Prog σ ε β} (hm : Keeps F m)
    (hf : ∀ a, Keeps F (f a)) : Keeps F (m >>= f) := by
  intro s
  rw [run_bind]
  have hs := hm s
  cases h : m.run s with
  | mk r u =>
      rw [h] at hs
      cases r with
      | ok a => exact F.trans hs (hf a u)
      | error e => exact hs

/-- What follows a program starts where it ends. -/
theorem rel_bind {m : Prog σ ε α} {f : α → Prog σ ε β} (hf : ∀ a, Keeps F (f a)) (s : σ) :
    F.rel (m.run s).2 ((m >>= f).run s).2 := by
  rw [run_bind]
  cases m.run s with
  | mk r u =>
      cases r with
      | ok a => exact hf a u
      | error e => exact F.refl u

theorem Keeps.map {f : α → β} {m : Prog σ ε α} (h : Keeps F m) : Keeps F (f <$> m) := by
  intro s
  rw [run_map]
  exact h s

theorem Keeps.ite {c : Prop} [Decidable c] {m₁ m₂ : Prog σ ε α} (h₁ : c → Keeps F m₁)
    (h₂ : ¬c → Keeps F m₂) : Keeps F (if c then m₁ else m₂) := by
  by_cases h : c
  · rw [if_pos h]; exact h₁ h
  · rw [if_neg h]; exact h₂ h

theorem Keeps.when {c : Bool} {m : Prog σ ε Unit} (h : c = true → Keeps F m) :
    Keeps F (when c m) :=
  Keeps.ite h fun _ => Keeps.pure ()

theorem Keeps.attempt {m : Prog σ ε α} (h : Keeps F m) :
    Keeps F (attempt m : Prog σ ε' (Except ε α)) := h

theorem Keeps.mono {G : Frame σ} {m : Prog σ ε α} (h : Keeps F m)
    (hsub : ∀ s t, F.rel s t → G.rel s t) : Keeps G m := fun s => hsub _ _ (h s)

theorem Keeps.of_run {m : Prog σ ε α} {s t : σ} {r : Except ε α} (h : Keeps F m)
    (hrun : m.run s = (r, t)) : F.rel s t := by
  have hs := h s
  rwa [hrun] at hs

theorem Keeps.and {G : Frame σ} {m : Prog σ ε α} (h₁ : Keeps F m) (h₂ : Keeps G m) :
    Keeps (F.and G) m := fun s => ⟨h₁ s, h₂ s⟩

end

section

variable {F : Frame σ} {s : σ}

theorem KeepsAt.pure (a : α) : KeepsAt F (pure a : Prog σ ε α) s := F.refl s

/-- The second part starts where a successful first part ended. -/
theorem KeepsAt.bind {m : Prog σ ε α} {f : α → Prog σ ε β} (hm : KeepsAt F m s)
    (hf : ∀ a t, m.run s = (.ok a, t) → KeepsAt F (f a) t) : KeepsAt F (m >>= f) s := by
  unfold KeepsAt at *
  rw [run_bind]
  cases h : m.run s with
  | mk r u =>
      rw [h] at hm
      cases r with
      | ok a => exact F.trans hm (hf a u h)
      | error e => exact hm

theorem KeepsAt.read_bind {f : σ → α} {k : α → Prog σ ε β} (h : KeepsAt F (k (f s)) s) :
    KeepsAt F (read f >>= k) s := h

theorem KeepsAt.update_bind {g : σ → σ} {k : Unit → Prog σ ε β} (hg : F.rel s (g s))
    (h : KeepsAt F (k ()) (g s)) : KeepsAt F (update g >>= k) s := F.trans hg h

theorem KeepsAt.check_bind {f : σ → Except ε α} {k : α → Prog σ ε β}
    (h : ∀ a, f s = .ok a → KeepsAt F (k a) s) : KeepsAt F (check f >>= k) s :=
  .bind (F.refl s) fun a t hrun => by
    obtain ⟨hf, rfl⟩ := check_eq_ok.mp hrun
    exact h a hf

theorem KeepsAt.ensure_bind {c : σ → Bool} {e : ε} {k : Unit → Prog σ ε β}
    (h : c s = true → KeepsAt F (k ()) s) : KeepsAt F (ensure c e >>= k) s :=
  .bind (F.refl s) fun a t hrun => by
    obtain ⟨hc, rfl⟩ := ensure_eq_ok.mp hrun
    exact h hc

/-- The first part stays within a frame `G`; the second may assume so. -/
theorem Keeps.bind_at {G : Frame σ} {m : Prog σ ε α} {f : α → Prog σ ε β} (hF : Keeps F m)
    (hG : Keeps G m) (hf : ∀ a t, G.rel s t → KeepsAt F (f a) t) : KeepsAt F (m >>= f) s :=
  .bind (hF s) fun a t hrun => hf a t (by have hg := hG s; rwa [hrun] at hg)

end

/-- Every failed run of `m` is a move of `F`. -/
def KeepsOnFail (F : Frame σ) (m : Prog σ ε α) : Prop :=
  ∀ s t e, m.run s = (.error e, t) → F.rel s t

section

variable {F : Frame σ}

theorem Keeps.onFail {m : Prog σ ε α} (h : Keeps F m) : KeepsOnFail F m :=
  fun _ _ _ hrun => h.of_run hrun

/-- Only the last part may leave the frame, and only when it succeeds. -/
theorem KeepsOnFail.bind {m : Prog σ ε α} {f : α → Prog σ ε β} (hm : Keeps F m)
    (hf : ∀ a, KeepsOnFail F (f a)) : KeepsOnFail F (m >>= f) := by
  intro s t e hrun
  rw [run_bind] at hrun
  cases h : m.run s with
  | mk r u =>
      rw [h] at hrun
      cases r with
      | ok a => exact F.trans (hm.of_run h) (hf a u t e hrun)
      | error e' =>
          cases hrun
          exact hm.of_run h

theorem KeepsOnFail.of_total {m : Prog σ ε α} (h : ∀ s, ∃ a t, m.run s = (.ok a, t)) :
    KeepsOnFail F m := by
  intro s t e hrun
  obtain ⟨a, u, hok⟩ := h s
  rw [hok] at hrun
  cases hrun

/-- A last part that never fails may do anything. -/
theorem KeepsOnFail.bind_total {m : Prog σ ε α} {f : α → Prog σ ε β} (hm : KeepsOnFail F m)
    (hf : ∀ a s, ∃ b t, (f a).run s = (.ok b, t)) : KeepsOnFail F (m >>= f) := by
  intro s t e hrun
  rw [run_bind] at hrun
  cases h : m.run s with
  | mk r u =>
      rw [h] at hrun
      cases r with
      | ok a => exact absurd hrun (by obtain ⟨b, v, hok⟩ := hf a u; simp [hok])
      | error e' =>
          cases hrun
          exact hm s _ _ h

theorem KeepsOnFail.map {f : α → β} {m : Prog σ ε α} (h : KeepsOnFail F m) :
    KeepsOnFail F (f <$> m) := by
  intro s t e hrun
  rw [run_map] at hrun
  cases hm : m.run s with
  | mk r u =>
      rw [hm] at hrun
      cases r with
      | ok a => cases hrun
      | error e' =>
          cases hrun
          exact h s _ _ hm

end

/-- No run of `m` fails with `e`. -/
def Avoids (e : ε) (m : Prog σ ε α) : Prop := ∀ s, (m.run s).1 ≠ .error e

section

variable {e : ε}

theorem Avoids.pure (a : α) : Avoids e (pure a : Prog σ ε α) := fun _ h => by cases h

theorem Avoids.read (f : σ → α) : Avoids e (read f : Prog σ ε α) := fun _ h => by cases h

theorem Avoids.check {f : σ → Except ε α} (h : ∀ s, f s ≠ .error e) : Avoids e (check f) := h

theorem Avoids.ensure {c : σ → Bool} {e' : ε} (h : e' ≠ e) :
    Avoids e (ensure c e' : Prog σ ε Unit) := by
  intro s hs
  rw [run_ensure] at hs
  by_cases hc : c s = true
  · rw [if_pos hc] at hs
    cases hs
  · rw [if_neg hc] at hs
    exact h (Except.error.inj hs)

theorem Avoids.update (g : σ → σ) : Avoids e (update g : Prog σ ε Unit) := fun _ h => by cases h

theorem Avoids.act (g : σ → α × σ) : Avoids e (act g : Prog σ ε α) := fun _ h => by cases h

theorem Avoids.mapError {m : Prog σ ε' α} {f : ε' → ε} (h : ∀ e', f e' ≠ e) :
    Avoids e (mapError f m) := by
  intro s hs
  rw [run_mapError] at hs
  cases hm : (m.run s).1 with
  | error e' =>
      rw [hm] at hs
      exact h e' (Except.error.inj hs)
  | ok a =>
      rw [hm] at hs
      cases hs

theorem Avoids.bind {m : Prog σ ε α} {f : α → Prog σ ε β} (hm : Avoids e m)
    (hf : ∀ a, Avoids e (f a)) : Avoids e (m >>= f) := by
  intro s hs
  rw [run_bind] at hs
  have hms := hm s
  cases h : m.run s with
  | mk r u =>
      rw [h] at hs hms
      cases r with
      | ok a => exact hf a u hs
      | error e' => exact hms (congrArg Except.error (Except.error.inj hs))

theorem Avoids.ite {c : Prop} [Decidable c] {m₁ m₂ : Prog σ ε α} (h₁ : Avoids e m₁)
    (h₂ : Avoids e m₂) : Avoids e (if c then m₁ else m₂) := by
  by_cases h : c
  · rw [if_pos h]; exact h₁
  · rw [if_neg h]; exact h₂

end

/-! ## Two runs side by side -/

/-- Started in related states, `m` returns the same result and leaves related states. -/
def Coupled (R : σ → σ → Prop) (m : Prog σ ε α) : Prop :=
  ∀ s t, R s t → (m.run s).1 = (m.run t).1 ∧ R (m.run s).2 (m.run t).2

section

variable {R : σ → σ → Prop}

theorem Coupled.pure (a : α) : Coupled R (pure a : Prog σ ε α) := fun _ _ h => ⟨rfl, h⟩

theorem Coupled.fail (e : ε) : Coupled R (fail e : Prog σ ε α) := fun _ _ h => ⟨rfl, h⟩

theorem Coupled.read {f : σ → α} (hf : ∀ s t, R s t → f s = f t) :
    Coupled R (read f : Prog σ ε α) := fun s t h => ⟨congrArg Except.ok (hf s t h), h⟩

theorem Coupled.check {f : σ → Except ε α} (hf : ∀ s t, R s t → f s = f t) :
    Coupled R (check f) := fun s t h => ⟨hf s t h, h⟩

theorem Coupled.ensure {c : σ → Bool} {e : ε} (hc : ∀ s t, R s t → c s = c t) :
    Coupled R (ensure c e) := fun s t h => by
  refine ⟨?_, h⟩
  simp only [run_ensure, hc s t h]

theorem Coupled.update {g : σ → σ} (hg : ∀ s t, R s t → R (g s) (g t)) :
    Coupled R (update g : Prog σ ε Unit) := fun s t h => ⟨rfl, hg s t h⟩

theorem Coupled.act {g : σ → α × σ}
    (hg : ∀ s t, R s t → (g s).1 = (g t).1 ∧ R (g s).2 (g t).2) :
    Coupled R (act g : Prog σ ε α) := fun s t h =>
  ⟨congrArg Except.ok (hg s t h).1, (hg s t h).2⟩

theorem Coupled.bind {m : Prog σ ε α} {f : α → Prog σ ε β} (hm : Coupled R m)
    (hf : ∀ a, Coupled R (f a)) : Coupled R (m >>= f) := by
  intro s t h
  obtain ⟨hres, hst⟩ := hm s t h
  rw [run_bind, run_bind]
  cases hs : m.run s with
  | mk r u =>
      cases ht : m.run t with
      | mk r' u' =>
          rw [hs, ht] at hres hst
          obtain rfl : r = r' := hres
          cases r with
          | ok a => exact hf a u u' hst
          | error e => exact ⟨rfl, hst⟩

theorem Coupled.map {f : α → β} {m : Prog σ ε α} (h : Coupled R m) : Coupled R (f <$> m) := by
  intro s t hst
  rw [run_map, run_map]
  exact ⟨congrArg (Except.map f) (h s t hst).1, (h s t hst).2⟩

theorem Coupled.ite {c : Prop} [Decidable c] {m₁ m₂ : Prog σ ε α} (h₁ : c → Coupled R m₁)
    (h₂ : ¬c → Coupled R m₂) : Coupled R (if c then m₁ else m₂) := by
  by_cases h : c
  · rw [if_pos h]; exact h₁ h
  · rw [if_neg h]; exact h₂ h

theorem Coupled.when {c : Bool} {m : Prog σ ε Unit} (h : c = true → Coupled R m) :
    Coupled R (when c m) :=
  Coupled.ite h fun _ => Coupled.pure ()

theorem Coupled.attempt {m : Prog σ ε α} (h : Coupled R m) :
    Coupled R (attempt m : Prog σ ε' (Except ε α)) := fun s t hst =>
  ⟨congrArg Except.ok (h s t hst).1, (h s t hst).2⟩

/-- The run of `m` from these two states returns the same result and leaves related states. -/
def CoupledAt (R : σ → σ → Prop) (m : Prog σ ε α) (s t : σ) : Prop :=
  (m.run s).1 = (m.run t).1 ∧ R (m.run s).2 (m.run t).2

/-- The second part starts where both first parts ended. -/
theorem CoupledAt.bind {m : Prog σ ε α} {f : α → Prog σ ε β} {s t : σ} (hm : CoupledAt R m s t)
    (hf : ∀ a u v, m.run s = (.ok a, u) → m.run t = (.ok a, v) → R u v → CoupledAt R (f a) u v) :
    CoupledAt R (m >>= f) s t := by
  obtain ⟨hres, hst⟩ := hm
  unfold CoupledAt
  rw [run_bind, run_bind]
  cases hs : m.run s with
  | mk r u =>
      cases ht : m.run t with
      | mk r' v =>
          rw [hs, ht] at hres hst
          obtain rfl : r = r' := hres
          cases r with
          | ok a => exact hf a u v hs ht hst
          | error e => exact ⟨rfl, hst⟩

theorem CoupledAt.read_bind {f : σ → α} {k : α → Prog σ ε β} {s t : σ} (hf : f s = f t)
    (h : CoupledAt R (k (f s)) s t) : CoupledAt R (read f >>= k) s t := by
  unfold CoupledAt at *
  rwa [run_read_bind, run_read_bind, ← hf]

theorem CoupledAt.check_bind {f : σ → Except ε α} {k : α → Prog σ ε β} {s t : σ} (hf : f s = f t)
    (hst : R s t) (h : ∀ a, f s = .ok a → CoupledAt R (k a) s t) :
    CoupledAt R (check f >>= k) s t := by
  refine .bind ⟨hf, hst⟩ fun a u v hu hv _ => ?_
  obtain ⟨ha, rfl⟩ := check_eq_ok.mp hu
  obtain ⟨-, rfl⟩ := check_eq_ok.mp hv
  exact h a ha

theorem CoupledAt.map {f : α → β} {m : Prog σ ε α} {s t : σ} (h : CoupledAt R m s t) :
    CoupledAt R (f <$> m) s t := by
  unfold CoupledAt
  rw [run_map, run_map]
  exact ⟨congrArg (Except.map f) h.1, h.2⟩

end

end Prog
