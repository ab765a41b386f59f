import OpenKey.Transport.Iso7816

/-!
# What the router hands to the applets

The router is to be transparent: while an applet is selected, a command that is neither a SELECT by
AID nor a GET RESPONSE reaches it. The applets are made to record the commands they get, next to
the card, and the record of a run is compared with the one that transparency demands.
-/

namespace OpenKey

open Prog (Keeps)

set_option autoImplicit false

/-- The commands that applets were given, each with the number of its applet. -/
abbrev CommandLog := List (Nat × Apdu)

/-- An applet that records the commands it is given. -/
def CardApplet.recorded {γ : Type} (idx : Nat) (applet : CardApplet γ) :
    CardApplet (γ × CommandLog) where
  aid := applet.aid
  select := Prog.zoom Prod.fst (fun card c => (card, c.2)) applet.select
  selectResponse := Prog.zoom Prod.fst (fun card c => (card, c.2)) applet.selectResponse
  process apdu := do
    Prog.update fun c => (c.1, c.2 ++ [(idx, apdu)])
    Prog.zoom Prod.fst (fun card c => (card, c.2)) (applet.process apdu)

namespace CardRouter

variable {γ : Type} (applets : List (CardApplet γ))

/-- The applets, recording. -/
def recording : List (CardApplet (γ × CommandLog)) :=
  applets.mapIdx fun idx applet => applet.recorded idx

/-- The record. -/
def log (r : CardRouter (γ × CommandLog)) : CommandLog := r.card.2

/-- The router after a command. -/
def next (r : CardRouter (γ × CommandLog)) (raw : Bytes) : CardRouter (γ × CommandLog) :=
  ((process (recording applets) raw).run r).2

/-- The selection is of an applet that is registered. -/
def Registered (r : CardRouter (γ × CommandLog)) : Prop :=
  ∀ idx, r.selected = some idx → idx < applets.length

/-! ## One command -/

/-- The moves that record nothing and keep the selection registered. -/
def unrecorded : Prog.Frame (CardRouter (γ × CommandLog)) :=
  (Prog.Frame.constant log).and (Prog.Frame.invariant (Registered applets))

theorem unrecorded_of_eq {r s : CardRouter (γ × CommandLog)} (hlog : log s = log r)
    (hselected : s.selected = r.selected) : (unrecorded applets).rel r s := by
  refine ⟨hlog, fun hreg idx hidx => hreg idx ?_⟩
  rw [← hselected]
  exact hidx

theorem keeps_onCard {α : Type} {m : Prog γ Fault α} : Keeps (unrecorded applets)
    (onCard (Prog.zoom Prod.fst (fun card (c : γ × CommandLog) => (card, c.2)) m)) :=
  fun _ => unrecorded_of_eq applets rfl rfl

theorem keeps_setChain (chain : Option ChainState) : Keeps (unrecorded applets)
    (Prog.update fun r => { r with chain := chain } : Prog _ Fault Unit) :=
  fun _ => unrecorded_of_eq applets rfl rfl

theorem keeps_deliver (response : ResponseData) (le : Option Nat) :
    Keeps (unrecorded applets) (deliver response le) :=
  .ite (fun _ => .pure _) fun _ => .ite (fun _ => .pure _) fun _ =>
    (keeps_setChain applets _).bind fun _ => .pure _

theorem keeps_serveGetResponse (le : Option Nat) :
    Keeps (unrecorded applets) (serveGetResponse le) := by
  have htake : Keeps (unrecorded applets)
      (Prog.act fun r => (r.chain, { r with chain := none }) : Prog _ Fault _) :=
    fun _ => unrecorded_of_eq applets rfl rfl
  refine htake.bind fun chain => ?_
  cases chain with
  | none => exact .pure _
  | some chain =>
      exact .ite (fun _ => .pure _) fun _ =>
        (keeps_setChain applets _).bind fun _ => .pure _

theorem getElem?_recording (idx : Nat) :
    (recording applets)[idx]? = (applets[idx]?).map fun applet => applet.recorded idx :=
  List.getElem?_mapIdx

theorem keeps_handleSelect (apdu : Apdu) :
    Keeps (unrecorded applets) (handleSelect (recording applets) apdu) := by
  unfold handleSelect
  refine .ite (fun _ => .pure _) fun _ => ?_
  split
  · exact .pure _
  · next idx _ =>
      rw [getElem?_recording]
      cases happlet : applets[idx]? with
      | none => exact .fail _
      | some applet =>
          refine (keeps_onCard applets).bind fun result => ?_
          rcases result with sw | _
          · exact .pure _
          · have hmove : ∀ r : CardRouter (γ × CommandLog),
                (unrecorded applets).rel r { r with selected := some idx } := by
              refine fun r => ⟨rfl, fun _ j hj => ?_⟩
              cases hj
              exact (List.getElem?_eq_some_iff.mp happlet).1
            refine (Keeps.update hmove).bind fun _ => (keeps_onCard applets).bind fun data => ?_
            cases data <;> exact .pure _

/-- What transparency demands of a command: that the selected applet gets it. -/
def demanded (r : CardRouter (γ × CommandLog)) (raw : Bytes) : CommandLog :=
  match Apdu.parse raw, r.selected with
  | .ok apdu, some idx =>
      if apdu.ins = 0xC0 ∨ apdu.ins = 0xA4 ∧ apdu.p1 = 0x04 then [] else [(idx, apdu)]
  | _, _ => []

/-- A command that the router takes for a SELECT although it is none by AID. -/
def Swallowed (r : CardRouter (γ × CommandLog)) (raw : Bytes) : Prop :=
  ∃ apdu, Apdu.parse raw = .ok apdu ∧ r.selected.isSome = true ∧ apdu.ins = 0xA4 ∧ apdu.p1 ≠ 0x04

theorem keeps_route {r : CardRouter (γ × CommandLog)} (apdu : Apdu) {idx : Nat}
    (hidx : r.selected = some idx) (hreg : Registered applets r) :
    log ((route (recording applets) apdu).run r).2 = log r ++ [(idx, apdu)] ∧
      Registered applets ((route (recording applets) apdu).run r).2 := by
  obtain ⟨applet, happlet⟩ : ∃ applet, applets[idx]? = some applet :=
    ⟨_, List.getElem?_eq_getElem (hreg idx hidx)⟩
  have hfound : (r.selected.bind fun idx => (recording applets)[idx]?) =
      some (applet.recorded idx) := by
    rw [hidx, Option.bind_some, getElem?_recording, happlet]
    rfl
  unfold route
  rw [Prog.run_read_bind]
  simp only [hfound]
  -- the applet records the command, and nothing after that records
  have hcall : log ((onCard ((applet.recorded idx).process apdu)).run r).2 =
    log r ++ [(idx, apdu)] ∧
      Registered applets ((onCard ((applet.recorded idx).process apdu)).run r).2 := ⟨rfl, hreg⟩
  rw [Prog.run_bind]
  rcases hrun : (onCard ((applet.recorded idx).process apdu)).run r with ⟨fault | result, t⟩
  all_goals rw [hrun] at hcall
  · exact hcall
  · have hdeliver := fun response => keeps_deliver applets response apdu.le t
    rcases result with sw | response
    · exact ⟨Eq.trans (hdeliver _).1 hcall.1, (hdeliver _).2 hcall.2⟩
    · exact ⟨Eq.trans (hdeliver _).1 hcall.1, (hdeliver _).2 hcall.2⟩

theorem route_unselected {r : CardRouter (γ × CommandLog)} {apdu : Apdu}
    (hnone : r.selected = none) :
    (route (recording applets) apdu).run r = (.ok (.withSw [] swInsNotSupported), r) := by
  unfold route
  rw [Prog.run_read_bind]
  simp only [hnone, Option.bind_none]
  rfl

/-- A command that the router keeps to itself is not recorded. -/
theorem unrecorded_next {raw : Bytes} {apdu : Apdu} (hparse : Apdu.parse raw = .ok apdu)
    (hins : apdu.ins = 0xC0 ∨ apdu.ins = 0xA4) (r : CardRouter (γ × CommandLog)) :
    (unrecorded applets).rel r (next applets r raw) := by
  unfold next process
  simp only [hparse]
  by_cases hget : apdu.ins = 0xC0
  · rw [if_pos hget]
    exact keeps_serveGetResponse applets apdu.le r
  · rw [if_neg hget, Prog.run_update_bind, if_pos (hins.resolve_left hget)]
    exact (unrecorded applets).trans (s := { r with chain := none })
      (unrecorded_of_eq applets rfl rfl) (keeps_handleSelect applets apdu _)

/-- The commands for an applet. -/
theorem next_routed {raw : Bytes} {apdu : Apdu} (hparse : Apdu.parse raw = .ok apdu)
    (hget : apdu.ins ≠ 0xC0) (hselect : apdu.ins ≠ 0xA4) (r : CardRouter (γ × CommandLog)) :
    next applets r raw = ((route (recording applets) apdu).run { r with chain := none }).2 := by
  unfold next process
  simp only [hparse]
  rw [if_neg hget, Prog.run_update_bind, if_neg hselect]

theorem not_swallowed {r : CardRouter (γ × CommandLog)} {raw : Bytes} {apdu : Apdu}
    (hparse : Apdu.parse raw = .ok apdu)
    (h : apdu.ins ≠ 0xA4 ∨ apdu.p1 = 0x04 ∨ r.selected = none) : ¬Swallowed r raw := by
  rintro ⟨a, ha, hsome, hins, hp1⟩
  rw [hparse] at ha
  obtain rfl := Except.ok.inj ha
  obtain h | h | h := h
  · exact h hins
  · exact hp1 h
  · rw [h] at hsome
    cases hsome

theorem demanded_nil {r : CardRouter (γ × CommandLog)} {raw : Bytes} {apdu : Apdu}
    (hparse : Apdu.parse raw = .ok apdu)
    (h : apdu.ins = 0xC0 ∨ (apdu.ins = 0xA4 ∧ apdu.p1 = 0x04) ∨ r.selected = none) :
    demanded r raw = [] := by
  unfold demanded
  rw [hparse]
  cases hsel : r.selected with
  | none => rfl
  | some idx =>
      rw [hsel] at h
      simp only
      obtain h | h | h := h
      · rw [if_pos (.inl h)]
      · rw [if_pos (.inr h)]
      · cases h

theorem demanded_one {r : CardRouter (γ × CommandLog)} {raw : Bytes} {apdu : Apdu} {idx : Nat}
    (hparse : Apdu.parse raw = .ok apdu) (hsel : r.selected = some idx) (hget : apdu.ins ≠ 0xC0)
    (h : apdu.ins ≠ 0xA4 ∨ apdu.p1 ≠ 0x04) : demanded r raw = [(idx, apdu)] := by
  unfold demanded
  rw [hparse, hsel]
  simp only
  rw [if_neg]
  rintro (hc0 | ⟨ha4, hp1⟩)
  · exact hget hc0
  · exact h.elim (fun hne => hne ha4) fun hne => hne hp1

/-- A command is recorded as demanded, or it is swallowed and not recorded. -/
theorem next_log {r : CardRouter (γ × CommandLog)} (hreg : Registered applets r) (raw : Bytes) :
    Registered applets (next applets r raw) ∧
      (¬Swallowed r raw ∧ log (next applets r raw) = log r ++ demanded r raw ∨
        Swallowed r raw ∧ log (next applets r raw) = log r ∧ (demanded r raw).length = 1) := by
  cases hparse : Apdu.parse raw with
  | error e =>
      have hnext : next applets r raw = r := by
        unfold next process
        rw [hparse]
        rfl
      have hnone : demanded r raw = [] := by
        unfold demanded
        rw [hparse]
      rw [hnext, hnone, List.append_nil]
      refine ⟨hreg, .inl ⟨?_, rfl⟩⟩
      rintro ⟨apdu, happdu, -⟩
      rw [hparse] at happdu
      cases happdu
  | ok apdu =>
      by_cases hkept : apdu.ins = 0xC0 ∨ apdu.ins = 0xA4
      · obtain ⟨hlog, hregistered⟩ := unrecorded_next applets hparse hkept r
        have hlog : log (next applets r raw) = log r := hlog
        refine ⟨hregistered hreg, ?_⟩
        rw [hlog]
        by_cases hexempt : apdu.ins = 0xC0 ∨ (apdu.ins = 0xA4 ∧ apdu.p1 = 0x04) ∨ r.selected = none
        · rw [demanded_nil hparse hexempt, List.append_nil]
          refine .inl ⟨not_swallowed hparse ?_, rfl⟩
          obtain hget | ⟨-, hp1⟩ | hnone := hexempt
          · rw [hget]
            exact .inl (by decide)
          · exact .inr (.inl hp1)
          · exact .inr (.inr hnone)
        · obtain ⟨hget, hp1, hsome⟩ := not_or.mp hexempt |>.imp id not_or.mp
          have hselect := hkept.resolve_left hget
          have hne : apdu.p1 ≠ 0x04 := fun h => hp1 ⟨hselect, h⟩
          obtain ⟨idx, hsel⟩ := Option.ne_none_iff_exists'.mp hsome
          refine .inr ⟨⟨apdu, hparse, by rw [hsel]; rfl, hselect, hne⟩, rfl, ?_⟩
          rw [demanded_one hparse hsel hget (.inr hne)]
          rfl
      · obtain ⟨hget, hselect⟩ := not_or.mp hkept
        rw [next_routed applets hparse hget hselect]
        obtain hsel | ⟨idx, hsel⟩ := Option.eq_none_or_eq_some r.selected
        · rw [route_unselected applets (r := { r with chain := none }) hsel,
            demanded_nil hparse (.inr (.inr hsel)), List.append_nil]
          exact ⟨hreg, .inl ⟨not_swallowed hparse (.inl hselect), rfl⟩⟩
        · rw [demanded_one hparse hsel hget (.inl hselect)]
          obtain ⟨hlog, hregistered⟩ :=
            keeps_route applets (r := { r with chain := none }) apdu hsel hreg
          exact ⟨hregistered, .inl ⟨not_swallowed hparse (.inl hselect), hlog⟩⟩

/-! ## Runs -/

/-- The router after commands. -/
def runAll : CardRouter (γ × CommandLog) → List Bytes → CardRouter (γ × CommandLog)
  | r, [] => r
  | r, raw :: rest => runAll (next applets r raw) rest

/-- What transparency demands of commands. -/
def demandedAll : CardRouter (γ × CommandLog) → List Bytes → CommandLog
  | _, [] => []
  | r, raw :: rest => demanded r raw ++ demandedAll (next applets r raw) rest

/-- No command is swallowed. -/
def Clear : CardRouter (γ × CommandLog) → List Bytes → Prop
  | _, [] => True
  | r, raw :: rest => ¬Swallowed r raw ∧ Clear (next applets r raw) rest

/-- Commands are recorded as demanded, or the record falls short. -/
theorem runAll_log (raws : List Bytes) : ∀ {r : CardRouter (γ × CommandLog)}, Registered applets r →
    (Clear applets r raws ∧ log (runAll applets r raws) = log r ++ demandedAll applets r raws) ∨
      (¬Clear applets r raws ∧ (log (runAll applets r raws)).length <
        (log r).length + (demandedAll applets r raws).length) := by
  induction raws with
  | nil => exact fun _ => .inl ⟨trivial, (List.append_nil _).symm⟩
  | cons raw rest ih =>
      intro r hreg
      obtain ⟨hnext, ⟨hclear, hlog⟩ | ⟨hswallowed, hlog, hone⟩⟩ := next_log applets hreg raw
      · obtain ⟨hrest, hall⟩ | ⟨hrest, hshort⟩ := ih hnext
        · refine .inl ⟨⟨hclear, hrest⟩, ?_⟩
          rw [runAll, hall, hlog, demandedAll, List.append_assoc]
        · refine .inr ⟨fun h => hrest h.2, ?_⟩
          rw [hlog, List.length_append] at hshort
          rw [runAll, demandedAll, List.length_append]
          omega
      · refine .inr ⟨fun h => h.1 hswallowed, ?_⟩
        have hle : (log (runAll applets (next applets r raw) rest)).length ≤
            (log (next applets r raw)).length +
              (demandedAll applets (next applets r raw) rest).length := by
          obtain ⟨-, hall⟩ | ⟨-, hshort⟩ := ih hnext
          · rw [hall, List.length_append]
          · exact Nat.le_of_lt hshort
        rw [hlog] at hle
        rw [runAll, demandedAll, List.length_append, hone]
        omega

/-- The router is transparent in a run exactly when it swallows no command. -/
theorem transparent_iff {r : CardRouter (γ × CommandLog)} (hreg : Registered applets r)
    (raws : List Bytes) :
    log (runAll applets r raws) = log r ++ demandedAll applets r raws ↔ Clear applets r raws := by
  obtain ⟨hclear, hlog⟩ | ⟨hnot, hshort⟩ := runAll_log applets raws hreg
  · exact ⟨fun _ => hclear, fun _ => hlog⟩
  · refine ⟨fun hlog => ?_, fun hclear => absurd hclear hnot⟩
    rw [hlog, List.length_append] at hshort
    exact absurd hshort (Nat.lt_irrefl _)

end CardRouter

end OpenKey
