import OpenKey.Device.AppletRuns
import OpenKey.Device.OpenPgpPasswords
import OpenKey.Device.PivPin
import OpenKey.Device.PowerCycle
import OpenKey.Library.Simulation

/-!
# The card as four cells

What the card is for: each applet has a state that it works on, and a state that it has put away.

**A cell** (`Cell`). Loading does nothing, and persisting puts the state away. There is no storage,
no cipher and no format.

**Refinement** (`card_refines_cells`). Over a storage that does not fail, and with an AEAD that
seals every state, the router in front of the four applets answers every sequence of bytes and
reboots as the router in front of four cells does. So no host can tell that the states are
encrypted, that they are loaded when they are first needed, or that the applets share one storage.
-/

namespace OpenKey

open Prog (Keeps Simulates)

set_option autoImplicit false

/-! ## Cells -/

/-- An applet in its cell: the state it works on, the state it has put away, and its session. -/
structure CellSeat (S V : Type) where
  state : S
  kept : S
  session : V

/-- A cell, with the draws still to come. -/
structure Cell (S V : Type) extends CellSeat S V where
  rng : Nat → Entropy

namespace Cell

variable {S V : Type}

/-- What the operations of a command do to a cell. -/
def answer : (op : AppletOp S V) → Prog (Cell S V) Fault op.Answer
  | .inspect => Prog.read fun c => ⟨some c.state, c.session⟩
  | .setState state => Prog.update fun c => { c with state := state }
  | .modifySession change => Prog.update fun c => { c with session := change c.session }
  | .draw => Prog.act fun c => (c.rng 0, { c with rng := fun n => c.rng (n + 1) })
  | .ensureLoaded => pure (.ok ())
  | .persistState => Prog.act fun c =>
      (.ok (), { c with kept := c.state, rng := fun n => c.rng (n + 1) })

/-- A command over a cell. -/
def perform {α : Type} (command : Command S V α) : Prog (Cell S V) Fault α :=
  command.perform answer

/-- The result of a command over a cell, and the cell after it. -/
def run {α : Type} (command : Command S V α) (c : Cell S V) : Except Fault α × Cell S V :=
  (perform command).run c

/-! ## Commands over a cell -/

section

open Command

variable {α γ : Type} (c : Cell S V)

@[simp] theorem run_pure (a : α) : run (pure a : Command S V α) c = (.ok a, c) := rfl

@[simp] theorem run_inspect_bind (f : Memory S V → Command S V γ) :
    run (inspect >>= f) c = run (f ⟨some c.state, c.session⟩) c := rfl

@[simp] theorem run_session_bind (f : V → Command S V γ) :
    run (session >>= f) c = run (f c.session) c := rfl

@[simp] theorem run_draw_bind (f : Entropy → Command S V γ) :
    run (draw >>= f) c = run (f (c.rng 0)) { c with rng := fun n => c.rng (n + 1) } := rfl

@[simp] theorem run_setState_bind (state : S) (f : Unit → Command S V γ) :
    run (setState state >>= f) c = run (f ()) { c with state := state } := rfl

@[simp] theorem run_modifySession_bind (change : V → V) (f : Unit → Command S V γ) :
    run (modifySession change >>= f) c = run (f ()) { c with session := change c.session } := rfl

@[simp] theorem run_ensureLoaded_bind (f : Unit → Command S V γ) :
    run (ensureLoaded >>= f) c = run (f ()) c := rfl

@[simp] theorem run_tryLoad_bind (f : Except UInt16 Unit → Command S V γ) :
    run (tryLoad >>= f) c = run (f (.ok ())) c := rfl

@[simp] theorem run_loadedState_bind (f : S → Command S V γ) :
    run (loadedState >>= f) c = run (f c.state) c := rfl

@[simp] theorem run_stateMut_bind (f : S → Command S V γ) :
    run (stateMut >>= f) c = run (f c.state) c := rfl

@[simp] theorem run_persistState_bind (f : Unit → Command S V γ) :
    run (persistState >>= f) c =
      run (f ()) { c with kept := c.state, rng := fun n => c.rng (n + 1) } := rfl

@[simp] theorem run_persistState : run (persistState : Command S V Unit) c =
    (.ok (), { c with kept := c.state, rng := fun n => c.rng (n + 1) }) := rfl

theorem run_require_bind (b : Bool) (sw : UInt16) (f : Unit → Command S V γ) :
    run (require b sw >>= f) c = if b then run (f ()) c else (.error (.status sw), c) := by
  cases b with
  | false => rfl
  | true => rfl

theorem run_orStatus_bind (value : Except UInt16 α) (f : α → Command S V γ) :
    run (orStatus value >>= f) c = match value with
      | .ok a => run (f a) c
      | .error sw => (.error (.status sw), c) := by
  cases value with
  | error sw => rfl
  | ok a => rfl

theorem run_orFault_bind (value : Except Fault α) (f : α → Command S V γ) :
    run (orFault value >>= f) c = match value with
      | .ok a => run (f a) c
      | .error fault => (.error fault, c) := by
  cases value with
  | error fault => rfl
  | ok a => rfl

theorem run_orRefuse_bind (value : Option α) (sw : UInt16) (f : α → Command S V γ) :
    run (orRefuse value sw >>= f) c = match value with
      | some a => run (f a) c
      | none => (.error (.status sw), c) := by
  cases value with
  | none => rfl
  | some a => rfl

/-- No operation of a cell fails, so the result of a command can be looked at. -/
theorem run_attempt_bind (m : Command S V α) (f : Except Fault α → Command S V γ) :
    run (m.attempt >>= f) c = run (f (run m c).1) (run m c).2 := by
  refine Script.run_attempt_bind _ (I := fun _ => True) (fun op c _ => ?_) m f trivial
  cases op with
  | inspect => exact ⟨_, _, rfl, trivial⟩
  | setState state => exact ⟨_, _, rfl, trivial⟩
  | modifySession change => exact ⟨_, _, rfl, trivial⟩
  | draw => exact ⟨_, _, rfl, trivial⟩
  | ensureLoaded => exact ⟨_, _, rfl, trivial⟩
  | persistState => exact ⟨_, _, rfl, trivial⟩

/-- One command after the other. -/
theorem run_bind (m : Command S V α) (f : α → Command S V γ) :
    run (m >>= f) c = match run m c with
      | (.ok a, d) => run (f a) d
      | (.error fault, d) => (.error fault, d) := by
  have hbind := Script.run_perform_bind answer m f c
  rw [Prog.run_bind] at hbind
  rw [run, run, perform, perform, hbind]
  rcases (Script.perform answer m).run c with ⟨fault | a, d⟩
  · rfl
  · rfl

end

end Cell

/-! ## An applet on its storage is a cell -/

namespace Host

variable {β S V : Type} [StorageBackend β] [LawfulBackend β]

/-- The applet has the state of the cell in memory, and the state put away on the medium. -/
structure Holds (crypto : AppletCrypto) (format : AppletFormat S) (h : Host β S V)
    (c : Cell S V) : Prop where
  durable : h.storage.Durable
  memory : h.memory = ⟨some c.state, c.session⟩
  stored : storedState crypto format h.storage = some (c.kept, false)
  rng : h.rng = c.rng

section

variable {crypto : AppletCrypto} {format : AppletFormat S} (haead : AeadSound crypto.prims)
  (htotal : AeadTotal crypto.prims)
  (hlength : ∀ state, (format.serialize state).length < 2 ^ 36)

include htotal hlength in
/-- A storage that does not fail takes the state in memory. -/
theorem run_persistState_lawful {h : Host β S V} {state : S} (hmem : h.memory.state = some state) :
    ∃ blob, sealState crypto format state (h.rng 0) = .ok blob ∧
      (persistState crypto format).run h = (.ok (), { h with
        storage := StorageEngine.afterStore format.storageKey blob h.storage
        rng := fun n => h.rng (n + 1)
        saved := some state }) := by
  have hnonce : ((h.rng 0).bytes 12).length = 12 := Entropy.length_bytes _ 12
  obtain ⟨ciphertext, hseal⟩ := Option.isSome_iff_exists.mp
    (htotal.seal_isSome crypto.length_key hnonce (hlength state))
  have hblob : sealState crypto format state (h.rng 0) =
      .ok ((h.rng 0).bytes 12 ++ ciphertext) := by
    unfold sealState CryptoEngine.encrypt
    rw [if_neg (not_not.mpr hnonce), hseal]
  refine ⟨_, hblob, ?_⟩
  unfold persistState
  rw [Prog.run_check_bind (by rw [hmem]; rfl : _ = Except.ok state), draw, Prog.run_act_bind]
  simp only [hblob, Prog.run_bind, Prog.run_check, Prog.run_mapError, Prog.run_zoom,
    StorageEngine.run_store]
  rfl

include haead htotal hlength

/-- Persisting puts the state away. -/
theorem Holds.persist {h : Host β S V} {c : Cell S V} (hc : Holds crypto format h c) : ∃ g,
    (persistState crypto format).run h = (.ok (), g) ∧
      Holds crypto format g { c with kept := c.state, rng := fun n => c.rng (n + 1) } := by
  have hmem : h.memory.state = some c.state := congrArg Memory.state hc.memory
  obtain ⟨blob, -, hrun⟩ := run_persistState_lawful htotal hlength hmem
  refine ⟨_, hrun, ?_, hc.memory, ?_, congrArg (fun rng n => rng (n + 1)) hc.rng⟩
  · have hconf : (StorageEngine.confined format.storageKey).rel h.storage
        ((persistState crypto format).run h).2.storage :=
      keeps_persistState (StorageEngine.confined_store format.storageKey) h
    rw [hrun] at hconf
    exact (hconf hc.durable).1
  · have hcases : Persists crypto format h _ _ := persistState_cases haead hc.durable
    rw [hrun] at hcases
    cases hcases with
    | done state loaded saved stored =>
      rw [hmem] at loaded
      rw [stored, Option.some.inj loaded]

/-- The operations of an applet are those of its cell. -/
theorem simulates_answer (op : AppletOp S V) :
    Simulates (Holds (β := β) crypto format) (answer crypto format op) (Cell.answer op) := by
  cases op with
  | inspect => exact .read fun h c hc => hc.memory
  | setState state =>
    refine .update fun h c hc => ⟨hc.durable, ?_, hc.stored, hc.rng⟩
    exact congrArg (fun memory => Memory.mk (some state) memory.session) hc.memory
  | modifySession change =>
    refine .update fun h c hc => ⟨hc.durable, ?_, hc.stored, hc.rng⟩
    exact congrArg (fun memory => Memory.mk memory.state (change memory.session)) hc.memory
  | draw =>
    refine .act fun h c hc => ⟨congrFun hc.rng 0, hc.durable, hc.memory, hc.stored, ?_⟩
    exact congrArg (fun rng n => rng (n + 1)) hc.rng
  | ensureLoaded =>
    intro h c hc
    have hrun : (ensureLoaded crypto format).run h = (.ok (), h) :=
      run_ensureLoaded_of_loaded (congrArg Memory.state hc.memory)
    show ((caught (ensureLoaded crypto format)).run h).1 = _ ∧
      Holds crypto format ((caught (ensureLoaded crypto format)).run h).2 _
    rw [caught_eq_ok.mpr hrun]
    exact ⟨rfl, hc⟩
  | persistState =>
    intro h c hc
    obtain ⟨g, hrun, hg⟩ := hc.persist haead htotal hlength
    show ((caught (persistState crypto format)).run h).1 = _ ∧
      Holds crypto format ((caught (persistState crypto format)).run h).2 _
    rw [caught_eq_ok.mpr hrun]
    exact ⟨rfl, hg⟩

/-- **A command of an applet does what it does to the cell.** -/
theorem simulates_perform {α : Type} (command : Command S V α) :
    Simulates (Holds (β := β) crypto format) (perform crypto format command)
      (Cell.perform command) :=
  Script.simulates_perform (simulates_answer haead htotal hlength) command

end

/-- The state that a load takes: the one on the medium, or a factory state where there is none. -/
def Opens (crypto : AppletCrypto) (format : AppletFormat S) (e : StorageEngine β) (state : S) :
    Prop :=
  (∃ migrated, storedState crypto format e = some (state, migrated)) ∨
    storedState crypto format e = none ∧ ∃ rng rng', format.factory.run rng = (.ok state, rng')

/-- A load that succeeds leaves the same state in memory and on the medium. -/
theorem holds_of_ensureLoaded {crypto : AppletCrypto} {format : AppletFormat S}
    (haead : AeadSound crypto.prims) {h g : Host β S V} {u : Unit} (hd : h.storage.Durable)
    (hmem : h.memory.state = none) (hrun : (ensureLoaded crypto format).run h = (.ok u, g)) :
    ∃ state, Holds crypto format g ⟨⟨state, state, h.memory.session⟩, g.rng⟩ ∧
      Opens crypto format h.storage state := by
  obtain ⟨state, hstate, hcurrent⟩ := loaded_of_ensureLoaded hrun
  have hsession : g.memory.session = h.memory.session := keeps_session_ensureLoaded.of_run hrun
  have hlive := live_of_ensureLoaded haead hd hmem hrun
  have hmemory : g.memory = ⟨some state, h.memory.session⟩ :=
    (congrArg₂ Memory.mk hstate hsession : Memory.mk g.memory.state g.memory.session = _)
  have hopens : Opens crypto format h.storage state := by
    unfold current at hcurrent
    rw [hmem] at hcurrent
    rcases hcurrent with hfound | ⟨hnone, hfactory⟩
    · obtain ⟨⟨_, migrated⟩, hstored, rfl⟩ := Option.map_eq_some_iff.mp hfound
      exact .inl ⟨migrated, hstored⟩
    · exact .inr ⟨Option.map_eq_none_iff.mp hnone, hfactory⟩
  refine ⟨state, ⟨hlive.durable, hmemory, ?_, rfl⟩, hopens⟩
  -- what was persisted last is what is in memory
  have hpersist : ∀ {t t' : Host β S V} {v : Unit}, t.storage.Durable →
      (persistState crypto format).run t = (.ok v, t') → t'.memory.state = some state →
      storedState crypto format t'.storage = some (state, false) := by
    intro t t' v ht hpersist hstate'
    have hcases : Persists crypto format t _ _ := persistState_cases haead ht
    have hsame := keeps_memory_persistState.of_run hpersist
    rw [hpersist] at hcases
    cases hcases with
    | done last loaded saved stored =>
      have hlast : t'.memory.state = some last := (congrArg Memory.state hsame).trans loaded
      rw [stored, Option.some.inj (hlast.symm.trans hstate')]
  unfold ensureLoaded at hrun
  rw [Prog.run_read_bind, hmem, Option.isSome_none, if_neg Bool.false_ne_true,
    Prog.run_read_bind] at hrun
  cases hfound : storedState crypto format h.storage with
  | some found =>
    obtain ⟨last, migrated⟩ := found
    simp only [hfound] at hrun
    rw [Prog.run_update_bind] at hrun
    cases migrated with
    | true =>
      rw [Prog.when, if_pos rfl] at hrun
      exact hpersist (t := { h with
        memory := { h.memory with state := some last }, saved := some last }) hd hrun hstate
    | false =>
      cases hrun
      rw [← Option.some.inj hstate]
      exact hfound
  | none =>
    simp only [hfound] at hrun
    obtain ⟨made, t, hzoom, hrun⟩ := Prog.bind_eq_ok.mp hrun
    rw [Prog.run_update_bind] at hrun
    refine hpersist ?_ hrun hstate
    rw [Prog.run_zoom] at hzoom
    rw [← (Prod.mk.inj hzoom).2]
    exact hd

end Host

/-! ## The router -/

/-- Two applets for the router that simulate each other. -/
structure CardApplet.Simulates {γ δ : Type} (R : γ → δ → Prop) (x : CardApplet γ)
    (y : CardApplet δ) : Prop where
  aid : x.aid = y.aid
  select : Prog.Simulates R x.select y.select
  selectResponse : Prog.Simulates R x.selectResponse y.selectResponse
  process : ∀ apdu, Prog.Simulates R (x.process apdu) (y.process apdu)

namespace CardRouter

variable {γ δ : Type} {R : γ → δ → Prop}

/-- The routers are at the same place, over related cards. -/
structure Alike (R : γ → δ → Prop) (r : CardRouter γ) (s : CardRouter δ) : Prop where
  card : R r.card s.card
  selected : r.selected = s.selected
  chain : r.chain = s.chain

theorem simulates_onCard {α : Type} {m : Prog γ Fault α} {m' : Prog δ Fault α}
    (h : Simulates R m m') : Simulates (Alike R) (onCard m) (onCard m') := by
  intro r s hrs
  obtain ⟨hres, hcard⟩ := h r.card s.card hrs.card
  exact ⟨congrArg Fault.status? hres, hcard, hrs.selected, hrs.chain⟩

/-- Which applet a SELECT chooses depends on the AIDs only. -/
theorem findApplet_congr {apps : List (Nat × CardApplet γ)} {apps' : List (Nat × CardApplet δ)}
    (h : List.Forall₂ (fun p p' => p.1 = p'.1 ∧ p.2.aid = p'.2.aid) apps apps')
    (requested : Bytes) (best : Option Nat) (bestLen : Nat) :
    findApplet requested apps best bestLen = findApplet requested apps' best bestLen := by
  induction h generalizing best bestLen with
  | nil => rfl
  | cons hhead _ ih =>
    obtain ⟨hidx, haid⟩ := hhead
    rw [findApplet, findApplet, hidx, haid, ih, ih]

theorem forall₂_zip {α : Type} {P : γ → δ → Prop} {xs : List γ} {ys : List δ}
    (h : List.Forall₂ P xs ys) (ns : List α) :
    List.Forall₂ (fun p p' => p.1 = p'.1 ∧ P p.2 p'.2) (ns.zip xs) (ns.zip ys) := by
  induction h generalizing ns with
  | nil =>
    rw [List.zip_nil_right, List.zip_nil_right]
    exact .nil
  | cons hhead _ ih =>
    cases ns with
    | nil => exact .nil
    | cons n ns => exact .cons ⟨rfl, hhead⟩ (ih ns)

variable {apps : List (CardApplet γ)} {apps' : List (CardApplet δ)}
  (h : List.Forall₂ (CardApplet.Simulates R) apps apps')

include h

/-- The applets at one place simulate each other, or there is none on either side. -/
theorem getElem?_simulates (idx : Nat) :
    (apps[idx]? = none ∧ apps'[idx]? = none) ∨
      ∃ x y, apps[idx]? = some x ∧ apps'[idx]? = some y ∧ CardApplet.Simulates R x y := by
  induction h generalizing idx with
  | nil => exact .inl ⟨rfl, rfl⟩
  | cons hhead _ ih =>
    cases idx with
    | zero => exact .inr ⟨_, _, rfl, rfl, hhead⟩
    | succ idx => exact ih idx

theorem simulates_handleSelect (apdu : Apdu) :
    Simulates (Alike R) (handleSelect apps apdu) (handleSelect apps' apdu) := by
  have hfind := findApplet_congr ((forall₂_zip h (List.range apps'.length)).imp
    fun _ _ hp => ⟨hp.1, hp.2.aid⟩) apdu.data none 0
  unfold handleSelect
  rw [h.length_eq, hfind]
  refine .ite (fun _ => .pure _) fun _ => ?_
  cases findApplet apdu.data ((List.range apps'.length).zip apps') none 0 with
  | none => exact .pure _
  | some idx =>
    rcases getElem?_simulates h idx with ⟨hnone, hnone'⟩ | ⟨x, y, hx, hy, hxy⟩
    · simp only [hnone, hnone']
      exact .fail _
    · simp only [hx, hy]
      refine (simulates_onCard hxy.select).bind fun result => ?_
      cases result with
      | error sw => exact .pure _
      | ok u =>
        refine (Simulates.update fun r s hrs => ⟨hrs.card, rfl, hrs.chain⟩).bind fun _ =>
          (simulates_onCard hxy.selectResponse).bind fun data => ?_
        cases data with
        | error sw => exact .pure _
        | ok data => exact .pure _

omit h in
theorem simulates_deliver (response : ResponseData) (le : Option Nat) :
    Simulates (Alike R) (deliver response le) (deliver response le) :=
  .ite (fun _ => .pure _) fun _ => .ite (fun _ => .pure _) fun _ =>
    (Simulates.update fun _ _ hrs => ⟨hrs.card, hrs.selected, rfl⟩).bind fun _ => .pure _

theorem simulates_route (apdu : Apdu) :
    Simulates (Alike R) (route apps apdu) (route apps' apdu) := by
  refine (Simulates.read fun r s hrs => hrs.selected).bind fun selected => ?_
  have happlet : (selected.bind (fun idx => apps[idx]?) = none ∧
      selected.bind (fun idx => apps'[idx]?) = none) ∨
      ∃ x y, selected.bind (fun idx => apps[idx]?) = some x ∧
        selected.bind (fun idx => apps'[idx]?) = some y ∧ CardApplet.Simulates R x y := by
    cases selected with
    | none => exact .inl ⟨rfl, rfl⟩
    | some idx => exact getElem?_simulates h idx
  rcases happlet with ⟨hnone, hnone'⟩ | ⟨x, y, hx, hy, hxy⟩
  · simp only [hnone, hnone']
    exact .pure _
  · simp only [hx, hy]
    exact (simulates_onCard (hxy.process apdu)).bind fun result => simulates_deliver _ _

omit h in
theorem simulates_serveGetResponse (le : Option Nat) :
    Simulates (Alike R) (serveGetResponse le) (serveGetResponse le) := by
  refine (Simulates.act fun r s hrs => ⟨hrs.chain, hrs.card, hrs.selected, rfl⟩).bind
    fun chain => ?_
  cases chain with
  | none => exact .pure _
  | some chain =>
    exact .ite (fun _ => .pure _) fun _ =>
      (Simulates.update fun _ _ hrs => ⟨hrs.card, hrs.selected, rfl⟩).bind fun _ => .pure _

/-- Over applets that simulate each other, the routers answer the same. -/
theorem simulates_process (raw : Bytes) :
    Simulates (Alike R) (process apps raw) (process apps' raw) := by
  unfold process
  cases Apdu.parse raw with
  | error e => exact .pure _
  | ok apdu =>
    refine .ite (fun _ => simulates_serveGetResponse _) fun _ =>
      (Simulates.update fun _ _ hrs => ⟨hrs.card, hrs.selected, rfl⟩).bind fun _ =>
        .ite (fun _ => simulates_handleSelect h _) fun _ => simulates_route h _

end CardRouter

/-! ## The card of cells -/

/-- The four cells of a card. -/
structure CellCard where
  rng : Nat → Entropy
  seats : (n : AppletName) → CellSeat n.State n.Session

namespace CellCard

/-- One cell of the card. -/
def cell (n : AppletName) (a : CellCard) : Cell n.State n.Session := ⟨a.seats n, a.rng⟩

/-- The card after one cell has changed. -/
def setCell (n : AppletName) (c : Cell n.State n.Session) (a : CellCard) : CellCard where
  rng := c.rng
  seats := Function.update a.seats n c.toCellSeat

/-- A command of an applet. -/
def perform {α : Type} (n : AppletName) (command : Command n.State n.Session α) :
    Prog CellCard Fault α :=
  Prog.zoom (cell n) (setCell n) (Cell.perform command)

/-- An applet for the router. -/
def applet (crypto : AppletCrypto) (n : AppletName) : CardApplet CellCard where
  aid := n.aid
  select := perform n n.select
  selectResponse := perform n n.selectResponse
  process apdu := perform n (n.process crypto apdu)

/-- The applets in the order in which the card registers them. -/
def applets (crypto : AppletCrypto) : List (CardApplet CellCard) :=
  [.management, .oath, .piv, .openPgp].map (applet crypto)

/-- After a reboot every cell works on the state that it has put away. -/
def rebooted (rng : Nat → Entropy) (a : CellCard) : CellCard where
  rng := rng
  seats n := ⟨(a.seats n).kept, (a.seats n).kept, n.fresh⟩

@[simp] theorem cell_setCell {n : AppletName} (c : Cell n.State n.Session) (a : CellCard) :
    (a.setCell n c).cell n = c := by
  unfold cell setCell
  simp only [Function.update_self]

theorem cell_setCell_of_ne {n n' : AppletName} (hne : n' ≠ n) (c : Cell n.State n.Session)
    (a : CellCard) : (a.setCell n c).cell n' = ⟨a.seats n', c.rng⟩ := by
  unfold cell setCell
  simp only [Function.update_of_ne hne]

end CellCard

/-! ## The card on its storage is the card of cells -/

namespace Card

variable {β : Type} [StorageBackend β] [LawfulBackend β]

/-- Every applet of the card is in the state of its cell. -/
def Represents (crypto : AppletCrypto) (patience : Nat) (c : Card β) (a : CellCard) : Prop :=
  ∀ n, Host.Holds crypto (n.format patience) (c.host n) (a.cell n)

theorem length_serialize_oath (state : OathState) : state.serialize.length < 2 ^ 36 := by
  have hsalt := state.salt_ok.2
  have hsize := state.credentials.size_ok
  have haccess : (OathState.serializeAccess state.access state.pendingChallenge).length ≤ 1024 := by
    cases h : state.access with
    | none => simp [OathState.serializeAccess]
    | some access =>
      have hkey := access.key_ok.2
      have hpending : (state.pendingChallenge.getD []).length < 256 := by
        cases hp : state.pendingChallenge with
        | none => decide
        | some challenge => exact (state.pending_ok challenge hp).1.2
      simp only [OathState.serializeAccess, OathState.prefixed, List.length_append,
        List.length_singleton, Bytes.length_beBytes]
      omega
  have hcred : (state.credentials.map.toList.flatMap OathState.serializeCredential).length ≤
      1024 * state.credentials.map.toList.length :=
    Bytes.length_flatMap_le fun entry hentry => by
      have hname := (OathState.names_toList state.credentials entry hentry).2
      have hsecret := entry.2.secret_ok.2
      simp only [OathState.serializeCredential, OathState.prefixed, List.length_append,
        List.length_singleton, Bytes.length_beBytes]
      omega
  rw [Std.ExtTreeMap.length_toList] at hcred
  simp only [OathState.serialize, OathState.prefixed, List.length_cons, List.length_append,
    Bytes.length_beBytes]
  omega

theorem length_serialize_management (state : ManagementState) :
    state.serialize.length < 2 ^ 36 := by
  have hlock : (ManagementState.serializeLock state.lockCode).length ≤ 17 := by
    cases state.lockCode with
    | none => decide
    | some code =>
      have := code.2
      simp only [ManagementState.serializeLock, List.length_cons]
      omega
  simp only [ManagementState.serialize, List.length_cons, List.length_append, List.length_nil,
    Bytes.length_beBytes]
  omega

theorem length_format (patience : Nat) (n : AppletName) (state : n.State) :
    ((n.format patience).serialize state).length < 2 ^ 36 := by
  cases n with
  | management => exact length_serialize_management state
  | oath => exact length_serialize_oath state
  | piv => exact Piv.length_serialize state
  | openPgp => exact OpenPgp.length_serialize state

section

variable {crypto : AppletCrypto} {patience : Nat} (haead : AeadSound crypto.prims)
  (htotal : AeadTotal crypto.prims)

/-- What one applet writes leaves the cells of the others as they are. -/
theorem holds_setHost {c : Card β} {a : CellCard} {n n' : AppletName}
    (hne : n' ≠ n) {h : Host β n.State n.Session} {d : Cell n.State n.Session}
    (hconf : (StorageEngine.confined n.storageKey).rel c.storage h.storage)
    (hrng : h.rng = d.rng)
    (hc : Host.Holds crypto (n'.format patience) (c.host n') (a.cell n')) :
    Host.Holds crypto (n'.format patience) ((c.setHost n h).host n') ((a.setCell n d).cell n') := by
  obtain ⟨hd, hentry⟩ := hconf hc.durable
  have hseat := seats_setHost (c := c) hne h
  rw [CellCard.cell_setCell_of_ne hne]
  refine ⟨hd, ?_, ?_, hrng⟩
  · show ((c.setHost n h).seats n').memory = _
    rw [hseat]
    exact hc.memory
  · refine (Host.storedState_congr ?_).trans hc.stored
    have hvalue (key : String) : c.storage.value key = c.storage.entry key :=
      hc.durable.value_eq key
    show h.storage.value _ = c.storage.value _
    rw [hd.value_eq, hvalue, AppletName.storageKey_format]
    exact hentry _ fun hkey => hne (AppletName.storageKey_inj hkey)

include haead htotal

/-- Every command of an applet does to the card what it does to the cells. -/
theorem simulates_perform {α : Type} (n : AppletName) (command : Command n.State n.Session α) :
    Simulates (Represents (β := β) crypto patience) (perform crypto patience n command)
      (CellCard.perform n command) := by
  intro c a hc
  obtain ⟨hres, hholds⟩ := Host.simulates_perform haead htotal (length_format patience n) command
    (c.host n) (a.cell n) (hc n)
  have hconf : (StorageEngine.confined n.storageKey).rel (c.host n).storage
      ((Host.perform crypto (n.format patience) command).run (c.host n)).2.storage :=
    Host.keeps_command (confined_store_format n) command (c.host n)
  rw [perform, on, Prog.run_zoom, CellCard.perform, Prog.run_zoom]
  refine ⟨hres, fun n' => ?_⟩
  by_cases hne : n' = n
  · subst hne
    simp only
    rw [host_setHost, CellCard.cell_setCell]
    exact hholds
  · exact holds_setHost hne hconf hholds.rng (hc n')

end

/-! ## Reboots and boots -/

omit [LawfulBackend β] in
/-- A boot that finds the state of every applet takes these states, and draws nothing. -/
theorem build_kept {crypto : AppletCrypto} {patience : Nat} {names : List AppletName}
    (hnodup : names.Nodup) {c : Card β} (kept : (n : AppletName) → n.State)
    (hvacant : ∀ n ∈ names, (c.seats n).memory = ⟨none, n.fresh⟩)
    (hkept : ∀ n ∈ names,
      Host.storedState crypto (n.format patience) c.storage = some (kept n, false)) :
    ∃ c', (build crypto patience names).run c = (.ok (), c') ∧ c'.storage = c.storage ∧
      c'.rng = c.rng ∧ (∀ n ∈ names, (c'.seats n).memory = ⟨some (kept n), n.fresh⟩) ∧
      ∀ n ∉ names, c'.seats n = c.seats n := by
  induction names generalizing c with
  | nil => exact ⟨c, rfl, rfl, rfl, fun n hn => absurd hn List.not_mem_nil, fun _ _ => rfl⟩
  | cons n rest ih =>
    obtain ⟨hnew, hnodup⟩ := List.nodup_cons.mp hnodup
    have hmemory := hvacant n List.mem_cons_self
    have hload := Host.ensureLoaded_found (h := c.host n) (congrArg Memory.state hmemory)
      (hkept n List.mem_cons_self)
    obtain ⟨c', hrest, hstorage, hrng, htaken, hsame⟩ := ih hnodup
      (c := c.setHost n ((Host.ensureLoaded crypto (n.format patience)).run (c.host n)).2)
      (fun n' hn' => by
        rw [seats_setHost (ne_of_mem_of_not_mem hn' hnew)]
        exact hvacant n' (List.mem_cons_of_mem n hn'))
      (fun n' hn' => by
        rw [hload]
        exact hkept n' (List.mem_cons_of_mem n hn'))
    rw [hload] at hrest hstorage hrng hsame
    refine ⟨c', ?_, hstorage, hrng, fun n' hn' => ?_, fun n' hn' => ?_⟩
    · rw [← hrest]
      exact Prog.run_bind_of_ok (by rw [on, Prog.run_zoom, hload])
    · obtain rfl | hn' := List.mem_cons.mp hn'
      · rw [hsame n' hnew, seats_setHost_self]
        exact congrArg (fun memory : Memory n'.State n'.Session =>
          Memory.mk (some (kept n')) memory.session) hmemory
      · exact htaken n' hn'
    · obtain ⟨hne, hn'⟩ := not_or.mp (mt List.mem_cons.mpr hn')
      rw [hsame n' hn', seats_setHost hne]

variable (codec : Codec StoredCredential)

/-- The card is built again over what the medium holds. -/
def reboot (crypto : AppletCrypto) (patience : Nat) (names : List AppletName)
    (rng : Nat → Entropy) (c : Card β) : Except Fault Unit × Card β :=
  (build crypto patience names).run
    (blank (c.storage.backend.elim .new (StorageEngine.withBackend codec)) rng)

/-- A reboot takes every cell back to the state that it has put away. -/
theorem reboot_represents {crypto : AppletCrypto} {patience : Nat} {names : List AppletName}
    (hnodup : names.Nodup) (hall : ∀ n, n ∈ names) {c : Card β} {a : CellCard}
    (hc : Represents crypto patience c a) (rng : Nat → Entropy) :
    (reboot codec crypto patience names rng c).1 = .ok () ∧
      Represents crypto patience (reboot codec crypto patience names rng c).2
        (a.rebooted rng) := by
  obtain ⟨b, hb⟩ := Option.isSome_iff_exists.mp (hc .oath).durable.backend
  have hopened : c.storage.backend.elim .new (StorageEngine.withBackend codec) =
      .withBackend codec b := by
    rw [show c.storage.backend = some b from hb]
    rfl
  have hkept (n : AppletName) : Host.storedState crypto (n.format patience)
      (StorageEngine.withBackend codec b) = some ((a.seats n).kept, false) :=
    (Host.storedState_congr (StorageEngine.value_reopened codec (hc n).durable hb _)).trans
      (hc n).stored
  obtain ⟨c', hrun, hstorage, hrng, hmemory, -⟩ := build_kept hnodup
    (c := blank (.withBackend codec b) rng) (fun n => (a.seats n).kept) (fun n _ => rfl)
    fun n _ => hkept n
  rw [reboot, hopened, hrun]
  refine ⟨rfl, fun n => ⟨?_, hmemory n (hall n), ?_, hrng⟩⟩
  · show c'.storage.Durable
    rw [hstorage]
    exact StorageEngine.durable_withBackend codec b
  · show Host.storedState crypto (n.format patience) c'.storage = _
    rw [hstorage]
    exact hkept n

/-- The applets that a boot has built, and the cells that they are. -/
theorem build_represents {crypto : AppletCrypto} (haead : AeadSound crypto.prims) {patience : Nat}
    {names : List AppletName} (hnodup : names.Nodup) {c c' : Card β} {u : Unit}
    (hd : c.storage.Durable) (hvacant : ∀ n ∈ names, (c.seats n).memory = ⟨none, n.fresh⟩)
    (hrun : (build crypto patience names).run c = (.ok u, c')) :
    (∀ n ∈ names, ∃ state, Host.Holds crypto (n.format patience) (c'.host n)
        ⟨⟨state, state, n.fresh⟩, c'.rng⟩ ∧
      Host.Opens crypto (n.format patience) c.storage state) ∧
    (∀ n ∉ names, c'.seats n = c.seats n ∧
      c'.storage.value n.storageKey = c.storage.value n.storageKey) ∧
    c'.storage.Durable := by
  induction names generalizing c with
  | nil =>
    cases hrun
    exact ⟨fun n hn => absurd hn List.not_mem_nil, fun _ _ => ⟨rfl, rfl⟩, hd⟩
  | cons n rest ih =>
    obtain ⟨hnew, hnodup⟩ := List.nodup_cons.mp hnodup
    obtain ⟨h, v, hload, hrest⟩ := build_cons_eq_ok hrun
    have hmemory := hvacant n List.mem_cons_self
    obtain ⟨hd', hentry⟩ := confined_ensureLoaded n hload hd
    obtain ⟨state, hholds, hopens⟩ := Host.holds_of_ensureLoaded haead hd
      (congrArg Memory.state hmemory) hload
    have hother : ∀ n' ≠ n, h.storage.value n'.storageKey = c.storage.value n'.storageKey := by
      intro n' hne
      rw [hd'.value_eq, hd.value_eq]
      exact hentry _ fun hkey => hne (AppletName.storageKey_inj hkey)
    obtain ⟨hbuilt, hkept, hdur⟩ := ih hnodup (c := c.setHost n h) hd' (fun n' hn' => by
      rw [seats_setHost (ne_of_mem_of_not_mem hn' hnew)]
      exact hvacant n' (List.mem_cons_of_mem n hn')) hrest
    refine ⟨fun n' hn' => ?_, fun n' hn' => ?_, hdur⟩
    · rcases List.mem_cons.mp hn' with rfl | hn'
      · obtain ⟨hseat, hvalue⟩ := hkept n' hnew
        refine ⟨state, ⟨hdur, ?_, ?_, rfl⟩, hopens⟩
        · show (c'.seats n').memory = _
          rw [hseat, seats_setHost_self]
          exact hholds.memory.trans (congrArg (Memory.mk (some state))
            (congrArg Memory.session hmemory))
        · refine (Host.storedState_congr ?_).trans hholds.stored
          show c'.storage.value _ = h.storage.value _
          rw [AppletName.storageKey_format]
          exact hvalue
      · obtain ⟨state', hholds', hopens'⟩ := hbuilt n' hn'
        refine ⟨state', hholds', ?_⟩
        have hsame : Host.storedState crypto (n'.format patience) h.storage =
            Host.storedState crypto (n'.format patience) c.storage := Host.storedState_congr (by
          rw [AppletName.storageKey_format]
          exact hother n' (ne_of_mem_of_not_mem hn' hnew))
        unfold Host.Opens at hopens' ⊢
        rwa [← hsame]
    · obtain ⟨hne, hn'⟩ := not_or.mp (mt List.mem_cons.mpr hn')
      obtain ⟨hseat, hvalue⟩ := hkept n' hn'
      rw [hseat, seats_setHost hne]
      exact ⟨rfl, hvalue.trans (hother n' hne)⟩

/-! ## Runs -/

/-- What happens to a card: the reader sends bytes, or it is built again. -/
inductive HostEvent
  | apdu (raw : Bytes)
  | reboot (rng : Nat → Entropy)

/-- One event at the router in front of the card; a boot has no answer. -/
def serve (crypto : AppletCrypto) (patience : Nat) (names : List AppletName) :
    HostEvent → Prog (CardRouter (Card β)) Fault (Option ResponseData)
  | .apdu raw => do
    let response ← CardRouter.process (applets crypto patience) raw
    pure (some response)
  | .reboot rng => .mk fun r =>
    ((reboot codec crypto patience names rng r.card).1.map fun _ => none,
      ⟨(reboot codec crypto patience names rng r.card).2, none, none⟩)

end Card

/-- One event at the router in front of the cells. -/
def CellCard.serve (crypto : AppletCrypto) :
    Card.HostEvent → Prog (CardRouter CellCard) Fault (Option ResponseData)
  | .apdu raw => do
    let response ← CardRouter.process (CellCard.applets crypto) raw
    pure (some response)
  | .reboot rng => .act fun r => (none, ⟨r.card.rebooted rng, none, none⟩)

namespace Card

variable {β : Type} [StorageBackend β] [LawfulBackend β] (codec : Codec StoredCredential)

section

variable {crypto : AppletCrypto} (haead : AeadSound crypto.prims)
  (htotal : AeadTotal crypto.prims) (patience : Nat)

include haead htotal

theorem simulates_applets :
    List.Forall₂ (CardApplet.Simulates (Represents (β := β) crypto patience))
      (applets crypto patience) (CellCard.applets crypto) := by
  have happlet (n : AppletName) : CardApplet.Simulates (Represents (β := β) crypto patience)
      (applet crypto patience n) (CellCard.applet crypto n) :=
    ⟨rfl, simulates_perform haead htotal n _, simulates_perform haead htotal n _,
      fun apdu => simulates_perform haead htotal n _⟩
  exact .cons (happlet _) (.cons (happlet _) (.cons (happlet _) (.cons (happlet _) .nil)))

/-- One event has the same answer over the card and over the cells. -/
theorem simulates_serve {names : List AppletName} (hnodup : names.Nodup) (hall : ∀ n, n ∈ names)
    (e : HostEvent) : Simulates (CardRouter.Alike (Represents (β := β) crypto patience))
      (serve codec crypto patience names e) (CellCard.serve crypto e) := by
  cases e with
  | apdu raw =>
    exact (CardRouter.simulates_process (simulates_applets haead htotal patience) raw).bind
      fun _ => .pure _
  | reboot rng =>
    intro r s hrs
    obtain ⟨hok, hcard⟩ := reboot_represents codec hnodup hall hrs.card rng
    refine ⟨?_, hcard, rfl, rfl⟩
    show Except.map _ (reboot codec crypto patience names rng r.card).1 = _
    rw [hok]
    rfl

end

/-- The card that a boot has built is the card of cells that has in each cell the state from the
medium, or a factory state. -/
theorem build_alike {crypto : AppletCrypto} (haead : AeadSound crypto.prims) {patience : Nat}
    {names : List AppletName} (hnodup : names.Nodup) (hall : ∀ n, n ∈ names) (b : β)
    (rng : Nat → Entropy) {c : Card β}
    (hboot : (build crypto patience names).run (blank (.withBackend codec b) rng) = (.ok (), c)) :
    ∃ a : CellCard,
      (∀ n, (a.seats n).session = n.fresh ∧ (a.seats n).kept = (a.seats n).state ∧
        Host.Opens crypto (n.format patience) (.withBackend codec b) (a.seats n).state) ∧
      CardRouter.Alike (Represents crypto patience) ⟨c, none, none⟩ ⟨a, none, none⟩ := by
  obtain ⟨hbuilt, -, -⟩ := build_represents haead hnodup
    (StorageEngine.durable_withBackend codec b) (fun n _ => rfl) hboot
  choose state hholds hopens using fun n => hbuilt n (hall n)
  exact ⟨⟨c.rng, fun n => ⟨state n, state n, n.fresh⟩⟩, fun n => ⟨rfl, rfl, hopens n⟩, hholds, rfl,
    rfl⟩

/-- Over a storage that does not fail, the card that a boot has built answers every sequence of
bytes and reboots as the card of cells that has in each cell the state from the medium, or a factory
state. -/
theorem card_refines_cells {crypto : AppletCrypto} (haead : AeadSound crypto.prims)
    (htotal : AeadTotal crypto.prims) {patience : Nat} {names : List AppletName}
    (hnodup : names.Nodup) (hall : ∀ n, n ∈ names) (b : β) (rng : Nat → Entropy) {c : Card β}
    (hboot : (build crypto patience names).run (blank (.withBackend codec b) rng) = (.ok (), c)) :
    ∃ a : CellCard,
      (∀ n, (a.seats n).session = n.fresh ∧ (a.seats n).kept = (a.seats n).state ∧
        Host.Opens crypto (n.format patience) (.withBackend codec b) (a.seats n).state) ∧
      ∀ events, (Prog.results (serve codec crypto patience names) events ⟨c, none, none⟩).1 =
        (Prog.results (CellCard.serve crypto) events ⟨a, none, none⟩).1 := by
  obtain ⟨a, hopened, hstart⟩ := build_alike codec haead hnodup hall b rng hboot
  exact ⟨a, hopened, fun events =>
    (Simulates.results (simulates_serve codec haead htotal patience hnodup hall) events hstart).1⟩

/-! ## A wrong PIN before a reboot and one after it -/

/-- What ChaCha20-Poly1305 makes of the factory states, and of the PIV state with fewer retries. -/
def cellAead : KnownAead where
  rows := [
    .of 0x02 0x09 (Bytes.beBytes 30 0x0209090909062e0000000000000000000000000000000000000000000000)
      (Bytes.beBytes 30 0x107e19c4c0fb3fe7acb9cb6a5b51d159d5607cc0bd1ba07e3a1fcc190975 ++
        Bytes.beBytes 16 0x74d9d69c44499c5f370ac4f6c38df63b),
    .of 0x02 0x09 (Bytes.beBytes 21 0x011009090909090909090909090909090909000000)
      (Bytes.beBytes 21 0x136719c4c0f418eea5b0c2635258d850dc697cc0bd ++
        Bytes.beBytes 16 0x65b61ddbe2b08688544bdd9dcf16232f),
    .of 0x02 0x09 (Bytes.beBytes 20 0x0206313233343536030831323334353637380300)
      (Bytes.beBytes 36 0x107121fffac924d1afb1fa586865e46fe2587fc0e889e78ec4c73a880038d3daf7749c89),
    .of 0x02 0x09 (Bytes.beBytes 11 0x0306313233343536030000)
      (Bytes.beBytes 27 0x117121fffac924d1afb9cb47d462655d8efc79c04a4c51cebddddd),
    .of 0x02 0x09 (Bytes.beBytes 11 0x0306313233343536020000)
      (Bytes.beBytes 27 0x117121fffac924d1aeb9cb485493c4fb767f5e78963a02122e1f09),
    .of 0x02 0x09 (Bytes.beBytes 11 0x0306313233343536010000)
      (Bytes.beBytes 27 0x117121fffac924d1adb9cb4ed4c3239a5f024330e228b3559e6034)]
  opens := by decide +kernel
  one_key := by decide +kernel
  apart := by decide +kernel
  ne_nil := by decide +kernel

def cellCrypto : AppletCrypto := cellAead.crypto (List.replicate 32 0x02) KnownAead.length_masterKey

/-- The card that is built over an empty medium. -/
def cellBoot : Except Fault Unit × Card KvMap :=
  (build cellCrypto 1 [.management, .oath, .piv, .openPgp]).run
    (blank (.withBackend unusedCodec ∅) (KnownAead.constantDraws 0x09))

/-- SELECT of the PIV applet and VERIFY of `111111`, and the same again after a reboot. -/
def wrongPins : List HostEvent :=
  let select := [0x00, 0xA4, 0x04, 0x00, 0x05, 0xA0, 0x00, 0x00, 0x03, 0x08]
  let verify := [0x00, 0x20, 0x00, 0x80, 0x06, 0x31, 0x31, 0x31, 0x31, 0x31, 0x31]
  [.apdu select, .apdu verify, .reboot (KnownAead.constantDraws 0x09), .apdu select, .apdu verify]

theorem card_refines_cells_retries : ∃ a : CellCard,
    (Prog.results (CellCard.serve cellCrypto) wrongPins ⟨a, none, none⟩).1 =
      [.ok (some (.withSw [] 0x9000)), .ok (some (.withSw [] 0x63C2)), .ok none,
        .ok (some (.withSw [] 0x9000)), .ok (some (.withSw [] 0x63C1))] := by
  have hboot : (build cellCrypto 1 [.management, .oath, .piv, .openPgp]).run
      (blank (.withBackend unusedCodec ∅) (KnownAead.constantDraws 0x09)) =
        (.ok (), cellBoot.2) := Prod.ext (by decide +kernel) rfl
  obtain ⟨a, -, hsame⟩ := card_refines_cells unusedCodec (KnownAead.sound _ _)
    (KnownAead.total _ _) (by decide) (fun n => by cases n <;> decide) ∅
    (KnownAead.constantDraws 0x09) hboot
  exact ⟨a, (hsame wrongPins).symm.trans (by decide +kernel)⟩

end Card

end OpenKey
