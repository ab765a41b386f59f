import OpenKey.Device.Cells
import OpenKey.Library.Transcript

/-!
# The uses of one applet

An applet as its users see it: it is selected, it is given a command, and it is built again over
what the medium then holds. Over a storage that does not fail these are the same three uses of a
cell (`Host.simulates_use`), where being built again is going back to the state that was put away.
-/

namespace OpenKey

open Prog (Simulates)

set_option autoImplicit false

/-- A use of an applet. -/
inductive AppletUse
  | select
  | command (apdu : Apdu)
  | reboot (rng : Nat → Entropy)

namespace AppletName

/-- `select` and, if it succeeds, `select_response`. -/
def selected (n : AppletName) : Command n.State n.Session ResponseData := do
  n.select
  let data ← n.selectResponse
  pure (.ok data)

end AppletName

/-- A use of a cell. -/
def Cell.use (crypto : AppletCrypto) (n : AppletName) :
    AppletUse → Prog (Cell n.State n.Session) Fault ResponseData
  | .select => Cell.perform n.selected
  | .command apdu => Cell.perform (n.process crypto apdu)
  | .reboot rng => Prog.act fun c => (.ok [], ⟨⟨c.kept, c.kept, n.fresh⟩, rng⟩)

namespace Host

variable {β : Type} [StorageBackend β] (codec : Codec StoredCredential)

/-- The applet is built over what a medium holds: `new`. -/
def built (crypto : AppletCrypto) (patience : Nat) (n : AppletName) (b : β)
    (rng : Nat → Entropy) : Except Fault Unit × Host β n.State n.Session :=
  (ensureLoaded crypto (n.format patience)).run
    ⟨.withBackend codec b, rng, ⟨none, n.fresh⟩, none⟩

/-- A use of an applet on its storage. -/
def use (crypto : AppletCrypto) (patience : Nat) (n : AppletName) :
    AppletUse → Prog (Host β n.State n.Session) Fault ResponseData
  | .select => perform crypto (n.format patience) n.selected
  | .command apdu => perform crypto (n.format patience) (n.process crypto apdu)
  | .reboot rng => .mk fun h => match h.storage.backend with
    | some b => ((built codec crypto patience n b rng).1.map fun _ => .ok [],
        (built codec crypto patience n b rng).2)
    | none => (.error .panic, h)

variable [LawfulBackend β]

/-- The uses of an applet are those of its cell. -/
theorem simulates_use {crypto : AppletCrypto} (haead : AeadSound crypto.prims)
    (htotal : AeadTotal crypto.prims) (patience : Nat) (n : AppletName) (e : AppletUse) :
    Simulates (Holds (β := β) crypto (n.format patience)) (use codec crypto patience n e)
      (Cell.use crypto n e) := by
  cases e with
  | select => exact simulates_perform haead htotal (Card.length_format patience n) _
  | command apdu => exact simulates_perform haead htotal (Card.length_format patience n) _
  | reboot rng =>
    intro h c hc
    obtain ⟨b, hb⟩ := Option.isSome_iff_exists.mp hc.durable.backend
    have hkept : storedState crypto (n.format patience) (StorageEngine.withBackend codec b) =
        some (c.kept, false) :=
      (storedState_congr (StorageEngine.value_reopened codec hc.durable hb _)).trans hc.stored
    have hbuilt : built codec crypto patience n b rng = _ := ensureLoaded_found rfl hkept
    have huse : (use codec crypto patience n (.reboot rng)).run h =
        ((built codec crypto patience n b rng).1.map fun _ => .ok [],
          (built codec crypto patience n b rng).2) := by
      show (match h.storage.backend with | some b => _ | none => _) = _
      rw [hb]
    rw [huse, hbuilt]
    exact ⟨rfl, StorageEngine.durable_withBackend codec b, rfl, hkept, rfl⟩

/-- An applet that is built is a cell with the state of the medium, or a factory state. -/
theorem holds_of_built {crypto : AppletCrypto} (haead : AeadSound crypto.prims) {patience : Nat}
    {n : AppletName} {b : β} {rng : Nat → Entropy} {h : Host β n.State n.Session}
    (hbuilt : built codec crypto patience n b rng = (.ok (), h)) : ∃ state,
    Holds crypto (n.format patience) h ⟨⟨state, state, n.fresh⟩, h.rng⟩ ∧
      Opens crypto (n.format patience) (.withBackend codec b) state :=
  holds_of_ensureLoaded haead (StorageEngine.durable_withBackend codec b) rfl hbuilt

/-- What the uses of a cell keep to, the uses of an applet keep to. -/
theorem transcript_of_built {ν : Type} {crypto : AppletCrypto} (haead : AeadSound crypto.prims)
    (htotal : AeadTotal crypto.prims) {patience : Nat} {n : AppletName}
    {step : ν → AppletUse × Except Fault ResponseData → ν → Prop}
    (hunique : ∀ v x w w', step v x w → step v x w' → w = w')
    {R : Cell n.State n.Session → ν → Prop}
    (hstep : ∀ e c v, R c v → ∃ w, step v (e, ((Cell.use crypto n e).run c).1) w ∧
      R ((Cell.use crypto n e).run c).2 w)
    {view : n.State → ν}
    {b : β} (hview : ∀ state rng, Opens crypto (n.format patience) (.withBackend codec b) state →
      R ⟨⟨state, state, n.fresh⟩, rng⟩ (view state))
    {rng : Nat → Entropy} {h : Host β n.State n.Session}
    (hbuilt : built codec crypto patience n b rng = (.ok (), h)) : ∃ state,
    Opens crypto (n.format patience) (.withBackend codec b) state ∧ ∀ uses : List AppletUse, ∃! w,
      Transcript step (view state)
        (uses.zip (Prog.results (use codec crypto patience n) uses h).1) w := by
  obtain ⟨state, hholds, hopens⟩ := holds_of_built codec haead hbuilt
  refine ⟨state, hopens, fun uses => ?_⟩
  rw [(Simulates.results (simulates_use codec haead htotal patience n) uses hholds).1]
  obtain ⟨w, hlog, -⟩ := Transcript.of_results hstep uses (hview state h.rng hopens)
  exact ⟨w, hlog, fun u hu => (Transcript.unique hunique hlog hu).symm⟩

end Host

end OpenKey
