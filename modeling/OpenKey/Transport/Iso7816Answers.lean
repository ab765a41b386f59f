import OpenKey.Transport.Iso7816Chaining
import OpenKey.Transport.Iso7816Selection

/-!
# The answers of the router

What the router answers, in terms of what a reader can keep track of: how much of a response it has
been handed (`handOut`, `Owes`), and which applet a SELECT chooses (`Chooses`).
-/

namespace OpenKey

set_option autoImplicit false

/-! ## Handing out a response -/

namespace CardRouter

/-- What is handed out of a response over so many bytes, and what is then owed of it. -/
def handOut (data : Bytes) (sw : UInt16) (limit : Nat) : ResponseData × Option (Bytes × UInt16) :=
  if data.length ≤ limit then (.withSw data sw, none)
  else (.withSw (data.take limit) (swMoreData (data.length - limit)), some (data.drop limit, sw))

/-- The part of a response that has not been handed out, and its status word. -/
structure Owes (chain : Option ChainState) (owed : Option (Bytes × UInt16)) : Prop where
  left : owed = chain.map fun chain => (chain.buf.drop chain.pos, chain.finalSw)
  inside : ∀ state ∈ chain, state.pos ≤ state.buf.length

theorem owes_none : Owes none none := ⟨rfl, fun _ hnone => absurd hnone (Option.not_mem_none _)⟩

theorem owes_some {chain : ChainState} (h : chain.pos ≤ chain.buf.length) :
    Owes (some chain) (some (chain.buf.drop chain.pos, chain.finalSw)) :=
  ⟨rfl, fun _ hsome => Option.some.inj hsome ▸ h⟩

section

variable {γ : Type} {r : CardRouter γ}

/-- The answer to a command is handed out. -/
theorem run_deliver_handOut (hchain : r.chain = none) (response : ResponseData) (le : Option Nat) :
    ∃ chain, (deliver response le).run r =
        (.ok (handOut response.data (response.sw.getD swNoError) (le.getD 0)).1,
          { r with chain := chain }) ∧
      Owes chain (handOut response.data (response.sw.getD swNoError) (le.getD 0)).2 := by
  have hstays : r = { r with chain := none } := by
    rw [← hchain]
  unfold deliver handOut
  simp only
  by_cases hempty : response.data = []
  · rw [if_pos hempty, hempty, List.length_nil, if_pos (Nat.zero_le _)]
    exact ⟨none, congrArg _ hstays, owes_none⟩
  · rw [if_neg hempty]
    by_cases hfits : response.data.length ≤ le.getD 0
    · rw [if_pos hfits, if_pos hfits]
      exact ⟨none, congrArg _ hstays, owes_none⟩
    · rw [if_neg hfits, if_neg hfits]
      exact ⟨_, rfl, owes_some (Nat.le_of_not_le hfits)⟩

/-- What is owed is handed out. -/
theorem run_serveGetResponse_handOut {left : Bytes} {sw : UInt16}
    (howes : Owes r.chain (some (left, sw))) (le : Option Nat) :
    ∃ chain, (serveGetResponse le).run r =
        (.ok (handOut left sw (le.getD 256)).1, { r with chain := chain }) ∧
      Owes chain (handOut left sw (le.getD 256)).2 := by
  cases hchain : r.chain with
  | none =>
    rw [hchain] at howes
    cases howes.left
  | some chain =>
    have hinside := howes.inside chain hchain
    have hleft := howes.left
    rw [hchain] at hleft
    obtain ⟨rfl, rfl⟩ := Prod.mk.inj (Option.some.inj hleft)
    rw [serveGetResponse, Prog.run_act_bind]
    simp only [hchain]
    unfold handOut
    rw [List.length_drop]
    by_cases hfits : chain.buf.length - chain.pos ≤ le.getD 256
    · have hend : chain.pos + (chain.buf.length - chain.pos) = chain.buf.length := by omega
      rw [Nat.min_eq_right hfits, if_pos hend, if_pos hfits, List.take_of_length_le]
      · exact ⟨none, rfl, owes_none⟩
      · rw [List.length_drop]
    · have hless := Nat.le_of_not_le hfits
      rw [Nat.min_eq_left hless, if_neg (by omega), if_neg hfits, List.drop_drop, Nat.sub_sub]
      exact ⟨_, rfl, owes_some (by simp only; omega)⟩

theorem run_serveGetResponse_none (hchain : r.chain = none) (le : Option Nat) :
    (serveGetResponse le).run r = (.ok (.withSw [] swConditionsNotSatisfied), r) := by
  obtain ⟨card, selected, _⟩ := r
  obtain rfl : _ = none := hchain
  rfl

end

/-! ## Selecting an applet -/

section

variable {γ : Type} {applets : List (CardApplet γ)} {r : CardRouter γ} {apdu : Apdu}

variable (applets) in
/-- The search finds the applet that is chosen. -/
theorem finds_findApplet {requested : Bytes} (hreq : requested ≠ []) :
    Finds applets requested
      (findApplet requested ((List.range applets.length).zip applets) none 0) := by
  have hspec := findApplet_spec hreq applets passed_nil
  rwa [List.nil_append, List.length_nil, ← List.range_eq_range'] at hspec

/-- SELECT of an applet that accepts. -/
theorem run_handleSelect_chosen {idx : Nat} {applet : CardApplet γ} {card card' : γ} {data : Bytes}
    (hchosen : Chooses applets apdu.data idx) (happlet : applets[idx]? = some applet)
    (hselect : applet.select.run r.card = (.ok (), card))
    (hresponse : applet.selectResponse.run card = (.ok data, card')) :
    (handleSelect applets apdu).run r =
      (.ok (.withSw data swNoError), { r with card := card', selected := some idx }) := by
  have hfinds := finds_findApplet applets hchosen.1
  have hfind : findApplet apdu.data ((List.range applets.length).zip applets) none 0 =
      some idx := by
    cases hfind : findApplet apdu.data ((List.range applets.length).zip applets) none 0 with
    | none =>
      rw [hfind] at hfinds
      obtain ⟨other, hmem, hprefix⟩ := hchosen.isPrefix
      exact absurd hprefix (hfinds other hmem)
    | some idx' =>
      rw [hfind] at hfinds
      rw [hchosen.unique hfinds]
  unfold handleSelect
  rw [if_neg hchosen.1]
  simp only [hfind, happlet]
  have hcall : (onCard applet.select).run r = (.ok (.ok ()), { r with card := card }) := by
    show (Fault.status? (applet.select.run r.card).1, _) = _
    rw [hselect]
    rfl
  rw [Prog.run_bind, hcall]
  simp only
  rw [Prog.run_update_bind, Prog.run_bind]
  have hcall' : (onCard applet.selectResponse).run
      { r with card := card, selected := some idx } =
        (.ok (.ok data), { r with card := card', selected := some idx }) := by
    show (Fault.status? (applet.selectResponse.run card).1, _) = _
    rw [hresponse]
    rfl
  rw [hcall']
  rfl

/-- SELECT of no applet. -/
theorem run_handleSelect_unchosen (h : ∀ idx, ¬Chooses applets apdu.data idx) :
    (handleSelect applets apdu).run r = (.ok (.withSw [] swFileNotFound), r) := by
  unfold handleSelect
  by_cases hempty : apdu.data = []
  · rw [if_pos hempty]
    rfl
  · rw [if_neg hempty]
    have hfinds := finds_findApplet applets hempty
    cases hfind : findApplet apdu.data ((List.range applets.length).zip applets) none 0 with
    | none => rfl
    | some idx =>
      rw [hfind] at hfinds
      exact absurd hfinds (h idx)

end

end CardRouter

end OpenKey
