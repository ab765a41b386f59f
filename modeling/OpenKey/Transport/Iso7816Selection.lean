import Mathlib.Data.List.Induction
import OpenKey.Transport.Iso7816Routing

/-!
# Which applet is selected

**Theorem (`selection_in_force`).** After any commands the selection is that of the most recent
SELECT that succeeded, and a command other than SELECT and GET RESPONSE is handed to that applet and
to no other.

A SELECT chooses the applet with the AID it asks for, else the one with the longest AID that starts
with the bytes it asks for, the first of them if there are several. The search keeps the best applet
so far; the invariant is that it is the best of those it has passed.
-/

namespace OpenKey

open Prog (Keeps)

set_option autoImplicit false

namespace CardRouter

variable {γ : Type} (applets : List (CardApplet γ))

/-! ## The choice -/

/-- A SELECT of these bytes chooses this applet. -/
def Chooses (requested : Bytes) (idx : Nat) : Prop :=
  requested ≠ [] ∧ ∃ applet, applets[idx]? = some applet ∧
    ((applet.aid = requested ∧
        ∀ j other, applets[j]? = some other → other.aid = requested → idx ≤ j) ∨
      ((∀ other ∈ applets, other.aid ≠ requested) ∧ requested <+: applet.aid ∧
        ∀ j other, applets[j]? = some other → requested <+: other.aid →
          other.aid.length < applet.aid.length ∨
            other.aid.length = applet.aid.length ∧ idx ≤ j))

/-- What the search knows after it has passed some applets. -/
structure Passed (requested : Bytes) (best : Option Nat) (bestLen : Nat) : Prop where
  inexact : ∀ other ∈ applets, other.aid ≠ requested
  longest : ∀ j other, applets[j]? = some other → requested <+: other.aid →
    other.aid.length < bestLen ∨ other.aid.length = bestLen ∧ ∃ idx, best = some idx ∧ idx ≤ j
  empty : best = none → bestLen = 0
  found : ∀ idx, best = some idx →
    ∃ applet, applets[idx]? = some applet ∧ requested <+: applet.aid ∧ applet.aid.length = bestLen

variable {applets} {requested : Bytes} {best : Option Nat} {bestLen : Nat}

theorem passed_nil : Passed ([] : List (CardApplet γ)) requested none 0 where
  inexact _ h := absurd h List.not_mem_nil
  longest _ _ h := by cases h
  empty _ := rfl
  found _ h := by cases h

/-- An applet behind others is one of them or the last. -/
theorem getElem?_snoc {applet other : CardApplet γ} {j : Nat}
    (h : (applets ++ [applet])[j]? = some other) :
    applets[j]? = some other ∨ j = applets.length ∧ other = applet := by
  rcases Nat.lt_or_ge j applets.length with hlt | hge
  · rw [List.getElem?_append_left hlt] at h
    exact .inl h
  · have hlt := (List.getElem?_eq_some_iff.mp h).1
    rw [List.length_append, List.length_singleton] at hlt
    obtain rfl : j = applets.length := by omega
    rw [List.getElem?_concat_length] at h
    exact .inr ⟨rfl, (Option.some.inj h).symm⟩

theorem inexact_snoc {applet : CardApplet γ} (h : ∀ other ∈ applets, other.aid ≠ requested)
    (hne : applet.aid ≠ requested) : ∀ other ∈ applets ++ [applet], other.aid ≠ requested := by
  intro other hmem
  rcases List.mem_append.mp hmem with hmem | hmem
  · exact h other hmem
  · obtain rfl := List.mem_singleton.mp hmem
    exact hne

/-- The search passes an applet that is no better. -/
theorem Passed.skip {applet : CardApplet γ} (h : Passed applets requested best bestLen)
    (hreq : requested ≠ []) (hne : applet.aid ≠ requested)
    (hworse : requested <+: applet.aid → applet.aid.length ≤ bestLen) :
    Passed (applets ++ [applet]) requested best bestLen where
  inexact := inexact_snoc h.inexact hne
  longest j other hj hpre := by
    rcases getElem?_snoc hj with hj | ⟨rfl, rfl⟩
    · exact h.longest j other hj hpre
    · rcases Nat.lt_or_eq_of_le (hworse hpre) with hlt | heq
      · exact .inl hlt
      · -- an AID of that length has been found before
        cases hbest : best with
        | none =>
            have hlen := hpre.length_le
            rw [heq, h.empty hbest] at hlen
            exact absurd (List.eq_nil_of_length_eq_zero (Nat.le_zero.mp hlen)) hreq
        | some idx =>
            obtain ⟨a, ha, -⟩ := h.found idx hbest
            exact .inr ⟨heq, idx, rfl, Nat.le_of_lt (List.getElem?_eq_some_iff.mp ha).1⟩
  empty := h.empty
  found idx hidx := by
    obtain ⟨a, ha, hpre, hlen⟩ := h.found idx hidx
    refine ⟨a, ?_, hpre, hlen⟩
    rw [List.getElem?_append_left (List.getElem?_eq_some_iff.mp ha).1]
    exact ha

/-- The search passes an applet that is better. -/
theorem Passed.take {applet : CardApplet γ} (h : Passed applets requested best bestLen)
    (hne : applet.aid ≠ requested) (hpre : requested <+: applet.aid)
    (hlonger : bestLen < applet.aid.length) :
    Passed (applets ++ [applet]) requested (some applets.length) applet.aid.length where
  inexact := inexact_snoc h.inexact hne
  longest j other hj hpre' := by
    rcases getElem?_snoc hj with hj | ⟨rfl, rfl⟩
    · rcases h.longest j other hj hpre' with hlt | ⟨heq, -⟩
      · exact .inl (hlt.trans hlonger)
      · exact .inl (heq ▸ hlonger)
    · exact .inr ⟨rfl, _, rfl, Nat.le_refl _⟩
  empty hnone := by cases hnone
  found idx hidx := by
    cases hidx
    exact ⟨applet, List.getElem?_concat_length, hpre, rfl⟩

variable (applets requested) in
/-- What the search finds: nothing only if no AID starts with the bytes. -/
def Finds : Option Nat → Prop
  | none => ∀ other ∈ applets, ¬requested <+: other.aid
  | some idx => Chooses applets requested idx

/-- The search is over. -/
theorem Passed.done (h : Passed applets requested best bestLen) (hreq : requested ≠ []) :
    Finds applets requested best := by
  cases best with
  | none =>
      intro other hmem hpre
      obtain ⟨j, hj⟩ := List.getElem?_of_mem hmem
      rcases h.longest j other hj hpre with hlt | ⟨-, idx, hidx, -⟩
      · rw [h.empty rfl] at hlt
        exact absurd hlt (Nat.not_lt_zero _)
      · cases hidx
  | some idx =>
      obtain ⟨applet, hget, hpre, rfl⟩ := h.found idx rfl
      refine ⟨hreq, applet, hget, .inr ⟨h.inexact, hpre, fun j other hj hpre' => ?_⟩⟩
      rcases h.longest j other hj hpre' with hlt | ⟨heq, idx', hidx', hle⟩
      · exact .inl hlt
      · cases hidx'
        exact .inr ⟨heq, hle⟩

/-- The search, from what it knows of the applets it has passed. -/
theorem findApplet_spec (hreq : requested ≠ []) (rest : List (CardApplet γ)) :
    ∀ {init : List (CardApplet γ)} {best : Option Nat} {bestLen : Nat},
      Passed init requested best bestLen →
      Finds (init ++ rest) requested
        (findApplet requested ((List.range' init.length rest.length).zip rest) best bestLen) := by
  induction rest with
  | nil =>
      intro init best bestLen h
      rw [List.zip_nil_right, findApplet, List.append_nil]
      exact h.done hreq
  | cons applet rest ih =>
      intro init best bestLen h
      have hlength : (init ++ [applet]).length = init.length + 1 := by
        rw [List.length_append, List.length_singleton]
      have hsplit : init ++ applet :: rest = (init ++ [applet]) ++ rest := by
        rw [List.append_assoc, List.singleton_append]
      rw [List.length_cons, List.range'_succ, List.zip_cons_cons, findApplet]
      by_cases hexact : applet.aid = requested
      · rw [if_pos hexact]
        refine ⟨hreq, applet, ?_, .inl ⟨hexact, fun j other hj hother => ?_⟩⟩
        · rw [List.getElem?_append_right (Nat.le_refl _), Nat.sub_self]
          rfl
        · by_contra hlt
          rw [List.getElem?_append_left (Nat.lt_of_not_le hlt)] at hj
          exact h.inexact other (List.mem_of_getElem? hj) hother
      · rw [if_neg hexact, hsplit, ← hlength]
        by_cases hbetter : requested.isPrefixOf applet.aid ∧ applet.aid.length > bestLen
        · rw [if_pos hbetter]
          exact ih (h.take hexact (List.isPrefixOf_iff_prefix.mp hbetter.1) hbetter.2)
        · rw [if_neg hbetter]
          refine ih (h.skip hreq hexact fun hpre => Nat.le_of_not_lt fun hlt => hbetter ?_)
          exact ⟨List.isPrefixOf_iff_prefix.mpr hpre, hlt⟩

/-- A SELECT chooses at most one applet. -/
theorem Chooses.unique {i j : Nat} (hi : Chooses applets requested i)
    (hj : Chooses applets requested j) : i = j := by
  obtain ⟨-, a, ha, hcasea⟩ := hi
  obtain ⟨-, b, hb, hcaseb⟩ := hj
  rcases hcasea with ⟨hexacta, hfirsta⟩ | ⟨hnonea, hprea, hlonga⟩
  · rcases hcaseb with ⟨hexactb, hfirstb⟩ | ⟨hnoneb, -⟩
    · exact Nat.le_antisymm (hfirsta j b hb hexactb) (hfirstb i a ha hexacta)
    · exact absurd hexacta (hnoneb a (List.mem_of_getElem? ha))
  · rcases hcaseb with ⟨hexactb, -⟩ | ⟨-, hpreb, hlongb⟩
    · exact absurd hexactb (hnonea b (List.mem_of_getElem? hb))
    · have hab := hlonga j b hb hpreb
      have hba := hlongb i a ha hprea
      omega

theorem Chooses.isPrefix {idx : Nat} (h : Chooses applets requested idx) :
    ∃ applet ∈ applets, requested <+: applet.aid := by
  obtain ⟨-, applet, happlet, ⟨rfl, -⟩ | ⟨-, hpre, -⟩⟩ := h
  · exact ⟨applet, List.mem_of_getElem? happlet, List.prefix_rfl⟩
  · exact ⟨applet, List.mem_of_getElem? happlet, hpre⟩

variable (applets)

/-- Recording changes no AID. -/
theorem chooses_recording {idx : Nat} (h : Chooses (recording applets) requested idx) :
    Chooses applets requested idx := by
  obtain ⟨hreq, recorded, hget, hcase⟩ := h
  rw [getElem?_recording] at hget
  obtain ⟨applet, happlet, rfl⟩ := Option.map_eq_some_iff.mp hget
  have hother : ∀ {j : Nat} {other : CardApplet γ}, applets[j]? = some other →
      (recording applets)[j]? = some (other.recorded j) := by
    intro j other hj
    rw [getElem?_recording, hj]
    rfl
  refine ⟨hreq, applet, happlet, ?_⟩
  rcases hcase with ⟨hexact, hfirst⟩ | ⟨hnone, hpre, hlong⟩
  · exact .inl ⟨hexact, fun j other hj haid => hfirst j _ (hother hj) haid⟩
  · refine .inr ⟨fun other hmem => ?_, hpre, fun j other hj hpre' => hlong j _ (hother hj) hpre'⟩
    obtain ⟨j, hj⟩ := List.getElem?_of_mem hmem
    exact hnone _ (List.mem_of_getElem? (hother hj))

/-! ## One command -/

/-- The applet lets itself be selected. -/
def Accepts (r : CardRouter (γ × CommandLog)) (idx : Nat) : Prop :=
  ∃ applet, applets[idx]? = some applet ∧ (applet.select.run r.card.1).1 = .ok ()

/-- A command is a SELECT that succeeds, of this applet. -/
def Selects (r : CardRouter (γ × CommandLog)) (raw : Bytes) (idx : Nat) : Prop :=
  ∃ apdu, Apdu.parse raw = .ok apdu ∧ apdu.ins = 0xA4 ∧ Chooses applets apdu.data idx ∧
    Accepts applets r idx

/-- What a command hands to an applet, if this one is selected. -/
def handedTo (selected : Option Nat) (raw : Bytes) : CommandLog :=
  match Apdu.parse raw, selected with
  | .ok apdu, some idx => if apdu.ins = 0xC0 ∨ apdu.ins = 0xA4 then [] else [(idx, apdu)]
  | _, _ => []

variable {applets} {r : CardRouter (γ × CommandLog)}

theorem Selects.unique {raw : Bytes} {i j : Nat} (hi : Selects applets r raw i)
    (hj : Selects applets r raw j) : i = j := by
  obtain ⟨a, ha, -, hchoosea, -⟩ := hi
  obtain ⟨b, hb, -, hchooseb, -⟩ := hj
  obtain rfl := Except.ok.inj (ha.symm.trans hb)
  exact hchoosea.unique hchooseb

theorem not_selects_of_ins {raw : Bytes} {apdu : Apdu} (hparse : Apdu.parse raw = .ok apdu)
    (hins : apdu.ins ≠ 0xA4) (idx : Nat) : ¬Selects applets r raw idx := by
  rintro ⟨a, ha, hselect, -⟩
  obtain rfl := Except.ok.inj (ha.symm.trans hparse)
  exact hins hselect

/-- The moves that leave the selection alone. -/
def sameSelection : Prog.Frame (CardRouter (γ × CommandLog)) := .constant CardRouter.selected

theorem keeps_sameSelection_deliver (response : ResponseData) (le : Option Nat) :
    Keeps (sameSelection (γ := γ)) (deliver response le) :=
  .ite (fun _ => .pure _) fun _ => .ite (fun _ => .pure _) fun _ =>
    (Keeps.update fun _ => rfl).bind fun _ => .pure _

theorem keeps_sameSelection_serve (le : Option Nat) :
    Keeps (sameSelection (γ := γ)) (serveGetResponse le) := by
  refine (Keeps.act fun _ => rfl).bind fun chain => ?_
  cases chain with
  | none => exact .pure _
  | some chain =>
      exact .ite (fun _ => .pure _) fun _ => (Keeps.update fun _ => rfl).bind fun _ => .pure _

theorem keeps_sameSelection_route (apdu : Apdu) :
    Keeps (sameSelection (γ := γ)) (route (recording applets) apdu) := by
  refine (Keeps.read _).bind fun selected => ?_
  split
  · exact .pure _
  · have hcall : ∀ m : Prog (γ × CommandLog) Fault ResponseData,
        Keeps (sameSelection (γ := γ)) (onCard m) := fun _ _ => rfl
    exact (hcall _).bind fun result => keeps_sameSelection_deliver _ _

/-- A SELECT selects the applet it chooses if that accepts; else it changes nothing. -/
theorem selected_handleSelect (apdu : Apdu) :
    (∃ idx, Chooses applets apdu.data idx ∧ Accepts applets r idx ∧
        ((handleSelect (recording applets) apdu).run r).2.selected = some idx) ∨
      ((∀ idx, Chooses applets apdu.data idx → ¬Accepts applets r idx) ∧
        ((handleSelect (recording applets) apdu).run r).2.selected = r.selected) := by
  unfold handleSelect
  by_cases hempty : apdu.data = []
  · rw [if_pos hempty]
    exact .inr ⟨fun idx hchoose => absurd hempty hchoose.1, rfl⟩
  · rw [if_neg hempty]
    have hspec := findApplet_spec hempty (recording applets) passed_nil
    rw [List.nil_append, List.length_nil, ← List.range_eq_range'] at hspec
    cases hfind : findApplet apdu.data ((List.range (recording applets).length).zip
        (recording applets)) none 0 with
    | none =>
        rw [hfind] at hspec
        refine .inr ⟨fun idx hchoose => ?_, rfl⟩
        obtain ⟨applet, hmem, hpre⟩ := hchoose.isPrefix
        obtain ⟨j, hj⟩ := List.getElem?_of_mem hmem
        have hrecorded : (recording applets)[j]? = some (applet.recorded j) := by
          rw [getElem?_recording, hj]
          rfl
        exact absurd hpre (hspec _ (List.mem_of_getElem? hrecorded))
    | some idx =>
        rw [hfind] at hspec
        have hchooses : Chooses applets apdu.data idx := chooses_recording applets hspec
        obtain ⟨-, applet, happlet, -⟩ := hchooses
        simp only [getElem?_recording, happlet, Option.map_some]
        have hrun : (onCard (applet.recorded idx).select).run r =
            (Fault.status? (applet.select.run r.card.1).1,
              { r with card := ((applet.select.run r.card.1).2, r.card.2) }) := rfl
        have haccepts : Accepts applets r idx ↔ (applet.select.run r.card.1).1 = .ok () := by
          constructor
          · rintro ⟨a, ha, hok⟩
            obtain rfl := Option.some.inj (ha.symm.trans happlet)
            exact hok
          · exact fun hok => ⟨applet, happlet, hok⟩
        have hrefused : (applet.select.run r.card.1).1 ≠ .ok () →
            ∀ j, Chooses applets apdu.data j → ¬Accepts applets r j := by
          intro hnot j hj haccept
          obtain rfl := hj.unique (chooses_recording applets hspec)
          exact hnot (haccepts.mp haccept)
        rw [Prog.run_bind, hrun]
        cases hresult : (applet.select.run r.card.1).1 with
        | ok _ =>
            refine .inl ⟨idx, chooses_recording applets hspec, haccepts.mpr hresult, ?_⟩
            show ((onCard (applet.recorded idx).selectResponse >>= _).run _).2.selected = some idx
            refine (Keeps.bind (fun _ => rfl) fun data => ?_ : Keeps (sameSelection (γ := γ))
              (onCard (applet.recorded idx).selectResponse >>= _)) _
            cases data <;> exact .pure _
        | error fault =>
            refine .inr ⟨hrefused (by rw [hresult]; intro h; cases h), ?_⟩
            cases fault <;> rfl

/-- A command either is a SELECT that succeeds, and selects, or leaves the selection alone. -/
theorem selected_next (raw : Bytes) :
    (∃ idx, Selects applets r raw idx ∧ (next applets r raw).selected = some idx) ∨
      ((∀ idx, ¬Selects applets r raw idx) ∧ (next applets r raw).selected = r.selected) := by
  cases hparse : Apdu.parse raw with
  | error error =>
      refine .inr ⟨?_, ?_⟩
      · rintro idx ⟨apdu, hapdu, -⟩
        rw [hparse] at hapdu
        cases hapdu
      · simp only [next, process, hparse]
        rfl
  | ok apdu =>
      by_cases hget : apdu.ins = 0xC0
      · refine .inr ⟨not_selects_of_ins hparse (by rw [hget]; decide), ?_⟩
        simp only [next, process, hparse, if_pos hget]
        exact keeps_sameSelection_serve apdu.le r
      by_cases hselect : apdu.ins = 0xA4
      · have hnext : next applets r raw =
            ((handleSelect (recording applets) apdu).run { r with chain := none }).2 := by
          simp only [next, process, hparse, if_neg hget, if_pos hselect]
          rfl
        rw [hnext]
        rcases selected_handleSelect (r := { r with chain := none }) apdu with
          ⟨idx, hchoose, haccept, hsel⟩ | ⟨hrefused, hsel⟩
        · exact .inl ⟨idx, ⟨apdu, hparse, hselect, hchoose, haccept⟩, hsel⟩
        · refine .inr ⟨?_, hsel⟩
          rintro idx ⟨a, ha, -, hchoose, haccept⟩
          obtain rfl := Except.ok.inj (ha.symm.trans hparse)
          exact hrefused idx hchoose haccept
      · refine .inr ⟨not_selects_of_ins hparse hselect, ?_⟩
        rw [next_routed applets hparse hget hselect]
        exact @keeps_sameSelection_route _ applets apdu _

/-- What a command hands to the applets. -/
theorem log_next (hreg : Registered applets r) (raw : Bytes) :
    log (next applets r raw) = log r ++ handedTo r.selected raw ∧
      Registered applets (next applets r raw) := by
  refine ⟨?_, (next_log applets hreg raw).1⟩
  unfold handedTo
  cases hparse : Apdu.parse raw with
  | error error =>
      simp only [next, process, hparse]
      exact (List.append_nil _).symm
  | ok apdu =>
      by_cases hkept : apdu.ins = 0xC0 ∨ apdu.ins = 0xA4
      · have hsame : log (next applets r raw) = log r :=
          (unrecorded_next applets hparse hkept r).1
        rw [hsame]
        cases r.selected <;> simp [hkept]
      · obtain ⟨hget, hselect⟩ := not_or.mp hkept
        rw [next_routed applets hparse hget hselect]
        obtain hsel | ⟨idx, hsel⟩ := Option.eq_none_or_eq_some r.selected
        · rw [route_unselected applets (r := { r with chain := none }) hsel, hsel]
          exact (List.append_nil _).symm
        · rw [(keeps_route applets (r := { r with chain := none }) apdu hsel hreg).1, hsel]
          simp only [if_neg hkept]
          rfl

/-! ## Runs -/

variable (applets)

/-- The router that commands leave behind, from a new one. -/
def reached (card : γ) (raws : List Bytes) : CardRouter (γ × CommandLog) :=
  runAll applets ⟨(card, []), none, none⟩ raws

/-- The applet of the most recent SELECT that succeeded. -/
inductive InForce (card : γ) : List Bytes → Option Nat → Prop
  | start : InForce card [] none
  | selects {raws : List Bytes} {raw : Bytes} {before : Option Nat} {idx : Nat} :
      InForce card raws before → Selects applets (reached applets card raws) raw idx →
      InForce card (raws ++ [raw]) (some idx)
  | keeps {raws : List Bytes} {raw : Bytes} {before : Option Nat} :
      InForce card raws before → (∀ idx, ¬Selects applets (reached applets card raws) raw idx) →
      InForce card (raws ++ [raw]) before

theorem runAll_snoc (raws : List Bytes) (raw : Bytes) (r : CardRouter (γ × CommandLog)) :
    runAll applets r (raws ++ [raw]) = next applets (runAll applets r raws) raw := by
  induction raws generalizing r with
  | nil => rfl
  | cons first raws ih => exact ih _

theorem registered_reached (card : γ) (raws : List Bytes) :
    Registered applets (reached applets card raws) := by
  induction raws using List.reverseRecOn with
  | nil =>
      intro idx hidx
      cases hidx
  | append_singleton raws raw ih =>
      rw [reached, runAll_snoc]
      exact (log_next ih raw).2

/-- After any commands, the applet of the most recent SELECT that succeeded is selected, and it
alone is handed the next command, unless that is a SELECT or a GET RESPONSE. -/
theorem selection_in_force (card : γ) (raws : List Bytes) :
    ∃ selected, InForce applets card raws selected ∧
      (reached applets card raws).selected = selected ∧
      ∀ raw, log (next applets (reached applets card raws) raw) =
        log (reached applets card raws) ++ handedTo selected raw := by
  have hstep := fun raw => (log_next (registered_reached applets card raws) raw).1
  suffices h : InForce applets card raws (reached applets card raws).selected from
    ⟨_, h, rfl, hstep⟩
  clear hstep
  induction raws using List.reverseRecOn with
  | nil => exact .start
  | append_singleton raws raw ih =>
      have hsnoc : reached applets card (raws ++ [raw]) =
        next applets (reached applets card raws) raw :=
        runAll_snoc applets raws raw _
      rw [hsnoc]
      rcases @selected_next _ applets (reached applets card raws) raw with
        ⟨idx, hselects, hsel⟩ | ⟨hnone, hsel⟩
      · rw [hsel]
        exact .selects ih hselects
      · rw [hsel]
        exact .keeps ih hnone

/-- The commands decide which applet that is. -/
theorem InForce.unique {card : γ} {raws : List Bytes} {s : Option Nat}
    (h : InForce applets card raws s) : s = (reached applets card raws).selected := by
  induction h with
  | start => rfl
  | @selects raws raw before idx hbefore hselects ih =>
      rw [reached, runAll_snoc]
      rcases @selected_next _ applets (reached applets card raws) raw with
        ⟨idx', hselects', hsel⟩ | ⟨hnone, -⟩
      · exact (congrArg some (hselects.unique hselects')).trans hsel.symm
      · exact absurd hselects (hnone idx)
  | @keeps raws raw before hbefore hnone ih =>
      rw [reached, runAll_snoc]
      rcases @selected_next _ applets (reached applets card raws) raw with
        ⟨idx, hselects, -⟩ | ⟨-, hsel⟩
      · exact absurd hselects (hnone idx)
      · exact ih.trans hsel.symm

end CardRouter

end OpenKey
