import OpenKey.Device.ManagementHolder
import OpenKey.Device.OathBook
import OpenKey.Device.OpenPgpHolder
import OpenKey.Device.PivHolder
import OpenKey.Transport.Iso7816Answers

/-!
# The card as its reader sees it

What a reader knows that has seen everything that went to the card and came back: the applet that
is selected, what the card still owes of a response, and of each applet what its holder knows.

**Transcripts (`card_transcript`).** Over a storage that does not fail, this explains every answer
to every sequence of bytes and reboots. A response is handed out over the bytes that are asked for,
by the command itself and by GET RESPONSE alike; SELECT chooses an applet by its AID; any other
command is one of the applet that is selected, and the other applets are not touched.
-/

namespace OpenKey

set_option autoImplicit false

/-! ## Each applet -/

namespace AppletName

/-- What a holder knows of an applet. -/
def View : AppletName → Type
  | .management => ManagementState
  | .oath => OathView
  | .piv => PivView
  | .openPgp => OpenPgpView

/-- What is known of an applet that has just been built. -/
def viewOf : (n : AppletName) → n.State → n.View
  | .management => id
  | .oath => OathView.ofState
  | .piv => PivView.ofState
  | .openPgp => OpenPgpView.ofState

/-- What a holder may see, and what it then knows. -/
def Explains (crypto : AppletCrypto) (verifiers : Verifiers) :
    (n : AppletName) → n.View → AppletUse × Except Fault ResponseData → n.View → Prop
  | .management => Management.Explains
  | .oath => Oath.Explains crypto
  | .piv => PivView.Explains crypto verifiers
  | .openPgp => OpenPgpView.Explains crypto verifiers

/-- A cell is as is known. -/
def Shows (crypto : AppletCrypto) : (n : AppletName) → Cell n.State n.Session → n.View → Prop
  | .management => Management.Shows
  | .oath => Oath.Shows
  | .piv => PivView.Shows crypto
  | .openPgp => OpenPgpView.Shows crypto

/-- The keys of a state came from the generator. -/
def Genuine (crypto : AppletCrypto) : (n : AppletName) → n.State → Prop
  | .management => fun _ => True
  | .oath => fun _ => True
  | .piv => fun state : PivState => ∀ key ∈ state.keys, key.key.Generated crypto
  | .openPgp => fun state : OpenPgpState => ∀ key ∈ state.sigKey, key.Generated crypto

section

variable {crypto : AppletCrypto} {n : AppletName} {c : Cell n.State n.Session} {v : n.View}

/-- Nothing is known of the draws. -/
theorem Shows.withRng (h : n.Shows crypto c v) (rng : Nat → Entropy) :
    n.Shows crypto ⟨c.toCellSeat, rng⟩ v := by
  cases n with
  | management => exact ⟨h.held, h.kept⟩
  | oath => exact ⟨h.book, h.access, h.challenge, h.validated, h.remaining, h.kept⟩
  | piv => exact ⟨h.pin, h.retries, h.verified, h.keys, h.certs, h.generated, h.kept⟩
  | openPgp => exact ⟨h.password, h.retries, h.verified, h.key, h.generated, h.kept⟩

theorem shows_viewOf {state : n.State} (hgenuine : n.Genuine crypto state) (rng : Nat → Entropy) :
    n.Shows crypto ⟨⟨state, state, n.fresh⟩, rng⟩ (n.viewOf state) := by
  cases n with
  | management => exact ⟨rfl, rfl⟩
  | oath => exact Oath.shows_ofState state rng
  | piv => exact ⟨rfl, rfl, rfl, fun _ => rfl, fun _ => rfl, hgenuine, rfl⟩
  | openPgp => exact ⟨fun _ => rfl, fun _ => rfl, rfl, rfl, hgenuine, rfl⟩

/-- A factory state has no keys. -/
theorem genuine_factory {patience : Nat} {rng rng' : Nat → Entropy} {state : n.State}
    (h : (n.format patience).factory.run rng = (.ok state, rng')) : n.Genuine crypto state := by
  cases n with
  | management => trivial
  | oath => trivial
  | piv =>
    obtain rfl := Except.ok.inj (congrArg Prod.fst h)
    intro key hkey
    cases hkey
  | openPgp =>
    obtain rfl := Except.ok.inj (congrArg Prod.fst h)
    intro key hkey
    cases hkey

variable {verifiers : Verifiers}

theorem explains_use (hsound : verifiers.Sound crypto.prims) (h : n.Shows crypto c v)
    (e : AppletUse) : ∃ w, n.Explains crypto verifiers v (e, ((Cell.use crypto n e).run c).1) w ∧
      n.Shows crypto ((Cell.use crypto n e).run c).2 w := by
  cases n with
  | management => exact Management.explains_use h e
  | oath => exact Oath.explains_use h e
  | piv => exact PivView.explains_use h hsound e
  | openPgp => exact OpenPgpView.explains_use h hsound e

/-- No applet refuses to be selected. -/
theorem Explains.select {answer : Except Fault ResponseData} {w : n.View}
    (h : n.Explains crypto verifiers v (.select, answer) w) : ∃ data, answer = .ok (.ok data) := by
  cases n with
  | management =>
    cases h with
    | selected => exact ⟨_, rfl⟩
  | oath =>
    cases h with
    | selected _ => exact ⟨_, rfl⟩
    | challenged _ _ => exact ⟨_, rfl⟩
  | piv =>
    cases h with
    | selected => exact ⟨_, rfl⟩
  | openPgp =>
    cases h with
    | selected _ => exact ⟨_, rfl⟩

/-- A SELECT succeeds in both of its parts. -/
theorem explains_selected (hsound : verifiers.Sound crypto.prims) (h : n.Shows crypto c v) :
    ∃ data c' d w, Cell.run n.select c = (.ok (), c') ∧
      Cell.run n.selectResponse c' = (.ok data, d) ∧
      n.Explains crypto verifiers v (.select, .ok (.ok data)) w ∧ n.Shows crypto d w := by
  obtain ⟨w, hexplains, hshows⟩ := explains_use hsound h .select
  obtain ⟨data, hdata⟩ := hexplains.select
  rw [hdata] at hexplains
  have hrun : (Cell.use crypto n .select).run c = Cell.run n.selected c := rfl
  rw [hrun] at hdata hshows
  unfold selected at hdata hshows
  rw [Cell.run_bind] at hdata hshows
  rcases hselect : Cell.run n.select c with ⟨fault | u, c'⟩
  · rw [hselect] at hdata
    cases hdata
  · rw [hselect] at hdata hshows
    simp only at hdata hshows
    rw [Cell.run_bind] at hdata hshows
    rcases hresponse : Cell.run n.selectResponse c' with ⟨fault | told, d⟩
    · rw [hresponse] at hdata
      cases hdata
    · rw [hresponse] at hdata hshows
      cases hdata
      exact ⟨_, c', d, w, rfl, hresponse, hexplains, hshows⟩

end

end AppletName

/-! ## The card of cells -/

namespace CellCard

/-- The applet at a place. -/
theorem applets_place (crypto : AppletCrypto) (n : AppletName) :
    (applets crypto)[Card.place n]? = some (applet crypto n) := by
  cases n with
  | management => rfl
  | oath => rfl
  | piv => rfl
  | openPgp => rfl

/-- Every place in the router is that of one applet. -/
theorem place_of_applets {crypto : AppletCrypto} {idx : Nat} {x : CardApplet CellCard}
    (h : (applets crypto)[idx]? = some x) : ∃ n, idx = Card.place n := by
  rcases idx with _ | _ | _ | _ | idx
  · exact ⟨.management, rfl⟩
  · exact ⟨.oath, rfl⟩
  · exact ⟨.piv, rfl⟩
  · exact ⟨.openPgp, rfl⟩
  · cases h

theorem setCell_setCell {n : AppletName} (c d : Cell n.State n.Session) (a : CellCard) :
    (a.setCell n c).setCell n d = a.setCell n d := by
  unfold setCell
  simp only [Function.update_idem]

/-- One applet has worked, and of the others the same is known. -/
theorem shows_setCell {crypto : AppletCrypto} {a : CellCard} {views : (n : AppletName) → n.View}
    (h : ∀ n : AppletName, n.Shows crypto (a.cell n) (views n)) {n : AppletName}
    {d : Cell n.State n.Session} {w : n.View} (hd : n.Shows crypto d w) (n' : AppletName) :
    n'.Shows crypto ((a.setCell n d).cell n') (Function.update views n w n') := by
  by_cases hn : n' = n
  · subst hn
    rw [cell_setCell, Function.update_self]
    exact hd
  · rw [cell_setCell_of_ne hn, Function.update_of_ne hn]
    exact (h n').withRng d.rng

end CellCard

/-! ## Transcripts of the card -/

/-- What a reader knows of the card. -/
structure CardView where
  selected : Option AppletName
  /-- What is left of a response, and the status word at its end. -/
  owed : Option (Bytes × UInt16)
  views : (n : AppletName) → n.View

namespace CardView

open CardRouter
open Card (HostEvent)

/-- The applet that a SELECT chooses among those of the card. -/
def Names (crypto : AppletCrypto) (apdu : Apdu) (n : AppletName) : Prop :=
  Chooses (CellCard.applets crypto) apdu.data (Card.place n)

/-- The response to a command of an applet, as it is handed out. -/
def handed (reply : Except UInt16 ResponseData) (le : Option Nat) :
    ResponseData × Option (Bytes × UInt16) :=
  handOut (replyOf reply).data ((replyOf reply).sw.getD swNoError) (le.getD 0)

/-- What a reader may see that knows this much, and what it then knows. -/
inductive Explains (crypto : AppletCrypto) (verifiers : Verifiers) :
    CardView → HostEvent × Except Fault (Option ResponseData) → CardView → Prop
  | malformed {v : CardView} {raw : Bytes} {e : ApduParseError}
      (hparse : Apdu.parse raw = .error e) :
      Explains crypto verifiers v (.apdu raw, .ok (some (.withSw [] swWrongLength))) v
  | fetched {v : CardView} {raw : Bytes} {apdu : Apdu} {left : Bytes} {sw : UInt16}
      (hparse : Apdu.parse raw = .ok apdu) (hins : apdu.ins = 0xC0)
      (howed : v.owed = some (left, sw)) : Explains crypto verifiers v
        (.apdu raw, .ok (some (handOut left sw (apdu.le.getD 256)).1))
        { v with owed := (handOut left sw (apdu.le.getD 256)).2 }
  | unfetched {v : CardView} {raw : Bytes} {apdu : Apdu} (hparse : Apdu.parse raw = .ok apdu)
      (hins : apdu.ins = 0xC0) (howed : v.owed = none) : Explains crypto verifiers v
        (.apdu raw, .ok (some (.withSw [] swConditionsNotSatisfied))) v
  | selected {v : CardView} {raw : Bytes} {apdu : Apdu} {n : AppletName} {data : Bytes} {w : n.View}
      (hparse : Apdu.parse raw = .ok apdu) (hins : apdu.ins = 0xA4) (hnames : Names crypto apdu n)
      (h : n.Explains crypto verifiers (v.views n) (.select, .ok (.ok data)) w) :
      Explains crypto verifiers v (.apdu raw, .ok (some (.withSw data swNoError)))
        ⟨some n, none, Function.update v.views n w⟩
  | absent {v : CardView} {raw : Bytes} {apdu : Apdu} (hparse : Apdu.parse raw = .ok apdu)
      (hins : apdu.ins = 0xA4) (hnames : ∀ n, ¬Names crypto apdu n) : Explains crypto verifiers v
        (.apdu raw, .ok (some (.withSw [] swFileNotFound))) { v with owed := none }
  | served {v : CardView} {raw : Bytes} {apdu : Apdu} {n : AppletName} {w : n.View}
      {answer : Except Fault ResponseData} {reply : Except UInt16 ResponseData}
      (hparse : Apdu.parse raw = .ok apdu) (hins : apdu.ins ≠ 0xC0 ∧ apdu.ins ≠ 0xA4)
      (hselected : v.selected = some n)
      (h : n.Explains crypto verifiers (v.views n) (.command apdu, answer) w)
      (hreply : Fault.status? answer = .ok reply) :
      Explains crypto verifiers v (.apdu raw, .ok (some (handed reply apdu.le).1))
        { v with owed := (handed reply apdu.le).2, views := Function.update v.views n w }
  | failed {v : CardView} {raw : Bytes} {apdu : Apdu} {n : AppletName} {w : n.View}
      {answer : Except Fault ResponseData} {fault : Fault}
      (hparse : Apdu.parse raw = .ok apdu) (hins : apdu.ins ≠ 0xC0 ∧ apdu.ins ≠ 0xA4)
      (hselected : v.selected = some n)
      (h : n.Explains crypto verifiers (v.views n) (.command apdu, answer) w)
      (hfault : Fault.status? answer = .error fault) :
      Explains crypto verifiers v (.apdu raw, .error fault)
        { v with owed := none, views := Function.update v.views n w }
  | unserved {v : CardView} {raw : Bytes} {apdu : Apdu} (hparse : Apdu.parse raw = .ok apdu)
      (hins : apdu.ins ≠ 0xC0 ∧ apdu.ins ≠ 0xA4) (hselected : v.selected = none) :
      Explains crypto verifiers v (.apdu raw, .ok (some (.withSw [] swInsNotSupported)))
        { v with owed := none }
  | rebooted {v : CardView} {rng : Nat → Entropy} {views : (n : AppletName) → n.View}
      (h : ∀ n : AppletName,
        n.Explains crypto verifiers (v.views n) (.reboot rng, .ok (.ok [])) (views n)) :
      Explains crypto verifiers v (.reboot rng, .ok none) ⟨none, none, views⟩

/-- The router in front of the cells is as is known. -/
structure Shows (crypto : AppletCrypto) (r : CardRouter CellCard) (v : CardView) : Prop where
  selected : r.selected = v.selected.map Card.place
  owes : Owes r.chain v.owed
  views : ∀ n : AppletName, n.Shows crypto (r.card.cell n) (v.views n)

section

variable {crypto : AppletCrypto} {verifiers : Verifiers} (hsound : verifiers.Sound crypto.prims)
  {r : CardRouter CellCard} {v : CardView} {raw : Bytes} {apdu : Apdu}

/-- The bytes of a command, once they are parsed. -/
theorem run_process_parsed (hparse : Apdu.parse raw = .ok apdu) :
    (process (CellCard.applets crypto) raw).run r =
      if apdu.ins = 0xC0 then (serveGetResponse apdu.le).run r
      else if apdu.ins = 0xA4 then
        (handleSelect (CellCard.applets crypto) apdu).run { r with chain := none }
      else (route (CellCard.applets crypto) apdu).run { r with chain := none } := by
  unfold process
  simp only [hparse]
  by_cases hget : apdu.ins = 0xC0
  · rw [if_pos hget, if_pos hget]
  · rw [if_neg hget, if_neg hget, Prog.run_update_bind]
    by_cases hselect : apdu.ins = 0xA4
    · rw [if_pos hselect, if_pos hselect]
    · rw [if_neg hselect, if_neg hselect]

/-- An answer is explained, and the router is then as is known. -/
def Explained (crypto : AppletCrypto) (verifiers : Verifiers) (v : CardView) (raw : Bytes)
    (out : Except Fault ResponseData × CardRouter CellCard) : Prop :=
  ∃ w, Explains crypto verifiers v (.apdu raw, out.1.map some) w ∧ Shows crypto out.2 w

omit hsound in
theorem explained_getResponse (h : Shows crypto r v) (hparse : Apdu.parse raw = .ok apdu)
    (hins : apdu.ins = 0xC0) :
    Explained crypto verifiers v raw ((serveGetResponse apdu.le).run r) := by
  cases howed : v.owed with
  | none =>
    have hchain : r.chain = none := by
      have hleft := h.owes.left
      rw [howed] at hleft
      exact Option.map_eq_none_iff.mp hleft.symm
    rw [run_serveGetResponse_none hchain]
    exact ⟨v, .unfetched hparse hins howed, h⟩
  | some owed =>
    obtain ⟨left, sw⟩ := owed
    have howes := h.owes
    rw [howed] at howes
    obtain ⟨chain, hrun, hchain⟩ := run_serveGetResponse_handOut howes apdu.le
    rw [hrun]
    exact ⟨_, .fetched hparse hins howed, h.selected, hchain, h.views⟩

include hsound

theorem explained_select (h : Shows crypto r v) (hparse : Apdu.parse raw = .ok apdu)
    (hins : apdu.ins = 0xA4) : Explained crypto verifiers v raw
      ((handleSelect (CellCard.applets crypto) apdu).run { r with chain := none }) := by
  by_cases hnames : ∃ n, Names crypto apdu n
  · obtain ⟨n, hnames⟩ := hnames
    obtain ⟨data, c, d, w, hselect, hresponse, hexplains, hshows⟩ :=
      AppletName.explains_selected hsound (h.views n)
    have hcall : (CellCard.applet crypto n).select.run r.card = (.ok (), r.card.setCell n c) := by
      show ((Cell.run n.select (r.card.cell n)).1,
        r.card.setCell n (Cell.run n.select (r.card.cell n)).2) = _
      rw [hselect]
    have hcall' : (CellCard.applet crypto n).selectResponse.run (r.card.setCell n c) =
        (.ok data, r.card.setCell n d) := by
      show ((Cell.run n.selectResponse ((r.card.setCell n c).cell n)).1,
        (r.card.setCell n c).setCell n
          (Cell.run n.selectResponse ((r.card.setCell n c).cell n)).2) = _
      rw [CellCard.cell_setCell, hresponse, CellCard.setCell_setCell]
    rw [run_handleSelect_chosen (r := { r with chain := none }) hnames
      (CellCard.applets_place crypto n) hcall hcall']
    exact ⟨_, .selected hparse hins hnames hexplains, rfl, owes_none,
      CellCard.shows_setCell h.views hshows⟩
  · have hchooses : ∀ idx, ¬Chooses (CellCard.applets crypto) apdu.data idx := by
      intro idx hchoose
      obtain ⟨-, x, hx, -⟩ := id hchoose
      obtain ⟨n, rfl⟩ := CellCard.place_of_applets hx
      exact hnames ⟨n, hchoose⟩
    rw [run_handleSelect_unchosen hchooses]
    exact ⟨_, .absent hparse hins fun n hn => hnames ⟨n, hn⟩, h.selected, owes_none, h.views⟩

theorem explained_route (h : Shows crypto r v) (hparse : Apdu.parse raw = .ok apdu)
    (hins : apdu.ins ≠ 0xC0 ∧ apdu.ins ≠ 0xA4) : Explained crypto verifiers v raw
      ((route (CellCard.applets crypto) apdu).run { r with chain := none }) := by
  unfold route
  rw [Prog.run_read_bind]
  cases hselected : v.selected with
  | none =>
    have hnone : (r.selected.bind fun idx => (CellCard.applets crypto)[idx]?) = none := by
      rw [h.selected, hselected]
      rfl
    simp only [hnone]
    exact ⟨_, .unserved hparse hins hselected, h.selected, owes_none, h.views⟩
  | some n =>
    have hplace : (r.selected.bind fun idx => (CellCard.applets crypto)[idx]?) =
        some (CellCard.applet crypto n) := by
      rw [h.selected, hselected]
      exact CellCard.applets_place crypto n
    simp only [hplace]
    obtain ⟨w, hexplains, hshows⟩ := AppletName.explains_use hsound (h.views n) (.command apdu)
    have hcall : (onCard ((CellCard.applet crypto n).process apdu)).run { r with chain := none } =
        (Fault.status? ((Cell.use crypto n (.command apdu)).run (r.card.cell n)).1,
          { r with card := r.card.setCell n ((Cell.use crypto n (.command apdu)).run
            (r.card.cell n)).2, chain := none }) := rfl
    have hviews := CellCard.shows_setCell h.views hshows
    rw [Prog.run_bind, hcall]
    cases hreply : Fault.status? ((Cell.use crypto n (.command apdu)).run (r.card.cell n)).1 with
    | error fault =>
      exact ⟨_, .failed hparse hins hselected hexplains hreply, h.selected, owes_none, hviews⟩
    | ok reply =>
      obtain ⟨chain, hrun, hchain⟩ := run_deliver_handOut (r := { r with
        card := r.card.setCell n ((Cell.use crypto n (.command apdu)).run (r.card.cell n)).2
        chain := none }) rfl (replyOf reply) apdu.le
      show Explained crypto verifiers v raw ((deliver (replyOf reply) apdu.le).run _)
      rw [hrun]
      exact ⟨_, .served hparse hins hselected hexplains hreply, h.selected, hchain, hviews⟩

/-- Every event at the router is explained by what was known. -/
theorem explains_serve (h : Shows crypto r v) (e : HostEvent) : ∃ w,
    Explains crypto verifiers v (e, ((CellCard.serve crypto e).run r).1) w ∧
      Shows crypto ((CellCard.serve crypto e).run r).2 w := by
  cases e with
  | apdu raw =>
    have hexplained : Explained crypto verifiers v raw
        ((process (CellCard.applets crypto) raw).run r) := by
      cases hparse : Apdu.parse raw with
      | error e =>
        unfold process
        simp only [hparse]
        exact ⟨v, .malformed hparse, h⟩
      | ok apdu =>
        rw [run_process_parsed hparse]
        by_cases hget : apdu.ins = 0xC0
        · rw [if_pos hget]
          exact explained_getResponse h hparse hget
        · rw [if_neg hget]
          by_cases hselect : apdu.ins = 0xA4
          · rw [if_pos hselect]
            exact explained_select hsound h hparse hselect
          · rw [if_neg hselect]
            exact explained_route hsound h hparse ⟨hget, hselect⟩
    obtain ⟨w, hexplains, hshows⟩ := hexplained
    refine ⟨w, ?_⟩
    rw [CellCard.serve, Prog.run_bind]
    rcases hrun : (process (CellCard.applets crypto) raw).run r with ⟨fault | response, r'⟩
    · rw [hrun] at hexplains hshows
      exact ⟨hexplains, hshows⟩
    · rw [hrun] at hexplains hshows
      exact ⟨hexplains, hshows⟩
  | reboot rng =>
    choose views hexplains hshows using
      fun n : AppletName => AppletName.explains_use hsound (h.views n) (.reboot rng)
    exact ⟨_, .rebooted hexplains, rfl, owes_none, hshows⟩

end

end CardView

namespace Card

variable {β : Type} [StorageBackend β] [LawfulBackend β]

omit [LawfulBackend β] in
/-- After a boot, what is known of the cells is what their states tell. -/
theorem shows_opened {codec : Codec StoredCredential} {crypto : AppletCrypto} {patience : Nat}
    {b : β} {a : CellCard}
    (hopened : ∀ n, (a.seats n).session = n.fresh ∧ (a.seats n).kept = (a.seats n).state ∧
      Host.Opens crypto (n.format patience) (StorageEngine.withBackend codec b) (a.seats n).state)
    (hgenuine : ∀ (n : AppletName) (state : n.State), Host.Opens crypto (n.format patience)
      (StorageEngine.withBackend codec b) state → n.Genuine crypto state) :
    CardView.Shows crypto ⟨a, none, none⟩
      ⟨none, none, fun n => n.viewOf (a.seats n).state⟩ := by
  refine ⟨rfl, CardRouter.owes_none, fun n => ?_⟩
  obtain ⟨hsession, hkept, hopens⟩ := hopened n
  have hcell : a.cell n = ⟨⟨(a.seats n).state, (a.seats n).state, n.fresh⟩, a.rng⟩ := by
    unfold CellCard.cell
    rw [← hsession]
    exact congrArg (fun kept =>
      Cell.mk ⟨(a.seats n).state, kept, (a.seats n).session⟩ a.rng) hkept
  rw [hcell]
  exact AppletName.shows_viewOf (hgenuine n _ hopens) _

/-- Over a storage that does not fail, all that the card answers to any bytes is explained by what a
reader knows that has seen all of it, and knew the states at the beginning. -/
theorem card_transcript (codec : Codec StoredCredential) {crypto : AppletCrypto}
    (haead : AeadSound crypto.prims) (htotal : AeadTotal crypto.prims) {verifiers : Verifiers}
    (hsound : verifiers.Sound crypto.prims) {patience : Nat} {names : List AppletName}
    (hnodup : names.Nodup) (hall : ∀ n, n ∈ names) {b : β} {rng : Nat → Entropy} {c : Card β}
    (hgenuine : ∀ (n : AppletName) (state : n.State), Host.Opens crypto (n.format patience)
      (StorageEngine.withBackend codec b) state → n.Genuine crypto state)
    (hboot : (build crypto patience names).run (blank (.withBackend codec b) rng) = (.ok (), c)) :
    ∃ states : (n : AppletName) → n.State,
      (∀ n, Host.Opens crypto (n.format patience) (StorageEngine.withBackend codec b) (states n)) ∧
      ∀ events : List HostEvent, ∃ w, Transcript (CardView.Explains crypto verifiers)
        ⟨none, none, fun n => n.viewOf (states n)⟩
        (events.zip (Prog.results (serve codec crypto patience names) events ⟨c, none, none⟩).1)
        w := by
  obtain ⟨a, hopened, halike⟩ := build_alike codec haead hnodup hall b rng hboot
  have hshows := shows_opened hopened hgenuine
  refine ⟨fun n => (a.seats n).state, fun n => (hopened n).2.2, fun events => ?_⟩
  rw [(Prog.Simulates.results (simulates_serve codec haead htotal patience hnodup hall) events
    halike).1]
  obtain ⟨w, hlog, -⟩ := Transcript.of_results (R := CardView.Shows crypto)
    (fun e _ _ hshows => CardView.explains_serve hsound hshows e) events hshows
  exact ⟨w, hlog⟩

/-! ## A response in two pieces, and a PIN before a reboot -/

/-- READ CONFIG four bytes at a time, a wrong PIN, and the same VERIFY after a reboot. -/
def readerEvents : List HostEvent :=
  let verify := [0x00, 0x20, 0x00, 0x80, 0x06, 0x31, 0x31, 0x31, 0x31, 0x31, 0x31]
  [.apdu [0x00, 0xA4, 0x04, 0x00, 0x08, 0xA0, 0x00, 0x00, 0x05, 0x27, 0x47, 0x11, 0x17],
    .apdu [0x00, 0x1D, 0x00, 0x00, 0x04], .apdu [0x00, 0xC0, 0x00, 0x00, 0x00],
    .apdu [0x00, 0xA4, 0x04, 0x00, 0x05, 0xA0, 0x00, 0x00, 0x03, 0x08], .apdu verify,
    .reboot (KnownAead.constantDraws 0x09), .apdu verify]

def readerAnswers : List (Except Fault (Option ResponseData)) :=
  [.ok (some (.withSw [0x35, 0x2E, 0x34, 0x2E, 0x30] 0x9000)),
    .ok (some (.withSw [0x16, 0x01, 0x02, 0x06] 0x6113)),
    .ok (some (.withSw [0x2E, 0x02, 0x04, 0x09, 0x09, 0x09, 0x09, 0x03, 0x02, 0x06, 0x2E, 0x04,
      0x01, 0x01, 0x05, 0x03, 0x05, 0x04, 0x00] 0x9000)),
    .ok (some (.withSw [] 0x9000)), .ok (some (.withSw [] 0x63C2)), .ok none,
    .ok (some (.withSw [] 0x6D00))]

/-- The card that is built over an empty medium, and signs. -/
def readerBoot : Except Fault Unit × Card KvMap :=
  (build cellAead.signing 1 [.management, .oath, .piv, .openPgp]).run
    (blank (.withBackend unusedCodec ∅) (KnownAead.constantDraws 0x09))

theorem readerBoot_ok : (build cellAead.signing 1 [.management, .oath, .piv, .openPgp]).run
    (blank (.withBackend unusedCodec (∅ : KvMap)) (KnownAead.constantDraws 0x09)) =
      (.ok (), readerBoot.2) := Prod.ext (by decide +kernel) rfl

/-- Over an empty medium there are only factory states. -/
theorem genuine_empty (n : AppletName) (state : n.State)
    (h : Host.Opens cellAead.signing (n.format 1)
      (StorageEngine.withBackend unusedCodec (∅ : KvMap)) state) :
    n.Genuine cellAead.signing state := by
  rcases h with ⟨migrated, hstored⟩ | ⟨-, rng, rng', hfactory⟩
  · have hnone : Host.storedState cellAead.signing (n.format 1)
        (StorageEngine.withBackend unusedCodec (∅ : KvMap)) = none := by
      cases n with
      | management => decide +kernel
      | oath => decide +kernel
      | piv => decide +kernel
      | openPgp => decide +kernel
    rw [hnone] at hstored
    cases hstored
  · exact AppletName.genuine_factory hfactory

theorem card_transcript_pieces : ∃ (states : (n : AppletName) → n.State) (w : CardView),
    Transcript (CardView.Explains cellAead.signing cellAead.verifiers)
      ⟨none, none, fun n => n.viewOf (states n)⟩ (readerEvents.zip readerAnswers) w := by
  have hanswers : (Prog.results (serve unusedCodec cellAead.signing 1
      [.management, .oath, .piv, .openPgp]) readerEvents ⟨readerBoot.2, none, none⟩).1 =
        readerAnswers := by decide +kernel
  obtain ⟨states, -, hexplained⟩ := card_transcript unusedCodec cellAead.sound_signing
    cellAead.total_signing cellAead.sound_verifiers (by decide) (fun n => by cases n <;> decide)
    genuine_empty readerBoot_ok
  obtain ⟨w, hlog⟩ := hexplained readerEvents
  rw [hanswers] at hlog
  exact ⟨states, w, hlog⟩

end Card

end OpenKey
