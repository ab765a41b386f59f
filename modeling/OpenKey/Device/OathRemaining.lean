import OpenKey.Device.Routing
import OpenKey.Device.OathEdits
import OpenKey.Transport.Iso7816Chaining

/-!
# SEND REMAINING through the router

A response that is longer than its command asks for is held twice: the router keeps what it has not
handed out for GET RESPONSE, and the OATH applet keeps a copy for SEND REMAINING. A SEND REMAINING
makes the router forget its part; the applet answers with the next piece, of up to 255 bytes, and
goes on behind it.

`Fetches` is a host that sends SEND REMAINING as long as it is told of more. **Main result
(`sendRemaining_lossless_iff`).** It gets the whole response and `9000` exactly when each SEND
REMAINING before the end has an Le: the router withholds a piece from a command without Le, and the
next command makes it forget the piece.

The invariant is `Serving`: what the applet still has to hand out, whatever the router keeps.
-/

namespace OpenKey

open Command

set_option autoImplicit false

/-! ## A host -/

/-- `61 XX`. -/
def ResponseData.More (piece : ResponseData) : Prop :=
  (piece.sw.getD swNoError).toNat / 256 = 0x61

instance (piece : ResponseData) : Decidable piece.More := inferInstanceAs (Decidable (_ = _))

namespace CardRouter

/-- The host sends a command and then the others as long as there is more: the bytes it gets, and
the last status word. -/
inductive Fetches {γ : Type} (applets : List (CardApplet γ)) :
    CardRouter γ → Bytes → (Nat → Bytes) → Bytes → UInt16 → Prop
  | last {r next : CardRouter γ} {raw : Bytes} {sends : Nat → Bytes} {piece : ResponseData}
      (hrun : (process applets raw).run r = (.ok piece, next)) (hlast : ¬piece.More) :
      Fetches applets r raw sends piece.data (piece.sw.getD swNoError)
  | more {r next : CardRouter γ} {raw : Bytes} {sends : Nat → Bytes} {piece : ResponseData}
      {data : Bytes} {sw : UInt16} (hrun : (process applets raw).run r = (.ok piece, next))
      (hmore : piece.More)
      (hrest : Fetches applets next (sends 0) (fun i => sends (i + 1)) data sw) :
      Fetches applets r raw sends (piece.data ++ data) sw

variable {γ : Type} {applets : List (CardApplet γ)} {r next : CardRouter γ} {raw : Bytes}
  {piece : ResponseData} (sends : Nat → Bytes)

/-- What the host gets, from the first answer. -/
theorem fetches_iff_of_more (hrun : (process applets raw).run r = (.ok piece, next))
    (hmore : piece.More) (data : Bytes) (sw : UInt16) :
    Fetches applets r raw sends data sw ↔ ∃ rest, data = piece.data ++ rest ∧
      Fetches applets next (sends 0) (fun i => sends (i + 1)) rest sw := by
  constructor
  · intro h
    cases h with
    | last hrun' hlast =>
        obtain ⟨rfl, -⟩ : _ = _ ∧ _ := by simpa using hrun.symm.trans hrun'
        exact absurd hmore hlast
    | more hrun' _ hrest =>
        obtain ⟨rfl, rfl⟩ : _ = _ ∧ _ = _ := by simpa using hrun.symm.trans hrun'
        exact ⟨_, rfl, hrest⟩
  · rintro ⟨rest, rfl, hrest⟩
    exact .more hrun hmore hrest

theorem fetches_iff_of_last (hrun : (process applets raw).run r = (.ok piece, next))
    (hlast : ¬piece.More) (data : Bytes) (sw : UInt16) :
    Fetches applets r raw sends data sw ↔ data = piece.data ∧ sw = piece.sw.getD swNoError := by
  constructor
  · intro h
    cases h with
    | last hrun' _ =>
        obtain ⟨rfl, -⟩ : _ = _ ∧ _ := by simpa using hrun.symm.trans hrun'
        exact ⟨rfl, rfl⟩
    | more hrun' hmore _ =>
        obtain ⟨rfl, -⟩ : _ = _ ∧ _ := by simpa using hrun.symm.trans hrun'
        exact absurd hmore hlast
  · rintro ⟨rfl, rfl⟩
    exact .last hrun hlast

end CardRouter

theorem more_swMoreData (data : Bytes) (n : Nat) :
    (ResponseData.withSw data (swMoreData n)).More := by
  show (swMoreData n).toNat / 256 = 0x61
  rw [toNat_swMoreData]
  split <;> omega

theorem not_more_of_withSw (data : Bytes) {sw : UInt16} (h : sw.toNat / 256 ≠ 0x61) :
    ¬(ResponseData.withSw data sw).More := h

/-! ## What a response leaves open -/

namespace Host.Ends

variable {β S V : Type} [StorageBackend β] {crypto : AppletCrypto} {format : AppletFormat S}
  {α γ : Type} {h : Host β S V} {Q : Except Fault γ → Host β S V → Prop}

/-- Whatever a part of a command does, the rest comes after it, unless it fails. -/
theorem bind_any {m : Command S V α} {f : α → Command S V γ}
    (hf : ∀ a g, Ends crypto format (f a) g Q) (hQ : ∀ e g, Q (.error e) g) :
    Ends crypto format (m >>= f) h Q := by
  refine bind ?_
  unfold Ends
  rcases (perform crypto format m).run h with ⟨e | a, g⟩
  · exact hQ e g
  · exact hf a g

/-- Whether the state is persisted or not, the memory stays as it is. -/
theorem tryPersist_memory {f : Except UInt16 Unit → Command S V γ}
    (hf : ∀ a (g : Host β S V), g.memory = h.memory → Ends crypto format (f a) g Q)
    (hQ : ∀ e g, Q (.error e) g) : Ends crypto format (Command.tryPersist >>= f) h Q := by
  have hmemory : ((Host.persistState crypto format).run h).2.memory = h.memory :=
    keeps_memory_persistState h
  unfold Ends
  have hcall : (perform crypto format (Command.tryPersist >>= f)).run h =
      ((caught (Host.persistState crypto format)) >>= fun a =>
        (perform crypto format (f a) : Prog (Host β S V) Fault γ)).run h := rfl
  have hcaught : (caught (Host.persistState crypto format)).run h =
      (Fault.status? ((Host.persistState crypto format).run h).1,
        ((Host.persistState crypto format).run h).2) := rfl
  rw [hcall, Prog.run_bind, hcaught]
  cases Fault.status? ((Host.persistState crypto format).run h).1 with
  | ok a => exact hf a _ hmemory
  | error e => exact hQ e _

theorem persistState_memory {f : Unit → Command S V γ}
    (hf : ∀ g : Host β S V, g.memory = h.memory → Ends crypto format (f ()) g Q)
    (hQ : ∀ e g, Q (.error e) g) : Ends crypto format (Command.persistState >>= f) h Q := by
  refine bind (tryPersist_memory (fun a g hg => ?_) hQ)
  cases a with
  | ok u => exact hf g hg
  | error sw => exact hQ _ g

end Host.Ends

namespace Oath

variable {β : Type} [StorageBackend β] {crypto : AppletCrypto}

/-- The state is in memory, and the session has what its access code asks for. -/
def Open (h : Host β OathState Session) : Prop :=
  ∃ state, h.memory.state = some state ∧ opened state h.memory.session = true

/-- A response has no status word of its own, and leaves the applet open if there are data. -/
def Serves (result : Except Fault ResponseData) (h : Host β OathState Session) : Prop :=
  ∀ response, result = .ok response → response.sw = none ∧ (response.data ≠ [] → Open h)

omit [StorageBackend β] in
theorem serves_error (e : Fault) (h : Host β OathState Session) : Serves (.error e) h :=
  fun _ h => nomatch h

omit [StorageBackend β] in
theorem serves_ok {h : Host β OathState Session} (data : Bytes) (hopen : data ≠ [] → Open h) :
    Serves (.ok (.ok data)) h := by
  intro response hresponse
  obtain rfl := Except.ok.inj hresponse
  exact ⟨rfl, hopen⟩

omit [StorageBackend β] in
theorem serves_empty (h : Host β OathState Session) : Serves (.ok (.ok [])) h :=
  serves_ok [] fun hne => absurd rfl hne

/-- Behind the gate, the applet is open. -/
theorem serves_gated {f : Unit → OathCommand ResponseData} {h : Host β OathState Session}
    (hf : ∀ g : Host β OathState Session, Open g → Host.Ends crypto format (f ()) g Serves) :
    Host.Ends crypto format (requireValidated >>= f) h Serves := by
  intro response hresponse
  have hrun : (Host.perform crypto format (requireValidated >>= f)).run h =
      (.ok response, ((Host.perform crypto format (requireValidated >>= f)).run h).2) :=
    Prod.ext hresponse rfl
  obtain ⟨_, g, hgate, hrest⟩ := Host.perform_bind_eq_ok.mp hrun
  obtain ⟨_, g₁, hload, hrequire⟩ := Host.perform_bind_eq_ok.mp hgate
  obtain ⟨state, hstate, -⟩ :=
    Host.loaded_of_ensureLoaded (Host.perform_ensureLoaded_eq_ok.mp hload)
  have hopened : (!(locked g₁.memory && !g₁.memory.session.validated)) = true ∧ g = g₁ := by
    have hrequired : (Host.perform crypto format (Command.require
        (!(locked g₁.memory && !g₁.memory.session.validated)) swSecurityStatus) :
          Prog (Host β OathState Session) Fault Unit).run g₁ = (.ok (), g) := hrequire
    cases hgate : (!(locked g₁.memory && !g₁.memory.session.validated)) with
    | true =>
        rw [hgate] at hrequired
        exact ⟨rfl, (congrArg Prod.snd hrequired).symm⟩
    | false =>
        rw [hgate] at hrequired
        exact nomatch congrArg Prod.fst hrequired
  obtain ⟨hvalid, rfl⟩ := hopened
  have hopen : Open g := by
    refine ⟨state, hstate, ?_⟩
    rw [locked, hstate] at hvalid
    exact hvalid
  have hserves := hf g hopen response (congrArg Prod.fst hrest)
  rw [hrest] at hserves
  exact hserves

theorem serves_cmdPut (data : Bytes) (h : Host β OathState Session) :
    Host.Ends crypto format (cmdPut data) h Serves := by
  refine .bind_any (fun _ _ => .bind_any (fun req _ => .bind_any (fun state _ => ?_) serves_error)
    serves_error) serves_error
  split
  · exact .bind_any (fun _ _ => .bind_any (fun _ _ => .pure (serves_empty _)) serves_error)
      serves_error
  · exact .refuse (serves_error _ _)

theorem serves_cmdDelete (data : Bytes) (h : Host β OathState Session) :
    Host.Ends crypto format (cmdDelete data) h Serves := by
  refine .bind_any (fun _ _ => .bind_any (fun name _ => .bind_any (fun state _ => ?_) serves_error)
    serves_error) serves_error
  split
  · exact .bind_any (fun _ _ => .bind_any (fun _ _ => .pure (serves_empty _)) serves_error)
      serves_error
  · exact .refuse (serves_error _ _)

theorem serves_cmdRename (data : Bytes) (h : Host β OathState Session) :
    Host.Ends crypto format (cmdRename data) h Serves := by
  refine .bind_any (fun _ _ => .bind_any (fun names _ => .bind_any (fun state _ => ?_) serves_error)
    serves_error) serves_error
  split
  · split
    · exact .refuse (serves_error _ _)
    · exact .bind_any (fun _ _ => .bind_any (fun _ _ => .pure (serves_empty _)) serves_error)
        serves_error
  · exact .refuse (serves_error _ _)

theorem serves_cmdSetCode (data : Bytes) (h : Host β OathState Session) :
    Host.Ends crypto format (cmdSetCode crypto data) h Serves := by
  refine .bind_any (fun _ _ => .bind_any (fun _ _ => .bind_any (fun request _ => ?_) serves_error)
    serves_error) serves_error
  refine .ite (fun _ => ?_) fun _ => ?_
  · exact .bind_any (fun _ _ => .bind_any (fun _ _ => .bind_any (fun _ _ => .bind_any (fun _ _ =>
      .bind_any (fun _ _ => .pure (serves_empty _)) serves_error) serves_error) serves_error)
      serves_error) serves_error
  · exact .bind_any (fun _ _ => .bind_any (fun _ _ => .bind_any (fun _ _ => .bind_any (fun _ _ =>
      .bind_any (fun _ _ => .pure (serves_empty _)) serves_error) serves_error) serves_error)
      serves_error) serves_error

theorem serves_cmdReset (p1 p2 : UInt8) (h : Host β OathState Session) :
    Host.Ends crypto format (cmdReset p1 p2) h Serves :=
  .bind_any (fun _ _ => .bind_any (fun _ _ => .bind_any (fun _ _ => .bind_any (fun _ _ =>
    .bind_any (fun _ _ => .pure (serves_empty _)) serves_error) serves_error) serves_error)
    serves_error) serves_error

theorem serves_cmdList (h : Host β OathState Session) :
    Host.Ends crypto format cmdList h Serves := by
  refine serves_gated fun g hopen => ?_
  obtain ⟨state, hmem, -⟩ := id hopen
  exact .stateMut hmem (.orFault (fun out _ => .pure (serves_ok out fun _ => hopen))
    fun e _ => serves_error e _)

theorem serves_cmdCalculateAll (p2 : UInt8) (data : Bytes) (h : Host β OathState Session) :
    Host.Ends crypto format (cmdCalculateAll crypto p2 data) h Serves := by
  refine serves_gated fun g hopen => ?_
  obtain ⟨state, hmem, -⟩ := id hopen
  refine .orStatus (fun challenge _ => .stateMut hmem ?_) fun sw _ => serves_error _ _
  exact .orFault (fun out _ => .pure (serves_ok out fun _ => hopen)) fun e _ => serves_error e _

/-- The counter of a credential does not concern the access code. -/
theorem ends_advanceCounter {h : Host β OathState Session} (hopen : Open h) (name : Bytes)
    (cred : OathCredential) (next : Option UInt64) :
    Host.Ends crypto format (advanceCounter name cred next) h fun r g => r = .ok () → Open g := by
  cases next with
  | none => exact fun _ => hopen
  | some next =>
      obtain ⟨state, hmem, hgate⟩ := hopen
      refine .stateMut hmem (.setState (.tryPersist_memory (fun a g hg => ?_) fun _ _ => nofun))
      cases a with
      | ok u =>
          refine .pure fun _ => ⟨_, congrArg Memory.state hg, ?_⟩
          rw [hg]
          exact hgate
      | error sw => exact .setState (.refuse nofun)

theorem serves_cmdCalculate (p2 : UInt8) (data : Bytes) (h : Host β OathState Session) :
    Host.Ends crypto format (cmdCalculate crypto p2 data) h Serves := by
  refine serves_gated fun g hopen => ?_
  obtain ⟨state, hmem, -⟩ := id hopen
  refine .orStatus (fun request _ => .stateMut hmem ?_) fun sw _ => serves_error _ _
  refine .orRefuse (fun cred _ => ?_) fun _ => serves_error _ _
  refine .orStatus (fun factor _ => ?_) fun sw _ => serves_error _ _
  refine .bind ((ends_advanceCounter hopen request.1 cred factor.2).mono fun r g' hg' => ?_)
  cases r with
  | ok u =>
      exact .orFault (fun out _ => .pure (serves_ok out fun _ => hg' rfl))
        fun e _ => serves_error e _
  | error e => exact serves_error e g'

theorem serves_cmdValidate (data : Bytes) (h : Host β OathState Session) :
    Host.Ends crypto format (cmdValidate crypto data) h Serves := by
  refine .bind_any (fun checked g => ?_) serves_error
  obtain ⟨state, access, challenge⟩ := checked
  refine .setState (.persistState_memory (fun g' hg' => .modifySession ?_) serves_error)
  have hopen : Open { g' with memory :=
      { g'.memory with session := { g'.memory.session with validated := true } } } := by
    refine ⟨_, congrArg Memory.state hg', ?_⟩
    show (!(_ && !true)) = true
    rw [Bool.not_true, Bool.and_false, Bool.not_false]
  exact .orFault (fun out _ => .pure (serves_ok out fun _ => hopen)) fun e _ => serves_error e _

theorem serves_dispatch (apdu : Apdu) (h : Host β OathState Session) :
    Host.Ends crypto format (dispatch crypto apdu) h Serves := by
  refine .ite (fun _ => serves_cmdPut _ h) fun _ => .ite (fun _ => serves_cmdDelete _ h) fun _ =>
    .ite (fun _ => serves_cmdSetCode _ h) fun _ => .ite (fun _ => serves_cmdReset _ _ h) fun _ =>
    .ite (fun _ => serves_cmdRename _ h) fun _ => .ite (fun _ => serves_cmdList h) fun _ =>
    .ite (fun _ => serves_cmdCalculate _ _ h) fun _ => .ite (fun _ => serves_cmdValidate _ h)
    fun _ => .ite (fun _ => serves_cmdCalculateAll _ _ h) fun _ => .refuse (serves_error _ _)

end Oath

namespace Oath

variable {β : Type} [StorageBackend β] {crypto : AppletCrypto}

/-- A command that is answered with data leaves them to SEND REMAINING. -/
theorem mirrored {h h' : Host β OathState Session} {apdu : Apdu} {response : ResponseData}
    (hins : apdu.ins ≠ insSendRemaining)
    (hrun : (Host.perform crypto format (process crypto apdu)).run h = (.ok response, h')) :
    response.sw = none ∧ h'.memory.session.remaining = mirror apdu response ∧
      (response.data ≠ [] → Open h') := by
  obtain ⟨_, g, hcla, hrest⟩ := Host.perform_bind_eq_ok.mp hrun
  rw [if_neg hins] at hrest
  obtain ⟨result, g₁, hattempt, hrest⟩ := Host.perform_bind_eq_ok.mp hrest
  cases result with
  | error e => cases e <;> exact nomatch congrArg Prod.fst hrest
  | ok answered =>
      obtain ⟨hresponse, rfl⟩ := Prod.mk.inj hrest
      obtain rfl := Except.ok.inj hresponse
      have hdispatch := Script.run_attempt_eq_ok _ hattempt
      have hserves := @serves_dispatch _ _ crypto apdu g
      unfold Host.Ends Host.perform at hserves
      rw [hdispatch] at hserves
      obtain ⟨hsw, hopen⟩ := hserves answered rfl
      exact ⟨hsw, rfl, hopen⟩

/-! ## The next piece -/

/-- Where a SEND REMAINING stops. -/
def stopAfter (len pos : Nat) (le : Option Nat) : Nat := min (pos + min (le.getD 255) 255) len

/-- The bytes up to there. -/
def pieceFrom (buf : Bytes) (pos : Nat) (le : Option Nat) : Bytes :=
  (buf.drop pos).take (stopAfter buf.length pos le - pos)

/-- The applet's answer. -/
def nextPiece (buf : Bytes) (pos : Nat) (le : Option Nat) : ResponseData :=
  if stopAfter buf.length pos le < buf.length then
    .withSw (pieceFrom buf pos le) (swMoreData (buf.length - stopAfter buf.length pos le))
  else .ok (pieceFrom buf pos le)

/-- What it has left. -/
def leftAfter (buf : Bytes) (pos : Nat) (le : Option Nat) : Option (Bytes × Nat) :=
  if stopAfter buf.length pos le < buf.length then some (buf, stopAfter buf.length pos le) else none

theorem ends_process_sendRemaining {h : Host β OathState Session} {apdu : Apdu}
    {Q : Except Fault ResponseData → Host β OathState Session → Prop} (hcla : apdu.cla = 0)
    (hins : apdu.ins = insSendRemaining) (hopen : Open h)
    (hQ : Host.Ends crypto format (match h.memory.session.remaining with
      | none => refuse swConditionsNotSatisfied
      | some (buffer, pos) =>
          if pos ≥ buffer.length then do
            modifySession fun s => { s with remaining := none }
            pure (.ok [])
          else
            if stopAfter buffer.length pos apdu.le < buffer.length then do
              modifySession fun s =>
                { s with remaining := some (buffer, stopAfter buffer.length pos apdu.le) }
              pure (.withSw (pieceFrom buffer pos apdu.le)
                (swMoreData (buffer.length - stopAfter buffer.length pos apdu.le)))
            else do
              modifySession fun s => { s with remaining := none }
              pure (.ok (pieceFrom buffer pos apdu.le))) h Q) :
    Host.Ends crypto format (process crypto apdu) h Q := by
  obtain ⟨state, hmem, hgate⟩ := hopen
  refine .require (fun _ => ?_) fun hwrong => absurd hcla (of_decide_eq_false hwrong)
  rw [if_pos hins]
  refine ends_requireValidated hmem (fun _ => .session hQ) fun hclosed => ?_
  exact absurd (hgate.symm.trans hclosed) (by decide)

/-- SEND REMAINING hands out the next piece. -/
theorem ends_nextPiece {h : Host β OathState Session} {apdu : Apdu} {buf : Bytes} {pos : Nat}
    (hcla : apdu.cla = 0) (hins : apdu.ins = insSendRemaining) (hopen : Open h)
    (hleft : h.memory.session.remaining = some (buf, pos)) (hpos : pos < buf.length) :
    Host.Ends crypto format (process crypto apdu) h fun r g =>
      r = .ok (nextPiece buf pos apdu.le) ∧ Open g ∧
        g.memory.session.remaining = leftAfter buf pos apdu.le := by
  refine ends_process_sendRemaining hcla hins hopen ?_
  rw [hleft]
  unfold nextPiece leftAfter
  refine .ite (fun hend => absurd hpos (Nat.not_lt.mpr hend)) fun _ => ?_
  refine .ite (fun hmore => ?_) fun hlast => ?_
  · rw [if_pos hmore, if_pos hmore]
    exact .modifySession (.pure ⟨rfl, hopen, rfl⟩)
  · rw [if_neg hlast, if_neg hlast]
    exact .modifySession (.pure ⟨rfl, hopen, rfl⟩)

/-- With nothing left it is refused. -/
theorem ends_spent {h : Host β OathState Session} {apdu : Apdu} (hcla : apdu.cla = 0)
    (hins : apdu.ins = insSendRemaining) (hopen : Open h)
    (hleft : h.memory.session.remaining = none) :
    Host.Ends crypto format (process crypto apdu) h fun r _ =>
      r = .error (.status swConditionsNotSatisfied) := by
  refine ends_process_sendRemaining hcla hins hopen ?_
  rw [hleft]
  exact .refuse rfl

end Oath

/-! ## Through the router -/

namespace Card

open Oath (Open stopAfter pieceFrom nextPiece leftAfter insSendRemaining)

variable {β : Type} [StorageBackend β] (crypto : AppletCrypto) (patience : Nat)

/-- The OATH applet is selected and open, and has this left. -/
structure Serving (r : CardRouter (Card β)) (left : Option (Bytes × Nat)) : Prop where
  selected : r.selected = some (place .oath)
  opened : Open (r.card.host .oath)
  left : (r.card.host .oath).memory.session.remaining = left

/-- The commands are SEND REMAINING commands. -/
def Continues (sends : Nat → Bytes) (cmds : Nat → Apdu) : Prop :=
  ∀ i, Apdu.parse (sends i) = .ok (cmds i) ∧ (cmds i).cla = 0 ∧ (cmds i).ins = insSendRemaining

theorem Continues.tail {sends : Nat → Bytes} {cmds : Nat → Apdu} (h : Continues sends cmds) :
    Continues (fun i => sends (i + 1)) fun i => cmds (i + 1) := fun i => h (i + 1)

/-- The command of the applet, and what the router makes of its answer. -/
theorem run_oath {r : CardRouter (Card β)} {raw : Bytes} {apdu : Apdu}
    {result : Except Fault ResponseData} {reply : Except UInt16 ResponseData}
    (hsel : r.selected = some (place .oath)) (hparse : Apdu.parse raw = .ok apdu)
    (hget : apdu.ins ≠ 0xC0) (hselect : apdu.ins ≠ 0xA4)
    (hresult : ((Host.perform crypto Oath.format (Oath.process crypto apdu)).run
      (r.card.host .oath)).1 = result) (hreply : Fault.status? result = .ok reply) :
    (CardRouter.process (applets crypto patience) raw).run r =
      (CardRouter.deliver (CardRouter.replyOf reply) apdu.le).run { r with
        card := r.card.setHost .oath ((Host.perform crypto Oath.format
          (Oath.process crypto apdu)).run (r.card.host .oath)).2, chain := none } := by
  have happlet : (applets crypto patience : List (CardApplet (Card β)))[place .oath]? =
    some (applet crypto patience .oath) := rfl
  refine CardRouter.run_process_routed (applets crypto patience) hsel happlet hparse hget hselect ?_
    hreply
  rw [← hresult]
  rfl

theorem ins_sendRemaining {apdu : Apdu} (hins : apdu.ins = insSendRemaining) :
    apdu.ins ≠ 0xC0 ∧ apdu.ins ≠ 0xA4 := by
  rw [hins]
  decide

theorem length_pieceFrom {buf : Bytes} {pos : Nat} (le : Option Nat) (hpos : pos < buf.length) :
    (pieceFrom buf pos le).length = stopAfter buf.length pos le - pos := by
  have hstop : stopAfter buf.length pos le ≤ buf.length := Nat.min_le_right _ _
  rw [pieceFrom, List.length_take, List.length_drop]
  omega

/-- A SEND REMAINING gets the next piece if it has an Le, and nothing if it has none; in either case
the applet goes on behind the piece. -/
theorem serving_next {r : CardRouter (Card β)} {buf : Bytes} {pos : Nat} {raw : Bytes} {apdu : Apdu}
    (h : Serving r (some (buf, pos))) (hpos : pos < buf.length)
    (hparse : Apdu.parse raw = .ok apdu) (hcla : apdu.cla = 0)
    (hins : apdu.ins = insSendRemaining) :
    ∃ next, (CardRouter.process (applets crypto patience) raw).run r =
        (.ok (if apdu.le.isSome then .withSw (pieceFrom buf pos apdu.le)
            (if stopAfter buf.length pos apdu.le < buf.length then
              swMoreData (buf.length - stopAfter buf.length pos apdu.le) else swNoError)
          else .withSw [] (swMoreData (stopAfter buf.length pos apdu.le - pos))), next) ∧
      Serving next (leftAfter buf pos apdu.le) := by
  obtain ⟨hget, hselect⟩ := ins_sendRemaining hins
  obtain ⟨hresult, hopen, hleft⟩ :=
    @Oath.ends_nextPiece β _ crypto _ _ _ _ hcla hins h.opened h.left hpos
  have hrun := run_oath crypto patience h.selected hparse hget hselect hresult rfl
  obtain ⟨next, hdeliver, hsel, hcard⟩ := CardRouter.run_deliver_eq { r with
      card := r.card.setHost .oath ((Host.perform crypto Oath.format
        (Oath.process crypto apdu)).run (r.card.host .oath)).2, chain := none }
    (nextPiece buf pos apdu.le) apdu.le
  have hhost : next.card.host .oath = ((Host.perform crypto Oath.format
      (Oath.process crypto apdu)).run (r.card.host .oath)).2 := by
    rw [hcard]
    exact host_setHost _
  have hdata : (nextPiece buf pos apdu.le).data = pieceFrom buf pos apdu.le := by
    unfold nextPiece
    split <;> rfl
  have hsw : (nextPiece buf pos apdu.le).sw.getD swNoError =
      if stopAfter buf.length pos apdu.le < buf.length then
        swMoreData (buf.length - stopAfter buf.length pos apdu.le) else swNoError := by
    unfold nextPiece
    split <;> rfl
  have hlen := length_pieceFrom apdu.le hpos
  refine ⟨next, ?_, hsel.trans h.selected, ?_, ?_⟩
  · rw [hrun]
    refine hdeliver.trans ?_
    rw [hdata, hsw, hlen]
    cases hle : apdu.le with
    | none =>
        rw [Option.isSome_none, if_neg Bool.false_ne_true, if_neg]
        · rfl
        · unfold stopAfter
          simp only [Option.getD_none]
          omega
    | some n =>
        rw [Option.isSome_some, if_pos rfl, if_pos]
        unfold stopAfter
        simp only [Option.getD_some]
        omega
  · rw [hhost]
    exact hopen
  · rw [hhost]
    exact hleft

theorem serving_spent {r : CardRouter (Card β)} {raw : Bytes} {apdu : Apdu} (h : Serving r none)
    (hparse : Apdu.parse raw = .ok apdu) (hcla : apdu.cla = 0)
    (hins : apdu.ins = insSendRemaining) :
    ∃ next, (CardRouter.process (applets crypto patience) raw).run r =
      (.ok (.withSw [] swConditionsNotSatisfied), next) := by
  obtain ⟨hget, hselect⟩ := ins_sendRemaining hins
  have hresult := @Oath.ends_spent β _ crypto _ _ hcla hins h.opened h.left
  have hrun := run_oath crypto patience h.selected hparse hget hselect hresult rfl
  exact ⟨_, hrun⟩

/-! ## Losing nothing -/

/-- Where the commands are in the response, if each gets its piece. -/
def handedOut (start : Nat) (cmds : Nat → Apdu) : Nat → Nat
  | 0 => start
  | i + 1 => handedOut start cmds i + min ((cmds i).le.getD 255) 255

theorem handedOut_tail (start : Nat) (cmds : Nat → Apdu) (i : Nat) :
    handedOut start cmds (i + 1) =
      handedOut (start + min ((cmds 0).le.getD 255) 255) (fun i => cmds (i + 1)) i := by
  induction i with
  | zero => rfl
  | succ i ih => rw [handedOut, ih, handedOut]

theorem handedOut_le (start : Nat) (cmds : Nat → Apdu) (i : Nat) :
    start ≤ handedOut start cmds i := by
  induction i with
  | zero => exact Nat.le_refl _
  | succ i ih => exact Nat.le_trans ih (Nat.le_add_right _ _)

/-- Each command before the end of the response has an Le. -/
def Asked (len start : Nat) (cmds : Nat → Apdu) : Prop :=
  ∀ i, handedOut start cmds i < len → (cmds i).le.isSome = true

theorem asked_of_end {len start : Nat} (cmds : Nat → Apdu) (h : len ≤ start) :
    Asked len start cmds := fun i hi => absurd (handedOut_le start cmds i) (by omega)

theorem asked_iff {len start : Nat} {cmds : Nat → Apdu} (h : start < len) :
    Asked len start cmds ↔ (cmds 0).le.isSome = true ∧
      Asked len (start + min ((cmds 0).le.getD 255) 255) fun i => cmds (i + 1) := by
  constructor
  · intro hasked
    refine ⟨hasked 0 h, fun i hi => hasked (i + 1) ?_⟩
    rw [handedOut_tail]
    exact hi
  · rintro ⟨hfirst, hrest⟩ i hi
    cases i with
    | zero => exact hfirst
    | succ i =>
        rw [handedOut_tail] at hi
        exact hrest i hi

theorem stopAfter_gt {len pos : Nat} {le : Option Nat} (hle : ∀ n, le = some n → 0 < n)
    (hpos : pos < len) : pos < stopAfter len pos le := by
  unfold stopAfter
  cases le with
  | none =>
      simp only [Option.getD_none]
      omega
  | some n =>
      have hn := hle n rfl
      simp only [Option.getD_some]
      omega

theorem pieceFrom_append (buf : Bytes) {pos : Nat} {le : Option Nat}
    (hstop : pos < stopAfter buf.length pos le) :
    buf.drop pos = pieceFrom buf pos le ++ buf.drop (stopAfter buf.length pos le) := by
  have hdrop : buf.drop (stopAfter buf.length pos le) =
      (buf.drop pos).drop (stopAfter buf.length pos le - pos) := by
    rw [List.drop_drop]
    congr 1
    omega
  rw [pieceFrom, hdrop, List.take_append_drop]

/-- What a host fetches of the bytes that are left: no more than these, and all of them exactly when
it asks with an Le until the end. -/
structure FetchesLeft (r : CardRouter (Card β)) (sends : Nat → Bytes) (cmds : Nat → Apdu)
    (buf : Bytes) (pos : Nat) : Prop where
  bound : ∀ data sw, CardRouter.Fetches (applets crypto patience) r (sends 0)
    (fun i => sends (i + 1)) data sw → data.length ≤ buf.length - pos
  whole : CardRouter.Fetches (applets crypto patience) r (sends 0) (fun i => sends (i + 1))
    (buf.drop pos) swNoError ↔ Asked buf.length pos cmds

section

variable {r next : CardRouter (Card β)} {sends : Nat → Bytes} {cmds : Nat → Apdu} {buf : Bytes}
  {pos : Nat}

/-- Without an Le the piece stays in the router, which forgets it. -/
theorem fetchesLeft_without_le (hpos : pos < buf.length) (hsends : Continues sends cmds)
    (hle : (cmds 0).le = none)
    (hrun : (CardRouter.process (applets crypto patience) (sends 0)).run r =
      (.ok (.withSw [] (swMoreData (stopAfter buf.length pos none - pos))), next))
    (hnext : Serving next (leftAfter buf pos none))
    (hrest : stopAfter buf.length pos none < buf.length →
      FetchesLeft crypto patience next (fun i => sends (i + 1)) (fun i => cmds (i + 1)) buf
        (stopAfter buf.length pos none)) :
    FetchesLeft crypto patience r sends cmds buf pos := by
  have hstop : pos < stopAfter buf.length pos none := stopAfter_gt (fun _ h => nomatch h) hpos
  have hasked : ¬Asked buf.length pos cmds := fun h => by
    have hfirst := h 0 hpos
    rw [hle] at hfirst
    cases hfirst
  have hiff := CardRouter.fetches_iff_of_more (fun i => sends (i + 1)) hrun (more_swMoreData _ _)
  unfold leftAfter at hnext
  by_cases hmore : stopAfter buf.length pos none < buf.length
  · have hbound := (hrest hmore).bound
    refine ⟨fun data sw h => ?_, fun h => ?_, fun h => absurd h hasked⟩
    · obtain ⟨rest, hdata, hfetch⟩ := (hiff data sw).mp h
      have hlength := hbound rest sw hfetch
      rw [hdata]
      show rest.length ≤ _
      omega
    · obtain ⟨rest, hdata, hfetch⟩ := (hiff _ _).mp h
      have hlength := hbound rest _ hfetch
      have hall : rest = buf.drop pos := hdata.symm
      rw [hall, List.length_drop] at hlength
      omega
  · rw [if_neg hmore] at hnext
    obtain ⟨hparse, hcla, hins⟩ := hsends 1
    obtain ⟨last, hlast⟩ := serving_spent crypto patience hnext hparse hcla hins
    have hend := CardRouter.fetches_iff_of_last (fun i => sends (i + 1 + 1)) hlast
      (not_more_of_withSw _ (by decide))
    refine ⟨fun data sw h => ?_, fun h => ?_, fun h => absurd h hasked⟩
    · obtain ⟨rest, hdata, hfetch⟩ := (hiff data sw).mp h
      rw [hdata, ((hend rest sw).mp hfetch).1]
      exact Nat.zero_le _
    · obtain ⟨rest, -, hfetch⟩ := (hiff _ _).mp h
      exact absurd ((hend _ _).mp hfetch).2 (by decide)

/-- With an Le the host gets the piece. -/
theorem fetchesLeft_with_le (hpos : pos < buf.length) (hsome : (cmds 0).le.isSome = true)
    (hstop : pos < stopAfter buf.length pos (cmds 0).le)
    (hrun : (CardRouter.process (applets crypto patience) (sends 0)).run r =
      (.ok (.withSw (pieceFrom buf pos (cmds 0).le)
        (if stopAfter buf.length pos (cmds 0).le < buf.length then
          swMoreData (buf.length - stopAfter buf.length pos (cmds 0).le) else swNoError)), next))
    (hrest : stopAfter buf.length pos (cmds 0).le < buf.length →
      FetchesLeft crypto patience next (fun i => sends (i + 1)) (fun i => cmds (i + 1)) buf
        (stopAfter buf.length pos (cmds 0).le)) :
    FetchesLeft crypto patience r sends cmds buf pos := by
  have hwhole : stopAfter buf.length pos (cmds 0).le ≤ buf.length := Nat.min_le_right _ _
  have hpiece := length_pieceFrom (cmds 0).le hpos
  by_cases hmore : stopAfter buf.length pos (cmds 0).le < buf.length
  · rw [if_pos hmore] at hrun
    have hiff := CardRouter.fetches_iff_of_more (fun i => sends (i + 1)) hrun (more_swMoreData _ _)
    have hplace : stopAfter buf.length pos (cmds 0).le =
        pos + min ((cmds 0).le.getD 255) 255 := by
      unfold stopAfter at hmore ⊢
      omega
    refine ⟨fun data sw h => ?_, ?_⟩
    · obtain ⟨rest, rfl, hfetch⟩ := (hiff data sw).mp h
      have hlength := (hrest hmore).bound rest sw hfetch
      simp only [ResponseData.withSw, List.length_append, hpiece]
      omega
    · rw [hiff, asked_iff hpos, ← hplace, ← (hrest hmore).whole]
      constructor
      · rintro ⟨rest, hdata, hfetch⟩
        rw [pieceFrom_append buf hstop] at hdata
        obtain rfl := List.append_cancel_left hdata
        exact ⟨hsome, hfetch⟩
      · rintro ⟨-, hfetch⟩
        exact ⟨_, pieceFrom_append buf hstop, hfetch⟩
  · rw [if_neg hmore] at hrun
    have hiff := CardRouter.fetches_iff_of_last (fun i => sends (i + 1)) hrun
      (not_more_of_withSw _ (by decide))
    have hall : buf.drop pos = pieceFrom buf pos (cmds 0).le := by
      rw [pieceFrom_append buf hstop, List.drop_of_length_le (Nat.le_of_not_lt hmore),
        List.append_nil]
    refine ⟨fun data sw h => ?_, ?_⟩
    · obtain ⟨rfl, -⟩ := (hiff data sw).mp h
      simp only [ResponseData.withSw, hpiece]
      omega
    · rw [hiff, asked_iff hpos]
      refine ⟨fun _ => ⟨hsome, asked_of_end _ ?_⟩, fun _ => ⟨hall, rfl⟩⟩
      unfold stopAfter at hmore
      omega

end

/-- Every SEND REMAINING takes a piece off what is left. -/
theorem fetches_serving {buf : Bytes} (n : Nat) : ∀ {r : CardRouter (Card β)} {sends : Nat → Bytes}
    {cmds : Nat → Apdu} {pos : Nat}, buf.length - pos ≤ n → pos < buf.length →
    Serving r (some (buf, pos)) → Continues sends cmds →
    FetchesLeft crypto patience r sends cmds buf pos := by
  induction n with
  | zero => exact fun hn hpos => absurd hpos (by omega)
  | succ n ih =>
      intro r sends cmds pos hn hpos hserving hsends
      obtain ⟨hparse, hcla, hins⟩ := hsends 0
      have hstop := stopAfter_gt (fun _ h => Apdu.le_pos hparse h) hpos
      obtain ⟨next, hrun, hnext⟩ :=
        serving_next crypto patience hserving hpos hparse hcla hins
      have hrest : stopAfter buf.length pos (cmds 0).le < buf.length →
          FetchesLeft crypto patience next (fun i => sends (i + 1)) (fun i => cmds (i + 1)) buf
            (stopAfter buf.length pos (cmds 0).le) := by
        intro hmore
        refine ih (by omega) hmore ?_ hsends.tail
        unfold leftAfter at hnext
        rwa [if_pos hmore] at hnext
      cases hle : (cmds 0).le with
      | none =>
          rw [hle, Option.isSome_none, if_neg Bool.false_ne_true] at hrun
          rw [hle] at hnext hrest
          exact fetchesLeft_without_le crypto patience hpos hsends hle hrun hnext hrest
      | some le =>
          have hsome : (cmds 0).le.isSome = true := by rw [hle]; rfl
          rw [if_pos hsome] at hrun
          exact fetchesLeft_with_le crypto patience hpos hsome hstop hrun hrest

variable {crypto patience}

/-- **SEND REMAINING.** A host that fetches a response of the OATH applet with SEND REMAINING gets
all of it, and `9000`, exactly when each SEND REMAINING before the end of the response has an Le. -/
theorem sendRemaining_lossless_iff {r : CardRouter (Card β)} {raw : Bytes} {apdu : Apdu}
    {response : ResponseData} {card : Card β} (hsel : r.selected = some (place .oath))
    (hparse : Apdu.parse raw = .ok apdu) (hget : apdu.ins ≠ 0xC0) (hselect : apdu.ins ≠ 0xA4)
    (hins : apdu.ins ≠ insSendRemaining)
    (hrun : ((applet crypto patience .oath).process apdu).run r.card = (.ok response, card))
    {sends : Nat → Bytes} {cmds : Nat → Apdu} (hsends : Continues sends cmds) :
    CardRouter.Fetches (applets crypto patience) r raw sends response.data swNoError ↔
      Asked response.data.length (apdu.le.getD 0) cmds := by
  have hresult : ((Host.perform crypto Oath.format (Oath.process crypto apdu)).run
      (r.card.host .oath)).1 = .ok response := by
    have hfirst := congrArg Prod.fst hrun
    exact hfirst
  obtain ⟨hsw, hmirror, hopen⟩ := Oath.mirrored hins (Prod.ext hresult rfl)
  obtain ⟨next, hdeliver, hsel', hcard⟩ := CardRouter.run_deliver_eq { r with
      card := r.card.setHost .oath ((Host.perform crypto Oath.format
        (Oath.process crypto apdu)).run (r.card.host .oath)).2, chain := none }
    response apdu.le
  have hprocess := (run_oath crypto patience hsel hparse hget hselect hresult rfl).trans hdeliver
  rw [hsw, Option.getD_none] at hprocess
  by_cases hfits : response.data.length ≤ apdu.le.getD 0
  · rw [if_pos hfits] at hprocess
    rw [CardRouter.fetches_iff_of_last sends hprocess (not_more_of_withSw _ (by decide))]
    exact ⟨fun _ => asked_of_end cmds hfits, fun _ => ⟨rfl, rfl⟩⟩
  · rw [if_neg hfits] at hprocess
    have hlong := Nat.lt_of_not_le hfits
    have hne : response.data ≠ [] := fun hempty => by
      rw [hempty] at hlong
      exact absurd hlong (Nat.not_lt_zero _)
    have hhost : next.card.host .oath = ((Host.perform crypto Oath.format
        (Oath.process crypto apdu)).run (r.card.host .oath)).2 := by
      rw [hcard]
      exact host_setHost _
    have hserving : Serving next (some (response.data, apdu.le.getD 0)) := by
      refine ⟨hsel'.trans hsel, ?_, ?_⟩
      · rw [hhost]
        exact hopen hne
      · rw [hhost, hmirror, Oath.mirror, if_neg hne, Nat.min_eq_left (Nat.le_of_lt hlong)]
    have hiff := (fetches_serving crypto patience _ (Nat.le_refl _) hlong hserving hsends).whole
    rw [← hiff, CardRouter.fetches_iff_of_more sends hprocess (more_swMoreData _ _)]
    constructor
    · rintro ⟨rest, hdata, hrest⟩
      have hsplit := (List.take_append_drop (apdu.le.getD 0) response.data).trans hdata
      obtain rfl := List.append_cancel_left hsplit
      exact hrest
    · intro hrest
      exact ⟨_, (List.take_append_drop _ _).symm, hrest⟩

/-- A TOTP credential with six digits. -/
def totpCredential : OathCredential :=
  ⟨[1, 2, 3, 4], .totp, .sha1, 6, false, false, 0, by decide, by decide⟩

/-- The credential under the name `a`, and no access code. -/
def listedState : OathState :=
  { Oath.factoryState fun _ => 0 with
    credentials := OathCredentials.empty.insert [0x61] totpCredential (by decide)
      (.inr (by decide)) }

/-- A card on which the OATH applet has this state. -/
def listedCard : Card KvMap :=
  (Card.blank StorageEngine.new fun _ _ => 0).setHost .oath
    ⟨StorageEngine.new, fun _ _ => 0, ⟨some listedState, Oath.Session.fresh⟩, none⟩

/-- The router before LIST. -/
def listedRouter : CardRouter (Card KvMap) := ⟨listedCard, some (place .oath), none⟩

/-- What LIST answers. -/
def listedName : Bytes := [0x72, 0x02, 0x21, 0x61]

/-- LIST, then SEND REMAINING for a byte at a time. -/
theorem sendRemaining_lossless_iff_byByte :
    CardRouter.Fetches (applets CardRouter.idleCrypto 1) listedRouter [0x00, 0xA1, 0x00, 0x00]
        (fun _ => [0x00, 0xA5, 0x00, 0x00, 0x01]) listedName swNoError ↔
      Asked 4 0 fun _ => ⟨0x00, 0xA5, 0x00, 0x00, [], some 1⟩ := by
  have hparse : Apdu.parse [0x00, 0xA1, 0x00, 0x00] = .ok ⟨0x00, 0xA1, 0x00, 0x00, [], none⟩ := rfl
  have hresult : (((applet CardRouter.idleCrypto 1 .oath).process
      ⟨0x00, 0xA1, 0x00, 0x00, [], none⟩).run listedCard).1 = .ok (.ok listedName) := by
    decide +kernel
  have hsends : Continues (fun _ => [0x00, 0xA5, 0x00, 0x00, 0x01])
      fun _ => ⟨0x00, 0xA5, 0x00, 0x00, [], some 1⟩ := fun _ => ⟨rfl, rfl, rfl⟩
  have hsel : listedRouter.selected = some (place .oath) := rfl
  exact sendRemaining_lossless_iff hsel hparse (by decide) (by decide) (by decide)
    (Prod.ext hresult rfl) hsends

/-- Without an Le, the bytes are lost: the first SEND REMAINING is told that there are four, the
second that there are none. -/
theorem sendRemaining_loses :
    (((applet CardRouter.idleCrypto 1 .oath).process ⟨0x00, 0xA1, 0x00, 0x00, [], none⟩).run
        listedCard).1 = .ok (.ok listedName) ∧
      ¬CardRouter.Fetches (applets CardRouter.idleCrypto 1) listedRouter [0x00, 0xA1, 0x00, 0x00]
        (fun _ => [0x00, 0xA5, 0x00, 0x00]) listedName swNoError := by
  have hlist : ((CardRouter.process (applets CardRouter.idleCrypto 1)
      [0x00, 0xA1, 0x00, 0x00]).run listedRouter).1 = .ok (.withSw [] 0x6104) := by
    decide +kernel
  have hfirst : ((CardRouter.process (applets CardRouter.idleCrypto 1)
      [0x00, 0xA5, 0x00, 0x00]).run ((CardRouter.process (applets CardRouter.idleCrypto 1)
        [0x00, 0xA1, 0x00, 0x00]).run listedRouter).2).1 = .ok (.withSw [] 0x6104) := by
    decide +kernel
  have hsecond : ((CardRouter.process (applets CardRouter.idleCrypto 1)
      [0x00, 0xA5, 0x00, 0x00]).run ((CardRouter.process (applets CardRouter.idleCrypto 1)
        [0x00, 0xA5, 0x00, 0x00]).run ((CardRouter.process (applets CardRouter.idleCrypto 1)
          [0x00, 0xA1, 0x00, 0x00]).run listedRouter).2).2).1 = .ok (.withSw [] 0x6985) := by
    decide +kernel
  refine ⟨by decide +kernel, fun h => ?_⟩
  obtain ⟨rest, hrest, h⟩ :=
    (CardRouter.fetches_iff_of_more _ (Prod.ext hlist rfl) (by decide) _ _).mp h
  obtain ⟨rest', hrest', h⟩ :=
    (CardRouter.fetches_iff_of_more _ (Prod.ext hfirst rfl) (by decide) _ _).mp h
  obtain ⟨-, hsw⟩ := (CardRouter.fetches_iff_of_last _ (Prod.ext hsecond rfl) (by decide) _ _).mp h
  exact absurd hsw (by decide)

end Card

end OpenKey
