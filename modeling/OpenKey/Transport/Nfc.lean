import OpenKey.Transport.ApduCommand
import OpenKey.Transport.Iso7816Chaining

/-!
# The framed NFC transport

`FramedNfcTransport` of `crates/openkey-transport/src/nfc/framed_nfc.rs`: `recv_routed` reads a
command, hands it to the router and answers the reader, and goes on as long as the router has a
response to hand out. It returns the data of all the answers, one behind the other.

What the device will say is part of the state, and so is what it has read.

**Theorem (`recvRouted_whole_iff`).** A call returns the response to the last command that it has
read, whole and with nothing in front of it, exactly when no frame before that command delivers a
byte: these are no commands at all, or commands without an Le. The invariant of the loop is what the
router has left.
-/

namespace OpenKey

set_option autoImplicit false

/-- `NFC_APDU_BUF`. -/
def nfcApduBuf : Nat := 2048

/-- How an exchange fails: in the transport, or in an applet. -/
inductive NfcFault
  | transport (e : TransportError)
  | applet (fault : Fault)
  deriving DecidableEq, Repr

/-- `FramedNfcTransport`, with the router that it borrows. -/
structure NfcExchange (γ : Type) where
  initialized : Bool
  /-- The answers of `is_field_detected`, of `recv_apdu_command` and of `send_apdu_response`, from
  the next call on. -/
  field : Nat → Bool
  frames : Nat → Except EmbeddedTransportError Bytes
  accepts : Nat → Except EmbeddedTransportError Unit
  sent : List Bytes
  /-- The frames that have been read; the source has no such field. -/
  heard : List Bytes
  router : CardRouter γ

namespace NfcExchange

variable {γ : Type}

/-- The result of a call of the device. -/
def device {α : Type} (result : Except EmbeddedTransportError α) :
    Prog (NfcExchange γ) NfcFault α :=
  Prog.check fun _ => result.mapError fun e => .transport (.ofEmbedded e)

/-- `read_command`: at most as many bytes as the buffer has. -/
def readCommand : Prog (NfcExchange γ) NfcFault Bytes := do
  let detected ← Prog.act fun x => (x.field 0, { x with field := fun n => x.field (n + 1) })
  if detected then do
    let frame ← Prog.act fun x => (x.frames 0, { x with frames := fun n => x.frames (n + 1) })
    let frame ← device frame
    Prog.update fun x => { x with heard := x.heard ++ [frame.take nfcApduBuf] }
    pure (frame.take nfcApduBuf)
  else device (.error .timeout)

variable (applets : List (CardApplet γ))

/-- `process_and_respond`. -/
def processAndRespond (raw : Bytes) : Prog (NfcExchange γ) NfcFault Bytes := do
  let response ← Prog.zoom NfcExchange.router (fun r x => { x with router := r })
    (Prog.mapError NfcFault.applet (CardRouter.process applets raw))
  let accepted ← Prog.act fun x => (x.accepts 0, { x with accepts := fun n => x.accepts (n + 1) })
  device accepted
  Prog.update fun x => { x with sent := x.sent ++ [response.toBytes] }
  pure response.data

/-- The loop of `recv_routed`, `fuel` times at most: as long as a response is pending. -/
def drain : Nat → Bytes → Prog (NfcExchange γ) NfcFault (Option Bytes)
  | 0, _ => pure none
  | fuel + 1, out => do
      let pending ← Prog.read fun x => x.router.chain.isSome
      if pending then do
        let next ← readCommand
        let chunk ← processAndRespond applets next
        drain fuel (out ++ chunk)
      else pure (some out)

/-- `recv_routed`; nothing if the loop takes longer. -/
def recvRouted (fuel : Nat) : Prog (NfcExchange γ) NfcFault (Option Bytes) := do
  let initialized ← Prog.read fun x => x.initialized
  if initialized then do
    let raw ← readCommand
    let out ← processAndRespond applets raw
    drain applets fuel out
  else Prog.fail (.transport .notInitialized)

end NfcExchange

/-! ## What a frame does to the router -/

namespace CardRouter

variable {γ : Type} (applets : List (CardApplet γ))

/-- A command other than GET RESPONSE. -/
def Commands (raw : Bytes) (apdu : Apdu) : Prop := Apdu.parse raw = .ok apdu ∧ apdu.ins ≠ 0xC0

/-- The frame is such a command. -/
def IsCommand (raw : Bytes) : Prop := ∃ apdu, Commands raw apdu

/-- The response to a command, before any of it is handed out. -/
def respond (apdu : Apdu) : Prog (CardRouter γ) Fault ResponseData :=
  if apdu.ins = 0xA4 then handleSelect applets apdu
  else do
    let selected ← Prog.read fun r => r.selected
    match selected.bind fun idx => applets[idx]? with
    | none => pure (.withSw [] swInsNotSupported)
    | some applet => do
        let result ← onCard (applet.process apdu)
        pure (replyOf result)

/-- The data of the response to a command. -/
def payload (r : CardRouter γ) (apdu : Apdu) : Bytes :=
  match ((respond applets apdu).run { r with chain := none }).1 with
  | .ok response => response.data
  | .error _ => []

/-- What is left to hand out. -/
def Pending (r : CardRouter γ) (left : Bytes) : Prop :=
  (r.chain = none ∧ left = []) ∨
    (left ≠ [] ∧ ∃ chain, r.chain = some chain ∧ chain.buf.drop chain.pos = left)

theorem Pending.of_left {r : CardRouter γ} {sw : UInt16} {left : Bytes}
    (h : Left r sw (some left)) : Pending r left := by
  obtain ⟨hne, chain, hchain, -, hdrop⟩ := h
  exact .inr ⟨hne, chain, hchain, hdrop⟩

theorem Pending.left_nil {r : CardRouter γ} {left : Bytes} (h : Pending r left)
    (hchain : r.chain = none) : left = [] := by
  rcases h with ⟨-, hleft⟩ | ⟨-, chain, hsome, -⟩
  · exact hleft
  · rw [hchain] at hsome
    cases hsome

theorem Pending.left_ne {r : CardRouter γ} {left : Bytes} (h : Pending r left)
    (hchain : r.chain.isSome = true) : left ≠ [] := by
  rcases h with ⟨hnone, -⟩ | ⟨hne, -⟩
  · rw [hnone] at hchain
    cases hchain
  · exact hne

/-- A frame that is no command is answered without data. -/
theorem run_malformed {raw : Bytes} {e : ApduParseError} (hparse : Apdu.parse raw = .error e)
    (r : CardRouter γ) :
    (process applets raw).run r = (.ok (.withSw [] swWrongLength), r) := by
  unfold process
  rw [hparse]
  rfl

/-- A GET RESPONSE takes a piece off the front. -/
theorem run_get {raw : Bytes} {apdu : Apdu} {r next : CardRouter γ} {left : Bytes}
    {piece : ResponseData} (hparse : Apdu.parse raw = .ok apdu) (hins : apdu.ins = 0xC0)
    (hpending : Pending r left) (hleft : left ≠ [])
    (hrun : (process applets raw).run r = (.ok piece, next)) :
    ∃ more, left = piece.data ++ more ∧ piece.data ≠ [] ∧ Pending next more := by
  rw [run_getResponse applets hparse hins] at hrun
  rcases hpending with ⟨-, hnil⟩ | ⟨hne, chain, hchain, hdrop⟩
  · exact absurd hnil hleft
  · obtain ⟨piece', more, next', hserve, hsplit, hdata, hcase⟩ :=
      run_serveGetResponse
        (show Left r chain.finalSw (some left) from ⟨hne, chain, hchain, rfl, hdrop⟩)
        fun n hn => Apdu.le_pos hparse hn
    obtain ⟨hpiece, rfl⟩ := Prod.mk.inj (hserve.symm.trans hrun)
    obtain rfl := Except.ok.inj hpiece
    refine ⟨more, hsplit, hdata, ?_⟩
    rcases hcase with ⟨rfl, -, hnone⟩ | ⟨-, -, hmore⟩
    · exact .inl ⟨hnone, rfl⟩
    · exact .of_left hmore

/-- With nothing to hand out it is refused. -/
theorem run_get_none {raw : Bytes} {apdu : Apdu} {r : CardRouter γ}
    (hparse : Apdu.parse raw = .ok apdu) (hins : apdu.ins = 0xC0) (hchain : r.chain = none) :
    (process applets raw).run r =
      (.ok (.withSw [] swConditionsNotSatisfied), { r with chain := none }) := by
  rw [run_getResponse applets hparse hins, serveGetResponse, Prog.run_act_bind]
  simp only [hchain]
  rfl

theorem keeps_chain_handleSelect (apdu : Apdu) :
    Prog.Keeps (Prog.Frame.constant fun r : CardRouter γ => r.chain)
      (handleSelect applets apdu) := by
  have hcard : ∀ {α : Type} (m : Prog γ Fault α),
      Prog.Keeps (Prog.Frame.constant fun r : CardRouter γ => r.chain) (onCard m) :=
    fun m r => rfl
  unfold handleSelect
  refine .ite (fun _ => .pure _) fun _ => ?_
  split
  · exact .pure _
  · split
    · exact .fail _
    · refine (hcard _).bind fun result => ?_
      rcases result with sw | _
      · exact .pure _
      · refine (Prog.Keeps.update fun _ => rfl).bind fun _ => (hcard _).bind fun data => ?_
        cases data <;> exact .pure _

/-- Of a response that does not fit, nothing is handed out at once only without an Le. -/
theorem data_nil_iff {response first : ResponseData} {le : Option Nat} {more : Bytes}
    (hle : ∀ n, le = some n → 0 < n)
    (hfirst : first = if response.data.length ≤ le.getD 0 then
        .withSw response.data (response.sw.getD swNoError)
      else .withSw (response.data.take (le.getD 0))
        (swMoreData (response.data.length - le.getD 0)))
    (hsplit : response.data = first.data ++ more) (hmore : more ≠ []) :
    first.data = [] ↔ le = none := by
  by_cases hfits : response.data.length ≤ le.getD 0
  · rw [if_pos hfits] at hfirst
    rw [hfirst] at hsplit
    exact absurd (List.append_cancel_left ((List.append_nil _).trans hsplit)).symm hmore
  · rw [if_neg hfits] at hfirst
    have hdata : first.data = response.data.take (le.getD 0) := congrArg (·.data) hfirst
    rw [hdata, ← List.length_eq_zero_iff, List.length_take]
    cases le with
    | none => simp
    | some n =>
        have hn := hle n rfl
        rw [Option.getD_some] at hfits ⊢
        simp only [reduceCtorEq, iff_false]
        omega

/-- A command is answered with the beginning of its response, and the rest is left. Something of it
is delivered if the command has an Le. -/
theorem run_command {raw : Bytes} {apdu : Apdu} {r next : CardRouter γ} {piece : ResponseData}
    (hcommand : Commands raw apdu) (hrun : (process applets raw).run r = (.ok piece, next)) :
    ∃ more, payload applets r apdu = piece.data ++ more ∧ Pending next more ∧
      (more ≠ [] → (piece.data = [] ↔ apdu.le = none)) := by
  obtain ⟨hparse, hget⟩ := hcommand
  have hprocess : (process applets raw).run r =
      (if apdu.ins = 0xA4 then handleSelect applets apdu else route applets apdu).run
        { r with chain := none } := by
    unfold process
    simp only [hparse]
    rw [if_neg hget]
    rfl
  rw [hprocess] at hrun
  unfold payload respond
  by_cases hselect : apdu.ins = 0xA4
  · rw [if_pos hselect] at hrun
    have hchain : next.chain = none := (keeps_chain_handleSelect applets apdu).of_run hrun
    refine ⟨[], ?_, .inl ⟨hchain, rfl⟩, fun h => absurd rfl h⟩
    rw [if_pos hselect, hrun, List.append_nil]
  · rw [if_neg hselect] at hrun ⊢
    unfold route at hrun
    rw [Prog.run_read_bind] at hrun ⊢
    cases hfound : (r.selected.bind fun idx => applets[idx]?) with
    | none =>
        simp only [hfound] at hrun ⊢
        obtain ⟨hpiece, rfl⟩ := Prod.mk.inj hrun
        obtain rfl := Except.ok.inj hpiece
        exact ⟨[], rfl, .inl ⟨rfl, rfl⟩, fun h => absurd rfl h⟩
    | some applet =>
        simp only [hfound] at hrun ⊢
        obtain ⟨result, s, hcall, hdeliver⟩ := Prog.bind_eq_ok.mp hrun
        rw [Prog.run_bind_of_ok hcall]
        have hkeep : Prog.Keeps (Prog.Frame.constant fun r : CardRouter γ => r.chain)
            (onCard (applet.process apdu)) := fun _ => rfl
        replace hdeliver : (deliver (replyOf result) apdu.le).run s = (.ok piece, next) := by
          cases result <;> exact hdeliver
        obtain ⟨first, more, last, hrun', hsplit, hcase⟩ :=
          run_deliver (replyOf result) apdu.le (hkeep.of_run hcall)
        obtain ⟨hpiece, rfl⟩ := Prod.mk.inj (hrun'.symm.trans hdeliver)
        obtain rfl := Except.ok.inj hpiece
        refine ⟨more, hsplit, ?_, fun hmore => ?_⟩
        · rcases hcase with ⟨rfl, -, hnone⟩ | ⟨-, -, hleft⟩
          · exact .inl ⟨hnone, rfl⟩
          · exact .of_left hleft
        · obtain ⟨last', hdeliver', -⟩ := run_deliver_eq s (replyOf result) apdu.le
          have hfirst := Except.ok.inj (congrArg Prod.fst (hrun'.symm.trans hdeliver'))
          exact data_nil_iff (fun _ hn => Apdu.le_pos hparse hn) hfirst hsplit hmore

/-- A response that is being handed out is not through. -/
def ChainOk (r : CardRouter γ) : Prop :=
  ∀ chain, r.chain = some chain → chain.pos < chain.buf.length

theorem ChainOk.pending {r : CardRouter γ} (h : ChainOk r) : ∃ left, Pending r left := by
  cases hchain : r.chain with
  | none => exact ⟨[], .inl ⟨hchain, rfl⟩⟩
  | some chain =>
      refine ⟨chain.buf.drop chain.pos, .inr ⟨?_, chain, hchain, rfl⟩⟩
      rw [Ne, List.drop_eq_nil_iff]
      exact Nat.not_le.mpr (h chain hchain)

/-- No frame spoils that. -/
theorem keeps_chainOk_process (raw : Bytes) :
    Prog.Keeps (.invariant ChainOk) (process applets raw) := by
  have hnone : ∀ {r : CardRouter γ}, r.chain = none → ChainOk r := by
    intro r hchain chain hsome
    rw [hchain] at hsome
    cases hsome
  unfold process
  cases hparse : Apdu.parse raw with
  | error e => exact .pure _
  | ok apdu =>
      refine .ite (fun _ => ?_) fun _ => (Prog.Keeps.update fun r _ => hnone rfl).bind fun _ => ?_
      · intro r h
        cases hchain : r.chain with
        | none =>
            rw [serveGetResponse, Prog.run_act_bind]
            simp only [hchain]
            exact hnone rfl
        | some chain =>
            have hlong := h chain hchain
            rw [serveGetResponse, Prog.run_act_bind]
            simp only [hchain]
            by_cases hend : chain.pos + min (apdu.le.getD 256) (chain.buf.length - chain.pos) =
                chain.buf.length
            · rw [if_pos hend]
              exact hnone rfl
            · rw [if_neg hend]
              intro chain' hchain'
              obtain rfl := Option.some.inj hchain'
              show chain.pos + min _ _ < chain.buf.length
              omega
      · refine .ite (fun _ => ?_) fun _ => ?_
        · exact (keeps_chain_handleSelect applets apdu).mono fun r t hsame h chain hchain =>
            h chain ((show t.chain = r.chain from hsame) ▸ hchain)
        · refine (Prog.Keeps.read _).bind fun selected => ?_
          split
          · exact .pure _
          · refine Prog.Keeps.bind (fun r h => h) fun result => ?_
            refine .ite (fun _ => .pure _) fun _ => .ite (fun _ => .pure _) fun hlong => ?_
            refine (Prog.Keeps.update fun r _ chain hchain => ?_).bind fun _ => .pure _
            obtain rfl := Option.some.inj hchain
            exact Nat.lt_of_not_le hlong

/-! ## What a call reads and returns -/

/-- The frames that the loop reads, and their data. -/
inductive Drains : CardRouter γ → List Bytes → Bytes → Prop
  | done {r : CardRouter γ} (hchain : r.chain = none) : Drains r [] []
  | next {r next : CardRouter γ} {raw : Bytes} {piece : ResponseData} {frames : List Bytes}
      {out : Bytes} (hchain : r.chain.isSome = true)
      (hrun : (process applets raw).run r = (.ok piece, next)) (hrest : Drains next frames out) :
      Drains r (raw :: frames) (piece.data ++ out)

/-- The frames that a call reads, and their data. -/
def Receives (r : CardRouter γ) (frames : List Bytes) (out : Bytes) : Prop :=
  ∃ raw rest piece next more, frames = raw :: rest ∧ out = piece.data ++ more ∧
    (process applets raw).run r = (.ok piece, next) ∧ Drains applets next rest more

/-- The response to the last command of some frames. -/
def owed : CardRouter γ → List Bytes → Option Bytes → Option Bytes
  | _, [], last => last
  | r, raw :: frames, last => owed ((process applets raw).run r).2 frames
      (match Apdu.parse raw with
        | .ok apdu => if apdu.ins = 0xC0 then last else some (payload applets r apdu)
        | .error _ => last)

/-- A call returns the response to the last command that it has read, or nothing if it has read
none. -/
def WholeResponse (r : CardRouter γ) (frames : List Bytes) (out : Bytes) : Prop :=
  out = (owed applets r frames none).getD []

/-- A frame that delivers nothing while a response is pending: no command, or one without an Le. -/
def Silent (raw : Bytes) : Prop :=
  ∀ apdu, Apdu.parse raw = .ok apdu → apdu.ins ≠ 0xC0 ∧ apdu.le = none

/-- Only such frames come before a command. -/
def Clean (frames : List Bytes) : Prop :=
  ∀ pre raw post, frames = pre ++ raw :: post → IsCommand raw → ∀ frame ∈ pre, Silent frame

/-- Only such frames come before the last command, and a call that reads none finds nothing left. -/
def Undisturbed (r : CardRouter γ) (frames : List Bytes) : Prop :=
  Clean frames ∧ ((∃ raw ∈ frames, IsCommand raw) ∨ r.chain = none)

theorem clean_cons_iff {raw : Bytes} {frames : List Bytes} :
    Clean (raw :: frames) ↔ ((∃ frame ∈ frames, IsCommand frame) → Silent raw) ∧ Clean frames := by
  constructor
  · intro h
    constructor
    · rintro ⟨frame, hmem, hcommand⟩
      obtain ⟨pre, post, rfl⟩ := List.append_of_mem hmem
      exact h (raw :: pre) frame post rfl hcommand raw List.mem_cons_self
    · rintro pre frame post rfl hcommand other hother
      exact h (raw :: pre) frame post rfl hcommand other (List.mem_cons_of_mem _ hother)
  · rintro ⟨hfirst, hrest⟩ pre frame post hsplit hcommand other hother
    cases pre with
    | nil => exact absurd hother List.not_mem_nil
    | cons first pre =>
        obtain ⟨rfl, rfl⟩ := List.cons.inj hsplit
        rcases List.mem_cons.mp hother with rfl | hmem
        · exact hfirst ⟨frame, List.mem_append_right _ List.mem_cons_self, hcommand⟩
        · exact hrest pre frame post rfl hcommand other hmem

theorem clean_of_no_command {frames : List Bytes} (h : ∀ frame ∈ frames, ¬IsCommand frame) :
    Clean frames := by
  rintro pre raw post rfl hcommand
  exact absurd hcommand (h raw (List.mem_append_right _ List.mem_cons_self))

/-- What frames return: what was left, if there is no command among them; else the response to the
last command, behind what came before it. -/
def Outcome (r : CardRouter γ) (frames : List Bytes) (out left : Bytes) (last : Option Bytes) :
    Prop :=
  ((∀ frame ∈ frames, ¬IsCommand frame) ∧ owed applets r frames last = last ∧ out = left) ∨
    ((∃ frame ∈ frames, IsCommand frame) ∧ ∃ before response,
      owed applets r frames last = some response ∧ out = before ++ response ∧
        (before = [] ↔ Clean frames))

theorem owed_cons {raw : Bytes} {r next : CardRouter γ} {result : Except Fault ResponseData}
    (hrun : (process applets raw).run r = (result, next)) (frames : List Bytes)
    (last : Option Bytes) :
    owed applets r (raw :: frames) last = owed applets next frames
      (match Apdu.parse raw with
        | .ok apdu => if apdu.ins = 0xC0 then last else some (payload applets r apdu)
        | .error _ => last) := by
  rw [owed, hrun]

section

variable {applets} {r next : CardRouter γ} {raw : Bytes} {frames : List Bytes} {out left : Bytes}
  {piece : ResponseData} {last : Option Bytes}

/-- A frame that is no command, in front of others. -/
theorem Outcome.cons_malformed {e : ApduParseError} (hparse : Apdu.parse raw = .error e)
    (h : Outcome applets r frames out left last) :
    Outcome applets r (raw :: frames) out left last := by
  have hno : ¬IsCommand raw := fun ⟨apdu, hok, _⟩ => nomatch hok.symm.trans hparse
  have hsilent : Silent raw := fun apdu hok => nomatch hok.symm.trans hparse
  have howed : owed applets r (raw :: frames) last = owed applets r frames last := by
    rw [owed_cons applets (run_malformed applets hparse r), hparse]
  rcases h with ⟨hnone, hlast, hout⟩ |
    ⟨⟨frame, hmem, hcommand⟩, before, response, hlast, hout, hiff⟩
  · refine .inl ⟨fun frame hframe => ?_, howed.trans hlast, hout⟩
    rcases List.mem_cons.mp hframe with rfl | hmem
    · exact hno
    · exact hnone frame hmem
  · refine .inr ⟨⟨frame, List.mem_cons_of_mem _ hmem, hcommand⟩, before, response,
      howed.trans hlast, hout, ?_⟩
    rw [clean_cons_iff, hiff]
    exact ⟨fun h => ⟨fun _ => hsilent, h⟩, fun h => h.2⟩

/-- A GET RESPONSE in front of others. -/
theorem Outcome.cons_get {apdu : Apdu} {more : Bytes} (hparse : Apdu.parse raw = .ok apdu)
    (hins : apdu.ins = 0xC0) (hrun : (process applets raw).run r = (.ok piece, next))
    (hsplit : left = piece.data ++ more) (hdata : piece.data = [] → frames = [])
    (h : Outcome applets next frames out more last) :
    Outcome applets r (raw :: frames) (piece.data ++ out) left last := by
  have hno : ¬IsCommand raw := by
    rintro ⟨apdu', hok, hother⟩
    obtain rfl := Except.ok.inj (hok.symm.trans hparse)
    exact hother hins
  have howed : owed applets r (raw :: frames) last = owed applets next frames last := by
    rw [owed_cons applets hrun, hparse]
    simp only [if_pos hins]
  rcases h with ⟨hnone, hlast, rfl⟩ | ⟨⟨frame, hmem, hcommand⟩, before, response, hlast, rfl, -⟩
  · refine .inl ⟨fun frame hframe => ?_, howed.trans hlast, hsplit.symm⟩
    rcases List.mem_cons.mp hframe with rfl | hmem
    · exact hno
    · exact hnone frame hmem
  · refine .inr ⟨⟨frame, List.mem_cons_of_mem _ hmem, hcommand⟩, piece.data ++ before, response,
      howed.trans hlast, (List.append_assoc _ _ _).symm, ?_⟩
    rw [clean_cons_iff, List.append_eq_nil_iff]
    constructor
    · rintro ⟨hnil, -⟩
      rw [hdata hnil] at hmem
      cases hmem
    · rintro ⟨hsilent, -⟩
      exact absurd hins (hsilent ⟨frame, hmem, hcommand⟩ apdu hparse).1

/-- A command in front of others. -/
theorem Outcome.cons_command {apdu : Apdu} {more : Bytes} (hcommand : Commands raw apdu)
    (hrun : (process applets raw).run r = (.ok piece, next))
    (hsplit : payload applets r apdu = piece.data ++ more)
    (hdata : frames ≠ [] → (piece.data = [] ↔ apdu.le = none))
    (h : Outcome applets next frames out more (some (payload applets r apdu))) :
    Outcome applets r (raw :: frames) (piece.data ++ out) left last := by
  have howed : owed applets r (raw :: frames) last =
      owed applets next frames (some (payload applets r apdu)) := by
    rw [owed_cons applets hrun, hcommand.1]
    simp only [if_neg hcommand.2]
  have hfirst : ∃ frame ∈ raw :: frames, IsCommand frame :=
    ⟨raw, List.mem_cons_self, apdu, hcommand⟩
  rcases h with ⟨hnone, hlast, rfl⟩ | ⟨⟨frame, hmem, hother⟩, before, response, hlast, rfl, hiff⟩
  · refine .inr ⟨hfirst, [], _, howed.trans hlast, hsplit.symm, fun _ => ?_, fun _ => rfl⟩
    rw [clean_cons_iff]
    exact ⟨fun ⟨frame, hmem, hother⟩ => absurd hother (hnone frame hmem),
      clean_of_no_command hnone⟩
  · have hsilent : Silent raw ↔ apdu.le = none := by
      constructor
      · exact fun h => (h apdu hcommand.1).2
      · rintro hle apdu' hok
        obtain rfl := Except.ok.inj (hok.symm.trans hcommand.1)
        exact ⟨hcommand.2, hle⟩
    refine .inr ⟨hfirst, piece.data ++ before, response, howed.trans hlast,
      (List.append_assoc _ _ _).symm, ?_⟩
    rw [clean_cons_iff, List.append_eq_nil_iff, hiff, hdata (List.ne_nil_of_mem hmem), ← hsilent]
    exact ⟨fun ⟨h, hclean⟩ => ⟨fun _ => h, hclean⟩,
      fun ⟨h, hclean⟩ => ⟨h ⟨frame, hmem, hother⟩, hclean⟩⟩

theorem Drains.chain_isSome (h : Drains applets r frames out) (hne : frames ≠ []) :
    r.chain.isSome = true := by
  cases h with
  | done hchain => exact absurd rfl hne
  | next hchain hrun hrest => exact hchain

/-- One frame, whatever it is. -/
theorem Outcome.cons (hpending : Pending r left)
    (hrun : (process applets raw).run r = (.ok piece, next))
    (hdrains : Drains applets next frames out)
    (h : ∀ {left last}, Pending next left → Outcome applets next frames out left last) :
    Outcome applets r (raw :: frames) (piece.data ++ out) left last := by
  cases hparse : Apdu.parse raw with
  | error e =>
      obtain ⟨hpiece, rfl⟩ := Prod.mk.inj ((run_malformed applets hparse r).symm.trans hrun)
      obtain rfl := Except.ok.inj hpiece
      exact (h hpending).cons_malformed hparse
  | ok apdu =>
      by_cases hins : apdu.ins = 0xC0
      · by_cases hleft : left = []
        · have hchain : r.chain = none := by
            rcases hpending with ⟨hnone, -⟩ | ⟨hne, -⟩
            · exact hnone
            · exact absurd hleft hne
          obtain ⟨hpiece, rfl⟩ :=
            Prod.mk.inj ((run_get_none applets hparse hins hchain).symm.trans hrun)
          obtain rfl := Except.ok.inj hpiece
          refine Outcome.cons_get hparse hins hrun (by rw [hleft]; rfl) (fun _ => ?_)
            (h (.inl ⟨rfl, rfl⟩))
          by_contra hne
          cases hdrains.chain_isSome hne
        · obtain ⟨more, hsplit, hdata, hmore⟩ := run_get applets hparse hins hpending hleft hrun
          exact Outcome.cons_get hparse hins hrun hsplit (fun hnil => absurd hnil hdata) (h hmore)
      · have hcommand : Commands raw apdu := ⟨hparse, hins⟩
        obtain ⟨more, hsplit, hmore, hdata⟩ := run_command applets hcommand hrun
        exact Outcome.cons_command hcommand hrun hsplit
          (fun hne => hdata (hmore.left_ne (hdrains.chain_isSome hne))) (h hmore)

theorem Drains.outcome (h : Drains applets r frames out) :
    ∀ {left last}, Pending r left → Outcome applets r frames out left last := by
  induction h with
  | done hchain =>
      intro left last hpending
      exact .inl ⟨fun _ h => absurd h List.not_mem_nil, rfl, (hpending.left_nil hchain).symm⟩
  | next hchain hrun hrest ih => exact fun hpending => Outcome.cons hpending hrun hrest ih

/-- What a call returns is the whole response exactly when nothing comes before it. -/
theorem Receives.whole_iff (h : Receives applets r frames out) (hpending : Pending r left) :
    WholeResponse applets r frames out ↔ Undisturbed r frames := by
  obtain ⟨raw, rest, piece, next, more, rfl, rfl, hrun, hdrains⟩ := h
  have houtcome : Outcome applets r (raw :: rest) (piece.data ++ more) left none :=
    Outcome.cons hpending hrun hdrains hdrains.outcome
  unfold WholeResponse Undisturbed
  rcases houtcome with ⟨hnone, howed, hout⟩ | ⟨hsome, before, response, howed, hout, hiff⟩
  · rw [howed, hout, Option.getD_none]
    constructor
    · rintro rfl
      rcases hpending with ⟨hchain, -⟩ | ⟨hne, -⟩
      · exact ⟨clean_of_no_command hnone, .inr hchain⟩
      · exact absurd rfl hne
    · rintro ⟨-, ⟨frame, hmem, hcommand⟩ | hchain⟩
      · exact absurd hcommand (hnone frame hmem)
      · exact hpending.left_nil hchain
  · rw [howed, hout, Option.getD_some]
    constructor
    · intro hsame
      have hnil : before = [] := List.append_cancel_right (hsame.trans (List.nil_append _).symm)
      exact ⟨hiff.mp hnil, .inl hsome⟩
    · rintro ⟨hclean, -⟩
      rw [hiff.mpr hclean, List.nil_append]

end

end CardRouter

/-! ## Calls -/

namespace NfcExchange

variable {γ : Type} {applets : List (CardApplet γ)} {x y : NfcExchange γ}

theorem readCommand_ok {raw : Bytes} (h : readCommand.run x = (.ok raw, y)) :
    y.heard = x.heard ++ [raw] ∧ y.router = x.router := by
  obtain ⟨detected, x₁, hfield, h⟩ := Prog.bind_eq_ok.mp h
  obtain ⟨-, rfl⟩ := Prod.mk.inj hfield
  split at h
  · obtain ⟨frame, x₂, hframe, h⟩ := Prog.bind_eq_ok.mp h
    obtain ⟨-, rfl⟩ := Prod.mk.inj hframe
    obtain ⟨bytes, x₃, hdevice, h⟩ := Prog.bind_eq_ok.mp h
    obtain ⟨-, rfl⟩ := Prog.check_eq_ok.mp hdevice
    obtain ⟨hraw, rfl⟩ := Prod.mk.inj h
    obtain rfl := Except.ok.inj hraw
    exact ⟨rfl, rfl⟩
  · obtain ⟨hdevice, -⟩ := Prog.check_eq_ok.mp h
    cases hdevice

theorem processAndRespond_ok {raw chunk : Bytes}
    (h : (processAndRespond applets raw).run x = (.ok chunk, y)) :
    ∃ response, (CardRouter.process applets raw).run x.router = (.ok response, y.router) ∧
      chunk = response.data ∧ y.heard = x.heard := by
  obtain ⟨response, x₁, hprocess, h⟩ := Prog.bind_eq_ok.mp h
  obtain ⟨accepted, x₂, haccept, h⟩ := Prog.bind_eq_ok.mp h
  obtain ⟨-, rfl⟩ := Prod.mk.inj haccept
  obtain ⟨u, x₃, hdevice, h⟩ := Prog.bind_eq_ok.mp h
  obtain ⟨-, rfl⟩ := Prog.check_eq_ok.mp hdevice
  obtain ⟨hchunk, rfl⟩ := Prod.mk.inj h
  obtain rfl := Except.ok.inj hchunk
  obtain ⟨hresponse, rfl⟩ := Prod.mk.inj hprocess
  refine ⟨response, Prod.ext ?_ rfl, rfl, rfl⟩
  exact Except.mapError_eq_ok.mp hresponse

theorem drain_ok (fuel : Nat) : ∀ {x : NfcExchange γ} {out out' : Bytes},
    (drain applets fuel out).run x = (.ok (some out'), y) →
    ∃ frames more, out' = out ++ more ∧ y.heard = x.heard ++ frames ∧
      CardRouter.Drains applets x.router frames more := by
  induction fuel with
  | zero =>
      intro x out out' h
      cases h
  | succ fuel ih =>
      intro x out out' h
      rw [drain, Prog.run_read_bind] at h
      cases hpending : x.router.chain.isSome with
      | false =>
          rw [hpending, if_neg Bool.false_ne_true] at h
          obtain ⟨hout, rfl⟩ := Prod.mk.inj h
          obtain rfl := Option.some.inj (Except.ok.inj hout)
          refine ⟨[], [], (List.append_nil _).symm, (List.append_nil _).symm, .done ?_⟩
          exact Option.isSome_eq_false_iff.mp hpending |> Option.isNone_iff_eq_none.mp
      | true =>
          rw [hpending, if_pos rfl] at h
          obtain ⟨raw, x₁, hread, h⟩ := Prog.bind_eq_ok.mp h
          obtain ⟨chunk, x₂, hprocess, h⟩ := Prog.bind_eq_ok.mp h
          obtain ⟨hheard, hrouter⟩ := readCommand_ok hread
          obtain ⟨response, hrun, rfl, hheard'⟩ := processAndRespond_ok hprocess
          obtain ⟨frames, more, rfl, hheard'', hdrains⟩ := ih h
          rw [hrouter] at hrun
          refine ⟨raw :: frames, response.data ++ more, List.append_assoc _ _ _, ?_,
            .next hpending hrun hdrains⟩
          rw [hheard'', hheard', hheard, List.append_assoc]
          rfl

theorem recvRouted_ok {fuel : Nat} {out : Bytes}
    (h : (recvRouted applets fuel).run x = (.ok (some out), y)) :
    ∃ frames, y.heard = x.heard ++ frames ∧
      CardRouter.Receives applets x.router frames out := by
  rw [recvRouted, Prog.run_read_bind] at h
  split at h
  · obtain ⟨raw, x₁, hread, h⟩ := Prog.bind_eq_ok.mp h
    obtain ⟨chunk, x₂, hprocess, h⟩ := Prog.bind_eq_ok.mp h
    obtain ⟨hheard, hrouter⟩ := readCommand_ok hread
    obtain ⟨response, hrun, rfl, hheard'⟩ := processAndRespond_ok hprocess
    obtain ⟨frames, more, rfl, hheard'', hdrains⟩ := drain_ok fuel h
    rw [hrouter] at hrun
    refine ⟨raw :: frames, ?_, raw, frames, response, _, more, rfl, rfl, hrun, hdrains⟩
    rw [hheard'', hheard', hheard, List.append_assoc]
    rfl
  · cases h

/-- What the router keeps, a call keeps. -/
theorem keeps_recvRouted {P : CardRouter γ → Prop}
    (hP : ∀ raw, Prog.Keeps (.invariant P) (CardRouter.process applets raw)) (fuel : Nat) :
    Prog.Keeps (.invariant fun x : NfcExchange γ => P x.router) (recvRouted applets fuel) := by
  have hread : Prog.Keeps (.invariant fun x : NfcExchange γ => P x.router) readCommand := by
    refine (Prog.Keeps.act fun _ h => h).bind fun detected => .ite (fun _ => ?_) fun _ => .check _
    exact (Prog.Keeps.act fun _ h => h).bind fun frame => (Prog.Keeps.check _).bind fun bytes =>
      (Prog.Keeps.update fun _ h => h).bind fun _ => .pure _
  have hprocess : ∀ raw, Prog.Keeps (.invariant fun x : NfcExchange γ => P x.router)
      (processAndRespond applets raw) := by
    intro raw
    refine Prog.Keeps.bind (fun x => hP raw x.router) fun response => ?_
    exact (Prog.Keeps.act fun _ h => h).bind fun accepted => (Prog.Keeps.check _).bind fun _ =>
      (Prog.Keeps.update fun _ h => h).bind fun _ => .pure _
  have hdrain : ∀ fuel out, Prog.Keeps (.invariant fun x : NfcExchange γ => P x.router)
      (drain applets fuel out) := by
    intro fuel
    induction fuel with
    | zero => exact fun out => .pure _
    | succ fuel ih =>
        intro out
        exact (Prog.Keeps.read _).bind fun pending => .ite
          (fun _ => hread.bind fun next => (hprocess next).bind fun chunk => ih _) fun _ => .pure _
  exact (Prog.Keeps.read _).bind fun initialized => .ite
    (fun _ => hread.bind fun raw => (hprocess raw).bind fun out => hdrain fuel out) fun _ => .fail _

variable (applets) in
/-- Exchanges from a new router on; between calls, anything may happen to the transport. -/
inductive Reached : NfcExchange γ → Prop
  | new {x : NfcExchange γ} (card : γ) (hrouter : x.router = ⟨card, none, none⟩) : Reached x
  | call {x : NfcExchange γ} (fuel : Nat) :
      Reached x → Reached ((recvRouted applets fuel).run x).2
  | between {x y : NfcExchange γ} (hrouter : y.router = x.router) : Reached x → Reached y

theorem Reached.chainOk (h : Reached applets x) : x.router.ChainOk := by
  induction h with
  | new card hrouter =>
      intro chain hchain
      rw [hrouter] at hchain
      cases hchain
  | call fuel _ ih => exact keeps_recvRouted (CardRouter.keeps_chainOk_process applets) fuel _ ih
  | between hrouter _ ih =>
      rw [hrouter]
      exact ih

/-- **Routed exchanges.** In every run, a call that succeeds returns the whole response to the last
command that it has read, and nothing else, exactly when each frame before that command is no
command or one without an Le; a call that reads no command, exactly when nothing was left. -/
theorem recvRouted_whole_iff (hreached : Reached applets x) {fuel : Nat} {out : Bytes}
    (hrun : (recvRouted applets fuel).run x = (.ok (some out), y)) :
    ∃ frames, y.heard = x.heard ++ frames ∧
      (CardRouter.WholeResponse applets x.router frames out ↔
        CardRouter.Undisturbed x.router frames) := by
  obtain ⟨frames, hheard, hreceives⟩ := recvRouted_ok hrun
  obtain ⟨left, hpending⟩ := hreached.chainOk.pending
  exact ⟨frames, hheard, hreceives.whole_iff hpending⟩

/-- A reader that sends some frames. -/
def reading (frames : List Bytes) : NfcExchange Unit where
  initialized := true
  field _ := true
  frames n := (frames[n]?).elim (.error .timeout) .ok
  accepts _ := .ok ()
  sent := []
  heard := []
  router := ⟨(), some 0, none⟩

/-- Before the selection, from which the router of `reading` comes. -/
theorem reached_reading (frames : List Bytes) : Reached [fiveBytes] (reading frames) := by
  have hselect : ((recvRouted [fiveBytes] 0).run
      { reading [[0x00, 0xA4, 0x04, 0x00, 0x01, 0x01]] with router := ⟨(), none, none⟩ }).2.router =
        ⟨(), some 0, none⟩ := rfl
  exact .between hselect.symm (.call 0 (.new () rfl))

/-- Two bytes, and the others with a GET RESPONSE. -/
theorem recvRouted_whole_iff_two :
    ∃ frames, ((recvRouted [fiveBytes] 5).run
        (reading [[0, 1, 0, 0, 2], [0, 0xC0, 0, 0, 0]])).2.heard = [] ++ frames ∧
      (CardRouter.WholeResponse [fiveBytes] ⟨(), some 0, none⟩ frames [1, 2, 3, 4, 5] ↔
        CardRouter.Undisturbed (⟨(), some 0, none⟩ : CardRouter Unit) frames) :=
  recvRouted_whole_iff (reached_reading _) (Prod.ext (by decide +kernel) rfl)

/-- A command while a response is being handed out: what was handed out stays in front. -/
theorem responses_concatenated :
    ((recvRouted [fiveBytes] 5).run (reading [[0, 1, 0, 0, 2], [0, 1, 0, 0, 5]])).1 =
        .ok (some [1, 2, 1, 2, 3, 4, 5]) ∧
      ((recvRouted [fiveBytes] 5).run (reading [[0, 1, 0, 0, 2], [0, 1, 0, 0, 5]])).2.heard =
        [[0, 1, 0, 0, 2], [0, 1, 0, 0, 5]] ∧
      ¬CardRouter.WholeResponse [fiveBytes] ⟨(), some 0, none⟩ [[0, 1, 0, 0, 2], [0, 1, 0, 0, 5]]
        [1, 2, 1, 2, 3, 4, 5] := by
  refine ⟨by decide +kernel, by decide +kernel, fun h => ?_⟩
  have howed : (CardRouter.owed [fiveBytes] ⟨(), some 0, none⟩
      [[0, 1, 0, 0, 2], [0, 1, 0, 0, 5]] none).getD [] = [1, 2, 3, 4, 5] := by decide +kernel
  exact absurd (h.trans howed) (by decide)

end NfcExchange

end OpenKey
