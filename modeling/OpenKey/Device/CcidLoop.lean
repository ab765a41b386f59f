import OpenKey.Transport.CcidHandler

/-!
# The loops that serve CCID

The two loops that answer XfrBlocks without a handler: `main` of `targets/rp2350/src/main.rs`, which
polls the device and serves what is pending, and the loop over `recv_apdu` and `send_apdu` of
`UsbCcidBackend`.

A turn takes what the bus brings, in any number and order: packets and resets. What the router
answers is part of the turn, so a run covers every router.

`Free` says that nothing is pending and nothing is awaited. **Main result (`neverWedged_iff`).** The
slot is free after every turn, and what was accepted in it is answered, exactly when every turn is
`Answerable`: the response fits in a DataBlock, and the loop over `recv_apdu` gets no empty
XfrBlock.
-/

namespace OpenKey

set_option autoImplicit false

/-! ## The loops -/

/-- What the bus brings in a poll. -/
inductive UsbEvent
  | packet (chunk : Bytes)
  | reset
  deriving DecidableEq

/-- The loop of the firmware, or the one over `recv_apdu` with a buffer of some length. -/
inductive CcidLoop
  | firmware
  | recvApdu (bufLen : Nat)
  deriving DecidableEq

/-- A turn of a loop: what the bus brings, and what the router answers. -/
structure CcidTurn where
  events : List UsbEvent
  respond : Bytes → Bytes

namespace CcidClass

variable {η : Type}

/-- The classes' part of `usb_dev.poll`. -/
def usbPoll : List UsbEvent → CcidClass η → Except Panic (CcidClass η)
  | [], c => pure c
  | .packet chunk :: events, c => do
      let c ← rxAppend chunk c
      usbPoll events c
  | .reset :: events, c => usbPoll events c.reset

/-- The request is taken into a buffer, and its response sent; what `send_response` returns is
ignored. -/
def serve (bufLen : Nat) (respond : Bytes → Bytes) (c : CcidClass η) :
    Except Panic (CcidClass η) := do
  let (apdu, c) ← takePendingRequest bufLen c
  match apdu with
  | some apdu => do
      let (_, c) ← sendResponse (respond apdu) c
      pure c
  | none => pure c

/-- A turn of a loop. -/
def turn (loop : CcidLoop) (t : CcidTurn) (c : CcidClass η) : Except Panic (CcidClass η) := do
  let c ← usbPoll t.events c
  let c ← process none c
  match loop with
  | .firmware => if c.pending then serve maxPayloadLen t.respond c else pure c
  | .recvApdu bufLen =>
      if c.pendingRequestLen = 0 then pure c
      else if bufLen < c.pendingRequestLen then pure c
      else serve bufLen t.respond c

/-- Nothing is pending, and nothing is awaited. -/
def Free (c : CcidClass η) : Prop := c.pending = false ∧ c.respAwaiting = false

/-- An XfrBlock accepted after the poll is answered: `process` retains it, and what is queued next
is a DataBlock for its slot and number, with the response of the router to its data. -/
def Answered (t : CcidTurn) (polled c' : CcidClass η) : Prop :=
  polled.rxReady = true → Accepts polled → ∃ mid, process none polled = .ok mid ∧
    queueResponse ⟨rdrToPcDatablock, polled.rxByte 5, polled.rxByte 6, mid.okStatus, 0x00, 0x00,
        t.respond (abData polled)⟩
      { mid with pending := false, pendingLen := 0, respAwaiting := false } = .ok c'

/-- The slot is free after every turn, also if the bus is reset then, and what was accepted in a
turn is answered. -/
def NeverWedged (loop : CcidLoop) : CcidClass η → List CcidTurn → Prop
  | _, [] => True
  | c, t :: turns => ∃ polled c', usbPoll t.events c = .ok polled ∧ turn loop t c = .ok c' ∧
      Free c' ∧ Free c'.reset ∧ Answered t polled c' ∧ NeverWedged loop c' turns

/-- The response to an XfrBlock accepted in the turn fits in a DataBlock; to `recv_apdu` the block
brings at least one byte, and no more than its buffer holds. -/
def Answerable (loop : CcidLoop) (respond : Bytes → Bytes) (polled : CcidClass η) : Prop :=
  (respond (abData polled)).length ≤ 278 ∧
    match loop with
    | .firmware => True
    | .recvApdu bufLen => 0 < polled.dwLength ∧ polled.dwLength ≤ bufLen

/-- What a turn must find for the slot to stay free. -/
def Serviceable (loop : CcidLoop) (t : CcidTurn) (c : CcidClass η) : Prop :=
  ∀ polled, usbPoll t.events c = .ok polled → polled.rxReady = true →
    ¬Overflows polled ∧ (Accepts polled → Answerable loop t.respond polled)

/-- Every turn of a run is serviceable. -/
def AllServiceable (loop : CcidLoop) : CcidClass η → List CcidTurn → Prop
  | _, [] => True
  | c, t :: turns => Serviceable loop t c ∧
      ∀ c', turn loop t c = .ok c' → AllServiceable loop c' turns

/-! ## The poll -/

theorem usbPoll_ok (events : List UsbEvent) : ∀ {c : CcidClass η}, Wf c → Free c →
    ∃ polled, usbPoll events c = .ok polled ∧ Wf polled ∧ Free polled := by
  induction events with
  | nil => exact fun {c} hwf hfree => ⟨c, rfl, hwf, hfree⟩
  | cons event events ih =>
      intro c hwf hfree
      cases event with
      | packet chunk =>
          have halike : Alike c (appended chunk c) := alike_appended
          obtain ⟨polled, hpoll, hrest⟩ := ih (wf_appended hwf chunk)
            ⟨halike.pending.trans hfree.1, halike.respAwaiting.trans hfree.2⟩
          refine ⟨polled, ?_, hrest⟩
          rw [usbPoll, rxAppend_eq hwf]
          exact hpoll
      | reset =>
          exact ih { wf_clearRx hwf with tx := .inr ⟨rfl, rfl⟩, qLen := Nat.zero_le _ } hfree

/-! ## Serving a request -/

/-- An XfrBlock waits to be taken. -/
structure Waits (c polled : CcidClass η) : Prop where
  wf : Wf c
  pending : c.pending = true
  respAwaiting : c.respAwaiting = false
  slot : c.pendingSlot = polled.rxByte 5
  seq : c.pendingSeq = polled.rxByte 6
  len : c.pendingLen = polled.dwLength
  apdu : c.pendingApdu.take polled.dwLength = abData polled

/-- `process` retains an XfrBlock that it accepts. -/
theorem process_retains {polled : CcidClass η} (hwf : Wf polled) (hready : polled.rxReady = true)
    (haccept : Accepts polled) : ∃ c, process none polled = .ok c ∧ Waits c polled := by
  have hrx := hwf.rxLen
  obtain ⟨⟨-, -, hwhole⟩, -, -, -, hawaiting⟩ := id haccept
  have hlen := length_abData hwf hwhole
  have hfits : (abData polled).length ≤ 278 := by omega
  obtain ⟨c, hflush, hwf', hout⟩ :=
    flushTx_ok (wf_retained hwf hfits (polled.rxByte 5) (polled.rxByte 6))
  refine ⟨c, ?_, ?_⟩
  · unfold process
    rw [if_pos hready, dispatchRx_accept none hwf haccept]
    exact hflush
  · obtain ⟨_, _, _, _, _, _, _, rfl⟩ := hout
    refine ⟨hwf', rfl, hawaiting, rfl, rfl, hlen, ?_⟩
    show (abData polled ++ _).take polled.dwLength = abData polled
    rw [← hlen, List.take_append_of_le_length (Nat.le_refl _), List.take_length]

theorem sendResponse_fits {c : CcidClass η} (hwf : Wf c) (hawaiting : c.respAwaiting = true)
    {resp : Bytes} (hfits : resp.length ≤ 278) :
    ∃ c', sendResponse resp c = .ok (.ok (), c') ∧ Wf c' ∧ c'.respAwaiting = false ∧
      c'.pending = c.pending ∧ queueResponse
        ⟨rdrToPcDatablock, c.pendingSlot, c.pendingSeq, c.okStatus, 0x00, 0x00, resp⟩
          { c with respAwaiting := false } = .ok c' := by
  obtain ⟨c', hqueue, hwf', hout⟩ := queueResponse_ok (c := { c with respAwaiting := false })
    { hwf with }
      (r := ⟨rdrToPcDatablock, c.pendingSlot, c.pendingSeq, c.okStatus, 0x00, 0x00, resp⟩)
    hfits
  refine ⟨c', ?_, hwf', ?_, ?_, hqueue⟩
  · unfold sendResponse
    rw [hawaiting, Bool.not_true, if_neg Bool.false_ne_true, maxPayloadLen,
      if_neg (Nat.not_lt.mpr hfits), hqueue]
    rfl
  all_goals obtain ⟨_, _, _, _, _, _, _, rfl⟩ := hout
  all_goals rfl

theorem sendResponse_long {c : CcidClass η} (hawaiting : c.respAwaiting = true) {resp : Bytes}
    (hlong : 278 < resp.length) : sendResponse resp c = .ok (.error .bufferTooSmall, c) := by
  unfold sendResponse
  rw [hawaiting, Bool.not_true, if_neg Bool.false_ne_true, maxPayloadLen, if_pos hlong]
  rfl

/-- A request is answered if its response fits; else the slot stays busy. -/
theorem serve_waits {c polled : CcidClass η} (hprocess : process none polled = .ok c)
    (h : Waits c polled) {bufLen : Nat} (hbuf : polled.dwLength ≤ bufLen) (t : CcidTurn) :
    ∃ c', serve bufLen t.respond c = .ok c' ∧ Wf c' ∧
      ((t.respond (abData polled)).length ≤ 278 ∧ Free c' ∧ Answered t polled c' ∨
        278 < (t.respond (abData polled)).length ∧ ¬Free c') := by
  have hmin : min c.pendingLen bufLen = polled.dwLength := by
    rw [h.len]
    exact Nat.min_eq_left hbuf
  have hlen : polled.dwLength ≤ c.pendingApdu.length := by
    rw [h.wf.pendingApdu, ← h.len]
    exact h.wf.pendingLen
  have htake : takePendingRequest bufLen c = .ok (some (abData polled),
      { c with pending := false, pendingLen := 0, respAwaiting := true }) := by
    unfold takePendingRequest
    rw [if_pos h.pending, hmin, Checked.slice_zero hlen, h.apdu]
    rfl
  have hwf : Wf { c with pending := false, pendingLen := 0, respAwaiting := true } :=
    { h.wf with pendingLen := Nat.zero_le _ }
  unfold serve
  rw [htake]
  show ∃ c', (sendResponse (t.respond (abData polled)) _ >>= _) = _ ∧ _
  by_cases hfits : (t.respond (abData polled)).length ≤ 278
  · obtain ⟨c', hsend, hwf', hawaiting, hpending, hqueue⟩ := sendResponse_fits hwf rfl hfits
    have hanswered : Answered t polled c' := by
      intro _ _
      rw [← h.slot, ← h.seq]
      exact ⟨c, hprocess, hqueue⟩
    rw [hsend]
    exact ⟨c', rfl, hwf', .inl ⟨hfits, ⟨hpending, hawaiting⟩, hanswered⟩⟩
  · have hlong := Nat.lt_of_not_le hfits
    rw [sendResponse_long rfl hlong]
    exact ⟨_, rfl, hwf, .inr ⟨hlong, fun hfree => Bool.noConfusion hfree.2⟩⟩

/-! ## A turn -/

/-- What a turn does after the poll. -/
theorem turn_eq {loop : CcidLoop} {t : CcidTurn} {c polled mid : CcidClass η}
    (hpoll : usbPoll t.events c = .ok polled) (hprocess : process none polled = .ok mid) :
    turn loop t c =
      match loop with
      | .firmware => if mid.pending then serve maxPayloadLen t.respond mid else pure mid
      | .recvApdu bufLen =>
          if mid.pendingRequestLen = 0 then pure mid
          else if bufLen < mid.pendingRequestLen then pure mid
          else serve bufLen t.respond mid := by
  unfold turn
  rw [hpoll]
  show (process none polled >>= _) = _
  rw [hprocess]
  rfl

/-- A turn that finds no request. -/
theorem turn_idle {loop : CcidLoop} {t : CcidTurn} {c polled mid : CcidClass η}
    (hpoll : usbPoll t.events c = .ok polled) (hprocess : process none polled = .ok mid)
    (hidle : mid.pending = false) : turn loop t c = .ok mid := by
  rw [turn_eq hpoll hprocess]
  cases loop with
  | firmware =>
      simp only [hidle]
      rfl
  | recvApdu bufLen =>
      have hnone : mid.pendingRequestLen = 0 := by
        rw [pendingRequestLen, hidle, if_neg Bool.false_ne_true]
      simp only [hnone, if_pos]
      rfl

/-- A turn that finds a request. -/
theorem turn_waits {loop : CcidLoop} {t : CcidTurn} {c polled mid : CcidClass η}
    (hpoll : usbPoll t.events c = .ok polled) (hprocess : process none polled = .ok mid)
    (h : Waits mid polled) : ∃ c', turn loop t c = .ok c' ∧ Wf c' ∧
      (Answerable loop t.respond polled ∧ Free c' ∧ Answered t polled c' ∨
        ¬Answerable loop t.respond polled ∧ ¬Free c') := by
  have hbusy : ¬Free mid := fun hfree => absurd (h.pending.symm.trans hfree.1) (by decide)
  have hlen : mid.pendingRequestLen = polled.dwLength := by
    rw [pendingRequestLen, if_pos h.pending, h.len]
  rw [turn_eq hpoll hprocess]
  cases loop with
  | firmware =>
      have hbuf : polled.dwLength ≤ maxPayloadLen := by
        rw [← h.len]
        exact h.wf.pendingLen
      obtain ⟨c', hserve, hwf, hcase⟩ := serve_waits hprocess h hbuf t
      refine ⟨c', ?_, hwf, ?_⟩
      · simp only [h.pending, if_pos]
        exact hserve
      · obtain ⟨hfits, hdone⟩ | ⟨hlong, hstill⟩ := hcase
        · exact .inl ⟨⟨hfits, trivial⟩, hdone⟩
        · exact .inr ⟨fun ha => absurd ha.1 (Nat.not_le.mpr hlong), hstill⟩
  | recvApdu bufLen =>
      simp only [hlen]
      by_cases hzero : polled.dwLength = 0
      · rw [if_pos hzero]
        exact ⟨mid, rfl, h.wf, .inr ⟨fun ha => absurd hzero (Nat.ne_of_gt ha.2.1), hbusy⟩⟩
      · rw [if_neg hzero]
        by_cases hsmall : bufLen < polled.dwLength
        · rw [if_pos hsmall]
          exact ⟨mid, rfl, h.wf, .inr ⟨fun ha => absurd ha.2.2 (Nat.not_le.mpr hsmall), hbusy⟩⟩
        · have hbuf := Nat.le_of_not_lt hsmall
          rw [if_neg hsmall]
          obtain ⟨c', hserve, hwf, hcase⟩ := serve_waits hprocess h hbuf t
          refine ⟨c', hserve, hwf, ?_⟩
          obtain ⟨hfits, hdone⟩ | ⟨hlong, hstill⟩ := hcase
          · exact .inl ⟨⟨hfits, Nat.pos_of_ne_zero hzero, hbuf⟩, hdone⟩
          · exact .inr ⟨fun ha => absurd ha.1 (Nat.not_le.mpr hlong), hstill⟩

/-- From a free slot, a turn frees the slot exactly when it is serviceable. -/
theorem turn_cases (loop : CcidLoop) (t : CcidTurn) {c : CcidClass η} (hwf : Wf c)
    (hfree : Free c) :
    ∃ polled, usbPoll t.events c = .ok polled ∧
      (Serviceable loop t c ∧
          (∃ c', turn loop t c = .ok c' ∧ Wf c' ∧ Free c' ∧ Answered t polled c') ∨
        ¬Serviceable loop t c ∧ ∀ c', turn loop t c = .ok c' → ¬Free c') := by
  obtain ⟨polled, hpoll, hwf', hfree'⟩ := usbPoll_ok t.events hwf hfree
  have hserviceable : Serviceable loop t c ↔ (polled.rxReady = true →
      ¬Overflows polled ∧ (Accepts polled → Answerable loop t.respond polled)) := by
    refine ⟨fun h => h polled hpoll, fun h p hp => ?_⟩
    rw [hpoll] at hp
    obtain rfl := Except.ok.inj hp
    exact h
  refine ⟨polled, hpoll, ?_⟩
  rw [hserviceable]
  by_cases hready : polled.rxReady = true
  · by_cases hbig : Overflows polled
    · refine .inr ⟨fun h => (h hready).1 hbig, fun c' hc' => ?_⟩
      unfold turn at hc'
      rw [hpoll] at hc'
      change (process none polled >>= _) = _ at hc'
      rw [process_overflow none hready hbig] at hc'
      cases hc'
    · by_cases haccept : Accepts polled
      · obtain ⟨mid, hprocess, hwaits⟩ := process_retains hwf' hready haccept
        obtain ⟨c', hturn, hwf'', ⟨hgood, hdone⟩ | ⟨hbad, hstill⟩⟩ :=
          turn_waits hpoll hprocess hwaits
        · exact .inl ⟨fun _ => ⟨hbig, fun _ => hgood⟩, c', hturn, hwf'', hdone⟩
        · refine .inr ⟨fun h => hbad ((h hready).2 haccept), fun d hd => ?_⟩
          rw [hturn] at hd
          obtain rfl := Except.ok.inj hd
          exact hstill
      · obtain ⟨mid, hprocess, hlisten, -⟩ :=
          process_refused none hwf' hready hbig haccept hfree'.1 hfree'.2
        exact .inl ⟨fun _ => ⟨hbig, fun h => absurd h haccept⟩, mid,
          turn_idle hpoll hprocess hlisten.pending, hlisten.wf,
          ⟨hlisten.pending, hlisten.respAwaiting⟩, fun _ h => absurd h haccept⟩
  · obtain ⟨mid, hflush, hwf'', hout⟩ := flushTx_ok hwf'
    have hprocess : process none polled = .ok mid := by
      unfold process
      rw [if_neg hready]
      exact hflush
    have hmid : Free mid := by
      obtain ⟨_, _, _, _, _, _, _, rfl⟩ := hout
      exact hfree'
    exact .inl ⟨fun h => absurd h hready, mid, turn_idle hpoll hprocess hmid.1, hwf'', hmid,
      fun h => absurd h hready⟩

/-! ## Runs -/

theorem neverWedged_iff (loop : CcidLoop) (turns : List CcidTurn) : ∀ {c : CcidClass η}, Wf c →
    Free c → (NeverWedged loop c turns ↔ AllServiceable loop c turns) := by
  induction turns with
  | nil => exact fun _ _ => Iff.rfl
  | cons t turns ih =>
      intro c hwf hfree
      obtain ⟨polled, hpoll, ⟨hgood, c', hturn, hwf', hfree', hanswered⟩ | ⟨hbad, hstill⟩⟩ :=
        turn_cases loop t hwf hfree
      · constructor
        · rintro ⟨p, d, -, hd, -, -, -, hrest⟩
          refine ⟨hgood, fun e he => ?_⟩
          rw [hd] at he
          obtain rfl := Except.ok.inj he
          rw [hturn] at hd
          obtain rfl := Except.ok.inj hd
          exact (ih hwf' hfree').mp hrest
        · rintro ⟨-, hrest⟩
          exact ⟨polled, c', hpoll, hturn, hfree', hfree', hanswered,
            (ih hwf' hfree').mpr (hrest c' hturn)⟩
      · constructor
        · rintro ⟨-, d, -, hd, hdone, -⟩
          exact absurd hdone (hstill d hd)
        · rintro ⟨hgood, -⟩
          exact absurd hgood hbad

/-- From the start, in both loops and for every router. -/
theorem never_wedged_iff (loop : CcidLoop) (handlerState : η) (answers : Nat → EndpointAnswer)
    (turns : List CcidTurn) :
    NeverWedged loop (new handlerState answers) turns ↔
      AllServiceable loop (new handlerState answers) turns :=
  neverWedged_iff loop turns (wf_new handlerState answers) ⟨rfl, rfl⟩

/-- An XfrBlock with one byte. -/
def oneByteXfr : Bytes := [0x6F, 1, 0, 0, 0, 0, 1, 0, 0, 0, 7]

/-- An empty XfrBlock. -/
def emptyXfr : Bytes := [0x6F, 0, 0, 0, 0, 0, 1, 0, 0, 0]

/-- Two XfrBlocks, the first answered with `n` bytes. -/
def longTurns (n : Nat) : List CcidTurn :=
  [⟨[.packet oneByteXfr], fun _ => List.replicate n 0⟩, ⟨[.packet oneByteXfr], fun _ => []⟩]

/-- An empty XfrBlock, a reset of the bus, and another XfrBlock. -/
def emptyTurns : List CcidTurn :=
  [⟨[.packet emptyXfr], fun _ => []⟩, ⟨[.reset], fun _ => []⟩, ⟨[.packet oneByteXfr], fun _ => []⟩]

/-- The class after turns. -/
def runTurns (loop : CcidLoop) : CcidClass η → List CcidTurn → Except Panic (CcidClass η)
  | c, [] => pure c
  | c, t :: turns => do
      let c ← turn loop t c
      runTurns loop c turns

/-- A response of 279 bytes leaves the slot busy in the firmware, and so does an empty XfrBlock in
the loop over `recv_apdu`, even after a reset: the next XfrBlock is refused. -/
theorem slot_wedged :
    ¬NeverWedged .firmware (new () fun _ => .wrote 64) (longTurns 279) ∧
      (runTurns .firmware (new () fun _ => .wrote 64) (longTurns 279)).map
        (fun c => (c.respAwaiting, c.wire)) =
          .ok (true, [[0x80, 0, 0, 0, 0, 0, 1, 0x41, berrCmdSlotBusy, 0]]) ∧
      ¬NeverWedged (.recvApdu 278) (new () fun _ => .wrote 64) emptyTurns ∧
      (runTurns (.recvApdu 278) (new () fun _ => .wrote 64) emptyTurns).map
        (fun c => (c.pending, c.wire)) =
          .ok (true, [[0x80, 0, 0, 0, 0, 0, 1, 0x41, berrCmdSlotBusy, 0]]) := by
  -- the slot is busy after the first turn
  have hlong : (turn .firmware ⟨[.packet oneByteXfr], fun _ => List.replicate 279 0⟩
      (new () fun _ => .wrote 64)).map (fun c => c.respAwaiting) = .ok true := by decide +kernel
  have hempty : (turn (.recvApdu 278) ⟨[.packet emptyXfr], fun _ => []⟩
      (new () fun _ => .wrote 64)).map (fun c => c.pending) = .ok true := by decide +kernel
  refine ⟨?_, by decide +kernel, ?_, by decide +kernel⟩
  · rintro ⟨-, c, -, hturn, hfree, -⟩
    rw [hturn] at hlong
    exact Bool.noConfusion (hfree.2.symm.trans (Except.ok.inj hlong))
  · rintro ⟨-, c, -, hturn, hfree, -⟩
    rw [hturn] at hempty
    exact Bool.noConfusion (hfree.1.symm.trans (Except.ok.inj hempty))

end CcidClass

end OpenKey
