import OpenKey.Transport.CcidHandler

/-!
# Messages that come in packets

`Arrived c m n` says that the receive buffer of `c` holds the first `n` bytes of the message `m`,
and that it is ready just when these are all. **Main result (`message_reassembled`).** From an idle
receive state, the packets of a message that fits are put together to the message, which is ready
with its last byte; in between, the class may be called in any way but for another packet or a
reset.

A message that declares more than fits is refused with its first packet, which makes the buffer
ready. The packets behind it are dropped only as long as `process` does not dispatch the buffer:
afterwards they are received as another message. **Main result (`resynchronises_iff`).** Such a
message is answered by one error and leaves no trace exactly when `process` is not called between
its packets.

The converse rests on `Dirty`: a buffer with something in it stays so until it is dispatched.
-/

namespace OpenKey

set_option autoImplicit false

namespace CcidClass

variable {η : Type}

/-! ## The receive state -/

/-- Nothing is being received. -/
structure Idle (c : CcidClass η) : Prop where
  rxReady : c.rxReady = false
  rxLen : c.rxLen = 0
  rxOverflow : c.rxOverflow = false

/-- The two agree on what is being received. -/
structure SameRx (c c' : CcidClass η) : Prop where
  rxBuf : c'.rxBuf = c.rxBuf
  rxLen : c'.rxLen = c.rxLen
  rxReady : c'.rxReady = c.rxReady
  rxOverflow : c'.rxOverflow = c.rxOverflow

theorem SameRx.refl (c : CcidClass η) : SameRx c c := ⟨rfl, rfl, rfl, rfl⟩

theorem SameRx.trans {c c' c'' : CcidClass η} (h : SameRx c c') (h' : SameRx c' c'') :
    SameRx c c'' :=
  ⟨h'.rxBuf.trans h.rxBuf, h'.rxLen.trans h.rxLen, h'.rxReady.trans h.rxReady,
    h'.rxOverflow.trans h.rxOverflow⟩

theorem Outward.sameRx {c c' : CcidClass η} (h : Outward c c') : SameRx c c' := by
  obtain ⟨_, _, _, _, _, _, _, rfl⟩ := h
  exact ⟨rfl, rfl, rfl, rfl⟩

theorem Idle.sameRx {c c' : CcidClass η} (h : Idle c) (hsame : SameRx c c') : Idle c' :=
  ⟨hsame.rxReady.trans h.rxReady, hsame.rxLen.trans h.rxLen, hsame.rxOverflow.trans h.rxOverflow⟩

/-- A call that is neither a packet nor a reset. -/
def Call.Inner : Call → Prop
  | .packet _ | .reset => False
  | _ => True

variable (handler : Option (CcidApduHandler η))

theorem wf_step {c c' : CcidClass η} (hwf : Wf c) {call : Call}
    (hstep : step handler c call = .ok c') : Wf c' := by
  by_cases hdanger : Dangerous c call
  · obtain ⟨rfl, hready, hbig⟩ := hdanger
    rw [step, process_overflow handler hready hbig] at hstep
    cases hstep
  · obtain ⟨next, hnext, hwf'⟩ := returns_step handler hwf hdanger
    obtain rfl := Except.ok.inj (hnext.symm.trans hstep)
    exact hwf'

theorem wf_runCalls {c c' : CcidClass η} {calls : List Call} (hwf : Wf c)
    (hrun : runCalls handler c calls = .ok c') : Wf c' := by
  induction calls generalizing c with
  | nil =>
      obtain rfl := Except.ok.inj hrun
      exact hwf
  | cons call calls ih =>
      obtain ⟨next, hstep, hrest⟩ := runCalls_cons_eq_ok.mp hrun
      exact ih (wf_step handler hwf hstep) hrest

theorem sameRx_send {c : CcidClass η} (hwf : Wf c) (resp : Bytes) :
    ∃ c', (sendResponse resp c).map (·.2) = .ok c' ∧ SameRx c c' := by
  unfold sendResponse
  by_cases hawaiting : c.respAwaiting = true
  · rw [hawaiting, Bool.not_true, if_neg Bool.false_ne_true]
    by_cases hlong : maxPayloadLen < resp.length
    · rw [if_pos hlong]
      exact ⟨c, rfl, SameRx.refl c⟩
    · rw [if_neg hlong]
      obtain ⟨c', hqueue, -, hout⟩ := queueResponse_ok (c := { c with respAwaiting := false })
        { hwf with } (r := ⟨rdrToPcDatablock, c.pendingSlot, c.pendingSeq, c.okStatus, 0x00, 0x00,
          resp⟩) (Nat.le_of_not_lt hlong)
      obtain ⟨hbuf, hlen, hready, hover⟩ := hout.sameRx
      refine ⟨c', ?_, ⟨hbuf, hlen, hready, hover⟩⟩
      rw [hqueue]
      rfl
  · rw [Bool.eq_false_of_not_eq_true hawaiting, Bool.not_false, if_pos rfl]
    exact ⟨c, rfl, SameRx.refl c⟩

theorem sameRx_take {c : CcidClass η} (hwf : Wf c) (bufLen : Nat) :
    ∃ c', (takePendingRequest bufLen c).map (·.2) = .ok c' ∧ SameRx c c' := by
  have hlen := hwf.pendingLen
  unfold takePendingRequest
  by_cases hpending : c.pending = true
  · rw [if_pos hpending, Checked.slice_zero (by rw [hwf.pendingApdu]; omega)]
    exact ⟨_, rfl, ⟨rfl, rfl, rfl, rfl⟩⟩
  · rw [if_neg hpending]
    exact ⟨c, rfl, SameRx.refl c⟩

/-- While no message is ready, only packets and resets concern what is being received. -/
theorem inner_step {c : CcidClass η} (hwf : Wf c) (hready : c.rxReady = false) (call : Call)
    (hinner : call.Inner) : ∃ c', step handler c call = .ok c' ∧ SameRx c c' := by
  obtain ⟨flushed, hflush, -, hout⟩ := flushTx_ok hwf
  cases call with
  | packet chunk => exact hinner.elim
  | reset => exact hinner.elim
  | process =>
      refine ⟨flushed, ?_, hout.sameRx⟩
      rw [step, process, hready, if_neg Bool.false_ne_true]
      exact hflush
  | flush => exact ⟨flushed, hflush, hout.sameRx⟩
  | take bufLen => exact sameRx_take hwf bufLen
  | send resp => exact sameRx_send hwf resp

theorem inner_run (calls : List Call) : ∀ {c : CcidClass η}, Wf c → c.rxReady = false →
    (∀ call ∈ calls, call.Inner) →
    ∃ c', runCalls handler c calls = .ok c' ∧ Wf c' ∧ SameRx c c' := by
  induction calls with
  | nil => exact fun {c} hwf _ _ => ⟨c, rfl, hwf, SameRx.refl c⟩
  | cons call calls ih =>
      intro c hwf hready hinner
      obtain ⟨next, hstep, hsame⟩ :=
        inner_step handler hwf hready call (hinner call List.mem_cons_self)
      obtain ⟨c', hrun, hwf', hsame'⟩ := ih (wf_step handler hwf hstep)
        (hsame.rxReady.trans hready) fun call hcall => hinner call (List.mem_cons_of_mem _ hcall)
      exact ⟨c', (runCalls_cons calls hstep).trans hrun, hwf', hsame.trans hsame'⟩

/-! ## A message that fits -/

/-- Of a message, the first `n` bytes have arrived, and it is ready when these are all. -/
structure Arrived (c : CcidClass η) (m : CcidMessage) (n : Nat) : Prop where
  rxReady : c.rxReady = true ↔ m.bytes.length ≤ n
  rxOverflow : c.rxOverflow = false
  rxLen : c.rxLen = min n m.bytes.length
  rxBuf : c.rxBuf.take c.rxLen = m.bytes.take n

theorem Arrived.sameRx {c c' : CcidClass η} {m : CcidMessage} {n : Nat} (h : Arrived c m n)
    (hsame : SameRx c c') : Arrived c' m n where
  rxReady := by rw [hsame.rxReady]; exact h.rxReady
  rxOverflow := hsame.rxOverflow.trans h.rxOverflow
  rxLen := hsame.rxLen.trans h.rxLen
  rxBuf := by rw [hsame.rxBuf, hsame.rxLen]; exact h.rxBuf

theorem Idle.arrived {c : CcidClass η} (h : Idle c) (m : CcidMessage) : Arrived c m 0 where
  rxReady := by
    have hlen := m.length_bytes
    rw [h.rxReady]
    exact ⟨fun htrue => absurd htrue Bool.false_ne_true, fun hle => absurd hle (by omega)⟩
  rxOverflow := h.rxOverflow
  rxLen := h.rxLen.trans (Nat.zero_min _).symm
  rxBuf := by rw [h.rxLen, List.take_zero, List.take_zero]

theorem Arrived.not_ready {c : CcidClass η} {m : CcidMessage} {n : Nat} (h : Arrived c m n)
    (hn : n < m.bytes.length) : c.rxReady = false :=
  Bool.eq_false_of_not_eq_true fun hready => absurd (h.rxReady.mp hready) (Nat.not_le.mpr hn)

theorem Arrived.begun {c : CcidClass η} {m : CcidMessage} {n : Nat} (h : Arrived c m n)
    (hn : n < m.bytes.length) : Begun c m (m.bytes.drop n) where
  rxReady := h.not_ready hn
  rxOverflow := h.rxOverflow
  rxLen := by
    rw [h.rxLen, List.length_drop]
    omega
  rxBuf := by rw [h.rxBuf, List.take_append_drop]

theorem Begun.arrived {c : CcidClass η} {m : CcidMessage} {n : Nat}
    (h : Begun c m (m.bytes.drop n)) (hn : n < m.bytes.length) : Arrived c m n := by
  have hlen : c.rxLen = n := by
    have hsum := h.rxLen
    rw [List.length_drop] at hsum
    omega
  refine ⟨?_, h.rxOverflow, by rw [hlen, Nat.min_eq_left (Nat.le_of_lt hn)], ?_⟩
  · rw [h.rxReady]
    exact ⟨fun htrue => absurd htrue Bool.false_ne_true, fun hle => absurd hle (Nat.not_le.mpr hn)⟩
  · have hall := h.rxBuf.trans (List.take_append_drop n m.bytes).symm
    exact List.append_cancel_right hall

theorem Holds.arrived {c : CcidClass η} {m : CcidMessage} {n : Nat} (h : Holds c m)
    (hn : m.bytes.length ≤ n) : Arrived c m n where
  rxReady := by simp [h.rxReady, hn]
  rxOverflow := h.rxOverflow
  rxLen := by rw [h.rxLen, Nat.min_eq_right hn]
  rxBuf := by rw [h.rxLen, h.rxBuf, List.take_of_length_le hn]

/-- The packets of up to 64 bytes that some bytes are sent in. -/
def packetOf (bytes : Bytes) (i : Nat) : Bytes := (bytes.drop (64 * i)).take 64

/-- The first `i` packets, each with the calls that come before it. -/
def arriving (between : Nat → List Call) (bytes : Bytes) : Nat → List Call
  | 0 => []
  | i + 1 => arriving between bytes i ++ (between i ++ [.packet (packetOf bytes i)])

/-- One packet more. -/
theorem arrived_packet {c : CcidClass η} {m : CcidMessage} {i : Nat} (hwf : Wf c)
    (h : Arrived c m (64 * i)) (hi : 64 * i < m.bytes.length) :
    Arrived (appended (packetOf m.bytes i) c) m (64 * (i + 1)) := by
  have hbegun := h.begun hi
  by_cases hlast : (m.bytes.drop (64 * i)).length ≤ 64
  · have hpacket : packetOf m.bytes i = m.bytes.drop (64 * i) := List.take_of_length_le hlast
    rw [hpacket]
    refine (holds_packet hwf hbegun hlast).arrived ?_
    rw [List.length_drop] at hlast
    omega
  · have hnext := begun_packet hwf hbegun (Nat.lt_of_not_le hlast)
    rw [List.drop_drop] at hnext
    refine Begun.arrived (n := 64 * (i + 1)) hnext ?_
    rw [List.length_drop] at hlast
    omega

/-- **Reassembly.** After any of its packets, the part of a message that has come is in the buffer,
and the message is ready exactly if it is whole; what follows is not added to it. -/
theorem message_reassembled (handlerState : η) (answers : Nat → EndpointAnswer)
    (before : List Call) {c : CcidClass η}
    (hreached : runCalls handler (new handlerState answers) before = .ok c) (hidle : Idle c)
    (m : CcidMessage) {between : Nat → List Call}
    (hinner : ∀ i, ∀ call ∈ between i, call.Inner) {i : Nat}
    (hi : i ≤ fullPackets m.bytes + 1) :
    ∃ c', runCalls handler c (arriving between m.bytes i) = .ok c' ∧ Arrived c' m (64 * i) ∧
      (c'.rxReady = true → ∀ chunk, step handler c' (.packet chunk) = .ok c') := by
  have hwf := wf_runCalls handler (wf_new handlerState answers) hreached
  suffices harrived : ∃ c', runCalls handler c (arriving between m.bytes i) = .ok c' ∧ Wf c' ∧
      Arrived c' m (64 * i) by
    obtain ⟨c', hrun, -, hpart⟩ := harrived
    refine ⟨c', hrun, hpart, fun hready chunk => ?_⟩
    rw [step, rxAppend, if_pos hready]
    rfl
  clear hreached
  induction i with
  | zero => exact ⟨c, rfl, hwf, hidle.arrived m⟩
  | succ i ih =>
      obtain ⟨mid, hrun, hwf', hpart⟩ := ih (by omega)
      have hmore : 64 * i < m.bytes.length := by
        have hbounds := (fullPackets_bounds m).1
        omega
      obtain ⟨next, hgap, hwf'', hsame⟩ :=
        inner_run handler (between i) hwf' (hpart.not_ready hmore) (hinner i)
      refine ⟨appended (packetOf m.bytes i) next, ?_, wf_appended hwf'' _,
        arrived_packet hwf'' (hpart.sameRx hsame) hmore⟩
      rw [arriving, runCalls_append, hrun]
      show runCalls handler mid (between i ++ _) = _
      rw [runCalls_append, hgap]
      show runCalls handler next [.packet (packetOf m.bytes i)] = _
      rw [runCalls, step, rxAppend_eq hwf'']
      rfl

/-- An XfrBlock with a hundred bytes, in two packets. -/
def hundredByteBlock : CcidMessage :=
  ⟨pcToRdrXfrBlock, 0, 1, 0, 0, 0, List.replicate 100 7, by decide⟩

/-- Its second packet makes it whole. -/
theorem message_reassembled_hundred :
    ∃ c', runCalls none (new () fun _ => .wouldBlock)
        (arriving (fun _ => [.process]) hundredByteBlock.bytes 2) = .ok c' ∧
      Arrived c' hundredByteBlock (64 * 2) ∧
      (c'.rxReady = true → ∀ chunk, step none c' (.packet chunk) = .ok c') :=
  message_reassembled none () (fun _ => .wouldBlock) [] rfl ⟨rfl, rfl, rfl⟩
    hundredByteBlock (fun _ call hcall => by rw [List.mem_singleton.mp hcall]; trivial) (by decide)

end CcidClass

/-! ## A message that does not fit -/

/-- A message that declares more bytes than fit in the buffer, and has as many as it declares. -/
structure OverlongMessage where
  bytes : Bytes
  declared : bytes.length = 10 + Bytes.leNat ((bytes.drop 1).take 4)
  overlong : maxPayloadLen < Bytes.leNat ((bytes.drop 1).take 4)

/-- Its packets, with calls of `process` between them, and those after the last but one. -/
def OverlongMessage.calls (m : OverlongMessage) (gap : Nat → Nat) (again : Nat) :
    List CcidClass.Call :=
  CcidClass.feed gap (CcidClass.fullPackets m.bytes) m.bytes ++ List.replicate (again + 1) .process

namespace CcidClass

variable {η : Type} (handler : Option (CcidApduHandler η))

/-- What a call answers to the message that it dispatches: an XfrBlock that is accepted has no
immediate reply. -/
def answered (c : CcidClass η) (call : Call) : List (Option CcidReply) :=
  if call = .process ∧ c.rxReady = true then [if Accepts c then none else some (replyTo c)] else []

/-- What a run answers to the messages that it dispatches. -/
def dispatched : CcidClass η → List Call → List (Option CcidReply)
  | _, [] => []
  | c, call :: calls =>
      answered c call ++ match step handler c call with
        | .ok next => dispatched next calls
        | .error _ => []

/-- The two agree on the slot and on the XfrBlock that waits for an answer. -/
structure Untouched (c c' : CcidClass η) : Prop where
  handlerState : c'.handlerState = c.handlerState
  powered : c'.powered = c.powered
  params : c'.params = c.params
  pending : c'.pending = c.pending
  pendingSlot : c'.pendingSlot = c.pendingSlot
  pendingSeq : c'.pendingSeq = c.pendingSeq
  pendingApdu : c'.pendingApdu = c.pendingApdu
  pendingLen : c'.pendingLen = c.pendingLen
  respAwaiting : c'.respAwaiting = c.respAwaiting

/-- The error that reports an over-long message. -/
def overrun (c : CcidClass η) (m : OverlongMessage) : CcidReply :=
  ⟨rdrToPcSlotstatus, m.bytes.getD 5 0, m.bytes.getD 6 0, c.failStatus, berrXfrOverrun, 0x00, []⟩

/-- An over-long message is answered by one error and by nothing else, it leaves no trace, and the
next message is received. -/
def Resynchronises (c : CcidClass η) (m : OverlongMessage) (gap : Nat → Nat) (again : Nat) : Prop :=
  dispatched handler c (m.calls gap again) = [some (overrun c m)] ∧
    ∃ c', runCalls handler c (m.calls gap again) = .ok c' ∧ Untouched c c' ∧
      ∀ (next : CcidMessage) (gap' : Nat → Nat), ∃ c'',
        runCalls handler c' (feed gap' (fullPackets next.bytes) next.bytes) = .ok c'' ∧
          Holds c'' next ∧ Alike c' c''

theorem Untouched.trans {c c' c'' : CcidClass η} (h : Untouched c c') (h' : Untouched c' c'') :
    Untouched c c'' where
  handlerState := h'.handlerState.trans h.handlerState
  powered := h'.powered.trans h.powered
  params := h'.params.trans h.params
  pending := h'.pending.trans h.pending
  pendingSlot := h'.pendingSlot.trans h.pendingSlot
  pendingSeq := h'.pendingSeq.trans h.pendingSeq
  pendingApdu := h'.pendingApdu.trans h.pendingApdu
  pendingLen := h'.pendingLen.trans h.pendingLen
  respAwaiting := h'.respAwaiting.trans h.respAwaiting

theorem Outward.untouched {c c' : CcidClass η} (h : Outward c c') : Untouched c c' := by
  obtain ⟨_, _, _, _, _, _, _, rfl⟩ := h
  exact ⟨rfl, rfl, rfl, rfl, rfl, rfl, rfl, rfl, rfl⟩

theorem Untouched.overrun {c c' : CcidClass η} (h : Untouched c c') (m : OverlongMessage) :
    overrun c' m = overrun c m := by
  unfold CcidClass.overrun failStatus okStatus
  rw [h.powered]

theorem untouched_appended (chunk : Bytes) (c : CcidClass η) : Untouched c (appended chunk c) := by
  have hsame : Untouched c (received chunk c) := ⟨rfl, rfl, rfl, rfl, rfl, rfl, rfl, rfl, rfl⟩
  unfold appended concluded
  split
  · exact ⟨rfl, rfl, rfl, rfl, rfl, rfl, rfl, rfl, rfl⟩
  · split_ifs <;> exact hsame.trans ⟨rfl, rfl, rfl, rfl, rfl, rfl, rfl, rfl, rfl⟩

theorem dispatched_cons {c next : CcidClass η} {call : Call} (calls : List Call)
    (hstep : step handler c call = .ok next) :
    dispatched handler c (call :: calls) = answered c call ++ dispatched handler next calls := by
  rw [dispatched, hstep]

theorem dispatched_append {c mid : CcidClass η} {calls : List Call} (calls' : List Call)
    (hrun : runCalls handler c calls = .ok mid) :
    dispatched handler c (calls ++ calls') =
      dispatched handler c calls ++ dispatched handler mid calls' := by
  induction calls generalizing c with
  | nil =>
      obtain rfl := Except.ok.inj hrun
      rfl
  | cons call calls ih =>
      obtain ⟨next, hstep, hrest⟩ := runCalls_cons_eq_ok.mp hrun
      rw [List.cons_append, dispatched_cons handler _ hstep, dispatched_cons handler _ hstep,
        ih hrest, List.append_assoc]

theorem answered_packet (c : CcidClass η) (chunk : Bytes) : answered c (.packet chunk) = [] :=
  if_neg fun h => nomatch h.1

theorem answered_process_of_not_ready {c : CcidClass η} (hready : c.rxReady = false) :
    answered c .process = [] :=
  if_neg fun h => Bool.false_ne_true (hready.symm.trans h.2)

/-! ### The first packet -/

/-- The buffer has refused an over-long message. -/
structure Refused (c : CcidClass η) (m : OverlongMessage) : Prop where
  rxReady : c.rxReady = true
  rxOverflow : c.rxOverflow = true
  slot : c.rxByte 5 = m.bytes.getD 5 0
  seq : c.rxByte 6 = m.bytes.getD 6 0

theorem length_overlong (m : OverlongMessage) : 288 < m.bytes.length := by
  have hlong : 278 < Bytes.leNat ((m.bytes.drop 1).take 4) := m.overlong
  rw [m.declared]
  omega

/-- The first packet of an over-long message is refused. -/
theorem refused_first {c : CcidClass η} (hwf : Wf c) (hidle : Idle c) (m : OverlongMessage) :
    Refused (appended (m.bytes.take 64) c) m := by
  have hlong := length_overlong m
  have hchunk : (m.bytes.take 64).length = 64 := by
    rw [List.length_take]
    omega
  obtain ⟨hbuf, hrx⟩ := take_received hwf (m.bytes.take 64) (by rw [hidle.rxLen]; omega)
  rw [hidle.rxLen, hchunk, Nat.zero_add, List.take_zero, List.nil_append] at hbuf
  rw [hidle.rxLen, hchunk, Nat.zero_add] at hrx
  have hdw : 278 < (received (m.bytes.take 64) c).dwLength := by
    rw [dwLength, window_eq hbuf (by decide)]
    exact m.overlong
  have hbyte : ∀ i, i < 10 → (received (m.bytes.take 64) c).rxByte i = m.bytes.getD i 0 := by
    intro i hi
    rw [rxByte, List.getD_eq_getElem?_getD, List.getD_eq_getElem?_getD,
      ← List.getElem?_take_of_lt (show i < 64 by omega), hbuf,
      List.getElem?_take_of_lt (show i < 64 by omega)]
  have happended : appended (m.bytes.take 64) c =
      { received (m.bytes.take 64) c with rxOverflow := true, rxReady := true } := by
    unfold appended concluded
    rw [hidle.rxReady, if_neg Bool.false_ne_true, hidle.rxLen, hchunk, if_neg (by decide),
      if_neg (by decide), if_pos (by rw [hrx]; decide), if_pos hdw]
  rw [happended]
  exact ⟨rfl, rfl, hbyte 5 (by decide), hbyte 6 (by decide)⟩

/-- Its dispatch reports the error and makes the receive state idle. -/
theorem refused_process {c : CcidClass η} {m : OverlongMessage} (hwf : Wf c) (h : Refused c m) :
    answered c .process = [some (overrun c m)] ∧
      ∃ c', step handler c .process = .ok c' ∧ Wf c' ∧ Idle c' ∧ Untouched c c' := by
  have hnot : ¬Accepts c := fun haccept =>
    absurd (haccept.1.1.symm.trans h.rxOverflow) Bool.false_ne_true
  have hsmall : ¬Overflows c := fun hbig =>
    absurd (hbig.1.symm.trans h.rxOverflow) Bool.false_ne_true
  have hreply : replyTo c = overrun c m := by
    rw [replyTo, if_pos h.rxOverflow, failure, h.slot, h.seq]
    rfl
  have hsettled : settled c = c.clearRx :=
    if_neg fun hwhole => absurd (hwhole.1.symm.trans h.rxOverflow) Bool.false_ne_true
  obtain ⟨mid, hqueue, hwf', hout⟩ := queueResponse_ok (wf_settled hwf) (length_replyTo hwf)
  obtain ⟨c', hflush, hwf'', hout'⟩ := flushTx_ok hwf'
  have hall := hout.trans hout'
  rw [hsettled] at hall
  have hidle : Idle c.clearRx := ⟨rfl, rfl, rfl⟩
  have hcleared : Untouched c c.clearRx := ⟨rfl, rfl, rfl, rfl, rfl, rfl, rfl, rfl, rfl⟩
  refine ⟨?_, c', ?_, hwf'', hidle.sameRx hall.sameRx, hcleared.trans hall.untouched⟩
  · rw [answered, if_pos ⟨rfl, h.rxReady⟩, if_neg hnot, hreply]
  · rw [step, process, if_pos h.rxReady, dispatchRx_reply handler hsmall hnot, hqueue]
    exact hflush

/-! ### The packets behind it -/

theorem step_dropped {c : CcidClass η} (hready : c.rxReady = true) (chunk : Bytes) :
    step handler c (.packet chunk) = .ok c := by
  rw [step, rxAppend, if_pos hready]
  rfl

/-- Packets for a buffer that is ready change nothing. -/
theorem feed_dropped {c : CcidClass η} (hready : c.rxReady = true) {gap : Nat → Nat} (k : Nat) :
    ∀ rest : Bytes, (∀ i < k, gap i = 0) →
      runCalls handler c (feed gap k rest) = .ok c ∧
        dispatched handler c (feed gap k rest) = [] := by
  induction k with
  | zero =>
      intro rest _
      have hstep := step_dropped handler hready rest
      refine ⟨?_, ?_⟩
      · rw [feed, runCalls_cons _ hstep]
        rfl
      · rw [feed, dispatched_cons handler _ hstep, answered_packet]
        rfl
  | succ k ih =>
      intro rest hgap
      have hstep := step_dropped handler hready (rest.take 64)
      obtain ⟨hrun, hnone⟩ := ih (rest.drop 64) fun i hi => hgap i (Nat.lt_succ_of_lt hi)
      rw [feed, hgap k (Nat.lt_succ_self k), List.replicate_zero, List.nil_append]
      refine ⟨?_, ?_⟩
      · exact (runCalls_cons _ hstep).trans hrun
      · rw [dispatched_cons handler _ hstep, answered_packet, hnone]
        rfl

/-- Calls of `process` on an idle receive state. -/
theorem idle_process (n : Nat) : ∀ {c : CcidClass η}, Wf c → Idle c →
    ∃ c', runCalls handler c (List.replicate n .process) = .ok c' ∧ Wf c' ∧ Idle c' ∧
      Untouched c c' ∧ dispatched handler c (List.replicate n .process) = [] := by
  induction n with
  | zero =>
      exact fun {c} hwf hidle =>
        ⟨c, rfl, hwf, hidle, ⟨rfl, rfl, rfl, rfl, rfl, rfl, rfl, rfl, rfl⟩, rfl⟩
  | succ n ih =>
      intro c hwf hidle
      obtain ⟨next, hflush, hwf', hout⟩ := flushTx_ok hwf
      have hstep : step handler c .process = .ok next := by
        rw [step, process, hidle.rxReady, if_neg Bool.false_ne_true]
        exact hflush
      obtain ⟨c', hrun, hwf'', hidle', hsame, hnone⟩ := ih hwf' (hidle.sameRx hout.sameRx)
      refine ⟨c', ?_, hwf'', hidle', hout.untouched.trans hsame, ?_⟩
      · rw [List.replicate_succ, runCalls, hstep]
        exact hrun
      · rw [List.replicate_succ, dispatched_cons handler _ hstep, hnone,
          answered_process_of_not_ready hidle.rxReady]
        rfl

/-! ### A buffer with something in it -/

/-- The buffer is not empty. -/
def Dirty (c : CcidClass η) : Prop := c.rxReady = true ∨ 0 < c.rxLen

/-- A packet or a call of `process`. -/
def Call.Scheduled : Call → Prop
  | .packet _ | .process => True
  | _ => False

theorem rxLen_appended {c : CcidClass η} (hready : c.rxReady = false) (chunk : Bytes) :
    (appended chunk c).rxLen = c.rxLen + min chunk.length (288 - c.rxLen) := by
  unfold appended concluded
  rw [hready, if_neg Bool.false_ne_true]
  split_ifs <;> rfl

theorem dirty_packet {c : CcidClass η} {chunk : Bytes} (hwf : Wf c)
    (h : Dirty c ∨ 0 < chunk.length) : Dirty (appended chunk c) := by
  have hlen := hwf.rxLen
  cases hready : c.rxReady with
  | true =>
      refine .inl ?_
      rw [appended, if_pos hready]
      exact hready
  | false =>
      refine .inr ?_
      rw [rxLen_appended hready]
      rcases h with (htrue | hpos) | hchunk
      · exact absurd (hready.symm.trans htrue) Bool.false_ne_true
      · omega
      · omega

/-- It stays so until it is dispatched. -/
theorem dirty_step {c next : CcidClass η} (hwf : Wf c) (hdirty : Dirty c) {call : Call}
    (hsched : call.Scheduled) (hnone : answered c call = [])
    (hstep : step handler c call = .ok next) : Dirty next := by
  cases call with
  | packet chunk =>
      rw [step, rxAppend_eq hwf] at hstep
      obtain rfl := Except.ok.inj hstep
      exact dirty_packet hwf (.inl hdirty)
  | process =>
      cases hready : c.rxReady with
      | true =>
          rw [answered, if_pos ⟨rfl, hready⟩] at hnone
          exact absurd hnone (List.cons_ne_nil _ _)
      | false =>
          obtain ⟨d, hd, hsame⟩ := inner_step handler hwf hready .process trivial
          obtain rfl := Except.ok.inj (hd.symm.trans hstep)
          rcases hdirty with htrue | hpos
          · exact absurd (hready.symm.trans htrue) Bool.false_ne_true
          · exact .inr (by rw [hsame.rxLen]; exact hpos)
  | flush => exact hsched.elim
  | take bufLen => exact hsched.elim
  | send resp => exact hsched.elim
  | reset => exact hsched.elim

theorem dirty_run (calls : List Call) : ∀ {c c' : CcidClass η}, Wf c → Dirty c →
    (∀ call ∈ calls, call.Scheduled) → dispatched handler c calls = [] →
    runCalls handler c calls = .ok c' → Dirty c' := by
  induction calls with
  | nil =>
      intro c c' _ hdirty _ _ hrun
      obtain rfl := Except.ok.inj hrun
      exact hdirty
  | cons call calls ih =>
      intro c c' hwf hdirty hsched hnone hrun
      obtain ⟨next, hstep, hrest⟩ := runCalls_cons_eq_ok.mp hrun
      rw [dispatched_cons handler _ hstep, List.append_eq_nil_iff] at hnone
      exact ih (wf_step handler hwf hstep)
        (dirty_step handler hwf hdirty (hsched call List.mem_cons_self) hnone.1 hstep)
        (fun call hcall => hsched call (List.mem_cons_of_mem _ hcall)) hnone.2 hrest

/-- Behind something in the buffer the next message is not received. -/
theorem dirty_deaf {c : CcidClass η} (hwf : Wf c) (hdirty : Dirty c) :
    ¬∀ next : CcidMessage, ∃ c',
      runCalls handler c (feed (fun _ => 0) (fullPackets next.bytes) next.bytes) = .ok c' ∧
        Holds c' next := by
  intro hall
  have hlen := hwf.rxLen
  -- two messages of one packet, one of them a byte longer
  have hone : ∀ next : CcidMessage, next.bytes.length ≤ 64 →
      (appended next.bytes c).rxLen = next.bytes.length := by
    intro next hshort
    obtain ⟨c', hrun, hholds⟩ := hall next
    have hzero : fullPackets next.bytes = 0 := by
      unfold fullPackets
      omega
    have hstep : step handler c (.packet next.bytes) = .ok (appended next.bytes c) :=
      rxAppend_eq hwf _
    rw [hzero, feed, runCalls_cons _ hstep] at hrun
    obtain rfl := Except.ok.inj hrun
    exact hholds.rxLen
  have hempty := hone ⟨0, 0, 0, 0, 0, 0, [], by decide⟩ (by decide)
  have hbyte := hone ⟨0, 0, 0, 0, 0, 0, [0], by decide⟩ (by decide)
  rw [CcidMessage.length_bytes] at hempty hbyte
  cases hready : c.rxReady with
  | true =>
      rw [appended, if_pos hready] at hempty hbyte
      exact absurd (hempty.symm.trans hbyte) (by decide)
  | false =>
      rw [rxLen_appended hready, CcidMessage.length_bytes] at hempty
      simp only [List.length_nil] at hempty
      rcases hdirty with htrue | hpos
      · exact absurd (hready.symm.trans htrue) Bool.false_ne_true
      · omega

/-! ### The schedule -/

theorem scheduled_feed (gap : Nat → Nat) (k : Nat) :
    ∀ (rest : Bytes), ∀ call ∈ feed gap k rest, call.Scheduled := by
  induction k with
  | zero =>
      intro rest call hcall
      rw [List.mem_singleton.mp hcall]
      trivial
  | succ k ih =>
      intro rest call hcall
      rw [feed] at hcall
      rcases List.mem_cons.mp hcall with rfl | hrest
      · trivial
      · rcases List.mem_append.mp hrest with hgap | hmore
        · rw [List.eq_of_mem_replicate hgap]
          trivial
        · exact ih _ call hmore

theorem feed_head (gap : Nat → Nat) (k : Nat) {rest : Bytes} (hrest : 0 < rest.length) :
    ∃ chunk calls, feed gap k rest = .packet chunk :: calls ∧ 0 < chunk.length := by
  cases k with
  | zero => exact ⟨rest, [], rfl, hrest⟩
  | succ k =>
      refine ⟨_, _, rfl, ?_⟩
      rw [List.length_take]
      omega

/-- Packets for an idle receive state, of which nothing is dispatched, are still in the buffer. -/
theorem dirty_feed {c c' : CcidClass η} {calls : List Call} {rest : Bytes} (gap : Nat → Nat)
    (k : Nat) (hwf : Wf c) (hrest : 0 < rest.length) (hsched : ∀ call ∈ calls, call.Scheduled)
    (hnone : dispatched handler c (feed gap k rest ++ calls) = [])
    (hrun : runCalls handler c (feed gap k rest ++ calls) = .ok c') : Dirty c' := by
  obtain ⟨chunk, more, hfeed, hchunk⟩ := feed_head gap k hrest
  have hall : ∀ call ∈ more ++ calls, call.Scheduled := by
    intro call hcall
    rcases List.mem_append.mp hcall with hmore | hlast
    · refine scheduled_feed gap k rest call ?_
      rw [hfeed]
      exact List.mem_cons_of_mem _ hmore
    · exact hsched call hlast
  have hstep : step handler c (.packet chunk) = .ok (appended chunk c) := rxAppend_eq hwf chunk
  rw [hfeed, List.cons_append] at hnone hrun
  rw [dispatched_cons handler _ hstep, answered_packet, List.nil_append] at hnone
  rw [runCalls_cons _ hstep] at hrun
  exact dirty_run handler (more ++ calls) (wf_appended hwf chunk)
    (dirty_packet hwf (.inr hchunk)) hall hnone hrun

/-- If the buffer is dispatched between the packets, what comes behind is dispatched too, or it
stays in the buffer. -/
theorem dirty_of_gap {m : OverlongMessage} {gap : Nat → Nat} (calls : List Call)
    (hsched : ∀ call ∈ calls, call.Scheduled) (k : Nat) :
    ∀ {c c' : CcidClass η} {rest : Bytes}, Wf c → Refused c m → 64 * k < rest.length →
      (∃ i < k, gap i ≠ 0) →
      (∃ answer, dispatched handler c (feed gap k rest ++ calls) = [answer]) →
      runCalls handler c (feed gap k rest ++ calls) = .ok c' → Dirty c' := by
  induction k with
  | zero =>
      rintro c c' rest - - - ⟨i, hi, -⟩
      exact absurd hi (Nat.not_lt_zero i)
  | succ k ih =>
      rintro c c' rest hwf hrefused hlong ⟨i, hi, hgap⟩ ⟨answer, hone⟩ hrun
      have hstep := step_dropped handler hrefused.rxReady (rest.take 64)
      have hlong' : 64 * k < (rest.drop 64).length := by
        rw [List.length_drop]
        omega
      rw [feed, List.cons_append, List.append_assoc] at hone hrun
      rw [dispatched_cons handler _ hstep, answered_packet, List.nil_append] at hone
      rw [runCalls_cons _ hstep] at hrun
      cases hk : gap k with
      | zero =>
          have hbefore : i < k := by
            refine Nat.lt_of_le_of_ne (Nat.le_of_lt_succ hi) ?_
            rintro rfl
            exact hgap hk
          rw [hk, List.replicate_zero, List.nil_append] at hone hrun
          exact ih hwf hrefused hlong' ⟨i, hbefore, hgap⟩ ⟨answer, hone⟩ hrun
      | succ n =>
          obtain ⟨hanswer, next, hprocess, hwf', hidle, -⟩ := refused_process handler hwf hrefused
          obtain ⟨mid, hidling, hwf'', -, -, hquiet⟩ := idle_process handler n hwf' hidle
          rw [hk, List.replicate_succ, List.cons_append] at hone hrun
          rw [dispatched_cons handler _ hprocess, hanswer, List.singleton_append,
            dispatched_append handler _ hidling, hquiet, List.nil_append, List.cons.injEq] at hone
          rw [runCalls_cons _ hprocess, runCalls_append, hidling] at hrun
          exact dirty_feed handler gap k hwf'' (by omega) hsched hone.2 hrun

/-- A refused message whose packets come without a call of `process` between them. -/
theorem resynchronised {c : CcidClass η} {m : OverlongMessage} (hwf : Wf c) (h : Refused c m)
    {gap : Nat → Nat} {k : Nat} (rest : Bytes) (hgap : ∀ i < k, gap i = 0) (again : Nat) :
    dispatched handler c (feed gap k rest ++ List.replicate (again + 1) .process) =
        [some (overrun c m)] ∧
      ∃ c', runCalls handler c (feed gap k rest ++ List.replicate (again + 1) .process) = .ok c' ∧
        Wf c' ∧ Idle c' ∧ Untouched c c' := by
  obtain ⟨hfeed, hquiet⟩ := feed_dropped handler h.rxReady k rest hgap
  obtain ⟨hanswer, next, hprocess, hwf', hidle, hsame⟩ := refused_process handler hwf h
  obtain ⟨c', hidling, hwf'', hidle', hsame', hnone⟩ := idle_process handler again hwf' hidle
  refine ⟨?_, c', ?_, hwf'', hidle', hsame.trans hsame'⟩
  · rw [dispatched_append handler _ hfeed, hquiet, List.nil_append, List.replicate_succ,
      dispatched_cons handler _ hprocess, hanswer, hnone]
    rfl
  · rw [runCalls_append, hfeed]
    show runCalls handler c (List.replicate (again + 1) .process) = _
    rw [List.replicate_succ, runCalls_cons _ hprocess]
    exact hidling

/-- From an idle receive state the next message is received. -/
theorem idle_receives {c : CcidClass η} (hwf : Wf c) (hidle : Idle c) (next : CcidMessage)
    (gap : Nat → Nat) : ∃ c',
      runCalls handler c (feed gap (fullPackets next.bytes) next.bytes) = .ok c' ∧
        Holds c' next ∧ Alike c c' := by
  obtain ⟨hlow, hhigh⟩ := fullPackets_bounds next
  have hbegun := (hidle.arrived next).begun (by omega)
  rw [List.drop_zero] at hbegun
  obtain ⟨c', hrun, -, hholds, halike, -⟩ := feed_holds handler gap next _ hwf hbegun hlow hhigh
  exact ⟨c', hrun, hholds, halike⟩

/-- **Resynchronisation.** From an idle receive state, an over-long message is answered by one
error, leaves no trace and lets the next message through exactly when `process` is not called
between its packets. -/
theorem resynchronises_iff (handlerState : η) (answers : Nat → EndpointAnswer)
    (before : List Call) {c : CcidClass η}
    (hreached : runCalls handler (new handlerState answers) before = .ok c) (hidle : Idle c)
    (m : OverlongMessage) (gap : Nat → Nat) (again : Nat) :
    Resynchronises handler c m gap again ↔ ∀ i < fullPackets m.bytes, gap i = 0 := by
  have hwf := wf_runCalls handler (wf_new handlerState answers) hreached
  have hlong := length_overlong m
  have hfirst := refused_first hwf hidle m
  have hwf' := wf_appended hwf (m.bytes.take 64)
  have huntouched := untouched_appended (m.bytes.take 64) c
  -- the first packet might as well come to a buffer that has refused the message
  obtain ⟨k, hk⟩ : ∃ k, fullPackets m.bytes = k + 1 :=
    ⟨fullPackets m.bytes - 1, by unfold fullPackets; omega⟩
  have hstep : step handler c (.packet (m.bytes.take 64)) =
      step handler (appended (m.bytes.take 64) c) (.packet (m.bytes.take 64)) := by
    rw [step_dropped handler hfirst.rxReady]
    exact rxAppend_eq hwf _
  have hcalls : ∃ calls, m.calls gap again = .packet (m.bytes.take 64) :: calls := by
    rw [OverlongMessage.calls, hk]
    exact ⟨_, rfl⟩
  obtain ⟨calls, hcalls⟩ := hcalls
  have hrun : runCalls handler c (m.calls gap again) =
      runCalls handler (appended (m.bytes.take 64) c) (m.calls gap again) := by
    rw [hcalls, runCalls, runCalls, hstep]
  have hdispatched : dispatched handler c (m.calls gap again) =
      dispatched handler (appended (m.bytes.take 64) c) (m.calls gap again) := by
    rw [hcalls, dispatched, dispatched, hstep, answered_packet, answered_packet]
  rw [Resynchronises, hrun, hdispatched, ← huntouched.overrun m]
  constructor
  · rintro ⟨hone, c', hc', -, hnext⟩
    by_contra hgap
    have hsome : ∃ i < fullPackets m.bytes, gap i ≠ 0 := by
      simpa only [not_forall, exists_prop] using hgap
    have hdirty : Dirty c' := by
      refine dirty_of_gap handler (List.replicate (again + 1) .process) ?_ _ hwf' hfirst ?_
        hsome ⟨_, hone⟩ hc'
      · intro call hcall
        rw [List.eq_of_mem_replicate hcall]
        trivial
      · unfold fullPackets
        omega
    refine dirty_deaf handler (wf_runCalls handler hwf' hc') hdirty fun next => ?_
    obtain ⟨c'', hreceive, hholds, -⟩ := hnext next fun _ => 0
    exact ⟨c'', hreceive, hholds⟩
  · intro hgap
    obtain ⟨hone, c', hc', hwf'', hidle', hsame⟩ :=
      resynchronised handler hwf' hfirst m.bytes hgap again
    exact ⟨hone, c', hc', huntouched.trans hsame, idle_receives handler hwf'' hidle'⟩

/-- An XfrBlock of 300 bytes, in which the second packet looks like PowerOn. -/
def smuggledPowerOn : OverlongMessage where
  bytes := [0x6F, 0x2C, 0x01, 0, 0, 0, 1, 0, 0, 0] ++ (List.replicate 54 0 ++
    ([0x62, 0, 0, 0, 0, 0, 2, 0, 0, 0] ++ List.replicate 236 0))
  declared := by decide +kernel
  overlong := by decide +kernel

theorem resynchronises_iff_smuggled :
    Resynchronises none (new () fun _ => .wouldBlock) smuggledPowerOn (fun _ => 0) 0 ↔
      ∀ i < fullPackets smuggledPowerOn.bytes, (fun _ => 0 : Nat → Nat) i = 0 :=
  resynchronises_iff none () (fun _ => .wouldBlock) [] rfl ⟨rfl, rfl, rfl⟩ smuggledPowerOn
    (fun _ => 0) 0

/-- With `process` between the packets, it powers the slot on. -/
theorem remainder_powers_on :
    ¬Resynchronises none (new () fun _ => .wouldBlock) smuggledPowerOn (fun _ => 1) 0 ∧
      ∃ c, runCalls none (new () fun _ => .wouldBlock)
        (smuggledPowerOn.calls (fun _ => 1) 0) = .ok c ∧ c.powered = true := by
  have hpowered : (runCalls none (new () fun _ => .wouldBlock)
      (smuggledPowerOn.calls (fun _ => 1) 0)).map (fun c => c.powered) = .ok true := by
    decide +kernel
  cases hrun : runCalls none (new () fun _ => .wouldBlock)
      (smuggledPowerOn.calls (fun _ => 1) 0) with
  | error e =>
      rw [hrun] at hpowered
      cases hpowered
  | ok c =>
      rw [hrun] at hpowered
      have hon : c.powered = true := Except.ok.inj hpowered
      refine ⟨?_, c, rfl, hon⟩
      rintro ⟨-, c', hrun', hsame, -⟩
      obtain rfl := Except.ok.inj (hrun.symm.trans hrun')
      exact absurd (hsame.powered.symm.trans hon) Bool.false_ne_true

end CcidClass

end OpenKey
