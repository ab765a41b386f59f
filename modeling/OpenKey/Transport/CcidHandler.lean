import OpenKey.Transport.CcidReplies

/-!
# XfrBlocks and the handler

With a handler, `dispatch_rx` answers an accepted XfrBlock and leaves it in the receive buffer,
still marked as ready. So the next `process` dispatches it again, and the packets that follow are
dropped.

A run is a list of rounds: the packets of one message, with calls of `process` between them, and
then at least one call. `DeliveredOnce` says that in each round the handler gets the APDU of the
message once if it is an XfrBlock, and that no packet is dropped; `deliveredOnce_iff` says for which
rounds that is so.
-/

namespace OpenKey

set_option autoImplicit false

/-! ## Messages of the host -/

/-- `PC_to_RDR` messages that fit in the buffer. -/
structure CcidMessage where
  msgType : UInt8
  slot : UInt8
  seq : UInt8
  /-- The three bytes whose meaning depends on the type; `wLevelParameter` is in the last two. -/
  bwi : UInt8
  levelLow : UInt8
  levelHigh : UInt8
  abData : Bytes
  abData_ok : abData.length ≤ 278

namespace CcidMessage

/-- The header behind the length. -/
def tail (m : CcidMessage) : Bytes := [m.slot, m.seq, m.bwi, m.levelLow, m.levelHigh]

/-- The bytes of a message. -/
def bytes (m : CcidMessage) : Bytes :=
  m.msgType :: (Bytes.leBytes 4 m.abData.length ++ (m.tail ++ m.abData))

/-- `wLevelParameter`. -/
def level (m : CcidMessage) : Nat := Bytes.leNat [m.levelLow, m.levelHigh]

/-- The message is an XfrBlock. -/
def IsXfrBlock (m : CcidMessage) : Prop := m.msgType = pcToRdrXfrBlock

instance (m : CcidMessage) : Decidable m.IsXfrBlock := inferInstanceAs (Decidable (_ = _))

theorem length_bytes (m : CcidMessage) : m.bytes.length = 10 + m.abData.length := by
  simp only [bytes, tail, List.length_cons, List.length_append, Bytes.length_leBytes,
    List.length_nil]
  omega

end CcidMessage

namespace CcidClass

variable {η : Type}

/-- A window of the buffer within what it shares with a message. -/
theorem window_eq {buf bytes : Bytes} {n i j : Nat} (h : buf.take n = bytes.take n)
    (hin : i + j ≤ n) : (buf.drop i).take j = (bytes.drop i).take j := by
  have hcut : ∀ bs : Bytes, (bs.drop i).take j = ((bs.take n).drop i).take j := by
    intro bs
    rw [List.drop_take, List.take_take, Nat.min_eq_left (by omega)]
  rw [hcut buf, hcut bytes, h]

theorem dwLength_of_window {c : CcidClass η} {m : CcidMessage} {n : Nat} (hn : 5 ≤ n)
    (h : c.rxBuf.take n = m.bytes.take n) : c.dwLength = m.abData.length := by
  have hlt : m.abData.length < 256 ^ 4 := Nat.lt_of_le_of_lt m.abData_ok (by decide)
  rw [dwLength, window_eq h (by omega), CcidMessage.bytes, List.drop_one, List.tail_cons,
    List.take_append_of_le_length (Nat.le_of_eq (Bytes.length_leBytes 4 _).symm),
    List.take_of_length_le (Nat.le_of_eq (Bytes.length_leBytes 4 _)), Bytes.leNat_leBytes_of_lt hlt]

/-- The buffer holds a message. -/
structure Holds (c : CcidClass η) (m : CcidMessage) : Prop where
  rxReady : c.rxReady = true
  rxOverflow : c.rxOverflow = false
  rxLen : c.rxLen = m.bytes.length
  rxBuf : c.rxBuf.take m.bytes.length = m.bytes

theorem Holds.window {c : CcidClass η} {m : CcidMessage} (h : Holds c m) :
    c.rxBuf.take m.bytes.length = m.bytes.take m.bytes.length := by
  rw [List.take_length]
  exact h.rxBuf

theorem Holds.dwLength {c : CcidClass η} {m : CcidMessage} (h : Holds c m) :
    c.dwLength = m.abData.length :=
  dwLength_of_window (by rw [m.length_bytes]; omega) h.window

theorem Holds.whole {c : CcidClass η} {m : CcidMessage} (h : Holds c m) : Whole c := by
  have hlen := m.length_bytes
  refine ⟨h.rxOverflow, ?_, ?_⟩
  · rw [h.rxLen]
    omega
  · rw [h.rxLen, h.dwLength]
    omega

theorem Holds.small {c : CcidClass η} {m : CcidMessage} (h : Holds c m) : ¬Overflows c := by
  rintro ⟨-, -, hbig⟩
  have hok := m.abData_ok
  rw [h.dwLength] at hbig
  omega

/-- A byte of the header. -/
theorem Holds.rxByte {c : CcidClass η} {m : CcidMessage} (h : Holds c m) {i : Nat} (hi : i < 10) :
    c.rxByte i = m.bytes.getD i 0 := by
  have hlen := m.length_bytes
  have hwindow := window_eq (i := i) (j := 1) h.window (by omega)
  have hget : ∀ bs : Bytes, bs.getD i 0 = ((bs.drop i).take 1).getD 0 0 := by
    intro bs
    rw [List.getD_eq_getElem?_getD, List.getD_eq_getElem?_getD,
      List.getElem?_take_of_lt (by decide),
      List.getElem?_drop, Nat.add_zero]
  rw [CcidClass.rxByte, hget c.rxBuf, hget m.bytes, hwindow]

theorem Holds.msgType {c : CcidClass η} {m : CcidMessage} (h : Holds c m) :
    c.rxByte 0 = m.msgType := h.rxByte (by decide)

theorem bytes_drop_five (m : CcidMessage) : m.bytes.drop 5 = m.tail ++ m.abData := by
  have hlen : (Bytes.leBytes 4 m.abData.length).length = 4 := Bytes.length_leBytes 4 _
  rw [CcidMessage.bytes, List.drop_succ_cons]
  exact List.drop_left' hlen

theorem Holds.level {c : CcidClass η} {m : CcidMessage} (h : Holds c m) : c.level = m.level := by
  have hlen := m.length_bytes
  rw [CcidClass.level, window_eq h.window (by omega), ← List.drop_drop (i := 3) (j := 5),
    bytes_drop_five]
  rfl

theorem Holds.abData {c : CcidClass η} {m : CcidMessage} (h : Holds c m) :
    CcidClass.abData c = m.abData := by
  have hlen := m.length_bytes
  rw [CcidClass.abData, h.dwLength, window_eq h.window (by omega),
    ← List.drop_drop (i := 5) (j := 5), bytes_drop_five]
  show m.abData.take m.abData.length = m.abData
  exact List.take_length

/-! ## Receiving a message -/

/-- The packets of a message, `k` full ones before the last, with calls of `process` between
them. -/
def feed (gap : Nat → Nat) : Nat → Bytes → List Call
  | 0, rest => [.packet rest]
  | k + 1, rest =>
      .packet (rest.take 64) :: (List.replicate (gap k) .process ++ feed gap k (rest.drop 64))

/-- The number of full packets before the last. -/
def fullPackets (bytes : Bytes) : Nat := (bytes.length - 1) / 64

/-- The buffer holds the beginning of a message. -/
structure Begun (c : CcidClass η) (m : CcidMessage) (rest : Bytes) : Prop where
  rxReady : c.rxReady = false
  rxOverflow : c.rxOverflow = false
  rxLen : c.rxLen + rest.length = m.bytes.length
  rxBuf : c.rxBuf.take c.rxLen ++ rest = m.bytes

/-- The two differ at most in what is being received or sent. -/
structure Alike (c c' : CcidClass η) : Prop where
  handlerState : c'.handlerState = c.handlerState
  pending : c'.pending = c.pending
  respAwaiting : c'.respAwaiting = c.respAwaiting

theorem Alike.trans {c c' c'' : CcidClass η} (h : Alike c c') (h' : Alike c' c'') : Alike c c'' :=
  ⟨h'.handlerState.trans h.handlerState, h'.pending.trans h.pending,
    h'.respAwaiting.trans h.respAwaiting⟩

theorem Outward.alike {c c' : CcidClass η} (h : Outward c c') : Alike c c' := by
  obtain ⟨_, _, _, _, _, _, _, rfl⟩ := h
  exact ⟨rfl, rfl, rfl⟩

variable (handler : Option (CcidApduHandler η))

/-- The packets of a run are not dropped. -/
def Undropped : CcidClass η → List Call → Prop
  | _, [] => True
  | c, call :: calls => ((∃ chunk, call = .packet chunk) → c.rxReady = false) ∧
      ∀ c', step handler c call = .ok c' → Undropped c' calls

theorem runCalls_append (c : CcidClass η) (calls calls' : List Call) :
    runCalls handler c (calls ++ calls') =
      runCalls handler c calls >>= fun c => runCalls handler c calls' := by
  induction calls generalizing c with
  | nil => rfl
  | cons call calls ih =>
      rw [List.cons_append, runCalls, runCalls]
      rcases step handler c call with e | next
      · rfl
      · exact ih next

theorem undropped_append {c c' : CcidClass η} {calls calls' : List Call}
    (hrun : runCalls handler c calls = .ok c') :
    Undropped handler c (calls ++ calls') ↔
      Undropped handler c calls ∧ Undropped handler c' calls' := by
  induction calls generalizing c with
  | nil =>
      obtain rfl := Except.ok.inj hrun
      exact ⟨fun h => ⟨trivial, h⟩, fun h => h.2⟩
  | cons call calls ih =>
      obtain ⟨next, hstep, hrest⟩ := runCalls_cons_eq_ok.mp hrun
      have hnext : ∀ {p : CcidClass η → Prop},
          (∀ d, step handler c call = .ok d → p d) ↔ p next := by
        intro p
        rw [hstep]
        exact ⟨fun h => h next rfl, fun h d hd => Except.ok.inj hd ▸ h⟩
      rw [List.cons_append, Undropped, Undropped, hnext, hnext, ih hrest, and_assoc]

/-- While a message is not whole, `process` only sends. -/
theorem process_begun {c : CcidClass η} (hwf : Wf c) (hready : c.rxReady = false) (n : Nat) :
    ∃ c', runCalls handler c (List.replicate n .process) = .ok c' ∧ Wf c' ∧ Outward c c' ∧
      Undropped handler c (List.replicate n .process) := by
  induction n generalizing c with
  | zero => exact ⟨c, rfl, hwf, Outward.refl c, trivial⟩
  | succ n ih =>
      obtain ⟨next, hflush, hwf', hout⟩ := flushTx_ok hwf
      have hstep : step handler c .process = .ok next := by
        rw [step, process, hready, if_neg Bool.false_ne_true]
        exact hflush
      have hready' : next.rxReady = false := by
        obtain ⟨_, _, _, _, _, _, _, rfl⟩ := hout
        exact hready
      obtain ⟨c', hrun, hwf'', hout', hdrop⟩ := ih hwf' hready'
      refine ⟨c', ?_, hwf'', hout.trans hout', ?_, ?_⟩
      · rw [List.replicate_succ, runCalls, hstep]
        exact hrun
      · rintro ⟨chunk, hchunk⟩
        cases hchunk
      · intro d hd
        rw [hstep] at hd
        obtain rfl := Except.ok.inj hd
        exact hdrop

theorem take_received {c : CcidClass η} (hwf : Wf c) (chunk : Bytes)
    (hfits : c.rxLen + chunk.length ≤ 288) :
    (received chunk c).rxBuf.take (c.rxLen + chunk.length) = c.rxBuf.take c.rxLen ++ chunk ∧
      (received chunk c).rxLen = c.rxLen + chunk.length := by
  have htake : (c.rxBuf.take c.rxLen).length = c.rxLen := by
    rw [List.length_take, hwf.rxBuf]
    omega
  refine ⟨?_, ?_⟩
  · show (c.rxBuf.splice c.rxLen (chunk.take (288 - c.rxLen))).take _ = _
    rw [List.take_of_length_le (l := chunk) (by omega), Bytes.splice,
      List.take_append_of_le_length (by rw [List.length_append, htake]), List.take_of_length_le]
    rw [List.length_append, htake]
  · show c.rxLen + min _ _ = _
    omega

/-- A packet that is not the last of a message. -/
theorem begun_packet {c : CcidClass η} {m : CcidMessage} {rest : Bytes} (hwf : Wf c)
    (h : Begun c m rest) (hlong : 64 < rest.length) :
    Begun (appended (rest.take 64) c) m (rest.drop 64) := by
  have hbytes := m.length_bytes
  have hok := m.abData_ok
  have hlen := h.rxLen
  have hchunk : (rest.take 64).length = 64 := by
    rw [List.length_take]
    omega
  obtain ⟨hbuf, hrx⟩ := take_received hwf (rest.take 64) (by omega)
  rw [hchunk] at hbuf hrx
  have hall : (received (rest.take 64) c).rxBuf.take (c.rxLen + 64) ++ rest.drop 64 = m.bytes := by
    rw [hbuf, List.append_assoc, List.take_append_drop]
    exact h.rxBuf
  have hdw : (received (rest.take 64) c).dwLength = m.abData.length := by
    refine dwLength_of_window (n := c.rxLen + 64) (by omega) ?_
    have hcut : ((received (rest.take 64) c).rxBuf.take (c.rxLen + 64)).length = c.rxLen + 64 := by
      rw [List.length_take, (wf_received hwf _).rxBuf]
      omega
    rw [← hall, List.take_append_of_le_length (Nat.le_of_eq hcut.symm),
      List.take_take, Nat.min_self]
  have happended : appended (rest.take 64) c = received (rest.take 64) c := by
    unfold appended concluded
    rw [h.rxReady, if_neg Bool.false_ne_true, hchunk, hrx, hdw, if_neg (by omega),
      if_neg (by decide), if_pos (by omega), if_neg (by omega), if_neg (by omega)]
  rw [happended]
  refine ⟨h.rxReady, h.rxOverflow, ?_, ?_⟩
  · rw [hrx, List.length_drop]
    omega
  · rw [hrx]
    exact hall

/-- The last packet of a message. -/
theorem holds_packet {c : CcidClass η} {m : CcidMessage} {rest : Bytes} (hwf : Wf c)
    (h : Begun c m rest) (hshort : rest.length ≤ 64) : Holds (appended rest c) m := by
  have hbytes := m.length_bytes
  have hok := m.abData_ok
  have hlen := h.rxLen
  obtain ⟨hbuf, hrx⟩ := take_received hwf rest (by omega)
  rw [hlen] at hbuf hrx
  have hall : (received rest c).rxBuf.take m.bytes.length = m.bytes := by
    rw [hbuf]
    exact h.rxBuf
  have hdw : (received rest c).dwLength = m.abData.length := by
    refine dwLength_of_window (n := m.bytes.length) (by omega) ?_
    rw [List.take_length]
    exact hall
  have happended : appended rest c = { received rest c with rxReady := true } := by
    unfold appended concluded
    rw [h.rxReady, if_neg Bool.false_ne_true, if_neg (by omega)]
    by_cases hpacket : rest.length < 64
    · rw [if_pos hpacket]
    · rw [if_neg hpacket, if_pos (by rw [hrx]; omega), if_neg (by rw [hdw]; omega),
        if_pos (by rw [hdw, hrx]; omega)]
  rw [happended]
  exact ⟨rfl, h.rxOverflow, hrx, hall⟩

theorem alike_appended {c : CcidClass η} {chunk : Bytes} : Alike c (appended chunk c) := by
  unfold appended
  refine iteInduction (fun _ => ⟨rfl, rfl, rfl⟩) fun _ => ?_
  unfold concluded
  exact iteInduction (fun _ => ⟨rfl, rfl, rfl⟩) fun _ => iteInduction (fun _ => ⟨rfl, rfl, rfl⟩)
    fun _ => iteInduction (fun _ => iteInduction (fun _ => ⟨rfl, rfl, rfl⟩) fun _ =>
      iteInduction (fun _ => ⟨rfl, rfl, rfl⟩) fun _ => ⟨rfl, rfl, rfl⟩) fun _ => ⟨rfl, rfl, rfl⟩

/-- The packets of a message put it in the buffer. -/
theorem feed_holds (gap : Nat → Nat) (m : CcidMessage) (k : Nat) :
    ∀ {c : CcidClass η} {rest : Bytes},
    Wf c → Begun c m rest → 64 * k < rest.length → rest.length ≤ 64 * (k + 1) →
    ∃ c', runCalls handler c (feed gap k rest) = .ok c' ∧ Wf c' ∧ Holds c' m ∧ Alike c c' ∧
      Undropped handler c (feed gap k rest) := by
  induction k with
  | zero =>
      intro c rest hwf hbegun _ hshort
      have hstep : step handler c (.packet rest) = .ok (appended rest c) := rxAppend_eq hwf rest
      refine ⟨appended rest c, ?_, wf_appended hwf rest, holds_packet hwf hbegun hshort,
        alike_appended, fun _ => hbegun.rxReady, fun _ _ => trivial⟩
      rw [feed, runCalls, hstep]
      rfl
  | succ k ih =>
      intro c rest hwf hbegun hlong hshort
      have hnext := begun_packet hwf hbegun (by omega)
      have hwf' := wf_appended hwf (rest.take 64)
      have hstep : step handler c (.packet (rest.take 64)) = .ok (appended (rest.take 64) c) :=
        rxAppend_eq hwf _
      obtain ⟨mid, hgap, hwf'', hout, hdrop⟩ := process_begun handler hwf' hnext.rxReady (gap k)
      have hbegun' : Begun mid m (rest.drop 64) := by
        obtain ⟨_, _, _, _, _, _, _, rfl⟩ := hout
        exact ⟨hnext.rxReady, hnext.rxOverflow, hnext.rxLen, hnext.rxBuf⟩
      obtain ⟨c', hrun, hwf''', hholds, halike, hdrop'⟩ :=
        ih hwf'' hbegun' (by rw [List.length_drop]; omega) (by rw [List.length_drop]; omega)
      refine ⟨c', ?_, hwf''', hholds, (alike_appended.trans hout.alike).trans halike,
        fun _ => hbegun.rxReady, fun d hd => ?_⟩
      · rw [feed, runCalls, hstep]
        show runCalls handler (appended (rest.take 64) c) (List.replicate (gap k) .process ++ _) = _
        rw [runCalls_append, hgap]
        exact hrun
      · rw [hstep] at hd
        obtain rfl := Except.ok.inj hd
        exact (undropped_append handler hgap).mpr ⟨hdrop, hdrop'⟩

/-! ## Dispatching it -/

/-- Nothing is being received, and no XfrBlock waits for an answer. -/
structure Listening (c : CcidClass η) : Prop where
  wf : Wf c
  rxReady : c.rxReady = false
  rxLen : c.rxLen = 0
  rxOverflow : c.rxOverflow = false
  pending : c.pending = false
  respAwaiting : c.respAwaiting = false

theorem listening_new (handlerState : η) (answers : Nat → EndpointAnswer) :
    Listening (new handlerState answers) :=
  ⟨wf_new handlerState answers, rfl, rfl, rfl, rfl, rfl⟩

theorem Listening.begun {c : CcidClass η} (h : Listening c) (m : CcidMessage) :
    Begun c m m.bytes := by
  refine ⟨h.rxReady, h.rxOverflow, ?_, ?_⟩
  · rw [h.rxLen, Nat.zero_add]
  · rw [h.rxLen, List.take_zero, List.nil_append]

/-- Calls of `process` while nothing is being received. -/
theorem listening_process {c : CcidClass η} (h : Listening c) (n : Nat) :
    ∃ c', runCalls handler c (List.replicate n .process) = .ok c' ∧ Listening c' ∧
      c'.handlerState = c.handlerState := by
  obtain ⟨c', hrun, hwf', hout, -⟩ := process_begun handler h.wf h.rxReady n
  obtain ⟨_, _, _, _, _, _, _, rfl⟩ := hout
  exact ⟨_, hrun, ⟨hwf', h.rxReady, h.rxLen, h.rxOverflow, h.pending, h.respAwaiting⟩, rfl⟩

/-- A message that the slot does not accept is answered and forgotten. -/
theorem process_refused {c : CcidClass η} (hwf : Wf c) (hready : c.rxReady = true)
    (hsmall : ¬Overflows c) (hrefuse : ¬Accepts c) (hpending : c.pending = false)
    (hawaiting : c.respAwaiting = false) :
    ∃ c', process handler c = .ok c' ∧ Listening c' ∧ c'.handlerState = c.handlerState := by
  have hsettles := settles_settled c
  obtain ⟨mid, hqueue, hwf', hout⟩ := queueResponse_ok (wf_settled hwf) (length_replyTo hwf)
  obtain ⟨c', hflush, hwf'', hout'⟩ := flushTx_ok hwf'
  have hall := hout.trans hout'
  refine ⟨c', ?_, ?_, ?_⟩
  · unfold process
    rw [if_pos hready, dispatchRx_reply handler hsmall hrefuse, hqueue]
    exact hflush
  · obtain ⟨_, _, _, _, _, _, _, rfl⟩ := hall
    exact ⟨hwf'', hsettles.rxReady, hsettles.rxLen, hsettles.rxOverflow, hsettles.pending hpending,
      hsettles.respAwaiting hawaiting⟩
  · obtain ⟨_, _, _, _, _, _, _, rfl⟩ := hall
    exact hsettles.handlerState

/-- An XfrBlock goes to the handler and stays where it is. -/
theorem process_handled {f : CcidApduHandler η} {c : CcidClass η} {m : CcidMessage} (hwf : Wf c)
    (hholds : Holds c m) (hxfr : m.IsXfrBlock) (hlevel : m.level ≤ 1) (hpending : c.pending = false)
    (hawaiting : c.respAwaiting = false) :
    ∃ c' scratch, process (some f) c = .ok c' ∧ Wf c' ∧ Holds c' m ∧ c'.pending = false ∧
      c'.respAwaiting = false ∧ c'.handlerState = (f.call c.handlerState m.abData scratch).2 := by
  have haccept : Accepts c := ⟨hholds.whole, hholds.msgType.trans hxfr,
    by rw [hholds.level]; exact hlevel, hpending, hawaiting⟩
  obtain ⟨mid, scratch, handlerState, hhandle, hwf', hcall, hout⟩ :=
    handle_ok hwf f (c.rxByte 5) (c.rxByte 6) (abData c)
  obtain ⟨c', hflush, hwf'', hout'⟩ := flushTx_ok hwf'
  have hall := hout.trans hout'
  rw [hholds.abData] at hcall
  refine ⟨c', scratch, ?_, hwf'', ?_⟩
  · unfold process
    rw [if_pos hholds.rxReady, dispatchRx_accept (some f) hwf haccept]
    show (handle f (c.rxByte 5) (c.rxByte 6) (abData c) c >>= flushTx) = _
    rw [hhandle]
    exact hflush
  · obtain ⟨_, _, _, _, _, _, _, rfl⟩ := hall
    exact ⟨⟨hholds.rxReady, hholds.rxOverflow, hholds.rxLen, hholds.rxBuf⟩, hpending, hawaiting,
      hcall⟩

end CcidClass

/-! ## Rounds -/

/-- A handler that records the APDUs it is called with. -/
def CcidApduHandler.recorded {η : Type} (f : CcidApduHandler η) :
    CcidApduHandler (η × List Bytes) where
  call state apdu resp :=
    ((f.call state.1 apdu resp).1, ((f.call state.1 apdu resp).2, state.2 ++ [apdu]))
  length_call state apdu resp := f.length_call state.1 apdu resp

/-- A message, the calls of `process` between its packets, and those after the last but one. -/
structure CcidRound where
  message : CcidMessage
  gap : Nat → Nat
  again : Nat

namespace CcidRound

/-- The packets and calls of a round. -/
def calls (r : CcidRound) : List CcidClass.Call :=
  CcidClass.feed r.gap (CcidClass.fullPackets r.message.bytes) r.message.bytes ++
    List.replicate (r.again + 1) .process

/-- The APDUs that the handler is to get in a round. -/
def apdus (r : CcidRound) : List Bytes := if r.message.IsXfrBlock then [r.message.abData] else []

/-- Only the last message is an XfrBlock, of a level that is supported, and `process` is called just
once after it. -/
def Once : List CcidRound → Prop
  | [] => True
  | [r] => r.message.IsXfrBlock → r.message.level ≤ 1 ∧ r.again = 0
  | r :: rounds => ¬r.message.IsXfrBlock ∧ Once rounds

end CcidRound

namespace CcidClass

variable {η : Type} (f : CcidApduHandler η)

/-- In each round no packet is dropped, and the handler gets the APDU of an XfrBlock just once. -/
def DeliveredOnce : CcidClass (η × List Bytes) → List CcidRound → Prop
  | _, [] => True
  | c, r :: rounds => Undropped (some f.recorded) c r.calls ∧
      ∃ c', runCalls (some f.recorded) c r.calls = .ok c' ∧
        c'.handlerState.2 = c.handlerState.2 ++ r.apdus ∧ DeliveredOnce c' rounds

theorem fullPackets_bounds (m : CcidMessage) : 64 * fullPackets m.bytes < m.bytes.length ∧
    m.bytes.length ≤ 64 * (fullPackets m.bytes + 1) := by
  have hlen := m.length_bytes
  unfold fullPackets
  omega

/-- The packets of a round, with no call after the last. -/
theorem round_holds {c : CcidClass (η × List Bytes)} (h : Listening c) (r : CcidRound) :
    ∃ mid, runCalls (some f.recorded) c
        (feed r.gap (fullPackets r.message.bytes) r.message.bytes) = .ok mid ∧
      Undropped (some f.recorded) c (feed r.gap (fullPackets r.message.bytes) r.message.bytes) ∧
      Wf mid ∧ Holds mid r.message ∧ mid.pending = false ∧ mid.respAwaiting = false ∧
      mid.handlerState = c.handlerState := by
  obtain ⟨hlow, hhigh⟩ := fullPackets_bounds r.message
  obtain ⟨mid, hfeed, hwf, hholds, halike, hdrop⟩ :=
    feed_holds (some f.recorded) r.gap r.message _ h.wf (h.begun r.message) hlow hhigh
  exact ⟨mid, hfeed, hdrop, hwf, hholds, halike.pending.trans h.pending,
    halike.respAwaiting.trans h.respAwaiting, halike.handlerState⟩

theorem undropped_process (handler : Option (CcidApduHandler η)) (n : Nat) (c : CcidClass η) :
    Undropped handler c (List.replicate n .process) := by
  induction n generalizing c with
  | zero => exact trivial
  | succ n ih =>
      refine ⟨?_, fun c' _ => ih c'⟩
      rintro ⟨chunk, hchunk⟩
      cases hchunk

/-- A round whose message is not for the handler. -/
theorem round_refused {c : CcidClass (η × List Bytes)} (h : Listening c) {r : CcidRound}
    (hrefuse : r.message.IsXfrBlock → 1 < r.message.level) :
    Undropped (some f.recorded) c r.calls ∧
      ∃ c', runCalls (some f.recorded) c r.calls = .ok c' ∧ Listening c' ∧
        c'.handlerState = c.handlerState := by
  obtain ⟨mid, hfeed, hdrop, hwf, hholds, hpending, hawaiting, hstate⟩ := round_holds f h r
  have hnot : ¬Accepts mid := by
    rintro ⟨-, hxfr, hlevel, -⟩
    rw [hholds.msgType] at hxfr
    rw [hholds.level] at hlevel
    exact absurd (hrefuse hxfr) (Nat.not_lt.mpr hlevel)
  obtain ⟨next, hprocess, hlisten, hnext⟩ := process_refused (some f.recorded) hwf hholds.rxReady
    hholds.small hnot hpending hawaiting
  obtain ⟨c', hrest, hlisten', hlast⟩ := listening_process (some f.recorded) hlisten r.again
  refine ⟨(undropped_append _ hfeed).mpr ⟨hdrop, undropped_process _ _ _⟩, c', ?_, hlisten',
    hlast.trans (hnext.trans hstate)⟩
  rw [CcidRound.calls, runCalls_append, hfeed]
  show runCalls (some f.recorded) mid (.process :: List.replicate r.again .process) = _
  rw [runCalls, step, hprocess]
  exact hrest

/-- Calls of `process` on an XfrBlock hand it over again and again. -/
theorem process_again (n : Nat) : ∀ {c : CcidClass (η × List Bytes)} {m : CcidMessage}, Wf c →
    Holds c m → m.IsXfrBlock → m.level ≤ 1 → c.pending = false → c.respAwaiting = false →
    ∃ c', runCalls (some f.recorded) c (List.replicate n .process) = .ok c' ∧ Holds c' m ∧
      c'.handlerState.2 = c.handlerState.2 ++ List.replicate n m.abData := by
  induction n with
  | zero =>
      intro c m _ hholds _ _ _ _
      exact ⟨c, rfl, hholds, (List.append_nil _).symm⟩
  | succ n ih =>
      intro c m hwf hholds hxfr hlevel hpending hawaiting
      obtain ⟨next, scratch, hprocess, hwf', hholds', hpending', hawaiting', hcall⟩ :=
        process_handled hwf hholds hxfr hlevel hpending hawaiting (f := f.recorded)
      obtain ⟨c', hrest, hlast, hlog⟩ := ih hwf' hholds' hxfr hlevel hpending' hawaiting'
      refine ⟨c', ?_, hlast, ?_⟩
      · rw [List.replicate_succ, runCalls, step, hprocess]
        exact hrest
      · rw [hlog, hcall, List.replicate_succ]
        exact List.append_assoc _ _ _

/-- A round whose message goes to the handler. -/
theorem round_handled {c : CcidClass (η × List Bytes)} (h : Listening c) {r : CcidRound}
    (hxfr : r.message.IsXfrBlock) (hlevel : r.message.level ≤ 1) :
    Undropped (some f.recorded) c r.calls ∧
      ∃ c', runCalls (some f.recorded) c r.calls = .ok c' ∧ Holds c' r.message ∧
        c'.handlerState.2 = c.handlerState.2 ++ List.replicate (r.again + 1) r.message.abData := by
  obtain ⟨mid, hfeed, hdrop, hwf, hholds, hpending, hawaiting, hstate⟩ := round_holds f h r
  obtain ⟨c', hrest, hholds', hlog⟩ :=
    process_again f (r.again + 1) hwf hholds hxfr hlevel hpending hawaiting
  refine ⟨(undropped_append _ hfeed).mpr ⟨hdrop, undropped_process _ _ _⟩, c', ?_, hholds', ?_⟩
  · rw [CcidRound.calls, runCalls_append, hfeed]
    exact hrest
  · rw [hlog, hstate]

/-- Once the buffer is occupied, the packets of the next message are dropped. -/
theorem not_undropped {c : CcidClass (η × List Bytes)} (hready : c.rxReady = true) (r : CcidRound) :
    ¬Undropped (some f.recorded) c r.calls := by
  intro hdrop
  have hfirst : ∃ chunk rest, r.calls = .packet chunk :: rest := by
    unfold CcidRound.calls
    cases fullPackets r.message.bytes with
    | zero => exact ⟨_, _, rfl⟩
    | succ k => exact ⟨_, _, rfl⟩
  obtain ⟨chunk, rest, hcalls⟩ := hfirst
  rw [hcalls] at hdrop
  exact absurd (hready.symm.trans (hdrop.1 ⟨chunk, rfl⟩)) (by decide)

/-- Each APDU is delivered just once exactly when an XfrBlock comes last, and `process` is called
just once after it. -/
theorem deliveredOnce_iff (rounds : List CcidRound) : ∀ {c : CcidClass (η × List Bytes)},
    Listening c → (DeliveredOnce f c rounds ↔ CcidRound.Once rounds) := by
  induction rounds with
  | nil => exact fun _ => Iff.rfl
  | cons r rounds ih =>
      intro c h
      by_cases hxfr : r.message.IsXfrBlock
      · by_cases hlevel : r.message.level ≤ 1
        · obtain ⟨hdrop, c', hrun, hholds, hlog⟩ := round_handled f h hxfr hlevel
          constructor
          · rintro ⟨-, d, hd, hone, hrest⟩
            rw [hrun] at hd
            obtain rfl := Except.ok.inj hd
            have hagain : r.again = 0 := by
              rw [hlog, CcidRound.apdus, if_pos hxfr] at hone
              have hlen := congrArg List.length (List.append_cancel_left hone)
              rw [List.length_replicate, List.length_singleton] at hlen
              omega
            cases rounds with
            | nil => exact fun _ => ⟨hlevel, hagain⟩
            | cons next rest => exact absurd hrest.1 (not_undropped f hholds.rxReady next)
          · intro honce
            cases rounds with
            | nil =>
                obtain ⟨-, hagain⟩ := honce hxfr
                refine ⟨hdrop, c', hrun, ?_, trivial⟩
                rw [hlog, hagain, CcidRound.apdus, if_pos hxfr]
                rfl
            | cons next rest => exact absurd hxfr honce.1
        · obtain ⟨-, c', hrun, -, hstate⟩ :=
            round_refused f h (r := r) fun _ => Nat.lt_of_not_le hlevel
          constructor
          · rintro ⟨-, d, hd, hone, -⟩
            rw [hrun] at hd
            obtain rfl := Except.ok.inj hd
            rw [hstate, CcidRound.apdus, if_pos hxfr] at hone
            exact absurd hone (by simp)
          · intro honce
            cases rounds with
            | nil => exact absurd (honce hxfr).1 hlevel
            | cons next rest => exact absurd hxfr honce.1
      · obtain ⟨hdrop, c', hrun, hlisten, hstate⟩ :=
          round_refused f h (r := r) fun h => absurd h hxfr
        have honce : CcidRound.Once (r :: rounds) ↔ CcidRound.Once rounds := by
          cases rounds with
          | nil => exact ⟨fun _ => trivial, fun _ h => absurd h hxfr⟩
          | cons next rest => exact ⟨fun h => h.2, fun h => ⟨hxfr, h⟩⟩
        rw [honce, ← ih hlisten]
        constructor
        · rintro ⟨-, d, hd, -, hrest⟩
          rw [hrun] at hd
          obtain rfl := Except.ok.inj hd
          exact hrest
        · intro hrest
          refine ⟨hdrop, c', hrun, ?_, hrest⟩
          rw [hstate, CcidRound.apdus, if_neg hxfr, List.append_nil]

/-- From the start, for any handler and any answers of the endpoint. -/
theorem handler_called_once_iff (state : η) (answers : Nat → EndpointAnswer)
    (rounds : List CcidRound) :
    DeliveredOnce f (new (state, []) answers) rounds ↔ CcidRound.Once rounds :=
  deliveredOnce_iff f rounds (listening_new _ _)

/-- A handler that answers nothing. -/
def silentHandler :
    CcidApduHandler Unit := ⟨fun state _ resp => ((resp, 0), state), fun _ _ _ => rfl⟩

/-- An XfrBlock with one byte. -/
def oneByteBlock : CcidMessage := ⟨pcToRdrXfrBlock, 0, 1, 0, 0, 0, [7], by decide⟩

/-- One XfrBlock, and a second call of `process` after it: the handler gets the APDU twice. -/
theorem handler_called_twice :
    ¬DeliveredOnce silentHandler (new ((), []) fun _ => .wouldBlock)
        [⟨oneByteBlock, fun _ => 0, 1⟩] ∧
      ∃ c, runCalls (some silentHandler.recorded) (new ((), []) fun _ => .wouldBlock)
        (CcidRound.calls ⟨oneByteBlock, fun _ => 0, 1⟩) = .ok c ∧ c.handlerState.2 =
          [[7], [7]] := by
  constructor
  · rw [deliveredOnce_iff silentHandler _ (listening_new _ _)]
    intro honce
    exact absurd (honce rfl).2 (by decide)
  · obtain ⟨-, c, hrun, -, hlog⟩ :=
      round_handled silentHandler (listening_new ((), []) fun _ => .wouldBlock)
      (r := ⟨oneByteBlock, fun _ => 0, 1⟩) rfl (by decide)
    exact ⟨c, hrun, hlog⟩

end CcidClass

end OpenKey
