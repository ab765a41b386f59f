import OpenKey.Transport.Ccid

/-!
# The CCID class does not panic

`Wf` is what every buffer and length keeps. Under it each operation returns, with one exception: the
sum of the header and `dwLength` in `dispatch_rx`, which leaves 32 bits for the ten largest lengths
(`Overflows`).

`flushLoop_keeps` is the rule for `flush_tx`: what survives the promotion of the queue and the offer
of a packet survives the loop.
-/

namespace OpenKey

set_option autoImplicit false

namespace CcidClass

variable {η : Type}

/-- The buffers have their sizes, and the lengths are within them. -/
structure Wf (c : CcidClass η) : Prop where
  rxBuf : c.rxBuf.length = 288
  rxLen : c.rxLen ≤ 288
  txBuf : c.txBuf.length = 288
  qBuf : c.qBuf.length = 288
  tx : c.txSent < c.txLen ∧ c.txLen ≤ 288 ∨ c.txLen = 0 ∧ c.txSent = 0
  qLen : c.qLen ≤ 288
  params : c.params.length = 5
  pendingApdu : c.pendingApdu.length = 278
  pendingLen : c.pendingLen ≤ 278

theorem wf_new (handlerState : η) (answers : Nat → EndpointAnswer) :
    Wf (new handlerState answers) where
  rxBuf := List.length_replicate
  rxLen := Nat.zero_le _
  txBuf := List.length_replicate
  qBuf := List.length_replicate
  tx := .inr ⟨rfl, rfl⟩
  qLen := Nat.zero_le _
  params := rfl
  pendingApdu := List.length_replicate
  pendingLen := Nat.zero_le _

theorem txActive_iff {c : CcidClass η} : c.txActive = true ↔ c.txSent < c.txLen :=
  decide_eq_true_iff

theorem txActive_false_iff {c : CcidClass η} : c.txActive = false ↔ c.txLen ≤ c.txSent := by
  rw [txActive, decide_eq_false_iff_not, Nat.not_lt]

/-! ## Sending -/

/-- The class once the queue is promoted. -/
def promoted (c : CcidClass η) : CcidClass η :=
  { c with
    txBuf := c.qBuf.take c.qLen ++ c.txBuf.drop c.qLen
    txLen := c.qLen
    txSent := 0
    qLen := 0 }

theorem promote_eq {c : CcidClass η} (hwf : Wf c) : promote c = .ok (promoted c) := by
  have hlen : (c.qBuf.take c.qLen).length = c.qLen := by
    rw [List.length_take, hwf.qBuf]
    exact Nat.min_eq_left hwf.qLen
  have hfits : 0 + (c.qBuf.take c.qLen).length ≤ c.txBuf.length := by
    rw [hlen, hwf.txBuf, Nat.zero_add]
    exact hwf.qLen
  unfold promote promoted
  rw [Checked.slice_zero (by rw [hwf.qBuf]; exact hwf.qLen)]
  show (Checked.copyAt c.txBuf 0 (c.qBuf.take c.qLen) >>= _) = _
  rw [Checked.copyAt_ok hfits, Bytes.splice, hlen, List.take_zero, List.nil_append, Nat.zero_add]
  rfl

theorem wf_promoted {c : CcidClass η} (hwf : Wf c) (hq : 0 < c.qLen) : Wf (promoted c) :=
  { hwf with
    txBuf := by
      have hq := hwf.qLen
      simp only [promoted, List.length_append, List.length_take, List.length_drop, hwf.qBuf,
        hwf.txBuf]
      omega
    tx := .inl ⟨hq, hwf.qLen⟩
    qLen := Nat.zero_le _ }

/-- The next packet. -/
def nextPacket (c : CcidClass η) : Bytes :=
  (c.txBuf.drop c.txSent).take (min (c.txSent + 64) c.txLen - c.txSent)

theorem length_nextPacket {c : CcidClass η} (hwf : Wf c) (hactive : c.txActive = true) :
    (nextPacket c).length = min 64 (c.txLen - c.txSent) := by
  have htx := hwf.tx
  have hactive := txActive_iff.mp hactive
  rw [nextPacket, List.length_take, List.length_drop, hwf.txBuf]
  omega

/-- What an offer to the endpoint does. -/
def offered (c : CcidClass η) : CcidClass η × Bool :=
  let answered := { c with answers := fun i => c.answers (i + 1) }
  match c.answers 0 with
  | .wrote n =>
      if min n (nextPacket c).length = 0 then (answered, false)
      else (answered.advance (nextPacket c) (min n (nextPacket c).length), true)
  | .wouldBlock => (answered, false)
  | .failed => ({ answered with txLen := 0, txSent := 0 }, true)

theorem sendPacket_eq {c : CcidClass η} (hwf : Wf c) (hactive : c.txActive = true) :
    sendPacket c = .ok (offered c) := by
  have htx := hwf.tx
  have hactive := txActive_iff.mp hactive
  unfold sendPacket
  rw [Checked.add_ok (show c.txSent + packetSize < 2 ^ 32 by rw [packetSize]; omega)]
  show (Checked.slice c.txBuf c.txSent (min (c.txSent + 64) c.txLen) >>= _) = _
  rw [Checked.slice_ok (by omega) (by rw [hwf.txBuf]; omega)]
  show (match c.answers 0 with | .wrote n => _ | .wouldBlock => _ | .failed => _) = _
  unfold offered
  cases c.answers 0 with
  | wrote n =>
      show (if min n (nextPacket c).length = 0 then _ else _) = _
      simp only
      split <;> rfl
  | wouldBlock => rfl
  | failed => rfl

theorem advance_eq (c : CcidClass η) (packet : Bytes) (n : Nat) :
    c.advance packet n =
      { c with
        txLen := if c.txSent + n < c.txLen then c.txLen else 0
        txSent := if c.txSent + n < c.txLen then c.txSent + n else 0
        wire := c.wire ++ [packet.take n] } := by
  unfold advance txActive
  simp only [decide_eq_true_eq]
  split <;> rfl

theorem wf_offered {c : CcidClass η} (hwf : Wf c) (hactive : c.txActive = true) :
    Wf (offered c).1 := by
  have hanswered : ∀ answers, Wf { c with answers := answers } := fun _ => { hwf with }
  have htx := hwf.tx
  have hactive := txActive_iff.mp hactive
  unfold offered
  simp only
  split
  · split
    · exact hanswered _
    · rw [advance_eq]
      refine { hwf with tx := ?_ }
      simp only
      split
      · next hmore => exact .inl ⟨hmore, by omega⟩
      · exact .inr ⟨rfl, rfl⟩
  · exact hanswered _
  · exact { hwf with tx := .inr ⟨rfl, rfl⟩ }

/-- What survives the promotion of the queue and the offer of a packet survives `flush_tx`. -/
theorem flushLoop_keeps {P : CcidClass η → Prop}
    (hpromote : ∀ c, Wf c → P c → c.txActive = false → 0 < c.qLen → P (promoted c))
    (hoffer : ∀ c, Wf c → P c → c.txActive = true → P (offered c).1) (fuel : Nat) :
    ∀ {c : CcidClass η}, Wf c → P c → ∃ c', flushLoop fuel c = .ok c' ∧ Wf c' ∧ P c' := by
  induction fuel with
  | zero => exact fun {c} hwf hP => ⟨c, rfl, hwf, hP⟩
  | succ fuel ih =>
      intro c hwf hP
      unfold flushLoop
      -- the offer, from a state with a message on its way
      have hturn : ∀ d : CcidClass η, Wf d → P d → d.txActive = true → ∃ c',
          (sendPacket d >>= fun sent => if sent.2 then flushLoop fuel sent.1 else pure sent.1) =
            .ok c' ∧ Wf c' ∧ P c' := by
        intro d hwf hP hactive
        rw [sendPacket_eq hwf hactive]
        have hwf' := wf_offered hwf hactive
        have hP' := hoffer d hwf hP hactive
        generalize offered d = result at hwf' hP' ⊢
        obtain ⟨next, more⟩ := result
        cases more with
        | false => exact ⟨next, rfl, hwf', hP'⟩
        | true => exact ih hwf' hP'
      cases hactive : c.txActive with
      | true =>
          rw [Bool.not_true, Bool.false_and, if_neg Bool.false_ne_true]
          exact hturn c hwf hP hactive
      | false =>
          by_cases hq : c.qLen = 0
          · rw [Bool.not_false, decide_eq_true hq, Bool.true_and, if_pos rfl]
            exact ⟨c, rfl, hwf, hP⟩
          · have hq' := Nat.pos_of_ne_zero hq
            rw [Bool.not_false, decide_eq_false hq, Bool.true_and, if_neg Bool.false_ne_true,
              if_neg Bool.false_ne_true, promote_eq hwf]
            exact hturn (promoted c) (wf_promoted hwf hq') (hpromote c hwf hP hactive hq')
              (txActive_iff.mpr hq')

/-- The two differ at most in what is being sent. -/
def Outward (c c' : CcidClass η) : Prop :=
  ∃ txBuf txLen txSent qBuf qLen answers wire, c' = { c with
    txBuf := txBuf, txLen := txLen, txSent := txSent, qBuf := qBuf, qLen := qLen
    answers := answers, wire := wire }

theorem Outward.refl (c : CcidClass η) : Outward c c := ⟨_, _, _, _, _, _, _, rfl⟩

theorem Outward.trans {c c' c'' : CcidClass η} (h : Outward c c') (h' : Outward c' c'') :
    Outward c c'' := by
  obtain ⟨_, _, _, _, _, _, _, rfl⟩ := h
  obtain ⟨_, _, _, _, _, _, _, rfl⟩ := h'
  exact ⟨_, _, _, _, _, _, _, rfl⟩

theorem outward_offered (c : CcidClass η) : Outward c (offered c).1 := by
  unfold offered
  simp only
  split
  · split
    · exact ⟨_, _, _, _, _, _, _, rfl⟩
    · rw [advance_eq]
      exact ⟨_, _, _, _, _, _, _, rfl⟩
  · exact ⟨_, _, _, _, _, _, _, rfl⟩
  · exact ⟨_, _, _, _, _, _, _, rfl⟩

theorem flushTx_ok {c : CcidClass η} (hwf : Wf c) :
    ∃ c', flushTx c = .ok c' ∧ Wf c' ∧ Outward c c' :=
  flushLoop_keeps (P := Outward c)
    (fun _ _ h _ _ => h.trans ⟨_, _, _, _, _, _, _, rfl⟩)
    (fun d _ h _ => h.trans (outward_offered d)) _ hwf (Outward.refl c)

/-! ## Replies -/

theorem length_header (r : CcidReply) (n : Nat) : (r.header n).length = 10 := by
  simp [CcidReply.header]

/-- A reply in place of the message on its way. -/
def placed (r : CcidReply) (c : CcidClass η) : CcidClass η :=
  { c with
    txBuf := r.bytes ++ c.txBuf.drop r.bytes.length
    txLen := r.bytes.length
    txSent := 0 }

/-- A reply in place of the message in the queue. -/
def queued (r : CcidReply) (c : CcidClass η) : CcidClass η :=
  { c with qBuf := r.bytes ++ c.qBuf.drop r.bytes.length, qLen := r.bytes.length }

theorem length_bytes (r : CcidReply) : r.bytes.length = 10 + r.data.length := by
  rw [CcidReply.bytes, List.length_append, length_header]

/-- The header and the data in a buffer of stale bytes. -/
theorem header_splice {buf : Bytes} (r : CcidReply) (hbuf : 10 + r.data.length ≤ buf.length) :
    r.header r.data.length ++ (buf.splice 10 r.data).drop 10 =
      r.bytes ++ buf.drop r.bytes.length := by
  have htake : (buf.take 10).length = 10 := by
    rw [List.length_take]
    omega
  rw [Bytes.splice, List.append_assoc, List.drop_append_of_le_length (by omega),
    List.drop_of_length_le (by omega), List.nil_append, CcidReply.bytes, List.append_assoc,
    List.length_append, length_header]

/-- `queue_response` puts a reply that fits on its way, or in the queue. -/
theorem queueResponse_eq {c : CcidClass η} (hwf : Wf c) {r : CcidReply}
    (hdata : r.data.length ≤ 278) :
    queueResponse r c = if c.txActive then flushTx (queued r c) else flushTx (placed r c) := by
  have hfits : ∀ {buf : Bytes}, buf.length = 288 → ccidHeaderLen + r.data.length ≤ buf.length := by
    intro buf hbuf
    rw [hbuf, ccidHeaderLen]
    omega
  unfold queueResponse
  simp only [maxPayloadLen, Nat.min_eq_left hdata, Checked.slice_zero (Nat.le_refl _),
    List.take_length]
  split
  · show (Checked.copyAt c.qBuf ccidHeaderLen r.data >>= _) = _
    rw [Checked.copyAt_ok (hfits hwf.qBuf)]
    show sealQ r r.data.length _ = _
    unfold sealQ queued
    rw [length_bytes]
    simp only [ccidHeaderLen]
    rw [header_splice r (hfits hwf.qBuf), length_bytes]
  · show (Checked.copyAt c.txBuf ccidHeaderLen r.data >>= _) = _
    rw [Checked.copyAt_ok (hfits hwf.txBuf)]
    show sealTx r r.data.length _ = _
    unfold sealTx placed
    rw [length_bytes]
    simp only [ccidHeaderLen]
    rw [header_splice r (hfits hwf.txBuf), length_bytes]

theorem length_overwrite {new old : Bytes} (h : new.length ≤ old.length) :
    (new ++ old.drop new.length).length = old.length := by
  rw [List.length_append, List.length_drop]
  omega

theorem wf_queued {c : CcidClass η} (hwf : Wf c) {r : CcidReply} (hdata : r.data.length ≤ 278) :
    Wf (queued r c) := by
  have hlen : r.bytes.length ≤ 288 := by
    rw [length_bytes]
    omega
  refine { hwf with qBuf := ?_, qLen := hlen }
  rw [queued, length_overwrite (by rw [hwf.qBuf]; exact hlen)]
  exact hwf.qBuf

theorem wf_placed {c : CcidClass η} (hwf : Wf c) {r : CcidReply} (hdata : r.data.length ≤ 278) :
    Wf (placed r c) := by
  have hlen : r.bytes.length ≤ 288 := by
    rw [length_bytes]
    omega
  refine { hwf with txBuf := ?_, tx := .inl ⟨?_, hlen⟩ }
  · rw [placed, length_overwrite (by rw [hwf.txBuf]; exact hlen)]
    exact hwf.txBuf
  · show 0 < r.bytes.length
    rw [length_bytes]
    omega

theorem queueResponse_ok {c : CcidClass η} (hwf : Wf c) {r : CcidReply}
    (hdata : r.data.length ≤ 278) :
    ∃ c', queueResponse r c = .ok c' ∧ Wf c' ∧ Outward c c' := by
  rw [queueResponse_eq hwf hdata]
  split
  · obtain ⟨c', hrun, hwf', hout⟩ := flushTx_ok (wf_queued hwf hdata)
    exact ⟨c', hrun, hwf', Outward.trans ⟨_, _, _, _, _, _, _, rfl⟩ hout⟩
  · obtain ⟨c', hrun, hwf', hout⟩ := flushTx_ok (wf_placed hwf hdata)
    exact ⟨c', hrun, hwf', Outward.trans ⟨_, _, _, _, _, _, _, rfl⟩ hout⟩

/-! ## Receiving -/

theorem wf_clearRx {c : CcidClass η} (hwf : Wf c) : Wf c.clearRx :=
  { hwf with rxLen := Nat.zero_le _ }

/-- The class with a packet at the end of what it has received. -/
def received (chunk : Bytes) (c : CcidClass η) : CcidClass η :=
  { c with
    rxBuf := c.rxBuf.splice c.rxLen (chunk.take (288 - c.rxLen))
    rxLen := c.rxLen + min chunk.length (288 - c.rxLen) }

theorem wf_received {c : CcidClass η} (hwf : Wf c) (chunk : Bytes) : Wf (received chunk c) := by
  have hlen := hwf.rxLen
  refine { hwf with rxBuf := ?_, rxLen := ?_ }
  · rw [received, Bytes.length_splice]
    · exact hwf.rxBuf
    · rw [List.length_take, hwf.rxBuf]
      omega
  · show c.rxLen + _ ≤ 288
    omega

/-- What `rxConclude` concludes. -/
def concluded (chunk : Bytes) (n : Nat) (c : CcidClass η) : CcidClass η :=
  if n < chunk.length then { c with rxOverflow := true, rxReady := true }
  else if chunk.length < 64 then { c with rxReady := true }
  else if 10 ≤ c.rxLen then
    if 278 < c.dwLength then { c with rxOverflow := true, rxReady := true }
    else if 10 + c.dwLength ≤ c.rxLen then { c with rxReady := true }
    else c
  else c

theorem rxConclude_eq (chunk : Bytes) (n : Nat) (c : CcidClass η) :
    rxConclude chunk n c = .ok (concluded chunk n c) := by
  unfold rxConclude concluded packetSize ccidHeaderLen maxPayloadLen
  split
  · rfl
  · split
    · rfl
    · split
      · split
        · rfl
        · next hshort =>
            rw [Checked.add_ok (by omega)]
            show (if 10 + c.dwLength ≤ c.rxLen then _ else _) = _
            split <;> rfl
      · rfl

theorem wf_concluded {c : CcidClass η} (hwf : Wf c) (chunk : Bytes) (n : Nat) :
    Wf (concluded chunk n c) := by
  unfold concluded
  split
  · exact { hwf with }
  · split
    · exact { hwf with }
    · split
      · split
        · exact { hwf with }
        · split
          · exact { hwf with }
          · exact hwf
      · exact hwf

/-- The class after a packet. -/
def appended (chunk : Bytes) (c : CcidClass η) : CcidClass η :=
  if c.rxReady then c
  else concluded chunk (min chunk.length (288 - c.rxLen)) (received chunk c)

theorem rxAppend_eq {c : CcidClass η} (hwf : Wf c) (chunk : Bytes) :
    rxAppend chunk c = .ok (appended chunk c) := by
  have hlen := hwf.rxLen
  unfold rxAppend appended
  split
  · rfl
  · rw [Checked.sub_ok (show c.rxLen ≤ maxMsgLen from hlen)]
    show (Checked.slice chunk 0 (min chunk.length (288 - c.rxLen)) >>= _) = _
    rw [Checked.slice_zero (Nat.min_le_left _ _)]
    have hpart : chunk.take (min chunk.length (288 - c.rxLen)) = chunk.take (288 - c.rxLen) := by
      by_cases hmin : chunk.length ≤ 288 - c.rxLen
      · rw [Nat.min_eq_left hmin, List.take_length, List.take_of_length_le hmin]
      · rw [Nat.min_eq_right (by omega)]
    show (Checked.copyAt c.rxBuf c.rxLen (chunk.take (min chunk.length (288 - c.rxLen))) >>= _) = _
    rw [hpart, Checked.copyAt_ok (by rw [List.length_take, hwf.rxBuf]; omega)]
    show (Checked.add c.rxLen (min chunk.length (288 - c.rxLen)) >>= _) = _
    rw [Checked.add_ok (by omega)]
    exact rxConclude_eq chunk _ (received chunk c)

theorem wf_appended {c : CcidClass η} (hwf : Wf c) (chunk : Bytes) : Wf (appended chunk c) := by
  unfold appended
  split
  · exact hwf
  · exact wf_concluded (wf_received hwf chunk) chunk _

/-! ## Dispatch -/

/-- The sum of the header and `dwLength` leaves 32 bits. -/
def Overflows (c : CcidClass η) : Prop :=
  c.rxOverflow = false ∧ 10 ≤ c.rxLen ∧ 2 ^ 32 ≤ 10 + c.dwLength

instance (c : CcidClass η) : Decidable (Overflows c) := inferInstanceAs (Decidable (_ ∧ _ ∧ _))

/-- The class returns, and its buffers and lengths are in order. -/
def Returns (result : Except Panic (CcidClass η)) : Prop := ∃ c', result = .ok c' ∧ Wf c'

theorem returns_queueResponse {c : CcidClass η} (hwf : Wf c) {r : CcidReply}
    (hdata : r.data.length ≤ 278) : Returns (queueResponse r c) := by
  obtain ⟨c', hrun, hwf', -⟩ := queueResponse_ok hwf hdata
  exact ⟨c', hrun, hwf'⟩

theorem returns_flushTx {c : CcidClass η} (hwf : Wf c) : Returns (flushTx c) := by
  obtain ⟨c', hrun, hwf', -⟩ := flushTx_ok hwf
  exact ⟨c', hrun, hwf'⟩

theorem returns_slotFailure {c : CcidClass η} (hwf : Wf c) (slot seq error : UInt8) :
    Returns (slotFailure slot seq error c) := returns_queueResponse (wf_clearRx hwf) (Nat.zero_le _)

theorem returns_slotStatus {c : CcidClass η} (hwf : Wf c) (slot seq : UInt8) :
    Returns (slotStatus slot seq c) := returns_queueResponse (wf_clearRx hwf) (Nat.zero_le _)

theorem returns_queueParameters {c : CcidClass η} (hwf : Wf c) (slot seq : UInt8) :
    Returns (queueParameters slot seq c) := by
  refine returns_queueResponse (wf_clearRx hwf) ?_
  show c.params.length ≤ 278
  rw [hwf.params]
  decide

theorem returns_setParameters {c : CcidClass η} (hwf : Wf c) (slot seq : UInt8) :
    Returns (setParameters slot seq c) := by
  unfold setParameters
  split
  · have hparams : ((c.rxBuf.drop 10).take 5).length = 5 := by
      rw [List.length_take, List.length_drop, hwf.rxBuf]
      rfl
    exact returns_queueParameters (c := { c with params := (c.rxBuf.drop 10).take 5 })
      { hwf with params := hparams } slot seq
  · exact returns_slotFailure hwf slot seq _

/-- The APDU in the message received. -/
def abData (c : CcidClass η) : Bytes := (c.rxBuf.drop 10).take c.dwLength

theorem length_abData {c : CcidClass η} (hwf : Wf c) (hwhole : 10 + c.dwLength ≤ c.rxLen) :
    (abData c).length = c.dwLength := by
  have hlen := hwf.rxLen
  rw [abData, List.length_take, List.length_drop, hwf.rxBuf]
  omega

theorem slice_abData {c : CcidClass η} (hwf : Wf c) (hwhole : 10 + c.dwLength ≤ c.rxLen) :
    Checked.slice c.rxBuf 10 (10 + c.dwLength) = .ok (abData c) := by
  have hlen := hwf.rxLen
  rw [Checked.slice_ok (by omega) (by rw [hwf.rxBuf]; omega), abData, Nat.add_sub_cancel_left]

/-- The class with an XfrBlock retained. -/
def retained (slot seq : UInt8) (apdu : Bytes) (c : CcidClass η) : CcidClass η :=
  { c.clearRx with
    pendingApdu := apdu ++ c.pendingApdu.drop apdu.length
    pendingLen := apdu.length
    pendingSlot := slot
    pendingSeq := seq
    pending := true }

theorem retain_eq {c : CcidClass η} (hwf : Wf c) {apdu : Bytes} (hapdu : apdu.length ≤ 278)
    (slot seq : UInt8) : retain slot seq apdu c = .ok (retained slot seq apdu c) := by
  unfold retain
  rw [Checked.copyAt_ok (by rw [hwf.pendingApdu, Nat.zero_add]; exact hapdu), Bytes.splice,
    List.take_zero, List.nil_append, Nat.zero_add]
  rfl

theorem wf_retained {c : CcidClass η} (hwf : Wf c) {apdu : Bytes} (hapdu : apdu.length ≤ 278)
    (slot seq : UInt8) : Wf (retained slot seq apdu c) := by
  refine { wf_clearRx hwf with pendingApdu := ?_, pendingLen := hapdu }
  rw [retained, length_overwrite (by rw [hwf.pendingApdu]; exact hapdu)]
  exact hwf.pendingApdu

theorem length_resealed {old new : Bytes} (r : CcidReply) (n : Nat) (hold : old.length = 288)
    (hnew : new.length = 278) : (r.header n ++ (old.take 10 ++ new).drop 10).length = 288 := by
  rw [List.length_append, length_header, List.length_drop, List.length_append, List.length_take,
    hold, hnew]
  rfl

/-- The handler is called once, with the APDU, and its reply is put on its way or in the queue. -/
theorem handle_ok {c : CcidClass η} (hwf : Wf c) (handler : CcidApduHandler η) (slot seq : UInt8)
    (apdu : Bytes) : ∃ c' scratch handlerState, handle handler slot seq apdu c = .ok c' ∧ Wf c' ∧
      handlerState = (handler.call c.handlerState apdu scratch).2 ∧
      Outward { c with handlerState := handlerState } c' := by
  have hbuf : (if c.txActive then c.qBuf else c.txBuf).length = 288 := by
    split
    · exact hwf.qBuf
    · exact hwf.txBuf
  generalize hscratch : ((if c.txActive then c.qBuf else c.txBuf).drop 10).take 278 = scratch
  have hlen : scratch.length = 278 := by
    rw [← hscratch, List.length_take, List.length_drop, hbuf]
    rfl
  have hnew := handler.length_call c.handlerState apdu scratch
  rw [hlen] at hnew
  generalize hresult : handler.call c.handlerState apdu scratch = result at hnew
  have hslice : Checked.slice (if c.txActive then c.qBuf else c.txBuf) ccidHeaderLen maxMsgLen =
      .ok scratch := by
    rw [← hscratch]
    exact Checked.slice_ok (by decide) (Nat.le_of_eq hbuf.symm)
  unfold handle
  rw [hslice]
  show ∃ c' s h, (if c.txActive then _ else _) = _ ∧ _
  rw [hresult]
  have hn : 10 + min result.1.2 278 ≤ 288 := by omega
  split
  · obtain ⟨c', hrun, hwf', hout⟩ := flushTx_ok (c := { c with
      handlerState := result.2
      qBuf := CcidReply.header ⟨rdrToPcDatablock, slot, seq, c.okStatus, 0x00, 0x00, []⟩
        (min result.1.2 278) ++ (c.qBuf.take 10 ++ result.1.1).drop 10
      qLen := 10 + min result.1.2 278 })
      { hwf with qBuf := length_resealed _ _ hwf.qBuf hnew, qLen := hn }
    refine ⟨c', scratch, result.2, hrun, hwf', by rw [hresult], ?_⟩
    exact Outward.trans ⟨_, _, _, _, _, _, _, rfl⟩ hout
  · obtain ⟨c', hrun, hwf', hout⟩ := flushTx_ok (c := { c with
      handlerState := result.2
      txBuf := CcidReply.header ⟨rdrToPcDatablock, slot, seq, c.okStatus, 0x00, 0x00, []⟩
        (min result.1.2 278) ++ (c.txBuf.take 10 ++ result.1.1).drop 10
      txLen := 10 + min result.1.2 278
      txSent := 0 })
      { hwf with
        txBuf := length_resealed _ _ hwf.txBuf hnew
        tx := .inl ⟨Nat.lt_of_lt_of_le (Nat.zero_lt_succ 9) (Nat.le_add_right 10 _), hn⟩ }
    refine ⟨c', scratch, result.2, hrun, hwf', by rw [hresult], ?_⟩
    exact Outward.trans ⟨_, _, _, _, _, _, _, rfl⟩ hout

variable (handler : Option (CcidApduHandler η))

theorem returns_xfrBlock {c : CcidClass η} (hwf : Wf c) (hwhole : 10 + c.dwLength ≤ c.rxLen)
    (slot seq : UInt8) : Returns (xfrBlock handler slot seq c) := by
  have hlen := hwf.rxLen
  unfold xfrBlock
  split
  · exact returns_queueResponse (wf_clearRx hwf) (Nat.zero_le _)
  · split
    · exact returns_queueResponse (wf_clearRx hwf) (Nat.zero_le _)
    · rw [Checked.add_ok (by rw [ccidHeaderLen]; omega)]
      show Returns (Checked.slice c.rxBuf 10 (10 + c.dwLength) >>= _)
      rw [slice_abData hwf hwhole]
      have hapdu : (abData c).length ≤ 278 := by
        rw [length_abData hwf hwhole]
        omega
      cases handler with
      | none => exact ⟨_, retain_eq hwf hapdu slot seq, wf_retained hwf hapdu slot seq⟩
      | some handler =>
          obtain ⟨c', -, -, hrun, hwf', -⟩ := handle_ok hwf handler slot seq (abData c)
          exact ⟨c', hrun, hwf'⟩

theorem returns_dispatchType {c : CcidClass η} (hwf : Wf c) (hwhole : 10 + c.dwLength ≤ c.rxLen)
    (msgType slot seq : UInt8) : Returns (dispatchType handler msgType slot seq c) := by
  unfold dispatchType
  split
  · exact returns_queueResponse (c := { c.clearRx with powered := true }) { wf_clearRx hwf with }
      (show t0Atr.length ≤ 278 by decide)
  · split
    · exact returns_slotStatus (c := { c with powered := false }) { hwf with } slot seq
    · split
      · exact returns_slotStatus hwf slot seq
      · split
        · exact returns_queueParameters hwf slot seq
        · split
          · exact returns_setParameters hwf slot seq
          · split
            · exact returns_slotStatus (c := { c with pending := false, respAwaiting := false })
                { hwf with } slot seq
            · split
              · exact returns_xfrBlock handler hwf hwhole slot seq
              · exact returns_slotFailure hwf slot seq _

theorem returns_dispatchRx {c : CcidClass η} (hwf : Wf c) (hsmall : ¬Overflows c) :
    Returns (dispatchRx handler c) := by
  unfold dispatchRx
  simp only
  split
  · exact returns_slotFailure hwf _ _ _
  · next hover =>
      split
      · exact returns_slotFailure hwf _ _ _
      · next hheader =>
          have hsum : ccidHeaderLen + c.dwLength < 2 ^ 32 := by
            by_contra hbig
            exact hsmall ⟨by simpa using hover, Nat.le_of_not_lt hheader, Nat.le_of_not_lt hbig⟩
          rw [Checked.add_ok hsum]
          show Returns (if c.rxLen < 10 + c.dwLength then _ else _)
          split
          · exact returns_slotFailure hwf _ _ _
          · next hwhole => exact returns_dispatchType handler hwf (Nat.le_of_not_lt hwhole) _ _ _

theorem dispatchRx_overflow {c : CcidClass η} (hbig : Overflows c) :
    dispatchRx handler c = .error .overflow := by
  obtain ⟨hover, hheader, hsum⟩ := hbig
  unfold dispatchRx
  simp only
  rw [hover, if_neg Bool.false_ne_true, ccidHeaderLen, if_neg (Nat.not_lt.mpr hheader), Checked.add,
    if_neg (Nat.not_lt.mpr hsum)]
  rfl

/-- `process` returns unless it dispatches a message whose length leaves 32 bits. -/
theorem returns_process {c : CcidClass η} (hwf : Wf c)
    (hsmall : c.rxReady = true → ¬Overflows c) : Returns (process handler c) := by
  unfold process
  split
  · next hready =>
      obtain ⟨c', hrun, hwf'⟩ := returns_dispatchRx handler hwf (hsmall hready)
      rw [hrun]
      exact returns_flushTx hwf'
  · exact returns_flushTx hwf

theorem process_overflow {c : CcidClass η} (hready : c.rxReady = true) (hbig : Overflows c) :
    process handler c = .error .overflow := by
  unfold process
  rw [if_pos hready, dispatchRx_overflow handler hbig]
  rfl

/-- A message that declares more bytes than have come is refused before its data are looked at. -/
theorem dispatchRx_underrun {c : CcidClass η} (hover : c.rxOverflow = false)
    (hheader : 10 ≤ c.rxLen) (hshort : c.rxLen < 10 + c.dwLength)
      (hsum : 10 + c.dwLength < 2 ^ 32) :
    dispatchRx handler c = slotFailure (c.rxByte 5) (c.rxByte 6) berrXfrUnderrun c := by
  unfold dispatchRx
  simp only
  rw [hover, if_neg Bool.false_ne_true, ccidHeaderLen, if_neg (Nat.not_lt.mpr hheader),
    Checked.add_ok hsum]
  exact if_pos hshort

/-! ## Runs -/

/-- A call on the class: a packet of the host, or a call of the device. -/
inductive Call
  | packet (chunk : Bytes)
  | process
  | flush
  | take (bufLen : Nat)
  | send (resp : Bytes)
  | reset
  deriving DecidableEq

/-- The class after a call. -/
def step (c : CcidClass η) : Call → Except Panic (CcidClass η)
  | .packet chunk => rxAppend chunk c
  | .process => process handler c
  | .flush => flushTx c
  | .take bufLen => (takePendingRequest bufLen c).map (·.2)
  | .send resp => (sendResponse resp c).map (·.2)
  | .reset => .ok c.reset

/-- The class after calls. -/
def runCalls (c : CcidClass η) : List Call → Except Panic (CcidClass η)
  | [] => .ok c
  | call :: calls => do
      let c ← step handler c call
      runCalls c calls

variable {handler} in
theorem runCalls_cons {c next : CcidClass η} {call : Call} (calls : List Call)
    (hstep : step handler c call = .ok next) :
    runCalls handler c (call :: calls) = runCalls handler next calls := by
  rw [runCalls, hstep]
  rfl

variable {handler} in
theorem runCalls_cons_eq_ok {c c' : CcidClass η} {call : Call} {calls : List Call} :
    runCalls handler c (call :: calls) = .ok c' ↔
      ∃ next, step handler c call = .ok next ∧ runCalls handler next calls = .ok c' := by
  constructor
  · intro hrun
    cases hstep : step handler c call with
    | error e =>
        rw [runCalls, hstep] at hrun
        cases hrun
    | ok next => exact ⟨next, rfl, (runCalls_cons calls hstep).symm.trans hrun⟩
  · rintro ⟨next, hstep, hrun⟩
    exact (runCalls_cons calls hstep).trans hrun

/-- The call dispatches a message whose length leaves 32 bits. -/
def Dangerous (c : CcidClass η) (call : Call) : Prop :=
  call = .process ∧ c.rxReady = true ∧ Overflows c

instance (c : CcidClass η) (call : Call) : Decidable (Dangerous c call) :=
  inferInstanceAs (Decidable (_ ∧ _ ∧ _))

/-- No call of a run is dangerous. -/
def Small : CcidClass η → List Call → Prop
  | _, [] => True
  | c, call :: calls => ¬Dangerous c call ∧ ∀ c', step handler c call = .ok c' → Small c' calls

theorem returns_sendResponse {c : CcidClass η} (hwf : Wf c) (resp : Bytes) :
    Returns ((sendResponse resp c).map (·.2)) := by
  unfold sendResponse
  split
  · exact ⟨c, rfl, hwf⟩
  · split
    · exact ⟨c, rfl, hwf⟩
    · next hlong =>
        obtain ⟨c', hrun, hwf'⟩ := returns_queueResponse (c := { c with respAwaiting := false })
          { hwf with } (r := ⟨rdrToPcDatablock, c.pendingSlot, c.pendingSeq, c.okStatus, 0x00, 0x00,
            resp⟩) (Nat.le_of_not_lt hlong)
        rw [hrun]
        exact ⟨c', rfl, hwf'⟩

theorem returns_takePendingRequest {c : CcidClass η} (hwf : Wf c) (bufLen : Nat) :
    Returns ((takePendingRequest bufLen c).map (·.2)) := by
  have hlen := hwf.pendingLen
  unfold takePendingRequest
  split
  · rw [Checked.slice_zero (by rw [hwf.pendingApdu]; omega)]
    exact ⟨_, rfl, { hwf with pendingLen := Nat.zero_le _ }⟩
  · exact ⟨c, rfl, hwf⟩

theorem returns_step {c : CcidClass η} (hwf : Wf c) {call : Call} (hsmall : ¬Dangerous c call) :
    Returns (step handler c call) := by
  cases call with
  | packet chunk => exact ⟨_, rxAppend_eq hwf chunk, wf_appended hwf chunk⟩
  | process => exact returns_process handler hwf fun hready hbig => hsmall ⟨rfl, hready, hbig⟩
  | flush => exact returns_flushTx hwf
  | take bufLen => exact returns_takePendingRequest hwf bufLen
  | send resp => exact returns_sendResponse hwf resp
  | reset => exact ⟨_, rfl, { wf_clearRx hwf with tx := .inr ⟨rfl, rfl⟩, qLen := Nat.zero_le _ }⟩

/-- A run returns exactly when no call is dangerous. -/
theorem runCalls_returns_iff (calls : List Call) : ∀ {c : CcidClass η}, Wf c →
    ((∃ c', runCalls handler c calls = .ok c') ↔ Small handler c calls) := by
  induction calls with
  | nil => exact fun {c} _ => ⟨fun _ => trivial, fun _ => ⟨c, rfl⟩⟩
  | cons call calls ih =>
      intro c hwf
      by_cases hdanger : Dangerous c call
      · refine ⟨?_, fun hsmall => absurd hdanger hsmall.1⟩
        rintro ⟨c', hrun⟩
        obtain ⟨rfl, hready, hbig⟩ := hdanger
        rw [runCalls, step, process_overflow handler hready hbig] at hrun
        cases hrun
      · obtain ⟨next, hstep, hwf'⟩ := returns_step handler hwf hdanger
        rw [runCalls_cons calls hstep]
        refine (ih hwf').trans ⟨fun hrest => ⟨hdanger, fun c' hc' => ?_⟩, fun h => h.2 next hstep⟩
        rw [hstep] at hc'
        obtain rfl := Except.ok.inj hc'
        exact hrest

/-- From the start, a run panics exactly when it dispatches a message whose `dwLength` and header
leave 32 bits; any other message that declares more than has come is refused before its data are
looked at. -/
theorem ccid_returns_iff (handlerState : η) (answers : Nat → EndpointAnswer) (calls : List Call) :
    ((∃ c, runCalls handler (new handlerState answers) calls = .ok c) ↔
        Small handler (new handlerState answers) calls) ∧
      ∀ c : CcidClass η, c.rxOverflow = false → 10 ≤ c.rxLen → c.rxLen < 10 + c.dwLength →
        10 + c.dwLength < 2 ^ 32 →
        dispatchRx handler c = slotFailure (c.rxByte 5) (c.rxByte 6) berrXfrUnderrun c :=
  ⟨runCalls_returns_iff handler calls (wf_new handlerState answers),
    fun _ hover hheader hshort hsum =>
    dispatchRx_underrun handler hover hheader hshort hsum⟩

/-- An XfrBlock that declares a byte more than it has, received and refused. -/
theorem ccid_returns_iff_underrun :
    Small none (new () fun _ => .wouldBlock)
        [.packet [0x6F, 0x01, 0x00, 0x00, 0x00, 0x00, 0x00, 0x00, 0x00, 0x00]] ∧
      dispatchRx none (appended [0x6F, 0x01, 0x00, 0x00, 0x00, 0x00, 0x00, 0x00, 0x00, 0x00]
          (new () fun _ => .wouldBlock)) =
        slotFailure 0x00 0x00 berrXfrUnderrun
          (appended [0x6F, 0x01, 0x00, 0x00, 0x00, 0x00, 0x00, 0x00, 0x00, 0x00]
            (new () fun _ => .wouldBlock)) := by
  obtain ⟨hiff, hunder⟩ := ccid_returns_iff none () (fun _ => .wouldBlock)
    [.packet [0x6F, 0x01, 0x00, 0x00, 0x00, 0x00, 0x00, 0x00, 0x00, 0x00]]
  have hrun : runCalls none (new () fun _ => .wouldBlock)
      [.packet [0x6F, 0x01, 0x00, 0x00, 0x00, 0x00, 0x00, 0x00, 0x00, 0x00]] =
        .ok (appended [0x6F, 0x01, 0x00, 0x00, 0x00, 0x00, 0x00, 0x00, 0x00, 0x00]
          (new () fun _ => .wouldBlock)) := by
    rw [runCalls, step, rxAppend_eq (wf_new _ _)]
    rfl
  exact ⟨hiff.mp ⟨_, hrun⟩, hunder _ (by decide +kernel) (by decide +kernel) (by decide +kernel)
    (by decide +kernel)⟩

/-- An XfrBlock of ten bytes that declares the largest length. -/
theorem ccid_largest_length_panics :
    runCalls none (new () fun _ => .wouldBlock)
      [.packet [0x6F, 0xFF, 0xFF, 0xFF, 0xFF, 0x00, 0x00, 0x00, 0x00, 0x00], .process] =
        .error .overflow := by
  have hpanic : process none (appended [0x6F, 0xFF, 0xFF, 0xFF, 0xFF, 0x00, 0x00, 0x00, 0x00, 0x00]
      (new () fun _ => .wouldBlock)) = .error .overflow :=
    process_overflow none (by decide +kernel) (by decide +kernel)
  rw [runCalls, step, rxAppend_eq (wf_new _ _)]
  generalize appended _ (new () fun _ => .wouldBlock) = c at hpanic ⊢
  show (process none c >>= fun c => runCalls none c []) = _
  rw [hpanic]
  rfl

end CcidClass

end OpenKey
