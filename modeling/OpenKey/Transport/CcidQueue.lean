import OpenKey.Transport.CcidReplies
import Mathlib.Algebra.Order.BigOperators.Group.List

/-!
# No reply is lost

The replies that the class owes are kept in a ledger: one for each message that is not accepted when
it is dispatched, and one for each response that the application sends, in the slot and with the
sequence number of the XfrBlock that was accepted.

An `Account` divides the packets on the wire and the two buffers into messages. **Main result
(`replies_carried`).** As long as no reply is made while another of a kept type waits in the queue,
the accounts and the ledger agree on the replies of the kept types, in their order.

The step lemmas follow the data: `Account.promote`, `Account.carry` and `Account.finish` for the
turns of `flush_tx`, `Account.place` and `Account.enqueue` for a new reply.
-/

namespace OpenKey

set_option autoImplicit false

namespace CcidClass

variable {η : Type}

/-! ## Accounts -/

/-- The messages that the class has sent, is sending, and will send. -/
structure Account (c : CcidClass η) where
  sent : List (CcidReply × List Bytes)
  current : List Bytes
  active : Option CcidReply
  queue : Option CcidReply
  /-- The packets on the wire are those of the messages, one after the other. -/
  wire : c.wire = sent.flatMap (fun m => m.2) ++ current
  short : ∀ packet ∈ c.wire, packet.length ≤ 64
  whole : ∀ m ∈ sent, m.2.flatten = m.1.bytes
  begun : ∀ r, active = some r →
    c.txActive = true ∧ c.txBuf.take c.txLen = r.bytes ∧ current.flatten = r.bytes.take c.txSent
  idle : active = none → c.txActive = false ∧ current = []
  waiting : ∀ r, queue = some r → 0 < c.qLen ∧ c.qBuf.take c.qLen = r.bytes
  vacant : queue = none → c.qLen = 0

namespace Account

/-- The replies of an account, in the order of their sending. -/
def replies {c : CcidClass η} (a : Account c) : List CcidReply :=
  a.sent.map (fun m => m.1) ++ a.active.toList ++ a.queue.toList

/-- Nothing is sent at first. -/
def empty (handlerState : η) (answers : Nat → EndpointAnswer) :
    Account (new handlerState answers) where
  sent := []
  current := []
  active := none
  queue := none
  wire := rfl
  short := fun _ h => absurd h List.not_mem_nil
  whole := fun _ h => absurd h List.not_mem_nil
  begun := fun _ h => nomatch h
  idle := fun _ => ⟨rfl, rfl⟩
  waiting := fun _ h => nomatch h
  vacant := fun _ => rfl

end Account

/-- The two agree on what is being sent. -/
structure Inward (c c' : CcidClass η) : Prop where
  txBuf : c'.txBuf = c.txBuf
  txLen : c'.txLen = c.txLen
  txSent : c'.txSent = c.txSent
  qBuf : c'.qBuf = c.qBuf
  qLen : c'.qLen = c.qLen
  wire : c'.wire = c.wire

theorem Inward.txActive {c c' : CcidClass η} (h : Inward c c') : c'.txActive = c.txActive := by
  unfold CcidClass.txActive
  rw [h.txSent, h.txLen]

namespace Account

variable {c : CcidClass η}

/-- The account of a class that sends the same. -/
def inward {c' : CcidClass η} (h : Inward c c') (a : Account c) : Account c' where
  sent := a.sent
  current := a.current
  active := a.active
  queue := a.queue
  wire := h.wire.trans a.wire
  short := by
    rw [h.wire]
    exact a.short
  whole := a.whole
  begun r hr := by
    rw [h.txActive, h.txBuf, h.txLen, h.txSent]
    exact a.begun r hr
  idle hnone := by
    rw [h.txActive]
    exact a.idle hnone
  waiting r hr := by
    rw [h.qLen, h.qBuf]
    exact a.waiting r hr
  vacant hnone := h.qLen.trans (a.vacant hnone)

theorem active_none (a : Account c) (h : c.txActive = false) : a.active = none := by
  cases hactive : a.active with
  | none => rfl
  | some r => exact absurd ((a.begun r hactive).1.symm.trans h) (by decide)

theorem active_some (a : Account c) (h : c.txActive = true) : ∃ r, a.active = some r := by
  cases hactive : a.active with
  | none => exact absurd (h.symm.trans (a.idle hactive).1) (by decide)
  | some r => exact ⟨r, rfl⟩

theorem queue_none (a : Account c) (h : c.qLen = 0) : a.queue = none := by
  cases hqueue : a.queue with
  | none => rfl
  | some r => exact absurd h (Nat.ne_of_gt (a.waiting r hqueue).1)

/-! ## A new reply -/

theorem take_overwrite (new old : Bytes) : (new ++ old).take new.length = new := by
  rw [List.take_append_of_le_length (Nat.le_refl _), List.take_length]

theorem bytes_pos (r : CcidReply) : 0 < r.bytes.length := by
  rw [length_bytes]
  omega

/-- A reply while nothing is on its way. -/
def place (a : Account c) (r : CcidReply) (hidle : c.txActive = false) : Account (placed r c) where
  sent := a.sent
  current := []
  active := some r
  queue := a.queue
  wire := by
    have hcurrent := (a.idle (a.active_none hidle)).2
    show c.wire = _
    rw [a.wire, hcurrent]
  short := a.short
  whole := a.whole
  begun r' hr := by
    obtain rfl := Option.some.inj hr
    exact ⟨txActive_iff.mpr (bytes_pos r), take_overwrite _ _, rfl⟩
  idle h := nomatch h
  waiting := a.waiting
  vacant := a.vacant

/-- A reply while another is on its way. -/
def enqueue (a : Account c) (r : CcidReply) : Account (queued r c) where
  sent := a.sent
  current := a.current
  active := a.active
  queue := some r
  wire := a.wire
  short := a.short
  whole := a.whole
  begun := a.begun
  idle := a.idle
  waiting r' hr := by
    obtain rfl := Option.some.inj hr
    exact ⟨bytes_pos r, take_overwrite _ _⟩
  vacant h := nomatch h

/-! ## The turns of `flush_tx` -/

/-- The queue is promoted. -/
def promote (a : Account c) (hwf : Wf c) (hidle : c.txActive = false) (hq : 0 < c.qLen) :
    Account (promoted c) where
  sent := a.sent
  current := []
  active := a.queue
  queue := none
  wire := by
    have hcurrent := (a.idle (a.active_none hidle)).2
    show c.wire = _
    rw [a.wire, hcurrent]
  short := a.short
  whole := a.whole
  begun r hr := by
    have hlen : (c.qBuf.take c.qLen).length = c.qLen := by
      rw [List.length_take, hwf.qBuf]
      exact Nat.min_eq_left hwf.qLen
    refine ⟨txActive_iff.mpr hq, ?_, rfl⟩
    show (c.qBuf.take c.qLen ++ c.txBuf.drop c.qLen).take c.qLen = r.bytes
    rw [List.take_append_of_le_length (Nat.le_of_eq hlen.symm), List.take_take, Nat.min_self]
    exact (a.waiting r hr).2
  idle hnone := absurd (a.vacant hnone) (Nat.ne_of_gt hq)
  waiting _ h := nomatch h
  vacant _ := rfl

theorem replies_promote (a : Account c) (hwf : Wf c) (hidle : c.txActive = false)
    (hq : 0 < c.qLen) : (a.promote hwf hidle hq).replies = a.replies := by
  simp [replies, promote, a.active_none hidle]

/-- What the endpoint takes of the next packet. -/
theorem take_nextPacket {r : CcidReply} {n : Nat} (hwf : Wf c) (hactive : c.txActive = true)
    (hbytes : c.txBuf.take c.txLen = r.bytes) (hn : n ≤ (nextPacket c).length) :
    r.bytes.take c.txSent ++ (nextPacket c).take n = r.bytes.take (c.txSent + n) := by
  have hlen := length_nextPacket hwf hactive
  have hlt := txActive_iff.mp hactive
  have hwindow : (r.bytes.drop c.txSent).take n = (c.txBuf.drop c.txSent).take n := by
    rw [← hbytes, List.drop_take, List.take_take, Nat.min_eq_left (by omega)]
  rw [nextPacket, List.take_take, Nat.min_eq_left (by omega), List.take_add, hwindow]

/-- The endpoint takes a part of a packet that leaves more to send. -/
def carry (a : Account c) (packet : Bytes) (hpacket : packet.length ≤ 64) (r : CcidReply)
    (hr : a.active = some r) (sent : Nat)
    (hmore : sent < c.txLen) (hflat : a.current.flatten ++ packet = r.bytes.take sent)
    (answers : Nat → EndpointAnswer) :
    Account { c with txSent := sent, wire := c.wire ++ [packet], answers := answers } where
  sent := a.sent
  current := a.current ++ [packet]
  active := a.active
  queue := a.queue
  wire := by
    show c.wire ++ [packet] = _
    rw [a.wire, List.append_assoc]
  short p hp := (List.mem_append.mp hp).elim (a.short p) fun h => List.mem_singleton.mp h ▸ hpacket
  whole := a.whole
  begun r' hr' := by
    obtain rfl := Option.some.inj (hr.symm.trans hr')
    refine ⟨txActive_iff.mpr hmore, (a.begun r hr).2.1, ?_⟩
    rw [List.flatten_append, List.flatten_singleton]
    exact hflat
  idle hnone := nomatch hr.symm.trans hnone
  waiting := a.waiting
  vacant := a.vacant

/-- The endpoint takes the last packet of a message. -/
def finish (a : Account c) (packet : Bytes) (hpacket : packet.length ≤ 64) (r : CcidReply)
    (hflat : a.current.flatten ++ packet = r.bytes) (answers : Nat → EndpointAnswer) :
    Account { c with txLen := 0, txSent := 0, wire := c.wire ++ [packet], answers := answers } where
  sent := a.sent ++ [(r, a.current ++ [packet])]
  current := []
  active := none
  queue := a.queue
  wire := by
    show c.wire ++ [packet] = _
    rw [a.wire, List.flatMap_append, List.append_nil, List.append_assoc, List.flatMap_singleton]
  short p hp := (List.mem_append.mp hp).elim (a.short p) fun h => List.mem_singleton.mp h ▸ hpacket
  whole m hm := by
    obtain h | h := List.mem_append.mp hm
    · exact a.whole m h
    · obtain rfl := List.mem_singleton.mp h
      rw [List.flatten_append, List.flatten_singleton]
      exact hflat
  begun _ h := nomatch h
  idle _ := ⟨rfl, rfl⟩
  waiting := a.waiting
  vacant := a.vacant

theorem replies_finish (a : Account c) (packet : Bytes) (hpacket : packet.length ≤ 64)
    (r : CcidReply) (hr : a.active = some r) (hflat : a.current.flatten ++ packet = r.bytes)
    (answers : Nat → EndpointAnswer) :
    (a.finish packet hpacket r hflat answers).replies = a.replies := by
  simp [replies, finish, hr]

end Account

/-- The replies that a class has sent, is sending, and will send. -/
def Carries (c : CcidClass η) (rs : List CcidReply) : Prop := ∃ a : Account c, a.replies = rs

theorem Carries.inward {c c' : CcidClass η} {rs : List CcidReply} (hcarries : Carries c rs)
    (h : Inward c c') : Carries c' rs := by
  obtain ⟨a, ha⟩ := hcarries
  exact ⟨a.inward h, ha⟩

theorem carries_promoted {c : CcidClass η} {rs : List CcidReply} (hwf : Wf c)
    (h : Carries c rs) (hidle : c.txActive = false) (hq : 0 < c.qLen) : Carries
      (promoted c) rs := by
  obtain ⟨a, ha⟩ := h
  exact ⟨a.promote hwf hidle hq, (a.replies_promote hwf hidle hq).trans ha⟩

/-- An offer to the endpoint loses nothing, if it does not fail. -/
theorem carries_offered {c : CcidClass η} {rs : List CcidReply} (hwf : Wf c) (h : Carries c rs)
    (hactive : c.txActive = true) (hanswer : c.answers 0 ≠ .failed) :
    Carries (offered c).1 rs := by
  have hpause : Carries { c with answers := fun i => c.answers (i + 1) } rs :=
    h.inward ⟨rfl, rfl, rfl, rfl, rfl, rfl⟩
  obtain ⟨a, ha⟩ := h
  obtain ⟨r, hr⟩ := a.active_some hactive
  obtain ⟨-, hbytes, hcurrent⟩ := a.begun r hr
  have hlen := length_nextPacket hwf hactive
  have hlt := txActive_iff.mp hactive
  unfold offered
  simp only
  cases hfirst : c.answers 0 with
  | failed => exact absurd hfirst hanswer
  | wouldBlock => exact hpause
  | wrote n =>
      simp only
      split
      · exact hpause
      · have hn : min n (nextPacket c).length ≤ (nextPacket c).length := Nat.min_le_right _ _
        have hflat := Account.take_nextPacket hwf hactive hbytes hn
        rw [← hcurrent] at hflat
        generalize min n (nextPacket c).length = k at hn hflat ⊢
        have hpacket : ((nextPacket c).take k).length ≤ 64 := by
          rw [List.length_take]
          omega
        rw [advance_eq]
        simp only
        by_cases hmore : c.txSent + k < c.txLen
        · rw [if_pos hmore, if_pos hmore]
          exact ⟨a.carry _ hpacket r hr _ hmore hflat _, ha⟩
        · rw [if_neg hmore, if_neg hmore]
          have hall : r.bytes.take (c.txSent + k) = r.bytes := by
            refine List.take_of_length_le ?_
            rw [← hbytes, List.length_take]
            omega
          rw [hall] at hflat
          exact ⟨a.finish _ hpacket r hflat _, (a.replies_finish _ _ _ hr _ _).trans ha⟩

/-! ## `flush_tx` -/

/-- The endpoint blocks at most. -/
def Patient (c : CcidClass η) : Prop := ∀ i, c.answers i ≠ .failed

theorem patient_offered {c : CcidClass η} (h : Patient c) : Patient (offered c).1 := by
  have hrest : ∀ i, c.answers (i + 1) ≠ .failed := fun i => h (i + 1)
  unfold offered
  simp only
  split
  · split
    · exact hrest
    · rw [advance_eq]
      exact hrest
  · exact hrest
  · exact hrest

/-- A message waits only while another is on its way. -/
def Orderly (c : CcidClass η) : Prop := c.txActive = false → c.qLen = 0

/-- What is left to send. -/
def unsent (c : CcidClass η) : Nat := c.txLen - c.txSent + c.qLen

/-- An offer that goes on leaves less to send. -/
theorem offered_more {c : CcidClass η} (hactive : c.txActive = true)
    (hanswer : c.answers 0 ≠ .failed) :
    (offered c).2 = false ∧ (offered c).1.txActive = true ∨
      (offered c).2 = true ∧ unsent (offered c).1 < unsent c := by
  have hlt := txActive_iff.mp hactive
  unfold offered
  simp only
  cases hfirst : c.answers 0 with
  | failed => exact absurd hfirst hanswer
  | wouldBlock => exact .inl ⟨rfl, hactive⟩
  | wrote n =>
      simp only
      split
      · exact .inl ⟨rfl, hactive⟩
      · refine .inr ⟨rfl, ?_⟩
        rw [advance_eq]
        unfold unsent
        simp only
        split <;> omega

/-- With enough turns, `flush_tx` stops only when the endpoint blocks or there is nothing to
send. -/
theorem orderly_flushLoop (fuel : Nat) : ∀ {c c' : CcidClass η}, Wf c → Patient c →
    unsent c ≤ fuel → flushLoop fuel c = .ok c' → Orderly c' := by
  induction fuel with
  | zero =>
      intro c c' _ _ hunsent hrun _
      obtain rfl := Except.ok.inj hrun
      unfold unsent at hunsent
      omega
  | succ fuel ih =>
      intro c c' hwf hpatient hunsent hrun
      have hturn : ∀ d : CcidClass η, Wf d → Patient d → d.txActive = true →
          unsent d ≤ fuel + 1 → (sendPacket d >>= fun sent =>
            if sent.2 then flushLoop fuel sent.1 else pure sent.1) = .ok c' → Orderly c' := by
        intro d hwf hpatient hactive hunsent hrun
        rw [sendPacket_eq hwf hactive] at hrun
        have hwf' := wf_offered hwf hactive
        have hpatient' := patient_offered hpatient
        have hmore := offered_more hactive (hpatient 0)
        generalize offered d = result at hwf' hpatient' hmore hrun
        obtain ⟨next, more⟩ := result
        obtain ⟨rfl, hstill⟩ | ⟨rfl, hless⟩ := hmore
        · obtain rfl := Except.ok.inj hrun
          exact fun hidle => absurd (hstill.symm.trans hidle) (by decide)
        · have hless : unsent next < unsent d := hless
          exact ih hwf' hpatient' (by omega) hrun
      rw [flushLoop] at hrun
      cases hactive : c.txActive with
      | true =>
          rw [hactive, Bool.not_true, Bool.false_and, if_neg Bool.false_ne_true] at hrun
          exact hturn c hwf hpatient hactive hunsent hrun
      | false =>
          by_cases hq : c.qLen = 0
          · rw [hactive, Bool.not_false, decide_eq_true hq, Bool.true_and, if_pos rfl] at hrun
            obtain rfl := Except.ok.inj hrun
            exact fun _ => hq
          · have hq' := Nat.pos_of_ne_zero hq
            rw [hactive, Bool.not_false, decide_eq_false hq, Bool.true_and,
              if_neg Bool.false_ne_true, if_neg Bool.false_ne_true, promote_eq hwf] at hrun
            refine hturn (promoted c) (wf_promoted hwf hq') hpatient (txActive_iff.mpr hq') ?_ hrun
            have hidle := txActive_false_iff.mp hactive
            unfold unsent promoted at *
            simp only
            omega

/-- `flush_tx` loses nothing. -/
theorem carries_flushTx {c : CcidClass η} {rs : List CcidReply} (hwf : Wf c) (hpatient : Patient c)
    (h : Carries c rs) :
    ∃ c', flushTx c = .ok c' ∧ Wf c' ∧ Patient c' ∧ Orderly c' ∧ Carries c' rs ∧ Outward c c' := by
  obtain ⟨c', hrun, hwf', hpatient', hcarries, hout⟩ := flushLoop_keeps
    (P := fun d => Patient d ∧ Carries d rs ∧ Outward c d)
    (fun d hwf ⟨hp, hc, ho⟩ hidle hq => ⟨hp, carries_promoted hwf hc hidle hq,
      ho.trans ⟨_, _, _, _, _, _, _, rfl⟩⟩)
    (fun d hwf ⟨hp, hc, ho⟩ hactive => ⟨patient_offered hp, carries_offered hwf hc hactive (hp 0),
      ho.trans (outward_offered d)⟩) _ hwf ⟨hpatient, h, Outward.refl c⟩
  exact ⟨c', hrun, hwf', hpatient', orderly_flushLoop _ hwf hpatient (Nat.le_refl _) hrun, hcarries,
    hout⟩

/-! ## The ledger -/

/-- What the class owes: the slot and the sequence number of the XfrBlock accepted last, and the
replies. -/
structure Ledger where
  owner : UInt8 × UInt8
  due : List CcidReply

/-- A call that makes the class reply: a message is dispatched and not accepted, or a response that
fits is sent to an XfrBlock. -/
def Replies (c : CcidClass η) : Call → Prop
  | .process => c.rxReady = true ∧ ¬Accepts c
  | .send resp => c.respAwaiting = true ∧ resp.length ≤ 278
  | _ => False

instance (c : CcidClass η) (call : Call) : Decidable (Replies c call) := by
  cases call <;> unfold Replies <;> infer_instance

/-- The reply that a call makes. -/
def replyOf (c : CcidClass η) (l : Ledger) : Call → CcidReply
  | .send resp => ⟨rdrToPcDatablock, l.owner.1, l.owner.2, c.okStatus, 0x00, 0x00, resp⟩
  | _ => replyTo c

/-- The ledger after a call. -/
def post (c : CcidClass η) (l : Ledger) (call : Call) : Ledger where
  owner := if call = .process ∧ c.rxReady = true ∧ Accepts c then (c.rxByte 5, c.rxByte 6)
    else l.owner
  due := if Replies c call then l.due ++ [replyOf c l call] else l.due

/-- The ledger after calls. -/
def ledger (c : CcidClass η) (l : Ledger) : List Call → Ledger
  | [] => l
  | call :: calls =>
      match step none c call with
      | .ok c' => ledger c' (post c l call) calls
      | .error _ => l

/-- The call makes a reply while one of a kept type waits in the queue. -/
def Crowded (kept : UInt8 → Bool) (c : CcidClass η) (call : Call) : Prop :=
  Replies c call ∧ c.txActive = true ∧ 0 < c.qLen ∧ kept (c.qBuf.getD 0 0) = true

instance (kept : UInt8 → Bool) (c : CcidClass η) (call : Call) : Decidable (Crowded kept c call) :=
  inferInstanceAs (Decidable (_ ∧ _ ∧ _ ∧ _))

/-- The replies of the kept types are carried in their order, and nothing is that is not due. -/
def Honours (kept : UInt8 → Bool) (c : CcidClass η) (due : List CcidReply) : Prop :=
  ∃ rs, Carries c rs ∧ rs.Sublist due ∧
    rs.filter (fun r => kept r.msgType) = due.filter (fun r => kept r.msgType)

theorem honours_new (kept : UInt8 → Bool) (handlerState : η) (answers : Nat → EndpointAnswer) :
    Honours kept (new handlerState answers) [] :=
  ⟨[], ⟨Account.empty handlerState answers, rfl⟩, List.Sublist.refl _, rfl⟩

variable {kept : UInt8 → Bool}

/-- The type of the message in the queue. -/
theorem msgType_queue {c : CcidClass η} (a : Account c) {r : CcidReply} (hr : a.queue = some r) :
    c.qBuf.getD 0 0 = r.msgType := by
  obtain ⟨hq, hbytes⟩ := a.waiting r hr
  have hhead : (c.qBuf.take c.qLen).getD 0 0 = c.qBuf.getD 0 0 := by
    rw [List.getD_eq_getElem?_getD, List.getD_eq_getElem?_getD, List.getElem?_take_of_lt hq]
  rw [← hhead, hbytes]
  rfl

/-- A new reply, on its way or in the queue. -/
theorem carries_queueResponse {c : CcidClass η} {due : List CcidReply} (hwf : Wf c)
    (hpatient : Patient c) (horderly : Orderly c) (h : Honours kept c due) {r : CcidReply}
    (hdata : r.data.length ≤ 278)
    (hroom : c.txActive = true → 0 < c.qLen → kept (c.qBuf.getD 0 0) = false) :
    ∃ c', queueResponse r c = .ok c' ∧ Wf c' ∧ Patient c' ∧ Orderly c' ∧
      Honours kept c' (due ++ [r]) ∧ Outward c c' := by
  obtain ⟨rs, ⟨a, rfl⟩, hsub, hkept⟩ := h
  rw [queueResponse_eq hwf hdata]
  cases hactive : c.txActive with
  | false =>
      rw [if_neg Bool.false_ne_true]
      have hqueue := a.queue_none (horderly hactive)
      have hcarries : Carries (placed r c) (a.replies ++ [r]) := by
        refine ⟨a.place r hactive, ?_⟩
        simp [Account.replies, Account.place, hqueue, a.active_none hactive]
      obtain ⟨c', hrun, hwf', hpatient', horderly', hcarries', hout⟩ :=
        carries_flushTx (wf_placed hwf hdata) (show Patient (placed r c) from hpatient) hcarries
      refine ⟨c', hrun, hwf', hpatient', horderly', ⟨_, hcarries', hsub.append_right _, ?_⟩,
        Outward.trans ⟨_, _, _, _, _, _, _, rfl⟩ hout⟩
      rw [List.filter_append, List.filter_append, hkept]
  | true =>
      rw [if_pos rfl]
      -- what waits in the queue, if anything does, is not of a kept type
      have hbefore : ∃ front : List CcidReply, (a.enqueue r).replies = front ++ [r] ∧
          front.Sublist a.replies ∧
          front.filter (fun r => kept r.msgType) = a.replies.filter (fun r => kept r.msgType) := by
        refine ⟨a.sent.map (fun m => m.1) ++ a.active.toList, rfl, List.sublist_append_left _ _, ?_⟩
        cases hqueue : a.queue with
        | none => simp [Account.replies, hqueue]
        | some old =>
            have hold := hroom hactive (a.waiting old hqueue).1
            rw [msgType_queue a hqueue] at hold
            simp [Account.replies, hqueue, hold]
      obtain ⟨front, hfront, hsub', hkept'⟩ := hbefore
      obtain ⟨c', hrun, hwf', hpatient', horderly', hcarries', hout⟩ :=
        carries_flushTx (wf_queued hwf hdata) (show Patient (queued r c) from hpatient)
          ⟨a.enqueue r, hfront⟩
      refine ⟨c', hrun, hwf', hpatient', horderly',
        ⟨_, hcarries', (hsub'.trans hsub).append_right _, ?_⟩,
        Outward.trans ⟨_, _, _, _, _, _, _, rfl⟩ hout⟩
      rw [List.filter_append, List.filter_append, hkept', hkept]

/-! ## Calls -/

variable (kept) in
/-- The class honours its ledger. -/
structure Accounted (c : CcidClass η) (l : Ledger) : Prop where
  wf : Wf c
  patient : Patient c
  orderly : Orderly c
  owner : (c.pendingSlot, c.pendingSeq) = l.owner
  honours : Honours kept c l.due

theorem accounted_new (handlerState : η) {answers : Nat → EndpointAnswer}
    (hanswers : ∀ i, answers i ≠ .failed) :
    Accounted kept (new handlerState answers) ⟨(0, 0), []⟩ :=
  ⟨wf_new handlerState answers, hanswers, fun _ => rfl, rfl,
    honours_new kept handlerState answers⟩

/-- A change that touches nothing of what is sent. -/
theorem Accounted.inward {c c' : CcidClass η} {l : Ledger} (h : Accounted kept c l) (hwf : Wf c')
    (hin : Inward c c') (hanswers : c'.answers = c.answers) :
    Accounted kept c' { l with owner := (c'.pendingSlot, c'.pendingSeq) } := by
  refine ⟨hwf, ?_, ?_, rfl, ?_⟩
  · unfold Patient
    rw [hanswers]
    exact h.patient
  · unfold Orderly
    rw [hin.txActive, hin.qLen]
    exact h.orderly
  · obtain ⟨rs, hcarries, hsub, hkept⟩ := h.honours
    exact ⟨rs, hcarries.inward hin, hsub, hkept⟩

theorem Accounted.flush {c : CcidClass η} {l : Ledger} (h : Accounted kept c l) :
    ∃ c', flushTx c = .ok c' ∧ Accounted kept c' l := by
  obtain ⟨rs, hcarries, hsub, hkept⟩ := h.honours
  obtain ⟨c', hrun, hwf, hpatient, horderly, hcarries', hout⟩ :=
    carries_flushTx h.wf h.patient hcarries
  have howner := h.owner
  obtain ⟨_, _, _, _, _, _, _, rfl⟩ := hout
  exact ⟨_, hrun, hwf, hpatient, horderly, howner, rs, hcarries', hsub, hkept⟩

theorem Accounted.reply {c : CcidClass η} {l : Ledger} (h : Accounted kept c l) {r : CcidReply}
    (hdata : r.data.length ≤ 278)
    (hroom : c.txActive = true → 0 < c.qLen → kept (c.qBuf.getD 0 0) = false) :
    ∃ c', queueResponse r c = .ok c' ∧ Accounted kept c' { l with due := l.due ++ [r] } := by
  obtain ⟨c', hrun, hwf, hpatient, horderly, hhonours, hout⟩ :=
    carries_queueResponse h.wf h.patient h.orderly h.honours hdata hroom
  have howner := h.owner
  obtain ⟨_, _, _, _, _, _, _, rfl⟩ := hout
  exact ⟨_, hrun, hwf, hpatient, horderly, howner, hhonours⟩

/-- A change that touches nothing of what is sent, nor the XfrBlock that is answered. -/
structure Quiet (c c' : CcidClass η) : Prop extends Inward c c' where
  answers : c'.answers = c.answers
  pendingSlot : c'.pendingSlot = c.pendingSlot
  pendingSeq : c'.pendingSeq = c.pendingSeq

theorem Accounted.quiet {c c' : CcidClass η} {l : Ledger} (h : Accounted kept c l) (hwf : Wf c')
    (hquiet : Quiet c c') : Accounted kept c' l := by
  have hnew := h.inward hwf hquiet.toInward hquiet.answers
  rw [hquiet.pendingSlot, hquiet.pendingSeq, h.owner] at hnew
  exact hnew

theorem quiet_appended (chunk : Bytes) (c : CcidClass η) : Quiet c (appended chunk c) := by
  have hsame : ∀ rxBuf rxLen ready overflow, Quiet c
      { c with rxBuf := rxBuf, rxLen := rxLen, rxReady := ready, rxOverflow := overflow } :=
    fun _ _ _ _ => ⟨⟨rfl, rfl, rfl, rfl, rfl, rfl⟩, rfl, rfl, rfl⟩
  unfold appended
  refine iteInduction (fun _ => hsame _ _ _ _) fun _ => ?_
  unfold concluded
  exact iteInduction (fun _ => hsame _ _ _ _) fun _ => iteInduction (fun _ => hsame _ _ _ _)
    fun _ => iteInduction (fun _ => iteInduction (fun _ => hsame _ _ _ _) fun _ =>
      iteInduction (fun _ => hsame _ _ _ _) fun _ => hsame _ _ _ _) fun _ => hsame _ _ _ _

theorem quiet_settled (c : CcidClass η) : Quiet c (settled c) :=
  iteInduction
    (fun _ => settledType_cases (P := fun d => Quiet c d.clearRx) c _
      ⟨⟨rfl, rfl, rfl, rfl, rfl, rfl⟩, rfl, rfl, rfl⟩
      (fun _ => ⟨⟨rfl, rfl, rfl, rfl, rfl, rfl⟩, rfl, rfl, rfl⟩)
      ⟨⟨rfl, rfl, rfl, rfl, rfl, rfl⟩, rfl, rfl, rfl⟩
      ⟨⟨rfl, rfl, rfl, rfl, rfl, rfl⟩, rfl, rfl, rfl⟩)
    fun _ => ⟨⟨rfl, rfl, rfl, rfl, rfl, rfl⟩, rfl, rfl, rfl⟩

/-- Room in the queue for a call that replies. -/
theorem room_of_not_crowded {c : CcidClass η} {call : Call} (hreplies : Replies c call)
    (hroom : ¬Crowded kept c call) (hactive : c.txActive = true) (hq : 0 < c.qLen) :
    kept (c.qBuf.getD 0 0) = false := by
  by_contra hkept
  exact hroom ⟨hreplies, hactive, hq, Bool.not_eq_false _ ▸ hkept⟩

theorem accounted_process {c : CcidClass η} {l : Ledger} (h : Accounted kept c l)
    (hsmall : ¬Dangerous c .process) (hroom : ¬Crowded kept c .process) :
    ∃ c', process none c = .ok c' ∧ Accounted kept c' (post c l .process) := by
  unfold process post
  by_cases hready : c.rxReady = true
  · rw [if_pos hready]
    by_cases haccept : Accepts c
    · -- the XfrBlock is retained, and its slot and number with it
      have hlen : (abData c).length ≤ 278 := by
        have hrx := h.wf.rxLen
        obtain ⟨⟨-, -, hwhole⟩, -⟩ := haccept
        rw [length_abData h.wf hwhole]
        omega
      have hnot : ¬Replies c .process := fun hr => hr.2 haccept
      rw [dispatchRx_accept none h.wf haccept, if_pos ⟨rfl, hready, haccept⟩, if_neg hnot]
      have hretained : Accounted kept (retained (c.rxByte 5) (c.rxByte 6) (abData c) c)
          { l with owner := (c.rxByte 5, c.rxByte 6) } :=
        h.inward (wf_retained h.wf hlen _ _) ⟨rfl, rfl, rfl, rfl, rfl, rfl⟩ rfl
      exact hretained.flush
    · have hreplies : Replies c .process := ⟨hready, haccept⟩
      have hover : ¬Overflows c := fun hbig => hsmall ⟨rfl, hready, hbig⟩
      have hquiet := quiet_settled c
      have hfree := room_of_not_crowded hreplies hroom
      rw [← hquiet.txActive, ← hquiet.qLen, ← hquiet.qBuf] at hfree
      obtain ⟨mid, hqueue, hmid⟩ :=
        (h.quiet (wf_settled h.wf) hquiet).reply (length_replyTo h.wf) hfree
      obtain ⟨c', hflush, hlast⟩ := hmid.flush
      rw [dispatchRx_reply none hover haccept, hqueue, if_neg fun hp => haccept hp.2.2,
        if_pos hreplies]
      exact ⟨c', hflush, hlast⟩
  · have hnot : ¬Replies c .process := fun hr => hready hr.1
    rw [if_neg hready, if_neg fun hp => hready hp.2.1, if_neg hnot]
    exact h.flush

theorem accounted_send {c : CcidClass η} {l : Ledger} (h : Accounted kept c l) (resp : Bytes)
    (hroom : ¬Crowded kept c (.send resp)) :
    ∃ c', (sendResponse resp c).map (·.2) = .ok c' ∧ Accounted kept c' (post c l (.send resp)) := by
  have howner : ¬(Call.send resp = .process ∧ c.rxReady = true ∧ Accepts c) :=
    fun hp => nomatch hp.1
  unfold sendResponse post
  rw [if_neg howner]
  cases hawaiting : c.respAwaiting with
  | false =>
      have hnot : ¬Replies c (.send resp) := fun hr =>
        absurd (hawaiting.symm.trans hr.1) (by decide)
      rw [Bool.not_false, if_pos rfl, if_neg hnot]
      exact ⟨c, rfl, h⟩
  | true =>
      rw [Bool.not_true, if_neg Bool.false_ne_true, maxPayloadLen]
      by_cases hlong : 278 < resp.length
      · have hnot : ¬Replies c (.send resp) := fun hr => absurd hr.2 (Nat.not_le.mpr hlong)
        rw [if_pos hlong, if_neg hnot]
        exact ⟨c, rfl, h⟩
      · have hlen := Nat.le_of_not_lt hlong
        have hreplies : Replies c (.send resp) := ⟨hawaiting, hlen⟩
        have hfree := room_of_not_crowded hreplies hroom
        have hquiet : Accounted kept { c with respAwaiting := false } l :=
          h.quiet { h.wf with } ⟨⟨rfl, rfl, rfl, rfl, rfl, rfl⟩, rfl, rfl, rfl⟩
        obtain ⟨c', hqueue, hlast⟩ := hquiet.reply
          (r := ⟨rdrToPcDatablock, c.pendingSlot, c.pendingSeq, c.okStatus, 0x00, 0x00, resp⟩) hlen
          hfree
        rw [if_neg hlong, if_pos hreplies]
        refine ⟨c', ?_, ?_⟩
        · show ((queueResponse _ _ >>= _).map _ : Except Panic (CcidClass η)) = _
          rw [hqueue]
          rfl
        · have hreply : replyOf c l (.send resp) =
              ⟨rdrToPcDatablock, c.pendingSlot, c.pendingSeq, c.okStatus, 0x00, 0x00, resp⟩ := by
            rw [replyOf, ← h.owner]
          rw [hreply]
          exact hlast

theorem accounted_take {c : CcidClass η} {l : Ledger} (h : Accounted kept c l) (bufLen : Nat) :
    ∃ c', (takePendingRequest bufLen c).map (·.2) = .ok c' ∧ Accounted kept c' l := by
  have hlen := h.wf.pendingLen
  unfold takePendingRequest
  split
  · rw [Checked.slice_zero (by rw [h.wf.pendingApdu]; omega)]
    exact ⟨_, rfl, h.quiet { h.wf with pendingLen := Nat.zero_le _ }
      ⟨⟨rfl, rfl, rfl, rfl, rfl, rfl⟩, rfl, rfl, rfl⟩⟩
  · exact ⟨c, rfl, h⟩

/-- Every call but a reset keeps the accounts, if it finds room for its reply. -/
theorem accounted_step {c : CcidClass η} {l : Ledger} (h : Accounted kept c l) {call : Call}
    (hreset : call ≠ .reset) (hsmall : ¬Dangerous c call) (hroom : ¬Crowded kept c call) :
    ∃ c', step none c call = .ok c' ∧ Accounted kept c' (post c l call) := by
  cases call with
  | packet chunk =>
      exact ⟨_, rxAppend_eq h.wf chunk, h.quiet (wf_appended h.wf chunk) (quiet_appended chunk c)⟩
  | process => exact accounted_process h hsmall hroom
  | flush => exact h.flush
  | take bufLen => exact accounted_take h bufLen
  | send resp => exact accounted_send h resp hroom
  | reset => exact absurd rfl hreset

/-! ## Runs -/

variable (kept) in
/-- Calls without a reset, none of which panics or makes a reply while one of a kept type waits. -/
def Spaced : CcidClass η → List Call → Prop
  | _, [] => True
  | c, call :: calls => call ≠ .reset ∧ ¬Dangerous c call ∧ ¬Crowded kept c call ∧
      ∀ c', step none c call = .ok c' → Spaced c' calls

instance decidableSpaced : (c : CcidClass η) → (calls : List Call) → Decidable (Spaced kept c calls)
  | _, [] => .isTrue trivial
  | c, call :: calls =>
    have : Decidable (∀ c', step none c call = .ok c' → Spaced kept c' calls) :=
      match step none c call with
      | .ok next =>
        have := decidableSpaced next calls
        decidable_of_iff (Spaced kept next calls)
          ⟨fun h _ hc => Except.ok.inj hc ▸ h, fun h => h next rfl⟩
      | .error _ => .isTrue fun _ hc => by cases hc
    inferInstanceAs (Decidable (_ ∧ _ ∧ _ ∧ _))

theorem accounted_run (calls : List Call) : ∀ {c : CcidClass η} {l : Ledger}, Accounted kept c l →
    Spaced kept c calls →
    ∃ c', runCalls none c calls = .ok c' ∧ Accounted kept c' (ledger c l calls) := by
  induction calls with
  | nil => exact fun {c l} h _ => ⟨c, rfl, h⟩
  | cons call calls ih =>
      intro c l h hspaced
      obtain ⟨hreset, hsmall, hroom, hrest⟩ := hspaced
      obtain ⟨next, hstep, hnext⟩ := accounted_step h hreset hsmall hroom
      obtain ⟨c', hrun, hlast⟩ := ih hnext (hrest next hstep)
      refine ⟨c', ?_, ?_⟩
      · exact (runCalls_cons calls hstep).trans hrun
      · rw [ledger, hstep]
        exact hlast

/-- From the start, with an endpoint that blocks at most: the class carries the replies of the kept
types that it owes, whole and in their order. -/
theorem replies_carried (kept : UInt8 → Bool) (handlerState : η)
    (answers : Nat → EndpointAnswer) (hanswers : ∀ i, answers i ≠ .failed) (calls : List Call)
    (hspaced : Spaced kept (new handlerState answers) calls) :
    ∃ c, runCalls none (new handlerState answers) calls = .ok c ∧
      Honours kept c (ledger (new handlerState answers) ⟨(0, 0), []⟩ calls).due := by
  obtain ⟨c, hrun, h⟩ := accounted_run calls (accounted_new handlerState hanswers) hspaced
  exact ⟨c, hrun, h.honours⟩

/-- The endpoint blocks six times. -/
def slowEndpoint (i : Nat) : EndpointAnswer := if i < 6 then .wouldBlock else .wrote 64

/-- While the ATR is on its way, an XfrBlock is answered. -/
def spacedCalls : List Call :=
  [.packet [0x62, 0, 0, 0, 0, 0, 1, 0, 0, 0], .process,
    .packet [0x6F, 1, 0, 0, 0, 0, 2, 0, 0, 0, 7], .process, .take 278, .send [0x90, 0x00], .flush,
    .flush, .flush]

/-- Both DataBlocks are carried, the ATR and then the response. -/
theorem replies_carried_response :
    ∃ c, runCalls none (new () slowEndpoint) spacedCalls = .ok c ∧
      Honours (fun _ => true) c [⟨rdrToPcDatablock, 0, 1, 0x00, 0x00, 0x00, t0Atr⟩,
        ⟨rdrToPcDatablock, 0, 2, 0x00, 0x00, 0x00, [0x90, 0x00]⟩] := by
  have hanswers : ∀ i, slowEndpoint i ≠ .failed := by
    intro i
    unfold slowEndpoint
    split <;> simp
  obtain ⟨c, hrun, h⟩ :=
    replies_carried (fun _ => true) () slowEndpoint hanswers spacedCalls (by decide +kernel)
  have hdue : (ledger (new () slowEndpoint) ⟨(0, 0), []⟩ spacedCalls).due =
      [⟨rdrToPcDatablock, 0, 1, 0x00, 0x00, 0x00, t0Atr⟩,
        ⟨rdrToPcDatablock, 0, 2, 0x00, 0x00, 0x00, [0x90, 0x00]⟩] := by decide +kernel
  rw [hdue] at h
  exact ⟨c, hrun, h⟩

/-- The bytes on the wire, once everything is sent. -/
theorem length_wire {c : CcidClass η} {rs : List CcidReply} (h : Carries c rs)
    (hidle : c.txActive = false) (hq : c.qLen = 0) :
    c.wire.flatten.length = (rs.map fun r => r.bytes.length).sum := by
  obtain ⟨a, rfl⟩ := h
  have hactive := a.active_none hidle
  have hsent : ∀ sent : List (CcidReply × List Bytes), (∀ m ∈ sent, m.2.flatten = m.1.bytes) →
      (sent.flatMap fun m => m.2).flatten.length =
        ((sent.map fun m => m.1).map fun r => r.bytes.length).sum := by
    intro sent hwhole
    induction sent with
    | nil => rfl
    | cons m sent ih =>
        have hm := hwhole m (List.mem_cons_self ..)
        have hrest := ih fun m' hm' => hwhole m' (List.mem_cons_of_mem _ hm')
        rw [List.flatMap_cons, List.flatten_append, List.length_append, hm, hrest]
        rfl
  rw [a.wire, (a.idle hactive).2, List.append_nil, hsent a.sent a.whole, Account.replies, hactive,
    a.queue_none hq]
  simp

/-- While the ATR is on its way, an XfrBlock is answered and the status of the slot is asked for. -/
def crowdedCalls : List Call :=
  [.packet [0x62, 0, 0, 0, 0, 0, 1, 0, 0, 0], .process,
    .packet [0x6F, 1, 0, 0, 0, 0, 2, 0, 0, 0, 7], .process, .take 278, .send [0x90, 0x00],
    .packet [0x65, 0, 0, 0, 0, 0, 3, 0, 0, 0], .process, .flush]

/-- The DataBlock is overwritten by the SlotStatus, and never sent. -/
theorem datablock_overwritten :
    ∃ c, runCalls none (new () slowEndpoint) crowdedCalls = .ok c ∧ c.txActive = false ∧
      c.qLen = 0 ∧ c.wire = [[0x80, 15, 0, 0, 0, 0, 1, 0, 0, 0] ++ t0Atr,
        [0x81, 0, 0, 0, 0, 0, 3, 0, 0, 0]] ∧
      ¬Honours (fun t => t == rdrToPcDatablock) c
        (ledger (new () slowEndpoint) ⟨(0, 0), []⟩ crowdedCalls).due := by
  have hrun : (runCalls none (new () slowEndpoint) crowdedCalls).map
      (fun c => (c.txActive, c.qLen, c.wire)) = .ok (false, 0,
        [[0x80, 15, 0, 0, 0, 0, 1, 0, 0, 0] ++ t0Atr, [0x81, 0, 0, 0, 0, 0, 3, 0, 0, 0]]) := by
    decide +kernel
  have hdue : ((ledger (new () slowEndpoint) ⟨(0, 0), []⟩ crowdedCalls).due.filter
      fun r => r.msgType == rdrToPcDatablock) =
        [⟨rdrToPcDatablock, 0, 1, 0x00, 0x00, 0x00, t0Atr⟩,
          ⟨rdrToPcDatablock, 0, 2, 0x00, 0x00, 0x00, [0x90, 0x00]⟩] := by decide +kernel
  cases hlast : runCalls none (new () slowEndpoint) crowdedCalls with
  | error e =>
      rw [hlast] at hrun
      cases hrun
  | ok c =>
      rw [hlast] at hrun
      obtain ⟨hidle, hq, hwire⟩ : c.txActive = false ∧ c.qLen = 0 ∧ c.wire = _ := by
        have hfields := Except.ok.inj hrun
        exact ⟨congrArg (·.1) hfields, congrArg (·.2.1) hfields, congrArg (·.2.2) hfields⟩
      refine ⟨c, rfl, hidle, hq, hwire, ?_⟩
      rintro ⟨rs, hcarries, -, hkept⟩
      -- the two DataBlocks alone are longer than what was sent
      have hlen := length_wire hcarries hidle hq
      have hpart := ((List.filter_sublist (p := fun r => r.msgType == rdrToPcDatablock)
        (l := rs)).map fun r => r.bytes.length).sum_le_sum fun _ _ => Nat.zero_le _
      rw [hkept, hdue, ← hlen, hwire] at hpart
      exact absurd hpart (by decide)

end CcidClass

end OpenKey
