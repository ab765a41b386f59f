import OpenKey.Transport.CcidSafe

/-!
# How each message is answered

The table of the module's header as a function: `replyTo c` is the reply to the message received and
`settled c` the class once it is dealt with. An XfrBlock that the slot accepts is the one message
without an immediate reply. `dispatchRx_reply` and `dispatchRx_accept` say that `dispatch_rx`
follows the table.
-/

namespace OpenKey

set_option autoImplicit false

namespace CcidClass

variable {η : Type}

/-- The message received is whole. -/
def Whole (c : CcidClass η) : Prop :=
  c.rxOverflow = false ∧ 10 ≤ c.rxLen ∧ 10 + c.dwLength ≤ c.rxLen

/-- The message is an XfrBlock that the slot accepts. -/
def Accepts (c : CcidClass η) : Prop :=
  Whole c ∧ c.rxByte 0 = pcToRdrXfrBlock ∧ c.level ≤ 1 ∧ c.pending = false ∧ c.respAwaiting = false

/-- SetParameters with the five parameters of T=0. -/
def SetsParams (c : CcidClass η) : Prop := c.rxByte 7 = 0x00 ∧ c.dwLength = 5

instance (c : CcidClass η) : Decidable (Whole c) := inferInstanceAs (Decidable (_ ∧ _ ∧ _))

instance (c : CcidClass η) : Decidable (Accepts c) :=
  inferInstanceAs (Decidable (_ ∧ _ ∧ _ ∧ _ ∧ _))

instance (c : CcidClass η) : Decidable (SetsParams c) := inferInstanceAs (Decidable (_ ∧ _))

/-- A reply that reports an error. -/
def failure (c : CcidClass η) (msgType error : UInt8) : CcidReply :=
  ⟨msgType, c.rxByte 5, c.rxByte 6, c.failStatus, error, 0x00, []⟩

/-- A reply in a slot that is powered or not. -/
def success (c : CcidClass η) (msgType : UInt8) (powered : Bool) (data : Bytes) : CcidReply :=
  ⟨msgType, c.rxByte 5, c.rxByte 6, if powered then 0x00 else 0x01, 0x00, 0x00, data⟩

/-- The reply to a message that is whole. -/
def replyToType (c : CcidClass η) (msgType : UInt8) : CcidReply :=
  if msgType = pcToRdrIccPowerOn then success c rdrToPcDatablock true t0Atr
  else if msgType = pcToRdrIccPowerOff then success c rdrToPcSlotstatus false []
  else if msgType = pcToRdrGetSlotStatus then success c rdrToPcSlotstatus c.powered []
  else if msgType = pcToRdrGetParameters then success c rdrToPcParameters c.powered c.params
  else if msgType = pcToRdrSetParameters then
    if SetsParams c then success c rdrToPcParameters c.powered ((c.rxBuf.drop 10).take 5)
    else failure c rdrToPcSlotstatus berrCmdNotSupported
  else if msgType = pcToRdrAbort then success c rdrToPcSlotstatus c.powered []
  else if msgType = pcToRdrXfrBlock then
    failure c rdrToPcDatablock (if 1 < c.level then berrCmdNotSupported else berrCmdSlotBusy)
  else failure c rdrToPcSlotstatus berrCmdNotSupported

/-- The reply to the message received. -/
def replyTo (c : CcidClass η) : CcidReply :=
  if c.rxOverflow then failure c rdrToPcSlotstatus berrXfrOverrun
  else if c.rxLen < 10 then failure c rdrToPcSlotstatus berrCmdNotSupported
  else if c.rxLen < 10 + c.dwLength then failure c rdrToPcSlotstatus berrXfrUnderrun
  else replyToType c (c.rxByte 0)

/-- What a message that is whole changes besides. -/
def settledType (c : CcidClass η) (msgType : UInt8) : CcidClass η :=
  if msgType = pcToRdrIccPowerOn then { c with powered := true }
  else if msgType = pcToRdrIccPowerOff then { c with powered := false }
  else if msgType = pcToRdrGetSlotStatus then c
  else if msgType = pcToRdrGetParameters then c
  else if msgType = pcToRdrSetParameters then
    if SetsParams c then { c with params := (c.rxBuf.drop 10).take 5 } else c
  else if msgType = pcToRdrAbort then { c with pending := false, respAwaiting := false }
  else c

/-- The class once the message is dealt with. -/
def settled (c : CcidClass η) : CcidClass η :=
  if Whole c then (settledType c (c.rxByte 0)).clearRx else c.clearRx

/-- The replies that there are. -/
theorem replyTo_cases {P : CcidReply → Prop} (c : CcidClass η)
    (hfail : ∀ msgType error, P (failure c msgType error))
    (hempty : ∀ powered, P (success c rdrToPcSlotstatus powered []))
    (hatr : P (success c rdrToPcDatablock true t0Atr))
    (hget : P (success c rdrToPcParameters c.powered c.params))
    (hset : P (success c rdrToPcParameters c.powered ((c.rxBuf.drop 10).take 5))) :
    P (replyTo c) :=
  iteInduction (fun _ => hfail _ _) fun _ => iteInduction (fun _ => hfail _ _) fun _ =>
    iteInduction (fun _ => hfail _ _) fun _ => iteInduction (fun _ => hatr) fun _ =>
    iteInduction (fun _ => hempty _) fun _ => iteInduction (fun _ => hempty _) fun _ =>
    iteInduction (fun _ => hget) fun _ =>
    iteInduction (fun _ => iteInduction (fun _ => hset) fun _ => hfail _ _) fun _ =>
    iteInduction (fun _ => hempty _) fun _ => iteInduction (fun _ => hfail _ _) fun _ => hfail _ _

theorem length_replyTo {c : CcidClass η} (hwf : Wf c) : (replyTo c).data.length ≤ 278 := by
  have hatr : t0Atr.length ≤ 278 := by decide
  have hparams : c.params.length ≤ 278 := by
    rw [hwf.params]
    decide
  have htake : ((c.rxBuf.drop 10).take 5).length ≤ 278 := by
    rw [List.length_take]
    omega
  exact replyTo_cases (P := fun r => r.data.length ≤ 278) c (fun _ _ => Nat.zero_le _)
    (fun _ => Nat.zero_le _) hatr hparams htake

/-- The changes that a message can make. -/
theorem settledType_cases {P : CcidClass η → Prop} (c : CcidClass η) (msgType : UInt8) (hsame : P c)
    (hpower : ∀ b, P { c with powered := b })
    (hparams : P { c with params := (c.rxBuf.drop 10).take 5 })
    (habort : P { c with pending := false, respAwaiting := false }) : P (settledType c msgType) :=
  iteInduction (fun _ => hpower true) fun _ => iteInduction (fun _ => hpower false) fun _ =>
    iteInduction (fun _ => hsame) fun _ => iteInduction (fun _ => hsame) fun _ =>
    iteInduction (fun _ => iteInduction (fun _ => hparams) fun _ => hsame) fun _ =>
    iteInduction (fun _ => habort) fun _ => hsame

theorem wf_settledType {c : CcidClass η} (hwf : Wf c) (msgType : UInt8) :
    Wf (settledType c msgType) := by
  have htake : ((c.rxBuf.drop 10).take 5).length = 5 := by
    rw [List.length_take, List.length_drop, hwf.rxBuf]
    rfl
  exact settledType_cases c msgType hwf (fun _ => { hwf with }) { hwf with params := htake }
    { hwf with }

theorem wf_settled {c : CcidClass η} (hwf : Wf c) : Wf (settled c) := by
  unfold settled
  split
  · exact wf_clearRx (wf_settledType hwf _)
  · exact wf_clearRx hwf

/-- Dealing with a message changes neither what is being sent nor the handler. -/
structure Settles (c c' : CcidClass η) : Prop where
  rxReady : c'.rxReady = false
  rxLen : c'.rxLen = 0
  rxOverflow : c'.rxOverflow = false
  handlerState : c'.handlerState = c.handlerState
  pending : c.pending = false → c'.pending = false
  respAwaiting : c.respAwaiting = false → c'.respAwaiting = false

theorem settles_settled (c : CcidClass η) : Settles c (settled c) :=
  iteInduction
    (fun _ => settledType_cases (P := fun d => Settles c d.clearRx) c _ ⟨rfl, rfl, rfl, rfl, id, id⟩
      (fun _ => ⟨rfl, rfl, rfl, rfl, id, id⟩) ⟨rfl, rfl, rfl, rfl, id, id⟩
      ⟨rfl, rfl, rfl, rfl, fun _ => rfl, fun _ => rfl⟩)
    fun _ => ⟨rfl, rfl, rfl, rfl, id, id⟩

variable (handler : Option (CcidApduHandler η))

theorem dispatchType_reply {c : CcidClass η} {msgType : UInt8}
    (hrefuse : msgType = pcToRdrXfrBlock →
      1 < c.level ∨ c.pending = true ∨ c.respAwaiting = true) :
    dispatchType handler msgType (c.rxByte 5) (c.rxByte 6) c =
      queueResponse (replyToType c msgType) (settledType c msgType).clearRx := by
  unfold dispatchType replyToType settledType
  by_cases hon : msgType = pcToRdrIccPowerOn
  · rw [if_pos hon, if_pos hon, if_pos hon]
    rfl
  by_cases hoff : msgType = pcToRdrIccPowerOff
  · rw [if_neg hon, if_neg hon, if_neg hon, if_pos hoff, if_pos hoff, if_pos hoff]
    rfl
  rw [if_neg hon, if_neg hon, if_neg hon, if_neg hoff, if_neg hoff, if_neg hoff]
  by_cases hstatus : msgType = pcToRdrGetSlotStatus
  · rw [if_pos hstatus, if_pos hstatus, if_pos hstatus]
    rfl
  by_cases hget : msgType = pcToRdrGetParameters
  · rw [if_neg hstatus, if_neg hstatus, if_neg hstatus, if_pos hget, if_pos hget, if_pos hget]
    rfl
  rw [if_neg hstatus, if_neg hstatus, if_neg hstatus, if_neg hget, if_neg hget, if_neg hget]
  by_cases hset : msgType = pcToRdrSetParameters
  · rw [if_pos hset, if_pos hset, if_pos hset]
    by_cases hparams : SetsParams c
    · rw [if_pos hparams, if_pos hparams]
      exact if_pos hparams
    · rw [if_neg hparams, if_neg hparams]
      exact if_neg hparams
  by_cases habort : msgType = pcToRdrAbort
  · rw [if_neg hset, if_neg hset, if_neg hset, if_pos habort, if_pos habort, if_pos habort]
    rfl
  rw [if_neg hset, if_neg hset, if_neg hset, if_neg habort, if_neg habort, if_neg habort]
  by_cases hxfr : msgType = pcToRdrXfrBlock
  · rw [if_pos hxfr, if_pos hxfr]
    unfold xfrBlock
    by_cases hlevel : 1 < c.level
    · rw [if_pos hlevel, if_pos hlevel]
      rfl
    · have hbusy : (c.pending || c.respAwaiting) = true := by
        obtain h | h | h := hrefuse hxfr
        · exact absurd h hlevel
        · rw [h, Bool.true_or]
        · rw [h, Bool.or_true]
      rw [if_neg hlevel, if_neg hlevel, if_pos hbusy]
      rfl
  · rw [if_neg hxfr, if_neg hxfr]
    rfl

/-- A message that is not accepted is answered at once. -/
theorem dispatchRx_reply {c : CcidClass η} (hsmall : ¬Overflows c) (hrefuse : ¬Accepts c) :
    dispatchRx handler c = queueResponse (replyTo c) (settled c) := by
  unfold dispatchRx replyTo
  simp only
  cases hover : c.rxOverflow with
  | true =>
      have hnot : ¬Whole c := fun h => absurd (hover.symm.trans h.1) (by decide)
      rw [if_pos rfl, if_pos rfl, settled, if_neg hnot]
      rfl
  | false =>
      rw [if_neg Bool.false_ne_true, if_neg Bool.false_ne_true, ccidHeaderLen]
      by_cases hheader : c.rxLen < 10
      · have hnot : ¬Whole c := fun h => absurd h.2.1 (Nat.not_le.mpr hheader)
        rw [if_pos hheader, if_pos hheader, settled, if_neg hnot]
        rfl
      · have hsum : 10 + c.dwLength < 2 ^ 32 := by
          by_contra hbig
          exact hsmall ⟨hover, Nat.le_of_not_lt hheader, Nat.le_of_not_lt hbig⟩
        rw [if_neg hheader, if_neg hheader, Checked.add_ok hsum]
        show (if c.rxLen < 10 + c.dwLength then _ else _) = _
        by_cases hshort : c.rxLen < 10 + c.dwLength
        · have hnot : ¬Whole c := fun h => absurd h.2.2 (Nat.not_le.mpr hshort)
          rw [if_pos hshort, if_pos hshort, settled, if_neg hnot]
          rfl
        · have hwhole : Whole c := ⟨hover, Nat.le_of_not_lt hheader, Nat.le_of_not_lt hshort⟩
          rw [if_neg hshort, if_neg hshort, settled, if_pos hwhole]
          refine dispatchType_reply handler fun hxfr => ?_
          by_contra hidle
          obtain ⟨hlevel, hpending, hawaiting⟩ := not_or.mp hidle |>.imp id not_or.mp
          exact hrefuse ⟨hwhole, hxfr, Nat.le_of_not_lt hlevel, Bool.not_eq_true _ ▸ hpending,
            Bool.not_eq_true _ ▸ hawaiting⟩

/-- An XfrBlock that is accepted goes to the handler, or is retained. -/
theorem dispatchRx_accept {c : CcidClass η} (hwf : Wf c) (haccept : Accepts c) :
    dispatchRx handler c =
      match handler with
      | some handler => handle handler (c.rxByte 5) (c.rxByte 6) (abData c) c
      | none => .ok (retained (c.rxByte 5) (c.rxByte 6) (abData c) c) := by
  obtain ⟨⟨hover, hheader, hwhole⟩, hxfr, hlevel, hpending, hawaiting⟩ := haccept
  have hlen := hwf.rxLen
  have hsum : 10 + c.dwLength < 2 ^ 32 := by omega
  unfold dispatchRx
  simp only
  rw [hover, if_neg Bool.false_ne_true, ccidHeaderLen, if_neg (Nat.not_lt.mpr hheader),
    Checked.add_ok hsum]
  show (if c.rxLen < 10 + c.dwLength then _ else dispatchType handler (c.rxByte 0) _ _ c) = _
  rw [if_neg (Nat.not_lt.mpr hwhole), hxfr]
  show xfrBlock handler (c.rxByte 5) (c.rxByte 6) c = _
  unfold xfrBlock
  rw [if_neg (Nat.not_lt.mpr hlevel), hpending, hawaiting, Bool.or_false,
    if_neg Bool.false_ne_true, ccidHeaderLen, Checked.add_ok hsum]
  show (Checked.slice c.rxBuf 10 (10 + c.dwLength) >>= _) = _
  rw [slice_abData hwf hwhole]
  cases handler with
  | some handler => rfl
  | none =>
      refine retain_eq hwf ?_ _ _
      rw [length_abData hwf hwhole]
      omega

end CcidClass

end OpenKey
