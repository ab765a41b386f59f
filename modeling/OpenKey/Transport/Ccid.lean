import OpenKey.Library.Checked

/-!
# The CCID class

`CcidClass` of `crates/openkey-transport/src/embedded/usb_ccid_backend.rs`: the messages of the
host are put together from packets of up to 64 bytes, dispatched by `process`, and answered over an
endpoint that takes a packet at a time. A reply made while another one is on its way waits in a
queue of one place. An XfrBlock goes to the handler, if there is one; else it is retained until the
application takes it and sends a response.

Buffers keep their stale bytes. Additions, subtractions and slices are checked, with a `usize` of 32
bits, and a panic ends the run.

The answers of the endpoint to the writes still to come are part of the state, and so are the
packets that it has taken.
-/

namespace OpenKey

set_option autoImplicit false

/-- `MAX_MSG_LEN`. -/
def maxMsgLen : Nat := 288

/-- `CCID_HEADER_LEN`. -/
def ccidHeaderLen : Nat := 10

/-- `MAX_PAYLOAD_LEN`. -/
def maxPayloadLen : Nat := 278

/-- `PACKET_SIZE`. -/
def packetSize : Nat := 64

/-! ## Message types, states and errors -/

/-- `PC_TO_RDR_ICC_POWER_ON`. -/
def pcToRdrIccPowerOn : UInt8 := 0x62

/-- `PC_TO_RDR_ICC_POWER_OFF`. -/
def pcToRdrIccPowerOff : UInt8 := 0x63

/-- `PC_TO_RDR_GET_SLOT_STATUS`. -/
def pcToRdrGetSlotStatus : UInt8 := 0x65

/-- `PC_TO_RDR_SET_PARAMETERS`. -/
def pcToRdrSetParameters : UInt8 := 0x61

/-- `PC_TO_RDR_GET_PARAMETERS`. -/
def pcToRdrGetParameters : UInt8 := 0x6C

/-- `PC_TO_RDR_XFR_BLOCK`. -/
def pcToRdrXfrBlock : UInt8 := 0x6F

/-- `PC_TO_RDR_ABORT`. -/
def pcToRdrAbort : UInt8 := 0x72

/-- `RDR_TO_PC_DATABLOCK`. -/
def rdrToPcDatablock : UInt8 := 0x80

/-- `RDR_TO_PC_SLOTSTATUS`. -/
def rdrToPcSlotstatus : UInt8 := 0x81

/-- `RDR_TO_PC_PARAMETERS`. -/
def rdrToPcParameters : UInt8 := 0x82

/-- `BERR_CMD_NOT_SUPPORTED`. -/
def berrCmdNotSupported : UInt8 := 0x00

/-- `BERR_CMD_SLOT_BUSY`. -/
def berrCmdSlotBusy : UInt8 := 0x05

/-- `BERR_XFR_UNDERRUN`. -/
def berrXfrUnderrun : UInt8 := 0xFC

/-- `BERR_XFR_OVERRUN`. -/
def berrXfrOverrun : UInt8 := 0xFD

/-- `T0_ATR`. -/
def t0Atr : Bytes :=
  [0x3B, 0xDA, 0x11, 0x50, 0x00, 0x01, 0x6F, 0x70, 0x65, 0x6E, 0x4B, 0x65, 0x79, 0xA0, 0x00]

/-- `T0_DEFAULT_PARAMS`. -/
def t0DefaultParams : Bytes := [0x11, 0x00, 0x00, 0x0A, 0x00]

/-- `CcidApduHandler`: from the APDU and a buffer for the response, which it may write to, the
length of the response. -/
structure CcidApduHandler (η : Type) where
  call : η → Bytes → Bytes → (Bytes × Nat) × η
  length_call : ∀ state apdu resp, (call state apdu resp).1.1.length = resp.length

/-- What the endpoint answers to a write. -/
inductive EndpointAnswer
  | wrote (n : Nat)
  | wouldBlock
  | failed
  deriving DecidableEq, Repr

/-! ## The class -/

/-- `CcidClass`, with the state `η` of its handler. -/
structure CcidClass (η : Type) where
  rxBuf : Bytes
  rxLen : Nat
  rxReady : Bool
  rxOverflow : Bool
  txBuf : Bytes
  txLen : Nat
  txSent : Nat
  qBuf : Bytes
  qLen : Nat
  powered : Bool
  params : Bytes
  pending : Bool
  pendingSlot : UInt8
  pendingSeq : UInt8
  pendingApdu : Bytes
  pendingLen : Nat
  respAwaiting : Bool
  handlerState : η
  /-- The answers of the endpoint, from the next write on. -/
  answers : Nat → EndpointAnswer
  /-- The packets that the endpoint has taken. -/
  wire : List Bytes

/-- `RDR_to_PC` messages: the fields of their header, and their data. -/
structure CcidReply where
  msgType : UInt8
  slot : UInt8
  seq : UInt8
  status : UInt8
  error : UInt8
  /-- The byte whose meaning depends on the type. -/
  specific : UInt8
  data : Bytes
  deriving DecidableEq

/-- The header for data of some length. -/
def CcidReply.header (r : CcidReply) (dataLen : Nat) : Bytes :=
  r.msgType :: (Bytes.leBytes 4 dataLen ++ [r.slot, r.seq, r.status, r.error, r.specific])

/-- The bytes of a message. -/
def CcidReply.bytes (r : CcidReply) : Bytes := r.header r.data.length ++ r.data

namespace CcidClass

variable {η : Type}

/-- `build`. -/
def new (handlerState : η) (answers : Nat → EndpointAnswer) : CcidClass η where
  rxBuf := List.replicate 288 0
  rxLen := 0
  rxReady := false
  rxOverflow := false
  txBuf := List.replicate 288 0
  txLen := 0
  txSent := 0
  qBuf := List.replicate 288 0
  qLen := 0
  powered := false
  params := t0DefaultParams
  pending := false
  pendingSlot := 0
  pendingSeq := 0
  pendingApdu := List.replicate 278 0
  pendingLen := 0
  respAwaiting := false
  handlerState := handlerState
  answers := answers
  wire := []

/-- `ok_status`. -/
def okStatus (c : CcidClass η) : UInt8 := if c.powered then 0x00 else 0x01

/-- `fail_status`. -/
def failStatus (c : CcidClass η) : UInt8 := c.okStatus ||| 0x40

/-- `clear_rx`. -/
def clearRx (c : CcidClass η) : CcidClass η :=
  { c with rxReady := false, rxLen := 0, rxOverflow := false }

/-- `tx_active`. -/
def txActive (c : CcidClass η) : Bool := c.txSent < c.txLen

/-- A byte of the message received. -/
def rxByte (c : CcidClass η) (i : Nat) : UInt8 := c.rxBuf.getD i 0

/-- `dwLength` of the message received. -/
def dwLength (c : CcidClass η) : Nat := Bytes.leNat ((c.rxBuf.drop 1).take 4)

/-- `wLevelParameter` of an XfrBlock. -/
def level (c : CcidClass η) : Nat := Bytes.leNat ((c.rxBuf.drop 8).take 2)

/-! ## Sending -/

/-- The message in the queue becomes the one on its way. -/
def promote (c : CcidClass η) : Except Panic (CcidClass η) := do
  let message ← Checked.slice c.qBuf 0 c.qLen
  let txBuf ← Checked.copyAt c.txBuf 0 message
  pure { c with txBuf := txBuf, txLen := c.qLen, txSent := 0, qLen := 0 }

/-- The endpoint took the next packet; a message that is through is forgotten. -/
def advance (c : CcidClass η) (packet : Bytes) (n : Nat) : CcidClass η :=
  let c := { c with txSent := c.txSent + n, wire := c.wire ++ [packet.take n] }
  if c.txActive then c else { c with txLen := 0, txSent := 0 }

/-- Offer the next packet to the endpoint; whether to go on. -/
def sendPacket (c : CcidClass η) : Except Panic (CcidClass η × Bool) := do
  let stop ← Checked.add c.txSent packetSize
  let packet ← Checked.slice c.txBuf c.txSent (min stop c.txLen)
  let answered := { c with answers := fun i => c.answers (i + 1) }
  match c.answers 0 with
  | .wrote n =>
      if min n packet.length = 0 then pure (answered, false)
      else pure (answered.advance packet (min n packet.length), true)
  | .wouldBlock => pure (answered, false)
  | .failed => pure ({ answered with txLen := 0, txSent := 0 }, true)

/-- The loop of `flush_tx`, `fuel` times at most. -/
def flushLoop : Nat → CcidClass η → Except Panic (CcidClass η)
  | 0, c => pure c
  | fuel + 1, c =>
      if !c.txActive && c.qLen = 0 then pure c
      else do
        let c ← if c.txActive then pure c else promote c
        let (c, more) ← sendPacket c
        if more then flushLoop fuel c else pure c

/-- `flush_tx`. Each turn sends a byte or drops a message, so there are no more turns than bytes
to send. -/
def flushTx (c : CcidClass η) : Except Panic (CcidClass η) :=
  flushLoop (c.txLen - c.txSent + c.qLen) c

/-- `seal_tx`: the data are in the buffer already. -/
def sealTx (r : CcidReply) (dataLen : Nat) (c : CcidClass η) : Except Panic (CcidClass η) :=
  flushTx { c with
    txBuf := r.header dataLen ++ c.txBuf.drop ccidHeaderLen
    txLen := ccidHeaderLen + dataLen
    txSent := 0 }

/-- `seal_q`. -/
def sealQ (r : CcidReply) (dataLen : Nat) (c : CcidClass η) : Except Panic (CcidClass η) :=
  flushTx { c with
    qBuf := r.header dataLen ++ c.qBuf.drop ccidHeaderLen
    qLen := ccidHeaderLen + dataLen }

/-- `queue_response`. -/
def queueResponse (r : CcidReply) (c : CcidClass η) : Except Panic (CcidClass η) := do
  let n := min r.data.length maxPayloadLen
  let data ← Checked.slice r.data 0 n
  if c.txActive then do
    let qBuf ← Checked.copyAt c.qBuf ccidHeaderLen data
    sealQ r n { c with qBuf := qBuf }
  else do
    let txBuf ← Checked.copyAt c.txBuf ccidHeaderLen data
    sealTx r n { c with txBuf := txBuf }

/-! ## Receiving -/

/-- Whether a packet of which `n` bytes are in the buffer ends the transfer: it does not fit, it is
short, or the message is whole. -/
def rxConclude (chunk : Bytes) (n : Nat) (c : CcidClass η) : Except Panic (CcidClass η) :=
  if n < chunk.length then pure { c with rxOverflow := true, rxReady := true }
  else if chunk.length < packetSize then pure { c with rxReady := true }
  else if ccidHeaderLen ≤ c.rxLen then
    if maxPayloadLen < c.dwLength then pure { c with rxOverflow := true, rxReady := true }
    else do
      let whole ← Checked.add ccidHeaderLen c.dwLength
      if whole ≤ c.rxLen then pure { c with rxReady := true } else pure c
  else pure c

/-- `rx_append`. -/
def rxAppend (chunk : Bytes) (c : CcidClass η) : Except Panic (CcidClass η) :=
  if c.rxReady then pure c
  else do
    let space ← Checked.sub maxMsgLen c.rxLen
    let n := min chunk.length space
    let part ← Checked.slice chunk 0 n
    let rxBuf ← Checked.copyAt c.rxBuf c.rxLen part
    let rxLen ← Checked.add c.rxLen n
    rxConclude chunk n { c with rxBuf := rxBuf, rxLen := rxLen }

/-- An XfrBlock is retained for the application. -/
def retain (slot seq : UInt8) (apdu : Bytes) (c : CcidClass η) : Except Panic (CcidClass η) := do
  let pendingApdu ← Checked.copyAt c.pendingApdu 0 apdu
  pure { c with
    pendingApdu := pendingApdu
    pendingLen := apdu.length
    pendingSlot := slot
    pendingSeq := seq
    pending := true
    rxReady := false
    rxLen := 0
    rxOverflow := false }

/-- An XfrBlock goes to the handler, which writes its response where the reply will be. -/
def handle (handler : CcidApduHandler η) (slot seq : UInt8) (apdu : Bytes) (c : CcidClass η) :
    Except Panic (CcidClass η) := do
  let scratch ← Checked.slice (if c.txActive then c.qBuf else c.txBuf) ccidHeaderLen maxMsgLen
  let result := handler.call c.handlerState apdu scratch
  let n := min result.1.2 maxPayloadLen
  let reply : CcidReply := ⟨rdrToPcDatablock, slot, seq, c.okStatus, 0x00, 0x00, []⟩
  if c.txActive then
    sealQ reply n { c with
      qBuf := c.qBuf.take ccidHeaderLen ++ result.1.1, handlerState := result.2 }
  else
    sealTx reply n { c with
      txBuf := c.txBuf.take ccidHeaderLen ++ result.1.1, handlerState := result.2 }

section

variable (handler : Option (CcidApduHandler η))

/-- The XfrBlock branch of `dispatch_rx`. -/
def xfrBlock (slot seq : UInt8) (c : CcidClass η) : Except Panic (CcidClass η) :=
  if 1 < c.level then
    queueResponse ⟨rdrToPcDatablock, slot, seq, c.failStatus, berrCmdNotSupported, 0x00, []⟩
      c.clearRx
  else if c.pending || c.respAwaiting then
    queueResponse ⟨rdrToPcDatablock, slot, seq, c.failStatus, berrCmdSlotBusy, 0x00, []⟩ c.clearRx
  else do
    let stop ← Checked.add ccidHeaderLen c.dwLength
    let apdu ← Checked.slice c.rxBuf ccidHeaderLen stop
    match handler with
    | some handler => handle handler slot seq apdu c
    | none => retain slot seq apdu c

/-- A SlotStatus with an error. -/
def slotFailure (slot seq error : UInt8) (c : CcidClass η) : Except Panic (CcidClass η) :=
  queueResponse ⟨rdrToPcSlotstatus, slot, seq, c.failStatus, error, 0x00, []⟩ c.clearRx

/-- A SlotStatus without an error. -/
def slotStatus (slot seq : UInt8) (c : CcidClass η) : Except Panic (CcidClass η) :=
  queueResponse ⟨rdrToPcSlotstatus, slot, seq, c.okStatus, 0x00, 0x00, []⟩ c.clearRx

/-- `queue_parameters`, once the message is dealt with. -/
def queueParameters (slot seq : UInt8) (c : CcidClass η) : Except Panic (CcidClass η) :=
  queueResponse ⟨rdrToPcParameters, slot, seq, c.okStatus, 0x00, 0x00, c.params⟩ c.clearRx

/-- SetParameters: the five parameters of T=0 only. -/
def setParameters (slot seq : UInt8) (c : CcidClass η) : Except Panic (CcidClass η) :=
  if c.rxByte 7 = 0x00 ∧ c.dwLength = 5 then
    queueParameters slot seq { c with params := (c.rxBuf.drop 10).take 5 }
  else slotFailure slot seq berrCmdNotSupported c

/-- The branches of `dispatch_rx` on the type of a message that is whole. -/
def dispatchType (msgType slot seq : UInt8) (c : CcidClass η) : Except Panic (CcidClass η) :=
  if msgType = pcToRdrIccPowerOn then
    queueResponse ⟨rdrToPcDatablock, slot, seq, 0x00, 0x00, 0x00, t0Atr⟩
      { c.clearRx with powered := true }
  else if msgType = pcToRdrIccPowerOff then slotStatus slot seq { c with powered := false }
  else if msgType = pcToRdrGetSlotStatus then slotStatus slot seq c
  else if msgType = pcToRdrGetParameters then queueParameters slot seq c
  else if msgType = pcToRdrSetParameters then setParameters slot seq c
  else if msgType = pcToRdrAbort then
    slotStatus slot seq { c with pending := false, respAwaiting := false }
  else if msgType = pcToRdrXfrBlock then xfrBlock handler slot seq c
  else slotFailure slot seq berrCmdNotSupported c

/-- `dispatch_rx`. -/
def dispatchRx (c : CcidClass η) : Except Panic (CcidClass η) :=
  let msgType := c.rxByte 0
  let slot := c.rxByte 5
  let seq := c.rxByte 6
  if c.rxOverflow then slotFailure slot seq berrXfrOverrun c
  else if c.rxLen < ccidHeaderLen then slotFailure slot seq berrCmdNotSupported c
  else do
    let whole ← Checked.add ccidHeaderLen c.dwLength
    if c.rxLen < whole then slotFailure slot seq berrXfrUnderrun c
    else dispatchType handler msgType slot seq c

/-- `process`. -/
def process (c : CcidClass η) : Except Panic (CcidClass η) := do
  let c ← if c.rxReady then dispatchRx handler c else pure c
  flushTx c

end

/-! ## The application's side -/

/-- `take_pending_request`, into a buffer of some length. -/
def takePendingRequest (bufLen : Nat) (c : CcidClass η) :
    Except Panic (Option Bytes × CcidClass η) :=
  if c.pending then do
    let apdu ← Checked.slice c.pendingApdu 0 (min c.pendingLen bufLen)
    pure (some apdu, { c with pending := false, pendingLen := 0, respAwaiting := true })
  else pure (none, c)

/-- The errors of the backend that occur here. -/
inductive EmbeddedTransportError
  | framingError
  | bufferTooSmall
  | timeout
  deriving DecidableEq, Repr

/-- `send_response`. -/
def sendResponse (resp : Bytes) (c : CcidClass η) :
    Except Panic (Except EmbeddedTransportError Unit × CcidClass η) :=
  if !c.respAwaiting then pure (.error .framingError, c)
  else if maxPayloadLen < resp.length then pure (.error .bufferTooSmall, c)
  else do
    let c ← queueResponse
      ⟨rdrToPcDatablock, c.pendingSlot, c.pendingSeq, c.okStatus, 0x00, 0x00, resp⟩
      { c with respAwaiting := false }
    pure (.ok (), c)

/-- `reset`. -/
def reset (c : CcidClass η) : CcidClass η := { c.clearRx with txLen := 0, txSent := 0, qLen := 0 }

/-- `pending_request_len`. -/
def pendingRequestLen (c : CcidClass η) : Nat := if c.pending then c.pendingLen else 0

end CcidClass

end OpenKey
