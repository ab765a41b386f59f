import OpenKey.Library.Prog
import OpenKey.Library.Bytes

/-!
# CTAPHID

`crates/openkey-transport/src/ctaphid`: packets of 64 bytes (`packet.rs`), the fragmenter that
cuts a message into packets (`fragmenter.rs`) and the assembler that puts messages together again
(`assembler.rs`).
-/

namespace OpenKey.Ctaphid

set_option autoImplicit false

/-! ## Constants and types -/

/-- `CTAPHID_PACKET_SIZE`. -/
def packetSize : Nat := 64

/-- `CTAPHID_MAX_PAYLOAD_LEN`. -/
def maxPayloadLen : Nat := 57 + 128 * 59

/-- `CTAPHID_INIT_PAYLOAD_SIZE`. -/
def initPayloadSize : Nat := 57

/-- `CTAPHID_CONT_PAYLOAD_SIZE`. -/
def contPayloadSize : Nat := 59

/-- `CtaphidCommand`. -/
inductive CtaphidCommand
  | ping
  | msg
  | lock
  | init
  | wink
  | cbor
  | cancel
  | keepalive
  | error
  | vendor (code : UInt8)
  deriving DecidableEq, Repr

namespace CtaphidCommand

/-- `from_raw_cmd`. -/
def fromRawCmd (cmd : UInt8) : CtaphidCommand :=
  match cmd &&& 0x7F with
  | 0x01 => .ping
  | 0x03 => .msg
  | 0x04 => .lock
  | 0x06 => .init
  | 0x08 => .wink
  | 0x10 => .cbor
  | 0x11 => .cancel
  | 0x3B => .keepalive
  | 0x3F => .error
  | code => .vendor code

/-- `raw_code`. -/
def rawCode : CtaphidCommand → UInt8
  | .ping => 0x01
  | .msg => 0x03
  | .lock => 0x04
  | .init => 0x06
  | .wink => 0x08
  | .cbor => 0x10
  | .cancel => 0x11
  | .keepalive => 0x3B
  | .error => 0x3F
  | .vendor code => code

/-- `to_init_cmd_byte`. -/
def toInitCmdByte (cmd : CtaphidCommand) : UInt8 := 0x80 ||| (cmd.rawCode &&& 0x7F)

end CtaphidCommand

/-- `CtaphidErrorCode`. -/
inductive CtaphidErrorCode
  | invalidCmd
  | invalidPar
  | invalidLen
  | invalidSeq
  | msgTimeout
  | channelBusy
  | lockRequired
  | invalidChannel
  | other
  deriving DecidableEq, Repr

/-- `CtaphidMessage`. -/
structure CtaphidMessage where
  cid : UInt32
  cmd : CtaphidCommand
  payload : Bytes
  deriving DecidableEq, Repr

/-! ## Packets -/

/-- `[u8; CTAPHID_PACKET_SIZE]`. -/
structure RawPacket where
  bytes : Bytes
  length_bytes : bytes.length = packetSize
  deriving DecidableEq

namespace RawPacket

/-- A byte of a packet. -/
def byte (raw : RawPacket) (i : Nat) : UInt8 := raw.bytes.getD i 0

/-- `raw[start..start + len]`. -/
def slice (raw : RawPacket) (start len : Nat) : Bytes := (raw.bytes.drop start).take len

/-- Bytes in front, zeros behind. -/
def padded (front : Bytes) (h : front.length ≤ packetSize) : RawPacket where
  bytes := front ++ List.replicate (packetSize - front.length) 0
  length_bytes := by
    rw [List.length_append, List.length_replicate]
    omega

end RawPacket

/-- `PacketError`. -/
inductive PacketError
  | invalidBufferSize
  | payloadLengthTooLarge (len : Nat)
  deriving DecidableEq, Repr

/-- `CtaphidPacket`. -/
inductive CtaphidPacket
  | init (cid : UInt32) (cmd : CtaphidCommand) (totalLen : UInt16) (data : Bytes)
  | cont (cid : UInt32) (seq : UInt8) (data : Bytes)
  deriving DecidableEq, Repr

namespace CtaphidPacket

/-- `from_bytes`. -/
def fromBytes (raw : RawPacket) : Except PacketError CtaphidPacket :=
  let cid := UInt32.ofNat (Bytes.beNat (raw.slice 0 4))
  let cmdOrSeq := raw.byte 4
  if cmdOrSeq &&& 0x80 ≠ 0 then
    let totalLen := UInt16.ofNat (Bytes.beNat (raw.slice 5 2))
    .ok (.init cid (.fromRawCmd cmdOrSeq) totalLen
      (raw.slice 7 (min totalLen.toNat initPayloadSize)))
  else .ok (.cont cid (cmdOrSeq &&& 0x7F) (raw.slice 5 (packetSize - 5)))

/-- The bytes `to_bytes` writes in front of the padding. -/
def front : CtaphidPacket → Bytes
  | .init cid cmd totalLen data =>
      Bytes.beBytes 4 cid.toNat ++ cmd.toInitCmdByte :: Bytes.beBytes 2 totalLen.toNat ++
        data.take initPayloadSize
  | .cont cid seq data =>
      Bytes.beBytes 4 cid.toNat ++ (seq &&& 0x7F) :: data.take contPayloadSize

theorem length_front_le (packet : CtaphidPacket) : packet.front.length ≤ packetSize := by
  cases packet with
  | init cid cmd totalLen data =>
      simp [front, packetSize, initPayloadSize]
      omega
  | cont cid seq data =>
      simp [front, packetSize, contPayloadSize]
      omega

/-- `to_bytes`. -/
def toBytes (packet : CtaphidPacket) : RawPacket := .padded packet.front packet.length_front_le

end CtaphidPacket

/-! ## The fragmenter -/

/-- `FragmenterError`. -/
inductive FragmenterError
  | payloadTooLarge (len : Nat)
  deriving DecidableEq, Repr

/-- The loop of `fragment`, over what is left of the payload. -/
def contPackets (cid : UInt32) (seq : UInt8) (rest : Bytes) : List RawPacket :=
  if 0 < rest.length then
    CtaphidPacket.toBytes (.cont cid seq (rest.take contPayloadSize)) ::
      contPackets cid (seq + 1) (rest.drop contPayloadSize)
  else []
termination_by rest.length
decreasing_by
  rw [List.length_drop]
  unfold contPayloadSize
  omega

/-- `fragment`. -/
def fragment (cid : UInt32) (cmd : CtaphidCommand) (payload : Bytes) :
    Except FragmenterError (List RawPacket) :=
  if payload.length > maxPayloadLen then .error (.payloadTooLarge payload.length)
  else
    let initChunkLen := min payload.length initPayloadSize
    .ok (CtaphidPacket.toBytes
        (.init cid cmd (UInt16.ofNat payload.length) (payload.take initChunkLen)) ::
      contPackets cid 0 (payload.drop initChunkLen))

/-! ## The assembler -/

/-- `AssemblyState`. -/
structure AssemblyState where
  cid : UInt32
  cmd : CtaphidCommand
  totalLen : Nat
  buffer : Bytes
  nextSeq : UInt8

/-- `CtaphidAssembler`. -/
structure CtaphidAssembler where
  activeState : Option AssemblyState

namespace CtaphidAssembler

/-- A step of the assembler: a message, nothing yet, or an error on a channel. -/
abbrev Step := Prog CtaphidAssembler (UInt32 × CtaphidErrorCode) (Option CtaphidMessage)

/-- Put a transaction in place of the one in progress. -/
def setActive (state : Option AssemblyState) :
    Prog CtaphidAssembler (UInt32 × CtaphidErrorCode) Unit :=
  Prog.update fun _ => ⟨state⟩

/-- The branch of `process_packet` for an INIT packet. -/
def processInit (cid : UInt32) (cmd : CtaphidCommand) (totalLen : UInt16) (data : Bytes) : Step :=
  if totalLen.toNat > maxPayloadLen then do
    setActive none
    Prog.fail (cid, .invalidLen)
  else if cmd = .cancel then do
    setActive none
    pure (some ⟨cid, cmd, []⟩)
  else if totalLen.toNat ≤ initPayloadSize then do
    setActive none
    pure (some ⟨cid, cmd, data.take (min totalLen.toNat data.length)⟩)
  else do
    setActive (some ⟨cid, cmd, totalLen.toNat, data, 0⟩)
    pure none

/-- A transaction with the data of a CONT packet appended. -/
def AssemblyState.extend (state : AssemblyState) (data : Bytes) : AssemblyState :=
  let remaining := state.totalLen - state.buffer.length
  let chunkLen := min remaining (min data.length contPayloadSize)
  { state with buffer := state.buffer ++ data.take chunkLen, nextSeq := state.nextSeq + 1 }

/-- The branch of `process_packet` for a CONT packet. -/
def processCont (cid : UInt32) (seq : UInt8) (data : Bytes) : Step := do
  let active ← Prog.read fun s => s.activeState
  match active with
  | none => Prog.fail (cid, .invalidSeq)
  | some state =>
      if state.cid ≠ cid then Prog.fail (cid, .invalidChannel)
      else if state.nextSeq ≠ seq then do
        setActive none
        Prog.fail (cid, .invalidSeq)
      else
        let state := AssemblyState.extend state data
        if state.buffer.length ≥ state.totalLen then do
          setActive none
          pure (some ⟨state.cid, state.cmd, state.buffer⟩)
        else do
          setActive (some state)
          pure none

/-- `process_packet`. -/
def processPacket (raw : RawPacket) : Step := do
  let packet ← Prog.check fun _ =>
    (CtaphidPacket.fromBytes raw).mapError fun _ => ((0 : UInt32), CtaphidErrorCode.invalidPar)
  match packet with
  | .init cid cmd totalLen data => processInit cid cmd totalLen data
  | .cont cid seq data => processCont cid seq data

/-- The answers to packets, one after the other. -/
def feed (s : CtaphidAssembler) :
    List RawPacket → List (Except (UInt32 × CtaphidErrorCode) (Option CtaphidMessage))
  | [] => []
  | raw :: rest => ((processPacket raw).run s).1 :: feed ((processPacket raw).run s).2 rest

end CtaphidAssembler

end OpenKey.Ctaphid
