import OpenKey.Library.Prog
import OpenKey.Transport.ApduCommand

/-!
# Framing over BLE GATT

`ble_fragment` and `FramedBleGattTransport` of
`crates/openkey-transport/src/bluetooth/framed_ble.rs`. A message is cut into notifications: the
first one carries a header of three bytes, the command and the length of the message, and the others
carry bytes of the message and nothing else. The receiver collects bytes until it has as many as the
header says.
-/

namespace OpenKey

set_option autoImplicit false

/-! ## Constants -/

/-- `BLE_HEADER_LEN`. -/
def bleHeaderLen : Nat := 3

/-- `BLE_DEFAULT_MTU`. -/
def bleDefaultMtu : Nat := 23

/-- `BLE_MAX_NOTIFICATION_LEN`. -/
def bleMaxNotificationLen : Nat := bleDefaultMtu - 3

/-- `BLE_CMD_MSG`. -/
def bleCmdMsg : UInt8 := 0x83

/-- `BLE_MAX_MESSAGE_LEN`. -/
def bleMaxMessageLen : Nat := 1024

/-! ## Fragments -/

/-- The size of a fragment: room for the header and one byte at least. -/
def bleChunk (maxChunk : Nat) : Nat := max maxChunk (bleHeaderLen + 1)

theorem bleHeaderLen_lt_bleChunk (maxChunk : Nat) : bleHeaderLen < bleChunk maxChunk :=
  Nat.lt_of_succ_le (le_max_right maxChunk _)

/-- The loop of `ble_fragment`, over what is left of the payload. -/
def bleContinuations (maxChunk : Nat) (rest : Bytes) : List Bytes :=
  if 0 < rest.length then
    rest.take (bleChunk maxChunk) :: bleContinuations maxChunk (rest.drop (bleChunk maxChunk))
  else []
termination_by rest.length
decreasing_by
  have hchunk := bleHeaderLen_lt_bleChunk maxChunk
  rw [List.length_drop]
  omega

/-- The header: the command and the length, big-endian. -/
def bleHeader (cmd : UInt8) (total : Nat) : Bytes :=
  [cmd, UInt8.ofNat (total >>> 8), UInt8.ofNat (total &&& 0xFF)]

/-- `ble_fragment`. -/
def bleFragment (cmd : UInt8) (payload : Bytes) (maxChunk : Nat) : List Bytes :=
  let total := payload.length
  if total = 0 then [[cmd, 0, 0]]
  else
    let firstLen := min total (bleChunk maxChunk - bleHeaderLen)
    (bleHeader cmd total ++ payload.take firstLen) ::
      bleContinuations maxChunk (payload.drop firstLen)

/-! ## The transport -/

/-- `BleGattDevice`. -/
class BleGattDevice (δ : Type) where
  init : Prog δ EmbeddedTransportError Unit
  isConnected : δ → Bool
  sendNotification : Bytes → Prog δ EmbeddedTransportError Unit
  /-- `recv_command`, into a buffer of this length: the bytes that are read. -/
  recvCommand : Nat → Prog δ EmbeddedTransportError Bytes
  disconnect : Prog δ EmbeddedTransportError Unit

/-- `FramedBleGattTransport`. -/
structure FramedBleGattTransport (δ : Type) where
  device : δ
  rxBuf : Bytes
  rxExpected : Option Nat
  initialized : Bool

namespace FramedBleGattTransport

variable {δ : Type}

/-- `new`. -/
def new (device : δ) : FramedBleGattTransport δ := ⟨device, [], none, false⟩

/-- `reset_assembler`. -/
def resetAssembler : Prog (FramedBleGattTransport δ) TransportError Unit :=
  Prog.update fun t => { t with rxBuf := [], rxExpected := none }

/-- What `push_fragment` does with a fragment before it counts the bytes. -/
def collect (frag : Bytes) : Prog (FramedBleGattTransport δ) TransportError Unit := do
  let expected ← Prog.read fun t => t.rxExpected
  match expected with
  | none =>
      if frag.length < bleHeaderLen then
        Prog.fail (.recvError "ble fragment too short for header")
      else
        let total := (frag.getD 1 0).toNat <<< 8 ||| (frag.getD 2 0).toNat
        if total > bleMaxMessageLen then Prog.fail (.recvError "ble message exceeds max length")
        else
          Prog.update fun t => { t with
            rxBuf := frag.drop bleHeaderLen, rxExpected := some total }
  | some _ => Prog.update fun t => { t with rxBuf := t.rxBuf ++ frag }

/-- What it does then: the message, if all its bytes are there. -/
def complete : Prog (FramedBleGattTransport δ) TransportError (Option Bytes) := do
  let expected ← Prog.read fun t => t.rxExpected.getD 0
  let received ← Prog.read fun t => t.rxBuf
  if received.length > expected then do
    resetAssembler
    Prog.fail (.recvError "ble framing overflow")
  else if received.length = expected then do
    Prog.update fun t => { t with rxBuf := [], rxExpected := none }
    pure (some received)
  else pure none

/-- `push_fragment`. -/
def pushFragment (frag : Bytes) :
    Prog (FramedBleGattTransport δ) TransportError (Option Bytes) := do
  collect frag
  complete

/-- The answers to fragments, one after the other. -/
def pushAll (t : FramedBleGattTransport δ) :
    List Bytes → List (Except TransportError (Option Bytes))
  | [] => []
  | frag :: rest => ((pushFragment frag).run t).1 :: pushAll ((pushFragment frag).run t).2 rest

variable [BleGattDevice δ]

/-- A call on the device. -/
def onDevice {α : Type} (m : Prog δ EmbeddedTransportError α) :
    Prog (FramedBleGattTransport δ) TransportError α :=
  Prog.mapError .ofEmbedded (Prog.zoom (·.device) (fun device t => { t with device := device }) m)

/-- `init`. -/
def init : Prog (FramedBleGattTransport δ) TransportError Unit := do
  onDevice BleGattDevice.init
  resetAssembler
  Prog.update fun t => { t with initialized := true }

/-- The loop of `send`. -/
def sendAll : List Bytes → Prog (FramedBleGattTransport δ) TransportError Unit
  | [] => pure ()
  | frag :: rest => do
      onDevice (BleGattDevice.sendNotification frag)
      sendAll rest

/-- `send`. -/
def send (data : Bytes) : Prog (FramedBleGattTransport δ) TransportError Unit := do
  Prog.ensure (fun t => t.initialized) .notInitialized
  Prog.ensure (fun t => BleGattDevice.isConnected t.device) .closed
  sendAll (bleFragment bleCmdMsg data bleMaxNotificationLen)

/-- The loop of `recv`, `fuel` times at most. -/
def recvLoop : Nat → Prog (FramedBleGattTransport δ) TransportError (Option Bytes)
  | 0 => pure none
  | fuel + 1 => do
      Prog.ensure (fun t => BleGattDevice.isConnected t.device) .closed
      let frag ← onDevice (BleGattDevice.recvCommand (bleMaxNotificationLen * 2))
      if frag.length = 0 then recvLoop fuel
      else do
        let message ← pushFragment frag
        match message with
        | some message => pure (some message)
        | none => recvLoop fuel

/-- `recv`; nothing if the loop takes longer. -/
def recv (fuel : Nat) : Prog (FramedBleGattTransport δ) TransportError (Option Bytes) := do
  Prog.ensure (fun t => t.initialized) .notInitialized
  Prog.ensure (fun t => BleGattDevice.isConnected t.device)
    (.recvError "timeout: ble central not connected")
  recvLoop fuel

end FramedBleGattTransport

end OpenKey
