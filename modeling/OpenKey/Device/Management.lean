import OpenKey.Device.Applet
import OpenKey.Library.Blob

/-!
# The Management applet

`crates/openkey-device/src/firmware/yubico_management.rs`: a serial number drawn once, and the
interface configuration that READ CONFIG, WRITE CONFIG and SET MODE work on.
-/

namespace OpenKey

open Command

set_option autoImplicit false

/-- `AID_YUBICO_MANAGEMENT`. -/
def aidYubicoManagement : Bytes := [0xA0, 0x00, 0x00, 0x05, 0x27, 0x47, 0x11, 0x17]

/-- `SUPPORTED_CAPABILITIES`. -/
def supportedCapabilities : UInt16 := 0x062E

/-- A configuration lock code: 16 bytes. -/
abbrev LockCode := { code : Bytes // code.length = 16 }

/-- `ManagementState`. The serial is never zero, which stands for no serial. -/
structure ManagementState where
  serial : UInt32
  usbEnabled : UInt16
  nfcEnabled : UInt16
  autoEjectTimeout : UInt16
  chalrespTimeout : UInt8
  deviceFlags : UInt8
  lockCode : Option LockCode
  serial_ne : serial ≠ 0
  deriving DecidableEq

namespace ManagementState

/-! ## The persisted form -/

/-- `ManagementState::factory`. -/
def factory (serial : UInt32) (h : serial ≠ 0) : ManagementState :=
  ⟨serial, supportedCapabilities, 0, 0, 0, 0, none, h⟩

/-- The lock code behind its flag. -/
def serializeLock : Option LockCode → Bytes
  | none => 0 :: List.replicate 16 0
  | some code => 1 :: code

/-- `serialize_state`. -/
def serialize (state : ManagementState) : Bytes :=
  2 :: (Bytes.beBytes 4 state.serial.toNat ++
    (Bytes.beBytes 2 state.usbEnabled.toNat ++
    (Bytes.beBytes 2 state.nfcEnabled.toNat ++
    (Bytes.beBytes 2 state.autoEjectTimeout.toNat ++
    ([state.chalrespTimeout] ++ ([state.deviceFlags] ++ serializeLock state.lockCode))))))

/-- The lock code behind its flag. -/
def readLock : Blob.Reader (Option LockCode) := do
  let flag ← Blob.byte
  let code ← Blob.take 16
  if flag = 0 then pure none
  else if h : flag = 1 ∧ code.length = 16 then pure (some ⟨code, h.2⟩)
  else failure

/-- A configuration around a serial. -/
def build (serial : UInt32) (usbEnabled nfcEnabled autoEjectTimeout : UInt16)
    (chalrespTimeout deviceFlags : UInt8) (lockCode : Option LockCode) :
    Blob.Reader ManagementState :=
  if h : serial ≠ 0 then
    pure ⟨serial, usbEnabled, nfcEnabled, autoEjectTimeout, chalrespTimeout, deviceFlags,
      lockCode, h⟩
  else failure

/-- The body of version 1: the serial only. -/
def readV1 : Blob.Reader ManagementState := do
  let serial ← Blob.number 4
  build (UInt32.ofNat serial) supportedCapabilities 0 0 0 0 none

/-- The body of version 2. -/
def readV2 : Blob.Reader ManagementState := do
  let serial ← Blob.number 4
  let usbEnabled ← Blob.number 2
  let nfcEnabled ← Blob.number 2
  let autoEjectTimeout ← Blob.number 2
  let chalrespTimeout ← Blob.byte
  let deviceFlags ← Blob.byte
  let lockCode ← readLock
  build (UInt32.ofNat serial) (UInt16.ofNat usbEnabled) (UInt16.ofNat nfcEnabled)
    (UInt16.ofNat autoEjectTimeout) chalrespTimeout deviceFlags lockCode

/-- `parse_state`. -/
def parse : Bytes → Option ManagementState
  | [] => none
  | version :: body =>
      if version = 1 then Blob.whole readV1 body
      else if version = 2 then Blob.whole readV2 body
      else none

theorem reads_lock (lockCode : Option LockCode) :
    Blob.Reads readLock (serializeLock lockCode) lockCode := by
  intro rest
  cases lockCode with
  | none => rfl
  | some code =>
      have htake := Blob.reads_take code.1 rest
      rw [code.2] at htake
      show ((Blob.take 16 (code.1 ++ rest)).bind fun p =>
        (if h : (1 : UInt8) = 1 ∧ p.1.length = 16 then pure (some ⟨p.1, h.2⟩) else failure :
          Blob.Reader (Option LockCode)) p.2) = _
      rw [htake, Option.bind_some, dif_pos ⟨rfl, code.2⟩]
      rfl

theorem reads_build (state : ManagementState) :
    Blob.Reads (build state.serial state.usbEnabled state.nfcEnabled state.autoEjectTimeout
      state.chalrespTimeout state.deviceFlags state.lockCode) [] state := by
  intro rest
  rw [build, dif_pos state.serial_ne]
  rfl

theorem reads_v2 (state : ManagementState) : Blob.Reads readV2 state.serialize.tail state := by
  have h32 : state.serial.toNat < 256 ^ 4 := state.serial.toNat_lt
  refine Blob.reads_bind (Blob.reads_number h32) ?_
  refine Blob.reads_bind (Blob.reads_number state.usbEnabled.toNat_lt) ?_
  refine Blob.reads_bind (Blob.reads_number state.nfcEnabled.toNat_lt) ?_
  refine Blob.reads_bind (Blob.reads_number state.autoEjectTimeout.toNat_lt) ?_
  refine Blob.reads_bind (Blob.reads_byte _) (Blob.reads_bind (Blob.reads_byte _) ?_)
  refine Blob.reads_bind_last (reads_lock state.lockCode) ?_
  simp only [UInt32.ofNat_toNat, UInt16.ofNat_toNat]
  exact reads_build state

/-- A state is read back as it was written. -/
theorem parse_serialize (state : ManagementState) : parse state.serialize = some state :=
  Blob.whole_of_reads (reads_v2 state)

end ManagementState

/-- The draws of `factory_state`: until the serial is not zero, `patience` times at most. -/
def drawSerial : Nat → Prog (Nat → Entropy) Fault ManagementState
  | 0 => Prog.fail .hang
  | patience + 1 => do
      let entropy ← Prog.act fun rng => (rng 0, fun n => rng (n + 1))
      let serial := UInt32.ofNat (Bytes.beNat (entropy.bytes 4))
      if h : serial ≠ 0 then pure (.factory serial h) else drawSerial patience

/-- The state of the Management applet in storage. -/
def managementFormat (patience : Nat) : AppletFormat ManagementState where
  storageKey := "sys:mgmt"
  failure := swConditionsNotSatisfied
  serialize := ManagementState.serialize
  parse := ManagementState.parse
  migrates _ := false
  factory := drawSerial patience
  parse_serialize := ManagementState.parse_serialize
  migrates_serialize _ := rfl

/-! ## Commands -/

/-- The applet has no session. -/
abbrev ManagementCommand := Command ManagementState Unit

/-- `read_config_payload`. -/
def readConfigPayload (state : ManagementState) : Except Fault Bytes := do
  let out ← pushTlv [] 0x01 (Bytes.beBytes 2 supportedCapabilities.toNat)
  let out ← pushTlv out 0x02 (Bytes.beBytes 4 state.serial.toNat)
  let out ← pushTlv out 0x03 (Bytes.beBytes 2 state.usbEnabled.toNat)
  let out ← pushTlv out 0x04 [0x01]
  let out ← pushTlv out 0x05 [0x05, 0x04, 0x00]
  let out ← if state.autoEjectTimeout ≠ 0 then
      pushTlv out 0x06 (Bytes.beBytes 2 state.autoEjectTimeout.toNat) else pure out
  let out ← if state.chalrespTimeout ≠ 0 then pushTlv out 0x07 [state.chalrespTimeout]
    else pure out
  let out ← if state.deviceFlags ≠ 0 then pushTlv out 0x08 [state.deviceFlags] else pure out
  let out ← if state.nfcEnabled ≠ 0 then
      pushTlv out 0x0E (Bytes.beBytes 2 state.nfcEnabled.toNat) else pure out
  pure (UInt8.ofNat out.length :: out)

/-- `cmd_read_config`. -/
def cmdReadConfig (page : UInt8) : ManagementCommand ResponseData := do
  require (page = 0) swWrongP1P2
  ensureLoaded
  let state ← loadedState
  let payload ← orFault (readConfigPayload state)
  pure (.ok payload)

/-- `tlv_get`. -/
def tlvGet (tlvs : List (UInt8 × Bytes)) (tag : UInt8) : Option Bytes :=
  (tlvs.find? fun tlv => tlv.1 = tag).map (·.2)

/-- The value under a tag, in place of an earlier one. -/
def tlvSet (tag : UInt8) (value : Bytes) : List (UInt8 × Bytes) → List (UInt8 × Bytes)
  | [] => [(tag, value)]
  | tlv :: rest => if tlv.1 = tag then (tag, value) :: rest else tlv :: tlvSet tag value rest

/-- `parse_config_payload`: behind a length, the short forms; the last of a tag wins. -/
def parseConfigPayload : Bytes → Except UInt16 (List (UInt8 × Bytes))
  | [] => .error swWrongLength
  | len :: body =>
      if body.length ≠ len.toNat then .error swWrongLength
      else do
        let tlvs ← parseTlvs body
        pure (tlvs.foldl (fun out tlv => tlvSet tlv.1 tlv.2 out) [])

/-- The length that WRITE CONFIG checks for in a value. -/
def configLength (tag : UInt8) : Option Nat :=
  if tag = 0x06 then some 2
  else if tag = 0x07 ∨ tag = 0x08 then some 1
  else if tag = 0x0A then some 16
  else none

/-- The checks of WRITE CONFIG, before anything changes. -/
def checkConfig (state : ManagementState) (tlvs : List (UInt8 × Bytes)) : Except Fault Unit := do
  if let some cur := tlvGet tlvs 0x0B then
    if cur.length ≠ 16 then throw (.status swWrongSyntax)
    if let some expected := state.lockCode then
      if cur ≠ expected.1 then throw (.status swSecurityStatus)
  if let some value := tlvGet tlvs 0x03 then
    if value.length ≠ 2 then throw (.status swWrongSyntax)
    let caps ← u16OfBe value
    if caps &&& ~~~supportedCapabilities ≠ 0 then throw (.status swWrongSyntax)
  if let some value := tlvGet tlvs 0x0E then
    if value.length ≠ 2 then throw (.status swWrongSyntax)
  if tlvs.any fun tlv => (configLength tlv.1).any (· ≠ tlv.2.length) then
    throw (.status swWrongSyntax)

/-- The lock code that WRITE CONFIG sets: 16 zeros remove it. -/
def newLockCode (value : Bytes) : Except Fault (Option LockCode) :=
  if h : value.length = 16 then
    .ok (if value = List.replicate 16 0 then none else some ⟨value, h⟩)
  else .error .panic

/-- The configuration after WRITE CONFIG. -/
def applyConfig (state : ManagementState) (tlvs : List (UInt8 × Bytes)) :
    Except Fault ManagementState := do
  let usbEnabled ← (tlvGet tlvs 0x03).elim (pure state.usbEnabled) u16OfBe
  let nfcEnabled ← (tlvGet tlvs 0x0E).elim (pure state.nfcEnabled) u16OfBe
  let autoEjectTimeout ← (tlvGet tlvs 0x06).elim (pure state.autoEjectTimeout) u16OfBe
  let chalrespTimeout ← (tlvGet tlvs 0x07).elim (pure state.chalrespTimeout) firstByte
  let deviceFlags ← (tlvGet tlvs 0x08).elim (pure state.deviceFlags) firstByte
  let lockCode ← (tlvGet tlvs 0x0A).elim (pure state.lockCode) newLockCode
  pure { state with usbEnabled, nfcEnabled, autoEjectTimeout, chalrespTimeout, deviceFlags,
                    lockCode }

/-- `cmd_write_config`. -/
def cmdWriteConfig (data : Bytes) : ManagementCommand ResponseData := do
  let tlvs ← orStatus (parseConfigPayload data)
  ensureLoaded
  let state ← loadedState
  orFault (checkConfig state tlvs)
  let state ← orFault (applyConfig state tlvs)
  setState state
  persistState
  pure (.ok [])

/-- `MODE_CAPS`: one mode fewer than the three bits of a code can name. -/
def modeCaps : List UInt16 := [0x0001, 0x0438, 0x0439, 0x0202, 0x0203, 0x063A, 0x063B]

/-- `cmd_set_mode`. The code that no mode has is an index out of range. -/
def cmdSetMode (p1 : UInt8) (data : Bytes) : ManagementCommand ResponseData := do
  require (p1 = 0x11) swWrongP1P2
  match data with
  | [mode, chalrespTimeout, lo, hi] => do
      let caps ← orFault (modeCaps[(mode &&& 0x07).toNat]?.elim (.error .panic) .ok)
      ensureLoaded
      let state ← loadedState
      setState { state with
        usbEnabled := caps &&& supportedCapabilities
        chalrespTimeout := chalrespTimeout
        autoEjectTimeout := UInt16.ofNat (Bytes.beNat [hi, lo]) }
      persistState
      pure (.ok [])
  | _ => refuse swWrongLength

/-- `process`. -/
def managementProcess (apdu : Apdu) : ManagementCommand ResponseData := do
  require (apdu.cla = 0) swClassNotSupported
  if apdu.ins = 0x1D then cmdReadConfig apdu.p1
  else if apdu.ins = 0x1C then do
    require (apdu.p1 = 0 ∧ apdu.p2 = 0) swWrongP1P2
    cmdWriteConfig apdu.data
  else if apdu.ins = 0x16 then cmdSetMode apdu.p1 apdu.data
  else refuse swInsNotSupported

end OpenKey
