import OpenKey.Storage.Backend

/-!
# The two-slot flash backend

`FlashStorageBackend` of `crates/openkey-storage/src/storage.rs`. The medium holds two slots,
one sector each. A slot is a header of twenty bytes (magic, generation, payload length and
checksum of the payload, all little-endian) followed by a serialised snapshot of the whole
map. A commit erases the slot that is not in use and programs header and payload there;
opening the backend takes the valid slot with the greater generation.

`NorFlash` is a device that meets the contract of the trait `FlashDevice`: erasing restores a
sector to `0xff`, programming only clears bits. It runs on a power supply that may be cut
after any number of device steps, one step being the erasure of a sector or the programming
of one byte.
-/

namespace OpenKey

open Std Bytes

set_option autoImplicit false

/-! ## Devices -/

/-- The minimal contract a flash HAL adapts. -/
class FlashDevice (δ : Type) where
  capacity : δ → Nat
  sectorSize : δ → Nat
  /-- `read d offset len`. -/
  read : δ → Nat → Nat → Except StorageError Bytes
  eraseSector : Nat → Prog δ StorageError Unit
  /-- `program offset data`: bits go from 1 to 0 only. -/
  program : Nat → Bytes → Prog δ StorageError Unit

/-- A NOR flash on a power supply. -/
structure NorFlash where
  sectorSize : Nat
  bytes : Bytes
  /-- Device steps left before the power fails; `none` is a lasting supply. -/
  power : Option Nat
  deriving DecidableEq

namespace NorFlash

/-- An erased device. -/
def erased (sectorSize sectors : Nat) : NorFlash where
  sectorSize := sectorSize
  bytes := List.replicate (sectorSize * sectors) 0xff
  power := none

/-- The device steps out of `n` that the supply still pays for. -/
def allowed (d : NorFlash) (n : Nat) : Nat :=
  match d.power with
  | none => n
  | some p => min p n

/-- The supply after `n` device steps. -/
def drain (d : NorFlash) (n : Nat) : Option Nat := d.power.map (· - n)

/-- Clear the bits of `old` that `data` has clear, from `offset` on. -/
def clearBits (old : Bytes) (offset : Nat) (data : Bytes) : Bytes :=
  old.splice offset (List.zipWith (· &&& ·) (old.drop offset) data)

/-- Read a range. -/
def readRange (d : NorFlash) (offset len : Nat) : Except StorageError Bytes :=
  if offset + len ≤ d.bytes.length then .ok ((d.bytes.drop offset).take len)
  else .error (.backendError "flash read out of bounds")

/-- Restore a sector to `0xff`, in one device step. -/
def eraseSector (sector : Nat) : Prog NorFlash StorageError Unit := .mk fun d =>
  let start := sector * d.sectorSize
  if d.bytes.length < start + d.sectorSize then
    (.error (.backendError "flash sector out of bounds"), d)
  else if d.allowed 1 = 0 then (.error (.backendError "power loss"), d)
  else
    (.ok (), { d with
      bytes := d.bytes.splice start (List.replicate d.sectorSize 0xff)
      power := d.drain 1 })

/-- Program bytes in order, one device step each, until done or out of power. -/
def program (offset : Nat) (data : Bytes) : Prog NorFlash StorageError Unit := .mk fun d =>
  if d.bytes.length < offset + data.length then
    (.error (.backendError "flash program out of bounds"), d)
  else
    let n := d.allowed data.length
    let d' := { d with bytes := clearBits d.bytes offset (data.take n), power := d.drain n }
    if n ≠ data.length then (.error (.backendError "power loss"), d') else (.ok (), d')

instance : FlashDevice NorFlash where
  capacity d := d.bytes.length
  sectorSize d := d.sectorSize
  read := readRange
  eraseSector := eraseSector
  program := program

@[simp] theorem capacity_eq (d : NorFlash) : FlashDevice.capacity d = d.bytes.length := rfl

@[simp] theorem sectorSize_eq (d : NorFlash) : FlashDevice.sectorSize d = d.sectorSize := rfl

@[simp] theorem read_eq (d : NorFlash) (offset len : Nat) :
    FlashDevice.read d offset len = readRange d offset len := rfl

@[simp] theorem eraseSector_eq (sector : Nat) :
    (FlashDevice.eraseSector sector : Prog NorFlash StorageError Unit) = eraseSector sector := rfl

@[simp] theorem program_eq (offset : Nat) (data : Bytes) :
    (FlashDevice.program offset data : Prog NorFlash StorageError Unit) = program offset data :=
  rfl

end NorFlash

/-! ## The backend -/

/-- `b"OKF1"`. -/
def flashMagic : Bytes := [0x4f, 0x4b, 0x46, 0x31]

/-- `FLASH_HEADER_SIZE`. -/
def flashHeaderSize : Nat := 20

/-- Crash-safe backend of two slots. -/
structure FlashStorageBackend (δ : Type) where
  device : δ
  cache : KvMap
  activeSector : Nat
  generation : Nat

namespace FlashStorageBackend

variable {δ : Type} [FlashDevice δ] (codec : Codec KvMap)

/-- FNV-1a over the payload. -/
def checksum (data : Bytes) : UInt32 :=
  data.foldl (fun hash byte => (hash ^^^ byte.toUInt32) * 16777619) 2166136261

/-- What the bytes of a slot stand for: nothing, or a generation and its snapshot. -/
def parseSlot (raw : Bytes) : Except StorageError (Option (Nat × KvMap)) :=
  if raw.take 4 ≠ flashMagic then .ok none
  else
    let generation := leNat ((raw.drop 4).take 8)
    let len := leNat ((raw.drop 12).take 4)
    let sum := leNat ((raw.drop 16).take 4)
    if len > raw.length - flashHeaderSize then .ok none
    else
      let payload := (raw.drop flashHeaderSize).take len
      if (checksum payload).toNat ≠ sum then .ok none
      else
        match codec.decode payload with
        | none => .error (.serializationError "cbor deserialization failed")
        | some cache => .ok (some (generation, cache))

/-- `read_slot`: the buffer read is exactly one sector long. -/
def readSlot (device : δ) (sector : Nat) : Except StorageError (Option (Nat × KvMap)) := do
  let size := FlashDevice.sectorSize device
  let raw ← FlashDevice.read device (sector * size) size
  parseSlot codec raw

/-- Take over what a slot holds if it is at least as recent. -/
def adopt (b : FlashStorageBackend δ) (sector : Nat) :
    Option (Nat × KvMap) → FlashStorageBackend δ
  | some (generation, cache) =>
      if generation ≥ b.generation then
        { b with generation := generation, activeSector := sector, cache := cache }
      else b
  | none => b

/-- One turn of the loop of `load_latest`. -/
def loadSlot (b : FlashStorageBackend δ) (sector : Nat) :
    Except StorageError (FlashStorageBackend δ) :=
  (readSlot codec b.device sector).map (b.adopt sector)

/-- `load_latest`: keep the valid slot with the greater generation. -/
def loadLatest (b : FlashStorageBackend δ) : Except StorageError (FlashStorageBackend δ) := do
  let b ← loadSlot codec b 0
  loadSlot codec b 1

/-- Open the latest valid version; incomplete slots are ignored. -/
def new (device : δ) : Except StorageError (FlashStorageBackend δ) :=
  if FlashDevice.capacity device < FlashDevice.sectorSize device * 2 ∨
      FlashDevice.sectorSize device ≤ flashHeaderSize then
    .error (.backendError "flash must provide two usable sectors")
  else
    loadLatest codec { device := device, cache := ∅, activeSector := 0, generation := 0 }

/-- The header of a slot. -/
def header (generation : Nat) (payload : Bytes) : Bytes :=
  flashMagic ++ leBytes 8 generation ++ leBytes 4 payload.length ++
    leBytes 4 (checksum payload).toNat

/-- A call on the device of the backend. -/
def onDevice (m : Prog δ StorageError Unit) :
    Prog (FlashStorageBackend δ) StorageError Unit :=
  Prog.zoom (·.device) (fun device b => { b with device := device }) m

/-- Write a snapshot to the slot that is not in use. -/
def commit (cache : KvMap) : Prog (FlashStorageBackend δ) StorageError Unit := do
  let payload := codec.encode cache
  let size ← Prog.read fun b => FlashDevice.sectorSize b.device
  Prog.ensure (fun _ => payload.length ≤ size - flashHeaderSize)
    (.backendError "flash snapshot exceeds sector capacity")
  let target ← Prog.read fun b => 1 - b.activeSector
  onDevice (FlashDevice.eraseSector target)
  let generation ← Prog.read fun b => b.generation + 1
  let offset := target * size
  onDevice (FlashDevice.program offset (header generation payload))
  onDevice (FlashDevice.program (offset + flashHeaderSize) payload)
  Prog.update fun b => { b with activeSector := target, generation := generation }

/-- Commit the map `f` makes of the cache, then adopt it. -/
def commitCache (f : KvMap → KvMap) : Prog (FlashStorageBackend δ) StorageError Unit := do
  let next ← Prog.read fun b => f b.cache
  commit codec next
  Prog.update fun b => { b with cache := next }

/-- `write`. -/
def write (key : String) (value : Bytes) : Prog (FlashStorageBackend δ) StorageError Unit :=
  commitCache codec fun cache => cache.insert key value

/-- `delete`. -/
def delete (key : String) : Prog (FlashStorageBackend δ) StorageError Unit :=
  commitCache codec fun cache => cache.erase key

/-- The backend as the storage engine sees it. -/
@[reducible] def storageBackend : StorageBackend (FlashStorageBackend δ) where
  read b key := .ok b.cache[key]?
  write := write codec
  delete := delete codec
  listKeys b := .ok b.cache.keys

end FlashStorageBackend

end OpenKey
