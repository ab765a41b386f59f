import OpenKey.Library.Checked
import OpenKey.Library.Nor
import OpenKey.Storage.Flash

/-!
# The flash of the RP2350

`QspiFlashDevice` of `targets/rp2350/src/qspi_flash.rs`, over the region that `region_for` of
`targets/rp2350/src/lib.rs` sets apart at the end of the flash. Words are of 32 bits, and arithmetic
that leaves their range panics.

The functions of the boot ROM are given (`BootRom`): the driver looks them up in the table of the
ROM and calls them, and it reads the flash where it is mapped (`peek`). A page is programmed by
reading it, replacing the new bytes in the copy and programming the copy.
-/

namespace OpenKey

set_option autoImplicit false

/-! ## The region -/

/-- `SECTOR_SIZE`. -/
def sectorSize : Nat := 4096

/-- `REGION_LEN`. -/
def regionLen : Nat := 128 * 1024

/-- `XIP_BASE`. -/
def xipBase : Nat := 0x10000000

/-- `PAGE_SIZE`. -/
def pageSize : Nat := 256

/-- `region_for`: base and capacity. -/
def regionFor (totalFlash : Nat) : Option (Nat × Nat) :=
  if totalFlash < 2 * sectorSize then none
  else
    let cap := min regionLen (totalFlash / 2)
    let capAligned := cap / sectorSize * sectorSize
    if capAligned < 2 * sectorSize then none
    else some (totalFlash - capAligned, capAligned)

/-- `FlashDevInfoSize`. -/
inductive FlashDevInfoSize
  | none | k8 | k16 | k32 | k64 | k128 | k256 | k512 | m1 | m2 | m4 | m8 | m16 | unknown
  deriving DecidableEq, Repr

/-- The size in bytes. -/
def FlashDevInfoSize.total : FlashDevInfoSize → Nat
  | .none => 0
  | .k8 => 8 * 1024
  | .k16 => 16 * 1024
  | .k32 => 32 * 1024
  | .k64 => 64 * 1024
  | .k128 => 128 * 1024
  | .k256 => 256 * 1024
  | .k512 => 512 * 1024
  | .m1 => 1024 * 1024
  | .m2 => 2 * 1024 * 1024
  | .m4 => 4 * 1024 * 1024
  | .m8 => 8 * 1024 * 1024
  | .m16 => 16 * 1024 * 1024
  | .unknown => 0

/-- Where a region lies that was set apart in a flash of one of these sizes. -/
structure WellPlaced (regionBase capacity : Nat) : Prop where
  base_mod : regionBase % sectorSize = 0
  capacity_mod : capacity % sectorSize = 0
  fits : regionBase + capacity ≤ 16 * 1024 * 1024

theorem wellPlaced_of_regionFor {size : FlashDevInfoSize} {regionBase capacity : Nat}
    (h : regionFor size.total = some (regionBase, capacity)) : WellPlaced regionBase capacity := by
  have hall : ∀ size : FlashDevInfoSize, ∀ r ∈ regionFor size.total,
      r.1 % sectorSize = 0 ∧ r.2 % sectorSize = 0 ∧ r.1 + r.2 ≤ 16 * 1024 * 1024 := by
    intro size
    cases size <;> decide
  obtain ⟨hbase, hcapacity, hfits⟩ := hall size _ h
  exact ⟨hbase, hcapacity, hfits⟩

/-! ## The device -/

/-- `QspiFlashDevice`. -/
structure QspiFlashDevice where
  regionBase : Nat
  capacity : Nat
  pageBuf : Bytes
  wellPlaced : WellPlaced regionBase capacity

/-- `open`, with what `flash_dev_info` says and the address of `__flash_binary_end`. -/
def QspiFlashDevice.openRegion (info : Except Unit (Option FlashDevInfoSize)) (fwEnd : Nat) :
    Except StorageError QspiFlashDevice :=
  match info with
  | .error _ => .error (.backendError "ROM sysinfo indisponível")
  | .ok none => .error (.backendError "ROM sem FLASH_DEVINFO")
  | .ok (some size) =>
      if size.total = 0 then
        .error (.backendError "tamanho de flash desconhecido (FLASH_DEVINFO)")
      else
        match h : regionFor size.total with
        | none => .error (.backendError "flash pequena demais para a região")
        | some (base, capacity) =>
            if base ≤ (fwEnd + 2 ^ 32 - xipBase) % 2 ^ 32 then
              .error (.backendError "região de credenciais sobrepõe o firmware")
            else
              .ok ⟨base, capacity, List.replicate pageSize 0xFF, wellPlaced_of_regionFor h⟩

/-! ## The boot ROM -/

/-- The functions that are looked up, in this order. -/
inductive RomFunction
  | connectInternalFlash
  | exitXip
  | rangeErase
  | rangeProgram
  | flushCache
  deriving DecidableEq, Repr

/-- `resolve_ptrs` looks up these. -/
def RomFunction.all : List RomFunction :=
  [.connectInternalFlash, .exitXip, .rangeErase, .rangeProgram, .flushCache]

/-- The boot ROM and the flash that it writes. -/
class BootRom (μ : Type) where
  /-- `rom_table_lookup`: an address, or 0. -/
  tableLookup : RomFunction → Nat
  connectInternalFlash : μ → μ
  exitXip : μ → μ
  /-- `range_erase addr count`. -/
  rangeErase : Nat → Nat → μ → μ
  /-- `range_program addr data`. -/
  rangeProgram : Nat → Bytes → μ → μ
  flushCache : μ → μ
  /-- What is mapped at an address. -/
  peek : μ → Nor.Memory

/-- A ROM with all five functions, of which two write to the flash: a sector is erased, and a page
of 256 bytes is programmed by clearing bits. -/
class LawfulBootRom (μ : Type) [BootRom μ] : Prop where
  lookup_ne_zero : ∀ f, BootRom.tableLookup (μ := μ) f ≠ 0
  peek_connectInternalFlash : ∀ m : μ,
    BootRom.peek (BootRom.connectInternalFlash m) = BootRom.peek m
  peek_exitXip : ∀ m : μ, BootRom.peek (BootRom.exitXip m) = BootRom.peek m
  peek_flushCache : ∀ m : μ, BootRom.peek (BootRom.flushCache m) = BootRom.peek m
  peek_rangeErase : ∀ (m : μ) addr, addr % sectorSize = 0 →
    BootRom.peek (BootRom.rangeErase addr sectorSize m) =
      Nor.erase (BootRom.peek m) addr sectorSize
  peek_rangeProgram : ∀ (m : μ) addr page, addr % pageSize = 0 → page.length = pageSize →
    BootRom.peek (BootRom.rangeProgram addr page m) = Nor.program (BootRom.peek m) addr page

/-! ## The driver -/

/-- How a call fails. -/
inductive QspiFault
  | panic (p : Panic)
  /-- The loop does not end. -/
  | hang
  | storage (e : StorageError)
  deriving DecidableEq, Repr

/-- The driver, and the machine that it runs on. -/
structure QspiBoard (μ : Type) where
  device : QspiFlashDevice
  machine : μ

namespace QspiBoard

variable {μ : Type} [BootRom μ]

/-- An error of the driver. -/
def refuse {α : Type} (text : String) : Prog (QspiBoard μ) QspiFault α :=
  Prog.fail (.storage (.backendError text))

/-- Arithmetic on words, and slices. -/
def word {α : Type} (x : Except Panic α) : Prog (QspiBoard μ) QspiFault α :=
  Prog.check fun _ => x.mapError .panic

/-- A call of the ROM. -/
def call (f : μ → μ) : Prog (QspiBoard μ) QspiFault Unit :=
  Prog.update fun b => { b with machine := f b.machine }

/-- `resolve_ptrs`. -/
def resolvePtrs : Prog (QspiBoard μ) QspiFault Unit :=
  if RomFunction.all.any fun f => BootRom.tableLookup (μ := μ) f = 0 then
    refuse "bootrom: função de flash ausente"
  else pure ()

/-- `WindowOp`. -/
inductive WindowOp
  | erase (addr count : Nat)
  | programPage (addr : Nat) (src : Bytes)

/-- `window_exec`. -/
def windowExec (op : WindowOp) : Prog (QspiBoard μ) QspiFault Unit := do
  call BootRom.exitXip
  match op with
  | .erase addr count => call (BootRom.rangeErase addr count)
  | .programPage addr src => call (BootRom.rangeProgram addr src)
  call BootRom.flushCache

/-- `run_windowed`. -/
def runWindowed (op : WindowOp) : Prog (QspiBoard μ) QspiFault Unit := do
  call BootRom.connectInternalFlash
  windowExec op

/-- `xip_addr`. -/
def xipAddr (offset : Nat) : Prog (QspiBoard μ) QspiFault Nat := do
  let capacity ← Prog.read fun b => b.device.capacity
  if offset ≥ capacity then refuse "flash offset fora da região"
  else do
    let regionBase ← Prog.read fun b => b.device.regionBase
    let base ← word (Checked.add xipBase regionBase)
    word (Checked.add base offset)

/-- `read`: as many bytes as the buffer has. -/
def read (offset len : Nat) : Prog (QspiBoard μ) QspiFault Bytes := do
  let capacity ← Prog.read fun b => b.device.capacity
  let room ← word (Checked.sub capacity (min offset capacity))
  if len > room ∨ offset ≥ capacity then refuse "flash read out of bounds"
  else do
    let addr ← xipAddr offset
    Prog.read fun b => Nor.window (BootRom.peek b.machine) addr len

/-- `erase_sector`. -/
def eraseSector (sector : Nat) : Prog (QspiBoard μ) QspiFault Unit := do
  let start := sector * sectorSize
  if start ≥ 2 ^ 32 then refuse "flash sector overflow"
  else do
    let stop ← word (Checked.add start sectorSize)
    let capacity ← Prog.read fun b => b.device.capacity
    if stop > capacity then refuse "flash sector out of bounds"
    else do
      let addr ← xipAddr start
      resolvePtrs
      runWindowed (.erase addr sectorSize)

/-- Read a page into the buffer, and replace bytes of it. -/
def stagePage (addr dstOff : Nat) (chunk : Bytes) : Prog (QspiBoard μ) QspiFault Bytes := do
  Prog.update fun b => { b with device := { b.device with
    pageBuf := Nor.window (BootRom.peek b.machine) addr pageSize } }
  let page ← Prog.read fun b => b.device.pageBuf
  let staged ← word (Checked.copyAt page dstOff chunk)
  Prog.update fun b => { b with device := { b.device with pageBuf := staged } }
  pure staged

/-- One turn of the loop of `program`: how many bytes it has written. -/
def programPage (offset : Nat) (data : Bytes) (pageStart written : Nat) :
    Prog (QspiBoard μ) QspiFault Nat := do
  let pageEnd ← word (Checked.add pageStart pageSize)
  let reached ← word (Checked.add offset written)
  let room ← word (Checked.sub pageEnd reached)
  let left ← word (Checked.sub data.length written)
  let taken := min room left
  let addr ← xipAddr pageStart
  let dstOff ← word (Checked.sub reached pageStart)
  let stop ← word (Checked.add written taken)
  let chunk ← word (Checked.slice data written stop)
  let staged ← stagePage addr dstOff chunk
  resolvePtrs
  runWindowed (.programPage addr staged)
  pure taken

/-- The loop of `program`, `fuel` times at most. -/
def programLoop (offset : Nat) (data : Bytes) :
    Nat → Nat → Nat → Prog (QspiBoard μ) QspiFault Unit
  | 0, _, _ => Prog.fail .hang
  | fuel + 1, pageStart, written =>
      if written < data.length then do
        let taken ← programPage offset data pageStart written
        let pageStart ← word (Checked.add pageStart pageSize)
        let written ← word (Checked.add written taken)
        programLoop offset data fuel pageStart written
      else pure ()

/-- `program`. Every turn of the loop but the last writes a byte. -/
def program (offset : Nat) (data : Bytes) : Prog (QspiBoard μ) QspiFault Unit := do
  let capacity ← Prog.read fun b => b.device.capacity
  if min (offset + data.length) (2 ^ 32 - 1) > capacity then refuse "flash program out of bounds"
  else if data.length = 0 then pure ()
  else do
    let pageStart ← word (Checked.sub offset (offset % pageSize))
    programLoop offset data (data.length + 1) pageStart 0

end QspiBoard

end OpenKey
