import OpenKey.Library.Simulation
import OpenKey.Storage.FlashProof
import OpenKey.Storage.QspiProof

/-!
# The two-slot backend over the flash of the RP2350

The firmware opens its region of the flash (`QspiFlashDevice.openRegion`) and puts a
`FlashStorageBackend` over it, anew at each boot.

**Theorem (`backend_refines`).** The backend over the driver does what it does over a NOR flash with
the bytes of the region: it opens with the same slot, and in every sequence of writes, deletes and
boots each call has the same result and leaves the same region, cache, slot and generation. No call
that it makes of the driver panics or runs for ever.

The backend asks three things of a device: to read and to erase its first two sectors, and to
program bytes anywhere. In these the driver and the NOR flash agree (`read_refines`,
`eraseSector_refines`, `program_refines`), so every program of the backend over the one simulates
the same program over the other.
-/

namespace OpenKey

open Prog (Simulates)

set_option autoImplicit false

/-! ## The driver as a device -/

/-- What a caller is told of a fault. A panic or a loop without end would stop the firmware. -/
def QspiFault.report : QspiFault → StorageError
  | .storage e => e
  | .panic _ => .backendError "panic"
  | .hang => .backendError "hang"

namespace QspiBoard

variable {μ : Type} [BootRom μ]

instance : FlashDevice (QspiBoard μ) where
  capacity b := b.device.capacity
  sectorSize _ := sectorSize
  read b offset len := ((read offset len).run b).1.mapError QspiFault.report
  eraseSector sector := Prog.mapError QspiFault.report (eraseSector sector)
  program offset data := Prog.mapError QspiFault.report (program offset data)

/-- The driver as `open` leaves it, over the same region. -/
def reboot (b : QspiBoard μ) : QspiBoard μ :=
  { b with device := { b.device with pageBuf := List.replicate pageSize 0xFF } }

/-- The call returns, and its error is one of the driver. -/
def Returns {α : Type} (r : Except QspiFault α) : Prop :=
  ∀ fault, r = .error fault → ∃ e, fault = .storage e

theorem returns_mapError {α : Type} (r : Except StorageError α) :
    Returns (r.mapError QspiFault.storage) := by
  intro fault h
  cases r with
  | ok a => cases h
  | error e =>
      cases h
      exact ⟨e, rfl⟩

theorem report_mapError {α : Type} (r : Except StorageError α) :
    (r.mapError QspiFault.storage).mapError QspiFault.report = r := by
  cases r <;> rfl

/-- The two sectors of the backend are within the words of the machine. -/
theorem sector_fits {sector : Nat} (h : sector < 2) :
    sector * sectorSize + sectorSize < 2 ^ 32 := by
  unfold sectorSize
  omega

theorem read_asNor (b : QspiBoard μ) (sector : Nat) :
    FlashDevice.read b (sector * sectorSize) sectorSize =
      NorFlash.readRange b.asNor (sector * sectorSize) sectorSize := by
  show ((read (sector * sectorSize) sectorSize).run b).1.mapError QspiFault.report = _
  rw [read_refines b (by decide : 0 < sectorSize), report_mapError]

variable [LawfulBootRom μ]

theorem simulates_eraseSector {sector : Nat} (h : sector < 2) :
    Simulates (fun (b : QspiBoard μ) d => b.asNor = d) (FlashDevice.eraseSector sector)
      (NorFlash.eraseSector sector) := by
  rintro b d rfl
  obtain ⟨r, b', hboard, hnor⟩ := eraseSector_refines b (sector_fits h)
  rw [hnor]
  show ((eraseSector sector).run b).1.mapError _ = _ ∧ ((eraseSector sector).run b).2.asNor = _
  rw [hboard]
  exact ⟨report_mapError r, rfl⟩

theorem simulates_program (offset : Nat) (data : Bytes) :
    Simulates (fun (b : QspiBoard μ) d => b.asNor = d) (FlashDevice.program offset data)
      (NorFlash.program offset data) := by
  rintro b d rfl
  obtain ⟨r, b', hboard, hnor⟩ := program_refines b offset data
  rw [hnor]
  show ((program offset data).run b).1.mapError _ = _ ∧ ((program offset data).run b).2.asNor = _
  rw [hboard]
  exact ⟨report_mapError r, rfl⟩

end QspiBoard

/-! ## The backend -/

namespace FlashStorageBackend

variable {μ : Type} [BootRom μ] (codec : Codec KvMap)

/-- The backend over the NOR flash that the region is. -/
def onNor (b : FlashStorageBackend (QspiBoard μ)) : FlashStorageBackend NorFlash :=
  ⟨b.device.asNor, b.cache, b.activeSector, b.generation⟩

/-- An operation on the backend of the firmware. A boot opens the region and then the backend. -/
def perform : FlashOp → Prog (FlashStorageBackend (QspiBoard μ)) StorageError Unit
  | .write key value => write codec key value
  | .delete key => delete codec key
  | .reopen => .mk fun b =>
      match new codec b.device.reboot with
      | .ok b' => (.ok (), b')
      | .error e => (.error e, b)

/-! ### Opening -/

theorem readSlot_asNor (d : QspiBoard μ) (sector : Nat) :
    readSlot codec d.asNor sector = readSlot codec d sector := by
  show (NorFlash.readRange d.asNor (sector * sectorSize) sectorSize >>= parseSlot codec) =
    FlashDevice.read d (sector * sectorSize) sectorSize >>= parseSlot codec
  rw [QspiBoard.read_asNor]

theorem onNor_adopt (b : FlashStorageBackend (QspiBoard μ)) (sector : Nat)
    (found : Option (Nat × KvMap)) : (b.adopt sector found).onNor = b.onNor.adopt sector found := by
  cases found with
  | none => rfl
  | some found =>
      obtain ⟨generation, cache⟩ := found
      by_cases h : generation ≥ b.generation
      · rw [adopt, if_pos h, adopt, if_pos (show generation ≥ b.onNor.generation from h)]
        rfl
      · rw [adopt, if_neg h, adopt, if_neg (show ¬generation ≥ b.onNor.generation from h)]

theorem loadSlot_onNor (b : FlashStorageBackend (QspiBoard μ)) (sector : Nat) :
    loadSlot codec b.onNor sector = (loadSlot codec b sector).map onNor := by
  unfold loadSlot
  rw [show b.onNor.device = b.device.asNor from rfl, readSlot_asNor]
  cases readSlot codec b.device sector with
  | error e => rfl
  | ok found => exact congrArg Except.ok (onNor_adopt b sector found).symm

/-- It opens with the slot that it would find on the NOR flash. -/
theorem new_asNor (d : QspiBoard μ) : new codec d.asNor = (new codec d).map onNor := by
  have hcapacity : FlashDevice.capacity d.asNor = FlashDevice.capacity d := d.length_contents
  have hsize : FlashDevice.sectorSize d.asNor = FlashDevice.sectorSize d := rfl
  unfold new
  rw [hcapacity, hsize]
  split
  · rfl
  · have hfirst := loadSlot_onNor codec ⟨d, ∅, 0, 0⟩ 0
    unfold loadLatest
    rw [show (⟨d.asNor, ∅, 0, 0⟩ : FlashStorageBackend NorFlash) = onNor ⟨d, ∅, 0, 0⟩ from rfl,
      hfirst]
    cases loadSlot codec ⟨d, ∅, 0, 0⟩ 0 with
    | error e => rfl
    | ok b => exact loadSlot_onNor codec b 1

/-! ### Operations -/

theorem simulates_onDevice {m : Prog (QspiBoard μ) StorageError Unit}
    {m' : Prog NorFlash StorageError Unit}
    (h : Simulates (fun (b : QspiBoard μ) d => b.asNor = d) m m') :
    Simulates (fun (b : FlashStorageBackend (QspiBoard μ)) b' => b.onNor = b') (onDevice m)
      (onDevice m') := by
  rintro b b' rfl
  obtain ⟨hresult, hdevice⟩ := h b.device _ rfl
  exact ⟨hresult, congrArg (fun d => (⟨d, b.cache, b.activeSector, b.generation⟩ :
    FlashStorageBackend NorFlash)) hdevice⟩

variable [LawfulBootRom μ]

theorem simulates_commit (cache : KvMap) :
    Simulates (fun (b : FlashStorageBackend (QspiBoard μ)) b' => b.onNor = b') (commit codec cache)
      (commit codec cache) := by
  refine .bind (.read ?_) fun size => ?_
  · rintro b _ rfl
    rfl
  refine .bind (.ensure fun _ _ _ => rfl) fun _ => ?_
  refine .read_bind ?_ fun b => ?_
  · rintro b _ rfl
    rfl
  have htarget : 1 - b.activeSector < 2 := by omega
  refine .bind (simulates_onDevice (QspiBoard.simulates_eraseSector htarget)) fun _ => ?_
  refine .bind (.read ?_) fun generation => ?_
  · rintro b _ rfl
    rfl
  refine .bind (simulates_onDevice (QspiBoard.simulates_program _ _)) fun _ => ?_
  refine .bind (simulates_onDevice (QspiBoard.simulates_program _ _)) fun _ => ?_
  refine .update ?_
  rintro b _ rfl
  rfl

theorem simulates_commitCache (f : KvMap → KvMap) :
    Simulates (fun (b : FlashStorageBackend (QspiBoard μ)) b' => b.onNor = b') (commitCache codec f)
      (commitCache codec f) := by
  refine .bind (.read ?_) fun next => .bind (simulates_commit codec next) fun _ => .update ?_
  · rintro b _ rfl
    rfl
  · rintro b _ rfl
    rfl

theorem simulates_perform (op : FlashOp) :
    Simulates (fun (b : FlashStorageBackend (QspiBoard μ)) b' => b.onNor = b') (perform codec op)
      (op.run codec) := by
  cases op with
  | write key value => exact simulates_commitCache codec fun cache => cache.insert key value
  | delete key => exact simulates_commitCache codec fun cache => cache.erase key
  | reopen =>
      rintro b _ rfl
      have hnew : new codec b.onNor.device = (new codec b.device.reboot).map onNor :=
        new_asNor codec b.device.reboot
      unfold perform FlashOp.run
      simp only [hnew]
      cases new codec b.device.reboot with
      | error e => exact ⟨rfl, rfl⟩
      | ok b' => exact ⟨rfl, rfl⟩

/-- The backend of the firmware is the backend over a NOR flash: it opens alike, and in every
sequence of writes, deletes and boots the results are the same and the state stays the same. Its
calls of the driver return. -/
theorem backend_refines (board : QspiBoard μ) :
    new codec board.asNor = (new codec board).map onNor ∧
      (∀ b : FlashStorageBackend (QspiBoard μ), ∀ ops : List FlashOp,
        (Prog.results (FlashOp.run codec) ops b.onNor).1 = (Prog.results (perform codec) ops b).1 ∧
        (Prog.results (FlashOp.run codec) ops b.onNor).2 =
          (Prog.results (perform codec) ops b).2.onNor) ∧
      ∀ (b : QspiBoard μ) (sector offset : Nat) (data : Bytes), sector < 2 →
        QspiBoard.Returns ((QspiBoard.read (sector * sectorSize) sectorSize).run b).1 ∧
        QspiBoard.Returns ((QspiBoard.eraseSector sector).run b).1 ∧
        QspiBoard.Returns ((QspiBoard.program offset data).run b).1 := by
  refine ⟨new_asNor codec board, fun b ops => ?_, fun b sector offset data hsector => ?_⟩
  · obtain ⟨hresults, hstate⟩ := Simulates.results (simulates_perform codec) ops (rfl : b.onNor = _)
    exact ⟨hresults.symm, hstate.symm⟩
  · obtain ⟨r, b₁, herase, -⟩ := QspiBoard.eraseSector_refines b (QspiBoard.sector_fits hsector)
    obtain ⟨r', b₂, hprogram, -⟩ := QspiBoard.program_refines b offset data
    rw [QspiBoard.read_refines b (by decide : 0 < sectorSize), herase, hprogram]
    exact ⟨QspiBoard.returns_mapError _, QspiBoard.returns_mapError _,
      QspiBoard.returns_mapError _⟩

/-! ## Two writes and a boot -/

/-- The backend that the firmware opens first, in a flash of 2 MiB. -/
def flatBackend : FlashStorageBackend (QspiBoard QspiBoard.FlatRom) :=
  ⟨QspiBoard.flatBoard, ∅, 0, 0⟩

/-- A write, a boot and another write. -/
def flatOps : List FlashOp := [.write "a" [1], .reopen, .write "b" [2]]

theorem backend_refines_flat :
    QspiFlashDevice.openRegion (.ok (some .m2)) 0x10080000 = .ok QspiBoard.flatBoard.device ∧
      (Prog.results (perform snapshotCodec) flatOps flatBackend).1 = [.ok (), .ok (), .ok ()] ∧
      (Prog.results (FlashOp.run snapshotCodec) flatOps flatBackend.onNor).1 =
        [.ok (), .ok (), .ok ()] ∧
      (Prog.results (FlashOp.run snapshotCodec) flatOps flatBackend.onNor).2 =
        (Prog.results (perform snapshotCodec) flatOps flatBackend).2.onNor := by
  have hresults : (Prog.results (perform snapshotCodec) flatOps flatBackend).1 =
      [.ok (), .ok (), .ok ()] := by decide +kernel
  obtain ⟨hnor, hstate⟩ :=
    (backend_refines snapshotCodec QspiBoard.flatBoard).2.1 flatBackend flatOps
  exact ⟨rfl, hresults, hnor.trans hresults, hstate⟩

end FlashStorageBackend

end OpenKey
