import OpenKey.Storage.Qspi

/-!
# Programming pages

**Theorem (`program_bytes`).** For every offset and data within the region `program` returns: its
loop ends, and no arithmetic panics. Every byte of the range is then what was there and the new byte
have both set, and every other byte of the flash is as it was.

The invariant of the loop (`Progress`) ties the three positions together: the page that comes next
starts at a multiple of 256, it is the page that the next byte lies in, and the flash is what it was
with the bytes so far programmed. One turn programs the rest of the data or the rest of the page
(`run_programPage`). That the page is programmed whole does no harm, since a byte that was read and
is programmed again stays as it is (`Nor.program_splice_window`).

Seen as a list of bytes the region is a NOR flash, and `program` is what it is there
(`program_refines`).
-/

namespace OpenKey

set_option autoImplicit false

namespace QspiBoard

variable {μ : Type}

/-- The absolute address of an offset. -/
def address (b : QspiBoard μ) (offset : Nat) : Nat := xipBase + b.device.regionBase + offset

theorem address_add (b : QspiBoard μ) (offset n : Nat) :
    b.address (offset + n) = b.address offset + n := (Nat.add_assoc _ _ _).symm

theorem address_eq (b : QspiBoard μ) (offset : Nat) : b.address offset = b.address 0 + offset := by
  rw [← address_add, Nat.zero_add]

/-! ## Steps -/

theorem run_word {α : Type} {x : Except Panic α} {a : α} (h : x = .ok a) (b : QspiBoard μ) :
    (word x).run b = (.ok a, b) := by
  rw [word, Prog.run_check, h]
  rfl

theorem run_word_bind {α β : Type} {x : Except Panic α} {a : α} (h : x = .ok a)
    (k : α → Prog (QspiBoard μ) QspiFault β) (b : QspiBoard μ) :
    (word x >>= k).run b = (k a).run b :=
  Prog.run_bind_of_ok (run_word h b)

theorem run_xipAddr {b : QspiBoard μ} {offset : Nat} (h : offset < b.device.capacity) :
    (xipAddr offset).run b = (.ok (b.address offset), b) := by
  have hfits := b.device.wellPlaced.fits
  have hbase : Checked.add xipBase b.device.regionBase = .ok (xipBase + b.device.regionBase) :=
    Checked.add_ok (by unfold xipBase; omega)
  have haddr : Checked.add (xipBase + b.device.regionBase) offset = .ok (b.address offset) :=
    Checked.add_ok (by unfold xipBase; omega)
  unfold xipAddr
  rw [Prog.run_read_bind, if_neg (Nat.not_le.mpr h), Prog.run_read_bind, run_word_bind hbase]
  exact run_word haddr b

variable [BootRom μ] [LawfulBootRom μ]

theorem run_resolvePtrs (b : QspiBoard μ) : resolvePtrs.run b = (.ok (), b) := by
  have hfound : ¬(RomFunction.all.any fun f => BootRom.tableLookup (μ := μ) f = 0) = true := by
    rw [List.any_eq_true]
    rintro ⟨f, -, hf⟩
    exact LawfulBootRom.lookup_ne_zero (μ := μ) f (of_decide_eq_true hf)
  rw [resolvePtrs, if_neg hfound]
  rfl

/-- What a page is programmed with is programmed, and nothing else changes. -/
theorem run_runWindowed_programPage (b : QspiBoard μ) {addr : Nat} {page : Bytes}
    (haddr : addr % pageSize = 0) (hpage : page.length = pageSize) :
    ∃ machine, (runWindowed (.programPage addr page)).run b = (.ok (), ⟨b.device, machine⟩) ∧
      BootRom.peek machine = Nor.program (BootRom.peek b.machine) addr page := by
  refine ⟨_, rfl, ?_⟩
  rw [LawfulBootRom.peek_flushCache, LawfulBootRom.peek_rangeProgram _ _ _ haddr hpage,
    LawfulBootRom.peek_exitXip, LawfulBootRom.peek_connectInternalFlash]

/-- A sector that is erased is erased, and nothing else changes. -/
theorem run_runWindowed_erase (b : QspiBoard μ) {addr : Nat} (haddr : addr % sectorSize = 0) :
    ∃ machine, (runWindowed (.erase addr sectorSize)).run b = (.ok (), ⟨b.device, machine⟩) ∧
      BootRom.peek machine = Nor.erase (BootRom.peek b.machine) addr sectorSize := by
  refine ⟨_, rfl, ?_⟩
  rw [LawfulBootRom.peek_flushCache, LawfulBootRom.peek_rangeErase _ _ haddr,
    LawfulBootRom.peek_exitXip, LawfulBootRom.peek_connectInternalFlash]

omit [LawfulBootRom μ] in
/-- A page is staged with the bytes replaced. -/
theorem run_stagePage (b : QspiBoard μ) (addr : Nat) {dstOff : Nat} {chunk : Bytes}
    (h : dstOff + chunk.length ≤ pageSize) :
    ∃ staged, staged = (Nor.window (BootRom.peek b.machine) addr pageSize).splice dstOff chunk ∧
      (stagePage addr dstOff chunk).run b =
        (.ok staged, { b with device := { b.device with pageBuf := staged } }) := by
  refine ⟨_, rfl, ?_⟩
  have hcopy : Checked.copyAt (Nor.window (BootRom.peek b.machine) addr pageSize) dstOff chunk =
      .ok ((Nor.window (BootRom.peek b.machine) addr pageSize).splice dstOff chunk) :=
    Checked.copyAt_ok (by rwa [Nor.length_window])
  unfold stagePage
  rw [Prog.run_update_bind, Prog.run_read_bind, run_word_bind hcopy]
  rfl

/-! ## The loop -/

/-- The flash is what it was with these bytes programmed at an offset. -/
structure Programmed (b b' : QspiBoard μ) (offset : Nat) (bs : Bytes) : Prop where
  regionBase : b'.device.regionBase = b.device.regionBase
  capacity : b'.device.capacity = b.device.capacity
  peek : BootRom.peek b'.machine = Nor.program (BootRom.peek b.machine) (b.address offset) bs

omit [LawfulBootRom μ] in
theorem Programmed.nil (b : QspiBoard μ) (offset : Nat) : Programmed b b offset [] :=
  ⟨rfl, rfl, (Nor.program_nil _ _).symm⟩

omit [LawfulBootRom μ] in
theorem Programmed.append {b₀ b₁ b₂ : QspiBoard μ} {offset : Nat} {as bs : Bytes}
    (h : Programmed b₀ b₁ offset as) (h' : Programmed b₁ b₂ (offset + as.length) bs) :
    Programmed b₀ b₂ offset (as ++ bs) := by
  have haddr : b₁.address (offset + as.length) = b₀.address offset + as.length := by
    rw [← address_add]
    unfold address
    rw [h.regionBase]
  refine ⟨h'.regionBase.trans h.regionBase, h'.capacity.trans h.capacity, ?_⟩
  rw [h'.peek, h.peek, haddr, Nor.program_append]

/-- A page that is staged with a chunk in it and programmed whole has the chunk programmed. -/
theorem run_stagedPage (b : QspiBoard μ) {pageStart start : Nat} {chunk : Bytes}
    (haddr : b.address pageStart % pageSize = 0) (hfrom : pageStart ≤ start)
    (hfit : start - pageStart + chunk.length ≤ pageSize) :
    ∃ staged b₁ b', (stagePage (b.address pageStart) (start - pageStart) chunk).run b =
        (.ok staged, b₁) ∧
      (runWindowed (.programPage (b.address pageStart) staged)).run b₁ = (.ok (), b') ∧
      Programmed b b' start chunk := by
  obtain ⟨staged, hstaged, hstage⟩ := run_stagePage b (b.address pageStart) hfit
  have hlength : staged.length = pageSize := by
    rw [hstaged, Bytes.length_splice (by rw [Nor.length_window]; omega), Nor.length_window]
  obtain ⟨machine, hwindowed, hpeek⟩ := run_runWindowed_programPage
    { b with device := { b.device with pageBuf := staged } } haddr hlength
  have hrest : b.address pageStart + (start - pageStart) = b.address start := by
    unfold address
    omega
  refine ⟨staged, _, _, hstage, hwindowed, rfl, rfl, ?_⟩
  rw [hpeek, hstaged, Nor.program_splice_window (by omega), hrest]

/-- Where the loop stands. -/
structure Progress (b₀ : QspiBoard μ) (offset : Nat) (data : Bytes) (b : QspiBoard μ)
    (pageStart written : Nat) : Prop where
  programmed : Programmed b₀ b offset (data.take written)
  written_le : written ≤ data.length
  aligned : pageStart % pageSize = 0
  /-- The next byte lies in the page that comes next. -/
  inPage : written < data.length →
    pageStart ≤ offset + written ∧ offset + written < pageStart + pageSize

variable {b₀ b : QspiBoard μ} {offset pageStart written : Nat} {data : Bytes}

/-- One turn programs the rest of the data or the rest of the page. -/
theorem run_programPage (h : Progress b₀ offset data b pageStart written)
    (hrange : offset + data.length ≤ b₀.device.capacity) (hlt : written < data.length) :
    ∃ taken b', (programPage offset data pageStart written).run b = (.ok taken, b') ∧
      0 < taken ∧ Progress b₀ offset data b' (pageStart + pageSize) (written + taken) ∧
      pageStart + pageSize ≤ b.device.capacity := by
  obtain ⟨hfrom, hto⟩ := h.inPage hlt
  obtain ⟨hbasemod, hcapmod, hfits⟩ := b.device.wellPlaced
  have hwritten := h.written_le
  have haligned : pageStart % 256 = 0 := h.aligned
  have hpageSize : pageSize = 256 := rfl
  have hsectorSize : sectorSize = 4096 := rfl
  rw [hsectorSize] at hbasemod hcapmod
  rw [← h.programmed.capacity] at hrange
  have hpage : pageStart + pageSize ≤ b.device.capacity := by omega
  have haddr : b.address pageStart % pageSize = 0 := by
    rw [hpageSize]
    unfold address xipBase
    omega
  generalize htaken : min (pageStart + pageSize - (offset + written)) (data.length - written) =
    taken
  have hpos : 0 < taken := by omega
  have hstop : written + taken ≤ data.length := by omega
  have hchunk : ((data.drop written).take taken).length = taken := by
    rw [List.length_take, List.length_drop]
    omega
  have hslice : Checked.slice data written (written + taken) =
      .ok ((data.drop written).take taken) := by
    rw [Checked.slice_ok (Nat.le_add_right _ _) hstop, Nat.add_sub_cancel_left]
  have hfit : offset + written - pageStart + ((data.drop written).take taken).length ≤
      pageSize := by omega
  obtain ⟨staged, b₁, b', hstage, hwindowed, hstep⟩ := run_stagedPage b haddr hfrom hfit
  refine ⟨taken, b', ?_, hpos, ⟨?_, hstop, ?_, ?_⟩, hpage⟩
  · unfold programPage
    rw [run_word_bind (Checked.add_ok (by omega)), run_word_bind (Checked.add_ok (by omega)),
      run_word_bind (Checked.sub_ok hto.le), run_word_bind (Checked.sub_ok hwritten), htaken,
      Prog.run_bind_of_ok (run_xipAddr (by omega)), run_word_bind (Checked.sub_ok hfrom),
      run_word_bind (Checked.add_ok (by omega)), run_word_bind hslice, Prog.run_bind_of_ok hstage,
      Prog.run_bind_of_ok (run_resolvePtrs _), Prog.run_bind_of_ok hwindowed]
    rfl
  · have hdone : (data.take written).length = written := List.length_take_of_le hwritten
    rw [List.take_add]
    exact h.programmed.append (by rwa [hdone])
  · rw [hpageSize]
    omega
  · intro hmore
    omega

/-- The loop ends, with all of the data programmed. -/
theorem run_programLoop {fuel : Nat} (h : Progress b₀ offset data b pageStart written)
    (hrange : offset + data.length ≤ b₀.device.capacity) (hfuel : data.length - written < fuel) :
    ∃ b', (programLoop offset data fuel pageStart written).run b = (.ok (), b') ∧
      Programmed b₀ b' offset data := by
  induction fuel generalizing b pageStart written with
  | zero => exact absurd hfuel (Nat.not_lt_zero _)
  | succ fuel ih =>
      rw [programLoop]
      by_cases hlt : written < data.length
      · obtain ⟨taken, next, hrun, hpos, hnext, hpage⟩ := run_programPage h hrange hlt
        have hfits := b.device.wellPlaced.fits
        have hle := hnext.written_le
        have hcapacity := h.programmed.capacity
        rw [if_pos hlt, Prog.run_bind_of_ok hrun, run_word_bind (Checked.add_ok (by omega)),
          run_word_bind (Checked.add_ok (by omega))]
        exact ih hnext (by omega)
      · have hall : data.take written = data := List.take_of_length_le (Nat.not_lt.mp hlt)
        rw [if_neg hlt]
        exact ⟨b, rfl, hall ▸ h.programmed⟩

/-- Within the region `program` programs the data. -/
theorem run_program (b : QspiBoard μ) {offset : Nat} {data : Bytes}
    (h : offset + data.length ≤ b.device.capacity) :
    ∃ b', (program offset data).run b = (.ok (), b') ∧ Programmed b b' offset data := by
  have hfits := b.device.wellPlaced.fits
  have hpageSize : pageSize = 256 := rfl
  unfold program
  rw [Prog.run_read_bind, if_neg (by omega)]
  by_cases hempty : data.length = 0
  · obtain rfl : data = [] := List.length_eq_zero_iff.mp hempty
    rw [if_pos hempty]
    exact ⟨b, rfl, .nil b offset⟩
  · have hmod := Nat.mod_le offset pageSize
    rw [if_neg hempty, run_word_bind (Checked.sub_ok hmod)]
    refine run_programLoop ⟨?_, Nat.zero_le _, ?_, ?_⟩ h (by omega)
    · rw [List.take_zero]
      exact .nil b offset
    · rw [hpageSize]
      omega
    · intro hpos
      rw [hpageSize]
      omega

/-- Every byte of the range is cleared where the new byte is clear, and nothing else changes. -/
theorem program_bytes (b : QspiBoard μ) (offset : Nat) (data : Bytes)
    (h : offset + data.length ≤ b.device.capacity) :
    ∃ b', (program offset data).run b = (.ok (), b') ∧
      b'.device.regionBase = b.device.regionBase ∧ b'.device.capacity = b.device.capacity ∧
      (∀ i (hi : i < data.length), BootRom.peek b'.machine (b.address (offset + i)) =
        BootRom.peek b.machine (b.address (offset + i)) &&& data[i]) ∧
      ∀ a, a < b.address offset ∨ b.address (offset + data.length) ≤ a →
        BootRom.peek b'.machine a = BootRom.peek b.machine a := by
  obtain ⟨b', hrun, hprogrammed⟩ := run_program b h
  refine ⟨b', hrun, hprogrammed.regionBase, hprogrammed.capacity, fun i hi => ?_, fun a ha => ?_⟩
  · rw [hprogrammed.peek, address_add]
    exact Nor.program_inside hi
  · rw [address_add] at ha
    rw [hprogrammed.peek]
    exact Nor.program_outside ha

/-! ## A ROM over plain memory -/

/-- A machine that is its memory. -/
structure FlatRom where
  memory : Nor.Memory

instance : BootRom FlatRom where
  tableLookup _ := 1
  connectInternalFlash := id
  exitXip := id
  rangeErase addr count m := ⟨Nor.erase m.memory addr count⟩
  rangeProgram addr data m := ⟨Nor.program m.memory addr data⟩
  flushCache := id
  peek := FlatRom.memory

instance : LawfulBootRom FlatRom where
  lookup_ne_zero _ := Nat.one_ne_zero
  peek_connectInternalFlash _ := rfl
  peek_exitXip _ := rfl
  peek_flushCache _ := rfl
  peek_rangeErase _ _ _ := rfl
  peek_rangeProgram _ _ _ _ _ := rfl

/-- The region of a flash of 2 MiB. -/
theorem wellPlaced_flat : WellPlaced 0x1E0000 0x20000 := by
  have hregion : regionFor FlashDevInfoSize.m2.total = some (0x1E0000, 0x20000) := by decide
  exact wellPlaced_of_regionFor hregion

/-- A flash of 2 MiB, erased. -/
def flatBoard : QspiBoard FlatRom where
  device := ⟨0x1E0000, 0x20000, List.replicate pageSize 0xFF, wellPlaced_flat⟩
  machine := ⟨fun _ => 0xFF⟩

/-- Twenty bytes over the end of a page. -/
theorem program_over_page_end :
    ∃ b', (program 250 (List.replicate 20 0x5A)).run flatBoard = (.ok (), b') ∧
      b'.device.regionBase = flatBoard.device.regionBase ∧
      b'.device.capacity = flatBoard.device.capacity ∧
      (∀ i (hi : i < (List.replicate 20 (0x5A : UInt8)).length),
        BootRom.peek b'.machine (flatBoard.address (250 + i)) =
          BootRom.peek flatBoard.machine (flatBoard.address (250 + i)) &&&
            (List.replicate 20 (0x5A : UInt8))[i]) ∧
      ∀ a, a < flatBoard.address 250 ∨
          flatBoard.address (250 + (List.replicate 20 (0x5A : UInt8)).length) ≤ a →
        BootRom.peek b'.machine a = BootRom.peek flatBoard.machine a :=
  program_bytes flatBoard 250 (List.replicate 20 0x5A) (by decide)

/-! ## The region as a NOR flash -/

/-- The bytes of the region. -/
def contents (b : QspiBoard μ) : Bytes :=
  Nor.window (BootRom.peek b.machine) (b.address 0) b.device.capacity

/-- A NOR flash on a lasting supply. -/
def asNor (b : QspiBoard μ) : NorFlash := ⟨sectorSize, b.contents, none⟩

omit [LawfulBootRom μ] in
theorem length_contents (b : QspiBoard μ) : b.contents.length = b.device.capacity :=
  Nor.length_window _ _ _

omit [LawfulBootRom μ] in
theorem Programmed.contents {b b' : QspiBoard μ} {offset : Nat} {bs : Bytes}
    (h : Programmed b b' offset bs) (hrange : offset + bs.length ≤ b.device.capacity) :
    b'.contents = NorFlash.clearBits b.contents offset bs := by
  have haddr : b'.address 0 = b.address 0 := by
    unfold address
    rw [h.regionBase]
  unfold QspiBoard.contents
  rw [h.peek, h.capacity, haddr, address_eq b offset, Nor.window_program hrange]
  rfl

omit [LawfulBootRom μ] in
/-- Out of the region `program` refuses and changes nothing. -/
theorem run_program_out (b : QspiBoard μ) {offset : Nat} {data : Bytes}
    (h : b.device.capacity < offset + data.length) :
    (program offset data).run b =
      (.error (.storage (.backendError "flash program out of bounds")), b) := by
  have hfits := b.device.wellPlaced.fits
  unfold program
  rw [Prog.run_read_bind, if_pos (by omega)]
  rfl

/-- `program` does to the region what it does to a NOR flash. -/
theorem program_refines (b : QspiBoard μ) (offset : Nat) (data : Bytes) :
    ∃ r b', (program offset data).run b = (r.mapError .storage, b') ∧
      (NorFlash.program offset data).run b.asNor = (r, b'.asNor) := by
  by_cases h : offset + data.length ≤ b.device.capacity
  · obtain ⟨b', hrun, hprogrammed⟩ := run_program b h
    refine ⟨.ok (), b', hrun, ?_⟩
    have hin : ¬b.asNor.bytes.length < offset + data.length := by
      show ¬b.contents.length < _
      rw [length_contents]
      exact Nat.not_lt.mpr h
    have hnor : b'.asNor = { b.asNor with
        bytes := NorFlash.clearBits b.asNor.bytes offset (data.take data.length)
        power := b.asNor.drain data.length } := by
      unfold asNor
      rw [hprogrammed.contents h, List.take_length]
      rfl
    have hsupply : b.asNor.allowed data.length = data.length := rfl
    simp only [NorFlash.program, if_neg hin, hsupply, hnor]
    exact if_neg (not_not.mpr rfl)
  · have hout : b.asNor.bytes.length < offset + data.length := by
      show b.contents.length < _
      rw [length_contents]
      exact Nat.not_le.mp h
    refine ⟨.error (.backendError "flash program out of bounds"), b,
      run_program_out b (Nat.not_le.mp h), ?_⟩
    simp only [NorFlash.program, if_pos hout]

omit [LawfulBootRom μ] in
/-- `read` reads what is there. An offset at the end of the region is refused even for no bytes. -/
theorem read_refines (b : QspiBoard μ) {offset len : Nat} (hlen : 0 < len) :
    (read offset len).run b = ((NorFlash.readRange b.asNor offset len).mapError .storage, b) := by
  have hlength : b.asNor.bytes.length = b.device.capacity := b.length_contents
  have hmin : Checked.sub b.device.capacity (min offset b.device.capacity) =
      .ok (b.device.capacity - min offset b.device.capacity) :=
    Checked.sub_ok (Nat.min_le_right _ _)
  unfold read NorFlash.readRange
  rw [Prog.run_read_bind, run_word_bind hmin, hlength]
  by_cases hin : offset + len ≤ b.device.capacity
  · have h : offset < b.device.capacity := by omega
    have hwindow : Nor.window (BootRom.peek b.machine) (b.address offset) len =
        (b.contents.drop offset).take len := by
      rw [address_eq b offset, Nor.window_window hin]
      rfl
    rw [if_neg (by omega), if_pos hin, Prog.run_bind_of_ok (run_xipAddr h), Prog.run_read, hwindow]
    rfl
  · rw [if_pos (by omega), if_neg hin]
    rfl

/-- `erase_sector` does to the region what it does to a NOR flash. -/
theorem eraseSector_refines (b : QspiBoard μ) {sector : Nat}
    (h : sector * sectorSize + sectorSize < 2 ^ 32) :
    ∃ r b', (eraseSector sector).run b = (r.mapError .storage, b') ∧
      (NorFlash.eraseSector sector).run b.asNor = (r, b'.asNor) := by
  have hlength : b.asNor.bytes.length = b.device.capacity := b.length_contents
  have hsize : b.asNor.sectorSize = sectorSize := rfl
  obtain ⟨hbasemod, -, -⟩ := b.device.wellPlaced
  unfold eraseSector NorFlash.eraseSector
  rw [if_neg (by omega), run_word_bind (Checked.add_ok h), Prog.run_read_bind]
  simp only [hlength, hsize]
  by_cases hin : sector * sectorSize + sectorSize ≤ b.device.capacity
  · have hsector : sectorSize = 4096 := rfl
    have haddr : b.address (sector * sectorSize) % sectorSize = 0 := by
      rw [hsector] at hbasemod ⊢
      unfold address xipBase
      omega
    obtain ⟨machine, hwindowed, hpeek⟩ := run_runWindowed_erase b haddr
    refine ⟨.ok (), ⟨b.device, machine⟩, ?_, ?_⟩
    · rw [if_neg (Nat.not_lt.mpr hin), Prog.run_bind_of_ok (run_xipAddr (by omega)),
        Prog.run_bind_of_ok (run_resolvePtrs b), hwindowed]
      rfl
    · have hcontents : (⟨b.device, machine⟩ : QspiBoard μ).contents =
          b.contents.splice (sector * sectorSize) (List.replicate sectorSize 0xFF) := by
        unfold contents
        rw [hpeek, address_eq b (sector * sectorSize)]
        exact Nor.window_erase hin
      have hsupply : b.asNor.allowed 1 = 1 := rfl
      rw [if_neg (Nat.not_lt.mpr hin), hsupply, if_neg Nat.one_ne_zero]
      unfold asNor
      rw [hcontents]
      rfl
  · refine ⟨_, b, ?_, if_pos (Nat.not_le.mp hin)⟩
    rw [if_pos (Nat.not_le.mp hin)]
    rfl

end QspiBoard

end OpenKey
