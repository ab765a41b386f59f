import OpenKey.Storage.Flash
import OpenKey.Storage.Snapshot

/-!
# Power-loss atomicity of the flash backend

A commit writes one slot only, and writes it as a growing prefix of the slot image over erased
cells. Whatever the power cut leaves of it either is the whole image or does not parse, so the
other slot, which holds the last committed snapshot, decides what the next boot sees.

* `Rewrites` says what the device operations do, slot by slot.
* `parseSlot_torn` says what a torn slot stands for.
* `Consistent` is the invariant of the backend: opening its device again gives the same
  backend back (`new_of_consistent`).
* `runStep_settled` carries it over any operation under any power cut.
-/

namespace OpenKey

open Std Bytes

set_option autoImplicit false

/-! ## Slots of a device -/

namespace NorFlash

/-- The bytes of sector `i`. -/
def slot (d : NorFlash) (i : Nat) : Bytes := (d.bytes.drop (i * d.sectorSize)).take d.sectorSize

/-- Two sectors, each larger than a header, in an address space of 32 bits: `usize` on the
microcontrollers the backend is for. -/
structure Usable (d : NorFlash) : Prop where
  two : 2 * d.sectorSize ≤ d.bytes.length
  header : flashHeaderSize < d.sectorSize
  addressable : d.bytes.length < 2 ^ 32

/-- Sector `i` of `d` now reads `raw`; the other sector in use is as before. -/
structure Rewrites (d d' : NorFlash) (i : Nat) (raw : Bytes) : Prop where
  size : d'.sectorSize = d.sectorSize
  length : d'.bytes.length = d.bytes.length
  slot : d'.slot i = raw
  other : ∀ j < 2, j ≠ i → d'.slot j = d.slot j

theorem Rewrites.trans {d d' d'' : NorFlash} {i : Nat} {raw raw' : Bytes}
    (h : Rewrites d d' i raw) (h' : Rewrites d' d'' i raw') : Rewrites d d'' i raw' where
  size := h'.size.trans h.size
  length := h'.length.trans h.length
  slot := h'.slot
  other j hj hji := (h'.other j hj hji).trans (h.other j hj hji)

/-- The supply plays no part in what a device holds. -/
theorem Rewrites.withPower {d d' : NorFlash} {i : Nat} {raw : Bytes} (h : Rewrites d d' i raw)
    (p q : Option Nat) : Rewrites { d with power := p } { d' with power := q } i raw :=
  ⟨h.size, h.length, h.slot, h.other⟩

theorem Rewrites.usable {d d' : NorFlash} {i : Nat} {raw : Bytes} (h : Rewrites d d' i raw)
    (hd : d.Usable) : d'.Usable where
  two := by rw [h.size, h.length]; exact hd.two
  header := by rw [h.size]; exact hd.header
  addressable := by rw [h.length]; exact hd.addressable

theorem length_slot {d : NorFlash} (hd : d.Usable) {i : Nat} (hi : i < 2) :
    (d.slot i).length = d.sectorSize := by
  have htwo := hd.two
  obtain rfl | rfl : i = 0 ∨ i = 1 := by omega
  all_goals
    rw [slot, List.length_take, List.length_drop]
    omega

/-- Overwriting a range inside a sector rewrites that sector. -/
theorem rewrites_splice {d d' : NorFlash} (hd : d.Usable) {i offset : Nat} {mid : Bytes}
    (hi : i < 2) (hin : offset + mid.length ≤ d.sectorSize) (hsize : d'.sectorSize = d.sectorSize)
    (hbytes : d'.bytes = d.bytes.splice (i * d.sectorSize + offset) mid) :
    Rewrites d d' i (Bytes.splice (d.slot i) offset mid) := by
  have htwo := hd.two
  have hend : i * d.sectorSize + d.sectorSize ≤ d.bytes.length := by
    obtain rfl | rfl : i = 0 ∨ i = 1 := by omega
    all_goals omega
  refine ⟨hsize, ?_, ?_, fun j hj hji => ?_⟩
  · rw [hbytes, length_splice (by omega)]
  · rw [slot, hbytes, hsize]
    exact window_splice hin hend
  · rw [slot, hbytes, hsize]
    refine window_splice_disjoint ?_ (by omega)
    obtain ⟨rfl, rfl⟩ | ⟨rfl, rfl⟩ : i = 0 ∧ j = 1 ∨ i = 1 ∧ j = 0 := by omega
    · exact .inr (by omega)
    · exact .inl (by omega)

/-! ## Slot images -/

/-- A sector with `data` programmed at its start and the rest erased. -/
def slotImage (size : Nat) (data : Bytes) : Bytes :=
  data ++ List.replicate (size - data.length) 0xff

theorem length_slotImage (size : Nat) (data : Bytes) (h : data.length ≤ size) :
    (slotImage size data).length = size := by
  rw [slotImage, List.length_append, List.length_replicate]
  omega

theorem zipWith_and_erased (n : Nat) (data : Bytes) (h : data.length ≤ n) :
    List.zipWith (· &&& ·) (List.replicate n (0xff : UInt8)) data = data := by
  induction n generalizing data with
  | zero =>
      obtain rfl : data = [] := List.length_eq_zero_iff.mp (by omega)
      rfl
  | succ n ih =>
      cases data with
      | nil => rfl
      | cons x xs =>
          have hx : (0xff : UInt8) &&& x = x := by
            rw [UInt8.and_comm]
            exact UInt8.and_neg_one
          rw [List.replicate_succ, List.zipWith_cons_cons, hx, ih xs (by simpa using h)]

/-- Programming erased cells stores the data as it is. -/
theorem clearBits_slotImage {size : Nat} {done data : Bytes}
    (h : done.length + data.length ≤ size) :
    clearBits (slotImage size done) done.length data = slotImage size (done ++ data) := by
  rw [clearBits, slotImage, List.drop_left, zipWith_and_erased _ _ (by omega), Bytes.splice,
    List.take_left, ← List.drop_drop, List.drop_left, List.drop_replicate, slotImage,
    List.length_append, Nat.sub_sub]

/-! ## Device operations, slot by slot -/

/-- Erasing a sector is atomic: it happens, or the power is gone. -/
theorem eraseSector_run {d : NorFlash} (hd : d.Usable) {i : Nat} (hi : i < 2) :
    (d.allowed 1 = 0 ∧ (eraseSector i).run d = (.error (.backendError "power loss"), d)) ∨
      (d.allowed 1 ≠ 0 ∧ ∃ d', (eraseSector i).run d = (.ok (), d') ∧ d'.power = d.drain 1 ∧
        Rewrites d d' i (slotImage d.sectorSize [])) := by
  have hend : ¬d.bytes.length < i * d.sectorSize + d.sectorSize := by
    have htwo := hd.two
    obtain rfl | rfl : i = 0 ∨ i = 1 := by omega
    all_goals omega
  by_cases hp : d.allowed 1 = 0
  · exact .inl ⟨hp, by simp only [eraseSector, if_neg hend, if_pos hp]⟩
  · have hraw : slotImage d.sectorSize [] =
        Bytes.splice (d.slot i) 0 (List.replicate d.sectorSize 0xff) := by
      rw [Bytes.splice, List.length_replicate, Nat.zero_add,
        List.drop_eq_nil_of_le (length_slot hd hi).le]
      simp [slotImage]
    refine .inr ⟨hp, ((eraseSector i).run d).2, ?_, ?_, ?_⟩
    · simp only [eraseSector, if_neg hend, if_neg hp]
    · simp only [eraseSector, if_neg hend, if_neg hp]
    · rw [hraw]
      refine rewrites_splice hd hi (by simp) ?_ ?_
      · simp only [eraseSector, if_neg hend, if_neg hp]
      · simp only [eraseSector, if_neg hend, if_neg hp, Nat.add_zero]

/-- Work left undone means the supply stopped there. -/
theorem power_of_short {d : NorFlash} {n : Nat} (h : d.allowed n ≠ n) :
    ∃ k < n, d.power = some k ∧ d.allowed n = k := by
  unfold allowed at h ⊢
  cases hp : d.power with
  | none => simp [hp] at h
  | some k =>
      simp only [hp] at h ⊢
      exact ⟨k, by omega, rfl, by omega⟩

/-- The supply before work that was done in full. -/
theorem power_of_drain {d : NorFlash} {n k : Nat} (h : d.drain n = some k)
    (hall : d.allowed n = n) : d.power = some (n + k) := by
  unfold drain at h
  unfold allowed at hall
  cases hp : d.power with
  | none => simp [hp] at h
  | some q =>
      simp only [hp, Option.map_some, Option.some.injEq] at h hall ⊢
      omega

/-- What programming changes of a sector, whatever lies behind the sector. -/
theorem rewrites_clearBits {d d' : NorFlash} (hd : d.Usable) {i : Nat} (hi : i < 2)
    {done data : Bytes} (hslot : d.slot i = slotImage d.sectorSize done)
    (hin : done.length + data.length ≤ d.sectorSize) (hsize : d'.sectorSize = d.sectorSize)
    (hbytes : d'.bytes = clearBits d.bytes (i * d.sectorSize + done.length) data) :
    Rewrites d d' i (slotImage d.sectorSize (done ++ data)) := by
  have hlen := length_slot hd hi
  have hzip : (List.zipWith (· &&& ·) ((d.slot i).drop done.length) data).length =
      data.length := by
    rw [List.length_zipWith, List.length_drop, hlen]
    omega
  have hsame : List.zipWith (· &&& ·) (d.bytes.drop (i * d.sectorSize + done.length)) data =
      List.zipWith (· &&& ·) ((d.slot i).drop done.length) data := by
    have hslot' : (d.slot i).drop done.length =
        (d.bytes.drop (i * d.sectorSize + done.length)).take (d.sectorSize - done.length) := by
      rw [slot, List.drop_take, List.drop_drop]
    rw [hslot', List.zipWith_eq_zipWith_take_min]
    conv_rhs => rw [List.zipWith_eq_zipWith_take_min]
    rw [List.take_take, List.length_take]
    have hcount : (d.slot i).length = d.sectorSize := hlen
    rw [slot, List.length_take, List.length_drop] at hcount
    rw [List.length_drop]
    congr 1
    · congr 1
      omega
    · congr 1
      omega
  rw [← clearBits_slotImage hin, ← hslot]
  refine rewrites_splice hd hi (by rw [hzip]; exact hin) hsize ?_
  rw [hbytes, clearBits, hsame]

/-- Programming after the bytes already programmed extends them by what the supply pays for. -/
theorem program_run {d : NorFlash} (hd : d.Usable) {i : Nat} (hi : i < 2) (done data : Bytes)
    (hslot : d.slot i = slotImage d.sectorSize done)
    (hin : done.length + data.length ≤ d.sectorSize) :
    ∃ r d', (program (i * d.sectorSize + done.length) data).run d = (r, d') ∧
      (r = .ok () ↔ d.allowed data.length = data.length) ∧
      d'.power = d.drain (d.allowed data.length) ∧
      Rewrites d d' i (slotImage d.sectorSize (done ++ data.take (d.allowed data.length))) := by
  have hbound : ¬d.bytes.length < i * d.sectorSize + done.length + data.length := by
    have htwo := hd.two
    obtain rfl | rfl : i = 0 ∨ i = 1 := by omega
    all_goals omega
  have hrun : (program (i * d.sectorSize + done.length) data).run d =
      (if d.allowed data.length = data.length then .ok ()
        else .error (.backendError "power loss"),
      { d with
        bytes := clearBits d.bytes (i * d.sectorSize + done.length)
          (data.take (d.allowed data.length))
        power := d.drain (d.allowed data.length) }) := by
    simp only [program, if_neg hbound, ne_eq, ite_not]
    split <;> rfl
  refine ⟨_, _, hrun, ?_, rfl, rewrites_clearBits hd hi hslot ?_ rfl rfl⟩
  · split
    · simp [*]
    · simp [*]
  · have htake : (data.take (d.allowed data.length)).length ≤ data.length := by simp
    omega

end NorFlash

/-! ## What a slot stands for -/

namespace FlashStorageBackend

open NorFlash (slotImage)

variable (codec : Codec KvMap)

/-- What a commit programs into a slot. -/
def slotData (generation : Nat) (payload : Bytes) : Bytes := header generation payload ++ payload

@[simp] theorem length_header (generation : Nat) (payload : Bytes) :
    (header generation payload).length = flashHeaderSize := by
  simp [header, flashMagic, flashHeaderSize]

theorem length_slotData (generation : Nat) (payload : Bytes) :
    (slotData generation payload).length = flashHeaderSize + payload.length := by
  rw [slotData, List.length_append, length_header]

/-- The payload bytes present carry the checksum of the header. -/
def ChecksumMatches (raw : Bytes) : Prop :=
  (checksum ((raw.drop flashHeaderSize).take (leNat ((raw.drop 12).take 4)))).toNat =
    leNat ((raw.drop 16).take 4)

instance (raw : Bytes) : Decidable (ChecksumMatches raw) :=
  inferInstanceAs (Decidable (_ = _))

/-- A field between what precedes it and what follows it. -/
theorem field_eq {before field after : Bytes} {start len : Nat} (hs : before.length = start)
    (hl : field.length = len) : ((before ++ (field ++ after)).drop start).take len = field := by
  subst hs hl
  rw [List.drop_left, List.take_left]

section

variable (generation : Nat) (payload rest : Bytes)

theorem slotData_magic : (slotData generation payload ++ rest).take 4 = flashMagic := by
  simp [slotData, header, flashMagic]

theorem slotData_generation :
    ((slotData generation payload ++ rest).drop 4).take 8 = leBytes 8 generation := by
  have h : slotData generation payload ++ rest = flashMagic ++ (leBytes 8 generation ++
      (leBytes 4 payload.length ++ leBytes 4 (checksum payload).toNat ++ payload ++ rest)) := by
    simp [slotData, header]
  rw [h]
  exact field_eq rfl (length_leBytes _ _)

theorem slotData_length :
    ((slotData generation payload ++ rest).drop 12).take 4 = leBytes 4 payload.length := by
  have h : slotData generation payload ++ rest = (flashMagic ++ leBytes 8 generation) ++
      (leBytes 4 payload.length ++ (leBytes 4 (checksum payload).toNat ++ payload ++ rest)) := by
    simp [slotData, header]
  rw [h]
  exact field_eq (by simp [flashMagic]) (length_leBytes _ _)

theorem slotData_checksum :
    ((slotData generation payload ++ rest).drop 16).take 4 =
      leBytes 4 (checksum payload).toNat := by
  have h : slotData generation payload ++ rest =
      (flashMagic ++ leBytes 8 generation ++ leBytes 4 payload.length) ++
        (leBytes 4 (checksum payload).toNat ++ (payload ++ rest)) := by
    simp [slotData, header]
  rw [h]
  exact field_eq (by simp [flashMagic]) (length_leBytes _ _)

theorem slotData_payload :
    ((slotData generation payload ++ rest).drop flashHeaderSize).take payload.length =
      payload := by
  rw [slotData, List.append_assoc]
  exact field_eq (length_header _ _) rfl

end

/-- A complete slot reads back the snapshot committed to it. -/
theorem parseSlot_complete {size generation : Nat} {cache : KvMap}
    (hgen : generation < 2 ^ 64) (hsize : size < 2 ^ 32)
    (hfit : flashHeaderSize + (codec.encode cache).length ≤ size) :
    parseSlot codec (slotImage size (slotData generation (codec.encode cache))) =
      .ok (some (generation, cache)) := by
  have hraw := NorFlash.length_slotImage size
    (slotData generation (codec.encode cache)) (by rw [length_slotData]; exact hfit)
  have hlen : leNat (leBytes 4 (codec.encode cache).length) = (codec.encode cache).length :=
    leNat_leBytes_of_lt (by omega)
  have hsum : leNat (leBytes 4 (checksum (codec.encode cache)).toNat) =
      (checksum (codec.encode cache)).toNat := leNat_leBytes_of_lt (UInt32.toNat_lt _)
  have hnum : leNat (leBytes 8 generation) = generation := leNat_leBytes_of_lt (by omega)
  simp only [parseSlot, hraw]
  rw [slotImage, slotData_magic, slotData_generation, slotData_length, slotData_checksum, hlen,
    slotData_payload, hsum, hnum, codec.decode_encode _ (by omega)]
  simp only [ne_eq, not_true_eq_false, if_false]
  rw [if_neg (by omega)]

theorem leNat_ge_of_last {field : Bytes} (hlen : field.length = 4)
    (hlast : field[3]? = some 0xff) : 255 * 256 ^ 3 ≤ leNat field := by
  match field, hlen with
  | [a, b, c, d], _ =>
      obtain rfl : d = 0xff := by simpa using hlast
      simp only [leNat]
      have h : (0xff : UInt8).toNat = 255 := rfl
      omega

/-- A slot cut inside the header, before the length is complete, holds nothing: the erased
byte at the top of the length makes it exceed any sector. -/
theorem parseSlot_torn_header {size k : Nat} {data : Bytes} (hk : k < 16)
    (hheader : flashHeaderSize < size) (hsize : size < 2 ^ 31) :
    parseSlot codec (slotImage size (data.take k)) = .ok none := by
  have htake : (data.take k).length ≤ k := by simp
  rw [flashHeaderSize] at hheader
  have hraw := NorFlash.length_slotImage size (data.take k) (by omega)
  have hbyte : (slotImage size (data.take k))[15]? = some 0xff := by
    rw [slotImage, List.getElem?_append_right (by omega), List.getElem?_replicate_of_lt (by omega)]
  have hlen : 255 * 256 ^ 3 ≤ leNat (((slotImage size (data.take k)).drop 12).take 4) := by
    apply leNat_ge_of_last
    · rw [List.length_take, List.length_drop, hraw]
      omega
    · rw [List.getElem?_take_of_lt (by omega), List.getElem?_drop]
      exact hbyte
  simp only [parseSlot, hraw]
  split
  · rfl
  · rw [if_pos (by omega)]

/-- A slot cut later holds nothing either, unless what is missing is erased bytes or the
checksum is fooled. -/
theorem parseSlot_torn_payload {size k generation : Nat} {payload : Bytes} (hk : 16 ≤ k)
    (hsize : size < 2 ^ 32) (hfit : flashHeaderSize + payload.length ≤ size)
    (hsum : ¬ChecksumMatches (slotImage size ((slotData generation payload).take k))) :
    parseSlot codec (slotImage size ((slotData generation payload).take k)) = .ok none := by
  have hdata := length_slotData generation payload
  rw [flashHeaderSize] at hdata hfit
  have hraw := NorFlash.length_slotImage size
    ((slotData generation payload).take k) (by rw [List.length_take]; omega)
  have hpre : (slotImage size ((slotData generation payload).take k)).take 16 =
      (slotData generation payload ++ []).take 16 := by
    rw [slotImage, List.take_append_of_le_length (by rw [List.length_take]; omega),
      List.take_take, Nat.min_eq_left hk, List.append_nil]
  have hmagic : (slotImage size ((slotData generation payload).take k)).take 4 = flashMagic := by
    have h := congrArg (List.take 4) hpre
    rw [List.take_take, List.take_take] at h
    exact h.trans (slotData_magic generation payload [])
  have hlen : leNat (((slotImage size ((slotData generation payload).take k)).drop 12).take 4) =
      payload.length := by
    have h := congrArg (List.drop 12) hpre
    rw [← List.take_drop (i := 4), ← List.take_drop (i := 4), slotData_length] at h
    rw [h]
    exact leNat_leBytes_of_lt (by omega)
  rw [ChecksumMatches, hlen] at hsum
  simp only [parseSlot, hraw, hmagic, hlen]
  rw [if_neg (by simp), if_neg (by rw [flashHeaderSize]; omega), if_pos hsum]

/-! ## The invariant -/

/-- A slot that holds nothing, or a snapshot older than `generation`. -/
def Stale (generation : Nat) (raw : Bytes) : Prop :=
  parseSlot codec raw = .ok none ∨
    ∃ older cache, parseSlot codec raw = .ok (some (older, cache)) ∧ older < generation

/-- The active slot holds what the backend has in memory, the other one nothing newer. Before
the first commit neither slot holds anything. -/
structure Consistent (b : FlashStorageBackend NorFlash) : Prop where
  usable : b.device.Usable
  active : b.activeSector < 2
  current : parseSlot codec (b.device.slot b.activeSector) = .ok (some (b.generation, b.cache)) ∨
    (parseSlot codec (b.device.slot b.activeSector) = .ok none ∧
      b.activeSector = 0 ∧ b.generation = 0 ∧ b.cache = ∅)
  stale : Stale codec b.generation (b.device.slot (1 - b.activeSector))

theorem readSlot_eq {d : NorFlash} (hd : d.Usable) {i : Nat} (hi : i < 2) :
    readSlot codec d i = parseSlot codec (d.slot i) := by
  have hend : i * d.sectorSize + d.sectorSize ≤ d.bytes.length := by
    have htwo := hd.two
    obtain rfl | rfl : i = 0 ∨ i = 1 := by omega
    all_goals omega
  simp only [readSlot, NorFlash.read_eq, NorFlash.sectorSize_eq, NorFlash.readRange, if_pos hend]
  rfl

theorem loadSlot_eq {b : FlashStorageBackend NorFlash} (hd : b.device.Usable) {i : Nat}
    (hi : i < 2) {found : Option (Nat × KvMap)}
    (h : parseSlot codec (b.device.slot i) = .ok found) :
    loadSlot codec b i = .ok (b.adopt i found) := by
  rw [loadSlot, readSlot_eq codec hd hi, h]
  rfl

theorem adopt_of_le {b : FlashStorageBackend NorFlash} {i generation : Nat} {cache : KvMap}
    (h : b.generation ≤ generation) :
    b.adopt i (some (generation, cache)) = ⟨b.device, cache, i, generation⟩ := by
  rw [adopt, if_pos h]

theorem adopt_of_lt {b : FlashStorageBackend NorFlash} {i generation : Nat} {cache : KvMap}
    (h : generation < b.generation) : b.adopt i (some (generation, cache)) = b := by
  rw [adopt, if_neg (by omega)]

/-- A backend that has not looked at any slot adopts whatever the slot holds. -/
theorem adopt_fresh (d : NorFlash) (generation : Nat) (cache : KvMap) :
    adopt ⟨d, ∅, 0, 0⟩ 0 (some (generation, cache)) = ⟨d, cache, 0, generation⟩ :=
  adopt_of_le (Nat.zero_le _)

/-- Opening a device looks at both slots in turn. -/
theorem new_eq {d : NorFlash} (hd : d.Usable) {found₀ found₁ : Option (Nat × KvMap)}
    (h₀ : parseSlot codec (d.slot 0) = .ok found₀) (h₁ : parseSlot codec (d.slot 1) = .ok found₁) :
    new codec d = .ok (adopt (adopt ⟨d, ∅, 0, 0⟩ 0 found₀) 1 found₁) := by
  have hopen : ¬(FlashDevice.capacity d < FlashDevice.sectorSize d * 2 ∨
      FlashDevice.sectorSize d ≤ flashHeaderSize) := by
    have htwo := hd.two
    have hheader := hd.header
    simp only [NorFlash.capacity_eq, NorFlash.sectorSize_eq]
    omega
  have hdev : (adopt ⟨d, ∅, 0, 0⟩ 0 found₀).device = d := by
    cases found₀ with
    | none => rfl
    | some found => rw [adopt_fresh]
  have hfirst : loadSlot codec ⟨d, ∅, 0, 0⟩ 0 = .ok (adopt ⟨d, ∅, 0, 0⟩ 0 found₀) :=
    loadSlot_eq codec hd (by omega) h₀
  rw [new, if_neg hopen, loadLatest, hfirst]
  exact loadSlot_eq codec (by rw [hdev]; exact hd) (by omega) (by rw [hdev]; exact h₁)

/-- Opening the device of a consistent backend gives that backend back. -/
theorem new_of_consistent {b : FlashStorageBackend NorFlash} (hb : Consistent codec b) :
    new codec b.device = .ok b := by
  obtain ⟨device, cache, activeSector, generation⟩ := b
  obtain ⟨hd, hact, hcur, hstale⟩ := hb
  simp only at hd hact hcur hstale ⊢
  obtain rfl | rfl : activeSector = 0 ∨ activeSector = 1 := by omega
  · obtain hcur | ⟨hcur, -, rfl, rfl⟩ := hcur
    · obtain hother | ⟨older, m, hother, hlt⟩ := hstale
      · rw [new_eq codec hd hcur hother, adopt_fresh]
        rfl
      · rw [new_eq codec hd hcur hother, adopt_fresh, adopt_of_lt hlt]
    · obtain hother | ⟨older, m, hother, hlt⟩ := hstale
      · rw [new_eq codec hd hcur hother]
        rfl
      · omega
  · obtain hcur | ⟨-, h, -⟩ := hcur
    · obtain hother | ⟨older, m, hother, hlt⟩ := hstale
      · rw [new_eq codec hd hother hcur]
        exact congrArg Except.ok (adopt_of_le (Nat.zero_le _))
      · rw [new_eq codec hd hother hcur, adopt_fresh, adopt_of_le (Nat.le_of_lt hlt)]
    · omega

/-- An erased device opens as an empty backend. -/
theorem consistent_erased {size sectors : Nat} (hheader : flashHeaderSize < size)
    (hsectors : 2 ≤ sectors) (hsize : size * sectors < 2 ^ 32) :
    Consistent codec ⟨NorFlash.erased size sectors, ∅, 0, 0⟩ := by
  have htwo : 2 * size ≤ size * sectors := by
    rw [Nat.mul_comm 2]
    exact Nat.mul_le_mul_left size hsectors
  have hlen : (NorFlash.erased size sectors).bytes.length = size * sectors := by
    simp [NorFlash.erased]
  have hd : (NorFlash.erased size sectors).Usable :=
    ⟨by rw [hlen]; exact htwo, hheader, by rw [hlen]; exact hsize⟩
  have hnone : ∀ i < 2, parseSlot codec ((NorFlash.erased size sectors).slot i) = .ok none := by
    intro i hi
    have hslot : (NorFlash.erased size sectors).slot i = slotImage size (([] : Bytes).take 0) := by
      have hend : i * size + size ≤ size * sectors := by
        obtain rfl | rfl : i = 0 ∨ i = 1 := by omega
        all_goals omega
      simp only [NorFlash.slot, NorFlash.erased, List.drop_replicate, List.take_replicate,
        slotImage, List.take_nil, List.length_nil, List.nil_append, Nat.sub_zero]
      congr 1
      omega
    rw [hslot]
    exact parseSlot_torn_header codec (by omega) hheader (by omega)
  exact ⟨hd, by simp, .inr ⟨hnone 0 (by omega), rfl, rfl, rfl⟩, .inl (hnone 1 (by omega))⟩

/-! ## What a commit can do -/

section

variable (b : FlashStorageBackend NorFlash) (cache : KvMap)

/-- What a commit programs into the target slot. -/
def nextData : Bytes := slotData (b.generation + 1) (codec.encode cache)

/-- The snapshot fits a slot. -/
def Fits : Prop := flashHeaderSize + (codec.encode cache).length ≤ b.device.sectorSize

/-- The three ways a commit ends. -/
inductive CommitOutcome : Except StorageError Unit × FlashStorageBackend NorFlash → Prop
  /-- The snapshot is too large, or the power fails before the erase. -/
  | refused (e : StorageError) (why : Fits codec b cache → b.device.power = some 0) :
      CommitOutcome (.error e, b)
  /-- The power fails with `k` bytes of the slot programmed. -/
  | torn (e : StorageError) (k : Nat) (d : NorFlash) (power : b.device.power = some (k + 1))
      (fits : Fits codec b cache) (short : k < (nextData codec b cache).length)
      (writes : b.device.Rewrites d (1 - b.activeSector)
        (slotImage b.device.sectorSize ((nextData codec b cache).take k))) :
      CommitOutcome (.error e, { b with device := d })
  /-- The slot is complete and becomes the active one. -/
  | done (d : NorFlash) (fits : Fits codec b cache)
      (writes : b.device.Rewrites d (1 - b.activeSector)
        (slotImage b.device.sectorSize (nextData codec b cache))) :
      CommitOutcome (.ok (), {
        b with device := d, activeSector := 1 - b.activeSector, generation := b.generation + 1 })

end

theorem onDevice_run {b : FlashStorageBackend NorFlash} {m : Prog NorFlash StorageError Unit}
    {r : Except StorageError Unit} {d : NorFlash} (h : m.run b.device = (r, d)) :
    (onDevice m).run b = (r, { b with device := d }) := by
  rw [onDevice, Prog.run_zoom, h]

/-- A device call that fails ends the commit; what was programmed before it stays. -/
theorem onDevice_bind_error {b : FlashStorageBackend NorFlash}
    {m : Prog NorFlash StorageError Unit}
      {k : Unit → Prog (FlashStorageBackend NorFlash) StorageError Unit}
    {e : StorageError} {d : NorFlash} (h : m.run b.device = (.error e, d)) :
    (onDevice m >>= k).run b = (.error e, { b with device := d }) :=
  Prog.run_bind_of_error (onDevice_run h)

theorem onDevice_bind_ok {b : FlashStorageBackend NorFlash}
    {m : Prog NorFlash StorageError Unit}
      {k : Unit → Prog (FlashStorageBackend NorFlash) StorageError Unit}
    {d : NorFlash} (h : m.run b.device = (.ok (), d)) :
    (onDevice m >>= k).run b = (k ()).run { b with device := d } :=
  Prog.run_bind_of_ok (onDevice_run h)

theorem commit_outcome {b : FlashStorageBackend NorFlash} (hd : b.device.Usable) (cache : KvMap) :
    CommitOutcome codec b cache ((commit codec cache).run b) := by
  have htarget : 1 - b.activeSector < 2 := by omega
  have hheader := hd.header
  simp only [commit, Prog.run_read_bind, NorFlash.sectorSize_eq, NorFlash.eraseSector_eq,
    NorFlash.program_eq]
  by_cases hfit : (codec.encode cache).length ≤ b.device.sectorSize - flashHeaderSize
  · have hfits : Fits codec b cache := by
      rw [Fits]
      omega
    have hroom := hfits
    rw [Fits] at hroom
    rw [Prog.run_ensure_bind (by simpa using hfit), Prog.run_read_bind]
    obtain ⟨hnone, herase⟩ | ⟨hp, d₁, herase, hp₁, hw₁⟩ := NorFlash.eraseSector_run hd htarget
    · rw [onDevice_bind_error herase]
      obtain ⟨k, -, hpower, hallowed⟩ :=
        NorFlash.power_of_short (d := b.device) (n := 1) (by rw [hnone]; decide)
      exact .refused _ fun _ => by rw [hpower, ← hallowed, hnone]
    rw [onDevice_bind_ok herase, Prog.run_read_bind]
    have hone : b.device.allowed 1 = 1 := by
      by_contra hshort
      obtain ⟨k, hk, -, hallowed⟩ := NorFlash.power_of_short hshort
      omega
    obtain ⟨r₂, d₂, hprog₂, hr₂, hp₂, hw₂⟩ := NorFlash.program_run (hw₁.usable hd) htarget
      [] (header (b.generation + 1) (codec.encode cache))
      (by rw [hw₁.slot, hw₁.size])
      (by rw [List.length_nil, length_header, hw₁.size]; omega)
    rw [hw₁.size, List.length_nil, Nat.add_zero] at hprog₂
    rw [hw₁.size, List.nil_append, length_header] at hw₂
    rw [length_header] at hr₂ hp₂
    cases r₂ with
    | error e =>
        rw [onDevice_bind_error hprog₂]
        obtain ⟨k, hk, hpow, hallowed⟩ :=
          NorFlash.power_of_short (fun h => by simpa using hr₂.mpr h)
        refine .torn e k d₂ ?_ hfits ?_ ?_
        · rw [Nat.add_comm]
          exact NorFlash.power_of_drain (hp₁.symm.trans hpow) hone
        · rw [nextData, length_slotData]
          omega
        · rw [nextData, slotData, List.take_append_of_le_length (by rw [length_header]; omega),
            ← hallowed]
          exact hw₁.trans hw₂
    | ok u =>
        rw [onDevice_bind_ok hprog₂]
        have hall := hr₂.mp rfl
        rw [hall] at hp₂
        rw [hall, List.take_of_length_le (by simp)] at hw₂
        obtain ⟨r₃, d₃, hprog₃, hr₃, hp₃, hw₃⟩ := NorFlash.program_run
          (hw₂.usable (hw₁.usable hd)) htarget
          (header (b.generation + 1) (codec.encode cache)) (codec.encode cache)
          (by rw [hw₂.slot, hw₂.size, hw₁.size])
          (by rw [length_header, hw₂.size, hw₁.size]; exact hroom)
        rw [hw₂.size, hw₁.size, length_header] at hprog₃
        rw [hw₂.size, hw₁.size] at hw₃
        cases r₃ with
        | error e =>
            rw [onDevice_bind_error hprog₃]
            obtain ⟨k, hk, hpow, hallowed⟩ :=
              NorFlash.power_of_short (fun h => by simpa using hr₃.mpr h)
            have hpow₁ := NorFlash.power_of_drain (hp₂.symm.trans hpow) hall
            refine .torn e (flashHeaderSize + k) d₃ ?_ hfits ?_ ?_
            · rw [Nat.add_comm]
              exact NorFlash.power_of_drain (hp₁.symm.trans hpow₁) hone
            · rw [nextData, length_slotData]
              omega
            · rw [nextData, slotData, ← length_header (b.generation + 1) (codec.encode cache),
                List.take_length_add_append, ← hallowed]
              exact (hw₁.trans hw₂).trans hw₃
        | ok u =>
            rw [onDevice_bind_ok hprog₃, Prog.run_update]
            rw [hr₃.mp rfl, List.take_length] at hw₃
            exact .done d₃ hfits ((hw₁.trans hw₂).trans hw₃)
  · rw [Prog.run_ensure_bind_error (by simpa using hfit)]
    refine .refused _ fun hfits => absurd ?_ hfit
    rw [Fits] at hfits
    omega

/-- A slot left torn does not disturb the backend. -/
theorem Consistent.torn {b : FlashStorageBackend NorFlash} (hb : Consistent codec b) {d : NorFlash}
    {raw : Bytes} (hw : b.device.Rewrites d (1 - b.activeSector) raw)
    (hraw : parseSlot codec raw = .ok none) : Consistent codec { b with device := d } where
  usable := hw.usable hb.usable
  active := hb.active
  current := by
    have hact := hb.active
    rw [hw.other b.activeSector hact (by omega)]
    exact hb.current
  stale := by
    simp only
    rw [hw.slot]
    exact .inl hraw

/-- A complete slot makes the old active one stale. -/
theorem Consistent.done {b : FlashStorageBackend NorFlash} (hb : Consistent codec b)
    (hgen : b.generation + 1 < 2 ^ 64) {cache : KvMap} (hfits : Fits codec b cache) {d : NorFlash}
    (hw : b.device.Rewrites d (1 - b.activeSector)
      (slotImage b.device.sectorSize (nextData codec b cache))) :
    Consistent codec ⟨d, cache, 1 - b.activeSector, b.generation + 1⟩ where
  usable := hw.usable hb.usable
  active := by
    simp only
    omega
  current := by
    have htwo := hb.usable.two
    have haddr := hb.usable.addressable
    refine .inl ?_
    simp only
    rw [hw.slot]
    exact parseSlot_complete codec hgen (by omega) hfits
  stale := by
    have hact := hb.active
    simp only
    rw [show 1 - (1 - b.activeSector) = b.activeSector by omega,
      hw.other b.activeSector hact (by omega)]
    obtain hcur | ⟨hcur, -⟩ := hb.current
    · exact .inr ⟨b.generation, b.cache, hcur, by omega⟩
    · exact .inl hcur

/-! ## Operations under power cuts -/

/-- An operation on the backend. -/
inductive FlashOp
  | write (key : String) (value : Bytes)
  | delete (key : String)
  | reopen
  deriving DecidableEq

/-- The map an operation commits, if it commits one. -/
def FlashOp.committed : FlashOp → KvMap → Option KvMap
  | .write key value, cache => some (cache.insert key value)
  | .delete key, cache => some (cache.erase key)
  | .reopen, _ => none

/-- The map after a completed operation. -/
def FlashOp.apply (op : FlashOp) (cache : KvMap) : KvMap := (op.committed cache).getD cache

/-- An operation as the source runs it. -/
def FlashOp.run : FlashOp → Prog (FlashStorageBackend NorFlash) StorageError Unit
  | .write key value => FlashStorageBackend.write codec key value
  | .delete key => FlashStorageBackend.delete codec key
  | .reopen => .mk fun b =>
      match new codec b.device with
      | .ok b' => (.ok (), b')
      | .error e => (.error e, b)

/-- Put the device on a supply of `power` device steps. -/
def supply (power : Option Nat) (b : FlashStorageBackend NorFlash) :
    FlashStorageBackend NorFlash :=
  { b with device := { b.device with power := power } }

/-- An operation, and after how many device steps the power fails, if it does. -/
structure FlashStep where
  op : FlashOp
  cut : Option Nat
  deriving DecidableEq

/-- Run a step. After a power failure, during the operation or right after it, the device is
opened again. The first component is the operation's own result. -/
def runStep (st : FlashStep) (b : FlashStorageBackend NorFlash) :
    Except StorageError Unit × Except StorageError (FlashStorageBackend NorFlash) :=
  let (r, b') := (st.op.run codec).run (supply st.cut b)
  (r, if st.cut.isSome then new codec (supply none b').device else .ok (supply none b'))

/-- The checksum detects a payload that this step's power cut leaves partially programmed, once
the header says how long the payload should be. -/
def TornDetected (b : FlashStorageBackend NorFlash) (st : FlashStep) : Prop :=
  ∀ cache k, st.op.committed b.cache = some cache → st.cut = some (k + 1) → 16 ≤ k →
    slotImage b.device.sectorSize ((nextData codec b cache).take k) ≠
      slotImage b.device.sectorSize (nextData codec b cache) →
    ¬ChecksumMatches (slotImage b.device.sectorSize ((nextData codec b cache).take k))

/-- What the step commits, if anything, fits a slot, and the power lasts until it is programmed. -/
def Spared (b : FlashStorageBackend NorFlash) (st : FlashStep) : Prop :=
  ∀ cache, st.op.committed b.cache = some cache →
    Fits codec b cache ∧ ∀ p, st.cut = some p → (nextData codec b cache).length < p

theorem Consistent.supply {b : FlashStorageBackend NorFlash} (hb : Consistent codec b)
    (power : Option Nat) : Consistent codec (supply power b) :=
  ⟨⟨hb.usable.two, hb.usable.header, hb.usable.addressable⟩, hb.active, hb.current, hb.stale⟩

/-- What a step leaves: the map before it or the map after it, in memory and on the device. -/
structure Settled (b : FlashStorageBackend NorFlash) (st : FlashStep)
    (r : Except StorageError Unit) (b' : FlashStorageBackend NorFlash) : Prop where
  consistent : Consistent codec b'
  /-- The map is the old one or the new one. -/
  map : b'.cache = b.cache ∧ b'.generation = b.generation ∨
    b'.cache = st.op.apply b.cache ∧ b'.generation = b.generation + 1
  /-- A completed operation took effect. -/
  completed : r = .ok () → b'.cache = st.op.apply b.cache
  /-- An operation with room and power is completed. -/
  spared : Spared codec b st → r = .ok ()
  /-- A completed commit is a new generation. -/
  newer : r = .ok () → st.op ≠ .reopen → b'.generation = b.generation + 1
  /-- Only commits make generations. -/
  same : st.op = .reopen → b'.generation = b.generation

/-- A step ends in the consistent backend on the device its operation leaves. -/
theorem runStep_of_run {b b₁ b' : FlashStorageBackend NorFlash} {op : FlashOp} {cut : Option Nat}
    {r : Except StorageError Unit} (h : (op.run codec).run (supply cut b) = (r, b₁))
    (hb' : Consistent codec b') (hdevice : b'.device = (supply none b₁).device)
    (hlasting : cut = none → b' = supply none b₁) :
    runStep codec ⟨op, cut⟩ b = (r, .ok b') := by
  rw [runStep, h]
  cases cut with
  | none => rw [hlasting rfl]; rfl
  | some p =>
      have hnew := new_of_consistent codec hb'
      rw [hdevice] at hnew
      simp only [Option.isSome_some, if_true, hnew]

theorem run_commitCache (f : KvMap → KvMap) (b : FlashStorageBackend NorFlash) :
    (commitCache codec f).run b =
      match (commit codec (f b.cache)).run b with
      | (.ok (), b') => (.ok (), { b' with cache := f b.cache })
      | (.error e, b') => (.error e, b') := by
  rw [commitCache, Prog.run_read_bind, Prog.run_bind]
  split <;> simp_all

/-- What a power cut leaves of the target slot is nothing, or the whole slot. -/
theorem parseSlot_torn {b : FlashStorageBackend NorFlash} (hd : b.device.Usable) {cache : KvMap}
    (hfits : Fits codec b cache) {k : Nat}
    (htorn : 16 ≤ k →
      slotImage b.device.sectorSize ((nextData codec b cache).take k) ≠
        slotImage b.device.sectorSize (nextData codec b cache) →
      ¬ChecksumMatches (slotImage b.device.sectorSize ((nextData codec b cache).take k))) :
    parseSlot codec (slotImage b.device.sectorSize ((nextData codec b cache).take k)) = .ok none ∨
      slotImage b.device.sectorSize ((nextData codec b cache).take k) =
        slotImage b.device.sectorSize (nextData codec b cache) := by
  have htwo := hd.two
  have haddr := hd.addressable
  by_cases hk : k < 16
  · exact .inl (parseSlot_torn_header codec hk hd.header (by omega))
  by_cases hwhole : slotImage b.device.sectorSize ((nextData codec b cache).take k) =
      slotImage b.device.sectorSize (nextData codec b cache)
  · exact .inr hwhole
  · exact .inl (parseSlot_torn_payload codec (by omega) (by omega) hfits
      (htorn (by omega) hwhole))

/-- A commit under any supply, followed by a reboot if the power failed. -/
theorem commitCache_settled {b : FlashStorageBackend NorFlash} (hb : Consistent codec b)
    (hgen : b.generation + 1 < 2 ^ 64) {op : FlashOp} {cut : Option Nat}
    (htorn : TornDetected codec b ⟨op, cut⟩) (f : KvMap → KvMap)
    (hop : op.committed b.cache = some (f b.cache))
    (hrun : op.run codec = commitCache codec f) :
    ∃ r b', runStep codec ⟨op, cut⟩ b = (r, .ok b') ∧ Settled codec b ⟨op, cut⟩ r b' := by
  have happly : op.apply b.cache = f b.cache := by rw [FlashOp.apply, hop]; rfl
  have hne : op ≠ .reopen := by
    rintro rfl
    simp [FlashOp.committed] at hop
  have hcommit := run_commitCache codec f (supply cut b)
  rw [← hrun] at hcommit
  have hout := commit_outcome codec (hb.supply codec cut).usable (f b.cache)
  change (op.run codec).run (supply cut b) =
    match (commit codec (f b.cache)).run (supply cut b) with
    | (.ok (), b') => _
    | (.error e, b') => _ at hcommit
  generalize (commit codec (f b.cache)).run (supply cut b) = out at hcommit hout
  cases hout with
  | refused e hwhy =>
      have hb' := hb.supply codec none
      have hspared : ¬Spared codec b ⟨op, cut⟩ := by
        intro h
        obtain ⟨hfits, hpays⟩ := h _ hop
        exact Nat.not_lt_zero _ (hpays 0 (hwhy hfits))
      exact ⟨_, _, runStep_of_run codec hcommit hb' rfl (fun _ => rfl), hb', .inl ⟨rfl, rfl⟩,
        by simp, fun h => (hspared h).elim, by simp, fun h => (hne h).elim⟩
  | torn e k d hpower hfits hshort hw =>
      have hspared : ¬Spared codec b ⟨op, cut⟩ := by
        intro h
        have hpays := (h _ hop).2 (k + 1) hpower
        have hsame : (nextData codec (supply cut b) (f b.cache)).length =
          (nextData codec b (f b.cache)).length := rfl
        omega
      have hw' := hw.withPower b.device.power none
      obtain hraw | hraw := parseSlot_torn codec hb.usable hfits (htorn _ _ hop hpower)
      · have hb' := hb.torn codec hw' hraw
        exact ⟨_, _, runStep_of_run codec hcommit hb' rfl (fun _ => rfl), hb', .inl ⟨rfl, rfl⟩,
          by simp, fun h => (hspared h).elim, by simp, fun h => (hne h).elim⟩
      · have hb' := hb.done codec hgen hfits (hraw ▸ hw')
        refine ⟨_, _, runStep_of_run codec hcommit hb' rfl (fun h => ?_), hb',
          .inr ⟨happly.symm, rfl⟩, by simp, fun h => (hspared h).elim, by simp,
          fun h => (hne h).elim⟩
        have hsome : cut = some (k + 1) := hpower
        rw [h] at hsome
        cases hsome
  | done d hfits hw =>
      have hb' := hb.done codec hgen hfits (hw.withPower b.device.power none)
      exact ⟨_, _, runStep_of_run codec hcommit hb' rfl (fun _ => rfl), hb',
        .inr ⟨happly.symm, rfl⟩, fun _ => happly.symm, fun _ => rfl, fun _ _ => rfl,
        fun h => (hne h).elim⟩

theorem reopen_settled {b : FlashStorageBackend NorFlash} (hb : Consistent codec b)
    (cut : Option Nat) :
    ∃ r b', runStep codec ⟨.reopen, cut⟩ b = (r, .ok b') ∧
      Settled codec b ⟨.reopen, cut⟩ r b' := by
  have hrun : (FlashOp.run codec .reopen).run (supply cut b) = (.ok (), supply cut b) := by
    simp only [FlashOp.run, new_of_consistent codec (hb.supply codec cut)]
  have hb' := hb.supply codec none
  exact ⟨_, _, runStep_of_run codec hrun hb' rfl (fun _ => rfl), hb', .inl ⟨rfl, rfl⟩,
    fun _ => rfl, fun _ => rfl, fun _ h => (h rfl).elim, fun _ => rfl⟩

/-- Every operation under every power cut settles. -/
theorem runStep_settled {b : FlashStorageBackend NorFlash} (hb : Consistent codec b)
    (hgen : b.generation + 1 < 2 ^ 64) {st : FlashStep} (htorn : TornDetected codec b st) :
    ∃ r b', runStep codec st b = (r, .ok b') ∧ Settled codec b st r b' := by
  obtain ⟨op, cut⟩ := st
  cases op with
  | write key value =>
      exact commitCache_settled codec hb hgen htorn (fun cache => cache.insert key value) rfl rfl
  | delete key =>
      exact commitCache_settled codec hb hgen htorn (fun cache => cache.erase key) rfl rfl
  | reopen => exact reopen_settled codec hb cut

/-! ## Whole histories -/

/-- The histories of a backend opened on an erased device: any operations, the power failing
anywhere in any of them. `commits` counts the writes and deletes, and `generations` lists the
generation of the selected slot after each completed one, newest first. -/
inductive History (b₀ : FlashStorageBackend NorFlash) :
    Nat → List Nat → FlashStorageBackend NorFlash → Prop
  | start : History b₀ 0 [] b₀
  | reopen {commits : Nat} {generations : List Nat} {b b' : FlashStorageBackend NorFlash}
      {cut : Option Nat} {r : Except StorageError Unit}
      (before : History b₀ commits generations b)
      (step : runStep codec ⟨.reopen, cut⟩ b = (r, .ok b')) :
      History b₀ commits generations b'
  | completed {commits : Nat} {generations : List Nat} {b b' : FlashStorageBackend NorFlash}
      {st : FlashStep} (before : History b₀ commits generations b)
      (torn : TornDetected codec b st) (commit : st.op ≠ .reopen)
      (step : runStep codec st b = (.ok (), .ok b')) :
      History b₀ (commits + 1) (b'.generation :: generations) b'
  | failed {commits : Nat} {generations : List Nat} {b b' : FlashStorageBackend NorFlash}
      {st : FlashStep} {e : StorageError} (before : History b₀ commits generations b)
      (torn : TornDetected codec b st) (commit : st.op ≠ .reopen)
      (step : runStep codec st b = (.error e, .ok b')) :
      History b₀ (commits + 1) generations b'

/-- What holds along a history. -/
structure Kept (commits : Nat) (generations : List Nat) (b : FlashStorageBackend NorFlash) :
    Prop where
  consistent : Consistent codec b
  bound : b.generation ≤ commits
  recent : ∀ g ∈ generations, g ≤ b.generation
  increasing : generations.Pairwise (· > ·)

theorem History.kept {b₀ b : FlashStorageBackend NorFlash} {commits : Nat} {generations : List Nat}
    (h : History codec b₀ commits generations b) (h₀ : Consistent codec b₀)
    (hgen : b₀.generation = 0) (hlt : commits < 2 ^ 64) : Kept codec commits generations b := by
  induction h with
  | start => exact ⟨h₀, by omega, by simp, .nil⟩
  | @reopen commits generations b b' cut r before step ih =>
      have hb := ih hlt
      obtain ⟨r', b'', hrun, hset⟩ := reopen_settled codec hb.consistent cut
      rw [step] at hrun
      cases hrun
      have hsame := hset.same rfl
      exact ⟨hset.consistent, by rw [hsame]; exact hb.bound,
        fun g hg => by rw [hsame]; exact hb.recent g hg, hb.increasing⟩
  | @completed commits generations b b' st before torn commit step ih =>
      have hb := ih (by omega)
      have hbound := hb.bound
      obtain ⟨r', b'', hrun, hset⟩ := runStep_settled codec hb.consistent (by omega) torn
      rw [step] at hrun
      cases hrun
      have hnewer := hset.newer rfl commit
      refine ⟨hset.consistent, by omega, fun g hg => ?_, ?_⟩
      · obtain rfl | hg := List.mem_cons.mp hg
        · exact le_rfl
        · have := hb.recent g hg
          omega
      · refine List.pairwise_cons.mpr ⟨fun g hg => ?_, hb.increasing⟩
        have := hb.recent g hg
        omega
  | @failed commits generations b b' st e before torn commit step ih =>
      have hb := ih (by omega)
      have hbound := hb.bound
      obtain ⟨r', b'', hrun, hset⟩ := runStep_settled codec hb.consistent (by omega) torn
      rw [step] at hrun
      cases hrun
      have hgens : b'.generation = b.generation ∨ b'.generation = b.generation + 1 := by
        obtain ⟨-, h⟩ | ⟨-, h⟩ := hset.map
        · exact .inl h
        · exact .inr h
      refine ⟨hset.consistent, by omega, fun g hg => ?_, hb.increasing⟩
      have := hb.recent g hg
      omega

/-- **Power-loss atomicity.** A backend opened on an erased device, after any history of writes,
deletes and reopenings with the power failing anywhere in any of them: opening the device again
gives the same backend, and the next operation, wherever the power fails in it, leaves a device
that opens with the map before it or the map it commits, and with the latter if it completed; it
completes where the map fits and the power lasts. The generation of the selected slot grows with
every completed commit. -/
theorem flash_power_loss_atomic (size sectors : Nat) (hheader : flashHeaderSize < size)
    (hsectors : 2 ≤ sectors) (hsize : size * sectors < 2 ^ 32) :
    ∃ b₀, new codec (NorFlash.erased size sectors) = .ok b₀ ∧ b₀.cache = ∅ ∧
      ∀ commits generations b, History codec b₀ commits generations b → commits + 1 < 2 ^ 64 →
        generations.Pairwise (· > ·) ∧ new codec b.device = .ok b ∧
        ∀ st, TornDetected codec b st →
          ∃ r b', runStep codec st b = (r, .ok b') ∧ new codec b'.device = .ok b' ∧
            (b'.cache = b.cache ∨ b'.cache = st.op.apply b.cache) ∧
            (r = .ok () → b'.cache = st.op.apply b.cache) ∧
            (Spared codec b st → r = .ok ()) ∧
            b.generation ≤ b'.generation ∧
            (r = .ok () → st.op ≠ .reopen → b.generation < b'.generation) := by
  have h₀ := consistent_erased codec hheader hsectors hsize
  refine ⟨_, new_of_consistent codec h₀, rfl, fun commits generations b hist hlt => ?_⟩
  have hb := hist.kept codec h₀ rfl (by omega)
  have hbound := hb.bound
  refine ⟨hb.increasing, new_of_consistent codec hb.consistent, fun st htorn => ?_⟩
  obtain ⟨r, b', hrun, hset⟩ := runStep_settled codec hb.consistent (by omega) htorn
  have hmap := hset.map
  refine ⟨r, b', hrun, new_of_consistent codec hset.consistent, ?_, hset.completed, hset.spared,
    by omega, fun hok hop => ?_⟩
  · exact hmap.imp And.left And.left
  · have := hset.newer hok hop
    omega

/-- A first write cut after two bytes of its payload. -/
theorem flash_power_loss_atomic_torn_payload :
    ∃ b₀, new snapshotCodec (NorFlash.erased 64 2) = .ok b₀ ∧
      TornDetected snapshotCodec b₀ ⟨.write "a" [1], some 23⟩ ∧
      ∃ r b', runStep snapshotCodec ⟨.write "a" [1], some 23⟩ b₀ = (r, .ok b') ∧
        new snapshotCodec b'.device = .ok b' ∧
        (b'.cache = ∅ ∨ b'.cache = (∅ : KvMap).insert "a" [1]) := by
  obtain ⟨b₀, hnew, hempty, hall⟩ := flash_power_loss_atomic snapshotCodec 64 2
    (by decide) (by decide) (by decide)
  have hb₀ : b₀ = ⟨NorFlash.erased 64 2, ∅, 0, 0⟩ := by
    rw [new_of_consistent snapshotCodec (consistent_erased snapshotCodec
      (by decide : flashHeaderSize < 64) (by decide : 2 ≤ 2) (by decide))] at hnew
    exact (Except.ok.inj hnew).symm
  have htorn : TornDetected snapshotCodec b₀ ⟨.write "a" [1], some 23⟩ := by
    rintro cache k hop hcut - -
    obtain rfl : (∅ : KvMap).insert "a" [1] = cache := by
      rw [hb₀] at hop
      exact Option.some.inj hop
    obtain rfl : k = 22 := by simpa using hcut.symm
    subst hb₀
    decide +kernel
  obtain ⟨-, -, hstep⟩ := hall 0 [] b₀ .start (by decide)
  obtain ⟨r, b', hrun, hopen, hmap, -⟩ := hstep _ htorn
  rw [hempty] at hmap
  exact ⟨b₀, hnew, htorn, r, b', hrun, hopen, hmap⟩

end FlashStorageBackend

end OpenKey
