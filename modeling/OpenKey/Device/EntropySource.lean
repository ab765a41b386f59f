import OpenKey.Library.CountingGenerator
import OpenKey.Library.Bytes

/-!
# The random generator of the firmware

What `targets/rp2350/src/main.rs` registers with `getrandom`: `splitmix64` over a state of two
words, seeded once a boot by `entropy_seed`, and `entropy_fill`, through which every draw of the
firmware goes.

**When it fails, and when it repeats (`entropy_exact`).** A boot has one position, counted in words
of eight bytes, at which the state is the one that stands for "not seeded": a fill fails exactly
when an earlier fill, or it itself, began there. Two fills begin with the same word exactly when a
multiple of `2 ^ 64` words lies between them. So no nonce, challenge or key is drawn twice in a
boot that draws at most `2 ^ 64` words.
-/

namespace OpenKey

open CountingGenerator (xorShift xorShift_injective)

set_option autoImplicit false

namespace Firmware

/-! ## The generator -/

/-- `RNG_STATE_LO` and `RNG_STATE_HI`. -/
structure RngState where
  lo : UInt32
  hi : UInt32
  deriving DecidableEq

/-- `rng_state_load`. -/
def rngStateLoad (rng : RngState) : UInt64 := (rng.hi.toUInt64 <<< 32) ||| rng.lo.toUInt64

/-- `rng_state_store`. -/
def rngStateStore (v : UInt64) : RngState := ⟨v.toUInt32, (v >>> 32).toUInt32⟩

/-- `splitmix64`: the word, and the state after it. -/
def splitmix64 (state : UInt64) : UInt64 × UInt64 :=
  let state := state + 0x9E3779B97F4A7C15
  let z := (state ^^^ (state >>> 30)) * 0xBF58476D1CE4E5B9
  let z := (z ^^^ (z >>> 27)) * 0x94D049BB133111EB
  (z ^^^ (z >>> 31), state)

example : (splitmix64 0).1 = 0xE220A8397B1DCDAF := by decide

/-- `entropy_seed`, from the BootRandom of the ROM and the cycle counter. -/
def entropySeed (boot : Option (BitVec 128)) (cycles : UInt32) : Bool × RngState :=
  let seed := match boot with
    | some b => UInt64.ofBitVec (b.setWidth 64) ^^^ UInt64.ofBitVec ((b >>> 64).setWidth 64)
    | none => 0
  let seed := seed ^^^ (splitmix64 (cycles.toUInt64 ||| 1)).1
  (boot.isSome, rngStateStore (seed ||| 1))

/-- The loop of `entropy_fill` over the chunks of a buffer. The last chunk may be shorter. -/
def fillChunks : Nat → Nat → UInt64 → Bytes × UInt64
  | 0, _, state => ([], state)
  | chunks + 1, len, state =>
    let (word, state) := splitmix64 state
    let (rest, state) := fillChunks chunks (len - 8) state
    ((Bytes.leBytes 8 word.toNat).take (min 8 len) ++ rest, state)

/-- The number of chunks of a buffer, which is the number of words it takes. -/
def words (len : Nat) : Nat := (len + 7) / 8

/-- `entropy_fill` for a buffer of `len` bytes. -/
def entropyFill (len : Nat) (rng : RngState) : Option Bytes × RngState :=
  if rngStateLoad rng = 0 then (none, rng)
  else
    let (buf, state) := fillChunks (words len) len (rngStateLoad rng)
    (some buf, rngStateStore state)

/-- The fills of a boot, by the lengths of their buffers. -/
def fills : List Nat → RngState → List (Option Bytes)
  | [], _ => []
  | len :: lens, rng => (entropyFill len rng).1 :: fills lens (entropyFill len rng).2

/-- The fills of a boot that seeds the generator with these. -/
def bootFills (boot : Option (BitVec 128)) (cycles : UInt32) (lens : List Nat) :
    List (Option Bytes) :=
  fills lens (entropySeed boot cycles).2

/-- The words that fills take when none fails. -/
def drawn (lens : List Nat) : Nat := (lens.map words).sum

/-! ## The generator counts and mixes -/

/-- The step of the state. -/
def golden : BitVec 64 := 0x9E3779B97F4A7C15

/-- The word of a state. -/
def mix64 (z : BitVec 64) : BitVec 64 :=
  xorShift 31 (xorShift 27 (xorShift 30 z * 0xBF58476D1CE4E5B9) * 0x94D049BB133111EB)

theorem golden_mul : golden * 0xF1DE83E19937733D = 1 := by decide

theorem mix64_injective : Function.Injective mix64 := by
  have hfirst := CountingGenerator.mul_injective
    (show (0xBF58476D1CE4E5B9 : BitVec 64) * 0x96DE1B173F119089 = 1 by decide)
  have hsecond := CountingGenerator.mul_injective
    (show (0x94D049BB133111EB : BitVec 64) * 0x319642B2D24D8EC3 = 1 by decide)
  exact (xorShift_injective (by decide)).comp <| hsecond.comp <|
    (xorShift_injective (by decide)).comp <| hfirst.comp <| xorShift_injective (by decide)

theorem addOrderOf_golden : addOrderOf golden = 2 ^ 64 :=
  CountingGenerator.addOrderOf_of_mul golden_mul

/-- The two halves are put together again. -/
@[simp] theorem rngStateLoad_store (v : UInt64) : rngStateLoad (rngStateStore v) = v := by
  have hlow : v.toNat % 2 ^ 32 < 2 ^ 32 := Nat.mod_lt _ (by decide)
  have hhigh : v.toNat / 2 ^ 32 < 2 ^ 32 := Nat.div_lt_of_lt_mul (UInt64.toNat_lt v)
  apply UInt64.toNat_inj.mp
  simp only [rngStateLoad, rngStateStore, UInt64.toNat_or, UInt64.toNat_shiftLeft,
    UInt32.toNat_toUInt64, UInt64.toNat_toUInt32, UInt64.toNat_shiftRight]
  change ((v.toNat >>> 32 % 2 ^ 32) <<< 32) % 2 ^ 64 ||| v.toNat % 2 ^ 32 = v.toNat
  rw [Nat.shiftRight_eq_div_pow, Nat.mod_eq_of_lt hhigh, Nat.mod_eq_of_lt,
    ← Nat.shiftLeft_add_eq_or_of_lt hlow, Nat.shiftLeft_eq]
  · omega
  · rw [Nat.shiftLeft_eq]
    omega

/-! ## One fill -/

theorem fillChunks_state (chunks len : Nat) (state : UInt64) :
    (fillChunks chunks len state).2.toBitVec =
      CountingGenerator.after golden chunks state.toBitVec := by
  induction chunks generalizing len state with
  | zero => rw [fillChunks, CountingGenerator.after_zero]
  | succ chunks ih =>
    rw [fillChunks, CountingGenerator.after_succ]
    exact ih (len - 8) (splitmix64 state).2

theorem length_fillChunks {chunks len : Nat} (h : words len = chunks) (state : UInt64) :
    (fillChunks chunks len state).1.length = len := by
  induction chunks generalizing len state with
  | zero =>
    rw [words] at h
    rw [fillChunks, List.length_nil]
    omega
  | succ chunks ih =>
    rw [words] at h
    have hchunks : words (len - 8) = chunks := by
      rw [words]
      omega
    have hrest := ih hchunks (splitmix64 state).2
    rw [fillChunks]
    simp only [List.length_append, List.length_take, Bytes.length_leBytes, hrest]
    omega

/-- A buffer of at least eight bytes begins with a whole word. -/
theorem take_fillChunks {len : Nat} (h : 8 ≤ len) (state : UInt64) :
    (fillChunks (words len) len state).1.take 8 =
      Bytes.leBytes 8 (CountingGenerator.word golden mix64 0 state.toBitVec).toNat := by
  obtain ⟨chunks, hchunks⟩ : ∃ chunks, words len = chunks + 1 :=
    ⟨words len - 1, by rw [words]; omega⟩
  rw [hchunks, fillChunks, CountingGenerator.word_zero]
  simp only [Nat.min_eq_left h]
  rw [List.take_append_of_le_length (by simp), List.take_take, Nat.min_self,
    List.take_of_length_le (by simp)]
  rfl

theorem entropyFill_stalled {rng : RngState} (h : rngStateLoad rng = 0) (len : Nat) :
    entropyFill len rng = (none, rng) := if_pos h

theorem entropyFill_running {rng : RngState} (h : rngStateLoad rng ≠ 0) (len : Nat) :
    entropyFill len rng = (some (fillChunks (words len) len (rngStateLoad rng)).1,
      rngStateStore (fillChunks (words len) len (rngStateLoad rng)).2) := if_neg h

/-! ## The fills of a boot -/

@[simp] theorem drawn_nil : drawn [] = 0 := rfl

@[simp] theorem drawn_cons (len : Nat) (lens : List Nat) :
    drawn (len :: lens) = words len + drawn lens := List.sum_cons

/-- The state of a generator, as a number of its cycle. -/
def RngState.position (rng : RngState) : BitVec 64 := (rngStateLoad rng).toBitVec

theorem position_eq_zero {rng : RngState} : rng.position = 0 ↔ rngStateLoad rng = 0 :=
  UInt64.toBitVec_inj (b := 0)

/-- One of the fills up to number `i` begins at the state zero. -/
def Stalled (lens : List Nat) (i : Nat) (rng : RngState) : Prop :=
  ∃ j ≤ i, CountingGenerator.after golden (drawn (lens.take j)) rng.position = 0

theorem stalled_of_zero {rng : RngState} (h : rngStateLoad rng = 0) (lens : List Nat) (i : Nat) :
    Stalled lens i rng := by
  refine ⟨0, Nat.zero_le i, ?_⟩
  rw [List.take_zero, drawn_nil, CountingGenerator.after_zero]
  exact position_eq_zero.mpr h

theorem position_entropyFill {rng : RngState} (h : rngStateLoad rng ≠ 0) (len : Nat) :
    (entropyFill len rng).2.position =
      CountingGenerator.after golden (words len) rng.position := by
  rw [entropyFill_running h, RngState.position, rngStateLoad_store, fillChunks_state]
  rfl

/-- A fill that is made moves the stalls of the fills behind it. -/
theorem stalled_cons {rng : RngState} (h : rngStateLoad rng ≠ 0) (len : Nat) (lens : List Nat)
    (i : Nat) : Stalled (len :: lens) (i + 1) rng ↔ Stalled lens i (entropyFill len rng).2 := by
  constructor
  · rintro ⟨j, hj, hzero⟩
    cases j with
    | zero =>
      rw [List.take_zero, drawn_nil, CountingGenerator.after_zero] at hzero
      exact absurd (position_eq_zero.mp hzero) h
    | succ j =>
      refine ⟨j, Nat.le_of_succ_le_succ hj, ?_⟩
      rw [position_entropyFill h, ← CountingGenerator.after_add, ← drawn_cons,
        ← List.take_succ_cons]
      exact hzero
  · rintro ⟨j, hj, hzero⟩
    refine ⟨j + 1, Nat.succ_le_succ hj, ?_⟩
    rw [position_entropyFill h, ← CountingGenerator.after_add, ← drawn_cons,
      ← List.take_succ_cons] at hzero
    exact hzero

/-- A fill fails when it or one before it begins at the state zero. -/
theorem fills_stalled {lens : List Nat} {i len : Nat} {rng : RngState} (hi : lens[i]? = some len)
    (h : Stalled lens i rng) : (fills lens rng)[i]? = some none := by
  induction lens generalizing i rng with
  | nil => cases hi
  | cons first lens ih =>
    by_cases hzero : rngStateLoad rng = 0
    · cases i with
      | zero => rw [fills, entropyFill_stalled hzero, List.getElem?_cons_zero]
      | succ i =>
        rw [fills, entropyFill_stalled hzero, List.getElem?_cons_succ]
        exact ih hi (stalled_of_zero hzero lens i)
    · cases i with
      | zero =>
        obtain ⟨j, hj, hafter⟩ := h
        obtain rfl : j = 0 := Nat.le_zero.mp hj
        rw [List.take_zero, drawn_nil, CountingGenerator.after_zero] at hafter
        exact absurd (position_eq_zero.mp hafter) hzero
      | succ i =>
        rw [fills, List.getElem?_cons_succ]
        exact ih hi ((stalled_cons hzero first lens i).mp h)

/-- Any other fill gives the words from its place in the boot on. -/
theorem fills_running {lens : List Nat} {i len : Nat} {rng : RngState} (hi : lens[i]? = some len)
    (h : ¬ Stalled lens i rng) :
    ∃ state : UInt64,
      state.toBitVec = CountingGenerator.after golden (drawn (lens.take i)) rng.position ∧
        (fills lens rng)[i]? = some (some (fillChunks (words len) len state).1) := by
  induction lens generalizing i rng with
  | nil => cases hi
  | cons first lens ih =>
    have hzero : rngStateLoad rng ≠ 0 := fun hzero => h (stalled_of_zero hzero _ i)
    cases i with
    | zero =>
      obtain rfl : first = len := Option.some.inj hi
      refine ⟨rngStateLoad rng, ?_, ?_⟩
      · rw [List.take_zero, drawn_nil, CountingGenerator.after_zero]
        rfl
      · rw [fills, entropyFill_running hzero, List.getElem?_cons_zero]
    | succ i =>
      obtain ⟨state, hstate, hget⟩ := ih hi (mt (stalled_cons hzero first lens i).mpr h)
      refine ⟨state, ?_, ?_⟩
      · rw [hstate, position_entropyFill hzero, ← CountingGenerator.after_add, ← drawn_cons,
          List.take_succ_cons]
      · rw [fills, List.getElem?_cons_succ]
        exact hget

/-- The fills that are made have the lengths asked for. -/
theorem length_of_fills {lens : List Nat} {i : Nat} {rng : RngState} {buf : Bytes}
    (h : (fills lens rng)[i]? = some (some buf)) :
    lens[i]? = some buf.length ∧ ¬ Stalled lens i rng := by
  have hlength : (fills lens rng).length = lens.length := by
    clear h
    induction lens generalizing rng with
    | nil => rfl
    | cons len lens ih => rw [fills, List.length_cons, ih, List.length_cons]
  have hlt : i < lens.length := hlength ▸ (List.getElem?_eq_some_iff.mp h).1
  have hi : lens[i]? = some lens[i] := List.getElem?_eq_getElem hlt
  by_cases hstalled : Stalled lens i rng
  · rw [fills_stalled hi hstalled] at h
    cases h
  · obtain ⟨state, -, hget⟩ := fills_running hi hstalled
    rw [hget] at h
    obtain rfl := Option.some.inj (Option.some.inj h)
    rw [length_fillChunks rfl]
    exact ⟨hi, hstalled⟩

/-- A fill of at least eight bytes begins with the word of its place in the boot. -/
theorem take_of_fills {lens : List Nat} {i : Nat} {rng : RngState} {buf : Bytes}
    (h : (fills lens rng)[i]? = some (some buf)) (hlen : 8 ≤ buf.length) :
    buf.take 8 = Bytes.leBytes 8
      (CountingGenerator.word golden mix64 (drawn (lens.take i)) rng.position).toNat := by
  obtain ⟨hi, hrunning⟩ := length_of_fills h
  obtain ⟨state, hstate, hget⟩ := fills_running hi hrunning
  have hbuf := Option.some.inj (Option.some.inj (h.symm.trans hget))
  rw [hbuf, take_fillChunks hlen, hstate, CountingGenerator.word_after]
  rfl

theorem leBytes_word_inj {x y : BitVec 64} :
    Bytes.leBytes 8 x.toNat = Bytes.leBytes 8 y.toNat ↔ x = y := by
  constructor
  · intro h
    have hnat := congrArg Bytes.leNat h
    rw [Bytes.leNat_leBytes_of_lt x.isLt, Bytes.leNat_leBytes_of_lt y.isLt] at hnat
    exact BitVec.eq_of_toNat_eq hnat
  · rintro rfl
    rfl

/-! ## The random generator of a boot -/

theorem drawn_le_of_take {lens : List Nat} {i j len : Nat} (hij : i < j)
    (hi : lens[i]? = some len) :
    drawn (lens.take i) + words len ≤ drawn (lens.take j) := by
  induction lens generalizing i j with
  | nil => cases hi
  | cons first lens ih =>
    cases j with
    | zero => exact absurd hij (Nat.not_lt_zero i)
    | succ j =>
      cases i with
      | zero =>
        obtain rfl : first = len := Option.some.inj hi
        rw [List.take_zero, drawn_nil, Nat.zero_add, List.take_succ_cons, drawn_cons]
        exact Nat.le_add_right _ _
      | succ i =>
        have := ih (Nat.lt_of_succ_lt_succ hij) hi
        rw [List.take_succ_cons, List.take_succ_cons, drawn_cons, drawn_cons]
        omega

theorem modEq_of_fills {lens : List Nat} {i j : Nat} {rng : RngState} {buf buf' : Bytes}
    (h : (fills lens rng)[i]? = some (some buf)) (h' : (fills lens rng)[j]? = some (some buf'))
    (hlen : 8 ≤ buf.length) (hlen' : 8 ≤ buf'.length) :
    buf.take 8 = buf'.take 8 ↔ drawn (lens.take i) ≡ drawn (lens.take j) [MOD 2 ^ 64] := by
  rw [take_of_fills h hlen, take_of_fills h' hlen', leBytes_word_inj,
    CountingGenerator.word_eq_word mix64_injective, addOrderOf_golden]

/-- Fewer words than a period lie between two fills. -/
theorem ne_of_fills {lens : List Nat} {i j : Nat} {rng : RngState} {buf buf' : Bytes}
    (hdrawn : drawn lens ≤ 2 ^ 64) (hij : i < j) (h : (fills lens rng)[i]? = some (some buf))
    (h' : (fills lens rng)[j]? = some (some buf')) (hlen : 8 ≤ buf.length)
    (hlen' : 8 ≤ buf'.length) : buf.take 8 ≠ buf'.take 8 := by
  intro heq
  have hmod := (modEq_of_fills h h' hlen hlen').mp heq
  have hbetween := drawn_le_of_take hij (length_of_fills h).1
  obtain ⟨hj, -⟩ := length_of_fills h'
  have hlast := drawn_le_of_take (List.getElem?_eq_some_iff.mp hj).1 hj
  rw [List.take_length] at hlast
  have hwords : 1 ≤ words buf.length := by rw [words]; omega
  have hwords' : 1 ≤ words buf'.length := by rw [words]; omega
  have hsame := Nat.ModEq.eq_of_lt_of_lt hmod (by omega) (by omega)
  omega

theorem position_entropySeed (boot : Option (BitVec 128)) (cycles : UInt32) :
    (entropySeed boot cycles).2.position ≠ 0 := by
  intro h
  have hload := position_eq_zero.mp h
  simp only [entropySeed, rngStateLoad_store] at hload
  have hodd := congrArg (fun v : UInt64 => v.toBitVec.getLsbD 0) hload
  simp at hodd

/-- In a boot, by the lengths of the buffers that are filled: which fills fail, and which begin
with the same word. -/
theorem entropy_exact (boot : Option (BitVec 128)) (cycles : UInt32) (lens : List Nat) :
    ∃ stall, 0 < stall ∧ stall < 2 ^ 64 ∧
      (∀ i < lens.length, (bootFills boot cycles lens)[i]? = some none ↔
        ∃ j ≤ i, drawn (lens.take j) ≡ stall [MOD 2 ^ 64]) ∧
      (∀ (i j : Nat) (buf buf' : Bytes), (bootFills boot cycles lens)[i]? = some (some buf) →
        (bootFills boot cycles lens)[j]? = some (some buf') →
        8 ≤ buf.length → 8 ≤ buf'.length →
          (buf.take 8 = buf'.take 8 ↔
            drawn (lens.take i) ≡ drawn (lens.take j) [MOD 2 ^ 64]) ∧
          (i < j → drawn lens ≤ 2 ^ 64 → buf ≠ buf')) := by
  obtain ⟨stall, hlt, hstall⟩ := CountingGenerator.exists_after_eq golden_mul
    (entropySeed boot cycles).2.position 0
  have hzero (n : Nat) :
      CountingGenerator.after golden n (entropySeed boot cycles).2.position = 0 ↔
        n ≡ stall [MOD 2 ^ 64] := by
    rw [← hstall, CountingGenerator.after_eq_after, addOrderOf_golden]
  refine ⟨stall, ?_, hlt, ?_, ?_⟩
  · apply Nat.pos_of_ne_zero
    rintro rfl
    rw [CountingGenerator.after_zero] at hstall
    exact position_entropySeed boot cycles hstall
  · intro i hi
    have hget : lens[i]? = some lens[i] := List.getElem?_eq_getElem hi
    have hstalled : Stalled lens i (entropySeed boot cycles).2 ↔
        ∃ j ≤ i, drawn (lens.take j) ≡ stall [MOD 2 ^ 64] := by
      simp only [Stalled, hzero]
    rw [← hstalled]
    constructor
    · intro hnone
      by_contra hrunning
      obtain ⟨state, -, hsome⟩ := fills_running hget hrunning
      rw [bootFills, hsome] at hnone
      cases hnone
    · exact fills_stalled hget
  · intro i j buf buf' h h' hlen hlen'
    refine ⟨modEq_of_fills h h' hlen hlen', ?_⟩
    intro hij hdrawn heq
    exact ne_of_fills hdrawn hij h h' hlen hlen' (congrArg (List.take 8) heq)

end Firmware

end OpenKey
