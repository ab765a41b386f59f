import OpenKey.Library.Checked
import OpenKey.Transport.Iso7816

/-!
# The grammar of commands

**Theorem (`parse_exact`).** `Apdu::parse` accepts the byte strings of its table of cases, with the
values of the table, and no others. It reads the short and the extended encoding of every command
with data back to that command, and it never indexes or slices outside its buffer.

The parser tells the cases apart by the length and the fifth byte alone. Each case of the table is
therefore one split of what follows the header into the data and its tail (`parseShort_append`,
`parseExtended_append`), and a body that is too short for its `Lc` has no split.

`parseAt` is the parser once more, with the indices of the source and with operations that may
panic. It returns what `parse` does.
-/

namespace OpenKey.Apdu

set_option autoImplicit false

/-! ## The table of cases -/

/-- The documented grammar: the bytes of a command and what they stand for. -/
inductive Grammar : Bytes → Apdu → Prop
  /-- Case 1: the header. -/
  | bare (cla ins p1 p2 : UInt8) : Grammar [cla, ins, p1, p2] ⟨cla, ins, p1, p2, [], none⟩
  /-- Case 2S: the header and `Le`. -/
  | shortLe (cla ins p1 p2 le : UInt8) :
      Grammar [cla, ins, p1, p2, le] ⟨cla, ins, p1, p2, [], some (leFromByte le)⟩
  /-- Case 3S: `Lc` and the data. -/
  | shortData (cla ins p1 p2 lc : UInt8) (data : Bytes) (hlc : lc ≠ 0)
      (hlen : data.length = lc.toNat) :
      Grammar (cla :: ins :: p1 :: p2 :: lc :: data) ⟨cla, ins, p1, p2, data, none⟩
  /-- Case 4S: `Lc`, the data and `Le`. -/
  | shortBoth (cla ins p1 p2 lc : UInt8) (data : Bytes) (le : UInt8) (hlc : lc ≠ 0)
      (hlen : data.length = lc.toNat) :
      Grammar (cla :: ins :: p1 :: p2 :: lc :: (data ++ [le]))
        ⟨cla, ins, p1, p2, data, some (leFromByte le)⟩
  /-- Case 4S with an empty `Lc`, in six bytes. -/
  | emptyLc (cla ins p1 p2 le : UInt8) :
      Grammar [cla, ins, p1, p2, 0, le] ⟨cla, ins, p1, p2, [], some (leFromByte le)⟩
  /-- Case 2E, in seven bytes. -/
  | extendedLe (cla ins p1 p2 hi lo : UInt8) :
      Grammar [cla, ins, p1, p2, 0, hi, lo] ⟨cla, ins, p1, p2, [], some (leFromPair hi lo)⟩
  /-- Case 3E, in eight bytes or more: an `Lc` of two bytes and the data. -/
  | extendedData (cla ins p1 p2 lcHi lcLo : UInt8) (data : Bytes) (hdata : data ≠ [])
      (hlen : data.length = 256 * lcHi.toNat + lcLo.toNat) :
      Grammar (cla :: ins :: p1 :: p2 :: 0 :: lcHi :: lcLo :: data) ⟨cla, ins, p1, p2, data, none⟩
  /-- Case 4E: an `Lc` of two bytes, zero or not, the data and an `Le` of two bytes. -/
  | extendedBoth (cla ins p1 p2 lcHi lcLo : UInt8) (data : Bytes) (hi lo : UInt8)
      (hlen : data.length = 256 * lcHi.toNat + lcLo.toNat) :
      Grammar (cla :: ins :: p1 :: p2 :: 0 :: lcHi :: lcLo :: (data ++ [hi, lo]))
        ⟨cla, ins, p1, p2, data, some (leFromPair hi lo)⟩

/-! ## What follows the header -/

section

variable (cla ins p1 p2 : UInt8)

theorem parseShort_append {lc : UInt8} {data : Bytes} (hlen : data.length = lc.toNat)
    (tail : Bytes) :
    parseShort cla ins p1 p2 lc (data ++ tail) =
      match tail with
      | [] => .ok ⟨cla, ins, p1, p2, data, none⟩
      | [le] => .ok ⟨cla, ins, p1, p2, data, some (leFromByte le)⟩
      | _ => .error .trailingBytes := by
  have hfits : ¬(data ++ tail).length < lc.toNat := by
    rw [List.length_append]
    omega
  rw [parseShort, if_neg hfits, ← hlen, List.drop_left, List.take_left]
  rcases tail with _ | ⟨le, _ | ⟨extra, tail⟩⟩ <;> rfl

theorem parseShort_truncated {lc : UInt8} {body : Bytes} (h : body.length < lc.toNat) :
    parseShort cla ins p1 p2 lc body = .error .truncatedBody := if_pos h

theorem parseExtended_append {hi lo : UInt8} {data : Bytes}
    (hlen : data.length = 256 * hi.toNat + lo.toNat) (tail : Bytes) :
    parseExtended cla ins p1 p2 hi lo (data ++ tail) =
      match tail with
      | [] => .ok ⟨cla, ins, p1, p2, data, none⟩
      | [leHi, leLo] => .ok ⟨cla, ins, p1, p2, data, some (leFromPair leHi leLo)⟩
      | _ => .error .trailingBytes := by
  have hfits : ¬(data ++ tail).length < 256 * hi.toNat + lo.toNat := by
    rw [List.length_append]
    omega
  dsimp only [parseExtended]
  rw [if_neg hfits, ← hlen, List.drop_left, List.take_left]
  rcases tail with _ | ⟨leHi, _ | ⟨leLo, _ | ⟨extra, tail⟩⟩⟩ <;> rfl

theorem parseExtended_truncated {hi lo : UInt8} {body : Bytes}
    (h : body.length < 256 * hi.toNat + lo.toNat) :
    parseExtended cla ins p1 p2 hi lo body = .error .truncatedBody := if_pos h

end

/-- A body that holds `lc` bytes is those and a tail. -/
theorem exists_append_of_le {lc : Nat} {body : Bytes} (h : lc ≤ body.length) :
    ∃ data tail, body = data ++ tail ∧ data.length = lc :=
  ⟨body.take lc, body.drop lc, (List.take_append_drop lc body).symm,
    List.length_take_of_le h⟩

/-! ## Soundness and completeness -/

theorem grammar_of_parseShort {cla ins p1 p2 lc : UInt8} {body : Bytes} {apdu : Apdu}
    (hlc : lc ≠ 0) (h : parseShort cla ins p1 p2 lc body = .ok apdu) :
    Grammar (cla :: ins :: p1 :: p2 :: lc :: body) apdu := by
  by_cases htrunc : body.length < lc.toNat
  · rw [parseShort_truncated _ _ _ _ htrunc] at h
    cases h
  · obtain ⟨data, tail, rfl, hlen⟩ := exists_append_of_le (Nat.not_lt.mp htrunc)
    rw [parseShort_append _ _ _ _ hlen] at h
    rcases tail with _ | ⟨le, _ | ⟨extra, tail⟩⟩
    · cases h
      rw [List.append_nil]
      exact .shortData cla ins p1 p2 lc data hlc hlen
    · cases h
      exact .shortBoth cla ins p1 p2 lc data le hlc hlen
    · cases h

theorem grammar_of_parseExtended {cla ins p1 p2 hi lo : UInt8} {body : Bytes} {apdu : Apdu}
    (hbody : body ≠ []) (h : parseExtended cla ins p1 p2 hi lo body = .ok apdu) :
    Grammar (cla :: ins :: p1 :: p2 :: 0 :: hi :: lo :: body) apdu := by
  by_cases htrunc : body.length < 256 * hi.toNat + lo.toNat
  · rw [parseExtended_truncated _ _ _ _ htrunc] at h
    cases h
  · obtain ⟨data, tail, rfl, hlen⟩ := exists_append_of_le (Nat.not_lt.mp htrunc)
    rw [parseExtended_append _ _ _ _ hlen] at h
    rcases tail with _ | ⟨leHi, _ | ⟨leLo, _ | ⟨extra, tail⟩⟩⟩
    · cases h
      rw [List.append_nil] at hbody ⊢
      exact .extendedData cla ins p1 p2 hi lo data hbody hlen
    · cases h
    · cases h
      exact .extendedBoth cla ins p1 p2 hi lo data leHi leLo hlen
    · cases h

/-- What is accepted is in the table. -/
theorem grammar_of_parse {raw : Bytes} {apdu : Apdu} (h : parse raw = .ok apdu) :
    Grammar raw apdu := by
  rcases raw with _ | ⟨cla, _ | ⟨ins, _ | ⟨p1, _ | ⟨p2, rest⟩⟩⟩⟩
  iterate 4 cases h
  rcases rest with _ | ⟨first, _ | ⟨second, body⟩⟩
  · cases h
    exact .bare cla ins p1 p2
  · cases h
    exact .shortLe cla ins p1 p2 first
  · by_cases hfirst : first = 0
    · subst hfirst
      rcases body with _ | ⟨third, _ | ⟨fourth, body⟩⟩
      · cases h
        exact .emptyLc cla ins p1 p2 second
      · cases h
        exact .extendedLe cla ins p1 p2 second third
      · exact grammar_of_parseExtended (List.cons_ne_nil fourth body) h
    · simp only [parse, if_neg hfirst] at h
      exact grammar_of_parseShort hfirst h

/-- Data of a short case is one byte or more, so that the command has six bytes or more. -/
theorem parse_short {cla ins p1 p2 lc : UInt8} {body : Bytes} (hlc : lc ≠ 0) (hbody : body ≠ []) :
    parse (cla :: ins :: p1 :: p2 :: lc :: body) = parseShort cla ins p1 p2 lc body := by
  rcases body with _ | ⟨second, body⟩
  · exact absurd rfl hbody
  · simp only [parse, if_neg hlc]

theorem parse_extended {cla ins p1 p2 hi lo : UInt8} {body : Bytes} (hbody : body ≠ []) :
    parse (cla :: ins :: p1 :: p2 :: 0 :: hi :: lo :: body) =
      parseExtended cla ins p1 p2 hi lo body := by
  rcases body with _ | ⟨fourth, body⟩
  · exact absurd rfl hbody
  · rfl

/-- What is in the table is accepted. -/
theorem parse_of_grammar {raw : Bytes} {apdu : Apdu} (h : Grammar raw apdu) :
    parse raw = .ok apdu := by
  have hnil : ∀ {lc : UInt8} {data : Bytes}, lc ≠ 0 → data.length = lc.toNat → data ≠ [] := by
    rintro lc _ hlc hlen rfl
    exact hlc (UInt8.toNat_inj.mp hlen.symm)
  cases h with
  | bare => rfl
  | shortLe => rfl
  | shortData cla ins p1 p2 lc data hlc hlen =>
      rw [parse_short hlc (hnil hlc hlen), ← List.append_nil data, parseShort_append _ _ _ _ hlen,
        List.append_nil]
  | shortBoth cla ins p1 p2 lc data le hlc hlen =>
      rw [parse_short hlc (by simp), parseShort_append _ _ _ _ hlen]
  | emptyLc => rfl
  | extendedLe => rfl
  | extendedData cla ins p1 p2 hi lo data hdata hlen =>
      rw [parse_extended hdata, ← List.append_nil data, parseExtended_append _ _ _ _ hlen,
        List.append_nil]
  | extendedBoth cla ins p1 p2 lcHi lcLo data hi lo hlen =>
      rw [parse_extended (by simp), parseExtended_append _ _ _ _ hlen]

theorem parse_ok_iff {raw : Bytes} {apdu : Apdu} : parse raw = .ok apdu ↔ Grammar raw apdu :=
  ⟨grammar_of_parse, parse_of_grammar⟩

/-! ## Encoding a command -/

/-- A command with data: `Lc` has a value in each form that exists, and so has `Le`. -/
structure Carries (apdu : Apdu) : Prop where
  nonempty : 1 ≤ apdu.data.length
  bounded : apdu.data.length ≤ 65535
  le : ∀ n, apdu.le = some n → 1 ≤ n ∧ n ≤ 65536

/-- The command has a short encoding. -/
structure HasShort (apdu : Apdu) : Prop where
  data : apdu.data.length ≤ 255
  le : ∀ n, apdu.le = some n → n ≤ 256

/-- The short encoding; an `Le` of 256 is the byte zero. -/
def encodeShort (apdu : Apdu) : Bytes :=
  apdu.cla :: apdu.ins :: apdu.p1 :: apdu.p2 :: UInt8.ofNat apdu.data.length ::
    (apdu.data ++ match apdu.le with
      | none => []
      | some n => [UInt8.ofNat n])

/-- The extended encoding; an `Le` of 65536 is two bytes zero. -/
def encodeExtended (apdu : Apdu) : Bytes :=
  apdu.cla :: apdu.ins :: apdu.p1 :: apdu.p2 :: 0 :: UInt8.ofNat (apdu.data.length / 256) ::
    UInt8.ofNat apdu.data.length ::
    (apdu.data ++ match apdu.le with
      | none => []
      | some n => [UInt8.ofNat (n / 256), UInt8.ofNat n])

theorem leFromByte_ofNat {n : Nat} (hpos : 1 ≤ n) (hle : n ≤ 256) :
    leFromByte (UInt8.ofNat n) = n := by
  have hnat : (UInt8.ofNat n).toNat = n % 256 := UInt8.toNat_ofNat'
  rcases Nat.lt_or_eq_of_le hle with hlt | rfl
  · have hne : UInt8.ofNat n ≠ 0 := fun h => by
      have hzero := hnat.symm.trans (congrArg UInt8.toNat h)
      rw [Nat.mod_eq_of_lt hlt] at hzero
      exact absurd hzero (by rw [UInt8.toNat_zero]; omega)
    rw [leFromByte, if_neg hne, hnat, Nat.mod_eq_of_lt hlt]
  · rfl

theorem pair_ofNat (n : Nat) :
    256 * (UInt8.ofNat (n / 256)).toNat + (UInt8.ofNat n).toNat = n % 65536 := by
  rw [show (UInt8.ofNat (n / 256)).toNat = n / 256 % 256 from UInt8.toNat_ofNat',
    show (UInt8.ofNat n).toNat = n % 256 from UInt8.toNat_ofNat']
  omega

theorem leFromPair_ofNat {n : Nat} (hpos : 1 ≤ n) (hle : n ≤ 65536) :
    leFromPair (UInt8.ofNat (n / 256)) (UInt8.ofNat n) = n := by
  simp only [leFromPair, pair_ofNat]
  rcases Nat.lt_or_eq_of_le hle with hlt | rfl
  · rw [Nat.mod_eq_of_lt hlt, if_neg (by omega)]
  · rfl

/-- The short encoding is read back. -/
theorem parse_encodeShort {apdu : Apdu} (h : Carries apdu) (hshort : HasShort apdu) :
    parse (encodeShort apdu) = .ok apdu := by
  obtain ⟨cla, ins, p1, p2, data, le⟩ := apdu
  have hpos : 1 ≤ data.length := h.nonempty
  have hmax : data.length ≤ 255 := hshort.data
  have hlen : data.length = (UInt8.ofNat data.length).toNat :=
    (Nat.mod_eq_of_lt (by omega : data.length < 256)).symm.trans UInt8.toNat_ofNat'.symm
  have hlc : UInt8.ofNat data.length ≠ 0 := fun hzero => by
    rw [hzero, UInt8.toNat_zero] at hlen
    omega
  refine parse_of_grammar ?_
  cases le with
  | none =>
      show Grammar (cla :: ins :: p1 :: p2 :: UInt8.ofNat data.length :: (data ++ [])) _
      rw [List.append_nil]
      exact .shortData cla ins p1 p2 _ data hlc hlen
  | some n =>
      have hgrammar := Grammar.shortBoth cla ins p1 p2 _ data (UInt8.ofNat n) hlc hlen
      rwa [leFromByte_ofNat (h.le n rfl).1 (hshort.le n rfl)] at hgrammar

/-- The extended encoding is read back. -/
theorem parse_encodeExtended {apdu : Apdu} (h : Carries apdu) :
    parse (encodeExtended apdu) = .ok apdu := by
  obtain ⟨cla, ins, p1, p2, data, le⟩ := apdu
  have hpos : 1 ≤ data.length := h.nonempty
  have hmax : data.length ≤ 65535 := h.bounded
  have hlen : data.length = 256 * (UInt8.ofNat (data.length / 256)).toNat +
      (UInt8.ofNat data.length).toNat := by
    rw [pair_ofNat, Nat.mod_eq_of_lt (by omega)]
  refine parse_of_grammar ?_
  cases le with
  | none =>
      show Grammar (cla :: ins :: p1 :: p2 :: 0 :: UInt8.ofNat (data.length / 256) ::
        UInt8.ofNat data.length :: (data ++ [])) _
      rw [List.append_nil]
      exact .extendedData cla ins p1 p2 _ _ data (List.ne_nil_of_length_pos hpos) hlen
  | some n =>
      have hgrammar := Grammar.extendedBoth cla ins p1 p2 _ _ data (UInt8.ofNat (n / 256))
        (UInt8.ofNat n) hlen
      rwa [leFromPair_ofNat (h.le n rfl).1 (h.le n rfl).2] at hgrammar

/-! ## The parser by indices -/

/-- `parse` with the indices and slices of the source, each of which may panic. -/
def parseAt (raw : Bytes) : Except Panic (Except ApduParseError Apdu) :=
  if raw.length < 4 then .ok (.error .tooShort)
  else do
    let cla ← Checked.byte raw 0
    let ins ← Checked.byte raw 1
    let p1 ← Checked.byte raw 2
    let p2 ← Checked.byte raw 3
    if raw.length = 4 then return .ok ⟨cla, ins, p1, p2, [], none⟩
    else
      let fifth ← Checked.byte raw 4
      if raw.length = 5 then return .ok ⟨cla, ins, p1, p2, [], some (leFromByte fifth)⟩
      else if fifth = 0 then
        let sixth ← Checked.byte raw 5
        if raw.length = 6 then return .ok ⟨cla, ins, p1, p2, [], some (leFromByte sixth)⟩
        else
          let seventh ← Checked.byte raw 6
          if raw.length = 7 then
            return .ok ⟨cla, ins, p1, p2, [], some (leFromPair sixth seventh)⟩
          else
            let stop ← Checked.add 7 (256 * sixth.toNat + seventh.toNat)
            if raw.length < stop then return .error .truncatedBody
            else
              let data ← Checked.slice raw 7 stop
              match ← Checked.sub raw.length stop with
              | 0 => return .ok ⟨cla, ins, p1, p2, data, none⟩
              | 2 =>
                  let hi ← Checked.byte raw (← Checked.sub raw.length 2)
                  let lo ← Checked.byte raw (← Checked.sub raw.length 1)
                  return .ok ⟨cla, ins, p1, p2, data, some (leFromPair hi lo)⟩
              | _ => return .error .trailingBytes
      else
        let stop ← Checked.add 5 fifth.toNat
        if raw.length < stop then return .error .truncatedBody
        else
          let data ← Checked.slice raw 5 stop
          match ← Checked.sub raw.length stop with
          | 0 => return .ok ⟨cla, ins, p1, p2, data, none⟩
          | 1 =>
              let le ← Checked.byte raw stop
              return .ok ⟨cla, ins, p1, p2, data, some (leFromByte le)⟩
          | _ => return .error .trailingBytes

theorem bind_ok {α β : Type} (a : α) (f : α → Except Panic β) : (Except.ok a >>= f) = f a := rfl

section

variable {cla ins p1 p2 : UInt8}

theorem parseAt_short {lc : UInt8} {body : Bytes} (hlc : lc ≠ 0) (hbody : body ≠ []) :
    parseAt (cla :: ins :: p1 :: p2 :: lc :: body) =
      .ok (parseShort cla ins p1 p2 lc body) := by
  have hpos : 0 < body.length := List.length_pos_iff.mpr hbody
  have hlt : 5 + lc.toNat < 2 ^ 32 := by
    have := lc.toNat_lt
    omega
  have hlength : (cla :: ins :: p1 :: p2 :: lc :: body).length = body.length + 5 := rfl
  have hcla : Checked.byte (cla :: ins :: p1 :: p2 :: lc :: body) 0 = .ok cla := rfl
  have hins : Checked.byte (cla :: ins :: p1 :: p2 :: lc :: body) 1 = .ok ins := rfl
  have hp1 : Checked.byte (cla :: ins :: p1 :: p2 :: lc :: body) 2 = .ok p1 := rfl
  have hp2 : Checked.byte (cla :: ins :: p1 :: p2 :: lc :: body) 3 = .ok p2 := rfl
  have hfifth : Checked.byte (cla :: ins :: p1 :: p2 :: lc :: body) 4 = .ok lc := rfl
  rw [parseAt, hlength, if_neg (by omega), hcla, bind_ok, hins, bind_ok, hp1, bind_ok, hp2,
    bind_ok, if_neg (by omega), hfifth, bind_ok, if_neg (by omega), if_neg hlc, Checked.add_ok hlt,
    bind_ok]
  by_cases htrunc : body.length < lc.toNat
  · rw [if_pos (by omega), parseShort_truncated _ _ _ _ htrunc]
    rfl
  · obtain ⟨data, tail, rfl, hlen⟩ := exists_append_of_le (Nat.not_lt.mp htrunc)
    have hdata : ((cla :: ins :: p1 :: p2 :: lc :: (data ++ tail)).drop 5).take
        (5 + lc.toNat - 5) = data := by
      rw [Nat.add_sub_cancel_left, ← hlen]
      exact List.take_left
    have hrest : (data ++ tail).length + 5 - (5 + lc.toNat) = tail.length := by
      rw [List.length_append]
      omega
    rw [if_neg (by omega), Checked.slice_ok (by omega) (by rw [hlength]; omega), bind_ok, hdata,
      parseShort_append _ _ _ _ hlen, Checked.sub_ok (by omega), bind_ok, hrest]
    rcases tail with _ | ⟨le, _ | ⟨extra, tail⟩⟩
    · rfl
    · have hle : (cla :: ins :: p1 :: p2 :: lc :: (data ++ [le]))[5 + lc.toNat]? = some le := by
        rw [Nat.add_comm, ← hlen]
        simp
      show (Checked.byte _ _ >>= _) = _
      rw [Checked.byte_ok hle]
      rfl
    · rfl

theorem parseAt_extended {hi lo : UInt8} {body : Bytes} (hbody : body ≠ []) :
    parseAt (cla :: ins :: p1 :: p2 :: 0 :: hi :: lo :: body) =
      .ok (parseExtended cla ins p1 p2 hi lo body) := by
  have hpos : 0 < body.length := List.length_pos_iff.mpr hbody
  have hlt : 7 + (256 * hi.toNat + lo.toNat) < 2 ^ 32 := by
    have := hi.toNat_lt
    have := lo.toNat_lt
    omega
  have hlength : (cla :: ins :: p1 :: p2 :: 0 :: hi :: lo :: body).length = body.length + 7 := rfl
  have hcla : Checked.byte (cla :: ins :: p1 :: p2 :: 0 :: hi :: lo :: body) 0 = .ok cla := rfl
  have hins : Checked.byte (cla :: ins :: p1 :: p2 :: 0 :: hi :: lo :: body) 1 = .ok ins := rfl
  have hp1 : Checked.byte (cla :: ins :: p1 :: p2 :: 0 :: hi :: lo :: body) 2 = .ok p1 := rfl
  have hp2 : Checked.byte (cla :: ins :: p1 :: p2 :: 0 :: hi :: lo :: body) 3 = .ok p2 := rfl
  have hfifth : Checked.byte (cla :: ins :: p1 :: p2 :: 0 :: hi :: lo :: body) 4 = .ok 0 := rfl
  have hsixth : Checked.byte (cla :: ins :: p1 :: p2 :: 0 :: hi :: lo :: body) 5 = .ok hi := rfl
  have hseventh : Checked.byte (cla :: ins :: p1 :: p2 :: 0 :: hi :: lo :: body) 6 = .ok lo := rfl
  rw [parseAt, hlength, if_neg (by omega), hcla, bind_ok, hins, bind_ok, hp1, bind_ok, hp2,
    bind_ok, if_neg (by omega), hfifth, bind_ok, if_neg (by omega), if_pos rfl, hsixth, bind_ok,
    if_neg (by omega), hseventh, bind_ok, if_neg (by omega), Checked.add_ok hlt, bind_ok]
  by_cases htrunc : body.length < 256 * hi.toNat + lo.toNat
  · rw [if_pos (by omega), parseExtended_truncated _ _ _ _ htrunc]
    rfl
  · obtain ⟨data, tail, rfl, hlen⟩ := exists_append_of_le (Nat.not_lt.mp htrunc)
    have hdata : ((cla :: ins :: p1 :: p2 :: 0 :: hi :: lo :: (data ++ tail)).drop 7).take
        (7 + (256 * hi.toNat + lo.toNat) - 7) = data := by
      rw [Nat.add_sub_cancel_left, ← hlen]
      exact List.take_left
    have hrest : (data ++ tail).length + 7 - (7 + (256 * hi.toNat + lo.toNat)) = tail.length := by
      rw [List.length_append]
      omega
    rw [if_neg (by omega), Checked.slice_ok (by omega) (by rw [hlength]; omega), bind_ok, hdata,
      parseExtended_append _ _ _ _ hlen, Checked.sub_ok (by omega), bind_ok, hrest]
    rcases tail with _ | ⟨leHi, _ | ⟨leLo, _ | ⟨extra, tail⟩⟩⟩
    · rfl
    · rfl
    · have hlast : (data ++ [leHi, leLo]).length + 7 = data.length + 9 := by simp
      have hhi : (cla :: ins :: p1 :: p2 :: 0 :: hi :: lo ::
          (data ++ [leHi, leLo]))[data.length + 9 - 2]? = some leHi := by simp
      have hlo : (cla :: ins :: p1 :: p2 :: 0 :: hi :: lo ::
          (data ++ [leHi, leLo]))[data.length + 9 - 1]? = some leLo := by simp
      show (Checked.sub _ 2 >>= _) = _
      rw [hlast, Checked.sub_ok (by omega), bind_ok, Checked.byte_ok hhi, bind_ok,
        Checked.sub_ok (by omega), bind_ok, Checked.byte_ok hlo]
      rfl
    · rfl

end

/-- The parser by indices returns, whatever the bytes, and returns what `parse` does. -/
theorem parseAt_eq (raw : Bytes) : parseAt raw = .ok (parse raw) := by
  rcases raw with _ | ⟨cla, _ | ⟨ins, _ | ⟨p1, _ | ⟨p2, rest⟩⟩⟩⟩
  iterate 4 rfl
  rcases rest with _ | ⟨first, _ | ⟨second, body⟩⟩
  · rfl
  · rfl
  · by_cases hfirst : first = 0
    · subst hfirst
      rcases body with _ | ⟨third, _ | ⟨fourth, body⟩⟩
      · rfl
      · rfl
      · rw [parse_extended (List.cons_ne_nil _ _), parseAt_extended (List.cons_ne_nil _ _)]
    · rw [parse_short hfirst (List.cons_ne_nil _ _), parseAt_short hfirst (List.cons_ne_nil _ _)]

/-! ## The theorem -/

/-- `Apdu::parse` is exact: it accepts the table and nothing else, reads both encodings of every
command with data, and stays within its buffer. -/
theorem parse_exact :
    (∀ raw apdu, parse raw = .ok apdu ↔ Grammar raw apdu) ∧
      (∀ apdu, Carries apdu → (HasShort apdu → parse (encodeShort apdu) = .ok apdu) ∧
        parse (encodeExtended apdu) = .ok apdu) ∧
      ∀ raw, parseAt raw = .ok (parse raw) :=
  ⟨fun _ _ => parse_ok_iff,
    fun _ h => ⟨parse_encodeShort h, parse_encodeExtended h⟩, parseAt_eq⟩

end OpenKey.Apdu
