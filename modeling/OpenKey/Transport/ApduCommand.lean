import OpenKey.Transport.Iso7816Grammar

/-!
# The APDU parser of the framed CCID transport

`crates/openkey-transport/src/embedded/usb_ccid.rs` has a parser of its own, `ApduCommand::parse`,
and `FramedCcidTransport::recv` hands its data on.

**Theorem (`agree_iff`).** On a byte string that does not open an extended encoding, this parser
and `Apdu::parse` agree exactly when it has at most five bytes, or an `Lc` that is followed by that
many bytes and at most one more.

Outside of that the two always part: the router refuses a body that is cut short, and bytes after
`Le`, where this parser takes the body as it is or drops the rest; and the six bytes
`header 00 Le` are an empty command there and two bytes of data here.
-/

namespace OpenKey

set_option autoImplicit false

/-- `EmbeddedTransportError`. -/
inductive EmbeddedTransportError
  | notInitialized
  | sendFailed
  | recvFailed
  | closed
  | bufferTooSmall
  | framingError
  | timeout
  deriving DecidableEq, Repr

/-- `TransportError`, of the crate's root. -/
inductive TransportError
  | notInitialized
  | sendError (message : String)
  | recvError (message : String)
  | closed
  deriving DecidableEq, Repr

/-- `TransportError::from`. -/
def TransportError.ofEmbedded : EmbeddedTransportError → TransportError
  | .notInitialized => .notInitialized
  | .sendFailed => .sendError "embedded"
  | .recvFailed => .recvError "embedded"
  | .closed => .closed
  | .bufferTooSmall => .sendError "buffer too small"
  | .framingError => .recvError "framing"
  | .timeout => .recvError "timeout"

/-- `ApduCommand`. -/
structure ApduCommand where
  cla : UInt8
  ins : UInt8
  p1 : UInt8
  p2 : UInt8
  data : Bytes
  le : Option Nat
  deriving DecidableEq, Repr

namespace ApduCommand

/-- `parse`. -/
def parse : Bytes → Except EmbeddedTransportError ApduCommand
  | cla :: ins :: p1 :: p2 :: rest =>
      match rest with
      | [] => .ok ⟨cla, ins, p1, p2, [], none⟩
      | [le] => .ok ⟨cla, ins, p1, p2, [], some (if le = 0 then 256 else le.toNat)⟩
      | first :: body =>
          if first.toNat > 0 ∧ first.toNat ≤ body.length then
            .ok ⟨cla, ins, p1, p2, body.take first.toNat,
              (body.drop first.toNat).head?.map fun le => if le = 0 then 256 else le.toNat⟩
          -- What is no short encoding is taken as data, its first byte included.
          else .ok ⟨cla, ins, p1, p2, first :: body, none⟩
  | _ => .error .framingError

/-- The command as the router has it. -/
def toApdu (command : ApduCommand) : Apdu :=
  ⟨command.cla, command.ins, command.p1, command.p2, command.data, command.le⟩

end ApduCommand

/-! ## Where the parsers agree -/

namespace ApduCommand

/-- At most six bytes, or a fifth byte that is not zero: no extended encoding. -/
def NotExtended (raw : Bytes) : Prop := raw.length ≤ 6 ∨ ∃ lc, raw[4]? = some lc ∧ lc ≠ 0

/-- Both parsers refuse, or both read the same command. -/
def Agree (raw : Bytes) : Prop :=
  (parse raw).toOption.map toApdu = (Apdu.parse raw).toOption

/-- The lengths at which they do: no body, or a body of `Lc` bytes with `Le` or without. -/
def Fits (raw : Bytes) : Prop :=
  raw.length ≤ 5 ∨
    ∃ lc, raw[4]? = some lc ∧ lc ≠ 0 ∧
      (raw.length = 5 + lc.toNat ∨ raw.length = 6 + lc.toNat)

section

variable {cla ins p1 p2 lc : UInt8}

theorem parse_body {body : Bytes} (hbody : body ≠ []) :
    parse (cla :: ins :: p1 :: p2 :: lc :: body) =
      if lc.toNat > 0 ∧ lc.toNat ≤ body.length then
        .ok ⟨cla, ins, p1, p2, body.take lc.toNat,
          (body.drop lc.toNat).head?.map fun le => if le = 0 then 256 else le.toNat⟩
      else .ok ⟨cla, ins, p1, p2, lc :: body, none⟩ := by
  rcases body with _ | ⟨second, body⟩
  · exact absurd rfl hbody
  · rfl

/-- With its `Lc` bytes there, the command is the router's, but for the bytes after `Le`. -/
theorem agree_append {data : Bytes} (hlc : lc ≠ 0) (hlen : data.length = lc.toNat)
    (tail : Bytes) :
    Agree (cla :: ins :: p1 :: p2 :: lc :: (data ++ tail)) ↔ tail.length ≤ 1 := by
  have hpos : lc.toNat > 0 := Nat.pos_of_ne_zero fun h => hlc (UInt8.toNat_inj.mp h)
  have hbody : data ++ tail ≠ [] := by
    intro h
    rw [(List.append_eq_nil_iff.mp h).1] at hlen
    exact absurd hlen (Nat.ne_of_lt hpos)
  have hfits : lc.toNat ≤ (data ++ tail).length := by
    rw [List.length_append]
    omega
  rw [Agree, parse_body hbody, if_pos ⟨hpos, hfits⟩, Apdu.parse_short hlc hbody,
    Apdu.parseShort_append _ _ _ _ hlen, ← hlen, List.take_left, List.drop_left]
  rcases tail with _ | ⟨le, _ | ⟨extra, tail⟩⟩
  · exact iff_of_true rfl (Nat.zero_le 1)
  · exact iff_of_true rfl (Nat.le_refl 1)
  · refine iff_of_false (fun h => ?_) (by simp)
    cases h

/-- A body cut short is data here and refused there. -/
theorem not_agree_truncated {body : Bytes} (hlc : lc ≠ 0) (hbody : body ≠ [])
    (htrunc : body.length < lc.toNat) : ¬Agree (cla :: ins :: p1 :: p2 :: lc :: body) := by
  intro h
  rw [Agree, parse_body hbody, if_neg (by omega), Apdu.parse_short hlc hbody,
    Apdu.parseShort_truncated _ _ _ _ htrunc] at h
  cases h

/-- An empty `Lc` is data here and none there. -/
theorem not_agree_empty (le : UInt8) : ¬Agree [cla, ins, p1, p2, 0, le] := by
  intro h
  simp [Agree, parse, Apdu.parse, toApdu, Except.toOption] at h

end

/-- On what opens no extended encoding, the two parsers agree exactly where the lengths fit. -/
theorem agree_iff {raw : Bytes} (h : NotExtended raw) : Agree raw ↔ Fits raw := by
  rcases raw with _ | ⟨cla, _ | ⟨ins, _ | ⟨p1, _ | ⟨p2, rest⟩⟩⟩⟩
  iterate 4 exact iff_of_true rfl (.inl (by simp))
  rcases rest with _ | ⟨lc, _ | ⟨second, body⟩⟩
  · exact iff_of_true rfl (.inl (by simp))
  · refine iff_of_true ?_ (.inl (by simp))
    simp only [Agree, parse, Apdu.parse, leFromByte]
    rfl
  · by_cases hlc : lc = 0
    · subst hlc
      have hlen : (cla :: ins :: p1 :: p2 :: 0 :: second :: body).length ≤ 6 := by
        rcases h with h | ⟨lc, hfifth, hne⟩
        · exact h
        · exact absurd (Option.some.inj hfifth).symm hne
      have hnil : body = [] := by
        simp only [List.length_cons] at hlen
        exact List.eq_nil_of_length_eq_zero (by omega)
      subst hnil
      refine iff_of_false (not_agree_empty second) ?_
      rintro (hfive | ⟨lc, hfifth, hne, -⟩)
      · simp at hfive
      · exact hne (Option.some.inj hfifth).symm
    · have hfits : Fits (cla :: ins :: p1 :: p2 :: lc :: second :: body) ↔
          (second :: body).length = lc.toNat ∨ (second :: body).length = lc.toNat + 1 := by
        simp only [Fits, List.length_cons, List.getElem?_cons_succ, List.getElem?_cons_zero,
          Option.some.injEq]
        constructor
        · rintro (hfive | ⟨_, rfl, -, hlen⟩) <;> omega
        · exact fun hlen => .inr ⟨lc, rfl, hlc, by omega⟩
      rw [hfits]
      by_cases htrunc : (second :: body).length < lc.toNat
      · exact iff_of_false (not_agree_truncated hlc (List.cons_ne_nil _ _) htrunc) (by omega)
      · obtain ⟨data, tail, hsplit, hlen⟩ := Apdu.exists_append_of_le (Nat.not_lt.mp htrunc)
        rw [hsplit, agree_append hlc hlen, List.length_append]
        omega

/-- A SELECT that announces five bytes and brings one is a command with two bytes of data to this
parser, and refused by the router. -/
theorem not_agree_select :
    NotExtended [0x00, 0xA4, 0x04, 0x00, 0x05, 0x01] ∧
      ¬Agree [0x00, 0xA4, 0x04, 0x00, 0x05, 0x01] :=
  ⟨.inl (Nat.le_refl 6), fun h => nomatch h⟩

theorem agree_iff_select :
    (Agree [0x00, 0xA4, 0x04, 0x00, 0x05, 0x01] ↔ Fits [0x00, 0xA4, 0x04, 0x00, 0x05, 0x01]) ∧
      (Agree [0x00, 0xA4, 0x04, 0x00, 0x01, 0x07] ↔
        Fits [0x00, 0xA4, 0x04, 0x00, 0x01, 0x07]) :=
  ⟨agree_iff (.inl (Nat.le_refl 6)), agree_iff (.inl (Nat.le_refl 6))⟩

end ApduCommand

end OpenKey
