import OpenKey.Transport.Ctaphid

/-!
# CTAPHID: fragmenting and assembling

What the fragmenter cuts, the assembler puts together, from whatever state it is in: an INIT
packet replaces any message in progress, and each CONT packet then finds the state that expects
it. The sequence numbers stay below 128 because a payload fills at most 128 CONT packets.
-/

namespace OpenKey.Ctaphid

set_option autoImplicit false

/-! ## Packets -/

namespace RawPacket

theorem slice_of_append {raw : RawPacket} {a b c : Bytes} {start len : Nat}
    (h : raw.bytes = a ++ b ++ c) (ha : a.length = start) (hb : b.length = len) :
    raw.slice start len = b := by
  subst ha hb
  rw [slice, h, List.append_assoc, List.drop_left, List.take_left]

theorem byte_of_append {raw : RawPacket} {a c : Bytes} {x : UInt8} {i : Nat}
    (h : raw.bytes = a ++ x :: c) (ha : a.length = i) : raw.byte i = x := by
  subst ha
  simp [byte, h]

end RawPacket

theorem beNat_cid (cid : UInt32) :
    UInt32.ofNat (Bytes.beNat (Bytes.beBytes 4 cid.toNat)) = cid := by
  rw [Bytes.beNat_beBytes_of_lt (by simpa using cid.toNat_lt), UInt32.ofNat_toNat]

theorem beNat_totalLen (len : UInt16) :
    UInt16.ofNat (Bytes.beNat (Bytes.beBytes 2 len.toNat)) = len := by
  rw [Bytes.beNat_beBytes_of_lt (by simpa using len.toNat_lt), UInt16.ofNat_toNat]

theorem init_bit (code : UInt8) : (0x80 ||| (code &&& 0x7F)) &&& 0x80 ≠ 0 := by
  intro h
  have hbit := congrArg (fun x : UInt8 => x.toBitVec.getLsbD 7) h
  simp at hbit

theorem low_bits (code : UInt8) : (0x80 ||| (code &&& 0x7F)) &&& 0x7F = code &&& 0x7F := by
  have hdisjoint : ∀ i : Fin 8, ((128#8)[i] && (127#8)[i]) = false := by decide
  apply UInt8.eq_of_toBitVec_eq
  ext i hi
  have hbit : ((128#8)[i] && (127#8)[i]) = false := hdisjoint ⟨i, hi⟩
  simp only [UInt8.toBitVec_and, UInt8.toBitVec_or, UInt8.toBitVec_ofNat, BitVec.getElem_and,
    BitVec.getElem_or, Bool.and_or_distrib_right, Bool.and_assoc, Bool.and_self]
  rw [hbit, Bool.false_or]

theorem cont_bit (seq : UInt8) : (seq &&& 0x7F) &&& 0x80 = 0 := by
  rw [UInt8.and_assoc, show (0x7F &&& 0x80 : UInt8) = 0 by decide, UInt8.and_zero]

theorem seq_bits {seq : UInt8} (h : seq.toNat < 128) : seq &&& 0x7F = seq := by
  apply UInt8.toNat_inj.mp
  rw [UInt8.toNat_and, show (0x7F : UInt8).toNat = 2 ^ 7 - 1 from rfl,
    Nat.and_two_pow_sub_one_eq_mod, Nat.mod_eq_of_lt h]

theorem fromRawCmd_toInitCmdByte (cmd : CtaphidCommand) :
    CtaphidCommand.fromRawCmd cmd.toInitCmdByte = .fromRawCmd cmd.rawCode := by
  unfold CtaphidCommand.fromRawCmd CtaphidCommand.toInitCmdByte
  rw [low_bits]

namespace CtaphidPacket

theorem bytes_toBytes (packet : CtaphidPacket) : (toBytes packet).bytes =
    packet.front ++ List.replicate (packetSize - packet.front.length) 0 := rfl

/-- An INIT packet is read as it was written. -/
theorem fromBytes_toBytes_init (cid : UInt32) {cmd : CtaphidCommand}
    (hcmd : CtaphidCommand.fromRawCmd cmd.rawCode = cmd) {len : UInt16} {data : Bytes}
    (hdata : data.length = min len.toNat initPayloadSize) :
    fromBytes (toBytes (.init cid cmd len data)) = .ok (.init cid cmd len data) := by
  have hshort : data.take initPayloadSize = data := List.take_of_length_le (by omega)
  obtain ⟨zeros, hraw⟩ : ∃ zeros, (toBytes (.init cid cmd len data)).bytes =
      Bytes.beBytes 4 cid.toNat ++ cmd.toInitCmdByte ::
        (Bytes.beBytes 2 len.toNat ++ (data ++ zeros)) :=
    ⟨_, by simp only [bytes_toBytes, front, hshort, List.append_assoc, List.cons_append]; rfl⟩
  have hcid : (toBytes (.init cid cmd len data)).slice 0 4 = Bytes.beBytes 4 cid.toNat :=
    RawPacket.slice_of_append (a := []) (by rw [hraw, List.nil_append]) rfl (by simp)
  have hbyte : (toBytes (.init cid cmd len data)).byte 4 = cmd.toInitCmdByte :=
    RawPacket.byte_of_append hraw (by simp)
  have hlen : (toBytes (.init cid cmd len data)).slice 5 2 = Bytes.beBytes 2 len.toNat :=
    RawPacket.slice_of_append (a := Bytes.beBytes 4 cid.toNat ++ [cmd.toInitCmdByte])
      (c := data ++ zeros) (by simp [hraw]) (by simp) (by simp)
  have hbody : (toBytes (.init cid cmd len data)).slice 7 (min len.toNat initPayloadSize) = data :=
    RawPacket.slice_of_append (c := zeros)
      (a := Bytes.beBytes 4 cid.toNat ++ cmd.toInitCmdByte :: Bytes.beBytes 2 len.toNat)
      (by simp [hraw]) (by simp) hdata
  simp only [fromBytes, hcid, hbyte, hlen, beNat_cid, beNat_totalLen, hbody,
    fromRawCmd_toInitCmdByte, hcmd]
  exact if_pos (init_bit _)

/-- A CONT packet is read as it was written, with its padding. -/
theorem fromBytes_toBytes_cont (cid : UInt32) {seq : UInt8} (hseq : seq.toNat < 128) {data : Bytes}
    (hdata : data.length ≤ contPayloadSize) : ∃ zeros : Bytes,
      (data ++ zeros).length = contPayloadSize ∧
      fromBytes (toBytes (.cont cid seq data)) = .ok (.cont cid seq (data ++ zeros)) := by
  have hshort : data.take contPayloadSize = data := List.take_of_length_le hdata
  obtain ⟨zeros, hraw⟩ : ∃ zeros, (toBytes (.cont cid seq data)).bytes =
      Bytes.beBytes 4 cid.toNat ++ (seq &&& 0x7F) :: (data ++ zeros) :=
    ⟨_, by simp only [bytes_toBytes, front, hshort, List.append_assoc, List.cons_append]; rfl⟩
  have hsize : (data ++ zeros).length = contPayloadSize := by
    have hlen := (toBytes (.cont cid seq data)).length_bytes
    rw [hraw] at hlen
    simp [packetSize] at hlen
    simp [contPayloadSize]
    omega
  have hcid : (toBytes (.cont cid seq data)).slice 0 4 = Bytes.beBytes 4 cid.toNat :=
    RawPacket.slice_of_append (a := []) (by rw [hraw, List.nil_append]) rfl (by simp)
  have hbyte : (toBytes (.cont cid seq data)).byte 4 = seq &&& 0x7F :=
    RawPacket.byte_of_append hraw (by simp)
  have hbody : (toBytes (.cont cid seq data)).slice 5 (packetSize - 5) = data ++ zeros :=
    RawPacket.slice_of_append (a := Bytes.beBytes 4 cid.toNat ++ [seq &&& 0x7F]) (c := [])
      (by simp [hraw]) (by simp) hsize
  refine ⟨zeros, hsize, ?_⟩
  have hcont : ¬(seq &&& 0x7F) &&& 0x80 ≠ 0 := fun h => h (cont_bit seq)
  simp only [fromBytes, hcid, hbyte, beNat_cid, hbody]
  rw [if_neg hcont, UInt8.and_assoc, UInt8.and_self, seq_bits hseq]

end CtaphidPacket

/-! ## The assembler -/

namespace CtaphidAssembler

theorem run_processPacket {raw : RawPacket} {packet : CtaphidPacket}
    (h : CtaphidPacket.fromBytes raw = .ok packet) (s : CtaphidAssembler) :
    (processPacket raw).run s =
      match packet with
      | .init cid cmd totalLen data => (processInit cid cmd totalLen data).run s
      | .cont cid seq data => (processCont cid seq data).run s := by
  unfold processPacket
  rw [Prog.run_check_bind (a := packet) (by rw [h]; rfl)]
  cases packet <;> rfl

/-- The CONT packet that is expected extends the message in progress. -/
theorem run_processCont {state : AssemblyState} (data : Bytes) :
    (processCont state.cid state.nextSeq data).run ⟨some state⟩ =
      let next := AssemblyState.extend state data
      if next.buffer.length ≥ next.totalLen then
        (.ok (some ⟨next.cid, next.cmd, next.buffer⟩), ⟨none⟩)
      else (.ok none, ⟨some next⟩) := by
  unfold processCont
  rw [Prog.run_read_bind]
  simp only [ne_eq, not_true_eq_false, if_false]
  split <;> rfl

/-- What the padding of the last packet adds is cut off again. -/
theorem extend_padded {state : AssemblyState} {chunk zeros : Bytes}
    (hsize : (chunk ++ zeros).length = contPayloadSize)
    (hfits : state.buffer.length + chunk.length ≤ state.totalLen)
    (hlast : zeros = [] ∨ state.buffer.length + chunk.length = state.totalLen) :
    AssemblyState.extend state (chunk ++ zeros) =
      { state with buffer := state.buffer ++ chunk, nextSeq := state.nextSeq + 1 } := by
  have hlen : min (state.totalLen - state.buffer.length)
      (min (chunk ++ zeros).length contPayloadSize) = chunk.length := by
    obtain rfl | hfull := hlast
    · rw [List.append_nil] at hsize ⊢
      omega
    · rw [List.length_append] at hsize ⊢
      omega
  unfold AssemblyState.extend
  simp only [hlen, List.take_left]

/-- The answers to a message that arrives in `n + 1` packets. -/
def delivery (n : Nat) (message : CtaphidMessage) :
    List (Except (UInt32 × CtaphidErrorCode) (Option CtaphidMessage)) :=
  List.replicate n (.ok none) ++ [.ok (some message)]

theorem contPackets_cons (cid : UInt32) (seq : UInt8) {rest : Bytes} (h : 0 < rest.length) :
    contPackets cid seq rest =
      CtaphidPacket.toBytes (.cont cid seq (rest.take contPayloadSize)) ::
        contPackets cid (seq + 1) (rest.drop contPayloadSize) := by
  rw [contPackets, if_pos h]

theorem contPackets_nil (cid : UInt32) (seq : UInt8) : contPackets cid seq [] = [] := by
  rw [contPackets, if_neg (by simp)]

/-- The CONT packets of what is left of a payload complete the message, and only the last does. -/
theorem feed_contPackets (rest : Bytes) (state : AssemblyState) (hpos : 0 < rest.length)
    (htotal : state.buffer.length + rest.length = state.totalLen)
    (hseq : rest.length ≤ (128 - state.nextSeq.toNat) * contPayloadSize) :
    feed ⟨some state⟩ (contPackets state.cid state.nextSeq rest) =
      delivery ((contPackets state.cid state.nextSeq rest).length - 1)
        ⟨state.cid, state.cmd, state.buffer ++ rest⟩ := by
  -- by the number of bytes left, with the message in progress as it grows
  induction hn : rest.length using Nat.strong_induction_on generalizing rest state with
  | _ n ih =>
      subst hn
      have hbelow : state.nextSeq.toNat < 128 := by
        unfold contPayloadSize at hseq
        omega
      have hchunk : (rest.take contPayloadSize).length ≤ contPayloadSize := List.length_take_le _ _
      obtain ⟨zeros, hsize, hparse⟩ :=
        CtaphidPacket.fromBytes_toBytes_cont state.cid hbelow hchunk
      have hrun := run_processPacket hparse ⟨some state⟩
      simp only [run_processCont] at hrun
      rw [contPackets_cons _ _ hpos]
      by_cases hlast : rest.length ≤ contPayloadSize
      · -- the last packet
        rw [List.take_of_length_le hlast] at hsize hrun ⊢
        rw [extend_padded hsize htotal.le (.inr htotal)] at hrun
        rw [List.drop_eq_nil_of_le hlast, contPackets_nil]
        simp only [feed, hrun]
        rw [if_pos (by rw [List.length_append]; exact htotal.ge)]
        rfl
      · -- a full packet, with more to come
        have hfull : (rest.take contPayloadSize).length = contPayloadSize := by
          rw [List.length_take]
          omega
        have hzeros : zeros = [] := by
          rw [List.length_append, hfull] at hsize
          exact List.eq_nil_of_length_eq_zero (by omega)
        have hrest : (rest.drop contPayloadSize).length = rest.length - contPayloadSize :=
          List.length_drop
        rw [extend_padded hsize (by rw [hfull]; omega) (.inl hzeros)] at hrun
        have hmore : ¬(state.buffer ++ rest.take contPayloadSize).length ≥ state.totalLen := by
          rw [List.length_append, hfull]
          omega
        rw [if_neg hmore] at hrun
        have hnext : (state.nextSeq + 1).toNat = state.nextSeq.toNat + 1 := by
          rw [UInt8.toNat_add]
          simp only [UInt8.toNat_one]
          omega
        have htail := ih (rest.drop contPayloadSize).length
          (by rw [hrest]; unfold contPayloadSize; omega) (rest.drop contPayloadSize)
          { state with
            buffer := state.buffer ++ rest.take contPayloadSize, nextSeq := state.nextSeq + 1 }
          (by rw [hrest]; omega)
          (by show _ = state.totalLen; rw [List.length_append, hfull, hrest]; omega)
          (by rw [hrest, hnext]; unfold contPayloadSize at *; omega) rfl
        simp only [feed, hrun]
        rw [htail, List.append_assoc, List.take_append_drop, List.length_cons, Nat.add_sub_cancel,
          contPackets_cons _ _ (by rw [hrest]; omega), List.length_cons, Nat.add_sub_cancel]
        rfl

/-- A payload that does not fit is refused. -/
theorem fragment_too_large (cid : UInt32) (cmd : CtaphidCommand) {payload : Bytes}
    (h : maxPayloadLen < payload.length) :
    fragment cid cmd payload = .error (.payloadTooLarge payload.length) := if_pos h

theorem fragment_ok (cid : UInt32) (cmd : CtaphidCommand) {payload : Bytes}
    (h : payload.length ≤ maxPayloadLen) : fragment cid cmd payload =
      .ok (CtaphidPacket.toBytes (.init cid cmd (UInt16.ofNat payload.length)
          (payload.take initPayloadSize)) :: contPackets cid 0 (payload.drop initPayloadSize)) := by
  have htake : payload.take (min payload.length initPayloadSize) =
      payload.take initPayloadSize := by
    simp [Nat.min_comm]
  have hdrop : payload.drop (min payload.length initPayloadSize) =
      payload.drop initPayloadSize := by
    rcases Nat.le_total payload.length initPayloadSize with hle | hle
    · rw [Nat.min_eq_left hle, List.drop_length, List.drop_eq_nil_of_le hle]
    · rw [Nat.min_eq_right hle]
  unfold fragment
  rw [if_neg (Nat.not_lt.mpr h)]
  simp only [htake, hdrop]

/-- The packets of a payload, from any state. -/
theorem feed_fragment (cid : UInt32) {cmd : CtaphidCommand}
    (hcmd : CtaphidCommand.fromRawCmd cmd.rawCode = cmd) (hcancel : cmd ≠ .cancel) {payload : Bytes}
    (hlen : payload.length ≤ maxPayloadLen) (s : CtaphidAssembler) :
    feed s (CtaphidPacket.toBytes (.init cid cmd (UInt16.ofNat payload.length)
        (payload.take initPayloadSize)) :: contPackets cid 0 (payload.drop initPayloadSize)) =
      delivery (contPackets cid 0 (payload.drop initPayloadSize)).length ⟨cid, cmd, payload⟩ := by
  have htotal : (UInt16.ofNat payload.length).toNat = payload.length := by
    rw [UInt16.toNat_ofNat']
    exact Nat.mod_eq_of_lt (by unfold maxPayloadLen at hlen; omega)
  have hdata : (payload.take initPayloadSize).length =
      min (UInt16.ofNat payload.length).toNat initPayloadSize := by
    rw [htotal, List.length_take, Nat.min_comm]
  have hrun := run_processPacket (CtaphidPacket.fromBytes_toBytes_init cid hcmd hdata) s
  simp only [processInit, htotal] at hrun
  rw [if_neg (Nat.not_lt.mpr hlen), if_neg hcancel] at hrun
  by_cases hone : payload.length ≤ initPayloadSize
  · -- one packet
    rw [if_pos hone, List.take_of_length_le hone, Nat.min_self, List.take_length] at hrun
    rw [List.drop_eq_nil_of_le hone, contPackets_nil, List.take_of_length_le hone]
    simp only [feed, hrun]
    rfl
  · -- the message in progress is replaced by this one
    rw [if_neg hone] at hrun
    have hinit : (payload.take initPayloadSize).length = initPayloadSize := by
      rw [List.length_take]
      omega
    have hdrop : (payload.drop initPayloadSize).length = payload.length - initPayloadSize :=
      List.length_drop
    have hrest := feed_contPackets (payload.drop initPayloadSize)
      ⟨cid, cmd, payload.length, payload.take initPayloadSize, 0⟩
      (by rw [hdrop]; omega) (by show _ = payload.length; rw [hinit, hdrop]; omega)
      (by rw [hdrop]; unfold maxPayloadLen at hlen; simp [initPayloadSize, contPayloadSize]; omega)
    have hsome : 0 < (contPackets cid 0 (payload.drop initPayloadSize)).length := by
      rw [contPackets_cons _ _ (by rw [hdrop]; omega)]
      exact Nat.succ_pos _
    simp only [feed, hrun]
    show .ok none :: feed ⟨some ⟨cid, cmd, payload.length, payload.take initPayloadSize, 0⟩⟩ _ = _
    rw [hrest, List.take_append_drop]
    obtain ⟨n, hn⟩ := Nat.exists_eq_add_of_lt hsome
    rw [hn]
    simp [delivery, List.replicate_succ]

/-- Fragmenting and assembling gives the message back, at the last packet and not before, whatever
the assembler was doing; a payload that is too long is not fragmented. -/
theorem assemble_fragment (cid : UInt32) (cmd : CtaphidCommand)
    (hcmd : CtaphidCommand.fromRawCmd cmd.rawCode = cmd) (hcancel : cmd ≠ .cancel) (payload : Bytes)
    (s : CtaphidAssembler) :
    (payload.length ≤ 7609 → ∃ first rest, fragment cid cmd payload = .ok (first :: rest) ∧
      feed s (first :: rest) =
        List.replicate rest.length (.ok none) ++ [.ok (some ⟨cid, cmd, payload⟩)]) ∧
    (7609 < payload.length →
      fragment cid cmd payload = .error (.payloadTooLarge payload.length)) :=
  ⟨fun h => ⟨_, _, fragment_ok cid cmd h, feed_fragment cid hcmd hcancel h s⟩,
    fragment_too_large cid cmd⟩

theorem assemble_fragment_ping : ∃ first rest,
    fragment 7 .ping (List.replicate 200 1) = .ok (first :: rest) ∧
      feed ⟨some ⟨7, .cbor, 100, [1], 3⟩⟩ (first :: rest) =
        List.replicate rest.length (.ok none) ++ [.ok (some ⟨7, .ping, List.replicate 200 1⟩)] :=
  (assemble_fragment 7 .ping (by decide) (by decide) (List.replicate 200 1) _).1
    (by rw [List.length_replicate]; decide)

end CtaphidAssembler

end OpenKey.Ctaphid
