import Mathlib.Data.List.Induction
import OpenKey.Transport.CtaphidRoundTrip

/-!
# The assembler on any stream of packets

What the assembler holds after a stream is described by the stream alone: the last INIT packet and
the CONT packets of its channel after it, numbered from zero. Every message it delivers is cut
from these.

Packets of another channel leave the message in progress alone if they are CONT packets. An INIT
packet of any channel ends it, since there is one place for a message in progress.
-/

namespace OpenKey.Ctaphid

set_option autoImplicit false

/-! ## Packets as they are read -/

/-- The channel of a packet. -/
def RawPacket.channel (raw : RawPacket) : UInt32 := UInt32.ofNat (Bytes.beNat (raw.slice 0 4))

/-- A CONT packet: the top bit of the fifth byte is clear. -/
def RawPacket.isCont (raw : RawPacket) : Bool := raw.byte 4 &&& 0x80 = 0

/-- The number and the data of a CONT packet on a channel. -/
def RawPacket.contOn (cid : UInt32) (raw : RawPacket) : Option (UInt8 × Bytes) :=
  if raw.isCont ∧ raw.channel = cid then
    some (raw.byte 4 &&& 0x7F, raw.slice 5 (packetSize - 5))
  else none

/-- The command of an INIT packet. -/
def RawPacket.command (raw : RawPacket) : CtaphidCommand := .fromRawCmd (raw.byte 4)

/-- `BCNT`: the length that an INIT packet declares. -/
def RawPacket.bcnt (raw : RawPacket) : UInt16 := UInt16.ofNat (Bytes.beNat (raw.slice 5 2))

/-- The data of an INIT packet. -/
def RawPacket.initData (raw : RawPacket) : Bytes :=
  raw.slice 7 (min raw.bcnt.toNat initPayloadSize)

namespace RawPacket

theorem fromBytes_cont {raw : RawPacket} (h : raw.isCont = true) :
    CtaphidPacket.fromBytes raw =
      .ok (.cont raw.channel (raw.byte 4 &&& 0x7F) (raw.slice 5 (packetSize - 5))) := by
  have hbit : ¬raw.byte 4 &&& 0x80 ≠ 0 := fun hne => hne (of_decide_eq_true h)
  rw [CtaphidPacket.fromBytes]
  simp only [if_neg hbit]
  rfl

theorem fromBytes_init {raw : RawPacket} (h : raw.isCont = false) :
    CtaphidPacket.fromBytes raw =
      .ok (.init raw.channel raw.command raw.bcnt raw.initData) := by
  have hbit : raw.byte 4 &&& 0x80 ≠ 0 := of_decide_eq_false h
  rw [CtaphidPacket.fromBytes]
  simp only [if_pos hbit]
  rfl

theorem length_slice {raw : RawPacket} {start len : Nat} (h : start + len ≤ packetSize) :
    (raw.slice start len).length = len := by
  rw [slice, List.length_take, List.length_drop, raw.length_bytes]
  omega

/-- The slice of an INIT packet is in range. -/
theorem initData_in_range (raw : RawPacket) :
    7 + min raw.bcnt.toNat initPayloadSize ≤ packetSize := by
  unfold initPayloadSize packetSize
  omega

theorem length_initData (raw : RawPacket) :
    raw.initData.length = min raw.bcnt.toNat initPayloadSize :=
  length_slice raw.initData_in_range

theorem length_contOn {raw : RawPacket} {cid : UInt32} {seq : UInt8} {data : Bytes}
    (h : raw.contOn cid = some (seq, data)) : data.length = contPayloadSize := by
  rw [contOn] at h
  split at h
  · obtain ⟨-, rfl⟩ := Prod.mk.inj (Option.some.inj h)
    exact length_slice (by decide)
  · cases h

theorem contOn_of_ne {raw : RawPacket} {cid : UInt32} (h : raw.channel ≠ cid) :
    raw.contOn cid = none := if_neg fun hc => h hc.2

theorem contOn_of_cont {raw : RawPacket} (h : raw.isCont = true) :
    raw.contOn raw.channel = some (raw.byte 4 &&& 0x7F, raw.slice 5 (packetSize - 5)) :=
  if_pos ⟨h, rfl⟩

end RawPacket

namespace CtaphidAssembler

/-! ## One packet -/

theorem run_init {raw : RawPacket} (h : raw.isCont = false) (s : CtaphidAssembler) :
    (processPacket raw).run s = (processInit raw.channel raw.command raw.bcnt
      raw.initData).run s := run_processPacket (RawPacket.fromBytes_init h) s

theorem run_cont {raw : RawPacket} (h : raw.isCont = true) (s : CtaphidAssembler) :
    (processPacket raw).run s = (processCont raw.channel (raw.byte 4 &&& 0x7F)
      (raw.slice 5 (packetSize - 5))).run s := run_processPacket (RawPacket.fromBytes_cont h) s

/-- What an INIT packet leaves in progress. -/
theorem active_of_init {raw : RawPacket} (h : raw.isCont = false) {s : CtaphidAssembler}
    {state : AssemblyState} (hactive : ((processPacket raw).run s).2.activeState = some state) :
    state = ⟨raw.channel, raw.command, raw.bcnt.toNat, raw.initData, 0⟩ ∧
      initPayloadSize < raw.bcnt.toNat ∧ raw.bcnt.toNat ≤ maxPayloadLen := by
  rw [run_init h, processInit] at hactive
  split at hactive
  · cases hactive
  · next hmax =>
      split at hactive
      · cases hactive
      · split at hactive
        · cases hactive
        · next hlong =>
            obtain rfl := Option.some.inj hactive
            exact ⟨rfl, Nat.lt_of_not_le hlong, Nat.le_of_not_lt hmax⟩

/-- What an INIT packet delivers: a CANCEL, or a message that fits in it. -/
theorem delivered_of_init {raw : RawPacket} (h : raw.isCont = false) {s : CtaphidAssembler}
    {m : CtaphidMessage} (hm : ((processPacket raw).run s).1 = .ok (some m)) :
    m.cmd = .cancel ∨ (m = ⟨raw.channel, raw.command, raw.initData⟩ ∧
      raw.bcnt.toNat ≤ initPayloadSize) := by
  rw [run_init h, processInit] at hm
  split at hm
  · cases hm
  · split at hm
    · next hcancel =>
        obtain rfl := Option.some.inj (Except.ok.inj hm)
        exact .inl hcancel
    · split at hm
      · next hshort =>
          obtain rfl := Option.some.inj (Except.ok.inj hm)
          have hall : min raw.bcnt.toNat raw.initData.length =
              raw.initData.length := by
            rw [RawPacket.length_initData]
            omega
          rw [hall, List.take_length]
          exact .inr ⟨rfl, hshort⟩
      · cases hm

/-- The CONT packet that a message in progress waits for. -/
def Continues (s : CtaphidAssembler) (raw : RawPacket) (state : AssemblyState) : Prop :=
  s.activeState = some state ∧ raw.contOn state.cid = some (state.nextSeq, raw.slice 5 59)

/-- What is in progress after a CONT packet: the same on another channel, or the next part. -/
theorem active_of_cont {raw : RawPacket} (h : raw.isCont = true) {s : CtaphidAssembler}
    {state : AssemblyState} (hactive : ((processPacket raw).run s).2.activeState = some state) :
    (s.activeState = some state ∧ raw.channel ≠ state.cid) ∨
      ∃ old, Continues s raw old ∧ state = AssemblyState.extend old (raw.slice 5 59) ∧
        state.buffer.length < state.totalLen := by
  rw [run_cont h] at hactive
  obtain ⟨active⟩ := s
  cases active with
  | none => cases hactive
  | some old =>
      rw [processCont, Prog.run_read_bind] at hactive
      simp only at hactive
      by_cases hcid : old.cid ≠ raw.channel
      · rw [if_pos hcid] at hactive
        obtain rfl := Option.some.inj hactive
        exact .inl ⟨rfl, fun heq => hcid heq.symm⟩
      · rw [if_neg hcid] at hactive
        by_cases hseq : old.nextSeq ≠ raw.byte 4 &&& 0x7F
        · rw [if_pos hseq] at hactive
          cases hactive
        · rw [if_neg hseq] at hactive
          have hcont : raw.contOn old.cid = some (old.nextSeq, raw.slice 5 59) := by
            rw [not_not.mp hcid, not_not.mp hseq]
            exact RawPacket.contOn_of_cont h
          split at hactive
          · cases hactive
          · next hmore =>
              obtain rfl := Option.some.inj hactive
              exact .inr ⟨old, ⟨rfl, hcont⟩, rfl, Nat.lt_of_not_le hmore⟩

/-- A CONT packet delivers the message that it completes. -/
theorem delivered_of_cont {raw : RawPacket} (h : raw.isCont = true) {s : CtaphidAssembler}
    {m : CtaphidMessage} (hm : ((processPacket raw).run s).1 = .ok (some m)) :
    ∃ old, Continues s raw old ∧
      m = ⟨old.cid, old.cmd, (AssemblyState.extend old (raw.slice 5 59)).buffer⟩ ∧
      old.totalLen ≤ m.payload.length := by
  rw [run_cont h] at hm
  obtain ⟨active⟩ := s
  cases active with
  | none => cases hm
  | some old =>
      rw [processCont, Prog.run_read_bind] at hm
      simp only at hm
      by_cases hcid : old.cid ≠ raw.channel
      · rw [if_pos hcid] at hm
        cases hm
      · rw [if_neg hcid] at hm
        by_cases hseq : old.nextSeq ≠ raw.byte 4 &&& 0x7F
        · rw [if_pos hseq] at hm
          cases hm
        · rw [if_neg hseq] at hm
          have hcont : raw.contOn old.cid = some (old.nextSeq, raw.slice 5 59) := by
            rw [not_not.mp hcid, not_not.mp hseq]
            exact RawPacket.contOn_of_cont h
          split at hm
          · next hfull =>
              obtain rfl := Option.some.inj (Except.ok.inj hm)
              exact ⟨old, ⟨rfl, hcont⟩, rfl, hfull⟩
          · cases hm

/-! ## Streams -/

/-- The assembler after a stream of packets. -/
def after (s : CtaphidAssembler) (stream : List RawPacket) : CtaphidAssembler :=
  stream.foldl (fun s raw => ((processPacket raw).run s).2) s

theorem after_snoc (s : CtaphidAssembler) (stream : List RawPacket) (raw : RawPacket) :
    s.after (stream ++ [raw]) = ((processPacket raw).run (s.after stream)).2 := by
  rw [after, List.foldl_append]
  rfl

/-- `parts` are the CONT packets on the channel of `init`, the last INIT packet of the stream,
that came after it, numbered from zero. -/
structure Follows (stream : List RawPacket) (init : RawPacket) (parts : List (UInt8 × Bytes)) :
    Prop where
  isInit : init.isCont = false
  split : ∃ before later, stream = before ++ init :: later ∧
    (∀ raw ∈ later, raw.isCont = true) ∧ parts = later.filterMap (RawPacket.contOn init.channel)
  numbered : parts.map (fun part => part.1.toNat) = List.range parts.length

/-- The data of an INIT packet and of CONT packets. -/
def joined (init : RawPacket) (parts : List (UInt8 × Bytes)) : Bytes :=
  init.initData ++ parts.flatMap (·.2)

theorem joined_snoc (init : RawPacket) (parts : List (UInt8 × Bytes)) (part : UInt8 × Bytes) :
    joined init (parts ++ [part]) = joined init parts ++ part.2 := by
  simp [joined]

namespace Follows

theorem snoc_init {stream : List RawPacket} {raw : RawPacket} (h : raw.isCont = false) :
    Follows (stream ++ [raw]) raw [] :=
  ⟨h, ⟨stream, [], rfl, by simp, rfl⟩, rfl⟩

variable {stream : List RawPacket} {init raw : RawPacket} {parts : List (UInt8 × Bytes)}

/-- A CONT packet of another channel. -/
theorem snoc_foreign (hf : Follows stream init parts) (hcont : raw.isCont = true)
    (hne : raw.channel ≠ init.channel) : Follows (stream ++ [raw]) init parts := by
  obtain ⟨before, later, rfl, hlater, rfl⟩ := hf.split
  refine ⟨hf.isInit, ⟨before, later ++ [raw], by simp, ?_, ?_⟩, hf.numbered⟩
  · intro other hother
    obtain hother | hother := List.mem_append.mp hother
    · exact hlater other hother
    · rw [List.mem_singleton.mp hother]
      exact hcont
  · simp [List.filterMap_append, RawPacket.contOn_of_ne hne]

/-- The next CONT packet of the channel. -/
theorem snoc_next (hf : Follows stream init parts) {seq : UInt8} {data : Bytes}
    (hcont : raw.contOn init.channel = some (seq, data)) (hseq : seq.toNat = parts.length) :
    Follows (stream ++ [raw]) init (parts ++ [(seq, data)]) := by
  have hisCont : raw.isCont = true := by
    rw [RawPacket.contOn] at hcont
    split at hcont
    · next h => exact h.1
    · cases hcont
  obtain ⟨before, later, rfl, hlater, hparts⟩ := hf.split
  refine ⟨hf.isInit, ⟨before, later ++ [raw], by simp, ?_, ?_⟩, ?_⟩
  · intro other hother
    obtain hother | hother := List.mem_append.mp hother
    · exact hlater other hother
    · rw [List.mem_singleton.mp hother]
      exact hisCont
  · rw [List.filterMap_append, ← hparts]
    simp [hcont]
  · rw [List.map_append, hf.numbered, List.length_append, List.length_singleton,
      List.range_succ]
    simp [hseq]

end Follows

/-- What is in progress after a stream. -/
structure InProgress (stream : List RawPacket) (state : AssemblyState) (init : RawPacket)
    (parts : List (UInt8 × Bytes)) : Prop where
  follows : Follows stream init parts
  cid : state.cid = init.channel
  cmd : state.cmd = init.command
  totalLen : state.totalLen = init.bcnt.toNat
  long : initPayloadSize < state.totalLen
  bounded : state.totalLen ≤ maxPayloadLen
  buffer : state.buffer = joined init parts
  count : state.buffer.length = initPayloadSize + contPayloadSize * parts.length
  nextSeq : state.nextSeq.toNat = parts.length
  short : state.buffer.length < state.totalLen

/-- The data of the next packet, cut at the declared length. -/
theorem buffer_extend (state : AssemblyState) {data : Bytes} (hdata : data.length = contPayloadSize)
    (hlen : state.buffer.length ≤ state.totalLen) :
    (AssemblyState.extend state data).buffer = (state.buffer ++ data).take state.totalLen := by
  rw [AssemblyState.extend, List.take_append, List.take_of_length_le hlen, hdata, Nat.min_self]
  simp only
  congr 1
  rcases Nat.le_total (state.totalLen - state.buffer.length) contPayloadSize with h | h
  · rw [Nat.min_eq_left h]
  · rw [Nat.min_eq_right h, List.take_of_length_le hdata.le, List.take_of_length_le (hdata ▸ h)]

theorem inProgress_after (stream : List RawPacket) {state : AssemblyState}
    (hactive : ((⟨none⟩ : CtaphidAssembler).after stream).activeState = some state) :
    ∃ init parts, InProgress stream state init parts := by
  -- on the stream from its end, by the kind of the last packet
  induction stream using List.reverseRecOn generalizing state with
  | nil => cases hactive
  | append_singleton stream raw ih =>
      rw [after_snoc] at hactive
      by_cases hcont : raw.isCont = true
      · obtain ⟨hsame, hne⟩ | ⟨old, ⟨hold, hpart⟩, rfl, hless⟩ := active_of_cont hcont hactive
        · obtain ⟨init, parts, h⟩ := ih hsame
          exact ⟨init, parts, { h with follows := h.follows.snoc_foreign hcont (h.cid ▸ hne) }⟩
        · obtain ⟨init, parts, h⟩ := ih hold
          have hdata := RawPacket.length_contOn hpart
          have hbuffer := buffer_extend old hdata h.short.le
          have hlen : ((old.buffer ++ raw.slice 5 59).take old.totalLen).length < old.totalLen := by
            rw [← hbuffer]
            exact hless
          have hwhole : (old.buffer ++ raw.slice 5 59).take old.totalLen =
              old.buffer ++ raw.slice 5 59 := by
            rw [List.length_take] at hlen
            exact List.take_of_length_le (by omega)
          rw [hwhole] at hbuffer
          have hcount : (AssemblyState.extend old (raw.slice 5 59)).buffer.length =
              initPayloadSize + contPayloadSize * (parts.length + 1) := by
            rw [hbuffer, List.length_append, h.count, hdata]
            ring
          have hfew : parts.length < 127 := by
            have hbounded := h.bounded
            have hless' : (AssemblyState.extend old (raw.slice 5 59)).buffer.length <
              old.totalLen := hless
            rw [hcount] at hless'
            unfold initPayloadSize contPayloadSize maxPayloadLen at *
            omega
          refine ⟨init, parts ++ [(old.nextSeq, raw.slice 5 59)], ?_⟩
          exact {
            follows := h.follows.snoc_next (h.cid ▸ hpart) h.nextSeq
            cid := h.cid
            cmd := h.cmd
            totalLen := h.totalLen
            long := h.long
            bounded := h.bounded
            buffer := by rw [hbuffer, joined_snoc, h.buffer]
            count := by rw [hcount, List.length_append, List.length_singleton]
            nextSeq := by
              show (old.nextSeq + 1).toNat = _
              rw [UInt8.toNat_add, h.nextSeq, List.length_append, List.length_singleton]
              exact Nat.mod_eq_of_lt (by simp; omega)
            short := hless }
      · obtain ⟨rfl, hlong, hmax⟩ := active_of_init (Bool.not_eq_true _ ▸ hcont) hactive
        have hdata : raw.initData.length = initPayloadSize := by
          rw [RawPacket.length_initData]
          omega
        refine ⟨raw, [], ?_⟩
        exact {
          follows := Follows.snoc_init (Bool.not_eq_true _ ▸ hcont)
          cid := rfl
          cmd := rfl
          totalLen := rfl
          long := hlong
          bounded := hmax
          buffer := by simp [joined]
          count := by simp [hdata]
          nextSeq := rfl
          short := hdata ▸ hlong }

/-! ## Soundness -/

/-- The subtraction and the slices that a packet causes are in range. -/
structure InRange (s : CtaphidAssembler) (raw : RawPacket) : Prop where
  /-- `raw[7..7 + init_data_len]`. -/
  parse : 7 + min raw.bcnt.toNat initPayloadSize ≤ packetSize
  /-- `data[..actual_len]`. -/
  single : min raw.bcnt.toNat raw.initData.length ≤ raw.initData.length
  /-- `total_len - buffer.len()`. -/
  remaining : ∀ state, s.activeState = some state → state.buffer.length ≤ state.totalLen
  /-- `data[..chunk_len]`. -/
  chunk : ∀ state, s.activeState = some state →
    min (state.totalLen - state.buffer.length) (min (raw.slice 5 59).length contPayloadSize) ≤
      (raw.slice 5 59).length

theorem inRange_after (stream : List RawPacket) (raw : RawPacket) :
    InRange ((⟨none⟩ : CtaphidAssembler).after stream) raw where
  parse := raw.initData_in_range
  single := Nat.min_le_right _ _
  remaining state hactive := by
    obtain ⟨init, parts, h⟩ := inProgress_after stream hactive
    exact h.short.le
  chunk state _ := (Nat.min_le_right _ _).trans (Nat.min_le_left _ _)

/-- A message that a CONT packet completes. -/
theorem sound_of_cont {stream : List RawPacket} {raw : RawPacket} (hcont : raw.isCont = true)
    {m : CtaphidMessage}
    (hm : ((processPacket raw).run ((⟨none⟩ : CtaphidAssembler).after stream)).1 = .ok (some m)) :
    ∃ init parts, Follows (stream ++ [raw]) init parts ∧ m.cid = init.channel ∧
      m.cmd = init.command ∧ m.payload = (joined init parts).take init.bcnt.toNat ∧
      m.payload.length = init.bcnt.toNat ∧ init.bcnt.toNat ≤ maxPayloadLen := by
  obtain ⟨old, ⟨hold, hpart⟩, rfl, hfull⟩ := delivered_of_cont hcont hm
  obtain ⟨init, parts, h⟩ := inProgress_after stream hold
  have hbuffer := buffer_extend old (RawPacket.length_contOn hpart) h.short.le
  rw [h.buffer, h.totalLen] at hbuffer
  refine ⟨init, parts ++ [(old.nextSeq, raw.slice 5 59)],
    h.follows.snoc_next (h.cid ▸ hpart) h.nextSeq, h.cid, h.cmd, ?_, ?_, h.totalLen ▸ h.bounded⟩
  · rw [joined_snoc]
    exact hbuffer
  · apply Nat.le_antisymm
    · show (AssemblyState.extend old (raw.slice 5 59)).buffer.length ≤ _
      rw [hbuffer]
      exact List.length_take_le _ _
    · exact h.totalLen ▸ hfull

/-- **Soundness.** After any stream, the next packet causes no access out of range. A message
that it delivers, other than a CANCEL, is cut at the declared length from the data of the last
INIT packet and of the CONT packets of its channel that came after it, numbered from zero. -/
theorem assembler_sound (stream : List RawPacket) (raw : RawPacket) :
    InRange ((⟨none⟩ : CtaphidAssembler).after stream) raw ∧
      ∀ m, ((processPacket raw).run ((⟨none⟩ : CtaphidAssembler).after stream)).1 = .ok (some m) →
        m.cmd ≠ .cancel → ∃ init parts, Follows (stream ++ [raw]) init parts ∧
          m.cid = init.channel ∧ m.cmd = init.command ∧
          m.payload = (joined init parts).take init.bcnt.toNat ∧
          m.payload.length = init.bcnt.toNat ∧ init.bcnt.toNat ≤ 7609 := by
  refine ⟨inRange_after stream raw, fun m hm hcancel => ?_⟩
  by_cases hcont : raw.isCont = true
  · exact sound_of_cont hcont hm
  · have hinit : raw.isCont = false := Bool.not_eq_true _ ▸ hcont
    obtain hcmd | ⟨rfl, hshort⟩ := delivered_of_init hinit hm
    · exact absurd hcmd hcancel
    · have hlen : raw.initData.length = raw.bcnt.toNat := by
        rw [RawPacket.length_initData]
        exact Nat.min_eq_left hshort
      refine ⟨raw, [], Follows.snoc_init hinit, rfl, rfl, ?_, hlen, hshort.trans (by decide)⟩
      rw [joined, List.flatMap_nil, List.append_nil, List.take_of_length_le hlen.le]

/-- 130 different bytes. -/
def samplePayload : Bytes := (List.range 130).map UInt8.ofNat

/-- The first packets of a message with that payload, with a packet of another channel. -/
def samplePackets : List RawPacket :=
  [CtaphidPacket.toBytes (.init 7 .ping 130 (samplePayload.take 57)),
    CtaphidPacket.toBytes (.cont 7 0 ((samplePayload.drop 57).take 59)),
    CtaphidPacket.toBytes (.cont 9 1 [1, 2, 3])]

/-- The packet that completes it. -/
def samplePacket : RawPacket := CtaphidPacket.toBytes (.cont 7 1 (samplePayload.drop 116))

theorem assembler_sound_long :
    ∃ init parts, Follows (samplePackets ++ [samplePacket]) init parts ∧
      7 = init.channel ∧ .ping = init.command ∧
      samplePayload = (joined init parts).take init.bcnt.toNat ∧ 130 = init.bcnt.toNat ∧
      init.bcnt.toNat ≤ 7609 :=
  (assembler_sound samplePackets samplePacket).2 ⟨7, .ping, samplePayload⟩
    (by decide +kernel) (by decide)

/-! ## Packets of other channels -/

/-- The messages among the answers to packets. -/
def messages (answers : List (Except (UInt32 × CtaphidErrorCode) (Option CtaphidMessage))) :
    List CtaphidMessage :=
  answers.filterMap fun answer => answer.toOption.join

/-- A CONT packet of another channel is refused and changes nothing. -/
theorem run_foreign_cont {raw : RawPacket} (hcont : raw.isCont = true) {s : CtaphidAssembler}
    (hforeign : ∀ state ∈ s.activeState, raw.channel ≠ state.cid) :
    ∃ code, (processPacket raw).run s = (.error (raw.channel, code), s) := by
  rw [run_cont hcont]
  obtain ⟨active⟩ := s
  cases active with
  | none => exact ⟨.invalidSeq, rfl⟩
  | some state =>
      have hne : state.cid ≠ raw.channel := fun heq => hforeign state rfl heq.symm
      refine ⟨.invalidChannel, ?_⟩
      rw [processCont, Prog.run_read_bind]
      simp only [if_pos hne]
      rfl

/-- Packets of one channel leave nothing of another channel in progress. -/
theorem active_channel {raw : RawPacket} {s : CtaphidAssembler} {state : AssemblyState}
    (hactive : ((processPacket raw).run s).2.activeState = some state) :
    state.cid = raw.channel ∨ s.activeState = some state := by
  by_cases hcont : raw.isCont = true
  · obtain ⟨hsame, -⟩ | ⟨old, ⟨hold, hpart⟩, rfl, -⟩ := active_of_cont hcont hactive
    · exact .inr hsame
    · rw [RawPacket.contOn] at hpart
      split at hpart
      · next h => exact .inl h.2.symm
      · cases hpart
  · obtain ⟨rfl, -⟩ := active_of_init (Bool.not_eq_true _ ▸ hcont) hactive
    exact .inl rfl

/-- CONT packets of other channels in between do not change what a channel is delivered. -/
theorem messages_interleaved (cid : UInt32) (stream : List RawPacket) (s : CtaphidAssembler)
    (hactive : ∀ state ∈ s.activeState, state.cid = cid)
    (hforeign : ∀ raw ∈ stream, raw.channel ≠ cid → raw.isCont = true) :
    messages (feed s stream) =
      messages (feed s (stream.filter fun raw => raw.channel = cid)) := by
  induction stream generalizing s with
  | nil => rfl
  | cons raw stream ih =>
      have hrest : ∀ other ∈ stream, other.channel ≠ cid → other.isCont = true :=
        fun other hother => hforeign other (List.mem_cons_of_mem raw hother)
      by_cases hcid : raw.channel = cid
      · rw [List.filter_cons_of_pos (by simpa using hcid)]
        have hnext : ∀ state ∈ ((processPacket raw).run s).2.activeState, state.cid = cid := by
          intro state hstate
          obtain hnew | hold := active_channel hstate
          · exact hnew.trans hcid
          · exact hactive state hold
        have hih := ih ((processPacket raw).run s).2 hnext hrest
        simp only [feed, messages, List.filterMap_cons] at hih ⊢
        rw [hih]
      · rw [List.filter_cons_of_neg (by simpa using hcid)]
        obtain ⟨code, hrun⟩ := run_foreign_cont (hforeign raw List.mem_cons_self hcid)
          (s := s) fun state hstate heq => hcid (heq.trans (hactive state hstate))
        rw [← ih s hactive hrest]
        simp only [feed, hrun, messages, List.filterMap_cons]
        rfl

/-- **Isolation of channels.** With a message in progress, a packet of another channel leaves it
as it is exactly if it is a CONT packet. Where all packets of other channels are CONT packets, the
channel is delivered what it would be without them. -/
theorem foreign_packets (state : AssemblyState) :
    (∀ raw : RawPacket, raw.channel ≠ state.cid →
      (((processPacket raw).run ⟨some state⟩).2.activeState = some state ↔ raw.isCont = true)) ∧
    ∀ stream : List RawPacket,
      (∀ raw ∈ stream, raw.channel ≠ state.cid → raw.isCont = true) →
      messages (feed ⟨some state⟩ stream) =
        messages (feed ⟨some state⟩ (stream.filter fun raw => raw.channel = state.cid)) := by
  refine ⟨fun raw hne => ⟨fun hsame => ?_, fun hcont => ?_⟩, fun stream hforeign => ?_⟩
  · by_contra hcont
    obtain ⟨hstate, -⟩ := active_of_init (Bool.not_eq_true _ ▸ hcont) hsame
    exact hne (congrArg AssemblyState.cid hstate).symm
  · obtain ⟨code, hrun⟩ := run_foreign_cont hcont (s := ⟨some state⟩)
      fun other hother => by
        obtain rfl := Option.some.inj hother
        exact hne
    rw [hrun]
  · exact messages_interleaved state.cid stream ⟨some state⟩
      (fun other hother => by obtain rfl := Option.some.inj hother; rfl) hforeign

/-- A message of 60 bytes on channel 7. -/
def sampleFirst : RawPacket := CtaphidPacket.toBytes (.init 7 .cbor 60 (List.replicate 57 1))

/-- Its second packet. -/
def sampleSecond : RawPacket := CtaphidPacket.toBytes (.cont 7 0 [2, 2, 2])

theorem foreign_packets_cont :
    messages (feed ⟨some ⟨7, .cbor, 60, List.replicate 57 1, 0⟩⟩
        [CtaphidPacket.toBytes (.cont 8 0 [9]), sampleSecond]) =
      messages (feed ⟨some ⟨7, .cbor, 60, List.replicate 57 1, 0⟩⟩ [sampleSecond]) := by
  refine ((foreign_packets ⟨7, .cbor, 60, List.replicate 57 1, 0⟩).2
    [CtaphidPacket.toBytes (.cont 8 0 [9]), sampleSecond] (by decide)).trans ?_
  rfl

/-- An INIT packet of channel 8, in between, and the message of channel 7 is lost. -/
theorem foreign_init_drops_message :
    messages (feed ⟨none⟩ [sampleFirst, sampleSecond]) =
        [⟨7, .cbor, List.replicate 57 1 ++ [2, 2, 2]⟩] ∧
      messages (feed ⟨none⟩ [sampleFirst, CtaphidPacket.toBytes (.init 8 .ping 0 []),
        sampleSecond]) = [⟨8, .ping, []⟩] := by
  decide +kernel

end CtaphidAssembler

end OpenKey.Ctaphid
