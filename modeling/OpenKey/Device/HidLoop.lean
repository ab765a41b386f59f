import OpenKey.Ctap2.Sample
import OpenKey.Transport.Ctaphid
import OpenKey.Transport.Iso7816

/-!
# The CTAPHID loop of the firmware

`dispatch` and the HID half of the loop of `targets/rp2350/src/main.rs`, with the `ChannelManager`
of `crates/openkey-transport/src/ctaphid/channel.rs`. Packets go to the assembler, a message it
delivers is dispatched by its command, and a CBOR message reaches the authenticator.

The dispatch never asks `is_valid_cid`: the channel of a message makes no difference to it.
-/

namespace OpenKey

open Ctaphid

set_option autoImplicit false

/-! ## Channels -/

/-- `CTAPHID_INVALID_CID`. -/
def invalidCid : UInt32 := 0x00000000

/-- `CTAPHID_BROADCAST_CID`. -/
def broadcastCid : UInt32 := 0xFFFFFFFF

/-- `ChannelManager`. -/
structure ChannelManager where
  nextCid : UInt32
  activeChannels : List UInt32

namespace ChannelManager

/-- `new`. -/
def new : ChannelManager := ⟨0x00010001, []⟩

/-- The loop of `allocate_cid`, `fuel` times at most. -/
def allocateLoop : Nat → Prog ChannelManager Fault UInt32
  | 0 => Prog.fail .hang
  | fuel + 1 => do
      let cid ← Prog.act fun m => (m.nextCid, { m with nextCid := m.nextCid + 1 })
      let taken ← Prog.read fun m =>
        decide (cid = invalidCid ∨ cid = broadcastCid ∨ cid ∈ m.activeChannels)
      if taken then allocateLoop fuel
      else do
        Prog.update fun m => { m with activeChannels := m.activeChannels ++ [cid] }
        pure cid

/-- `allocate_cid`. After one round over all numbers no further one finds a free one. -/
def allocateCid : Prog ChannelManager Fault UInt32 := allocateLoop (2 ^ 32)

/-- `build_init_response`, of version 0.1.0 with CBOR, WINK and NMSG. -/
def buildInitResponse (nonce : Bytes) : Prog ChannelManager Fault Bytes := do
  let cid ← allocateCid
  pure (nonce.take 8 ++ List.replicate (8 - nonce.length) 0 ++ Bytes.beBytes 4 cid.toNat ++
    [2, 0, 1, 0, 0x0D])

end ChannelManager

/-! ## The loop -/

/-- `CtaphidErrorCode::as_u8`. -/
def Ctaphid.CtaphidErrorCode.asU8 : CtaphidErrorCode → UInt8
  | .invalidCmd => 0x01
  | .invalidPar => 0x02
  | .invalidLen => 0x03
  | .invalidSeq => 0x04
  | .msgTimeout => 0x05
  | .channelBusy => 0x06
  | .lockRequired => 0x0A
  | .invalidChannel => 0x0B
  | .other => 0x7F

/-- `Ctap2Error::as_u8`. -/
def Ctap2Error.asU8 : Ctap2Error → UInt8
  | .invalidCommand => 0x01
  | .invalidParameter => 0x02
  | .missingParameter => 0x14
  | .invalidCbor => 0x12
  | .invalidState => 0x30
  | .credentialExists => 0x19
  | .unsupportedAlgorithm => 0x26
  | .unsupportedOption => 0x2B
  | .operationDenied => 0x27
  | .noCredentials => 0x2E
  | .pinInvalid => 0x31
  | .pinBlocked => 0x32
  | .pinAuthInvalid => 0x33
  | .pinAuthBlocked => 0x34
  | .pinNotSet => 0x35
  | .pinRequired => 0x36
  | .pinPolicyViolation => 0x37
  | .unauthorizedPermission => 0x40
  | .uvBlocked => 0x3C
  | .largeBlobStorageFull => 0x18
  | .unknown => 0x7F

/-- The state of the loop. -/
structure HidLoop (β : Type) where
  channels : ChannelManager
  assembler : CtaphidAssembler
  auth : Auth β

namespace HidLoop

variable {β : Type} [StorageBackend β] (build : Build)
  (encode : CtapResponse → Except Ctap2Error Bytes)

/-- The loop as it starts. -/
def start (auth : Auth β) : HidLoop β := ⟨.new, ⟨none⟩, auth⟩

/-- `process_command`, with the response in CBOR. -/
def processCommand (cmd : UInt8) (data : Bytes) : Ctap β Bytes := do
  let response ← Auth.processCommand build cmd data
  Prog.check fun _ => encode response

/-- The CBOR branch of `dispatch`. -/
def dispatchCbor (payload : Bytes) : Prog (HidLoop β) Fault Bytes :=
  match payload with
  | [] => pure [0x03]
  | cmd :: data =>
      .mk fun f =>
        let out := (processCommand build encode cmd data).run f.auth
        (.ok (match out.1 with
          | .ok bytes => 0 :: bytes
          | .error error => [error.asU8]),
        { f with auth := out.2 })

/-- `dispatch`: the channel, the command and the payload of the answer. -/
def dispatch (m : CtaphidMessage) : Prog (HidLoop β) Fault CtaphidMessage :=
  match m.cmd with
  | .init => do
      let payload ← Prog.zoom HidLoop.channels (fun channels f => { f with channels := channels })
        (ChannelManager.buildInitResponse m.payload)
      pure ⟨m.cid, .init, payload⟩
  | .ping => pure ⟨m.cid, .ping, m.payload⟩
  | .wink => pure ⟨m.cid, .wink, []⟩
  | .lock => pure ⟨m.cid, .lock, []⟩
  | .cancel => pure ⟨m.cid, .cancel, []⟩
  | .keepalive => pure ⟨m.cid, .keepalive, m.payload⟩
  | .error => pure ⟨m.cid, .error, m.payload⟩
  | .cbor => do
      let payload ← dispatchCbor build encode m.payload
      pure ⟨m.cid, .cbor, payload⟩
  | .msg => pure ⟨m.cid, .error, [CtaphidErrorCode.invalidCmd.asU8]⟩
  | .vendor _ => pure ⟨m.cid, .error, [CtaphidErrorCode.invalidCmd.asU8]⟩

/-- A message and its answer, with the authenticator around them. -/
structure Handled (β : Type) where
  message : CtaphidMessage
  answer : CtaphidMessage
  before : Auth β
  after : Auth β

/-- The messages handled while packets come in. The loop ends where a call does not return. -/
def trace (f : HidLoop β) : List RawPacket → List (Handled β)
  | [] => []
  | raw :: rest =>
      match (CtaphidAssembler.processPacket raw).run f.assembler with
      | (.ok (some m), assembler) =>
          match (dispatch build encode m).run { f with assembler := assembler } with
          | (.ok answer, next) => ⟨m, answer, f.auth, next.auth⟩ :: trace next rest
          | (.error _, _) => []
      | (_, assembler) => trace { f with assembler := assembler } rest

/-! ## Channel discipline -/

/-- The channels that answers to INIT messages have handed out. -/
def granted (handled : List (Handled β)) : List UInt32 :=
  handled.filterMap fun x =>
    if x.message.cmd = .init then
      some (UInt32.ofNat (Bytes.beNat ((x.answer.payload.drop 8).take 4)))
    else none

/-- A channel that a message may use after `earlier` messages. -/
def Allocated (earlier : List (Handled β)) (cid : UInt32) : Prop :=
  cid ∈ granted earlier ∧ cid ≠ invalidCid ∧ cid ≠ broadcastCid

/-- The message is one for which `dispatch` calls `process_command`. -/
def Reaches (m : CtaphidMessage) : Prop := m.cmd = .cbor ∧ m.payload ≠ []

/-- The answer to a message on a channel that is not allocated. -/
def Refused (x : Handled β) : Prop :=
  x.answer = ⟨x.message.cid, .error, [CtaphidErrorCode.invalidChannel.asU8]⟩ ∧ x.after = x.before

/-- The discipline for one message. -/
def Disciplined (earlier : List (Handled β)) (x : Handled β) : Prop :=
  (Reaches x.message → Allocated earlier x.message.cid) ∧
    (x.message.cmd ≠ .init → ¬Allocated earlier x.message.cid → Refused x)

/-- The only message on a channel that is not allocated whose echo is the refusal. -/
def EchoesRefusal (m : CtaphidMessage) : Prop :=
  m.cmd = .error ∧ m.payload = [CtaphidErrorCode.invalidChannel.asU8]

variable {build encode}

/-- A handled message was given to `dispatch`, and this is its answer. -/
theorem dispatched_of_mem {f : HidLoop β} {stream : List RawPacket} {x : Handled β}
    (hx : x ∈ trace build encode f stream) :
    ∃ g next : HidLoop β, g.auth = x.before ∧
      (dispatch build encode x.message).run g = (.ok x.answer, next) ∧ next.auth = x.after := by
  induction stream generalizing f with
  | nil => cases hx
  | cons raw rest ih =>
      rw [trace] at hx
      split at hx
      · next m assembler hpacket =>
          split at hx
          · next answer next hdispatch =>
              obtain rfl | hx := List.mem_cons.mp hx
              · exact ⟨{ f with assembler := assembler }, next, rfl, hdispatch, rfl⟩
              · exact ih hx
          · cases hx
      · exact ih hx

/-- What `dispatch` answers to a message other than INIT does not depend on the channel; it is the
refusal only where it echoes one. -/
theorem refused_iff {g next : HidLoop β} {x : Handled β} (hcmd : x.message.cmd ≠ .init)
    (hbefore : g.auth = x.before) (hafter : next.auth = x.after)
    (hrun : (dispatch build encode x.message).run g = (.ok x.answer, next)) :
    Refused x ↔ EchoesRefusal x.message := by
  obtain ⟨⟨cid, cmd, payload⟩, answer, before, after⟩ := x
  dsimp only at hcmd hbefore hafter hrun
  subst hbefore hafter
  cases cmd with
  | init => exact absurd rfl hcmd
  | cbor =>
      -- the answer is a CBOR message, whatever the authenticator says
      obtain ⟨bytes, mid, -, hpure⟩ := Prog.bind_eq_ok.mp hrun
      obtain ⟨hanswer, -⟩ := Prod.mk.inj hpure
      obtain rfl := Except.ok.inj hanswer
      simp [Refused, EchoesRefusal]
  | error =>
      obtain ⟨hanswer, rfl⟩ := Prod.mk.inj hrun
      obtain rfl := Except.ok.inj hanswer
      simp [Refused, EchoesRefusal]
  | _ =>
      obtain ⟨hanswer, rfl⟩ := Prod.mk.inj hrun
      obtain rfl := Except.ok.inj hanswer
      simp [Refused, EchoesRefusal, CtaphidErrorCode.asU8]

theorem not_reaches_of_echoesRefusal {m : CtaphidMessage} (h : EchoesRefusal m) : ¬Reaches m := by
  intro hreach
  rw [Reaches, h.1] at hreach
  cases hreach.1

variable (build encode)

/-- **Channel discipline.** A run keeps to it exactly if every message other than INIT comes on a
channel that an earlier INIT handed out, or is itself an error message that names an invalid
channel, which the loop echoes. -/
theorem channel_discipline_iff (auth : Auth β) (stream : List RawPacket) :
    (∀ earlier x later, trace build encode (start auth) stream = earlier ++ x :: later →
      Disciplined earlier x) ↔
    ∀ earlier x later, trace build encode (start auth) stream = earlier ++ x :: later →
      x.message.cmd ≠ .init →
        Allocated earlier x.message.cid ∨ EchoesRefusal x.message := by
  constructor
  · intro h earlier x later hsplit hcmd
    have hx : x ∈ trace build encode (start auth) stream := by
      rw [hsplit]
      simp
    obtain ⟨g, next, hbefore, hrun, hafter⟩ := dispatched_of_mem hx
    by_cases halloc : Allocated earlier x.message.cid
    · exact .inl halloc
    · have hrefused := (h earlier x later hsplit).2 hcmd halloc
      exact .inr ((refused_iff hcmd hbefore hafter hrun).mp hrefused)
  · intro h earlier x later hsplit
    have hx : x ∈ trace build encode (start auth) stream := by
      rw [hsplit]
      simp
    obtain ⟨g, next, hbefore, hrun, hafter⟩ := dispatched_of_mem hx
    refine ⟨fun hreach => ?_, fun hcmd halloc => ?_⟩
    · have hcmd : x.message.cmd ≠ .init := by
        rw [hreach.1]
        decide
      obtain halloc | hecho := h earlier x later hsplit hcmd
      · exact halloc
      · exact absurd hreach (not_reaches_of_echoesRefusal hecho)
    · obtain hyes | hecho := h earlier x later hsplit hcmd
      · exact absurd hyes halloc
      · exact (refused_iff hcmd hbefore hafter hrun).mpr hecho

/-- A Reset on channel 5, which no INIT has handed out, reaches the authenticator. -/
theorem unallocated_channel_reaches :
    ∃ x, trace sampleBuild (fun _ => .ok []) (start memoryDevice)
        [CtaphidPacket.toBytes (.init 5 .cbor 1 [0x07])] = [x] ∧
      Reaches x.message ∧ ¬Allocated ([] : List (Handled KvMap)) x.message.cid := by
  have hpacket : (CtaphidAssembler.processPacket
      (CtaphidPacket.toBytes (.init 5 .cbor 1 [0x07]))).run ⟨none⟩ =
        (.ok (some ⟨5, .cbor, [0x07]⟩), ⟨none⟩) := by rfl
  have hstart : (start memoryDevice).assembler = ⟨none⟩ := rfl
  have htrace : ∃ x, trace sampleBuild (fun _ => .ok []) (start memoryDevice)
      [CtaphidPacket.toBytes (.init 5 .cbor 1 [0x07])] = [x] ∧ x.message = ⟨5, .cbor, [0x07]⟩ := by
    rw [trace, hstart, hpacket]
    exact ⟨_, rfl, rfl⟩
  obtain ⟨x, hx, hmessage⟩ := htrace
  refine ⟨x, hx, ?_, fun halloc => nomatch halloc.1⟩
  rw [hmessage]
  exact ⟨rfl, by decide⟩

end HidLoop

end OpenKey
