import OpenKey.Device.Composite
import OpenKey.Transport.CtaphidRoundTrip

/-!
# Sessions over HID

A host that makes one request after the other, with the fragmenter and the assembler of
`crates/openkey-transport/src/ctaphid`, over the composite loop of the firmware. The host sends a
packet in some polls and none in others, the endpoint takes a packet or makes the loop try again,
and the card gets whatever it gets in the polls.

**Transparency (`session_transparent`).** After any number of turns, what the host has put together
are the answers that `dispatch` gives to its requests without any packets, up to the one it waits
for, and the authenticator is where they leave it. If the host's packets keep coming, all requests
are answered. Nothing of this depends on the card, as long as it does not panic.

The invariant is `InSession`: the host has sent a part of a request, and the device has put together
just that part. Between two turns no answer is on its way, since a turn ends with its answer sent.
-/

namespace OpenKey

open Ctaphid (RawPacket CtaphidAssembler CtaphidMessage CtaphidCommand)

set_option autoImplicit false

/-! ## The host -/

/-- A host with requests to make. -/
structure CtapHost where
  requests : List CtaphidMessage
  /-- The packets of the request being made that are still to be sent. -/
  outbox : List RawPacket
  awaiting : Bool
  assembler : CtaphidAssembler
  replies : List CtaphidMessage
  /-- For the polls to come: whether a packet is sent, and what the card gets. -/
  polls : Nat → Bool × List UsbEvent
  /-- For the writes to come: whether the packet is taken. -/
  writes : Nat → Bool

/-- A packet as a report. -/
def Ctaphid.RawPacket.report (raw : RawPacket) : Report := ⟨raw.bytes, raw.length_bytes.le⟩

namespace CtapHost

/-- The next request is made when none is waiting to be answered. -/
def next (h : CtapHost) : CtapHost :=
  match h.awaiting, h.requests with
  | false, request :: rest =>
      { h with requests := rest, outbox := request.packets, awaiting := true }
  | _, _ => h

/-- The polls after this one. -/
def later (h : CtapHost) : CtapHost := { h with polls := fun i => h.polls (i + 1) }

/-- What the host brings in a poll. -/
def poll (h : CtapHost) : BusPoll × CtapHost :=
  match (h.polls 0).1, h.next.outbox with
  | true, raw :: rest => (⟨some raw.report, (h.polls 0).2⟩, { h.next.later with outbox := rest })
  | _, _ => (⟨none, (h.polls 0).2⟩, h.next.later)

/-- A packet that is taken goes to the assembler of the host; a message answers the request. -/
def receive (raw : RawPacket) (h : CtapHost) : CtapHost :=
  match (CtaphidAssembler.processPacket raw).run h.assembler with
  | (.ok (some reply), assembler) =>
      { h with assembler := assembler, replies := h.replies ++ [reply], awaiting := false }
  | (_, assembler) => { h with assembler := assembler }

/-- A packet is offered to the host. -/
def write (raw : RawPacket) (h : CtapHost) : Bool × CtapHost :=
  let h' := { h with writes := fun i => h.writes (i + 1) }
  if h.writes 0 then (true, h'.receive raw) else (false, h')

/-- The bus with the host behind it. -/
def bus : Bus CtapHost := ⟨poll, write⟩

/-- In the tries for a packet one succeeds, whenever they begin. -/
def Takes (writes : Nat → Bool) : Prop := ∀ t, ∃ i < sendTries, writes (t + i) = true

/-- Packets keep coming. -/
def Sends (polls : Nat → Bool × List UsbEvent) : Prop := ∀ t, ∃ i, (polls (t + i)).1 = true

end CtapHost

/-! ## The session without packets -/

namespace HidLoop

variable {β : Type} [StorageBackend β] (build : Build)
  (encode : CtapResponse → Except Ctap2Error Bytes)

/-- Messages dispatched in turn, and their answers. -/
def exchanges : List CtaphidMessage → Prog (HidLoop β) Fault (List CtaphidMessage)
  | [] => pure []
  | m :: rest => do
      let answer ← dispatch build encode m
      let answers ← exchanges rest
      pure (answer :: answers)

end HidLoop

namespace CardSide

variable {γ : Type} (applets : List (CardApplet γ))

/-- The card goes through all turns to come without a panic. -/
def Serves (s : CardSide γ) (events : Nat → List UsbEvent) : Prop :=
  ∀ n, ((turns applets ((List.range n).map events)).run s).1 = .ok ()

variable {applets}

theorem Serves.step {s : CardSide γ} {events : Nat → List UsbEvent} (h : Serves applets s events) :
    ∃ s', (turn applets (events 0)).run s = (.ok (), s') ∧
      Serves applets s' fun i => events (i + 1) := by
  have hall : ∀ n, ((turns applets (events 0 :: (List.range n).map fun i => events (i + 1))).run
      s).1 = .ok () := by
    intro n
    have hrun := h (n + 1)
    rw [List.range_succ_eq_map, List.map_cons, List.map_map] at hrun
    exact hrun
  rcases hturn : (turn applets (events 0)).run s with ⟨result, s'⟩
  cases result with
  | error fault =>
      have hfirst := hall 0
      rw [turns, Prog.run_bind_of_error hturn] at hfirst
      cases hfirst
  | ok u =>
      refine ⟨s', rfl, fun n => ?_⟩
      have hrest := hall n
      rw [turns, Prog.run_bind_of_ok hturn] at hrest
      exact hrest

theorem serves_of_turn {s s' : CardSide γ} {events : Nat → List UsbEvent}
    (hturn : (turn applets (events 0)).run s = (.ok (), s'))
    (h : Serves applets s' fun i => events (i + 1)) : Serves applets s events := by
  intro n
  cases n with
  | zero => rfl
  | succ n =>
      rw [List.range_succ_eq_map, List.map_cons, List.map_map, turns, Prog.run_bind_of_ok hturn]
      exact h n

/-- Nothing has come for the card, and nothing is to be sent. -/
structure Idle (s : CardSide γ) : Prop where
  rxReady : s.ccid.rxReady = false
  txActive : s.ccid.txActive = false
  qLen : s.ccid.qLen = 0
  pending : s.ccid.pending = false

theorem run_turn_idle {s : CardSide γ} (h : Idle s) : (turn applets []).run s = (.ok (), s) := by
  have hflush : s.ccid.flushTx = .ok s.ccid := by
    unfold CcidClass.flushTx
    cases s.ccid.txLen - s.ccid.txSent + s.ccid.qLen with
    | zero => rfl
    | succ fuel =>
        unfold CcidClass.flushLoop
        rw [h.txActive, h.qLen]
        rfl
  have hprocess : s.ccid.process none = .ok s.ccid := by
    unfold CcidClass.process
    rw [h.rxReady]
    exact hflush
  have hpoll : (poll [] : Prog (CardSide γ) Fault Unit).run s = (.ok (), s) := by
    simp only [poll, onCcid, CcidClass.usbPoll, hprocess, bind, Except.bind, pure, Except.pure]
  rw [turn, Prog.run_bind_of_ok hpoll, serve, Prog.run_read_bind, h.pending]
  rfl

theorem serves_idle {s : CardSide γ} (h : Idle s) : Serves applets s fun _ => [] := by
  intro n
  induction n with
  | zero => rfl
  | succ n ih =>
      rw [List.range_succ_eq_map, List.map_cons, List.map_map, turns,
        Prog.run_bind_of_ok (run_turn_idle h)]
      exact ih

end CardSide

namespace Ctaphid

theorem RawPacket.packet_report (raw : RawPacket) : raw.report.packet = raw := by
  obtain ⟨bytes, hlen⟩ := raw
  have hfull : 64 ≤ bytes.length := by rw [hlen, packetSize]
  simp [Report.packet, RawPacket.report, RawPacket.overwrite, RawPacket.zero, hfull]

/-- A message that the packets carry. -/
structure CtaphidMessage.Carried (m : CtaphidMessage) : Prop where
  code : CtaphidCommand.fromRawCmd m.cmd.rawCode = m.cmd
  cancel : m.cmd ≠ .cancel
  length : m.payload.length ≤ 7609

namespace CtaphidAssembler

/-- The packets still to come complete the message, and only the last does. -/
def Completes (s : CtaphidAssembler) (packets : List RawPacket) (m : CtaphidMessage) : Prop :=
  packets ≠ [] ∧ feed s packets = delivery (packets.length - 1) m

theorem completes_packets {m : CtaphidMessage} (h : m.Carried) (s : CtaphidAssembler) :
    Completes s m.packets m := by
  obtain ⟨first, rest, hfragment, hfeed⟩ : ∃ first rest,
      fragment m.cid m.cmd m.payload = .ok (first :: rest) ∧
        feed s (first :: rest) = delivery rest.length m :=
    ⟨_, _, fragment_ok m.cid m.cmd h.length, feed_fragment m.cid h.code h.cancel h.length s⟩
  have hpackets : m.packets = first :: rest := by
    simp only [CtaphidMessage.packets, hfragment]
  rw [Completes, hpackets]
  exact ⟨List.cons_ne_nil _ _, hfeed⟩

theorem Completes.last {s : CtaphidAssembler} {raw : RawPacket} {m : CtaphidMessage}
    (h : Completes s [raw] m) : ((processPacket raw).run s).1 = .ok (some m) :=
  (List.cons.inj h.2).1

theorem Completes.more {s : CtaphidAssembler} {raw : RawPacket} {rest : List RawPacket}
    {m : CtaphidMessage} (h : Completes s (raw :: rest) m) (hrest : rest ≠ []) :
    ((processPacket raw).run s).1 = .ok none ∧
      Completes ((processPacket raw).run s).2 rest m := by
  obtain ⟨n, hn⟩ := Nat.exists_eq_succ_of_ne_zero (List.length_pos_of_ne_nil hrest).ne'
  have hfeed := h.2
  rw [List.length_cons, Nat.add_sub_cancel, hn, delivery, List.replicate_succ,
    List.cons_append] at hfeed
  obtain ⟨hfirst, htail⟩ := List.cons.inj hfeed
  refine ⟨hfirst, hrest, ?_⟩
  rw [hn, Nat.succ_sub_one]
  exact htail

end CtaphidAssembler

end Ctaphid

namespace HidLoop

variable {β : Type} [StorageBackend β] {build : Build}
  {encode : CtapResponse → Except Ctap2Error Bytes}

theorem exchanges_append {a b : List CtaphidMessage} {f g : HidLoop β}
    {answers : List CtaphidMessage} (ha : (exchanges build encode a).run f = (.ok answers, g)) :
    (exchanges build encode (a ++ b)).run f =
      (((exchanges build encode b).run g).1.map (answers ++ ·),
        ((exchanges build encode b).run g).2) := by
  induction a generalizing f answers with
  | nil =>
      obtain ⟨hnil, rfl⟩ := Prod.mk.inj ha
      obtain rfl := Except.ok.inj hnil
      rcases hb : (exchanges build encode b).run f with ⟨result, g⟩
      rw [List.nil_append, hb]
      cases result <;> rfl
  | cons m a ih =>
      obtain ⟨answer, f', hdispatch, hrest⟩ := Prog.bind_eq_ok.mp ha
      obtain ⟨tail, g', htail, hpure⟩ := Prog.bind_eq_ok.mp hrest
      obtain ⟨hcons, rfl⟩ := Prod.mk.inj hpure
      obtain rfl := Except.ok.inj hcons
      rw [List.cons_append, exchanges, Prog.run_bind_of_ok hdispatch, Prog.run_bind, ih htail]
      rcases hb : (exchanges build encode b).run g' with ⟨result, u⟩
      cases result <;> rfl

/-- Where a session is split, the rest starts where the first part ends. -/
theorem exchanges_split {a b : List CtaphidMessage} {f g u : HidLoop β}
    {answers all : List CtaphidMessage}
    (ha : (exchanges build encode a).run f = (.ok answers, g))
    (hall : (exchanges build encode (a ++ b)).run f = (.ok all, u)) :
    ∃ rest, (exchanges build encode b).run g = (.ok rest, u) ∧ all = answers ++ rest := by
  rw [exchanges_append ha] at hall
  obtain ⟨hmap, hstate⟩ := Prod.mk.inj hall
  obtain ⟨rest, hrest, rfl⟩ := Except.map_eq_ok.mp hmap
  exact ⟨rest, Prod.ext hrest hstate, rfl⟩

/-- The loop with nothing in its assembler. -/
def clear (f : HidLoop β) : HidLoop β := { f with assembler := ⟨none⟩ }

/-- `dispatch` does not look at the assembler. -/
theorem run_dispatch_with (m : CtaphidMessage) (f : HidLoop β) (s : CtaphidAssembler) :
    (dispatch build encode m).run { f with assembler := s } =
      (((dispatch build encode m).run f).1,
        { ((dispatch build encode m).run f).2 with assembler := s }) := by
  obtain ⟨cid, cmd, payload⟩ := m
  cases cmd with
  | init =>
      unfold dispatch
      rcases hinit : (ChannelManager.buildInitResponse payload).run f.channels with ⟨result, c⟩
      simp only [Prog.run_bind, Prog.run_zoom, hinit]
      cases result <;> rfl
  | cbor =>
      unfold dispatch dispatchCbor
      cases payload <;> rfl
  | _ => rfl

variable (build encode) in
theorem assembler_dispatch (m : CtaphidMessage) (f : HidLoop β) :
    ((dispatch build encode m).run f).2.assembler = f.assembler := by
  have hrun : (dispatch build encode m).run f = _ := run_dispatch_with m f f.assembler
  rw [hrun]

variable (build encode) in
/-- A packet that completes no message. -/
theorem respond_more {raw : RawPacket} {f : HidLoop β}
    (h : ((CtaphidAssembler.processPacket raw).run f.assembler).1 = .ok none) :
    (respond build encode raw).run f = (.ok [],
      { f with assembler := ((CtaphidAssembler.processPacket raw).run f.assembler).2 }) := by
  unfold respond
  rw [Prog.run_attempt_bind, Prog.run_zoom, h]
  rfl

/-- A packet that completes a message. -/
theorem respond_last {raw : RawPacket} {m answer : CtaphidMessage} {f g : HidLoop β}
    (h : ((CtaphidAssembler.processPacket raw).run f.assembler).1 = .ok (some m))
    (hdispatch : (dispatch build encode m).run
      { f with assembler := ((CtaphidAssembler.processPacket raw).run f.assembler).2 } =
        (.ok answer, g)) :
    (respond build encode raw).run f = (.ok answer.packets, g) := by
  unfold respond
  rw [Prog.run_attempt_bind, Prog.run_zoom, h]
  exact Prog.run_bind_of_ok hdispatch

/-- What is dispatched in a session is dispatched by the loop. -/
theorem dispatch_of_clear {m answer : CtaphidMessage} {f g : HidLoop β}
    (h : (dispatch build encode m).run f.clear = (.ok answer, g)) (s : CtaphidAssembler) :
    (dispatch build encode m).run { f with assembler := s } =
      (.ok answer, { g with assembler := s }) ∧ g.clear = g := by
  have hrun : (dispatch build encode m).run { f.clear with assembler := s } = _ :=
    run_dispatch_with m f.clear s
  have hsame := assembler_dispatch build encode m f.clear
  rw [h] at hrun hsame
  refine ⟨hrun, ?_⟩
  obtain ⟨channels, assembler, auth⟩ := g
  obtain rfl : assembler = ⟨none⟩ := hsame
  rfl

/-- What answers a message that packets carry is carried if it is short enough. -/
theorem carried_answer {m answer : CtaphidMessage} {f g : HidLoop β} (hm : m.Carried)
    (h : (dispatch build encode m).run f = (.ok answer, g)) (hlen : answer.payload.length ≤ 7609) :
    answer.Carried := by
  obtain ⟨cid, cmd, payload⟩ := m
  cases cmd with
  | cancel => exact absurd rfl hm.cancel
  | init =>
      obtain ⟨bytes, mid, -, hpure⟩ := Prog.bind_eq_ok.mp h
      cases hpure
      exact ⟨by dsimp only; decide, nofun, hlen⟩
  | cbor =>
      obtain ⟨bytes, mid, -, hpure⟩ := Prog.bind_eq_ok.mp h
      cases hpure
      exact ⟨by dsimp only; decide, nofun, hlen⟩
  | _ =>
      cases h
      exact ⟨by dsimp only; decide, nofun, hlen⟩

end HidLoop

namespace CtapHost

/-! ## What the host does -/

theorem Takes.step {writes : Nat → Bool} (h : Takes writes) : Takes fun i => writes (i + 1) := by
  intro t
  obtain ⟨i, hi, htrue⟩ := h (t + 1)
  exact ⟨i, hi, by rwa [Nat.add_right_comm] at htrue⟩

theorem Sends.step {polls : Nat → Bool × List UsbEvent} (h : Sends polls) :
    Sends fun i => polls (i + 1) := by
  intro t
  obtain ⟨i, htrue⟩ := h (t + 1)
  exact ⟨i, by rwa [Nat.add_right_comm] at htrue⟩

@[simp] theorem polls_next (h : CtapHost) : h.next.polls = h.polls := by
  unfold next
  split <;> rfl

@[simp] theorem writes_next (h : CtapHost) : h.next.writes = h.writes := by
  unfold next
  split <;> rfl

@[simp] theorem replies_next (h : CtapHost) : h.next.replies = h.replies := by
  unfold next
  split <;> rfl

/-- What the card gets does not depend on what the host sends. -/
theorem events_poll (h : CtapHost) : h.poll.1.events = (h.polls 0).2 := by
  unfold poll
  split <;> rfl

/-- A host with nothing to send brings nothing for HID. -/
theorem poll_empty {h : CtapHost} (hempty : h.next.outbox = []) :
    h.poll = (⟨none, (h.polls 0).2⟩, h.next.later) := by
  unfold poll
  rw [hempty]
  cases (h.polls 0).1 <;> rfl

theorem poll_waiting {h : CtapHost} (hwait : h.awaiting = true) (hempty : h.outbox = []) :
    h.poll = (⟨none, (h.polls 0).2⟩, h.later) := by
  have hnext : h.next = h := by
    unfold next
    rw [hwait]
  rw [poll_empty (by rw [hnext]; exact hempty), hnext]

theorem poll_silent {h : CtapHost} (hsilent : (h.polls 0).1 = false) :
    h.poll = (⟨none, (h.polls 0).2⟩, h.next.later) := by
  unfold poll
  rw [hsilent]

theorem poll_sends {h : CtapHost} {raw : RawPacket} {rest : List RawPacket}
    (hsend : (h.polls 0).1 = true) (hout : h.next.outbox = raw :: rest) :
    h.poll = (⟨some raw.report, (h.polls 0).2⟩, { h.next.later with outbox := rest }) := by
  unfold poll
  rw [hsend, hout]

/-- The last packet of an answer. -/
theorem receive_last {h : CtapHost} {raw : RawPacket} {answer : CtaphidMessage}
    (hlast : ((CtaphidAssembler.processPacket raw).run h.assembler).1 = .ok (some answer)) :
    (h.receive raw).replies = h.replies ++ [answer] ∧ (h.receive raw).awaiting = false ∧
      (h.receive raw).requests = h.requests ∧ (h.receive raw).outbox = h.outbox := by
  rcases hrun : (CtaphidAssembler.processPacket raw).run h.assembler with ⟨result, assembler⟩
  rw [hrun] at hlast
  obtain rfl : result = .ok (some answer) := hlast
  unfold receive
  rw [hrun]
  exact ⟨rfl, rfl, rfl, rfl⟩

/-- Another packet of an answer. -/
theorem receive_more {h : CtapHost} {raw : RawPacket}
    (hmore : ((CtaphidAssembler.processPacket raw).run h.assembler).1 = .ok none) :
    h.receive raw =
      { h with assembler := ((CtaphidAssembler.processPacket raw).run h.assembler).2 } := by
  rcases hrun : (CtaphidAssembler.processPacket raw).run h.assembler with ⟨result, assembler⟩
  rw [hrun] at hmore
  obtain rfl : result = .ok none := hmore
  unfold receive
  rw [hrun]

@[simp] theorem polls_receive (h : CtapHost) (raw : RawPacket) :
    (h.receive raw).polls = h.polls := by
  unfold receive
  split <;> rfl

@[simp] theorem writes_receive (h : CtapHost) (raw : RawPacket) :
    (h.receive raw).writes = h.writes := by
  unfold receive
  split <;> rfl

end CtapHost

namespace MainLoop

variable {γ β : Type} {applets : List (CardApplet γ)}

open Ctaphid.CtaphidAssembler (Completes)

/-! ## The loop with the host -/

variable (applets) in
/-- What the schedule of the host promises: packets are taken, and the card does not panic. -/
structure Scheduled (m : MainLoop CtapHost γ β) : Prop where
  takes : CtapHost.Takes m.bus.writes
  serves : CardSide.Serves applets m.card fun i => (m.bus.polls i).2

/-- A poll, whatever the host brings. -/
theorem run_poll_host {m : MainLoop CtapHost γ β} (h : Scheduled applets m) :
    ∃ card, (poll CtapHost.bus applets).run m =
        (.ok (), m.polled m.bus.poll.1 m.bus.poll.2 card) ∧
      CardSide.Serves applets card fun i => (m.bus.polls (i + 1)).2 := by
  obtain ⟨card, hturn, hserves⟩ := h.serves.step
  have hevents : (CardSide.turn applets m.bus.poll.1.events).run m.card = (.ok (), card) := by
    rw [CtapHost.events_poll]
    exact hturn
  refine ⟨card, ?_, hserves⟩
  rw [run_poll]
  show (((CardSide.turn applets m.bus.poll.1.events).run m.card).1,
    m.polled _ _ ((CardSide.turn applets m.bus.poll.1.events).run m.card).2) = _
  rw [hevents]
  rfl

/-- The host waits for the packets of an answer. -/
structure Waiting (m : MainLoop CtapHost γ β) : Prop where
  awaiting : m.bus.awaiting = true
  outbox : m.bus.outbox = []
  outReady : m.hid.outReady = false

/-- Only time has passed for the host. -/
structure Passes (h h' : CtapHost) : Prop where
  requests : h'.requests = h.requests
  outbox : h'.outbox = h.outbox
  awaiting : h'.awaiting = h.awaiting
  assembler : h'.assembler = h.assembler
  replies : h'.replies = h.replies
  polls : ∃ t, h'.polls = fun i => h.polls (t + i)

theorem Passes.trans {h₁ h₂ h₃ : CtapHost} (a : Passes h₁ h₂) (b : Passes h₂ h₃) :
    Passes h₁ h₃ where
  requests := b.requests.trans a.requests
  outbox := b.outbox.trans a.outbox
  awaiting := b.awaiting.trans a.awaiting
  assembler := b.assembler.trans a.assembler
  replies := b.replies.trans a.replies
  polls := by
    obtain ⟨t, ht⟩ := a.polls
    obtain ⟨t', ht'⟩ := b.polls
    refine ⟨t + t', ?_⟩
    rw [ht', ht]
    simp only [Nat.add_assoc]

/-- A packet reaches a host that waits for it; besides, only the card does something. -/
theorem run_sendPacket_host (packet : RawPacket) (tries : Nat) {m : MainLoop CtapHost γ β}
    (hsched : Scheduled applets m) (hwait : Waiting m)
    (htaken : ∃ i < tries, m.bus.writes i = true) :
    ∃ m' h, (sendPacket CtapHost.bus applets packet tries).run m = (.ok true, m') ∧
      m'.bus = h.receive packet ∧ Passes m.bus h ∧ Scheduled applets m' ∧ m'.hid = m.hid ∧
      m'.loop = m.loop := by
  induction tries generalizing m with
  | zero =>
      obtain ⟨i, hi, -⟩ := htaken
      exact absurd hi (Nat.not_lt_zero i)
  | succ tries ih =>
      obtain ⟨card, hpoll, hserves⟩ := run_poll_host hsched
      rw [CtapHost.poll_waiting hwait.awaiting hwait.outbox] at hpoll
      have hlater : Passes m.bus { m.bus.later with writes := fun i => m.bus.writes (i + 1) } :=
        ⟨rfl, rfl, rfl, rfl, rfl, 1, by simp only [CtapHost.later, Nat.add_comm]⟩
      unfold sendPacket
      rw [Prog.run_bind_of_ok hpoll]
      by_cases htake : m.bus.writes 0 = true
      · -- the packet is taken now
        refine ⟨{ m.polled ⟨none, (m.bus.polls 0).2⟩ m.bus.later card with
            bus := CtapHost.receive packet { m.bus.later with
              writes := fun i => m.bus.writes (i + 1) }
            log := m.log ++ [.polled ⟨none, (m.bus.polls 0).2⟩] ++ [.wrote packet true] },
          { m.bus.later with writes := fun i => m.bus.writes (i + 1) }, ?_, rfl, hlater, ⟨?_, ?_⟩,
          rfl, rfl⟩
        · simp [sendReport, polled, CtapHost.bus, CtapHost.write, CtapHost.later, htake,
            Prog.run_bind]
        · show CtapHost.Takes (CtapHost.receive packet _).writes
          rw [CtapHost.writes_receive]
          exact hsched.takes.step
        · show CardSide.Serves applets card fun i => ((CtapHost.receive packet _).polls i).2
          rw [CtapHost.polls_receive]
          exact hserves
      · -- the loop tries again
        obtain ⟨i, hi, htrue⟩ := htaken
        have hi0 : i ≠ 0 := by
          rintro rfl
          exact htake htrue
        obtain ⟨j, rfl⟩ := Nat.exists_eq_succ_of_ne_zero hi0
        obtain ⟨m', h, hrun, hbus, hpasses, hsched', hhid, hloop⟩ := ih
          (m := { m.polled ⟨none, (m.bus.polls 0).2⟩ m.bus.later card with
            bus := { m.bus.later with writes := fun i => m.bus.writes (i + 1) }
            log := m.log ++ [.polled ⟨none, (m.bus.polls 0).2⟩] ++ [.wrote packet false] })
          ⟨hsched.takes.step, hserves⟩ ⟨hwait.awaiting, hwait.outbox, hwait.outReady⟩
          ⟨j, Nat.lt_of_succ_lt_succ hi, htrue⟩
        refine ⟨m', h, ?_, hbus, hlater.trans hpasses, hsched', hhid, hloop⟩
        rw [← hrun]
        simp [sendReport, polled, CtapHost.bus, CtapHost.write, CtapHost.later, htake,
          Prog.run_bind]

variable (applets) in
/-- The host has got an answer, and the loop is where it was. -/
structure Delivered (m m' : MainLoop CtapHost γ β) (answer : CtaphidMessage) : Prop where
  requests : m'.bus.requests = m.bus.requests
  outbox : m'.bus.outbox = []
  awaiting : m'.bus.awaiting = false
  replies : m'.bus.replies = m.bus.replies ++ [answer]
  polls : ∃ t, m'.bus.polls = fun i => m.bus.polls (t + i)
  scheduled : Scheduled applets m'
  hid : m'.hid = m.hid
  loop : m'.loop = m.loop

/-- The packets of an answer reach the host. -/
theorem run_sendHidPackets_host {packets : List RawPacket} {answer : CtaphidMessage}
    {m : MainLoop CtapHost γ β} (hsched : Scheduled applets m) (hwait : Waiting m)
    (hcompletes : Completes m.bus.assembler packets answer) :
    ∃ m', (sendHidPackets CtapHost.bus applets packets).run m = (.ok (), m') ∧
      Delivered applets m m' answer := by
  induction packets generalizing m with
  | nil => exact absurd rfl hcompletes.1
  | cons packet rest ih =>
      obtain ⟨i, hi, htrue⟩ := hsched.takes 0
      rw [Nat.zero_add] at htrue
      obtain ⟨m₁, h, hrun, hbus, hpasses, hsched', hhid, hloop⟩ :=
        run_sendPacket_host packet sendTries hsched hwait ⟨i, hi, htrue⟩
      have hassembler : Completes h.assembler (packet :: rest) answer := by
        rw [hpasses.assembler]
        exact hcompletes
      unfold sendHidPackets
      rw [Prog.run_bind_of_ok hrun]
      by_cases hrest : rest = []
      · -- the last packet
        subst hrest
        obtain ⟨hreplies, hawaiting, hrequests, houtbox⟩ :=
          CtapHost.receive_last hassembler.last
        refine ⟨m₁, rfl, ?_, ?_, ?_, ?_, ?_, hsched', hhid, hloop⟩
        · rw [hbus, hrequests, hpasses.requests]
        · rw [hbus, houtbox, hpasses.outbox, hwait.outbox]
        · rw [hbus, hawaiting]
        · rw [hbus, hreplies, hpasses.replies]
        · rw [hbus, CtapHost.polls_receive]
          exact hpasses.polls
      · obtain ⟨hnone, hmore⟩ := hassembler.more hrest
        have hreceive := CtapHost.receive_more hnone
        obtain ⟨m', hrun', hdone⟩ := ih (m := m₁) hsched'
          ⟨by rw [hbus, hreceive]; exact hpasses.awaiting.trans hwait.awaiting,
            by rw [hbus, hreceive]; exact hpasses.outbox.trans hwait.outbox,
            by rw [hhid]; exact hwait.outReady⟩ (by rw [hbus, hreceive]; exact hmore)
        refine ⟨m', hrun', ?_, hdone.outbox, hdone.awaiting, ?_, ?_, hdone.scheduled,
          hdone.hid.trans hhid, hdone.loop.trans hloop⟩
        · rw [hdone.requests, hbus, hreceive, ← hpasses.requests]
        · rw [hdone.replies, hbus, hreceive, ← hpasses.replies]
        · obtain ⟨t, ht⟩ := hpasses.polls
          obtain ⟨t', ht'⟩ := hdone.polls
          refine ⟨t + t', ?_⟩
          rw [ht', hbus, CtapHost.polls_receive, ht]
          simp only [Nat.add_assoc]

/-! ## The session -/

section Session

variable [StorageBackend β] {build : Build} {encode : CtapResponse → Except Ctap2Error Bytes}

/-- The requests that are not answered: the one of which a part has been sent, if there is one, and
those that the host has not begun. -/
def Pending (m : MainLoop CtapHost γ β) (todo : List CtaphidMessage) : Prop :=
  (m.bus.awaiting = false ∧ m.bus.outbox = [] ∧ todo = m.bus.requests) ∨
    ∃ request, m.bus.awaiting = true ∧ todo = request :: m.bus.requests ∧
      Completes m.loop.assembler m.bus.outbox request

variable (applets build encode) in
/-- A session that has come so far: the requests before `todo` are answered. -/
structure InSession (start : HidLoop β) (requests : List CtaphidMessage)
    (m : MainLoop CtapHost γ β) (todo : List CtaphidMessage) : Prop where
  scheduled : Scheduled applets m
  outReady : m.hid.outReady = false
  carried : ∀ request ∈ requests, request.Carried
  answered : ∃ past, requests = past ++ todo ∧
    (HidLoop.exchanges build encode past).run start.clear = (.ok m.bus.replies, m.loop.clear)
  pending : Pending m todo

omit [StorageBackend β] in
/-- Once the next request is made: nothing is left, or its packets are being sent. -/
theorem Pending.next {m : MainLoop CtapHost γ β} {todo : List CtaphidMessage}
    (h : Pending m todo) (hcarried : ∀ request ∈ todo, request.Carried) :
    (todo = [] ∧ m.bus.next = m.bus ∧ m.bus.outbox = [] ∧ m.bus.awaiting = false ∧
        m.bus.requests = []) ∨
      ∃ request, todo = request :: m.bus.next.requests ∧ m.bus.next.awaiting = true ∧
        Completes m.loop.assembler m.bus.next.outbox request := by
  rcases h with ⟨hidle, hempty, rfl⟩ | ⟨request, hwait, rfl, hcompletes⟩
  · cases hrequests : m.bus.requests with
    | nil =>
        refine .inl ⟨rfl, ?_, hempty, hidle, rfl⟩
        unfold CtapHost.next
        rw [hidle, hrequests]
    | cons request rest =>
        have hnext : m.bus.next =
            { m.bus with requests := rest, outbox := request.packets, awaiting := true } := by
          unfold CtapHost.next
          rw [hidle, hrequests]
        rw [hnext]
        have hrequest := hcarried request (by rw [hrequests]; exact List.mem_cons_self)
        exact .inr ⟨request, rfl, rfl,
          Ctaphid.CtaphidAssembler.completes_packets hrequest _⟩
  · have hnext : m.bus.next = m.bus := by
      unfold CtapHost.next
      rw [hwait]
    rw [hnext]
    exact .inr ⟨request, rfl, hwait, hcompletes⟩

/-- The packets that a host has still to send. -/
def load (h : CtapHost) : Nat := h.outbox.length + (h.requests.map fun r => r.packets.length).sum

omit [StorageBackend β] in
theorem load_next {m : MainLoop CtapHost γ β} {todo : List CtaphidMessage}
    (h : Pending m todo) : load m.bus.next = load m.bus := by
  unfold CtapHost.next
  rcases h with ⟨hidle, hempty, -⟩ | ⟨request, hwait, -, -⟩
  · cases hrequests : m.bus.requests with
    | nil => rw [hidle]
    | cons request rest =>
        rw [hidle]
        simp [load, hempty, hrequests]
  · rw [hwait]

/-! ## A turn of the session -/

variable (build encode) in
/-- The packet of a poll is what the turn is about. -/
theorem run_turn_sent {m : MainLoop CtapHost γ β} {raw : RawPacket} {tail : List RawPacket}
    {card : CardSide γ} (hsend : (m.bus.polls 0).1 = true)
    (hout : m.bus.next.outbox = raw :: tail)
    (hpoll : (poll CtapHost.bus applets).run m =
      (.ok (), m.polled m.bus.poll.1 m.bus.poll.2 card)) :
    ∃ hid log, hid.outReady = false ∧ (turn CtapHost.bus applets build encode).run m =
      (Prog.zoom MainLoop.loop (fun loop m => { m with loop := loop })
          (HidLoop.respond build encode raw) >>= sendHidPackets CtapHost.bus applets).run
        { bus := { m.bus.next.later with outbox := tail }, hid := hid, card := card,
          loop := m.loop, log := log } := by
  have hbrings := CtapHost.poll_sends hsend hout
  rw [hbrings] at hpoll
  have hslot := CtapHidClass.slot_endpointOut raw.report m.hid
  have hready : (m.hid.endpointOut raw.report).outReady = true := rfl
  rw [RawPacket.packet_report, CtapHidClass.slot, if_pos hready] at hslot
  refine ⟨{ m.hid.endpointOut raw.report with outLen := 0, outReady := false },
    m.log ++ [.polled ⟨some raw.report, (m.bus.polls 0).2⟩] ++ [.took raw], rfl, ?_⟩
  have hrecv : (recvReport : Prog (MainLoop CtapHost γ β) Fault (Option RawPacket)).run
      (m.polled ⟨some raw.report, (m.bus.polls 0).2⟩ { m.bus.next.later with outbox := tail }
        card) = (.ok (some raw),
          { bus := { m.bus.next.later with outbox := tail }
            hid := { m.hid.endpointOut raw.report with outLen := 0, outReady := false }
            card := card
            loop := m.loop
            log := m.log ++ [.polled ⟨some raw.report, (m.bus.polls 0).2⟩] ++ [.took raw] }) := by
    have hraw := Option.some.inj hslot
    simp only [CtapHidClass.recvReport, CtapHidClass.endpointOut, if_pos] at hraw
    simp [recvReport, CtapHidClass.recvReport, CtapHidClass.endpointOut, polled, hraw]
  unfold turn
  rw [Prog.run_bind_of_ok hpoll, Prog.run_bind_of_ok hrecv]

variable (build encode) in
/-- A poll without a packet for HID is all there is to the turn. -/
theorem run_turn_silent {m : MainLoop CtapHost γ β} {card : CardSide γ}
    (hnone : m.bus.poll = (⟨none, (m.bus.polls 0).2⟩, m.bus.next.later))
    (hready : m.hid.outReady = false)
    (hpoll : (poll CtapHost.bus applets).run m =
      (.ok (), m.polled m.bus.poll.1 m.bus.poll.2 card)) :
    ∃ log, (turn CtapHost.bus applets build encode).run m = (.ok (),
      { bus := m.bus.next.later, hid := m.hid, card := card, loop := m.loop, log := log }) := by
  rw [hnone] at hpoll
  refine ⟨m.log ++ [.polled ⟨none, (m.bus.polls 0).2⟩], ?_⟩
  unfold turn
  rw [Prog.run_bind_of_ok hpoll]
  simp [recvReport, CtapHidClass.recvReport, polled, hready, Prog.run_bind]

/-- What a turn does to a session: a packet of the host was sent, or there was none to send, or the
poll carried none. -/
def Progress (m m' : MainLoop CtapHost γ β) (todo : List CtaphidMessage) : Prop :=
  load m'.bus + 1 = load m.bus ∨
    load m'.bus = load m.bus ∧ m'.bus.polls = (fun i => m.bus.polls (i + 1)) ∧
      ((m.bus.polls 0).1 = true → todo = [])

theorem InSession.carried_todo {start : HidLoop β} {requests todo : List CtaphidMessage}
    {m : MainLoop CtapHost γ β} (h : InSession applets build encode start requests m todo) :
    ∀ request ∈ todo, request.Carried := by
  intro request hmem
  obtain ⟨past, hpast, -⟩ := h.answered
  exact h.carried request (by rw [hpast]; exact List.mem_append_right _ hmem)

/-- A turn without a packet for HID. -/
theorem InSession.silent {start : HidLoop β} {requests todo : List CtaphidMessage}
    {m : MainLoop CtapHost γ β} (h : InSession applets build encode start requests m todo)
    {card : CardSide γ} (hserves : CardSide.Serves applets card fun i => (m.bus.polls (i + 1)).2)
    (log : List LoopEvent) :
    InSession applets build encode start requests
      { bus := m.bus.next.later, hid := m.hid, card := card, loop := m.loop, log := log } todo where
  scheduled :=
    ⟨show CtapHost.Takes m.bus.next.writes by rw [CtapHost.writes_next]; exact h.scheduled.takes,
      show CardSide.Serves applets card fun i => (m.bus.next.polls (i + 1)).2 by
        rw [CtapHost.polls_next]
        exact hserves⟩
  outReady := h.outReady
  carried := h.carried
  answered := by
    obtain ⟨past, hpast, hrun⟩ := h.answered
    refine ⟨past, hpast, ?_⟩
    show (HidLoop.exchanges build encode past).run start.clear =
      (Except.ok m.bus.next.replies, m.loop.clear)
    rw [CtapHost.replies_next]
    exact hrun
  pending := by
    rcases h.pending.next h.carried_todo with
      ⟨rfl, hnext, hempty, hidle, hrequests⟩ | ⟨request, htodo, hwait, hcompletes⟩
    · refine .inl ⟨?_, ?_, ?_⟩
      · show m.bus.next.awaiting = false
        rw [hnext, hidle]
      · show m.bus.next.outbox = []
        rw [hnext, hempty]
      · show [] = m.bus.next.requests
        rw [hnext, hrequests]
    · exact .inr ⟨request, hwait, htodo, hcompletes⟩

/-- A turn with a packet of a request, but not its last. -/
theorem InSession.more {start : HidLoop β} {requests todo : List CtaphidMessage}
    {m : MainLoop CtapHost γ β} (h : InSession applets build encode start requests m todo)
    {request : CtaphidMessage} {raw : RawPacket} {tail : List RawPacket}
    (htodo : todo = request :: m.bus.next.requests) (hwait : m.bus.next.awaiting = true)
    (hmore : Completes ((CtaphidAssembler.processPacket raw).run m.loop.assembler).2 tail request)
    {card : CardSide γ} (hserves : CardSide.Serves applets card fun i => (m.bus.polls (i + 1)).2)
    {hid : CtapHidClass} (hready : hid.outReady = false) (log : List LoopEvent) :
    InSession applets build encode start requests
      { bus := { m.bus.next.later with outbox := tail }
        hid := hid
        card := card
        loop := { m.loop with
          assembler := ((CtaphidAssembler.processPacket raw).run m.loop.assembler).2 }
        log := log } todo where
  scheduled := ⟨(h.silent hserves log).scheduled.takes, (h.silent hserves log).scheduled.serves⟩
  outReady := hready
  carried := h.carried
  answered := (h.silent hserves log).answered
  pending := .inr ⟨request, hwait, htodo, hmore⟩

/-- The session without packets up to and with a request. -/
theorem InSession.dispatched {start final : HidLoop β} {requests answers : List CtaphidMessage}
    {m : MainLoop CtapHost γ β} {request : CtaphidMessage} {rest : List CtaphidMessage}
    (h : InSession applets build encode start requests m (request :: rest))
    (hdirect : (HidLoop.exchanges build encode requests).run start.clear = (.ok answers, final)) :
    ∃ past answer g, requests = past ++ request :: rest ∧ answer ∈ answers ∧
      (HidLoop.dispatch build encode request).run m.loop.clear = (.ok answer, g) ∧
      (HidLoop.exchanges build encode (past ++ [request])).run start.clear =
        (.ok (m.bus.replies ++ [answer]), g) := by
  obtain ⟨past, hpast, hrun⟩ := h.answered
  rw [hpast] at hdirect
  obtain ⟨others, hrest, rfl⟩ := HidLoop.exchanges_split hrun hdirect
  obtain ⟨answer, g, hdispatch, htail⟩ := Prog.bind_eq_ok.mp hrest
  obtain ⟨tail, g', -, hpure⟩ := Prog.bind_eq_ok.mp htail
  obtain ⟨hcons, -⟩ := Prod.mk.inj hpure
  obtain rfl := Except.ok.inj hcons
  refine ⟨past, answer, g, hpast, List.mem_append_right _ List.mem_cons_self, hdispatch, ?_⟩
  rw [HidLoop.exchanges_append hrun, HidLoop.exchanges, Prog.run_bind_of_ok hdispatch]
  rfl

theorem step_session {start final : HidLoop β} {requests answers todo : List CtaphidMessage}
    {m : MainLoop CtapHost γ β} (h : InSession applets build encode start requests m todo)
    (hdirect : (HidLoop.exchanges build encode requests).run start.clear = (.ok answers, final))
    (hfit : ∀ answer ∈ answers, answer.payload.length ≤ 7609) :
    ∃ m' todo', (turn CtapHost.bus applets build encode).run m = (.ok (), m') ∧
      InSession applets build encode start requests m' todo' ∧
      (∃ t, m'.bus.polls = fun i => m.bus.polls (t + i)) ∧ Progress m m' todo := by
  obtain ⟨card, hpoll, hserves⟩ := run_poll_host h.scheduled
  have hload := load_next h.pending
  have hlater : m.bus.next.later.polls = fun i => m.bus.polls (i + 1) := by
    simp only [CtapHost.later, CtapHost.polls_next]
  have hshift : m.bus.next.later.polls = fun i => m.bus.polls (1 + i) := by
    simp only [hlater, Nat.add_comm]
  rcases h.pending.next h.carried_todo with
    ⟨rfl, hnext, hempty, -, -⟩ | ⟨request, htodo, hwait, hcompletes⟩
  · -- every request is answered
    obtain ⟨log, hturn⟩ := run_turn_silent build encode
      (CtapHost.poll_empty (by rw [hnext]; exact hempty)) h.outReady hpoll
    exact ⟨_, [], hturn, h.silent hserves log, ⟨1, hshift⟩, .inr ⟨hload, hlater, fun _ => rfl⟩⟩
  · by_cases hsend : (m.bus.polls 0).1 = true
    · obtain ⟨raw, tail, hout⟩ := List.exists_cons_of_ne_nil hcompletes.1
      obtain ⟨hid, log, hready, hturn⟩ := run_turn_sent build encode
        hsend hout hpoll
      rw [hout] at hcompletes
      have hsent : load { m.bus.next.later with outbox := tail } + 1 = load m.bus := by
        rw [← hload]
        simp only [load, CtapHost.later, hout, List.length_cons]
        omega
      by_cases htail : tail = []
      · -- the request is whole: it is dispatched, and the host gets the answer
        subst htail
        subst htodo
        obtain ⟨past, answer, g, hpast, hanswer, hdispatch, hdone⟩ := h.dispatched hdirect
        obtain ⟨hloop, hclear⟩ := HidLoop.dispatch_of_clear hdispatch
          ((CtaphidAssembler.processPacket raw).run m.loop.assembler).2
        have hcarried := HidLoop.carried_answer
          (h.carried_todo request List.mem_cons_self) hdispatch (hfit answer hanswer)
        have hrespond := HidLoop.respond_last hcompletes.last hloop
        have hsched := (h.silent hserves log).scheduled
        obtain ⟨m', hsending, hdelivered⟩ := run_sendHidPackets_host
          (m := { bus := { m.bus.next.later with outbox := [] }, hid := hid, card := card,
                  loop := { g with assembler :=
                    ((CtaphidAssembler.processPacket raw).run m.loop.assembler).2 },
                  log := log })
          ⟨hsched.takes, hsched.serves⟩ ⟨hwait, rfl, hready⟩
          (Ctaphid.CtaphidAssembler.completes_packets hcarried _)
        have hreplies : m'.bus.replies = m.bus.replies ++ [answer] := by
          rw [hdelivered.replies]
          show m.bus.next.replies ++ _ = _
          rw [CtapHost.replies_next]
        refine ⟨m', m.bus.next.requests, ?_, ⟨hdelivered.scheduled, ?_, h.carried,
          ⟨past ++ [request], ?_, ?_⟩, .inl ⟨hdelivered.awaiting, hdelivered.outbox, ?_⟩⟩, ?_, ?_⟩
        · rw [hturn, Prog.run_bind_of_ok (by rw [Prog.run_zoom, hrespond])]
          exact hsending
        · rw [hdelivered.hid]
          exact hready
        · rw [hpast, List.append_assoc]
          rfl
        · rw [hdone, hreplies, hdelivered.loop]
          show _ = (_, g.clear)
          rw [hclear]
        · rw [hdelivered.requests]
          rfl
        · obtain ⟨t, ht⟩ := hdelivered.polls
          refine ⟨1 + t, ?_⟩
          rw [ht]
          show (fun i => m.bus.next.later.polls (t + i)) = _
          rw [hshift]
          simp only [Nat.add_assoc]
        · refine .inl ?_
          rw [← hsent, load, load, hdelivered.outbox, hdelivered.requests]
      · obtain ⟨hnone, hmore⟩ := hcompletes.more htail
        have hrespond := HidLoop.respond_more build encode hnone
        refine ⟨_, todo, ?_, h.more htodo hwait hmore hserves hready log, ⟨1, hshift⟩,
          .inl hsent⟩
        rw [hturn, Prog.run_bind_of_ok (by rw [Prog.run_zoom, hrespond])]
        rfl
    · obtain ⟨log, hturn⟩ := run_turn_silent build encode
        (CtapHost.poll_silent (Bool.eq_false_of_not_eq_true hsend)) h.outReady hpoll
      exact ⟨_, todo, hturn, h.silent hserves log, ⟨1, hshift⟩,
        .inr ⟨hload, hlater, fun htrue => absurd htrue hsend⟩⟩

/-! ## Runs -/

theorem turns_succ (n : Nat) (m : MainLoop CtapHost γ β) {m' : MainLoop CtapHost γ β}
    (h : (turn CtapHost.bus applets build encode).run m = (.ok (), m')) :
    (turns CtapHost.bus applets build encode (n + 1)).run m =
      (turns CtapHost.bus applets build encode n).run m' := Prog.run_bind_of_ok h

theorem run_session {start final : HidLoop β} {requests answers todo : List CtaphidMessage}
    (hdirect : (HidLoop.exchanges build encode requests).run start.clear = (.ok answers, final))
    (hfit : ∀ answer ∈ answers, answer.payload.length ≤ 7609) (n : Nat)
    {m : MainLoop CtapHost γ β} (h : InSession applets build encode start requests m todo) :
    ∃ m' todo', (turns CtapHost.bus applets build encode n).run m = (.ok (), m') ∧
      InSession applets build encode start requests m' todo' := by
  induction n generalizing m todo with
  | zero => exact ⟨m, todo, rfl, h⟩
  | succ n ih =>
      obtain ⟨m₁, todo₁, hturn, h₁, -, -⟩ := step_session h hdirect hfit
      obtain ⟨m', todo', hrun, h'⟩ := ih h₁
      exact ⟨m', todo', (turns_succ n m hturn).trans hrun, h'⟩

/-- A host whose packets keep coming gets to the end of its requests. -/
theorem session_ends {start final : HidLoop β} {requests answers todo : List CtaphidMessage}
    (hdirect : (HidLoop.exchanges build encode requests).run start.clear = (.ok answers, final))
    (hfit : ∀ answer ∈ answers, answer.payload.length ≤ 7609) {m : MainLoop CtapHost γ β}
    (h : InSession applets build encode start requests m todo)
    (hsends : CtapHost.Sends m.bus.polls) :
    ∃ n m', (turns CtapHost.bus applets build encode n).run m = (.ok (), m') ∧
      InSession applets build encode start requests m' [] := by
  -- by the packets still to be sent, and among them by the polls until one is
  induction hn : load m.bus using Nat.strong_induction_on generalizing m todo with
  | _ size outer =>
      subst hn
      obtain ⟨i, htrue⟩ := hsends 0
      rw [Nat.zero_add] at htrue
      induction i generalizing m todo with
      | zero =>
          obtain ⟨m₁, todo₁, hturn, h₁, ⟨t, ht⟩, hless | ⟨-, -, hnothing⟩⟩ :=
            step_session h hdirect hfit
          · obtain ⟨n, m', hrun, h'⟩ := outer (load m₁.bus) (by omega) h₁ (by
              rw [ht]
              intro t'
              obtain ⟨j, hj⟩ := hsends (t + t')
              exact ⟨j, by rwa [Nat.add_assoc] at hj⟩) rfl
            exact ⟨n + 1, m', (turns_succ n m hturn).trans hrun, h'⟩
          · exact ⟨0, m, rfl, hnothing htrue ▸ h⟩
      | succ i inner =>
          obtain ⟨m₁, todo₁, hturn, h₁, ⟨t, ht⟩, hless | ⟨hsame, hpolls, -⟩⟩ :=
            step_session h hdirect hfit
          · obtain ⟨n, m', hrun, h'⟩ := outer (load m₁.bus) (by omega) h₁ (by
              rw [ht]
              intro t'
              obtain ⟨j, hj⟩ := hsends (t + t')
              exact ⟨j, by rwa [Nat.add_assoc] at hj⟩) rfl
            exact ⟨n + 1, m', (turns_succ n m hturn).trans hrun, h'⟩
          · obtain ⟨n, m', hrun, h'⟩ := inner h₁ (by rw [hpolls]; exact hsends.step)
              (by rw [hsame]; exact outer) (by rw [hpolls]; exact htrue)
            exact ⟨n + 1, m', (turns_succ n m hturn).trans hrun, h'⟩

variable (applets build encode)

/-- After any number of turns the host has the answers that its first requests get without any
packets between, and the authenticator is where these leave it; and if the packets of the host keep
coming, all requests are answered. -/
theorem session_transparent (m : MainLoop CtapHost γ β) (hsched : Scheduled applets m)
    (hready : m.hid.outReady = false) (hidle : m.bus.awaiting = false) (hempty : m.bus.outbox = [])
    (hnone : m.bus.replies = []) (hcarried : ∀ request ∈ m.bus.requests, request.Carried)
    (answers : List CtaphidMessage) (final : HidLoop β)
    (hdirect : (HidLoop.exchanges build encode m.bus.requests).run m.loop.clear =
      (.ok answers, final))
    (hfit : ∀ answer ∈ answers, answer.payload.length ≤ 7609) :
    (∀ n, ∃ m', (turns CtapHost.bus applets build encode n).run m = (.ok (), m') ∧
      ∃ past todo, m.bus.requests = past ++ todo ∧
        (HidLoop.exchanges build encode past).run m.loop.clear =
          (.ok m'.bus.replies, m'.loop.clear)) ∧
      (CtapHost.Sends m.bus.polls →
        ∃ n m', (turns CtapHost.bus applets build encode n).run m = (.ok (), m') ∧
          m'.bus.replies = answers ∧ m'.loop.clear = final) := by
  have hstart : InSession applets build encode m.loop m.bus.requests m m.bus.requests :=
    ⟨hsched, hready, hcarried, ⟨[], rfl, by rw [hnone]; rfl⟩, .inl ⟨hidle, hempty, rfl⟩⟩
  refine ⟨fun n => ?_, fun hsends => ?_⟩
  · obtain ⟨m', todo, hrun, hsession⟩ := run_session hdirect hfit n hstart
    obtain ⟨past, hpast, hreplies⟩ := hsession.answered
    exact ⟨m', hrun, past, todo, hpast, hreplies⟩
  · obtain ⟨n, m', hrun, hsession⟩ := session_ends hdirect hfit hstart hsends
    obtain ⟨past, hpast, hreplies⟩ := hsession.answered
    rw [List.append_nil] at hpast
    rw [← hpast, hdirect] at hreplies
    obtain ⟨hanswers, hfinal⟩ := Prod.mk.inj hreplies
    exact ⟨n, m', hrun, (Except.ok.inj hanswers).symm, hfinal.symm⟩

end Session

/-! ## A session with a card beside it -/

/-- A channel is allocated, and then used for a Selection in two packets. -/
def sessionRequests : List CtaphidMessage :=
  [⟨broadcastCid, .init, [1, 2, 3, 4, 5, 6, 7, 8]⟩,
    ⟨0x00010001, .cbor, 0x0B :: List.replicate 80 0⟩]

/-- The answers: the new channel, and success. -/
def sessionAnswers : List CtaphidMessage :=
  [⟨broadcastCid, .init, [1, 2, 3, 4, 5, 6, 7, 8, 0, 1, 0, 1, 2, 0, 1, 0, 0x0D]⟩,
    ⟨0x00010001, .cbor, [0]⟩]

/-- The device with a host that sends a packet in every poll, while the card is selected. -/
def sessionLoop : MainLoop CtapHost (Card KvMap) KvMap where
  bus :=
    { requests := sessionRequests
      outbox := []
      awaiting := false
      assembler := ⟨none⟩
      replies := []
      polls := fun i => (true, if i = 0 then [.packet selectXfr] else [])
      writes := fun _ => true }
  hid := .new
  card := pingLoop.card
  loop := .start memoryDevice
  log := []

set_option maxRecDepth 100000 in
theorem scheduled_sessionLoop :
    Scheduled (Card.applets CardRouter.idleCrypto 1) sessionLoop := by
  refine ⟨fun t => ⟨0, by decide, rfl⟩, ?_⟩
  have hok : ((CardSide.turn (Card.applets CardRouter.idleCrypto 1)
      [.packet selectXfr]).run pingLoop.card).1 = .ok () := by decide +kernel
  have hturn : (CardSide.turn (Card.applets CardRouter.idleCrypto 1) [.packet selectXfr]).run
      pingLoop.card = (.ok (), _) := Prod.ext hok rfl
  exact CardSide.serves_of_turn hturn (CardSide.serves_idle
    ⟨by decide +kernel, by decide +kernel, by decide +kernel, by decide +kernel⟩)

set_option maxRecDepth 100000 in
theorem session_transparent_sample :
    ∃ n m', (turns CtapHost.bus (Card.applets CardRouter.idleCrypto 1) sampleBuild
        (fun _ => .ok []) n).run sessionLoop = (.ok (), m') ∧ m'.bus.replies = sessionAnswers := by
  have hdirect : ((HidLoop.exchanges sampleBuild (fun _ => .ok []) sessionRequests).run
      sessionLoop.loop.clear).1 = .ok sessionAnswers := by decide +kernel
  obtain ⟨n, m', hrun, hreplies, -⟩ := (session_transparent (Card.applets CardRouter.idleCrypto 1)
    sampleBuild (fun _ => .ok []) sessionLoop scheduled_sessionLoop rfl rfl rfl rfl
    (fun request hmem => by
      rcases List.mem_cons.mp hmem with rfl | hmem
      · exact ⟨by decide, by decide, by decide⟩
      · obtain rfl := List.mem_singleton.mp hmem
        exact ⟨by decide, by decide, by decide⟩) sessionAnswers _ (Prod.ext hdirect rfl)
    (by decide)).2 fun t => ⟨0, rfl⟩
  exact ⟨n, m', hrun, hreplies⟩

end MainLoop

end OpenKey
