import OpenKey.Device.CcidLoop
import OpenKey.Device.HidLoop
import OpenKey.Device.Routing
import Mathlib.Data.List.Forall2

/-!
# The composite loop of the firmware

The loop of `targets/rp2350/src/main.rs` with `send_hid_packets`, over the composite device of
`targets/rp2350/src/composite.rs` and the `CtapHidClass` of
`crates/openkey-transport/src/embedded/usb_hid_backend.rs`. One poll feeds the two interfaces. CCID
is served after each poll, also while the packets of a HID answer are sent.

The bus is any machine that brings something in a poll and takes a packet or not. The log holds what
has happened on the interfaces; it is not part of the device.

**The interfaces are independent (`interfaces_apart`).** In every run, over every bus, the card goes
through the turns of a loop that has CCID only, one a poll; and the authenticator is given the
packets that the HID buffer handed out, and answers them as if there were no card. Each answer is
sent whole, or up to a packet that the endpoint refused in all the tries. The buffer has one place:
it hands out the packets in their order, and loses those after which another one came first.
-/

namespace OpenKey

open Ctaphid (RawPacket CtaphidAssembler CtaphidMessage CtaphidErrorCode fragment)

set_option autoImplicit false

/-! ## The HID class -/

theorem Ctaphid.RawPacket.length_overwrite (raw : RawPacket) {front : Bytes}
    (h : front.length ≤ Ctaphid.packetSize) :
    (front ++ raw.bytes.drop front.length).length = Ctaphid.packetSize := by
  rw [List.length_append, List.length_drop, raw.length_bytes]
  omega

/-- The first bytes of a packet are written over. -/
def Ctaphid.RawPacket.overwrite (raw : RawPacket) (front : Bytes)
    (h : front.length ≤ Ctaphid.packetSize) : RawPacket where
  bytes := front ++ raw.bytes.drop front.length
  length_bytes := raw.length_overwrite h

/-- `[0u8; CTAPHID_PACKET_SIZE]`. -/
def Ctaphid.RawPacket.zero : RawPacket := ⟨List.replicate 64 0, by decide⟩

/-- A report is at most as long as a packet. -/
abbrev Report := { bytes : Bytes // bytes.length ≤ Ctaphid.packetSize }

/-- The packet that a report is to the loop: zeros fill it up. -/
def Report.packet (report : Report) : RawPacket := RawPacket.zero.overwrite report.1 report.2

/-- `CtapHidClass`. -/
structure CtapHidClass where
  outBuf : RawPacket
  outLen : Nat
  outReady : Bool

namespace CtapHidClass

/-- `new`. -/
def new : CtapHidClass := ⟨.zero, 0, false⟩

/-- `endpoint_out`: the report is read into the buffer, whether or not one waits there. -/
def endpointOut (report : Report) (c : CtapHidClass) : CtapHidClass :=
  ⟨c.outBuf.overwrite report.1 report.2, report.1.length, true⟩

/-- `recv_report`, which is `take_data`: the number of bytes, and the buffer of the caller. -/
def recvReport (buf : RawPacket) (c : CtapHidClass) : (Option Nat × RawPacket) × CtapHidClass :=
  if c.outReady then
    ((some (min c.outLen Ctaphid.packetSize),
      buf.overwrite (c.outBuf.bytes.take (min c.outLen Ctaphid.packetSize)) (by simp)),
      { c with outLen := 0, outReady := false })
  else ((none, buf), c)

end CtapHidClass

/-! ## The card -/

/-- The CCID class and the router behind it. -/
structure CardSide (γ : Type) where
  ccid : CcidClass Unit
  router : CardRouter γ

namespace CardSide

variable {γ : Type} (applets : List (CardApplet γ))

/-- A call on the class; a panic halts the device. -/
def onCcid {α : Type} (call : CcidClass Unit → Except Panic (α × CcidClass Unit)) :
    Prog (CardSide γ) Fault α :=
  .mk fun s =>
    match call s.ccid with
    | .ok (a, ccid) => (.ok a, { s with ccid := ccid })
    | .error _ => (.error .panic, s)

/-- The CCID part of `CompositeUsbDevice::poll`. -/
def poll (events : List UsbEvent) : Prog (CardSide γ) Fault Unit :=
  onCcid fun c => do
    let c ← c.usbPoll events
    let c ← c.process none
    pure ((), c)

/-- A request that is pending goes to the router, and its response back; what `send_response`
returns is ignored. -/
def serve : Prog (CardSide γ) Fault Unit := do
  let pending ← Prog.read fun s => s.ccid.pending
  if pending then do
    let apdu ← onCcid (CcidClass.takePendingRequest maxPayloadLen)
    match apdu with
    | some apdu => do
        let response ← Prog.zoom CardSide.router (fun router s => { s with router := router })
          (CardRouter.process applets apdu)
        let _ ← onCcid (CcidClass.sendResponse response.toBytes)
        pure ()
    | none => pure ()
  else pure ()

/-- A turn of a loop with CCID only. -/
def turn (events : List UsbEvent) : Prog (CardSide γ) Fault Unit := do
  poll events
  serve applets

/-- The turns of a loop with CCID only. -/
def turns : List (List UsbEvent) → Prog (CardSide γ) Fault Unit
  | [] => pure ()
  | events :: rest => do
      turn applets events
      turns rest

end CardSide

/-! ## The authenticator -/

/-- The packets of a message; none if it is too long. -/
def Ctaphid.CtaphidMessage.packets (m : CtaphidMessage) : List RawPacket :=
  match fragment m.cid m.cmd m.payload with
  | .ok packets => packets
  | .error _ => []

namespace HidLoop

variable {β : Type} [StorageBackend β] (build : Build)
  (encode : CtapResponse → Except Ctap2Error Bytes)

/-- What the loop does with a packet: the packets it answers. -/
def respond (raw : RawPacket) : Prog (HidLoop β) Fault (List RawPacket) := do
  let result ← Prog.attempt (Prog.zoom HidLoop.assembler
    (fun assembler f => { f with assembler := assembler }) (CtaphidAssembler.processPacket raw))
  match result with
  | .ok (some m) => do
      let answer ← dispatch build encode m
      pure answer.packets
  | .ok none => pure []
  | .error (cid, code) => pure (CtaphidMessage.packets ⟨cid, .error, [code.asU8]⟩)

/-- Packets in turn, and what each is answered with. -/
def respondAll : List RawPacket → Prog (HidLoop β) Fault (List (List RawPacket))
  | [] => pure []
  | raw :: rest => do
      let packets ← respond build encode raw
      let answers ← respondAll rest
      pure (packets :: answers)

end HidLoop

/-! ## The bus -/

/-- What the bus brings in a poll: a report for the HID endpoint, and what the CCID class gets. -/
structure BusPoll where
  report : Option Report
  events : List UsbEvent

/-- The bus, with the host behind it: what it brings in the next poll, and whether the HID endpoint
takes a packet. -/
structure Bus (σ : Type) where
  poll : σ → BusPoll × σ
  write : RawPacket → σ → Bool × σ

/-- What happens on the interfaces. -/
inductive LoopEvent
  | polled (p : BusPoll)
  /-- A packet was handed out by the HID buffer. -/
  | took (raw : RawPacket)
  /-- A packet was offered to the endpoint, which took it or not. -/
  | wrote (raw : RawPacket) (accepted : Bool)

/-! ## The loop -/

/-- The tries for a packet. -/
def sendTries : Nat := 500000

/-- The state of `main`: the bus, the two classes, and what stands behind them. -/
structure MainLoop (σ γ β : Type) where
  bus : σ
  hid : CtapHidClass
  card : CardSide γ
  loop : HidLoop β
  log : List LoopEvent

namespace MainLoop

variable {σ γ β : Type} [StorageBackend β] (bus : Bus σ) (applets : List (CardApplet γ))
  (build : Build) (encode : CtapResponse → Except Ctap2Error Bytes)

/-- Work on the card. -/
def onCard {α : Type} (m : Prog (CardSide γ) Fault α) : Prog (MainLoop σ γ β) Fault α :=
  Prog.zoom MainLoop.card (fun card m => { m with card := card }) m

/-- The bus brings something. -/
def busPoll : Prog (MainLoop σ γ β) Fault BusPoll :=
  Prog.act fun m => ((bus.poll m.bus).1,
    { m with bus := (bus.poll m.bus).2, log := m.log ++ [.polled (bus.poll m.bus).1] })

/-- `CompositeUsbDevice::poll`, and the request that is then pending for the card. -/
def poll : Prog (MainLoop σ γ β) Fault Unit := do
  let p ← busPoll bus
  Prog.update fun m => { m with hid := p.report.elim m.hid m.hid.endpointOut }
  onCard (CardSide.poll p.events)
  onCard (CardSide.serve applets)

/-- `send_report`; the packet has the size of the endpoint. -/
def sendReport (packet : RawPacket) : Prog (MainLoop σ γ β) Fault Bool :=
  Prog.act fun m =>
    ((bus.write packet m.bus).1, { m with
      bus := (bus.write packet m.bus).2
      log := m.log ++ [.wrote packet (bus.write packet m.bus).1] })

/-- The tries to send a packet. -/
def sendPacket (packet : RawPacket) : Nat → Prog (MainLoop σ γ β) Fault Bool
  | 0 => pure false
  | tries + 1 => do
      poll bus applets
      let sent ← sendReport bus packet
      if sent then pure true else sendPacket packet tries

/-- `send_hid_packets`. -/
def sendHidPackets : List RawPacket → Prog (MainLoop σ γ β) Fault Unit
  | [] => pure ()
  | packet :: rest => do
      let sent ← sendPacket bus applets packet sendTries
      if sent then sendHidPackets rest else pure ()

/-- `recv_report` into a buffer of zeros. -/
def recvReport : Prog (MainLoop σ γ β) Fault (Option RawPacket) :=
  Prog.act fun m =>
    let out := m.hid.recvReport .zero
    match out.1.1 with
    | some _ => (some out.1.2, { m with hid := out.2, log := m.log ++ [.took out.1.2] })
    | none => (none, { m with hid := out.2 })

/-- A turn of the loop. -/
def turn : Prog (MainLoop σ γ β) Fault Unit := do
  poll bus applets
  let raw ← recvReport
  match raw with
  | some raw => do
      let packets ← Prog.zoom MainLoop.loop (fun loop m => { m with loop := loop })
        (HidLoop.respond build encode raw)
      sendHidPackets bus applets packets
  | none => pure ()

/-- Turns of the loop. -/
def turns : Nat → Prog (MainLoop σ γ β) Fault Unit
  | 0 => pure ()
  | n + 1 => do
      turn bus applets build encode
      turns n

/-! ## What a poll and a write do -/

variable {bus applets build encode}

/-- The bus brought `p`, and the card has done its turn. -/
def polled (m : MainLoop σ γ β) (p : BusPoll) (rest : σ) (card : CardSide γ) : MainLoop σ γ β where
  bus := rest
  hid := p.report.elim m.hid m.hid.endpointOut
  card := card
  loop := m.loop
  log := m.log ++ [.polled p]

omit [StorageBackend β] in
theorem run_onCard_bind {α α' : Type} (first : Prog (CardSide γ) Fault α)
    (second : α → Prog (CardSide γ) Fault α') (m : MainLoop σ γ β) :
    (onCard first >>= fun a => onCard (second a)).run m = (onCard (first >>= second)).run m := by
  have hwhole : (onCard (first >>= second)).run m =
      (((first >>= second).run m.card).1, { m with card := ((first >>= second).run m.card).2 }) :=
    rfl
  have hstart : (onCard first).run m =
      ((first.run m.card).1, { m with card := (first.run m.card).2 }) := rfl
  rcases hfirst : first.run m.card with ⟨result, card⟩
  rw [hfirst] at hstart
  cases result with
  | error fault =>
      rw [hwhole, Prog.run_bind_of_error hstart, Prog.run_bind_of_error hfirst]
  | ok a =>
      rw [hwhole, Prog.run_bind_of_ok hstart, Prog.run_bind_of_ok hfirst]
      rfl

omit [StorageBackend β] in
/-- A poll is a turn of the card. -/
theorem run_poll (m : MainLoop σ γ β) : (poll bus applets).run m =
    (((CardSide.turn applets (bus.poll m.bus).1.events).run m.card).1,
      m.polled (bus.poll m.bus).1 (bus.poll m.bus).2
        ((CardSide.turn applets (bus.poll m.bus).1.events).run m.card).2) := by
  unfold poll busPoll
  rw [Prog.run_act_bind, Prog.run_update_bind]
  exact run_onCard_bind _ (fun _ => CardSide.serve applets) _

omit [StorageBackend β] in
theorem poll_ok {m m' : MainLoop σ γ β} {u : Unit} (h : (poll bus applets).run m = (.ok u, m')) :
    ∃ p rest card, bus.poll m.bus = (p, rest) ∧
      (CardSide.turn applets p.events).run m.card = (.ok (), card) ∧
      m' = m.polled p rest card := by
  rw [run_poll] at h
  obtain ⟨hcard, rfl⟩ := Prod.mk.inj h
  exact ⟨_, _, _, rfl, Prod.ext hcard rfl, rfl⟩

/-! ## Logs -/

end MainLoop

namespace LoopEvent

/-- What the card got. -/
def events : List LoopEvent → List (List UsbEvent) :=
  List.filterMap fun
    | .polled p => some p.events
    | _ => none

/-- The packets that the HID buffer handed out. -/
def taken : List LoopEvent → List RawPacket :=
  List.filterMap fun
    | .took raw => some raw
    | _ => none

/-- The packets that were offered to the endpoint, and whether it took them. -/
def writes : List LoopEvent → List (RawPacket × Bool) :=
  List.filterMap fun
    | .wrote raw accepted => some (raw, accepted)
    | _ => none

@[simp] theorem events_append (a b : List LoopEvent) : events (a ++ b) = events a ++ events b :=
  List.filterMap_append

@[simp] theorem taken_append (a b : List LoopEvent) : taken (a ++ b) = taken a ++ taken b :=
  List.filterMap_append

@[simp] theorem writes_append (a b : List LoopEvent) : writes (a ++ b) = writes a ++ writes b :=
  List.filterMap_append

/-- A buffer of one place: what it hands out along a log, and what it then holds. A report takes the
place of the one that waits. -/
def onePlace : Option RawPacket → List LoopEvent → List RawPacket × Option RawPacket
  | slot, [] => ([], slot)
  | slot, .polled p :: log => onePlace ((p.report.map Report.packet).or slot) log
  | slot, .took _ :: log => (slot.toList ++ (onePlace none log).1, (onePlace none log).2)
  | slot, .wrote _ _ :: log => onePlace slot log

theorem onePlace_append (slot : Option RawPacket) (a b : List LoopEvent) :
    onePlace slot (a ++ b) =
      ((onePlace slot a).1 ++ (onePlace (onePlace slot a).2 b).1,
        (onePlace (onePlace slot a).2 b).2) := by
  induction a generalizing slot with
  | nil => rfl
  | cons event a ih =>
      cases event with
      | took raw => simp only [List.cons_append, onePlace, ih, List.append_assoc]
      | polled p => exact ih _
      | wrote raw accepted => exact ih _

end LoopEvent

namespace CardSide

variable {γ : Type} {applets : List (CardApplet γ)}

theorem turns_append {a b : List (List UsbEvent)} {s t u : CardSide γ}
    (ha : (turns applets a).run s = (.ok (), t)) (hb : (turns applets b).run t = (.ok (), u)) :
    (turns applets (a ++ b)).run s = (.ok (), u) := by
  induction a generalizing s with
  | nil =>
      obtain ⟨-, rfl⟩ := Prod.mk.inj ha
      exact hb
  | cons events a ih =>
      obtain ⟨v, mid, hturn, hrest⟩ := Prog.bind_eq_ok.mp ha
      exact (Prog.run_bind_of_ok hturn).trans (ih hrest)

theorem turns_one {events : List UsbEvent} {s t : CardSide γ}
    (h : (turn applets events).run s = (.ok (), t)) :
    (turns applets [events]).run s = (.ok (), t) := by
  rw [turns, Prog.run_bind_of_ok h]
  rfl

end CardSide

namespace CtapHidClass

/-- The packet that the buffer holds for the loop. -/
def slot (c : CtapHidClass) : Option RawPacket :=
  if c.outReady then some (c.recvReport .zero).1.2 else none

theorem slot_endpointOut (report : Report) (c : CtapHidClass) :
    (c.endpointOut report).slot = some report.packet := by
  have hmin : min report.1.length Ctaphid.packetSize = report.1.length :=
    Nat.min_eq_left report.2
  simp [slot, endpointOut, recvReport, Report.packet, RawPacket.overwrite, hmin]

theorem slot_poll (p : BusPoll) (c : CtapHidClass) :
    (p.report.elim c c.endpointOut).slot = (p.report.map Report.packet).or c.slot := by
  cases p.report with
  | none => rfl
  | some report => exact slot_endpointOut report c

end CtapHidClass

namespace HidLoop

variable {β : Type} [StorageBackend β] {build : Build}
  {encode : CtapResponse → Except Ctap2Error Bytes}

theorem respondAll_append {a b : List RawPacket} {f g h : HidLoop β}
    {answers answers' : List (List RawPacket)}
    (ha : (respondAll build encode a).run f = (.ok answers, g))
    (hb : (respondAll build encode b).run g = (.ok answers', h)) :
    (respondAll build encode (a ++ b)).run f = (.ok (answers ++ answers'), h) := by
  induction a generalizing f answers with
  | nil =>
      obtain ⟨hnil, rfl⟩ := Prod.mk.inj ha
      obtain rfl := Except.ok.inj hnil
      exact hb
  | cons raw a ih =>
      obtain ⟨packets, f', hrespond, hrest⟩ := Prog.bind_eq_ok.mp ha
      obtain ⟨tail, g', htail, hpure⟩ := Prog.bind_eq_ok.mp hrest
      obtain ⟨hcons, rfl⟩ := Prod.mk.inj hpure
      obtain rfl := Except.ok.inj hcons
      rw [List.cons_append, respondAll, Prog.run_bind_of_ok hrespond,
        Prog.run_bind_of_ok (ih htail)]
      rfl

theorem respondAll_one {raw : RawPacket} {f g : HidLoop β} {packets : List RawPacket}
    (h : (respond build encode raw).run f = (.ok packets, g)) :
    (respondAll build encode [raw]).run f = (.ok [packets], g) := by
  rw [respondAll, Prog.run_bind_of_ok h]
  rfl

end HidLoop

namespace MainLoop

variable {σ γ β : Type} {bus : Bus σ} {applets : List (CardApplet γ)}

/-! ## What the interfaces do along a log -/

variable (applets) in
/-- The log tells what the card and the HID buffer have done. -/
structure Moves (m m' : MainLoop σ γ β) (log : List LoopEvent) : Prop where
  grows : m'.log = m.log ++ log
  card : (CardSide.turns applets (LoopEvent.events log)).run m.card = (.ok (), m'.card)
  buffer : LoopEvent.onePlace m.hid.slot log = (LoopEvent.taken log, m'.hid.slot)

theorem Moves.refl (m : MainLoop σ γ β) : Moves applets m m [] :=
  ⟨(List.append_nil _).symm, rfl, rfl⟩

theorem Moves.trans {m m₁ m₂ : MainLoop σ γ β} {a b : List LoopEvent} (ha : Moves applets m m₁ a)
    (hb : Moves applets m₁ m₂ b) : Moves applets m m₂ (a ++ b) where
  grows := by rw [hb.grows, ha.grows, List.append_assoc]
  card := by
    rw [LoopEvent.events_append]
    exact CardSide.turns_append ha.card hb.card
  buffer := by
    rw [LoopEvent.onePlace_append, ha.buffer, hb.buffer, LoopEvent.taken_append]

theorem moves_poll {m m' : MainLoop σ γ β} {u : Unit}
    (h : (poll bus applets).run m = (.ok u, m')) :
    ∃ p, Moves applets m m' [.polled p] ∧ m'.loop = m.loop := by
  obtain ⟨p, rest, card, -, hcard, rfl⟩ := poll_ok h
  refine ⟨p, ⟨rfl, CardSide.turns_one hcard, ?_⟩, rfl⟩
  show ([], (p.report.map Report.packet).or m.hid.slot) = ([], _)
  rw [polled, CtapHidClass.slot_poll]

/-- A packet is offered until the endpoint takes it, or in all the tries. -/
theorem moves_sendPacket {packet : RawPacket} (tries : Nat) {m m' : MainLoop σ γ β} {sent : Bool}
    (h : (sendPacket bus applets packet tries).run m = (.ok sent, m')) :
    ∃ log, Moves applets m m' log ∧ m'.loop = m.loop ∧ LoopEvent.taken log = [] ∧
      if sent then ∃ refusals, LoopEvent.writes log =
        List.replicate refusals (packet, false) ++ [(packet, true)]
      else LoopEvent.writes log = List.replicate tries (packet, false) := by
  induction tries generalizing m with
  | zero =>
      obtain ⟨hsent, rfl⟩ := Prod.mk.inj h
      obtain rfl := Except.ok.inj hsent
      exact ⟨[], .refl _, rfl, rfl, rfl⟩
  | succ tries ih =>
      obtain ⟨u, m₁, hpoll, h⟩ := Prog.bind_eq_ok.mp h
      obtain ⟨p, hmoves, hloop⟩ := moves_poll hpoll
      obtain ⟨accepted, m₂, hwrite, h⟩ := Prog.bind_eq_ok.mp h
      obtain ⟨hresult, hstate⟩ := Prod.mk.inj hwrite
      have haccepted : (bus.write packet m₁.bus).1 = accepted := Except.ok.inj hresult
      obtain ⟨hwrote, hsame⟩ : Moves applets m₁ m₂ [.wrote packet accepted] ∧
          m₂.loop = m₁.loop := by
        rw [← hstate, ← haccepted]
        exact ⟨⟨rfl, rfl, rfl⟩, rfl⟩
      cases accepted with
      | true =>
          obtain ⟨hres, rfl⟩ := Prod.mk.inj h
          obtain rfl := Except.ok.inj hres
          exact ⟨_, hmoves.trans hwrote, hsame.trans hloop, rfl, 0, rfl⟩
      | false =>
          obtain ⟨log, hmore, hrest, htaken, hwrites⟩ := ih h
          refine ⟨_, hmoves.trans (hwrote.trans hmore), hrest.trans (hsame.trans hloop), htaken,
            ?_⟩
          have hlog : LoopEvent.writes
              ([.polled p] ++ ([.wrote packet false] ++ log)) =
                (packet, false) :: LoopEvent.writes log := rfl
          rw [hlog]
          cases sent with
          | true =>
              obtain ⟨refusals, hrefusals⟩ := hwrites
              exact ⟨refusals + 1, by rw [hrefusals]; rfl⟩
          | false =>
              rw [if_neg Bool.false_ne_true] at hwrites ⊢
              rw [hwrites]
              rfl

/-- The packets that the endpoint took. -/
def accepted (writes : List (RawPacket × Bool)) : List RawPacket :=
  writes.filterMap fun w => if w.2 then some w.1 else none

/-- An answer is sent whole, or up to a packet that the endpoint refused in all the tries. -/
def Sent (writes : List (RawPacket × Bool)) (answer : List RawPacket) : Prop :=
  accepted writes = answer ∨ ∃ packet rest before,
    answer = accepted writes ++ packet :: rest ∧
      writes = before ++ List.replicate sendTries (packet, false)

theorem accepted_refusals (n : Nat) (packet : RawPacket) :
    accepted (List.replicate n (packet, false)) = [] := by
  simp [accepted]

theorem Sent.cons {packet : RawPacket} {refusals : Nat} {writes : List (RawPacket × Bool)}
    {rest : List RawPacket} (h : Sent writes rest) :
    Sent (List.replicate refusals (packet, false) ++ [(packet, true)] ++ writes)
      (packet :: rest) := by
  have haccepted : accepted (List.replicate refusals (packet, false) ++ [(packet, true)] ++
      writes) = packet :: accepted writes := by
    simp [accepted]
  rcases h with hwhole | ⟨refused, tail, before, hrest, hwrites⟩
  · refine .inl ?_
    rw [haccepted, hwhole]
  · refine .inr ⟨refused, tail,
      List.replicate refusals (packet, false) ++ [(packet, true)] ++ before, ?_, ?_⟩
    · rw [haccepted, hrest]
      rfl
    · rw [hwrites, List.append_assoc _ before]

theorem moves_sendHidPackets {packets : List RawPacket} {m m' : MainLoop σ γ β} {u : Unit}
    (h : (sendHidPackets bus applets packets).run m = (.ok u, m')) :
    ∃ log, Moves applets m m' log ∧ m'.loop = m.loop ∧ LoopEvent.taken log = [] ∧
      Sent (LoopEvent.writes log) packets := by
  induction packets generalizing m with
  | nil =>
      obtain ⟨-, rfl⟩ := Prod.mk.inj h
      exact ⟨[], .refl _, rfl, rfl, .inl rfl⟩
  | cons packet rest ih =>
      obtain ⟨sent, m₁, hone, h⟩ := Prog.bind_eq_ok.mp h
      obtain ⟨log, hmoves, hloop, htaken, hwrites⟩ := moves_sendPacket _ hone
      cases sent with
      | false =>
          obtain ⟨-, rfl⟩ := Prod.mk.inj h
          rw [if_neg Bool.false_ne_true] at hwrites
          refine ⟨log, hmoves, hloop, htaken, .inr ⟨packet, rest, [], ?_, hwrites⟩⟩
          rw [hwrites, accepted_refusals]
          rfl
      | true =>
          obtain ⟨refusals, hrefusals⟩ := hwrites
          obtain ⟨log', hmore, hsame, htaken', hsent⟩ := ih h
          refine ⟨log ++ log', hmoves.trans hmore, hsame.trans hloop, ?_, ?_⟩
          · rw [LoopEvent.taken_append, htaken, htaken']
            rfl
          · rw [LoopEvent.writes_append, hrefusals]
            exact hsent.cons

/-! ## A turn and a run -/

section Answers

variable [StorageBackend β] {build : Build} {encode : CtapResponse → Except Ctap2Error Bytes}

/-- What is offered to the endpoint along a log are the answers, one after the other. -/
def Sends (log : List LoopEvent) (answers : List (List RawPacket)) : Prop :=
  ∃ parts, LoopEvent.writes log = parts.flatten ∧ List.Forall₂ Sent parts answers

omit [StorageBackend β] in
theorem Sends.append {a b : List LoopEvent} {answers answers' : List (List RawPacket)}
    (ha : Sends a answers) (hb : Sends b answers') : Sends (a ++ b) (answers ++ answers') := by
  obtain ⟨parts, hwrites, hparts⟩ := ha
  obtain ⟨parts', hwrites', hparts'⟩ := hb
  refine ⟨parts ++ parts', ?_, List.rel_append hparts hparts'⟩
  rw [LoopEvent.writes_append, hwrites, hwrites', List.flatten_append]

/-- Along a log the authenticator was given the packets of the buffer, and has answered them. -/
def Replies (build : Build) (encode : CtapResponse → Except Ctap2Error Bytes)
    (m m' : MainLoop σ γ β) (log : List LoopEvent) : Prop :=
  ∃ answers, (HidLoop.respondAll build encode (LoopEvent.taken log)).run m.loop =
    (.ok answers, m'.loop) ∧ Sends log answers

theorem Replies.trans {m m₁ m₂ : MainLoop σ γ β} {a b : List LoopEvent}
    (ha : Replies build encode m m₁ a) (hb : Replies build encode m₁ m₂ b) :
    Replies build encode m m₂ (a ++ b) := by
  obtain ⟨answers, hrun, hsends⟩ := ha
  obtain ⟨answers', hrun', hsends'⟩ := hb
  refine ⟨answers ++ answers', ?_, hsends.append hsends'⟩
  rw [LoopEvent.taken_append]
  exact HidLoop.respondAll_append hrun hrun'

theorem moves_turn {m m' : MainLoop σ γ β} {u : Unit}
    (h : (turn bus applets build encode).run m = (.ok u, m')) :
    ∃ log, Moves applets m m' log ∧ Replies build encode m m' log := by
  obtain ⟨v, m₁, hpoll, h⟩ := Prog.bind_eq_ok.mp h
  obtain ⟨p, hmoves, hloop⟩ := moves_poll hpoll
  obtain ⟨raw, m₂, hrecv, h⟩ := Prog.bind_eq_ok.mp h
  by_cases hready : m₁.hid.outReady = true
  · -- a packet waits: it goes to the authenticator, and the answer is sent
    have htook : (recvReport : Prog (MainLoop σ γ β) Fault (Option RawPacket)).run m₁ =
        (.ok (some (m₁.hid.recvReport .zero).1.2), { m₁ with
          hid := { m₁.hid with outLen := 0, outReady := false }
          log := m₁.log ++ [.took (m₁.hid.recvReport .zero).1.2] }) := by
      simp [recvReport, CtapHidClass.recvReport, hready]
    rw [htook] at hrecv
    obtain ⟨hsome, rfl⟩ := Prod.mk.inj hrecv
    obtain rfl := Except.ok.inj hsome
    obtain ⟨packets, m₃, hrespond, h⟩ := Prog.bind_eq_ok.mp h
    rw [Prog.run_zoom] at hrespond
    obtain ⟨hpackets, rfl⟩ := Prod.mk.inj hrespond
    obtain ⟨log, hsend, hsame, htaken, hsent⟩ := moves_sendHidPackets h
    have htake : Moves applets m₁ ({ m₁ with
        hid := { m₁.hid with outLen := 0, outReady := false }
        log := m₁.log ++ [.took (m₁.hid.recvReport .zero).1.2] } : MainLoop σ γ β)
          [.took (m₁.hid.recvReport .zero).1.2] := by
      refine ⟨rfl, rfl, ?_⟩
      simp [LoopEvent.onePlace, LoopEvent.taken, CtapHidClass.slot, hready]
    refine ⟨_, hmoves.trans (htake.trans ⟨hsend.grows, hsend.card, hsend.buffer⟩), [packets], ?_,
      [LoopEvent.writes log], ?_, .cons hsent .nil⟩
    · rw [LoopEvent.taken_append, LoopEvent.taken_append, htaken, hsame, ← hloop]
      exact HidLoop.respondAll_one (Prod.ext hpackets rfl)
    · simp [LoopEvent.writes]
  · have hnone : (recvReport : Prog (MainLoop σ γ β) Fault (Option RawPacket)).run m₁ =
        (.ok none, m₁) := by
      simp [recvReport, CtapHidClass.recvReport, hready]
    rw [hnone] at hrecv
    obtain ⟨hres, rfl⟩ := Prod.mk.inj hrecv
    obtain rfl := Except.ok.inj hres
    obtain ⟨-, rfl⟩ := Prod.mk.inj h
    refine ⟨_, hmoves, [], ?_, [], rfl, .nil⟩
    rw [hloop]
    rfl

theorem moves_turns (n : Nat) {m m' : MainLoop σ γ β} {u : Unit}
    (h : (turns bus applets build encode n).run m = (.ok u, m')) :
    ∃ log, Moves applets m m' log ∧ Replies build encode m m' log := by
  induction n generalizing m with
  | zero =>
      obtain ⟨-, rfl⟩ := Prod.mk.inj h
      exact ⟨[], .refl _, [], rfl, [], rfl, .nil⟩
  | succ n ih =>
      obtain ⟨v, m₁, hturn, h⟩ := Prog.bind_eq_ok.mp h
      obtain ⟨log, hmoves, hreplies⟩ := moves_turn hturn
      obtain ⟨log', hmoves', hreplies'⟩ := ih h
      exact ⟨_, hmoves.trans hmoves', hreplies.trans hreplies'⟩

variable (bus applets build encode)

/-- Whatever the bus does, a run of the loop is a run of the card over what its interface got, with
one turn a poll, beside a run of the authenticator over the packets that the buffer handed out; the
answers are sent in their order, each of them whole or up to a packet that the endpoint refused in
all the tries; and the buffer is one of one place. -/
theorem interfaces_apart (n : Nat) (m m' : MainLoop σ γ β) (hlog : m.log = [])
    (hidle : m.hid.outReady = false)
    (hrun : (turns bus applets build encode n).run m = (.ok (), m')) :
    (CardSide.turns applets (LoopEvent.events m'.log)).run m.card = (.ok (), m'.card) ∧
      (∃ answers, (HidLoop.respondAll build encode (LoopEvent.taken m'.log)).run m.loop =
        (.ok answers, m'.loop) ∧ Sends m'.log answers) ∧
      LoopEvent.onePlace none m'.log = (LoopEvent.taken m'.log, m'.hid.slot) := by
  obtain ⟨log, hmoves, hreplies⟩ := moves_turns n hrun
  have hgrows : m'.log = log := by rw [hmoves.grows, hlog, List.nil_append]
  have hempty : m.hid.slot = none := by
    rw [CtapHidClass.slot, if_neg (by rw [hidle]; decide)]
  subst hgrows
  refine ⟨hmoves.card, hreplies, ?_⟩
  rw [← hempty]
  exact hmoves.buffer

end Answers

/-! ## A turn with both interfaces -/

/-- A bus that brings what is written down, and takes every packet. -/
def replay : Bus (List BusPoll) where
  poll
    | [] => (⟨none, []⟩, [])
    | p :: rest => (p, rest)
  write _ rest := (true, rest)

/-- An XfrBlock that selects the Management applet. -/
def selectXfr : Bytes :=
  [0x6F, 13, 0, 0, 0, 0, 1, 0, 0, 0, 0x00, 0xA4, 0x04, 0x00, 0x08, 0xA0, 0x00, 0x00, 0x05, 0x27,
    0x47, 0x11, 0x17]

/-- A PING of one byte, in a report without the padding. -/
def pingReport : Report := ⟨[0, 1, 0, 1, 0x81, 0, 1, 7], by decide⟩

/-- The device, with a poll to come that brings something for both interfaces. -/
def pingLoop : MainLoop (List BusPoll) (Card KvMap) KvMap where
  bus := [⟨some pingReport, [.packet selectXfr]⟩]
  hid := .new
  card := ⟨.new () fun _ => .wrote 64, ⟨Card.blank StorageEngine.new fun _ _ => 1, none, none⟩⟩
  loop := .start memoryDevice
  log := []

set_option maxRecDepth 100000 in
/-- The PING is answered, and so is the card, which has no state that it could open. -/
theorem interfaces_apart_ping : ∃ m' : MainLoop (List BusPoll) (Card KvMap) KvMap,
    (turns replay (Card.applets CardRouter.idleCrypto 1) sampleBuild (fun _ => .ok []) 1).run
        pingLoop = (.ok (), m') ∧
      (CardSide.turns (Card.applets CardRouter.idleCrypto 1) [[.packet selectXfr], []]).run
        pingLoop.card = (.ok (), m'.card) ∧
      m'.card.ccid.wire = [[0x80, 2, 0, 0, 0, 0, 1, 1, 0, 0, 0x69, 0x85]] ∧
      accepted (LoopEvent.writes m'.log) = [pingReport.packet] := by
  have hok : ((turns replay (Card.applets CardRouter.idleCrypto 1) sampleBuild (fun _ => .ok [])
      1).run pingLoop).1 = .ok () := by decide +kernel
  have hevents : LoopEvent.events ((turns replay (Card.applets CardRouter.idleCrypto 1) sampleBuild
      (fun _ => .ok []) 1).run pingLoop).2.log = [[.packet selectXfr], []] := by decide +kernel
  obtain ⟨hcard, -, -⟩ := interfaces_apart replay (Card.applets CardRouter.idleCrypto 1)
    sampleBuild (fun _ => .ok []) 1 pingLoop _ rfl rfl (Prod.ext hok rfl)
  rw [hevents] at hcard
  exact ⟨_, Prod.ext hok rfl, hcard, by decide +kernel, by decide +kernel⟩

end MainLoop

end OpenKey
