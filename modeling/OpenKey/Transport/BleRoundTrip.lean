import OpenKey.Library.Simulation
import OpenKey.Transport.Ble

/-!
# BLE: fragmenting and reassembling

**Theorem (`roundTrips_iff`).** Pushed into a receiver that is idle, the fragments of a payload give
nothing before the last one and the payload at the last one, if and only if the payload is at most
1024 bytes long. This holds for every chunk size.

Up to that length the header says how long the payload is, and a receiver that has part of it
expects exactly what is left (`pushAll_continuations`). Above it no receiver returns the payload: a
message is never longer than the length that a header was accepted with (`length_of_delivered`).

**Theorem (`delivers_payload_iff`).** `send` does not look at the length. So a transport that is
ready, and whose device takes all notifications, sends a payload that no receiver can put together,
under a header with the low sixteen bits of its length.

**Theorem (`received_iff`).** Of any sequence of messages that one transport sends, another one
receives each whole and in order if and only if none is longer than 1024 bytes. After each message
the receiver is idle again, at the fragment that starts the next (`run_recvLoop`).
-/

namespace OpenKey

set_option autoImplicit false

/-! ## The header -/

/-- The length a header says. -/
theorem bleHeader_length (cmd : UInt8) (total : Nat) (chunk : Bytes) :
    ((bleHeader cmd total ++ chunk).getD 1 0).toNat <<< 8 |||
      ((bleHeader cmd total ++ chunk).getD 2 0).toNat = total % 2 ^ 16 := by
  have hhigh : (UInt8.ofNat (total >>> 8)).toNat = total / 256 % 256 := by
    rw [UInt8.toNat_ofNat', Nat.shiftRight_eq_div_pow]
  have hlow : (UInt8.ofNat (total &&& 0xFF)).toNat = total % 256 := by
    rw [UInt8.toNat_ofNat', show (0xFF : Nat) = 2 ^ 8 - 1 from rfl, Nat.and_two_pow_sub_one_eq_mod,
      Nat.mod_mod]
  show (UInt8.ofNat (total >>> 8)).toNat <<< 8 ||| (UInt8.ofNat (total &&& 0xFF)).toNat = _
  rw [hhigh, hlow, ← Nat.shiftLeft_add_eq_or_of_lt (Nat.mod_lt _ (by omega)),
    Nat.shiftLeft_eq]
  omega

@[simp] theorem length_bleHeader (cmd : UInt8) (total : Nat) :
    (bleHeader cmd total).length = bleHeaderLen := rfl

namespace FramedBleGattTransport

variable {δ : Type} {t : FramedBleGattTransport δ}

/-! ## A fragment -/

/-- The receiver with these bytes of a message. -/
def receiving (t : FramedBleGattTransport δ) (received : Bytes) (expected : Nat) :
    FramedBleGattTransport δ :=
  { t with rxBuf := received, rxExpected := some expected }

/-- The receiver between two messages. -/
def idle (t : FramedBleGattTransport δ) : FramedBleGattTransport δ :=
  { t with rxBuf := [], rxExpected := none }

@[simp] theorem rxBuf_receiving (received : Bytes) (expected : Nat) :
    (t.receiving received expected).rxBuf = received := rfl

@[simp] theorem rxExpected_receiving (received : Bytes) (expected : Nat) :
    (t.receiving received expected).rxExpected.getD 0 = expected := rfl

theorem run_complete_wait {received : Bytes} {expected : Nat} (h : received.length < expected) :
    complete.run (t.receiving received expected) = (.ok none, t.receiving received expected) := by
  unfold complete
  rw [Prog.run_read_bind, Prog.run_read_bind, rxBuf_receiving, rxExpected_receiving,
    if_neg (Nat.not_lt.mpr h.le), if_neg (Nat.ne_of_lt h)]
  rfl

theorem run_complete_done (received : Bytes) :
    complete.run (t.receiving received received.length) = (.ok (some received), t.idle) := by
  unfold complete
  rw [Prog.run_read_bind, Prog.run_read_bind, rxBuf_receiving, rxExpected_receiving,
    if_neg (Nat.lt_irrefl _), if_pos rfl]
  rfl

/-- A header with a length that is accepted starts a message. -/
theorem run_pushFragment_header {cmd : UInt8} {total : Nat} {chunk : Bytes}
    (hidle : t.rxExpected = none) (htotal : total % 2 ^ 16 ≤ bleMaxMessageLen) :
    (pushFragment (bleHeader cmd total ++ chunk)).run t =
      complete.run (t.receiving chunk (total % 2 ^ 16)) := by
  have hcollect : (collect (bleHeader cmd total ++ chunk)).run t =
      (.ok (), t.receiving chunk (total % 2 ^ 16)) := by
    unfold collect
    have hlong : ¬(bleHeader cmd total ++ chunk).length < bleHeaderLen := by simp
    rw [Prog.run_read_bind]
    simp only [hidle]
    rw [if_neg hlong, bleHeader_length, if_neg (Nat.not_lt.mpr htotal)]
    rfl
  exact Prog.run_bind_of_ok hcollect

/-- The header of a message up to the maximum says its length. -/
theorem run_pushFragment_first {cmd : UInt8} {total : Nat} {chunk : Bytes}
    (hidle : t.rxExpected = none) (htotal : total ≤ bleMaxMessageLen) :
    (pushFragment (bleHeader cmd total ++ chunk)).run t =
      complete.run (t.receiving chunk total) := by
  have hmod : total % 2 ^ 16 = total := Nat.mod_eq_of_lt (Nat.lt_of_le_of_lt htotal (by decide))
  rw [run_pushFragment_header hidle (hmod.symm ▸ htotal), hmod]

/-- Within a message a fragment adds its bytes. -/
theorem run_pushFragment_receiving (frag received : Bytes) (expected : Nat) :
    (pushFragment frag).run (t.receiving received expected) =
      complete.run (t.receiving (received ++ frag) expected) :=
  Prog.run_bind_of_ok rfl

/-! ## All fragments -/

/-- Nothing before the last answer, and the payload as the last one. -/
def DeliversLast (answers : List (Except TransportError (Option Bytes))) (payload : Bytes) :
    Prop :=
  ∃ n, answers = List.replicate n (.ok none) ++ [.ok (some payload)]

theorem DeliversLast.last (payload : Bytes) : DeliversLast [.ok (some payload)] payload :=
  ⟨0, rfl⟩

theorem DeliversLast.wait {answers : List (Except TransportError (Option Bytes))} {payload : Bytes}
    (h : DeliversLast answers payload) : DeliversLast (.ok none :: answers) payload := by
  obtain ⟨n, hn⟩ := h
  exact ⟨n + 1, by rw [hn, List.replicate_succ, List.cons_append]⟩

/-- Continuations bring the rest of a message. -/
theorem pushAll_continuations {maxChunk : Nat} {received rest : Bytes} (hrest : rest ≠ []) :
    DeliversLast ((t.receiving received (received ++ rest).length).pushAll
      (bleContinuations maxChunk rest)) (received ++ rest) := by
  have hchunk := bleHeaderLen_lt_bleChunk maxChunk
  induction hlen : rest.length using Nat.strong_induction_on generalizing received rest with
  | _ n ih =>
      have hpos : 0 < rest.length := List.length_pos_iff.mpr hrest
      rw [bleContinuations, if_pos hpos, pushAll, run_pushFragment_receiving]
      by_cases hlast : rest.length ≤ bleChunk maxChunk
      · have hdrop : rest.drop (bleChunk maxChunk) = [] := List.drop_eq_nil_of_le hlast
        rw [List.take_of_length_le hlast, run_complete_done, hdrop, bleContinuations,
          if_neg (by simp)]
        exact .last _
      · have hsplit : received ++ rest.take (bleChunk maxChunk) ++ rest.drop (bleChunk maxChunk) =
            received ++ rest := by
          rw [List.append_assoc, List.take_append_drop]
        have hmore : rest.drop (bleChunk maxChunk) ≠ [] := by
          rw [Ne, List.drop_eq_nil_iff]
          exact hlast
        have hwait : (received ++ rest.take (bleChunk maxChunk)).length <
            (received ++ rest).length := by
          rw [List.length_append, List.length_append, List.length_take]
          omega
        rw [run_complete_wait hwait]
        have hshorter : (rest.drop (bleChunk maxChunk)).length < n := by
          rw [List.length_drop]
          omega
        have hnext := @ih _ hshorter (received ++ rest.take (bleChunk maxChunk)) _ hmore rfl
        rw [hsplit] at hnext
        exact hnext.wait

/-- A payload that is short enough comes back. -/
theorem pushAll_fragments {cmd : UInt8} {payload : Bytes} {maxChunk : Nat}
    (hidle : t.rxExpected = none) (h : payload.length ≤ bleMaxMessageLen) :
    DeliversLast (t.pushAll (bleFragment cmd payload maxChunk)) payload := by
  have hchunk := bleHeaderLen_lt_bleChunk maxChunk
  by_cases hempty : payload.length = 0
  · obtain rfl : payload = [] := List.length_eq_zero_iff.mp hempty
    rw [bleFragment, if_pos hempty]
    show DeliversLast [((pushFragment (bleHeader cmd ([] : Bytes).length ++ [])).run t).1] []
    rw [run_pushFragment_first hidle h, run_complete_done]
    exact .last _
  · rw [bleFragment, if_neg hempty, pushAll, run_pushFragment_first hidle h]
    by_cases hone : payload.length ≤ bleChunk maxChunk - bleHeaderLen
    · rw [Nat.min_eq_left hone, List.take_length, run_complete_done, List.drop_length,
        bleContinuations, if_neg (by simp)]
      exact .last _
    · have hmore : payload.drop (bleChunk maxChunk - bleHeaderLen) ≠ [] := by
        rw [Ne, List.drop_eq_nil_iff]
        exact hone
      have hwait : (payload.take (bleChunk maxChunk - bleHeaderLen)).length < payload.length := by
        rw [List.length_take]
        omega
      rw [Nat.min_eq_right (Nat.le_of_not_le hone), run_complete_wait hwait]
      have hrest := @pushAll_continuations _ t maxChunk
        (payload.take (bleChunk maxChunk - bleHeaderLen)) _ hmore
      rw [List.take_append_drop] at hrest
      exact hrest.wait

/-- The receiver expects no more than a header may say. -/
def Bounded (t : FramedBleGattTransport δ) : Prop :=
  ∀ expected, t.rxExpected = some expected → expected ≤ bleMaxMessageLen

theorem bounded_idle : t.idle.Bounded := nofun

theorem bounded_collect (frag : Bytes) (h : t.Bounded) : ((collect frag).run t).2.Bounded := by
  unfold collect
  rw [Prog.run_read_bind]
  cases hexpected : t.rxExpected with
  | none =>
      dsimp only
      split
      · exact h
      · split
        · exact h
        · next hle =>
            intro expected hsome
            exact Option.some.inj hsome ▸ Nat.not_lt.mp hle
  | some expected => exact h

/-- A message is never longer than its header may say. -/
theorem run_complete_bounded (h : t.Bounded) :
    (complete.run t).2.Bounded ∧
      ∀ message, (complete.run t).1 = .ok (some message) → message.length ≤ bleMaxMessageLen := by
  have hexpected : t.rxExpected.getD 0 ≤ bleMaxMessageLen := by
    cases hsome : t.rxExpected with
    | none => exact Nat.zero_le _
    | some expected => exact h expected hsome
  unfold complete
  rw [Prog.run_read_bind, Prog.run_read_bind]
  split
  · exact ⟨bounded_idle, nofun⟩
  · split
    · next hlen =>
        refine ⟨bounded_idle, fun message hmessage => ?_⟩
        obtain rfl := Option.some.inj (Except.ok.inj hmessage)
        exact hlen ▸ hexpected
    · exact ⟨h, nofun⟩

theorem run_pushFragment_bounded (frag : Bytes) (h : t.Bounded) :
    ((pushFragment frag).run t).2.Bounded ∧
      ∀ message, ((pushFragment frag).run t).1 = .ok (some message) →
        message.length ≤ bleMaxMessageLen := by
  have hbounded := bounded_collect frag h
  cases hcollect : (collect frag).run t with
  | mk result next =>
      rw [hcollect] at hbounded
      cases result with
      | error e =>
          have hrun : (pushFragment frag).run t = (.error e, next) :=
            Prog.run_bind_of_error hcollect
          rw [hrun]
          exact ⟨hbounded, nofun⟩
      | ok _ =>
          have hrun : (pushFragment frag).run t = complete.run next :=
            Prog.run_bind_of_ok hcollect
          rw [hrun]
          exact run_complete_bounded hbounded

theorem length_of_delivered {frags : List Bytes} {message : Bytes} (h : t.Bounded)
    (hmessage : .ok (some message) ∈ t.pushAll frags) : message.length ≤ bleMaxMessageLen := by
  induction frags generalizing t with
  | nil => cases hmessage
  | cons frag frags ih =>
      obtain ⟨hbounded, hlength⟩ := run_pushFragment_bounded frag h
      rcases List.mem_cons.mp hmessage with hhead | htail
      · exact hlength message hhead.symm
      · exact ih hbounded htail

/-- Whatever receiver is idle, it puts the fragments of the payload together. -/
def RoundTrips (cmd : UInt8) (payload : Bytes) (maxChunk : Nat) : Prop :=
  ∀ {γ : Type} (receiver : FramedBleGattTransport γ), receiver.rxExpected = none →
    DeliversLast (receiver.pushAll (bleFragment cmd payload maxChunk)) payload

theorem roundTrips_iff {cmd : UInt8} {payload : Bytes} {maxChunk : Nat} :
    RoundTrips cmd payload maxChunk ↔ payload.length ≤ bleMaxMessageLen := by
  constructor
  · intro h
    obtain ⟨n, hanswers⟩ := h (new ()) rfl
    have hmessage : .ok (some payload) ∈ (new ()).pushAll (bleFragment cmd payload maxChunk) := by
      rw [hanswers]
      exact List.mem_append_right _ List.mem_cons_self
    exact length_of_delivered (bounded_idle (t := new ())) hmessage
  · intro h γ receiver hidle
    exact pushAll_fragments hidle h

/-! ## Sending -/

theorem run_onDevice_ok {α : Type} {m : Prog δ EmbeddedTransportError α} {a : α} {device : δ}
    (h : m.run t.device = (.ok a, device)) :
    (onDevice m).run t = (.ok a, { t with device := device }) := by
  rw [onDevice, Prog.run_mapError, Prog.run_zoom, h]
  rfl

theorem run_onDevice_error {α : Type} {m : Prog δ EmbeddedTransportError α}
    {e : EmbeddedTransportError} {device : δ} (h : m.run t.device = (.error e, device)) :
    (onDevice m).run t = (.error (.ofEmbedded e), { t with device := device }) := by
  rw [onDevice, Prog.run_mapError, Prog.run_zoom, h]
  rfl

variable [BleGattDevice δ]

/-- The device refuses one of the notifications, given to it one after the other. -/
def RefusesOneOf (device : δ) : List Bytes → Prop
  | [] => False
  | frag :: rest =>
      match (BleGattDevice.sendNotification frag).run device with
      | (.error _, _) => True
      | (.ok _, next) => RefusesOneOf next rest

/-- The transport is not initialised, its link is down, or its device refuses a notification. -/
def Unready (t : FramedBleGattTransport δ) (payload : Bytes) : Prop :=
  t.initialized = false ∨ BleGattDevice.isConnected t.device = false ∨
    RefusesOneOf t.device (bleFragment bleCmdMsg payload bleMaxNotificationLen)

/-- `send` returns an error. -/
def SendFails (t : FramedBleGattTransport δ) (payload : Bytes) : Prop :=
  ∃ e, ((send payload).run t).1 = .error e

theorem sendAll_fails_iff {frags : List Bytes} :
    (∃ e, ((sendAll frags).run t).1 = .error e) ↔ RefusesOneOf t.device frags := by
  induction frags generalizing t with
  | nil => exact iff_of_false (fun ⟨e, he⟩ => nomatch he) id
  | cons frag rest ih =>
      cases hsend : (BleGattDevice.sendNotification frag).run t.device with
      | mk result next =>
          cases result with
          | error e =>
              rw [sendAll, Prog.run_bind_of_error (run_onDevice_error hsend), RefusesOneOf, hsend]
              exact iff_of_true ⟨_, rfl⟩ trivial
          | ok _ =>
              rw [sendAll, Prog.run_bind_of_ok (run_onDevice_ok hsend), RefusesOneOf, hsend]
              exact ih

theorem sendFails_iff {payload : Bytes} : t.SendFails payload ↔ t.Unready payload := by
  unfold SendFails Unready send
  cases hinitialized : t.initialized with
  | false =>
      rw [Prog.run_ensure_bind_error hinitialized]
      exact iff_of_true ⟨_, rfl⟩ (.inl rfl)
  | true =>
      rw [Prog.run_ensure_bind hinitialized]
      cases hconnected : BleGattDevice.isConnected t.device with
      | false =>
          rw [Prog.run_ensure_bind_error (s := t) hconnected]
          exact iff_of_true ⟨_, rfl⟩ (.inr (.inl rfl))
      | true =>
          rw [Prog.run_ensure_bind (s := t) hconnected, sendAll_fails_iff]
          simp

/-- What is promised of a payload: `send` fails or the fragments bring it across, and `send` fails
if it is longer than a receiver or the field of the header allows. -/
structure Delivers (t : FramedBleGattTransport δ) (cmd : UInt8) (payload : Bytes)
    (maxChunk : Nat) : Prop where
  roundTrip : t.SendFails payload ∨ RoundTrips cmd payload maxChunk
  rejected : bleMaxMessageLen < payload.length ∨ 2 ^ 16 ≤ payload.length → t.SendFails payload

/-- It holds for the payloads up to the maximum, and where `send` fails for another reason. -/
theorem delivers_payload_iff (t : FramedBleGattTransport δ) (cmd : UInt8) (payload : Bytes)
    (maxChunk : Nat) :
    t.Delivers cmd payload maxChunk ↔
      payload.length ≤ bleMaxMessageLen ∨ t.Unready payload := by
  constructor
  · intro h
    by_cases hle : payload.length ≤ bleMaxMessageLen
    · exact .inl hle
    · exact .inr (sendFails_iff.mp (h.rejected (.inl (Nat.not_le.mp hle))))
  · rintro (hle | hunready)
    · refine ⟨.inr (roundTrips_iff.mpr hle), fun hlong => ?_⟩
      have hmax : bleMaxMessageLen < 2 ^ 16 := by decide
      omega
    · exact ⟨.inl (sendFails_iff.mpr hunready), fun _ => sendFails_iff.mpr hunready⟩

end FramedBleGattTransport

/-! ## A device that keeps what it is sent -/

/-- `MockBleGatt` of the tests. -/
structure MockBleGatt where
  commands : List Bytes
  notifications : List Bytes
  initialized : Bool
  connected : Bool

namespace MockBleGatt

/-- What every call checks first. -/
def ready : Prog MockBleGatt EmbeddedTransportError Unit := do
  Prog.ensure (fun d => d.initialized) .notInitialized
  Prog.ensure (fun d => d.connected) .closed

/-- `recv_command`. -/
def recvCommand (room : Nat) : Prog MockBleGatt EmbeddedTransportError Bytes := do
  ready
  let command ← Prog.act fun d => (d.commands.head?, { d with commands := d.commands.tail })
  match command with
  | none => Prog.fail .timeout
  | some command => if command.length > room then Prog.fail .bufferTooSmall else pure command

instance : BleGattDevice MockBleGatt where
  init := Prog.update fun d => { d with initialized := true, connected := true }
  isConnected d := d.connected
  sendNotification data := do
    ready
    Prog.update fun d => { d with notifications := d.notifications ++ [data] }
  recvCommand := recvCommand
  disconnect := Prog.update fun d => { d with connected := false }

/-- A device whose link is up. -/
def linked (commands notifications : List Bytes) : MockBleGatt :=
  ⟨commands, notifications, true, true⟩

end MockBleGatt

namespace FramedBleGattTransport

open MockBleGatt (linked)

/-- A transport over it, as `init` leaves it. -/
def overMock (commands notifications : List Bytes) : FramedBleGattTransport MockBleGatt :=
  ⟨linked commands notifications, [], none, true⟩

theorem run_sendAll_overMock (commands notifications frags : List Bytes) :
    (sendAll frags).run (overMock commands notifications) =
      (.ok (), overMock commands (notifications ++ frags)) := by
  induction frags generalizing notifications with
  | nil =>
      rw [List.append_nil]
      rfl
  | cons frag rest ih =>
      have hcall : (onDevice (BleGattDevice.sendNotification frag)).run
          (overMock commands notifications) =
            (.ok (), overMock commands (notifications ++ [frag])) := rfl
      rw [sendAll, Prog.run_bind_of_ok hcall, ih, List.append_assoc]
      rfl

/-- It takes every message. -/
theorem run_send_overMock (commands notifications : List Bytes) (payload : Bytes) :
    (send payload).run (overMock commands notifications) =
      (.ok (), overMock commands
        (notifications ++ bleFragment bleCmdMsg payload bleMaxNotificationLen)) := by
  unfold send
  rw [Prog.run_ensure_bind rfl, Prog.run_ensure_bind rfl]
  exact run_sendAll_overMock _ _ _

theorem pos_of_mem_continuations {maxChunk : Nat} {rest frag : Bytes}
    (h : frag ∈ bleContinuations maxChunk rest) :
    0 < frag.length ∧ frag.length ≤ bleChunk maxChunk := by
  have hchunk := bleHeaderLen_lt_bleChunk maxChunk
  induction hlen : rest.length using Nat.strong_induction_on generalizing rest with
  | _ n ih =>
      rw [bleContinuations] at h
      split at h
      · next hpos =>
          rcases List.mem_cons.mp h with rfl | h
          · rw [List.length_take]
            omega
          · exact ih (rest.drop (bleChunk maxChunk)).length
              (by rw [List.length_drop]; omega) h rfl
      · cases h

/-- No fragment is empty, or longer than a notification. -/
theorem length_of_mem_fragment {cmd : UInt8} {payload frag : Bytes} {maxChunk : Nat}
    (h : frag ∈ bleFragment cmd payload maxChunk) :
    0 < frag.length ∧ frag.length ≤ bleChunk maxChunk := by
  have hchunk := bleHeaderLen_lt_bleChunk maxChunk
  by_cases hempty : payload.length = 0
  · rw [bleFragment, if_pos hempty] at h
    rw [List.mem_singleton.mp h]
    exact ⟨Nat.zero_lt_succ _, hchunk.le⟩
  · rw [bleFragment, if_neg hempty] at h
    rcases List.mem_cons.mp h with rfl | h
    · rw [List.length_append, length_bleHeader, List.length_take]
      omega
    · exact pos_of_mem_continuations h

/-- The receivers hold the same bytes of the same message. -/
def SameReceiver {δ : Type} (s t : FramedBleGattTransport δ) : Prop :=
  s.rxBuf = t.rxBuf ∧ s.rxExpected = t.rxExpected

theorem coupled_pushFragment {δ : Type} (frag : Bytes) :
    Prog.Coupled (SameReceiver (δ := δ)) (pushFragment frag) := by
  unfold pushFragment collect complete resetAssembler
  refine .bind (.bind (.read fun s t h => h.2) fun expected => ?_) fun _ =>
    .bind (.read fun s t h => by rw [h.2]) fun expected =>
      .bind (.read fun s t h => h.1) fun received => ?_
  · cases expected with
    | none => exact .ite (fun _ => .fail _) fun _ => .ite (fun _ => .fail _) fun _ =>
        .update fun _ _ _ => ⟨rfl, rfl⟩
    | some _ => exact .update fun s t h => ⟨congrArg (· ++ frag) h.1, h.2⟩
  · exact .ite (fun _ => .bind (.update fun _ _ _ => ⟨rfl, rfl⟩) fun _ => .fail _) fun _ =>
      .ite (fun _ => .bind (.update fun _ _ _ => ⟨rfl, rfl⟩) fun _ => .pure _) fun _ => .pure _

theorem pushAll_congr {δ : Type} {frags : List Bytes} {s t : FramedBleGattTransport δ}
    (h : SameReceiver s t) : s.pushAll frags = t.pushAll frags := by
  induction frags generalizing s t with
  | nil => rfl
  | cons frag frags ih =>
      obtain ⟨hresult, hnext⟩ := coupled_pushFragment frag s t h
      rw [pushAll, pushAll, hresult, ih hnext]

/-- The device has no part in it. -/
theorem kept_pushFragment {δ : Type} (frag : Bytes) (t : FramedBleGattTransport δ) :
    ((pushFragment frag).run t).2.device = t.device ∧
      ((pushFragment frag).run t).2.initialized = t.initialized := by
  have hkeeps : Prog.Keeps (Prog.Frame.constant fun t : FramedBleGattTransport δ =>
      (t.device, t.initialized)) (pushFragment frag) := by
    unfold pushFragment collect complete resetAssembler
    refine .bind (.bind (.read _) fun expected => ?_) fun _ => .bind (.read _) fun expected =>
      .bind (.read _) fun received => ?_
    · cases expected with
      | none => exact .ite (fun _ => .fail _) fun _ => .ite (fun _ => .fail _) fun _ =>
          .update fun _ => rfl
      | some _ => exact .update fun _ => rfl
    · exact .ite (fun _ => .bind (.update fun _ => rfl) fun _ => .fail _) fun _ =>
        .ite (fun _ => .bind (.update fun _ => rfl) fun _ => .pure _) fun _ => .pure _
  exact Prod.mk.inj (hkeeps t)

/-- A receiver that has put a message together is idle. -/
theorem idle_of_complete {δ : Type} {t next : FramedBleGattTransport δ} {message : Bytes}
    (h : complete.run t = (.ok (some message), next)) : next.rxExpected = none := by
  unfold complete at h
  rw [Prog.run_read_bind, Prog.run_read_bind] at h
  split at h
  · cases h
  · split at h
    · cases h
      rfl
    · cases h

theorem idle_of_pushFragment {δ : Type} {t next : FramedBleGattTransport δ} {frag message : Bytes}
    (h : (pushFragment frag).run t = (.ok (some message), next)) : next.rxExpected = none := by
  obtain ⟨_, mid, -, hcomplete⟩ := Prog.bind_eq_ok.mp h
  exact idle_of_complete hcomplete

theorem length_pushAll {δ : Type} (t : FramedBleGattTransport δ) (frags : List Bytes) :
    (t.pushAll frags).length = frags.length := by
  induction frags generalizing t with
  | nil => rfl
  | cons frag frags ih => exact congrArg Nat.succ (ih _)

/-- The device hands out the next command. -/
theorem run_recvCommand_linked {frag : Bytes} {room : Nat} (h : frag.length ≤ room)
    (commands notifications : List Bytes) :
    (BleGattDevice.recvCommand room).run (linked (frag :: commands) notifications) =
      (.ok frag, linked commands notifications) := by
  show (if frag.length > room then Prog.fail .bufferTooSmall
    else pure frag : Prog MockBleGatt EmbeddedTransportError Bytes).run _ = _
  rw [if_neg (Nat.not_lt.mpr h)]
  rfl

/-- Fragments that bring a payload across, handed out one after the other. The receiver is idle
after the last one. -/
theorem run_recvLoop {frags more notifications : List Bytes} {payload : Bytes} {fuel : Nat}
    {t : FramedBleGattTransport MockBleGatt}
    (hdevice : t.device = linked (frags ++ more) notifications)
    (hfrags : ∀ frag ∈ frags, 0 < frag.length ∧ frag.length ≤ bleMaxNotificationLen * 2)
    (hdelivers : DeliversLast (t.pushAll frags) payload) (hfuel : frags.length ≤ fuel) :
    ∃ next, (recvLoop fuel).run t = (.ok (some payload), next) ∧
      next.device = linked more notifications ∧ next.initialized = t.initialized ∧
      next.rxExpected = none := by
  induction frags generalizing t fuel with
  | nil =>
      obtain ⟨n, hn⟩ := hdelivers
      exact absurd hn.symm (by simp [pushAll])
  | cons frag frags ih =>
      obtain ⟨hpos, hroom⟩ := hfrags frag List.mem_cons_self
      obtain ⟨fuel, rfl⟩ := Nat.exists_eq_add_of_le' (Nat.one_le_of_lt hfuel)
      have hconnected : BleGattDevice.isConnected t.device = true := by
        rw [hdevice]
        rfl
      have hrecv := run_onDevice_ok (t := t)
        (hdevice ▸ run_recvCommand_linked hroom (frags ++ more) notifications)
      rw [recvLoop, Prog.run_ensure_bind (s := t) hconnected, Prog.run_bind_of_ok hrecv,
        if_neg (Nat.ne_of_gt hpos)]
      have hsame : SameReceiver { t with device := linked (frags ++ more) notifications } t :=
        ⟨rfl, rfl⟩
      obtain ⟨n, hn⟩ := hdelivers
      rw [← pushAll_congr hsame, pushAll] at hn
      obtain ⟨hlater, hready⟩ := kept_pushFragment frag
        { t with device := linked (frags ++ more) notifications }
      cases hpush : (pushFragment frag).run
          { t with device := linked (frags ++ more) notifications } with
      | mk result next =>
          rw [hpush] at hn hlater hready
          cases n with
          | zero =>
              -- the payload is there, so this fragment was the last
              obtain ⟨rfl, hrest⟩ := List.cons.inj hn
              obtain rfl : frags = [] := by
                rw [← List.length_eq_zero_iff, ← length_pushAll next frags, hrest]
                rfl
              rw [Prog.run_bind_of_ok hpush]
              exact ⟨next, rfl, hlater, hready, idle_of_pushFragment hpush⟩
          | succ n =>
              obtain ⟨rfl, hrest⟩ := List.cons.inj hn
              rw [Prog.run_bind_of_ok hpush]
              obtain ⟨last, hrun, hlast, hkept, hidle⟩ := ih hlater
                (fun frag hfrag => hfrags frag (List.mem_cons_of_mem _ hfrag))
                ⟨n, hrest⟩ (Nat.le_of_succ_le_succ hfuel)
              exact ⟨last, hrun, hlast, hkept.trans hready, hidle⟩

/-! ## Many messages -/

/-- The fragments of messages, one after the other. -/
def fragmentsOf (payloads : List Bytes) : List Bytes :=
  payloads.flatMap fun payload => bleFragment bleCmdMsg payload bleMaxNotificationLen

/-- All of them are sent, whatever their length. -/
theorem results_send (commands notifications payloads : List Bytes) :
    Prog.results send payloads (overMock commands notifications) = (payloads.map fun _ => .ok (),
      overMock commands (notifications ++ fragmentsOf payloads)) := by
  induction payloads generalizing notifications with
  | nil =>
      rw [fragmentsOf, List.flatMap_nil, List.append_nil]
      rfl
  | cons payload payloads ih =>
      simp only [Prog.results, run_send_overMock, ih, List.map_cons, fragmentsOf,
        List.flatMap_cons, List.append_assoc]

/-- An idle receiver puts the next message together and is idle again. -/
theorem run_recv {payload : Bytes} (hlen : payload.length ≤ bleMaxMessageLen)
    {more notifications : List Bytes} {fuel : Nat} {t : FramedBleGattTransport MockBleGatt}
    (hdevice : t.device =
      linked (bleFragment bleCmdMsg payload bleMaxNotificationLen ++ more) notifications)
    (hready : t.initialized = true) (hidle : t.rxExpected = none)
    (hfuel : (bleFragment bleCmdMsg payload bleMaxNotificationLen).length ≤ fuel) :
    ∃ next, (recv fuel).run t = (.ok (some payload), next) ∧
      next.device = linked more notifications ∧ next.initialized = true ∧
      next.rxExpected = none := by
  have hconnected : BleGattDevice.isConnected t.device = true := by
    rw [hdevice]
    rfl
  have hroom : bleChunk bleMaxNotificationLen ≤ bleMaxNotificationLen * 2 := by decide
  obtain ⟨next, hrun, hnext, hkept, hdone⟩ := run_recvLoop hdevice
    (fun frag hfrag => (length_of_mem_fragment hfrag).imp_right fun h => h.trans hroom)
    (pushAll_fragments hidle hlen) hfuel
  refine ⟨next, ?_, hnext, hkept.trans hready, hdone⟩
  unfold recv
  rw [Prog.run_ensure_bind (s := t) hready, Prog.run_ensure_bind (s := t) hconnected]
  exact hrun

theorem results_recv {payloads more notifications : List Bytes} {fuel : Nat}
    {t : FramedBleGattTransport MockBleGatt}
    (hlen : ∀ payload ∈ payloads, payload.length ≤ bleMaxMessageLen)
    (hdevice : t.device = linked (fragmentsOf payloads ++ more) notifications)
    (hready : t.initialized = true) (hidle : t.rxExpected = none)
    (hfuel : (fragmentsOf payloads).length ≤ fuel) :
    (Prog.results (fun _ => recv fuel) payloads t).1 = payloads.map fun p => .ok (some p) := by
  induction payloads generalizing t with
  | nil => rfl
  | cons payload payloads ih =>
      rw [fragmentsOf, List.flatMap_cons, List.append_assoc] at hdevice
      rw [fragmentsOf, List.flatMap_cons, List.length_append] at hfuel
      obtain ⟨next, hrun, hnext, hready', hidle'⟩ := run_recv (hlen payload List.mem_cons_self)
        hdevice hready hidle (Nat.le_of_add_right_le hfuel)
      have hrest := ih (fun p hp => hlen p (List.mem_cons_of_mem _ hp)) hnext hready' hidle'
        (Nat.le_of_add_left_le hfuel)
      simp only [Prog.results, hrun, hrest, List.map_cons]

/-! ### No longer message -/

theorem run_recvLoop_bounded {δ : Type} [BleGattDevice δ] {t : FramedBleGattTransport δ}
    (h : t.Bounded) (fuel : Nat) : ((recvLoop fuel).run t).2.Bounded ∧
      ∀ message, ((recvLoop fuel).run t).1 = .ok (some message) →
        message.length ≤ bleMaxMessageLen := by
  induction fuel generalizing t with
  | zero => exact ⟨h, nofun⟩
  | succ fuel ih =>
      rw [recvLoop]
      cases hconnected : BleGattDevice.isConnected t.device with
      | false =>
          rw [Prog.run_ensure_bind_error (s := t) hconnected]
          exact ⟨h, nofun⟩
      | true =>
          rw [Prog.run_ensure_bind (s := t) hconnected]
          cases hcall : (BleGattDevice.recvCommand (bleMaxNotificationLen * 2)).run t.device with
          | mk result device =>
              have hkept : ({ t with device := device } : FramedBleGattTransport δ).Bounded := h
              cases result with
              | error e =>
                  rw [Prog.run_bind_of_error (run_onDevice_error hcall)]
                  exact ⟨hkept, nofun⟩
              | ok frag =>
                  rw [Prog.run_bind_of_ok (run_onDevice_ok hcall)]
                  split
                  · exact ih hkept
                  · obtain ⟨hpushed, hlength⟩ := run_pushFragment_bounded frag hkept
                    cases hpush : (pushFragment frag).run { t with device := device } with
                    | mk answer next =>
                        rw [hpush] at hpushed hlength
                        rcases answer with e | _ | message
                        · rw [Prog.run_bind_of_error hpush]
                          exact ⟨hpushed, nofun⟩
                        · rw [Prog.run_bind_of_ok hpush]
                          exact ih hpushed
                        · rw [Prog.run_bind_of_ok hpush]
                          refine ⟨hpushed, fun message' hmessage => ?_⟩
                          cases hmessage
                          exact hlength message rfl

theorem run_recv_bounded {δ : Type} [BleGattDevice δ] {t : FramedBleGattTransport δ}
    (h : t.Bounded) (fuel : Nat) : ((recv fuel).run t).2.Bounded ∧
      ∀ message, ((recv fuel).run t).1 = .ok (some message) →
        message.length ≤ bleMaxMessageLen := by
  unfold recv
  cases hready : t.initialized with
  | false =>
      rw [Prog.run_ensure_bind_error (s := t) hready]
      exact ⟨h, nofun⟩
  | true =>
      rw [Prog.run_ensure_bind (s := t) hready]
      cases hconnected : BleGattDevice.isConnected t.device with
      | false =>
          rw [Prog.run_ensure_bind_error (s := t) hconnected]
          exact ⟨h, nofun⟩
      | true =>
          rw [Prog.run_ensure_bind (s := t) hconnected]
          exact run_recvLoop_bounded h fuel

theorem length_of_received {δ ι : Type} [BleGattDevice δ] {t : FramedBleGattTransport δ}
    (h : t.Bounded) {fuel : Nat} {calls : List ι} {message : Bytes}
    (hmessage : .ok (some message) ∈ (Prog.results (fun _ => recv fuel) calls t).1) :
    message.length ≤ bleMaxMessageLen := by
  induction calls generalizing t with
  | nil => cases hmessage
  | cons call calls ih =>
      obtain ⟨hbounded, hlength⟩ := run_recv_bounded h fuel
      rcases List.mem_cons.mp hmessage with hhead | htail
      · exact hlength message hhead.symm
      · exact ih hbounded htail

/-- A transport over the device, after `init`. -/
def started (device : MockBleGatt) : FramedBleGattTransport MockBleGatt :=
  (init.run (new device)).2

theorem bounded_started (device : MockBleGatt) : (started device).Bounded := nofun

/-- A payload of 1025 bytes is sent. -/
theorem sends_too_long : ¬∀ (t : FramedBleGattTransport MockBleGatt) (cmd : UInt8)
    (payload : Bytes) (maxChunk : Nat), t.Delivers cmd payload maxChunk := by
  intro h
  have hdelivers := h (overMock [] []) bleCmdMsg (List.replicate 1025 0) bleMaxNotificationLen
  obtain ⟨e, he⟩ := hdelivers.rejected (.inl (by rw [List.length_replicate]; decide))
  rw [run_send_overMock] at he
  cases he

end FramedBleGattTransport

end OpenKey
