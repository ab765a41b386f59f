import OpenKey.Device.AppletRuns
import OpenKey.Device.KnownAead
import OpenKey.Device.PivChanges

/-!
# The PIN of the PIV applet

VERIFY and CHANGE REFERENCE DATA share one counter of retries, which is in the persisted state; that
a PIN was right is in the session.

**The PIN (`pin_machine`).** Over a storage that does not fail the counter and the PINs that are
presented move together (`PinMove`). A verified session has retries left. Wrong PINs use up the
counter, and only the right one fills it again; once it is zero it stays zero, over reboots under
the same master key too, and every PIN is refused. Slot `9A` works for a verified session only. A
boot under another key makes a new state with all retries (`pin_returns_after_power_cycle`).
-/

namespace OpenKey

open Command
open AppletName (Machine Account)

set_option autoImplicit false

namespace Piv

/-! ## The applet in runs -/

theorem length_serialize (state : PivState) : state.serialize.length < 2 ^ 36 := by
  have hpin := state.pin_ok.2
  have hkeys := length_le_slots state.keys_ok
  have hcerts := length_le_slots state.certs_ok
  have hkey : (state.keys.flatMap PivState.serializeKey).length ≤ 2 ^ 18 * state.keys.length :=
    Bytes.length_flatMap_le fun key _ => by
      obtain ⟨hpriv, hpub⟩ := key.key.length_lt
      simp only [PivState.serializeKey, ResidentKey.serialize, List.length_append,
        List.length_singleton, Bytes.length_beBytes]
      omega
  have hcert : (state.certs.flatMap PivState.serializeCert).length ≤ 2 ^ 18 * state.certs.length :=
    Bytes.length_flatMap_le fun cert _ => by
      have hder := cert.der_ok.2
      simp only [PivState.serializeCert, List.length_append, List.length_singleton,
        Bytes.length_beBytes]
      omega
  simp only [PivState.serialize, List.length_cons, List.length_append, List.length_nil,
    Bytes.length_beBytes]
  omega

/-- What the PIV applet does. -/
def account (patience : Nat) : Account .piv patience where
  change := pivChange
  made := .factory
  factory := rfl
  length := length_serialize
  process := ends_pivProcess
  select := fun hmem => .ensureLoaded hmem rfl

/-! ## PINs -/

/-- The PIN that a command presents, if it comes to the comparison. -/
def presents (state : PivState) (apdu : Apdu) : Option Bytes :=
  if apdu.cla = 0 ∧ (apdu.p1 = 0x00 ∧ apdu.p2 = 0x80) ∧ state.retries ≠ 0 then
    if apdu.ins = 0x20 ∧ apdu.data ≠ [] then some (stripPinPadding apdu.data)
    else if apdu.ins = 0x24 ∧ apdu.data.length = 16 ∧
        6 ≤ (stripPinPadding (apdu.data.drop 8)).length ∧
        (stripPinPadding (apdu.data.drop 8)).length ≤ 8 then
      some (stripPinPadding (apdu.data.take 8))
    else none
  else none

/-- The PIN that an event presents is right, or wrong, if it presents one. -/
def judges (state : PivState) : AppletName.Event → Option Bool
  | .command apdu => (presents state apdu).map fun pin => decide (pin = state.pin)
  | _ => none

/-- What an event that presents a PIN, or none, does to the retries and the session. -/
inductive PinMove (state new : PivState) (session session' : PivSession) : Option Bool → Prop
  | right (full : new.retries = 3) : PinMove state new session session' (some true)
  | wrong (left : state.retries ≠ 0) (fewer : new.retries = oneFewer state.retries)
      (closed : session'.verified = true → new.retries ≠ 0) :
      PinMove state new session session' (some false)
  | none (same : new.retries = state.retries)
      (closed : session'.verified = true → session.verified = true) :
      PinMove state new session session' none

section

variable {state : PivState} {session : PivSession}

/-- An event moves the applet to this memory. -/
def Moves (state : PivState) (session : PivSession) (memory : Memory PivState PivSession)
    (judged : Option Bool) : Prop :=
  ∃ new, memory.state = some new ∧ PinMove state new session memory.session judged

theorem moves_missed (hleft : state.retries ≠ 0) : Moves state session
    (Change.applied ⟨some state, session⟩ (some (missed state session))) (some false) := by
  refine ⟨_, rfl, .wrong hleft rfl fun hverified hzero => ?_⟩
  have hsw : missedSw state = swSecurityStatus := if_pos hzero
  unfold missed at hverified
  simp only [Change.applied, if_pos hsw] at hverified
  cases hverified

theorem moves_presented {new : PivState} (hfull : new.retries = 3) : Moves state session
    (Change.applied ⟨some state, session⟩ (some (presented new session))) (some true) :=
  ⟨new, rfl, .right hfull⟩

theorem moves_idle : Moves state session ⟨some state, session⟩ none :=
  ⟨state, rfl, .none rfl id⟩

/-- A PIN that is compared is right or wrong. -/
theorem moves_compared (hleft : state.retries ≠ 0) {pin : Bytes} {new : PivState}
    (hfull : new.retries = 3) : Moves state session
    (Change.applied ⟨some state, session⟩ (if pin = state.pin then some (presented new session)
      else some (missed state session))) (some (decide (pin = state.pin))) := by
  by_cases hpin : pin = state.pin
  · rw [if_pos hpin, decide_eq_true hpin]
    exact moves_presented hfull
  · rw [if_neg hpin, decide_eq_false hpin]
    exact moves_missed hleft

theorem moves_verify {apdu : Apdu} (hcla : apdu.cla = 0) (hins : apdu.ins = 0x20) :
    Moves state session (Change.applied ⟨some state, session⟩ (verifyChange state session apdu))
      (judges state (.command apdu)) := by
  have hother : apdu.ins ≠ 0x24 := by rw [hins]; decide
  unfold verifyChange
  by_cases hp : (apdu.p1 = 0x00 ∧ apdu.p2 = 0x80) ∧ state.retries ≠ 0 ∧ apdu.data ≠ []
  · have hpresents : presents state apdu = some (stripPinPadding apdu.data) := by
      unfold presents
      rw [if_pos ⟨hcla, hp.1, hp.2.1⟩, if_pos ⟨hins, hp.2.2⟩]
    rw [if_pos hp]
    simp only [judges, hpresents, Option.map_some]
    exact moves_compared hp.2.1 rfl
  · have hpresents : presents state apdu = none := by
      unfold presents
      refine ite_eq_right_iff.mpr fun h => ?_
      rw [if_neg fun h' => hp ⟨h.2.1, h.2.2, h'.2⟩, if_neg fun h' => hother h'.1]
    rw [if_neg hp]
    simp only [judges, hpresents, Option.map_none]
    exact moves_idle

theorem moves_changePin {apdu : Apdu} (hcla : apdu.cla = 0) (hins : apdu.ins = 0x24) :
    Moves state session
      (Change.applied ⟨some state, session⟩ (changePinChange state session apdu))
      (judges state (.command apdu)) := by
  have hother : apdu.ins ≠ 0x20 := by rw [hins]; decide
  have hskip : ¬(apdu.ins = 0x20 ∧ apdu.data ≠ []) := fun h => hother h.1
  unfold changePinChange
  by_cases hp : (apdu.p1 = 0x00 ∧ apdu.p2 = 0x80) ∧ state.retries ≠ 0 ∧ apdu.data.length = 16
  · rw [if_pos hp]
    by_cases hnew : 6 ≤ (stripPinPadding (apdu.data.drop 8)).length ∧
        (stripPinPadding (apdu.data.drop 8)).length ≤ 8
    · have hpresents : presents state apdu = some (stripPinPadding (apdu.data.take 8)) := by
        unfold presents
        rw [if_pos ⟨hcla, hp.1, hp.2.1⟩, if_neg hskip, if_pos ⟨hins, hp.2.2, hnew⟩]
      simp only [dif_pos hnew, judges, hpresents, Option.map_some]
      exact moves_compared hp.2.1 rfl
    · have hpresents : presents state apdu = none := by
        unfold presents
        rw [if_pos ⟨hcla, hp.1, hp.2.1⟩, if_neg hskip, if_neg fun h => hnew h.2.2]
      simp only [dif_neg hnew, judges, hpresents, Option.map_none]
      exact moves_idle
  · have hpresents : presents state apdu = none := by
      unfold presents
      rw [if_neg hskip]
      refine ite_eq_right_iff.mpr fun h => if_neg fun h' => ?_
      exact hp ⟨h.2.1, h.2.2, h'.2.1⟩
    rw [if_neg hp]
    simp only [judges, hpresents, Option.map_none]
    exact moves_idle

/-- A change that has nothing to do with the PIN. -/
theorem moves_other {target : Option (Change PivState PivSession)}
    (hsame : ∀ change ∈ target, change.state.retries = state.retries ∧ change.session = session) :
    Moves state session (Change.applied ⟨some state, session⟩ target) none := by
  cases target with
  | none => exact moves_idle
  | some change =>
      obtain ⟨hretries, hsession⟩ := hsame change rfl
      refine ⟨change.state, rfl, .none hretries fun h => ?_⟩
      rw [← hsession]
      exact h

theorem moves_command (crypto : AppletCrypto) (entropy : Entropy) (apdu : Apdu) :
    Moves state session
      (Change.applied ⟨some state, session⟩ (pivChange crypto state session entropy apdu))
      (judges state (.command apdu)) := by
  unfold pivChange
  split
  · next hcla =>
      have hnone : presents state apdu = none := if_neg fun h => hcla h.1
      simp only [judges, hnone]
      exact moves_idle
  · next hcla =>
      replace hcla := not_not.mp hcla
      split
      · next hins => exact moves_verify hcla hins
      · next hverify =>
          split
          · next hins => exact moves_changePin hcla hins
          · next hchange =>
              have hnone : presents state apdu = none := by
                unfold presents
                refine ite_eq_right_iff.mpr fun _ => ?_
                rw [if_neg fun h => hverify h.1, if_neg fun h => hchange h.1]
              simp only [judges, hnone]
              refine moves_other fun change htarget => ?_
              split at htarget
              · unfold generateChange at htarget
                split at htarget
                · obtain ⟨slot, -, htarget⟩ := Option.bind_eq_some_iff.mp htarget
                  obtain ⟨alg, -, htarget⟩ := Option.bind_eq_some_iff.mp htarget
                  obtain ⟨key, -, htarget⟩ := Option.bind_eq_some_iff.mp htarget
                  cases htarget
                  exact ⟨rfl, rfl⟩
                · cases htarget
              split at htarget
              · unfold putDataChange at htarget
                split at htarget
                · obtain ⟨cert, -, htarget⟩ := Option.bind_eq_some_iff.mp htarget
                  split at htarget
                  · cases htarget
                    exact ⟨rfl, rfl⟩
                  · cases htarget
                · cases htarget
              · cases htarget

end

/-! ## Answers -/

/-- VERIFY or CHANGE REFERENCE DATA of the PIN. -/
def Presentation (apdu : Apdu) : Prop :=
  apdu.cla = 0 ∧ (apdu.ins = 0x20 ∨ apdu.ins = 0x24) ∧ apdu.p1 = 0x00 ∧ apdu.p2 = 0x80

/-- GENERAL AUTHENTICATE or PUT DATA for slot `9A`. -/
def ForPivAuth (apdu : Apdu) : Prop :=
  apdu.ins = 0x87 ∧ apdu.p2 = 0x9A ∨ apdu.ins = 0xDB ∧ apdu.data.take 3 = [0x5F, 0xC1, 0x05]

section

variable {β : Type} [StorageBackend β] {crypto : AppletCrypto} {state : PivState}
  {h : Host β PivState PivSession}

theorem ends_blocked (hmem : h.memory.state = some state) (hzero : state.retries = 0) {apdu : Apdu}
    (hpin : Presentation apdu) : Host.Ends crypto pivFormat (pivProcess crypto apdu) h fun r _ =>
      r = .error (.status swSecurityStatus) := by
  obtain ⟨hcla, hins, hp1, hp2⟩ := hpin
  have hblocked : ∀ {f : Unit → PivCommand ResponseData}, Host.Ends crypto pivFormat
      (require (state.retries ≠ 0) swSecurityStatus >>= f) h fun r _ =>
        r = .error (.status swSecurityStatus) := fun {f} =>
    .require (fun hleft => absurd hzero (of_decide_eq_true hleft)) fun _ => rfl
  refine .require (fun _ => ?_) fun hother => absurd hcla (of_decide_eq_false hother)
  refine .ite (fun _ => ?_) fun hverify => .ite (fun _ => ?_) fun hchange => ?_
  · refine .require (fun _ => .stateMut hmem hblocked) fun hp => ?_
    rw [hp1, hp2] at hp
    cases hp
  · refine .require (fun _ => .stateMut hmem hblocked) fun hp => ?_
    rw [hp1, hp2] at hp
    cases hp
  · exact absurd hins (not_or.mpr ⟨hverify, hchange⟩)

/-- Slot `9A` is closed to other sessions. -/
theorem ends_requireForSlot (hclosed : h.memory.session.verified ≠ true)
    {f : Unit → PivCommand ResponseData} :
    Host.Ends crypto pivFormat (requireForSlot .pivAuth >>= f) h fun r _ => r.isOk = false := by
  refine .bind (.session (.require_last (fun hopen => absurd ?_ hclosed) fun _ => rfl))
  simpa using hopen

/-- Slot `9A` works for a verified session only. -/
theorem ends_forPivAuth {apdu : Apdu} (hslot : ForPivAuth apdu) :
    Host.Ends crypto pivFormat (pivProcess crypto apdu) h fun r _ =>
      r.isOk = true → h.memory.session.verified = true := by
  by_cases hverified : h.memory.session.verified = true
  · exact fun _ => hverified
  · suffices hclosed : Host.Ends crypto pivFormat (pivProcess crypto apdu) h fun r _ =>
        r.isOk = false from hclosed.mono fun r _ hr hok => by rw [hr] at hok; cases hok
    refine .require (fun _ => ?_) fun _ => rfl
    obtain ⟨hins, hp2⟩ | ⟨hins, htag⟩ := hslot
    · rw [hins]
      refine .orRefuse (fun slot hslot => ?_) fun _ => rfl
      rw [hp2] at hslot
      obtain rfl : slot = .pivAuth := by simpa [PivSlot.ofId, eq_comm] using hslot
      exact ends_requireForSlot hverified
    · rw [hins]
      refine .require (fun _ => .orRefuse (fun cert hcert => ?_) fun _ => rfl) fun _ => rfl
      have hcertSlot : cert.slot = .pivAuth := by
        unfold parsePutData at hcert
        rw [htag] at hcert
        obtain ⟨slot, hslot, hcert⟩ := Option.bind_eq_some_iff.mp hcert
        obtain ⟨⟨valueLen, headerLen⟩, -, hcert⟩ := Option.bind_eq_some_iff.mp hcert
        simp only at hcert
        obtain rfl : slot = .pivAuth := by
          have hfound : PivSlot.fromTag [0x5F, 0xC1, 0x05] = some .pivAuth := by decide
          exact Option.some.inj (hslot.symm.trans hfound)
        split at hcert
        · cases hcert
          rfl
        · cases hcert
      rw [hcertSlot]
      exact ends_requireForSlot hverified

end

/-! ## Runs -/

/-- The PIN that an event presents is right, or wrong, if it presents one. -/
def judged {β : Type} (m : Machine β .piv) (e : AppletName.Event) : Option Bool :=
  m.host.memory.state.bind fun state => judges state e

/-- The retries that are left. -/
def retries {β : Type} (m : Machine β .piv) : Nat :=
  m.host.memory.state.elim 0 fun state => (PivState.retries state).toNat

theorem retries_eq {β : Type} {m : Machine β .piv} {state : PivState}
    (hmem : m.host.memory.state = some state) : retries m = state.retries.toNat := by
  unfold retries
  rw [hmem]
  rfl

section

variable {β : Type} [StorageBackend β] [LawfulBackend β] (codec : Codec StoredCredential)
  {patience : Nat} {prims : Primitives}

/-- What holds of the applet in every run. -/
structure Inv (patience : Nat) (prims : Primitives) (m : Machine β .piv) : Prop where
  prims_eq : m.crypto.prims = prims
  serving : m.Serving patience
  verified : m.host.memory.session.verified = true → retries m ≠ 0

variable (haead : AeadSound prims) (htotal : AeadTotal prims) {m : Machine β .piv}
  (hinv : Inv patience prims m) {e : AppletName.Event}

include haead htotal hinv

/-- An event moves the retries and the session by the PIN that it presents, as long as the key is
the same. -/
theorem step_moves (hkey : m.KeepsKey e) : ∃ state session,
    m.host.memory = ⟨some state, session⟩ ∧
      Moves state session (m.step patience codec e).host.memory (judged m e) := by
  obtain ⟨state, hmemory, hnext⟩ := Machine.memory_step (account patience) codec
    (hinv.prims_eq ▸ haead) (hinv.prims_eq ▸ htotal) hinv.serving e
  refine ⟨state, m.host.memory.session, hmemory, ?_⟩
  have hjudged : judged m e = judges state e := by
    unfold judged
    rw [hmemory]
    rfl
  rw [hnext, hjudged]
  cases e with
  | select => exact moves_idle
  | command apdu => exact moves_command m.crypto (m.host.rng 0) apdu
  | reboot key rng =>
      refine ⟨state, if_pos hkey, .none rfl fun h => ?_⟩
      cases h

theorem inv_step : Inv patience prims (m.step patience codec e) := by
  have haead' : AeadSound m.crypto.prims := hinv.prims_eq ▸ haead
  have htotal' : AeadTotal m.crypto.prims := hinv.prims_eq ▸ htotal
  refine ⟨(Machine.prims_step codec m e).trans hinv.prims_eq,
    (Machine.serving_step (account patience) codec haead' htotal' hinv.serving e).1, ?_⟩
  by_cases hkey : m.KeepsKey e
  · obtain ⟨state, session, hmemory, new, hnew, hmove⟩ := step_moves codec haead htotal hinv hkey
    have hverified := hinv.verified
    rw [retries_eq (congrArg Memory.state hmemory), hmemory] at hverified
    rw [retries_eq hnew]
    intro hopen hzero
    generalize judged m e = presented at hmove
    cases hmove with
    | right full =>
        rw [full] at hzero
        cases hzero
    | wrong left fewer closed => exact closed hopen (UInt8.toNat_inj.mp hzero)
    | none same closed =>
        rw [same] at hzero
        exact hverified (closed hopen) hzero
  · rw [Machine.session_rekeyed (account patience) codec haead' htotal' hinv.serving hkey]
    intro hopen
    cases hopen

/-- A wrong PIN costs a retry, and nothing but the right one gives any back. -/
theorem retries_step (hkey : m.KeepsKey e) (hright : judged m e ≠ some true) :
    retries (m.step patience codec e) + (decide (judged m e = some false)).toNat = retries m := by
  obtain ⟨state, session, hmemory, new, hnew, hmove⟩ := step_moves codec haead htotal hinv hkey
  rw [retries_eq hnew, retries_eq (congrArg Memory.state hmemory)]
  generalize judged m e = presented at hmove hright
  cases hmove with
  | right full => exact absurd rfl hright
  | wrong left fewer closed =>
      have hpos : state.retries.toNat ≠ 0 := fun hzero => left (UInt8.toNat_inj.mp hzero)
      rw [fewer, toNat_oneFewer]
      show state.retries.toNat - 1 + 1 = state.retries.toNat
      omega
  | none same closed =>
      rw [same]
      rfl

omit [StorageBackend β] [LawfulBackend β] haead htotal hinv in
/-- Without retries no PIN comes to the comparison. -/
theorem judged_blocked {m : Machine β .piv} {state : PivState}
    (hmem : m.host.memory.state = some state) (hzero : retries m = 0) (e : AppletName.Event) :
    judged m e = none := by
  rw [retries_eq hmem] at hzero
  have hnone : ∀ apdu, presents state apdu = none := fun apdu =>
    if_neg fun h => h.2.2 (UInt8.toNat_inj.mp hzero)
  unfold judged
  rw [hmem]
  cases e with
  | select => rfl
  | command apdu => exact congrArg (Option.map _) (hnone apdu)
  | reboot key rng => rfl

/-- Without retries there are none after a run either. -/
theorem retries_run_blocked (hzero : retries m = 0) {events : List AppletName.Event}
    (hkey : ∀ p ∈ m.trace patience codec events, p.1.KeepsKey p.2) :
    Inv patience prims (m.run patience codec events) ∧
      retries (m.run patience codec events) = 0 := by
  refine Machine.run_induction (fun m => Inv patience prims m ∧ retries m = 0)
    (fun m e => m.KeepsKey e) ?_ ⟨hinv, hzero⟩ hkey
  rintro m e ⟨hinv, hzero⟩ hkey
  obtain ⟨state, hsync⟩ := hinv.serving
  have hnone := judged_blocked hsync.memory hzero e
  have hsame := retries_step codec haead htotal hinv hkey (by rw [hnone]; exact fun h => nomatch h)
  rw [hzero] at hsame
  exact ⟨inv_step codec haead htotal hinv, Nat.eq_zero_of_add_eq_zero_right hsame⟩

omit hinv in
theorem inv_reached (hreached : Machine.Reached codec patience prims m) : Inv patience prims m := by
  refine Machine.reached_induction (account patience) haead htotal (Inv patience prims)
    (fun hprims hserving hfresh => ⟨hprims, hserving, ?_⟩)
    (fun m e hinv => inv_step codec haead htotal hinv) hreached
  rw [hfresh]
  intro hopen
  cases hopen

end

/-- **The PIN of the PIV applet.** In every run, a verified session has retries left, and only the
right PIN raises their number, or a reboot under another key. After three wrong PINs with no right
one between them every PIN is refused, whatever else happens and over reboots. Slot `9A` works for a
verified session only. -/
theorem pin_machine {β : Type} [StorageBackend β] [LawfulBackend β] {prims : Primitives}
    (haead : AeadSound prims) (htotal : AeadTotal prims) {codec : Codec StoredCredential}
    {patience : Nat} {m : Machine β .piv} (hreached : m.Reached codec patience prims) :
    (m.host.memory.session.verified = true → retries m ≠ 0) ∧
    (∀ e, retries m < retries (m.step patience codec e) →
      judged m e = some true ∨ ¬m.KeepsKey e) ∧
    (∀ events later,
      (∀ p ∈ m.trace patience codec (events ++ later), p.1.KeepsKey p.2) →
      (∀ p ∈ m.trace patience codec events, judged p.1 p.2 ≠ some true) →
      3 ≤ (m.trace patience codec events).countP (fun p => judged p.1 p.2 = some false) →
      ∀ apdu, Presentation apdu →
        ((m.run patience codec (events ++ later)).respond patience apdu).1 =
          .error (.status swSecurityStatus)) ∧
    ∀ apdu, ForPivAuth apdu → (m.respond patience apdu).1.isOk = true →
      m.host.memory.session.verified = true := by
  have hinv := inv_reached codec haead htotal hreached
  refine ⟨hinv.verified, fun e hraised => ?_, fun events later hkey hright hwrong apdu hpin => ?_,
    fun apdu hslot => ends_forPivAuth hslot⟩
  · by_contra hneither
    rw [not_or, not_not] at hneither
    have hfewer := retries_step codec haead htotal hinv hneither.2 hneither.1
    omega
  · rw [Machine.trace_append] at hkey
    have hcount := Machine.count_trace (Inv patience prims)
      (fun m e => m.KeepsKey e ∧ judged m e ≠ some true) retries
      (fun p => judged p.1 p.2 = some false)
      (fun m e hinv hallowed => ⟨inv_step codec haead htotal hinv,
        retries_step codec haead htotal hinv hallowed.1 hallowed.2⟩) hinv
      fun p hp => ⟨hkey p (List.mem_append_left _ hp), hright p hp⟩
    obtain ⟨state, hsync⟩ := hinv.serving
    have hfull : retries m ≤ 3 := by
      rw [retries_eq hsync.memory]
      exact UInt8.le_iff_toNat_le.mp (PivState.retries_ok state)
    have hinv' : Inv patience prims (m.run patience codec events) :=
      Machine.run_induction (Inv patience prims) (fun _ _ => True)
        (fun m e hinv _ => inv_step codec haead htotal hinv) hinv fun _ _ => trivial
    obtain ⟨hlater, hzero⟩ := retries_run_blocked codec haead htotal hinv' (by omega) fun p hp =>
      hkey p (List.mem_append_right _ hp)
    rw [Machine.run_append]
    obtain ⟨last, hlast⟩ := hlater.serving
    rw [retries_eq hlast.memory] at hzero
    exact ends_blocked hlast.memory (UInt8.toNat_inj.mp hzero) hpin

/-! ## Three wrong PINs -/

/-- What ChaCha20-Poly1305 makes of a factory state with three retries down to none, and with three
and two under the key of another boot. -/
def pinAead : KnownAead where
  rows := [
    .of 0x02 0x09 (Bytes.beBytes 11 0x0306313233343536030000)
      (Bytes.beBytes 27 0x117121fffac924d1afb9cb47d462655d8efc79c04a4c51cebddddd),
    .of 0x02 0x09 (Bytes.beBytes 11 0x0306313233343536020000)
      (Bytes.beBytes 27 0x117121fffac924d1aeb9cb485493c4fb767f5e78963a02122e1f09),
    .of 0x02 0x09 (Bytes.beBytes 11 0x0306313233343536010000)
      (Bytes.beBytes 27 0x117121fffac924d1adb9cb4ed4c3239a5f024330e228b3559e6034),
    .of 0x02 0x09 (Bytes.beBytes 11 0x0306313233343536000000)
      (Bytes.beBytes 27 0x117121fffac924d1acb9cb4f54f48238488527e82d1764990ea25f),
    .of 0x42 0x09 (Bytes.beBytes 11 0x0306313233343536030000)
      (Bytes.beBytes 27 0x35bb4288c555e05c85812ae22396f6031905fce8206a33a143c971),
    .of 0x42 0x09 (Bytes.beBytes 11 0x0306313233343536020000)
      (Bytes.beBytes 27 0x35bb4288c555e05c84812aa50696163c6e50e97213db4e1ca46718)]
  opens := by decide +kernel
  one_key := by decide +kernel
  apart := by decide +kernel
  ne_nil := by decide +kernel

/-- The engine of a card with the master key `02..02`. -/
def pinCrypto : AppletCrypto := pinAead.crypto (List.replicate 32 0x02) KnownAead.length_masterKey

/-- The applet after a boot over an empty medium. -/
def pinBoot : Machine KvMap .piv :=
  .boot 0 pinCrypto (.withBackend unusedCodec ∅) (KnownAead.constantDraws 0x09)

/-- VERIFY of `111111`, which is wrong, and of `123456`. -/
def wrongPin : Apdu := ⟨0, 0x20, 0x00, 0x80, [0x31, 0x31, 0x31, 0x31, 0x31, 0x31], none⟩

def rightPin : Apdu := ⟨0, 0x20, 0x00, 0x80, [0x31, 0x32, 0x33, 0x34, 0x35, 0x36], none⟩

/-- A reboot of the same card. -/
def pinReboot : AppletName.Event :=
  .reboot ⟨List.replicate 32 0x02, KnownAead.length_masterKey⟩ (KnownAead.constantDraws 0x09)

theorem pin_machine_blocked :
    ((pinBoot.run 0 unusedCodec ([.command wrongPin, .command wrongPin, .command wrongPin] ++
      [pinReboot, .select])).respond 0 rightPin).1 = .error (.status swSecurityStatus) := by
  have hreached : pinBoot.Reached unusedCodec 0 pinCrypto.prims := ⟨_, _, _, [], rfl, rfl⟩
  refine (pin_machine (KnownAead.sound _ _) (KnownAead.total _ _) hreached).2.2.1 _ _ ?_ ?_ ?_ _
    ⟨rfl, .inl rfl, rfl, rfl⟩
  · decide +kernel
  · decide +kernel
  · decide +kernel

/-- A power cycle in which `CryptoEngine::new` draws another key. -/
def pinPowerCycle : AppletName.Event :=
  .reboot ⟨List.replicate 32 0x42, KnownAead.length_otherKey⟩ (KnownAead.constantDraws 0x09)

/-- Three wrong PINs that come to the comparison leave no retries; after a power cycle under another
key there are three again, and the PIN of the factory is accepted. -/
theorem pin_returns_after_power_cycle :
    AeadSound pinCrypto.prims ∧ AeadTotal pinCrypto.prims ∧
    pinBoot.Reached unusedCodec 0 pinCrypto.prims ∧
    (∀ p ∈ pinBoot.trace 0 unusedCodec [.command wrongPin, .command wrongPin, .command wrongPin],
      judged p.1 p.2 = some false) ∧
    retries (pinBoot.run 0 unusedCodec [.command wrongPin, .command wrongPin, .command wrongPin]) =
      0 ∧
    retries (pinBoot.run 0 unusedCodec
      ([.command wrongPin, .command wrongPin, .command wrongPin] ++ [pinPowerCycle])) = 3 ∧
    Presentation rightPin ∧
    ((pinBoot.run 0 unusedCodec ([.command wrongPin, .command wrongPin, .command wrongPin] ++
      [pinPowerCycle, .select])).respond 0 rightPin).1.isOk = true := by
  refine ⟨KnownAead.sound _ _, KnownAead.total _ _, ⟨_, _, _, [], rfl, rfl⟩, ?_, ?_, ?_,
    ⟨rfl, .inl rfl, rfl, rfl⟩, ?_⟩
  · decide +kernel
  · decide +kernel
  · decide +kernel
  · decide +kernel

end Piv

end OpenKey
