import OpenKey.Device.AppletRuns
import OpenKey.Device.KnownAead
import OpenKey.Device.OpenPgpChanges

/-!
# The passwords of the OpenPGP applet

PW1 and PW3 have one VERIFY, and a counter of retries each. Only PW1 opens the session for
signatures.

**The passwords (`password_machines`).** Over a storage that does not fail, an event moves the
counter of the password that it presents, and no other (`PasswordMove`). So each of the two is a
machine of its own: wrong passwords use up its counter, only the right one fills it again, and once
it is zero it stays zero, over reboots under the same master key too. A boot under another key makes
a new state with all retries (`pw1_returns_after_power_cycle`).
-/

namespace OpenKey

open Command
open AppletName (Machine Account)

set_option autoImplicit false

namespace OpenPgp

/-! ## The applet in runs -/

theorem length_serialize (state : OpenPgpState) : state.serialize.length < 2 ^ 36 := by
  have hpw1 := state.pw1.bytes_ok.2
  have hpw3 := state.pw3.bytes_ok.2
  have hkey : (OpenPgpState.serializeSigKey state.sigKey).length ≤ 2 ^ 18 := by
    cases state.sigKey with
    | none => decide
    | some key =>
        obtain ⟨hpriv, hpub⟩ := key.length_lt
        simp only [OpenPgpState.serializeSigKey, ResidentKey.serialize, List.length_append,
          List.length_singleton, Bytes.length_beBytes]
        omega
  simp only [OpenPgpState.serialize, Password.serialize, List.length_cons, List.length_append,
    List.length_nil, Bytes.length_beBytes]
  omega

/-- What the OpenPGP applet does. -/
def account (patience : Nat) : Account .openPgp patience where
  change := openPgpChange
  made := .factory
  factory := rfl
  length := length_serialize
  process := ends_openPgpProcess
  select := fun hmem => .ensureLoaded hmem rfl

/-! ## Passwords -/

/-- VERIFY of PW3, or of PW1. -/
def Verifies (admin : Bool) (apdu : Apdu) : Prop :=
  apdu.cla = 0 ∧ apdu.ins = 0x20 ∧ verifies apdu = some admin

/-- The password that an event presents and whether it is right, if it comes to the comparison. -/
def judges (state : OpenPgpState) : AppletName.Event → Option (Bool × Bool)
  | .command apdu =>
      if apdu.cla = 0 ∧ apdu.ins = 0x20 then
        (verifies apdu).bind fun admin =>
          if (state.password admin).retries ≠ 0 ∧ apdu.data ≠ [] then
            some (admin, decide (apdu.data = (state.password admin).bytes))
          else none
      else none
  | _ => none

/-- What an event that presents a password, or none, does to the counters and the session. -/
inductive PasswordMove (state new : OpenPgpState) (session session' : OpenPgpSession) :
    Option (Bool × Bool) → Prop
  | right (admin : Bool) (full : (new.password admin).retries = 3)
      (other : new.password (!admin) = state.password (!admin))
      (apart : admin = true → session' = session) :
      PasswordMove state new session session' (some (admin, true))
  | wrong (admin : Bool) (left : (state.password admin).retries ≠ 0)
      (fewer : (new.password admin).retries = oneFewer (state.password admin).retries)
      (other : new.password (!admin) = state.password (!admin))
      (apart : admin = true → session' = session)
      (closed : session'.pw1Verified = true → session.pw1Verified = true ∧
        (admin = false → (new.password admin).retries ≠ 0)) :
      PasswordMove state new session session' (some (admin, false))
  | none (same : ∀ admin, new.password admin = state.password admin)
      (closed : session'.pw1Verified = true → session.pw1Verified = true) :
      PasswordMove state new session session' none

/-- An event moves the applet to this memory. -/
def Moves (state : OpenPgpState) (session : OpenPgpSession)
    (memory : Memory OpenPgpState OpenPgpSession) (judged : Option (Bool × Bool)) : Prop :=
  ∃ new, memory.state = some new ∧ PasswordMove state new session memory.session judged

section

variable {state : OpenPgpState} {session : OpenPgpSession} {admin : Bool}

theorem password_withPassword (pw : Password) :
    (state.withPassword admin pw).password admin = pw := by
  cases admin <;> rfl

theorem password_withPassword_other (pw : Password) :
    (state.withPassword admin pw).password (!admin) = state.password (!admin) := by
  cases admin <;> rfl

theorem moves_idle : Moves state session ⟨some state, session⟩ none :=
  ⟨state, rfl, .none (fun _ => rfl) id⟩

theorem moves_presented : Moves state session
    (Change.applied ⟨some state, session⟩ (some (presented admin state session)))
    (some (admin, true)) := by
  refine ⟨_, rfl, .right admin ?_ (password_withPassword_other _) fun hadmin => ?_⟩
  · exact congrArg Password.retries (password_withPassword (state.password admin).restored)
  · rw [hadmin]
    rfl

theorem moves_missed (hleft : (state.password admin).retries ≠ 0) : Moves state session
    (Change.applied ⟨some state, session⟩ (some (missed admin state session)))
    (some (admin, false)) := by
  have hsession : ∀ pw : Password, (missedSession admin pw session).pw1Verified = true →
      session.pw1Verified = true ∧ (admin = false → pw.consumed.retries ≠ 0) := by
    intro pw hopen
    unfold missedSession at hopen
    split at hopen
    · cases hopen
    · next hkept =>
        refine ⟨hopen, fun hadmin hzero => hkept ?_⟩
        rw [hadmin, show missedSw pw = swSecurityStatus from if_pos hzero]
        rfl
  have hnew : ((missed admin state session).state.password admin) =
      (state.password admin).consumed := password_withPassword _
  refine ⟨_, rfl, .wrong admin hleft ?_ (password_withPassword_other _) (fun hadmin => ?_)
    fun hopen => ?_⟩
  · exact congrArg Password.retries hnew
  · show missedSession admin _ session = session
    rw [hadmin]
    exact if_neg (by simp)
  · rw [hnew]
    exact hsession _ hopen

theorem moves_command (crypto : AppletCrypto) (entropy : Entropy) (apdu : Apdu) :
    Moves state session
      (Change.applied ⟨some state, session⟩ (openPgpChange crypto state session entropy apdu))
      (judges state (.command apdu)) := by
  unfold openPgpChange
  simp only [judges]
  split
  · next hcla =>
      rw [if_neg fun h => hcla h.1]
      exact moves_idle
  · next hcla =>
      replace hcla := not_not.mp hcla
      split
      · next hins =>
          rw [if_pos ⟨hcla, hins⟩]
          unfold verifyChange
          simp only [Option.bind_eq_bind]
          rcases verifies apdu with _ | admin
          · exact moves_idle
          · simp only [Option.bind_some]
            split
            · next hcompared =>
                by_cases hpw : apdu.data = (state.password admin).bytes
                · rw [if_pos hpw, decide_eq_true hpw]
                  exact moves_presented
                · rw [if_neg hpw, decide_eq_false hpw]
                  exact moves_missed hcompared.1
            · exact moves_idle
      · next hverify =>
          have hother : ¬(apdu.cla = 0 ∧ apdu.ins = 0x20) := fun h => hverify h.2
          rw [if_neg hother]
          split
          · unfold generateChange
            split
            · rcases (openPgpGenerateAlg apdu.data).toOption with _ | alg
              · exact moves_idle
              · simp only [Option.bind_eq_bind, Option.bind_some]
                rcases generatedKey crypto entropy alg with _ | key
                · exact moves_idle
                · exact ⟨_, rfl, .none (fun admin => by cases admin <;> rfl) id⟩
            · exact moves_idle
          · exact moves_idle

end

/-! ## Answers -/

/-- PSO: COMPUTE DIGITAL SIGNATURE. -/
def Signs (apdu : Apdu) : Prop := apdu.ins = 0x2A ∧ apdu.p1 = 0x9E ∧ apdu.p2 = 0x9A

section

variable {β : Type} [StorageBackend β] {crypto : AppletCrypto} {state : OpenPgpState}
  {h : Host β OpenPgpState OpenPgpSession} (hmem : h.memory.state = some state)

include hmem

theorem ends_blocked {admin : Bool} (hzero : (state.password admin).retries = 0) {apdu : Apdu}
    (hverify : Verifies admin apdu) :
    Host.Ends crypto openPgpFormat (openPgpProcess crypto apdu) h fun r _ =>
      r = .error (.status swSecurityStatus) := by
  obtain ⟨hcla, hins, hslot⟩ := hverify
  refine .require (fun _ => ?_) fun hother => absurd hcla (of_decide_eq_false hother)
  rw [hins]
  unfold verifies at hslot
  split at hslot
  · next hknown =>
      obtain rfl := Option.some.inj hslot
      refine .require (fun _ => .stateMut hmem (.require (fun hleft => ?_) fun _ => rfl))
        fun hother => ?_
      · exact absurd hzero (of_decide_eq_true hleft)
      · simp only [Bool.or_eq_false_iff, decide_eq_false_iff_not] at hother
        exact absurd hknown (by simp [hother])
  · cases hslot

/-- A signature is for a session that PW1 has opened, and for a key. -/
theorem ends_signs {apdu : Apdu} (hsigns : Signs apdu) :
    Host.Ends crypto openPgpFormat (openPgpProcess crypto apdu) h fun r _ =>
      r.isOk = true → h.memory.session.pw1Verified = true ∧ state.sigKey.isSome = true := by
  obtain ⟨hins, hp1, hp2⟩ := hsigns
  refine .require (fun _ => ?_) fun _ hok => nomatch hok
  rw [hins]
  show Host.Ends crypto openPgpFormat (openPgpPso crypto apdu) h _
  refine .ite (fun _ => ?_) fun hother => absurd ⟨hp1, hp2⟩ hother
  refine .session (.require (fun hopen => ?_) fun _ hok => nomatch hok)
  refine .require (fun _ => .stateMut hmem ?_) fun _ hok => nomatch hok
  refine .orRefuse (fun key hkey => ?_) fun _ hok => nomatch hok
  rw [hkey]
  exact fun _ => ⟨hopen, rfl⟩

end

/-! ## Runs -/

/-- The password that an event presents and whether it is right, if it comes to the comparison. -/
def judged {β : Type} (m : Machine β .openPgp) (e : AppletName.Event) : Option (Bool × Bool) :=
  m.host.memory.state.bind fun state => judges state e

/-- The retries that are left for PW3, or for PW1. -/
def retries {β : Type} (m : Machine β .openPgp) (admin : Bool) : Nat :=
  m.host.memory.state.elim 0 fun state => (OpenPgpState.password state admin).retries.toNat

theorem retries_eq {β : Type} {m : Machine β .openPgp} {state : OpenPgpState}
    (hmem : m.host.memory.state = some state) (admin : Bool) :
    retries m admin = (state.password admin).retries.toNat := by
  unfold retries
  rw [hmem]
  rfl

section

variable {β : Type} [StorageBackend β] [LawfulBackend β] (codec : Codec StoredCredential)
  {patience : Nat} {prims : Primitives}

/-- What holds of the applet in every run. -/
structure Inv (patience : Nat) (prims : Primitives) (m : Machine β .openPgp) : Prop where
  prims_eq : m.crypto.prims = prims
  serving : m.Serving patience
  verified : m.host.memory.session.pw1Verified = true → retries m false ≠ 0

variable (haead : AeadSound prims) (htotal : AeadTotal prims) {m : Machine β .openPgp}
  (hinv : Inv patience prims m) {e : AppletName.Event}

include haead htotal hinv

/-- An event moves the counters and the session by the password that it presents, as long as the key
is the same. -/
theorem step_moves (hkey : m.KeepsKey e) : ∃ state session,
    m.host.memory = ⟨some state, session⟩ ∧
      Moves state session (m.step patience codec e).host.memory (judged m e) := by
  obtain ⟨state, hmemory, hnext⟩ := Machine.memory_step (account patience) codec
    (hinv.prims_eq ▸ haead) (hinv.prims_eq ▸ htotal) hinv.serving e
  refine ⟨state, m.host.memory.session, hmemory, ?_⟩
  have hjudged : judged m e = judges state e := by
    unfold judged
    rw [hmemory]
    rfl
  rw [hnext, hjudged]
  cases e with
  | select => exact moves_idle
  | command apdu => exact moves_command m.crypto (m.host.rng 0) apdu
  | reboot key rng =>
      refine ⟨state, if_pos hkey, .none (fun _ => rfl) fun h => ?_⟩
      cases h

theorem inv_step : Inv patience prims (m.step patience codec e) := by
  have haead' : AeadSound m.crypto.prims := hinv.prims_eq ▸ haead
  have htotal' : AeadTotal m.crypto.prims := hinv.prims_eq ▸ htotal
  refine ⟨(Machine.prims_step codec m e).trans hinv.prims_eq,
    (Machine.serving_step (account patience) codec haead' htotal' hinv.serving e).1, ?_⟩
  by_cases hkey : m.KeepsKey e
  · obtain ⟨state, session, hmemory, new, hnew, hmove⟩ := step_moves codec haead htotal hinv hkey
    have hverified := hinv.verified
    rw [retries_eq (congrArg Memory.state hmemory), hmemory] at hverified
    rw [retries_eq hnew]
    intro hopen hzero
    generalize judged m e = presented at hmove
    cases hmove with
    | right admin full other apart =>
        cases admin with
        | false =>
            rw [full] at hzero
            cases hzero
        | true =>
            rw [apart rfl] at hopen
            rw [show new.password false = state.password false from other] at hzero
            exact hverified hopen hzero
    | wrong admin left fewer other apart closed =>
        cases admin with
        | false => exact (closed hopen).2 rfl (UInt8.toNat_inj.mp hzero)
        | true =>
            rw [show new.password false = state.password false from other] at hzero
            exact hverified (closed hopen).1 hzero
    | none same closed =>
        rw [same] at hzero
        exact hverified (closed hopen) hzero
  · rw [Machine.session_rekeyed (account patience) codec haead' htotal' hinv.serving hkey]
    intro hopen
    cases hopen

/-- A wrong password costs a retry of its own, and nothing but the right one gives any back. -/
theorem retries_step (hkey : m.KeepsKey e) {admin : Bool}
    (hright : judged m e ≠ some (admin, true)) :
    retries (m.step patience codec e) admin +
      (decide (judged m e = some (admin, false))).toNat = retries m admin := by
  obtain ⟨state, session, hmemory, new, hnew, hmove⟩ := step_moves codec haead htotal hinv hkey
  rw [retries_eq hnew, retries_eq (congrArg Memory.state hmemory)]
  generalize judged m e = presented at hmove hright
  cases hmove with
  | right moved full other apart =>
      have hne : moved ≠ admin := fun h => hright (by rw [h])
      obtain rfl : admin = !moved := Bool.eq_not.mpr (Ne.symm hne)
      rw [other, decide_eq_false fun h => Bool.noConfusion (Prod.mk.inj (Option.some.inj h)).2]
      rfl
  | wrong moved left fewer other apart closed =>
      by_cases hmoved : moved = admin
      · subst hmoved
        have hpos : (state.password moved).retries.toNat ≠ 0 := fun hzero =>
          left (UInt8.toNat_inj.mp hzero)
        rw [fewer, toNat_oneFewer, decide_eq_true rfl]
        show (state.password moved).retries.toNat - 1 + 1 = (state.password moved).retries.toNat
        omega
      · obtain rfl : admin = !moved := Bool.eq_not.mpr (Ne.symm hmoved)
        rw [other, decide_eq_false fun h => hmoved (Prod.mk.inj (Option.some.inj h)).1]
        rfl
  | none same closed =>
      rw [same]
      rfl

/-- Whoever presents one password leaves the counter of the other. -/
theorem retries_other {apdu : Apdu} {admin : Bool} (hverify : Verifies admin apdu) :
    retries (m.step patience codec (.command apdu)) (!admin) = retries m (!admin) ∧
      (admin = true →
        (m.step patience codec (.command apdu)).host.memory.session.pw1Verified = true →
        m.host.memory.session.pw1Verified = true) := by
  obtain ⟨state, session, hmemory, new, hnew, hmove⟩ :=
    step_moves (e := .command apdu) codec haead htotal hinv trivial
  obtain ⟨hcla, hins, hslot⟩ := hverify
  have hjudged : ∀ moved right, judged m (.command apdu) = some (moved, right) → moved = admin := by
    intro moved right h
    unfold judged at h
    rw [hmemory] at h
    simp only [Option.bind_some, judges, hcla, hins, hslot, and_self, if_true] at h
    split at h
    · exact (Prod.mk.inj (Option.some.inj h)).1.symm
    · cases h
  rw [retries_eq hnew, retries_eq (congrArg Memory.state hmemory), hmemory]
  generalize judged m (.command apdu) = presented at hmove hjudged
  cases hmove with
  | right moved full other apart =>
      obtain rfl := hjudged moved true rfl
      exact ⟨by rw [other], fun hadmin hopen => by rwa [apart hadmin] at hopen⟩
  | wrong moved left fewer other apart closed =>
      obtain rfl := hjudged moved false rfl
      exact ⟨by rw [other], fun _ hopen => (closed hopen).1⟩
  | none same closed => exact ⟨by rw [same], fun _ hopen => closed hopen⟩

omit [StorageBackend β] [LawfulBackend β] haead htotal hinv in
/-- Without retries a password does not come to the comparison. -/
theorem judged_blocked {m : Machine β .openPgp} {state : OpenPgpState}
    (hmem : m.host.memory.state = some state) {admin : Bool} (hzero : retries m admin = 0)
    (e : AppletName.Event) (right : Bool) : judged m e ≠ some (admin, right) := by
  rw [retries_eq hmem] at hzero
  unfold judged
  rw [hmem]
  cases e with
  | select => exact fun h => nomatch h
  | command apdu =>
      intro h
      replace h : judges state (.command apdu) = some (admin, right) := h
      simp only [judges] at h
      split at h
      · obtain ⟨moved, -, h⟩ := Option.bind_eq_some_iff.mp h
        split at h
        · next hcompared =>
            obtain rfl := (Prod.mk.inj (Option.some.inj h)).1
            exact hcompared.1 (UInt8.toNat_inj.mp hzero)
        · cases h
      · cases h
  | reboot key rng => exact fun h => nomatch h

/-- Without retries there are none after a run either. -/
theorem retries_run_blocked {admin : Bool} (hzero : retries m admin = 0)
    {events : List AppletName.Event}
    (hkey : ∀ p ∈ m.trace patience codec events, p.1.KeepsKey p.2) :
    Inv patience prims (m.run patience codec events) ∧
      retries (m.run patience codec events) admin = 0 := by
  refine Machine.run_induction (fun m => Inv patience prims m ∧ retries m admin = 0)
    (fun m e => m.KeepsKey e) ?_ ⟨hinv, hzero⟩ hkey
  rintro m e ⟨hinv, hzero⟩ hkey
  obtain ⟨state, hsync⟩ := hinv.serving
  have hsame := retries_step codec haead htotal hinv hkey
    (judged_blocked hsync.memory hzero e true)
  rw [hzero] at hsame
  exact ⟨inv_step codec haead htotal hinv, Nat.eq_zero_of_add_eq_zero_right hsame⟩

omit hinv in
theorem inv_reached (hreached : Machine.Reached codec patience prims m) : Inv patience prims m := by
  refine Machine.reached_induction (account patience) haead htotal (Inv patience prims)
    (fun hprims hserving hfresh => ⟨hprims, hserving, ?_⟩)
    (fun m e hinv => inv_step codec haead htotal hinv) hreached
  rw [hfresh]
  intro hopen
  cases hopen

end

/-- **The passwords of the OpenPGP applet.** In every run, a session opened by PW1 has retries left
for it. VERIFY of one password leaves the counter of the other, and PW3 does not open the session. A
counter is raised by the right value of its own password only, or by a reboot under another key;
once it is zero, every VERIFY of its password is refused, over reboots too. A signature is for a
session opened by PW1, and for a key. -/
theorem password_machines {β : Type} [StorageBackend β] [LawfulBackend β] {prims : Primitives}
    (haead : AeadSound prims) (htotal : AeadTotal prims) {codec : Codec StoredCredential}
    {patience : Nat} {m : Machine β .openPgp} (hreached : m.Reached codec patience prims) :
    (m.host.memory.session.pw1Verified = true → retries m false ≠ 0) ∧
    (∀ apdu admin, Verifies admin apdu →
      retries (m.step patience codec (.command apdu)) (!admin) = retries m (!admin) ∧
      (admin = true →
        (m.step patience codec (.command apdu)).host.memory.session.pw1Verified = true →
        m.host.memory.session.pw1Verified = true)) ∧
    (∀ admin e, retries m admin < retries (m.step patience codec e) admin →
      judged m e = some (admin, true) ∨ ¬m.KeepsKey e) ∧
    (∀ admin later, retries m admin = 0 →
      (∀ p ∈ m.trace patience codec later, p.1.KeepsKey p.2) → ∀ apdu, Verifies admin apdu →
        ((m.run patience codec later).respond patience apdu).1 =
          .error (.status swSecurityStatus)) ∧
    ∀ apdu, Signs apdu → (m.respond patience apdu).1.isOk = true →
      m.host.memory.session.pw1Verified = true ∧
        ∃ state, m.host.memory.state = some state ∧ (OpenPgpState.sigKey state).isSome = true := by
  have hinv := inv_reached codec haead htotal hreached
  obtain ⟨state, hsync⟩ := hinv.serving
  refine ⟨hinv.verified, fun apdu admin hverify => ?_, fun admin e hraised => ?_,
    fun admin later hzero hkey apdu hverify => ?_, fun apdu hsigns hok => ?_⟩
  · exact retries_other codec haead htotal hinv hverify
  · by_contra hneither
    rw [not_or, not_not] at hneither
    have hfewer := retries_step codec haead htotal hinv hneither.2 hneither.1
    omega
  · obtain ⟨hlater, hlast⟩ := retries_run_blocked codec haead htotal hinv hzero hkey
    obtain ⟨last, hsync'⟩ := hlater.serving
    rw [retries_eq hsync'.memory] at hlast
    exact ends_blocked hsync'.memory (UInt8.toNat_inj.mp hlast) hverify
  · obtain ⟨hopen, hkey⟩ := ends_signs hsync.memory hsigns hok
    exact ⟨hopen, state, hsync.memory, hkey⟩

/-! ## Three wrong values of PW1 -/

/-- What ChaCha20-Poly1305 makes of a factory state with three retries of PW1 down to none, and with
three and two under the key of another boot. -/
def passwordAead : KnownAead where
  rows := [
    .of 0x02 0x09 (Bytes.beBytes 20 0x0206313233343536030831323334353637380300)
      (Bytes.beBytes 36 0x107121fffac924d1afb1fa586865e46fe2587fc0e889e78ec4c73a880038d3daf7749c89),
    .of 0x02 0x09 (Bytes.beBytes 20 0x0206313233343536020831323334353637380300)
      (Bytes.beBytes 36 0x107121fffac924d1aeb1fa586865e46fe2587fc082d43af8ded27a52654ef08839d4cb21),
    .of 0x02 0x09 (Bytes.beBytes 20 0x0206313233343536010831323334353637380300)
      (Bytes.beBytes 36 0x107121fffac924d1adb1fa586865e46fe2587fc0211f8e61f9ddba1cca640d377b33fbb9),
    .of 0x02 0x09 (Bytes.beBytes 20 0x0206313233343536000831323334353637380300)
      (Bytes.beBytes 36 0x107121fffac924d1acb1fa586865e46fe2587fc0c069e1ca13e9fae62e7b2ae5bc922a52),
    .of 0x42 0x09 (Bytes.beBytes 20 0x0206313233343536030831323334353637380300)
      (Bytes.beBytes 36 0x34bb4288c555e05c85891bcb426971ae95c13caa1ba2a69b919a6e4c0ddd9d6791b8c8ab),
    .of 0x42 0x09 (Bytes.beBytes 20 0x0206313233343536020831323334353637380300)
      (Bytes.beBytes 36 0x34bb4288c555e05c84891bcb426971ae95c13caa4fb0f7dee4de260e987184903117136b)]
  opens := by decide +kernel
  one_key := by decide +kernel
  apart := by decide +kernel
  ne_nil := by decide +kernel

/-- The engine of a card with the master key `02..02`. -/
def passwordCrypto : AppletCrypto :=
  passwordAead.crypto (List.replicate 32 0x02) KnownAead.length_masterKey

/-- VERIFY of PW1 with `111111`, which is wrong, and with `123456`. -/
def wrongPw1 : Apdu := ⟨0, 0x20, 0x00, 0x81, [0x31, 0x31, 0x31, 0x31, 0x31, 0x31], none⟩

def rightPw1 : Apdu := ⟨0, 0x20, 0x00, 0x82, [0x31, 0x32, 0x33, 0x34, 0x35, 0x36], none⟩

/-- The applet after a boot over an empty medium and three wrong values of PW1. -/
def spent : Machine KvMap .openPgp :=
  .run 0 unusedCodec
    (.boot 0 passwordCrypto (.withBackend unusedCodec ∅) (KnownAead.constantDraws 0x09))
    [.command wrongPw1, .command wrongPw1, .command wrongPw1]

/-- A reboot of the same card. -/
def passwordReboot : AppletName.Event :=
  .reboot ⟨List.replicate 32 0x02, KnownAead.length_masterKey⟩ (KnownAead.constantDraws 0x09)

/-- PW1 stays refused, and PW3 has its retries. -/
theorem password_machines_spent : retries spent true = 3 ∧
    ((spent.run 0 unusedCodec [passwordReboot, .select]).respond 0 rightPw1).1 =
      .error (.status swSecurityStatus) := by
  have hreached : spent.Reached unusedCodec 0 passwordCrypto.prims := ⟨_, _, _, _, rfl, rfl⟩
  obtain ⟨-, -, -, hblocked, -⟩ :=
    password_machines (KnownAead.sound _ _) (KnownAead.total _ _) hreached
  refine ⟨by decide +kernel, hblocked false _ (by decide +kernel) (by decide +kernel) _ ?_⟩
  exact ⟨rfl, rfl, by decide⟩

/-- A power cycle in which `CryptoEngine::new` draws another key. -/
def passwordPowerCycle : AppletName.Event :=
  .reboot ⟨List.replicate 32 0x42, KnownAead.length_otherKey⟩ (KnownAead.constantDraws 0x09)

/-- After three wrong values PW1 has no retries; after a power cycle under another key it has three
again, although nobody presented it, and the value of the factory is accepted. -/
theorem pw1_returns_after_power_cycle :
    AeadSound passwordCrypto.prims ∧ AeadTotal passwordCrypto.prims ∧
    spent.Reached unusedCodec 0 passwordCrypto.prims ∧ retries spent false = 0 ∧
    judged spent passwordPowerCycle = none ∧
    retries (spent.run 0 unusedCodec [passwordPowerCycle]) false = 3 ∧ Verifies false rightPw1 ∧
    ((spent.run 0 unusedCodec [passwordPowerCycle, .select]).respond 0 rightPw1).1.isOk = true := by
  refine ⟨KnownAead.sound _ _, KnownAead.total _ _, ⟨_, _, _, _, rfl, rfl⟩, by decide +kernel,
    by decide +kernel, by decide +kernel, ⟨rfl, rfl, by decide⟩, by decide +kernel⟩

end OpenPgp

end OpenKey
