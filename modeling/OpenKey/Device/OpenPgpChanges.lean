import OpenKey.Device.Changes
import OpenKey.Device.OpenPgp

/-!
# What the OpenPGP commands persist

`openPgpChange` is the change that a command of the OpenPGP applet makes (`ends_openPgpProcess`).
-/

namespace OpenKey

open Command

set_option autoImplicit false

namespace OpenPgp

/-- The status word for a wrong password. -/
def missedSw (pw : Password) : UInt16 :=
  if pw.consumed.retries = 0 then swSecurityStatus else swRetries pw.consumed.retries

/-- The session after a wrong password. -/
def missedSession (admin : Bool) (pw : Password) (session : OpenPgpSession) : OpenPgpSession :=
  if (missedSw pw = swSecurityStatus && !admin) = true then ⟨false⟩ else session

/-- The change of a wrong password. -/
def missed (admin : Bool) (state : OpenPgpState) (session : OpenPgpSession) :
    Change OpenPgpState OpenPgpSession where
  state := state.withPassword admin (state.password admin).consumed
  draws := 0
  session := missedSession admin (state.password admin) session
  answer := .error (.status (missedSw (state.password admin)))
  kept := state.withPassword admin (state.password admin).consumed
  dropped := missedSession admin (state.password admin) session

/-- The change of a right password. -/
def presented (admin : Bool) (state : OpenPgpState) (session : OpenPgpSession) :
    Change OpenPgpState OpenPgpSession where
  state := state.withPassword admin (state.password admin).restored
  draws := 0
  session := if (!admin) = true then ⟨true⟩ else session
  answer := .ok (.ok [])
  kept := state.withPassword admin (state.password admin).restored
  dropped := session

/-- The password that VERIFY is about, if there is one: PW3 or PW1. -/
def verifies (apdu : Apdu) : Option Bool :=
  if passwordSlot apdu = 0x81 ∨ passwordSlot apdu = 0x82 ∨ passwordSlot apdu = 0x83 then
    some (passwordSlot apdu = 0x83)
  else none

/-- The change of VERIFY. -/
def verifyChange (state : OpenPgpState) (session : OpenPgpSession) (apdu : Apdu) :
    Option (Change OpenPgpState OpenPgpSession) := do
  let admin ← verifies apdu
  if (state.password admin).retries ≠ 0 ∧ apdu.data ≠ [] then
    if apdu.data = (state.password admin).bytes then some (presented admin state session)
    else some (missed admin state session)
  else none

/-- The change of GENERATE ASYMMETRIC KEY PAIR, with a draw for the key. -/
def generateChange (crypto : AppletCrypto) (state : OpenPgpState) (session : OpenPgpSession)
    (entropy : Entropy) (apdu : Apdu) : Option (Change OpenPgpState OpenPgpSession) :=
  if (apdu.p1 = 0x00 ∨ apdu.p1 = 0x80 ∨ apdu.p1 = 0x81) ∧ apdu.p2 = 0x00 then do
    let alg ← (openPgpGenerateAlg apdu.data).toOption
    let key ← generatedKey crypto entropy alg
    some {
      state := { state with sigKey := some key }
      draws := 1
      session := session
      answer := .ok (.ok key.pubkeyObject)
      kept := { state with sigKey := none }
      dropped := session }
  else none

end OpenPgp

/-- The change that a command of the OpenPGP applet makes. -/
def openPgpChange (crypto : AppletCrypto) (state : OpenPgpState) (session : OpenPgpSession)
    (entropy : Entropy) (apdu : Apdu) : Option (Change OpenPgpState OpenPgpSession) :=
  if apdu.cla ≠ 0 then none
  else if apdu.ins = 0x20 then OpenPgp.verifyChange state session apdu
  else if apdu.ins = 0x47 then OpenPgp.generateChange crypto state session entropy apdu
  else none

namespace OpenPgp

section

variable {β : Type} [StorageBackend β] [FallibleBackend β] {crypto : AppletCrypto}
  {state : OpenPgpState} {h : Host β OpenPgpState OpenPgpSession}

theorem stays {r : Except Fault ResponseData} : Change.Outcome crypto openPgpFormat h h none r :=
  .stays r rfl rfl rfl

variable (hmem : h.memory.state = some state)

include hmem

theorem ends_openPgpGetData (apdu : Apdu) :
    Host.Ends crypto openPgpFormat (openPgpGetData crypto apdu) h fun r g =>
      Change.Outcome crypto openPgpFormat h g none r := by
  refine .ite (fun _ => .orFault (fun _ _ => .pure stays) fun _ _ => stays) fun _ =>
    .ite (fun _ => .pure stays) fun _ => .ite (fun _ => .stateMut hmem (.pure stays)) fun _ =>
    .ite (fun _ => ?_) fun _ => .ite (fun _ => ?_) fun _ => .refuse stays
  · exact .stateMut hmem (.orRefuse (fun _ _ => .pure stays) fun _ => stays)
  · exact .stateMut hmem (.orRefuse (fun _ _ => .pure stays) fun _ => stays)

theorem ends_openPgpPso (apdu : Apdu) :
    Host.Ends crypto openPgpFormat (openPgpPso crypto apdu) h fun r g =>
      Change.Outcome crypto openPgpFormat h g none r := by
  refine .ite (fun _ => ?_) fun _ => .ite (fun _ => .refuse stays) fun _ => .refuse stays
  refine .session (.require (fun _ => .require (fun _ => .stateMut hmem ?_) fun _ => stays)
    fun _ => stays)
  refine .orRefuse (fun key _ => ?_) fun _ => stays
  exact Change.ends_signWith (fun _ _ hmemory hsaved hstorage =>
    .pure (.stays _ hmemory hsaved hstorage)) fun _ hmemory hsaved hstorage =>
    .stays _ hmemory hsaved hstorage

variable (hb : h.storage.backend.isSome)

include hb

omit hmem in
/-- The end of a VERIFY with the right password. -/
theorem ends_presented (admin : Bool) : Host.Ends crypto openPgpFormat
    (do
      setState (state.withPassword admin (state.password admin).restored)
      persistState
      if !admin then modifySession fun _ => ⟨true⟩
      pure (.ok []) : OpenPgpCommand ResponseData) h fun r g =>
      Change.Outcome crypto openPgpFormat h g
        (some (presented admin state h.memory.session)) r := by
  have hp : Change.Poised (presented admin state h.memory.session) h { h with
      memory := ⟨some (presented admin state h.memory.session).state, h.memory.session⟩ } :=
    ⟨rfl, rfl, rfl, rfl⟩
  refine .setState (.persistState rfl ?_ (fun t ht => ?_) fun t ht => ?_)
  · exact hb
  · cases admin with
    | true => exact .pure (hp.written ht ht.memory rfl rfl)
    | false =>
        refine .modifySession (.pure (hp.written ht ?_ rfl rfl))
        rw [ht.memory]
        rfl
  · exact hp.unwritten ht ht.memory rfl rfl

omit hmem in
/-- The end of a VERIFY with a wrong password. -/
theorem ends_missed (admin : Bool) : Host.Ends crypto openPgpFormat
    (do
      setState (state.withPassword admin (state.password admin).consumed)
      let sw := missedSw (state.password admin)
      if sw = swSecurityStatus && !admin then modifySession fun _ => ⟨false⟩
      persistState
      refuse sw : OpenPgpCommand ResponseData) h fun r g =>
      Change.Outcome crypto openPgpFormat h g (some (missed admin state h.memory.session)) r := by
  have hpersist : ∀ {g : Host β OpenPgpState OpenPgpSession},
      Change.Poised (missed admin state h.memory.session) h g →
      Host.Ends crypto openPgpFormat (persistState >>= fun _ =>
        refuse (missedSw (state.password admin)) : OpenPgpCommand ResponseData) g fun r t =>
          Change.Outcome crypto openPgpFormat h t
            (some (missed admin state h.memory.session)) r := by
    intro g hp
    refine .persistState (congrArg Memory.state hp.memory) (hp.backend hb) (fun t ht => ?_)
      fun t ht => ?_
    · exact hp.written ht (ht.memory.trans hp.memory) rfl rfl
    · exact hp.unwritten ht (ht.memory.trans hp.memory) rfl rfl
  refine .setState ?_
  simp only
  split
  · next hblocked =>
      refine .modifySession (hpersist ⟨?_, rfl, rfl, rfl⟩)
      simp only [missed, missedSession, if_pos hblocked]
  · next hopen =>
      refine hpersist ⟨?_, rfl, rfl, rfl⟩
      simp only [missed, missedSession, if_neg hopen]

theorem ends_openPgpVerify (apdu : Apdu) :
    Host.Ends crypto openPgpFormat (openPgpVerify apdu) h fun r g =>
      Change.Outcome crypto openPgpFormat h g (verifyChange state h.memory.session apdu) r := by
  unfold verifyChange verifies
  refine .require (fun hslot => ?_) fun hslot => ?_
  · rw [if_pos (by simpa only [Bool.or_eq_true, decide_eq_true_eq, or_assoc] using hslot)]
    simp only [Option.bind_eq_bind, Option.bind_some]
    generalize decide (passwordSlot apdu = 0x83) = admin
    refine .stateMut hmem (.require (fun hretries => ?_) fun hretries => ?_)
    · replace hretries := of_decide_eq_true hretries
      refine .ite (fun hempty => ?_) fun hne => ?_
      · rw [if_neg fun h => h.2 hempty]
        exact .pure stays
      · have hcompared : (state.password admin).retries ≠ 0 ∧ apdu.data ≠ [] := ⟨hretries, hne⟩
        rw [if_pos hcompared]
        refine .ite (fun hpw => ?_) fun hpw => ?_
        · rw [if_pos hpw]
          exact ends_presented hb admin
        · rw [if_neg hpw]
          exact ends_missed hb admin
    · rw [if_neg fun h => of_decide_eq_false hretries h.1]
      exact stays
  · rw [if_neg (by simpa
      only [Bool.or_eq_false_iff, decide_eq_false_iff_not, not_or, and_assoc] using hslot)]
    exact stays

theorem ends_openPgpGenerate (apdu : Apdu) :
    Host.Ends crypto openPgpFormat (openPgpGenerate crypto apdu) h fun r g =>
      Change.Outcome crypto openPgpFormat h g
        (generateChange crypto state h.memory.session (h.rng 0) apdu) r := by
  unfold generateChange
  refine .require (fun hp => ?_) fun hp => ?_
  · rw [if_pos (by simpa
      only [Bool.and_eq_true, Bool.or_eq_true, decide_eq_true_eq, or_assoc] using hp)]
    refine .orStatus (fun alg halg => ?_) fun sw hsw => ?_
    · rw [halg]
      simp only [Except.toOption, Option.bind_eq_bind, Option.bind_some]
      refine Change.ends_generateKey (fun key hkey => ?_) fun hkey => ?_
      · rw [hkey]
        refine .stateMut (h := { h with rng := fun n => h.rng (n + 1) }) hmem ?_
        refine .setState (Change.ends_persistOr ?_ hb ?_ ?_ ?_)
        · exact ⟨rfl, rfl, rfl, rfl⟩
        · rfl
        · rfl
        · rfl
      · rw [hkey]
        exact .stays _ rfl rfl rfl
    · rw [hsw]
      exact stays
  · rw [if_neg fun h => absurd hp (by simpa [or_assoc] using h)]
    exact stays

/-- How a command of the OpenPGP applet ends. -/
theorem ends_openPgpProcess (apdu : Apdu) :
    Host.Ends crypto openPgpFormat (openPgpProcess crypto apdu) h fun r g =>
      Change.Outcome crypto openPgpFormat h g
        (openPgpChange crypto state h.memory.session (h.rng 0) apdu) r := by
  unfold openPgpChange
  refine .require (fun hcla => ?_) fun hcla => ?_
  · rw [if_neg (not_not.mpr (of_decide_eq_true hcla))]
    refine .ite (fun hins => ?_) fun hverify => .ite (fun hins => ?_) fun _ =>
      .ite (fun hins => ?_) fun hgenerate => .ite (fun hins => ?_) fun _ => ?_
    · rw [if_pos hins]
      exact ends_openPgpVerify hmem hb apdu
    · rw [hins]
      exact ends_openPgpGetData hmem apdu
    · rw [if_neg hverify, if_pos hins]
      exact ends_openPgpGenerate hmem hb apdu
    · rw [hins]
      exact ends_openPgpPso hmem apdu
    · rw [if_neg hverify, if_neg hgenerate]
      exact .refuse stays
  · rw [if_pos (of_decide_eq_false hcla)]
    exact stays

end

end OpenPgp

end OpenKey
