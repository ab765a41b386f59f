import OpenKey.Device.Changes
import OpenKey.Device.Piv

/-!
# What the PIV commands persist

`pivChange` is the change that a command of the PIV applet makes, from the state in memory, the
session and the request (`ends_pivProcess`).
-/

namespace OpenKey

open Command

set_option autoImplicit false

namespace Piv

/-- The status word for a wrong PIN. -/
def missedSw (state : PivState) : UInt16 :=
  if state.consumed.retries = 0 then swSecurityStatus else swRetries state.consumed.retries

/-- The change of a wrong PIN. -/
def missed (state : PivState) (session : PivSession) : Change PivState PivSession where
  state := state.consumed
  draws := 0
  session := if missedSw state = swSecurityStatus then ⟨false⟩ else session
  answer := .error (.status (missedSw state))
  kept := state.consumed
  dropped := if missedSw state = swSecurityStatus then ⟨false⟩ else session

/-- The change of a right PIN. -/
def presented (new : PivState) (session : PivSession) : Change PivState PivSession where
  state := new
  draws := 0
  session := ⟨true⟩
  answer := .ok (.ok [])
  kept := new
  dropped := session

/-- The change of VERIFY. -/
def verifyChange (state : PivState) (session : PivSession) (apdu : Apdu) :
    Option (Change PivState PivSession) :=
  if (apdu.p1 = 0x00 ∧ apdu.p2 = 0x80) ∧ state.retries ≠ 0 ∧ apdu.data ≠ [] then
    if stripPinPadding apdu.data = state.pin then some (presented state.restored session)
    else some (missed state session)
  else none

/-- The change of CHANGE REFERENCE DATA. -/
def changePinChange (state : PivState) (session : PivSession) (apdu : Apdu) :
    Option (Change PivState PivSession) :=
  if (apdu.p1 = 0x00 ∧ apdu.p2 = 0x80) ∧ state.retries ≠ 0 ∧ apdu.data.length = 16 then
    let newPin := stripPinPadding (apdu.data.drop 8)
    if h : 6 ≤ newPin.length ∧ newPin.length ≤ 8 then
      if stripPinPadding (apdu.data.take 8) = state.pin then
        some (presented (state.withPin newPin h) session)
      else some (missed state session)
    else none
  else none

/-- The change of GENERATE ASYMMETRIC KEY PAIR, with a draw for the key. -/
def generateChange (crypto : AppletCrypto) (state : PivState) (session : PivSession)
    (entropy : Entropy) (apdu : Apdu) : Option (Change PivState PivSession) :=
  if apdu.p1 = 0x00 then do
    let slot ← PivSlot.ofId apdu.p2
    let alg ← pivGenerateAlg apdu.data
    let key ← generatedKey crypto entropy alg
    some {
      state := state.withKey ⟨slot, key⟩
      draws := 1
      session := session
      answer := .ok (.ok key.pubkeyObject)
      kept := (state.withKey ⟨slot, key⟩).withoutKey slot
      dropped := session }
  else none

/-- The change of PUT DATA. -/
def putDataChange (state : PivState) (session : PivSession) (apdu : Apdu) :
    Option (Change PivState PivSession) :=
  if apdu.p1 = 0x3F ∧ apdu.p2 = 0xFF then do
    let cert ← parsePutData apdu.data
    if cert.slot ≠ .pivAuth ∨ session.verified then
      some {
        state := state.withCert cert
        draws := 0
        session := session
        answer := .ok (.ok [])
        kept := (state.withCert cert).withoutCert cert.slot
        dropped := session }
    else none
  else none

end Piv

/-- The change that a command of the PIV applet makes. -/
def pivChange (crypto : AppletCrypto) (state : PivState) (session : PivSession) (entropy : Entropy)
    (apdu : Apdu) : Option (Change PivState PivSession) :=
  if apdu.cla ≠ 0 then none
  else if apdu.ins = 0x20 then Piv.verifyChange state session apdu
  else if apdu.ins = 0x24 then Piv.changePinChange state session apdu
  else if apdu.ins = 0x47 then Piv.generateChange crypto state session entropy apdu
  else if apdu.ins = 0xDB then Piv.putDataChange state session apdu
  else none

namespace Piv

section

variable {β : Type} [StorageBackend β] [FallibleBackend β] {crypto : AppletCrypto}
  {state : PivState} {h : Host β PivState PivSession}

theorem stays {r : Except Fault ResponseData} : Change.Outcome crypto pivFormat h h none r :=
  .stays r rfl rfl rfl

variable (hmem : h.memory.state = some state) (hb : h.storage.backend.isSome)

include hmem hb

/-- The end of a command that is given a wrong PIN. -/
theorem ends_missed : Host.Ends crypto pivFormat
    (do let sw ← pivConsumeRetry; refuse sw : PivCommand ResponseData) h fun r g =>
      Change.Outcome crypto pivFormat h g (some (missed state h.memory.session)) r := by
  have hwritten : ∀ {g t : Host β PivState PivSession},
      Change.Poised (missed state h.memory.session) h g →
      Host.Written crypto pivFormat state.consumed g t →
      Change.Outcome crypto pivFormat h t (some (missed state h.memory.session))
        (.error (.status (missedSw state))) :=
    fun hp ht => hp.written ht (ht.memory.trans hp.memory) rfl rfl
  have hunwritten : ∀ {g t : Host β PivState PivSession},
      Change.Poised (missed state h.memory.session) h g →
      Host.Unwritten crypto pivFormat state.consumed g t →
      Change.Outcome crypto pivFormat h t (some (missed state h.memory.session))
        (.error (.status pivFormat.failure)) :=
    fun hp ht => hp.unwritten ht (ht.memory.trans hp.memory) rfl rfl
  refine .bind (.stateMut hmem (.setState ?_))
  show Host.Ends _ _ (if missedSw state = swSecurityStatus then _ else _) _ _
  split
  · next hsw =>
      have hp : Change.Poised (missed state h.memory.session) h
          { h with memory := ⟨some state.consumed, ⟨false⟩⟩ } :=
        ⟨by simp only [missed, if_pos hsw], rfl, rfl, rfl⟩
      refine .modifySession (.persistState rfl ?_ (fun t ht => ?_) fun t ht => ?_)
      · exact hb
      · exact hwritten hp ht
      · exact hunwritten hp ht
  · next hsw =>
      have hp : Change.Poised (missed state h.memory.session) h
          { h with memory := ⟨some state.consumed, h.memory.session⟩ } :=
        ⟨by simp only [missed, if_neg hsw], rfl, rfl, rfl⟩
      refine .persistState rfl ?_ (fun t ht => ?_) fun t ht => ?_
      · exact hb
      · exact hwritten hp ht
      · exact hunwritten hp ht

omit hmem in
/-- The end of a command that is given the right PIN. -/
theorem ends_presented (new : PivState) : Host.Ends crypto pivFormat
    (do
      setState new
      persistState
      modifySession fun _ => ⟨true⟩
      pure (.ok []) : PivCommand ResponseData) h fun r g =>
      Change.Outcome crypto pivFormat h g (some (presented new h.memory.session)) r := by
  have hp : Change.Poised (presented new h.memory.session) h
      { h with memory := ⟨some new, h.memory.session⟩ } := ⟨rfl, rfl, rfl, rfl⟩
  refine .setState (.persistState rfl ?_ (fun t ht => ?_) fun t ht => ?_)
  · exact hb
  · refine .modifySession (.pure (hp.written ht ?_ rfl rfl))
    rw [ht.memory]
    rfl
  · exact hp.unwritten ht ht.memory rfl rfl

omit hb in
theorem ends_pivGetData (apdu : Apdu) :
    Host.Ends crypto pivFormat (pivGetData apdu) h fun r g =>
      Change.Outcome crypto pivFormat h g none r := by
  refine .require (fun _ => ?_) fun _ => stays
  refine .ite (fun _ => .orFault (fun _ _ => .pure stays) fun _ _ => stays) fun _ =>
    .ite (fun _ => .orFault (fun _ _ => .pure stays) fun _ _ => stays) fun _ => ?_
  split
  · exact .stateMut hmem (.orRefuse (fun _ _ => .pure stays) fun _ => stays)
  · exact .refuse stays

omit hb in
theorem ends_pivAuthenticate (apdu : Apdu) :
    Host.Ends crypto pivFormat (pivAuthenticate crypto apdu) h fun r g =>
      Change.Outcome crypto pivFormat h g none r := by
  refine .orRefuse (fun slot _ => ?_) fun _ => stays
  refine .bind (.session (.require_last (fun _ => ?_) fun _ => stays))
  refine .orRefuse (fun challenge _ => .stateMut hmem ?_) fun _ => stays
  refine .orRefuse (fun found _ => .require (fun _ => ?_) fun _ => stays) fun _ => stays
  exact Change.ends_signWith (fun _ _ hmemory hsaved hstorage =>
    .pure (.stays _ hmemory hsaved hstorage)) fun _ hmemory hsaved hstorage =>
    .stays _ hmemory hsaved hstorage

theorem ends_pivVerify (apdu : Apdu) :
    Host.Ends crypto pivFormat (pivVerify apdu) h fun r g =>
      Change.Outcome crypto pivFormat h g (verifyChange state h.memory.session apdu) r := by
  unfold verifyChange
  refine .require (fun hp => ?_) fun hp => ?_
  · simp only [Bool.and_eq_true, decide_eq_true_eq] at hp
    refine .stateMut hmem (.require (fun hretries => ?_) fun hretries => ?_)
    · replace hretries := of_decide_eq_true hretries
      refine .ite (fun hempty => ?_) fun hne => ?_
      · rw [if_neg fun h => h.2.2 hempty]
        exact .pure stays
      · have hcompared : (apdu.p1 = 0x00 ∧ apdu.p2 = 0x80) ∧ state.retries ≠ 0 ∧ apdu.data ≠ [] :=
          ⟨hp, hretries, hne⟩
        rw [if_pos hcompared]
        refine .ite (fun hpin => ?_) fun hpin => ?_
        · rw [if_pos hpin]
          exact ends_presented hb state.restored
        · rw [if_neg hpin]
          exact ends_missed hmem hb
    · rw [if_neg fun h => of_decide_eq_false hretries h.2.1]
      exact stays
  · rw [if_neg fun h => absurd hp (by simp [h.1.1, h.1.2])]
    exact stays

theorem ends_pivChangeReferenceData (apdu : Apdu) :
    Host.Ends crypto pivFormat (pivChangeReferenceData apdu) h fun r g =>
      Change.Outcome crypto pivFormat h g (changePinChange state h.memory.session apdu) r := by
  unfold changePinChange
  refine .require (fun hp => ?_) fun hp => ?_
  · simp only [Bool.and_eq_true, decide_eq_true_eq] at hp
    refine .stateMut hmem (.require (fun hretries => ?_) fun hretries => ?_)
    · replace hretries := of_decide_eq_true hretries
      refine .require (fun hlen => ?_) fun hlen => ?_
      · rw [if_pos ⟨hp, hretries, of_decide_eq_true hlen⟩]
        simp only
        split
        · next hpin =>
            refine .ite (fun hold => ?_) fun hold => ?_
            · rw [if_pos hold]
              exact ends_presented hb _
            · rw [if_neg hold]
              exact ends_missed hmem hb
        · exact .refuse stays
      · rw [if_neg fun h => of_decide_eq_false hlen h.2.2]
        exact stays
    · rw [if_neg fun h => of_decide_eq_false hretries h.2.1]
      exact stays
  · rw [if_neg fun h => absurd hp (by simp [h.1.1, h.1.2])]
    exact stays

theorem ends_pivGenerate (apdu : Apdu) :
    Host.Ends crypto pivFormat (pivGenerate crypto apdu) h fun r g =>
      Change.Outcome crypto pivFormat h g
        (generateChange crypto state h.memory.session (h.rng 0) apdu) r := by
  unfold generateChange
  refine .require (fun hp => ?_) fun hp => ?_
  · rw [if_pos (of_decide_eq_true hp)]
    refine .orRefuse (fun slot hslot => ?_) fun hslot => ?_
    · refine .orRefuse (fun alg halg => ?_) fun halg => ?_
      · rw [hslot, halg]
        simp only [Option.bind_eq_bind, Option.bind_some]
        refine Change.ends_generateKey (fun key hkey => ?_) fun hkey => ?_
        · rw [hkey]
          refine .stateMut (h := { h with rng := fun n => h.rng (n + 1) }) hmem ?_
          refine .setState (Change.ends_persistOr ?_ hb ?_ ?_ ?_)
          · exact ⟨rfl, rfl, rfl, rfl⟩
          · rfl
          · rfl
          · rfl
        · rw [hkey]
          exact .stays _ rfl rfl rfl
      · rw [hslot, halg]
        exact stays
    · rw [hslot]
      exact stays
  · rw [if_neg (of_decide_eq_false hp)]
    exact stays

theorem ends_pivPutData (apdu : Apdu) :
    Host.Ends crypto pivFormat (pivPutData apdu) h fun r g =>
      Change.Outcome crypto pivFormat h g (putDataChange state h.memory.session apdu) r := by
  unfold putDataChange
  refine .require (fun hp => ?_) fun hp => ?_
  · simp only [Bool.and_eq_true, decide_eq_true_eq] at hp
    rw [if_pos hp]
    refine .orRefuse (fun cert hcert => ?_) fun hcert => ?_
    · rw [hcert]
      simp only [Option.bind_eq_bind, Option.bind_some]
      refine .bind (.session (.require_last (fun hopen => ?_) fun hopen => ?_))
      · rw [if_pos (by simpa using hopen)]
        refine .stateMut hmem (.setState (Change.ends_persistOr ?_ hb ?_ ?_ ?_))
        · exact ⟨rfl, rfl, rfl, rfl⟩
        · rfl
        · rfl
        · rfl
      · rw [if_neg (by simpa using hopen)]
        exact stays
    · rw [hcert]
      exact stays
  · rw [if_neg fun h => absurd hp (by simp [h.1, h.2])]
    exact stays

/-- How a command of the PIV applet ends. -/
theorem ends_pivProcess (apdu : Apdu) :
    Host.Ends crypto pivFormat (pivProcess crypto apdu) h fun r g =>
      Change.Outcome crypto pivFormat h g
        (pivChange crypto state h.memory.session (h.rng 0) apdu) r := by
  unfold pivChange
  refine .require (fun hcla => ?_) fun hcla => ?_
  · rw [if_neg (not_not.mpr (of_decide_eq_true hcla))]
    refine .ite (fun hins => ?_) fun hverify => .ite (fun hins => ?_) fun hchange =>
      .ite (fun hins => ?_) fun _ => .ite (fun hins => ?_) fun hgenerate =>
      .ite (fun hins => ?_) fun _ => .ite (fun hins => ?_) fun hput => ?_
    · rw [if_pos hins]
      exact ends_pivVerify hmem hb apdu
    · rw [if_neg hverify, if_pos hins]
      exact ends_pivChangeReferenceData hmem hb apdu
    · rw [hins]
      exact ends_pivGetData hmem apdu
    · rw [if_neg hverify, if_neg hchange, if_pos hins]
      exact ends_pivGenerate hmem hb apdu
    · rw [hins]
      exact ends_pivAuthenticate hmem apdu
    · rw [if_neg hverify, if_neg hchange, if_neg hgenerate, if_pos hins]
      exact ends_pivPutData hmem hb apdu
    · rw [if_neg hverify, if_neg hchange, if_neg hgenerate, if_neg hput]
      exact .refuse stays
  · rw [if_pos (of_decide_eq_false hcla)]
    exact stays

end

end Piv

end OpenKey
