import OpenKey.Device.KeyPairs
import Mathlib.Logic.Function.Basic

/-!
# The OpenPGP applet as its holder sees it

What a holder of the applet knows that has seen everything that went to it and came back: both
passwords with their retries, whether PW1 was given, and the public key that was told.

**Transcripts (`openPgp_transcript`).** Over a storage that does not fail, this explains every
answer in every sequence of commands, SELECTs and reboots. As with the PIV applet, GENERATE tells a
public key that was not known, and a signature is known to check under the last key that was told.
-/

namespace OpenKey

open Command

set_option autoImplicit false

/-! ## What a holder knows -/

/-- What a holder knows of the OpenPGP applet. PW3 is the password of the administrator. -/
structure OpenPgpView where
  password : Bool → Bytes
  retries : Bool → UInt8
  /-- PW1 was given. -/
  verified : Bool
  /-- The public key that was told. -/
  key : Option PublicKey

namespace OpenPgpView

/-- Of an applet that is built around a state. -/
def ofState (state : OpenPgpState) : OpenPgpView where
  password admin := (state.password admin).bytes
  retries admin := (state.password admin).retries
  verified := false
  key := state.sigKey.map ResidentKey.publicKey

section

variable (v : OpenPgpView)

/-- A wrong password. The last one for PW1 ends the session. -/
def missed (admin : Bool) : Except UInt16 ResponseData × OpenPgpView :=
  let left := v.retries admin - 1
  let w := { v with retries := Function.update v.retries admin left }
  if left = 0 then (.error swSecurityStatus, { w with verified := admin && v.verified })
  else (.error (swRetries left), w)

/-- The right password. -/
def presented (admin : Bool) : Except UInt16 ResponseData × OpenPgpView :=
  (.ok (.ok []), { v with
    retries := Function.update v.retries admin 3, verified := !admin || v.verified })

/-- VERIFY; without a password it tells the retries. -/
def verify (apdu : Apdu) : Except UInt16 ResponseData × OpenPgpView :=
  let slot := passwordSlot apdu
  if slot = 0x81 ∨ slot = 0x82 ∨ slot = 0x83 then
    let admin : Bool := slot = 0x83
    if v.retries admin ≠ 0 then
      if apdu.data = [] then (.ok (.withSw [] (swRetries (v.retries admin))), v)
      else if apdu.data = v.password admin then v.presented admin
      else v.missed admin
    else (.error swSecurityStatus, v)
  else (.error swWrongP1P2, v)

/-- The objects, the last three of them about the key. -/
def object (crypto : AppletCrypto) (p1 p2 : UInt8) : Except UInt16 Bytes :=
  if p1 = 0x00 ∧ p2 = 0x4F then .ok ([0x4F, UInt8.ofNat aidOpenPgpFull.length] ++ aidOpenPgpFull)
  else if p1 = 0x5F ∧ p2 = 0x52 then .ok historicalBytes
  else if p1 = 0x00 ∧ p2 = 0x7A then .ok (sigAlgoAttributes (v.key.map PublicKey.alg))
  else if p1 = 0xB6 ∧ p2 = 0x00 then
    v.key.elim (.error swSecurityStatus) fun key => .ok key.object
  else if p1 = 0x00 ∧ p2 = 0xC5 then
    v.key.elim (.error swSecurityStatus) fun key => .ok (crypto.sha256 key.bytes)
  else .error swFileNotFound

/-- What GENERATE is to make. -/
def asksFor (apdu : Apdu) : Except UInt16 KeyAlg :=
  if (apdu.p1 = 0x00 ∨ apdu.p1 = 0x80 ∨ apdu.p1 = 0x81) ∧ apdu.p2 = 0x00 then
    openPgpGenerateAlg apdu.data
  else .error swWrongP1P2

/-- What PERFORM SECURITY OPERATION is to sign, and under which public key. -/
def challenged (apdu : Apdu) : Except UInt16 (PublicKey × Bytes) :=
  if apdu.p1 = 0x9E ∧ apdu.p2 = 0x9A then
    if v.verified then
      if apdu.data ≠ [] ∧ apdu.data.length ≤ 512 then
        v.key.elim (.error swSecurityStatus) fun key => .ok (key, apdu.data)
      else .error swWrongSyntax
    else .error swSecurityStatus
  else if apdu.p1 = 0x80 ∧ apdu.p2 = 0x86 then .error swSecurityStatus
  else .error swWrongP1P2

/-- The answer to a request that makes and uses no key, and what is known after it. -/
def serve (crypto : AppletCrypto) (apdu : Apdu) : Except UInt16 ResponseData × OpenPgpView :=
  if apdu.ins = 0x20 then v.verify apdu
  else if apdu.ins = 0xCA then ((v.object crypto apdu.p1 apdu.p2).map .ok, v)
  else (.error swInsNotSupported, v)

end

/-! ## Transcripts -/

/-- What a holder that knows `v` may see, and what it then knows. -/
inductive Explains (crypto : AppletCrypto) (verifiers : Verifiers) :
    OpenPgpView → AppletUse × Except Fault ResponseData → OpenPgpView → Prop
  | foreign {v : OpenPgpView} {apdu : Apdu} (hcla : apdu.cla ≠ 0) :
      Explains crypto verifiers v (.command apdu, .error (.status swClassNotSupported)) v
  | served {v : OpenPgpView} {apdu : Apdu} (hcla : apdu.cla = 0)
      (hins : apdu.ins ≠ 0x47 ∧ apdu.ins ≠ 0x2A) : Explains crypto verifiers v
        (.command apdu, (v.serve crypto apdu).1.mapError .status) (v.serve crypto apdu).2
  | generated {v : OpenPgpView} {apdu : Apdu} {key : PublicKey} (hcla : apdu.cla = 0)
      (hins : apdu.ins = 0x47) (h : asksFor apdu = .ok key.alg) :
      Explains crypto verifiers v (.command apdu, .ok (.ok key.object)) { v with key := some key }
  | ungenerated {v : OpenPgpView} {apdu : Apdu} {sw : UInt16} (hcla : apdu.cla = 0)
      (hins : apdu.ins = 0x47)
      (h : asksFor apdu = .error sw ∨ sw = swConditionsNotSatisfied ∧ ∃ alg entropy,
        asksFor apdu = .ok alg ∧ generatedKey crypto entropy alg = none) :
      Explains crypto verifiers v (.command apdu, .error (.status sw)) v
  | signed {v : OpenPgpView} {apdu : Apdu} {key : PublicKey} {data : Bytes}
      {answer : Except Fault ResponseData} (hcla : apdu.cla = 0) (hins : apdu.ins = 0x2A)
      (h : v.challenged apdu = .ok (key, data))
      (hanswer : SignatureAnswer crypto verifiers key data answer) :
      Explains crypto verifiers v (.command apdu, answer) v
  | unsigned {v : OpenPgpView} {apdu : Apdu} {sw : UInt16} (hcla : apdu.cla = 0)
      (hins : apdu.ins = 0x2A) (h : v.challenged apdu = .error sw) :
      Explains crypto verifiers v (.command apdu, .error (.status sw)) v
  | selected {v : OpenPgpView} {data : Bytes} (h : applicationData = .ok data) :
      Explains crypto verifiers v (.select, .ok (.ok data)) v
  | rebooted {v : OpenPgpView} {rng : Nat → Entropy} :
      Explains crypto verifiers v (.reboot rng, .ok (.ok [])) { v with verified := false }

section

variable {crypto : AppletCrypto} {verifiers : Verifiers} {v : OpenPgpView}

variable (crypto) in
/-- What a holder notes down on an answer: it reads the public key off the answer to GENERATE. -/
def noted (v : OpenPgpView) : AppletUse × Except Fault ResponseData → OpenPgpView
  | (.select, _) => v
  | (.reboot _, _) => { v with verified := false }
  | (.command apdu, answer) =>
      if apdu.cla ≠ 0 ∨ apdu.ins = 0x2A then v
      else if apdu.ins = 0x47 then
        match asksFor apdu, answer with
        | .ok alg, .ok response => { v with key := some ⟨alg, response.data.drop 8⟩ }
        | _, _ => v
      else (v.serve crypto apdu).2

/-- What is seen decides what is then known. -/
theorem Explains.eq_noted {x : AppletUse × Except Fault ResponseData} {w : OpenPgpView}
    (h : Explains crypto verifiers v x w) : w = v.noted crypto x := by
  cases h with
  | foreign hcla => exact (if_pos (.inl hcla)).symm
  | @served apdu hcla hins =>
    have hother : ¬(apdu.cla ≠ 0 ∨ apdu.ins = 0x2A) := not_or.mpr ⟨not_not.mpr hcla, hins.2⟩
    simp only [noted]
    rw [if_neg hother, if_neg hins.1]
  | @generated apdu key hcla hins h =>
    have hother : ¬(apdu.cla ≠ 0 ∨ apdu.ins = 0x2A) := by
      rw [hins]
      exact not_or.mpr ⟨not_not.mpr hcla, by decide⟩
    simp only [noted]
    rw [if_neg hother, if_pos hins, h]
    simp only [ResponseData.ok, PublicKey.drop_object]
  | @ungenerated apdu _ hcla hins h =>
    have hother : ¬(apdu.cla ≠ 0 ∨ apdu.ins = 0x2A) := by
      rw [hins]
      exact not_or.mpr ⟨not_not.mpr hcla, by decide⟩
    simp only [noted]
    rw [if_neg hother, if_pos hins]
    cases asksFor apdu with
    | error _ => rfl
    | ok _ => rfl
  | signed hcla hins => exact (if_pos (.inr hins)).symm
  | unsigned hcla hins => exact (if_pos (.inr hins)).symm
  | selected => rfl
  | rebooted => rfl

end

/-! ## What is known of a cell -/

/-- The state is as the holder knows, and put away, and its key came from the generator. -/
structure Shows (crypto : AppletCrypto) (c : Cell OpenPgpState OpenPgpSession)
    (v : OpenPgpView) : Prop where
  password : ∀ admin, (c.state.password admin).bytes = v.password admin
  retries : ∀ admin, (c.state.password admin).retries = v.retries admin
  verified : c.session.pw1Verified = v.verified
  key : c.state.sigKey.map ResidentKey.publicKey = v.key
  generated : ∀ key ∈ c.state.sigKey, key.Generated crypto
  kept : c.kept = c.state

end OpenPgpView

/-- Each password has its own place. -/
theorem OpenPgpState.password_withPassword (state : OpenPgpState) (admin other : Bool)
    (pw : Password) : (state.withPassword admin pw).password other =
      if other = admin then pw else state.password other := by
  cases admin <;> cases other <;> rfl

theorem OpenPgpState.sigKey_withPassword (state : OpenPgpState) (admin : Bool) (pw : Password) :
    (state.withPassword admin pw).sigKey = state.sigKey := by
  cases admin <;> rfl

namespace OpenPgpView

section

variable {crypto : AppletCrypto} {c : Cell OpenPgpState OpenPgpSession} {v : OpenPgpView}
  (h : Shows crypto c v)

include h

/-! ## The passwords -/

/-- A password with other retries, and another session. -/
theorem Shows.withPassword {admin : Bool} {pw : Password}
    (hbytes : pw.bytes = (c.state.password admin).bytes) {session : OpenPgpSession}
    {verified : Bool} (hsession : session.pw1Verified = verified) (rng : Nat → Entropy) :
    Shows crypto ⟨⟨c.state.withPassword admin pw, c.state.withPassword admin pw, session⟩, rng⟩
      { v with retries := Function.update v.retries admin pw.retries, verified := verified } := by
  refine ⟨fun other => ?_, fun other => ?_, hsession, ?_, fun key hkey => ?_, rfl⟩
  · show ((c.state.withPassword admin pw).password other).bytes = v.password other
    rw [OpenPgpState.password_withPassword]
    by_cases hother : other = admin
    · rw [if_pos hother, hbytes, ← hother]
      exact h.password other
    · rw [if_neg hother]
      exact h.password other
  · show ((c.state.withPassword admin pw).password other).retries =
      Function.update v.retries admin pw.retries other
    rw [OpenPgpState.password_withPassword, Function.update_apply]
    by_cases hother : other = admin
    · rw [if_pos hother, if_pos hother]
    · rw [if_neg hother, if_neg hother]
      exact h.retries other
  · show (c.state.withPassword admin pw).sigKey.map _ = v.key
    rw [OpenPgpState.sigKey_withPassword]
    exact h.key
  · refine h.generated key ?_
    rwa [← OpenPgpState.sigKey_withPassword c.state admin pw]

theorem foretold_missed {admin : Bool} (hleft : v.retries admin ≠ 0) :
    Foretold (Shows crypto) (v.missed admin) (Cell.run (do
      let pw := c.state.password admin
      setState (c.state.withPassword admin pw.consumed)
      let sw := if pw.consumed.retries = 0 then swSecurityStatus else swRetries pw.consumed.retries
      if sw = swSecurityStatus && !admin then modifySession fun _ => ⟨false⟩
      persistState
      refuse sw) c) := by
  have hfewer : (c.state.password admin).consumed.retries = v.retries admin - 1 := by
    show oneFewer (c.state.password admin).retries = _
    rw [h.retries admin, oneFewer, if_neg hleft]
  have hshows {session : OpenPgpSession} {verified : Bool}
      (hsession : session.pw1Verified = verified) :=
    h.withPassword (show (c.state.password admin).consumed.bytes = _ from rfl) hsession
  rw [hfewer] at hshows
  unfold OpenPgpView.missed
  rw [Cell.run_setState_bind]
  simp only [hfewer]
  by_cases hzero : v.retries admin - 1 = 0
  · rw [if_pos hzero, if_pos hzero, decide_eq_true rfl, Bool.true_and]
    cases admin with
    | false => exact ⟨rfl, hshows rfl _⟩
    | true => exact ⟨rfl, hshows h.verified _⟩
  · rw [if_neg hzero, if_neg hzero, decide_eq_false (swRetries_ne _), Bool.false_and]
    exact ⟨rfl, hshows h.verified _⟩

theorem foretold_presented (admin : Bool) :
    Foretold (Shows crypto) (v.presented admin) (Cell.run (do
      setState (c.state.withPassword admin (c.state.password admin).restored)
      persistState
      if !admin then modifySession fun _ => ⟨true⟩
      pure (.ok [])) c) := by
  have hshows {session : OpenPgpSession} {verified : Bool}
      (hsession : session.pw1Verified = verified) :=
    h.withPassword (show (c.state.password admin).restored.bytes = _ from rfl) hsession
  rw [Cell.run_setState_bind, Cell.run_persistState_bind]
  cases admin with
  | false => exact ⟨rfl, hshows rfl _⟩
  | true => exact ⟨rfl, hshows h.verified _⟩

theorem foretold_verify (apdu : Apdu) :
    Foretold (Shows crypto) (v.verify apdu) (Cell.run (openPgpVerify apdu) c) := by
  refine foretold_require (by simp [or_assoc]) h fun _ => ?_
  rw [Cell.run_stateMut_bind]
  simp only
  refine foretold_require (by simp [h.retries]) h fun hleft => ?_
  refine foretold_ite (fun _ => ?_) fun _ => ?_
  · rw [← h.retries]
    exact foretold_pure h _
  · rw [← h.password]
    exact foretold_ite (fun _ => foretold_presented h _) fun _ => foretold_missed h hleft

/-! ## Objects and keys -/

theorem foretold_getData (apdu : Apdu) :
    Foretold (Shows crypto) ((v.object crypto apdu.p1 apdu.p2).map .ok, v)
      (Cell.run (openPgpGetData crypto apdu) c) := by
  unfold openPgpGetData object
  rw [← h.key]
  split_ifs with haid hhistorical hattributes hkey hfingerprint
  · have hobject : pushTlv [] 0x4F aidOpenPgpFull =
        .ok ([0x4F, UInt8.ofNat aidOpenPgpFull.length] ++ aidOpenPgpFull) := rfl
    rw [hobject]
    exact foretold_pure h _
  · exact foretold_pure h _
  · rw [Cell.run_stateMut_bind, Option.map_map]
    exact foretold_pure h _
  · rw [Cell.run_stateMut_bind, Cell.run_orRefuse_bind]
    cases c.state.sigKey with
    | none => exact foretold_refuse h _
    | some key => exact foretold_pure h _
  · rw [Cell.run_stateMut_bind, Cell.run_orRefuse_bind]
    cases c.state.sigKey with
    | none => exact foretold_refuse h _
    | some key => exact foretold_pure h _
  · exact foretold_refuse h _

omit h in
theorem run_openPgpGenerate (apdu : Apdu) : Cell.run (openPgpGenerate crypto apdu) c =
    match asksFor apdu with
    | .error sw => (.error (.status sw), c)
    | .ok alg => match generatedKey crypto (c.rng 0) alg with
      | some key => (.ok (.ok key.publicKey.object), ⟨⟨{ c.state with sigKey := some key },
          { c.state with sigKey := some key }, c.session⟩, fun n => c.rng (n + 2)⟩)
      | none => (.error (.status swConditionsNotSatisfied),
          { c with rng := fun n => c.rng (n + 1) }) := by
  unfold openPgpGenerate asksFor
  rw [Cell.run_require_bind]
  by_cases hplace : (apdu.p1 = 0x00 ∨ apdu.p1 = 0x80 ∨ apdu.p1 = 0x81) ∧ apdu.p2 = 0x00
  · rw [if_pos (by simpa [or_assoc] using hplace), if_pos hplace, Cell.run_orStatus_bind]
    cases openPgpGenerateAlg apdu.data with
    | error sw => rfl
    | ok alg =>
      exact Cell.run_generate crypto alg (fun state key => { state with sigKey := some key }) _ c
  · rw [if_neg (by simpa [or_assoc] using hplace), if_neg hplace]

theorem explains_generate {verifiers : Verifiers} {apdu : Apdu} (hcla : apdu.cla = 0)
    (hins : apdu.ins = 0x47) : ∃ w,
    Explains crypto verifiers v (.command apdu, (Cell.run (openPgpGenerate crypto apdu) c).1) w ∧
      Shows crypto (Cell.run (openPgpGenerate crypto apdu) c).2 w := by
  rw [run_openPgpGenerate]
  cases hasks : asksFor apdu with
  | error sw => exact ⟨v, .ungenerated hcla hins (.inl hasks), h⟩
  | ok alg =>
    simp only
    cases hmade : generatedKey crypto (c.rng 0) alg with
    | none =>
      exact ⟨v, .ungenerated hcla hins (.inr ⟨rfl, alg, c.rng 0, hasks, hmade⟩),
        ⟨h.password, h.retries, h.verified, h.key, h.generated, h.kept⟩⟩
    | some key =>
      obtain rfl := (ResidentKey.of_generatedKey hmade).1
      have hexplains : Explains crypto verifiers v
          (.command apdu, .ok (.ok key.publicKey.object)) { v with key := some key.publicKey } :=
        .generated hcla hins hasks
      refine ⟨_, hexplains, h.password, h.retries, h.verified, rfl, fun found hfound => ?_, rfl⟩
      obtain rfl := Option.some.inj hfound
      exact ResidentKey.generated_of_generatedKey hmade

/-- PERFORM SECURITY OPERATION, to a request that it takes and to others. -/
theorem run_pso (apdu : Apdu) :
    (∃ sw, v.challenged apdu = .error sw ∧
      Cell.run (openPgpPso crypto apdu) c = (.error (.status sw), c)) ∨
    ∃ key : ResidentKey, v.challenged apdu = .ok (key.publicKey, apdu.data) ∧
      key.Generated crypto ∧ Cell.run (openPgpPso crypto apdu) c =
        Cell.run (do
          let signature ← signWith crypto key apdu.data
          pure (.ok signature)) c := by
  unfold openPgpPso challenged
  rw [← h.key, ← h.verified]
  by_cases hsign : apdu.p1 = 0x9E ∧ apdu.p2 = 0x9A
  · rw [if_pos hsign, if_pos hsign, Cell.run_session_bind, Cell.run_require_bind]
    by_cases hverified : c.session.pw1Verified = true
    · rw [if_pos hverified, if_pos hverified, Cell.run_require_bind]
      by_cases hlength : apdu.data ≠ [] ∧ apdu.data.length ≤ 512
      · have hbool : (apdu.data ≠ [] && apdu.data.length ≤ 512 : Bool) = true := by
          simpa using hlength
        rw [if_pos hlength, if_pos hbool, Cell.run_stateMut_bind, Cell.run_orRefuse_bind]
        cases hkey : c.state.sigKey with
        | none => exact .inl ⟨_, rfl, rfl⟩
        | some key => exact .inr ⟨key, rfl, h.generated key hkey, rfl⟩
      · have hbool : ¬(apdu.data ≠ [] && apdu.data.length ≤ 512 : Bool) = true := by
          simpa using hlength
        rw [if_neg hlength, if_neg hbool]
        exact .inl ⟨_, rfl, rfl⟩
    · rw [if_neg hverified, if_neg hverified]
      exact .inl ⟨_, rfl, rfl⟩
  · rw [if_neg hsign, if_neg hsign]
    by_cases hdecipher : apdu.p1 = 0x80 ∧ apdu.p2 = 0x86
    · rw [if_pos hdecipher, if_pos hdecipher]
      exact .inl ⟨_, rfl, rfl⟩
    · rw [if_neg hdecipher, if_neg hdecipher]
      exact .inl ⟨_, rfl, rfl⟩

theorem explains_pso {verifiers : Verifiers} (hsound : verifiers.Sound crypto.prims)
    {apdu : Apdu} (hcla : apdu.cla = 0) (hins : apdu.ins = 0x2A) : ∃ w,
    Explains crypto verifiers v (.command apdu, (Cell.run (openPgpPso crypto apdu) c).1) w ∧
      Shows crypto (Cell.run (openPgpPso crypto apdu) c).2 w := by
  refine ⟨v, ?_⟩
  rcases run_pso h apdu with ⟨sw, hchallenged, hrun⟩ | ⟨key, hchallenged, hkey, hrun⟩
  · rw [hrun]
    exact ⟨.unsigned hcla hins hchallenged, h⟩
  · obtain ⟨answer, rng, hsign, hanswer⟩ := Cell.run_signWith crypto hsound hkey apdu.data c
    rw [hrun, hsign]
    exact ⟨.signed hcla hins hchallenged hanswer,
      ⟨h.password, h.retries, h.verified, h.key, h.generated, h.kept⟩⟩

/-! ## The uses of the applet -/

theorem foretold_serve {apdu : Apdu} (hgenerate : apdu.ins ≠ 0x47) (hpso : apdu.ins ≠ 0x2A)
    (hcla : apdu.cla = 0) :
    Foretold (Shows crypto) (v.serve crypto apdu) (Cell.run (openPgpProcess crypto apdu) c) := by
  unfold openPgpProcess OpenPgpView.serve
  rw [Cell.run_require_bind, if_pos (decide_eq_true hcla), if_neg hgenerate, if_neg hpso]
  exact foretold_ite (fun _ => foretold_verify h apdu) fun _ =>
    foretold_ite (fun _ => foretold_getData h apdu) fun _ => foretold_refuse h _

theorem explains_command {verifiers : Verifiers} (hsound : verifiers.Sound crypto.prims)
    (apdu : Apdu) : ∃ w,
    Explains crypto verifiers v (.command apdu, (Cell.run (openPgpProcess crypto apdu) c).1) w ∧
      Shows crypto (Cell.run (openPgpProcess crypto apdu) c).2 w := by
  by_cases hcla : apdu.cla = 0
  · by_cases hgenerate : apdu.ins = 0x47
    · have hprocess : Cell.run (openPgpProcess crypto apdu) c =
          Cell.run (openPgpGenerate crypto apdu) c := by
        unfold openPgpProcess
        rw [Cell.run_require_bind, if_pos (decide_eq_true hcla), hgenerate]
        rfl
      rw [hprocess]
      exact explains_generate h hcla hgenerate
    · by_cases hpso : apdu.ins = 0x2A
      · have hprocess : Cell.run (openPgpProcess crypto apdu) c =
            Cell.run (openPgpPso crypto apdu) c := by
          unfold openPgpProcess
          rw [Cell.run_require_bind, if_pos (decide_eq_true hcla), hpso]
          rfl
        rw [hprocess]
        exact explains_pso h hsound hcla hpso
      · obtain ⟨hanswer, hshows⟩ := foretold_serve h hgenerate hpso hcla
        rw [hanswer]
        exact ⟨_, .served hcla ⟨hgenerate, hpso⟩, hshows⟩
  · unfold openPgpProcess
    rw [Cell.run_require_bind, if_neg (mt of_decide_eq_true hcla)]
    exact ⟨v, .foreign hcla, h⟩

/-- Every use of a cell is explained by what was known. -/
theorem explains_use {verifiers : Verifiers} (hsound : verifiers.Sound crypto.prims)
    (e : AppletUse) : ∃ w,
    Explains crypto verifiers v (e, ((Cell.use crypto .openPgp e).run c).1) w ∧
      Shows crypto ((Cell.use crypto .openPgp e).run c).2 w := by
  cases e with
  | select => exact ⟨v, .selected rfl, h⟩
  | command apdu => exact explains_command h hsound apdu
  | reboot rng =>
    refine ⟨_, .rebooted, ?_⟩
    show Shows crypto ⟨⟨c.kept, c.kept, ⟨false⟩⟩, rng⟩ _
    rw [h.kept]
    exact ⟨h.password, h.retries, rfl, h.key, h.generated, rfl⟩

end

/-- Over a storage that does not fail, all that the applet answers is explained by what a holder
knows that has seen all of it, and knew the state at the beginning. -/
theorem openPgp_transcript {β : Type} [StorageBackend β] [LawfulBackend β]
    (codec : Codec StoredCredential) {crypto : AppletCrypto} (haead : AeadSound crypto.prims)
    (htotal : AeadTotal crypto.prims) {verifiers : Verifiers}
    (hsound : verifiers.Sound crypto.prims) {patience : Nat} {b : β} {rng : Nat → Entropy}
    {h : Host β OpenPgpState OpenPgpSession}
    (hkeys : ∀ state, Host.Opens crypto openPgpFormat (StorageEngine.withBackend codec b) state →
      ∀ key ∈ state.sigKey, key.Generated crypto)
    (hbuilt : Host.built codec crypto patience .openPgp b rng = (.ok (), h)) : ∃ state,
    Host.Opens crypto openPgpFormat (StorageEngine.withBackend codec b) state ∧
      ∀ uses : List AppletUse, ∃! w, Transcript (Explains crypto verifiers) (ofState state)
        (uses.zip (Prog.results (Host.use codec crypto patience .openPgp) uses h).1) w :=
  Host.transcript_of_built (n := .openPgp) (R := Shows crypto) codec haead htotal
    (fun _ _ _ _ h h' => h.eq_noted.trans h'.eq_noted.symm)
    (fun e _ _ hshows => explains_use hshows hsound e)
    (fun state _ hopens => ⟨fun _ => rfl, fun _ => rfl, rfl, rfl, hkeys state hopens, rfl⟩)
    hbuilt

/-! ## A signature before a reboot, and none after it -/

/-- What ChaCha20-Poly1305 makes of the factory state, and of the state with a key. -/
def pgpAead : KnownAead where
  rows := [
    .of 0x02 0x09
      (Bytes.beBytes 20 0x0206313233343536030831323334353637380300)
      (Bytes.beBytes 32 0x107121fffac924d1afb1fa586865e46fe2587fc0e889e78ec4c73a880038d3da ++
        Bytes.beBytes 4 0xf7749c89),
    .of 0x02 0x09
      (Bytes.beBytes 32 0x0206313233343536030831323334353637380301e00020090909090909090909 ++
        Bytes.beBytes 32 0x09090909090909090909090909090909090909090909090020fd1724385aa0c7 ++
        Bytes.beBytes 25 0x5b64fb78cd602fa1d991fdebf76b13c58ed702eac835e9f618)
      (Bytes.beBytes 32 0x107121fffac924d1afb1fa586865e46fe2587fc15d1b80773316c510007ccb6b ++
        Bytes.beBytes 32 0x8e0da3d0185a04dd0ea9c9ff3abcb6dd9a9da8d9f70426689d32bd9e3a1898ca ++
        Bytes.beBytes 32 0xc0c9261853588bc632d56591f1495c357f02bdfbc3f9320c2f53de3ccba2fd47 ++
        Bytes.beBytes 9 0x83dc9915786158eb5e)]
  opens := by decide +kernel
  one_key := by decide +kernel
  apart := by decide +kernel
  ne_nil := by decide +kernel

/-- VERIFY of PW1, GENERATE, a signature, and after a reboot no signature before VERIFY. -/
def pgpUses : List AppletUse :=
  let verify := .command ⟨0x00, 0x20, 0x00, 0x81, [0x31, 0x32, 0x33, 0x34, 0x35, 0x36], none⟩
  let sign := .command ⟨0x00, 0x2A, 0x9E, 0x9A, [1, 2, 3], none⟩
  [verify, .command ⟨0x00, 0x47, 0x80, 0x00, [0xE0], none⟩, sign,
    .reboot (KnownAead.constantDraws 0x09), sign, verify, sign]

def pgpAnswers : List (Except Fault ResponseData) :=
  [.ok (.ok []), .ok (.ok (PublicKey.object ⟨.ed25519, ninesPublic⟩)), .ok (.ok ninesSignature),
    .ok (.ok []), .error (.status swSecurityStatus), .ok (.ok []), .ok (.ok ninesSignature)]

/-- The applet that is built over an empty medium. -/
def pgpHost : Except Fault Unit × Host KvMap OpenPgpState OpenPgpSession :=
  Host.built unusedCodec pgpAead.signing 1 .openPgp ∅ (KnownAead.constantDraws 0x09)

theorem openPgp_transcript_signed : ∃ state w,
    Transcript (Explains pgpAead.signing pgpAead.verifiers) (ofState state)
      (pgpUses.zip pgpAnswers) w := by
  have hbuilt : Host.built unusedCodec pgpAead.signing 1 .openPgp (∅ : KvMap)
      (KnownAead.constantDraws 0x09) = (.ok (), pgpHost.2) := Prod.ext (by decide +kernel) rfl
  have hkeys : ∀ state, Host.Opens pgpAead.signing openPgpFormat
      (StorageEngine.withBackend unusedCodec (∅ : KvMap)) state →
        ∀ key ∈ state.sigKey, key.Generated pgpAead.signing := by
    intro state hopens
    have hnone : Host.storedState pgpAead.signing openPgpFormat
        (StorageEngine.withBackend unusedCodec (∅ : KvMap)) = none := by decide +kernel
    rcases hopens with ⟨migrated, hstored⟩ | ⟨-, rng, rng', hfactory⟩
    · rw [hnone] at hstored
      cases hstored
    · obtain rfl := Except.ok.inj (congrArg Prod.fst hfactory)
      intro key hkey
      cases hkey
  have hanswers : (Prog.results (Host.use unusedCodec pgpAead.signing 1 .openPgp) pgpUses
      pgpHost.2).1 = pgpAnswers := by decide +kernel
  obtain ⟨state, -, hexplained⟩ := openPgp_transcript unusedCodec pgpAead.sound_signing
    pgpAead.total_signing pgpAead.sound_verifiers hkeys hbuilt
  obtain ⟨w, hlog, -⟩ := hexplained pgpUses
  rw [hanswers] at hlog
  exact ⟨state, w, hlog⟩

end OpenPgpView

end OpenKey
