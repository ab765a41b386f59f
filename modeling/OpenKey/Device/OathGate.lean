import OpenKey.Device.KnownAead
import OpenKey.Device.Oath

/-!
# The access code of the OATH applet

While an access code is set, the commands that show or change credentials need a session that
VALIDATE has opened.

**Who opens a session.** `RaisesNot` is what every other operation satisfies: it does not make a
session validated. All commands but VALIDATE ask only for such operations, so a validated session
goes back to a VALIDATE, and its checks say that the response was right.

**Runs.** `Reach past m`: after the events `past`, each with the machine it found, the machine is
`m`. An event is a SELECT, a command or a reboot, which may find any storage and any key.
-/

namespace OpenKey

open Command
open Prog (Keeps)

set_option autoImplicit false

namespace Oath

/-! ## Operations that open no session -/

/-- The operation does not make a session validated. -/
def RaisesNot : AppletOp OathState Session → Prop
  | .modifySession change => ∀ s, (change s).validated = true → s.validated = true
  | _ => True

section

variable {α : Type}

theorem asks_ensureLoaded : (ensureLoaded : OathCommand Unit).Asks RaisesNot :=
  (Script.Asks.call trivial).bind fun _ => Script.asks_lift _

theorem asks_persistState : (persistState : OathCommand Unit).Asks RaisesNot :=
  (Script.Asks.call trivial).bind fun _ => Script.asks_lift _

theorem asks_inspect : (inspect : OathCommand (Memory OathState Session)).Asks RaisesNot :=
  Script.Asks.call trivial

theorem asks_setState (state : OathState) : (setState state : OathCommand Unit).Asks RaisesNot :=
  Script.Asks.call trivial

theorem asks_draw : (draw : OathCommand Entropy).Asks RaisesNot := Script.Asks.call trivial

theorem asks_loadedState : (loadedState : OathCommand OathState).Asks RaisesNot :=
  asks_inspect.bind fun memory => by cases memory.state <;> trivial

theorem asks_stateMut : (stateMut : OathCommand OathState).Asks RaisesNot :=
  asks_ensureLoaded.bind fun _ => asks_loadedState

theorem asks_orRefuse (value : Option α) (sw : UInt16) :
    (orRefuse value sw : OathCommand α).Asks RaisesNot := by
  cases value <;> trivial

theorem asks_requireValidated : requireValidated.Asks RaisesNot :=
  asks_ensureLoaded.bind fun _ => asks_inspect.bind fun _ => Script.asks_require _ _

/-- A change of the state that is persisted. -/
theorem asks_persisted (state : OathState) (response : ResponseData) :
    (do setState state; persistState; pure response : OathCommand ResponseData).Asks RaisesNot :=
  (asks_setState state).bind fun _ => asks_persistState.bind fun _ => Script.asks_pure _

theorem asks_setRemaining (remaining : Option (Bytes × Nat)) :
    (modifySession fun s => { s with remaining := remaining } : OathCommand Unit).Asks RaisesNot :=
  Script.Asks.call fun _ h => h

theorem asks_cmdSendRemaining (apdu : Apdu) : (cmdSendRemaining apdu).Asks RaisesNot := by
  refine asks_requireValidated.bind fun _ =>
    (asks_inspect.bind fun _ => Script.asks_pure _).bind fun session => ?_
  rcases session.remaining with _ | ⟨buffer, pos⟩
  · exact Script.asks_fail _
  · exact .ite ((asks_setRemaining _).bind fun _ => Script.asks_pure _)
      (.ite ((asks_setRemaining _).bind fun _ => Script.asks_pure _)
        ((asks_setRemaining _).bind fun _ => Script.asks_pure _))

theorem asks_cmdPut (data : Bytes) : (cmdPut data).Asks RaisesNot := by
  refine asks_requireValidated.bind fun _ => (Script.asks_lift _).bind fun req =>
    asks_stateMut.bind fun state => ?_
  split
  · exact asks_persisted _ _
  · exact Script.asks_fail _

theorem asks_cmdDelete (data : Bytes) : (cmdDelete data).Asks RaisesNot :=
  asks_requireValidated.bind fun _ => (Script.asks_lift _).bind fun _ =>
    asks_stateMut.bind fun _ => .ite (asks_persisted _ _) (Script.asks_fail _)

theorem asks_cmdRename (data : Bytes) : (cmdRename data).Asks RaisesNot := by
  refine asks_requireValidated.bind fun _ => (Script.asks_lift _).bind fun names =>
    asks_stateMut.bind fun state => ?_
  split
  · exact .ite (Script.asks_fail _) (asks_persisted _ _)
  · exact Script.asks_fail _

variable (crypto : AppletCrypto)

theorem asks_cmdSetCode (data : Bytes) : (cmdSetCode crypto data).Asks RaisesNot := by
  refine asks_requireValidated.bind fun _ => (Script.asks_lift _).bind fun _ =>
    (Script.asks_lift _).bind fun request => .ite ?_ ?_
  · refine (Script.asks_lift _).bind fun _ => asks_stateMut.bind fun _ =>
      (asks_setState _).bind fun _ => (Script.Asks.call ?_).bind fun _ =>
      asks_persistState.bind fun _ => Script.asks_pure _
    intro _ h
    cases h
  · exact (Script.asks_lift _).bind fun _ => asks_draw.bind fun _ =>
      asks_stateMut.bind fun _ => asks_persisted _ _

theorem asks_cmdReset (p1 p2 : UInt8) : (cmdReset p1 p2).Asks RaisesNot := by
  refine (Script.asks_require _ _).bind fun _ => asks_draw.bind fun _ =>
    (asks_setState _).bind fun _ => (Script.Asks.call ?_).bind fun _ =>
    asks_persistState.bind fun _ => Script.asks_pure _
  intro _ h
  cases h

theorem asks_cmdList : cmdList.Asks RaisesNot :=
  asks_requireValidated.bind fun _ => asks_stateMut.bind fun _ =>
    (Script.asks_lift _).bind fun _ => Script.asks_pure _

theorem asks_advanceCounter (name : Bytes) (cred : OathCredential) (next : Option UInt64) :
    (advanceCounter name cred next).Asks RaisesNot := by
  cases next with
  | none => exact Script.asks_pure _
  | some next =>
      refine asks_stateMut.bind fun _ => (asks_setState _).bind fun _ =>
        (Script.Asks.call trivial).bind fun persisted => ?_
      rcases persisted with _ | _
      · exact (asks_setState _).bind fun _ => Script.asks_fail _
      · exact Script.asks_pure _

theorem asks_cmdCalculate (p2 : UInt8) (data : Bytes) :
    (cmdCalculate crypto p2 data).Asks RaisesNot :=
  asks_requireValidated.bind fun _ => (Script.asks_lift _).bind fun _ =>
    asks_stateMut.bind fun _ => (asks_orRefuse _ _).bind fun _ =>
    (Script.asks_lift _).bind fun _ => (asks_advanceCounter _ _ _).bind fun _ =>
    (Script.asks_lift _).bind fun _ => Script.asks_pure _

theorem asks_cmdCalculateAll (p2 : UInt8) (data : Bytes) :
    (cmdCalculateAll crypto p2 data).Asks RaisesNot :=
  asks_requireValidated.bind fun _ => (Script.asks_lift _).bind fun _ =>
    asks_stateMut.bind fun _ => (Script.asks_lift _).bind fun _ => Script.asks_pure _

theorem asks_checkValidate (data : Bytes) : (checkValidate crypto data).Asks RaisesNot := by
  refine asks_stateMut.bind fun state => ?_
  split
  · exact (Script.asks_lift _).bind fun _ => (Script.asks_require _ _).bind fun _ =>
      Script.asks_pure _
  · exact Script.asks_fail _

/-- VALIDATE apart, no command opens a session. -/
theorem asks_dispatch {apdu : Apdu} (h : apdu.ins ≠ insValidate) :
    (dispatch crypto apdu).Asks RaisesNot := by
  unfold dispatch
  rw [if_neg h]
  exact .ite (asks_cmdPut _) (.ite (asks_cmdDelete _) (.ite (asks_cmdSetCode _ _)
    (.ite (asks_cmdReset _ _) (.ite (asks_cmdRename _) (.ite asks_cmdList
    (.ite (asks_cmdCalculate _ _ _) (.ite (asks_cmdCalculateAll _ _ _)
    (Script.asks_fail _))))))))

theorem asks_rotateChallengeForSelect : rotateChallengeForSelect.Asks RaisesNot := by
  refine asks_inspect.bind fun _ => .ite ?_ (Script.asks_pure _)
  refine asks_draw.bind fun _ => asks_stateMut.bind fun state => ?_
  rcases state.access with _ | _
  · exact Script.asks_fail _
  · exact (asks_setState _).bind fun _ => asks_persistState

theorem asks_selectResponse : selectResponse.Asks RaisesNot := by
  refine (Script.Asks.call trivial).bind fun loaded => ?_
  rcases loaded with _ | _
  · exact Script.asks_pure _
  · exact asks_loadedState.bind fun _ => Script.asks_lift _

end

/-! ## Sessions -/

section

variable {β : Type} [StorageBackend β]

/-- The moves that do not make a session validated. -/
def staysLocked : Prog.Frame (Host β OathState Session) where
  rel g h := h.memory.session.validated = true → g.memory.session.validated = true
  refl _ := id
  trans h₁ h₂ := h₁ ∘ h₂

variable {crypto : AppletCrypto} {α : Type}

omit [StorageBackend β] in
theorem staysLocked_of_session {ε : Type} {m : Prog (Host β OathState Session) ε α}
    (h : Keeps (Prog.Frame.constant fun h => h.memory.session) m) : Keeps staysLocked m :=
  h.mono fun g t hsession hvalid => by
    have heq : t.memory.session = g.memory.session := hsession
    rw [← heq]
    exact hvalid

theorem keeps_staysLocked {command : OathCommand α} (h : command.Asks RaisesNot) :
    Keeps staysLocked
      (Host.perform crypto format command : Prog (Host β OathState Session) _ α) := by
  refine Script.Asks.keeps _ (fun op hop => ?_) h
  cases op with
  | inspect => exact Keeps.read _
  | setState state => exact Keeps.update fun _ h => h
  | modifySession change => exact Keeps.update fun g => hop g.memory.session
  | draw => exact Keeps.act fun _ h => h
  | ensureLoaded => exact fun g => staysLocked_of_session Host.keeps_session_ensureLoaded g
  | persistState =>
      exact fun g => staysLocked_of_session
        (Host.keeps_memory_persistState.mono fun _ _ h => congrArg Memory.session h) g

/-! ## VALIDATE -/

/-- The request carries the right response to the challenge in force. -/
def Answers (crypto : AppletCrypto) (h : Host β OathState Session) (data : Bytes) : Prop :=
  ∃ state access pending response challenge, Host.current crypto format h = some state ∧
    state.access = some access ∧ state.pendingChallenge = some pending ∧
    parseValidate data = .ok (response, challenge) ∧
    response = hmacByAlgorithm crypto access.algorithm access.key pending

theorem access_of_factory {state : OathState} {rng rng' : Nat → Entropy}
    (h : format.factory.run rng = (.ok state, rng')) : state.access = none := by
  cases h
  rfl

theorem answers_of_checkValidate {h h' : Host β OathState Session} {data : Bytes}
    {result : OathState × OathAccess × { c : Bytes // ChallengeOk c }}
    (hrun : (Host.perform crypto format (checkValidate crypto data)).run h = (.ok result, h')) :
    Answers crypto h data := by
  obtain ⟨state, g, hstate, hrest⟩ := Host.perform_bind_eq_ok.mp hrun
  simp only at hrest
  split at hrest
  · next access pending haccess hpending =>
      obtain ⟨⟨response, challenge⟩, g', hparse, hrest⟩ := Host.perform_bind_eq_ok.mp hrest
      obtain ⟨u, g'', hright, -⟩ := Host.perform_bind_eq_ok.mp hrest
      have hparsed : parseValidate data = .ok (response, challenge) := by
        unfold orStatus at hparse
        rcases hdata : parseValidate data with sw | parsed
        · rw [hdata] at hparse
          cases hparse
        · rw [hdata] at hparse
          cases hparse
          rfl
      have hcode : hmacByAlgorithm crypto access.algorithm access.key pending = response := by
        by_contra hwrong
        unfold require at hright
        simp only [decide_eq_false hwrong] at hright
        cases hright
      obtain ⟨-, hcur | ⟨-, rng, rng', hfactory⟩⟩ := Host.state_of_stateMut hstate
      · exact ⟨state, access, pending, response, challenge, hcur, haccess, hpending, hparsed,
          hcode.symm⟩
      · rw [access_of_factory hfactory] at haccess
        cases haccess
  · cases hrest

/-- A session that VALIDATE leaves validated was so before, or the response was right. -/
theorem validated_of_cmdValidate {h : Host β OathState Session} {data : Bytes}
    (hvalid : ((Host.perform crypto format (cmdValidate crypto data)).run
      h).2.memory.session.validated
      = true) :
    h.memory.session.validated = true ∨ Answers crypto h data := by
  rw [Host.perform, cmdValidate, Script.run_perform_bind, Prog.run_bind] at hvalid
  rcases hcheck : (Host.perform crypto format (checkValidate crypto data)).run
    h with ⟨_ | result, g⟩
  · rw [Host.perform] at hcheck
    rw [hcheck] at hvalid
    exact .inl ((keeps_staysLocked (asks_checkValidate crypto data)).of_run hcheck hvalid)
  · exact .inr (answers_of_checkValidate hcheck)

theorem validated_of_dispatch {h : Host β OathState Session} {apdu : Apdu}
    (hvalid : ((Host.perform crypto format (dispatch crypto apdu)).run h).2.memory.session.validated
      = true) :
    h.memory.session.validated = true ∨
      apdu.ins = insValidate ∧ Answers crypto h apdu.data := by
  by_cases hins : apdu.ins = insValidate
  · have hdispatch : dispatch crypto apdu = cmdValidate crypto apdu.data := by
      rw [dispatch, hins]
      rfl
    rw [hdispatch] at hvalid
    exact (validated_of_cmdValidate hvalid).imp id fun h => ⟨hins, h⟩
  · exact .inl (keeps_staysLocked (asks_dispatch crypto hins) h hvalid)

/-- What `process` does behind a command. -/
def keepRemaining (apdu : Apdu) : Except Fault ResponseData → OathCommand ResponseData
  | .ok response => do
      modifySession fun s => { s with remaining := mirror apdu response }
      pure response
  | .error (.status sw) => do
      modifySession fun s => { s with remaining := none }
      refuse sw
  | .error fault => .fail fault

/-- A session that a command leaves validated was so before, or it was the right VALIDATE. -/
theorem validated_of_process {h : Host β OathState Session} {apdu : Apdu}
    (hvalid : ((Host.perform crypto format (process crypto apdu)).run h).2.memory.session.validated
      = true) :
    h.memory.session.validated = true ∨
      apdu.cla = 0 ∧ apdu.ins = insValidate ∧ Answers crypto h apdu.data := by
  by_cases hcla : apdu.cla = 0
  · by_cases hrem : apdu.ins = insSendRemaining
    · have hprocess : process crypto apdu = cmdSendRemaining apdu := by
        rw [process, hrem, decide_eq_true hcla]
        rfl
      rw [hprocess] at hvalid
      exact .inl (keeps_staysLocked (asks_cmdSendRemaining apdu) h hvalid)
    · -- what follows the command only changes what remains
      have htail : ∀ result : Except Fault ResponseData,
          (keepRemaining apdu result).Asks RaisesNot := by
        rintro (fault | response)
        · cases fault with
          | status sw => exact (asks_setRemaining _).bind fun _ => Script.asks_fail _
          | panic => exact Script.asks_fail _
          | hang => exact Script.asks_fail _
        · exact (asks_setRemaining _).bind fun _ => Script.asks_pure _
      have hprocess : process crypto apdu =
          (dispatch crypto apdu).attempt >>= keepRemaining apdu := by
        rw [process, if_neg hrem, decide_eq_true hcla]
        rfl
      rw [hprocess, Host.perform, Script.run_perform_bind, Prog.run_bind] at hvalid
      have hsnd := Script.snd_run_attempt (Host.answer crypto format) (dispatch crypto apdu) h
      rcases hattempt : ((dispatch crypto apdu).attempt.perform (Host.answer crypto format)).run h
        with ⟨fault | result, g⟩
      all_goals rw [hattempt] at hvalid hsnd
      all_goals refine (validated_of_dispatch ?_).imp id fun h => ⟨hcla, h⟩
      all_goals rw [Host.perform, ← hsnd]
      · exact hvalid
      · exact keeps_staysLocked (htail result) g hvalid
  · have hprocess : process crypto apdu = .fail (.status swClassNotSupported) := by
      rw [process, decide_eq_false hcla]
      rfl
    rw [hprocess] at hvalid
    exact .inl hvalid

/-! ## The gate -/

/-- The commands that an access code guards. -/
def guarded : List UInt8 :=
  [insPut, insDelete, insRename, insSetCode, insList, insCalculate, insCalculateAll]

theorem dispatch_guarded {apdu : Apdu} (h : apdu.ins ∈ guarded) :
    ∃ k, dispatch crypto apdu = requireValidated >>= k := by
  simp only [guarded, List.mem_cons, List.not_mem_nil, or_false] at h
  unfold dispatch
  obtain h | h | h | h | h | h | h := h
  all_goals rw [h]
  all_goals exact ⟨_, rfl⟩

/-- A locked applet refuses what is behind the gate, and only loads its state. -/
theorem run_requireValidated {h : Host β OathState Session} {state : OathState}
    (hstate : Host.current crypto format h = some state) (hcode : state.access.isSome = true)
    (hlocked : h.memory.session.validated = false) (k : Unit → OathCommand ResponseData) :
    ∃ saved, (Host.perform crypto format (requireValidated >>= k).attempt).run h =
      (.ok (.error (.status swSecurityStatus)), { h with
        memory := { h.memory with state := some state }, saved := saved }) := by
  obtain ⟨saved, hload⟩ := Host.run_ensureLoaded (fun _ => rfl) hstate
  refine ⟨saved, ?_⟩
  refine (Prog.run_bind_of_ok (Host.caught_eq_ok.mpr hload)).trans ?_
  have hgate :
    (!(locked ⟨some state, h.memory.session⟩ && !h.memory.session.validated)) = false := by
    rw [hlocked]
    show (!(state.access.isSome && !false)) = false
    rw [hcode]
    rfl
  show (Host.perform crypto format ((require (!(locked ⟨some state, h.memory.session⟩ &&
    !h.memory.session.validated)) swSecurityStatus : OathCommand Unit) >>= k).attempt).run _ = _
  rw [hgate]
  rfl

theorem run_process_guarded {h : Host β OathState Session} {state : OathState} {apdu : Apdu}
    (hins : apdu.ins ∈ guarded) (hstate : Host.current crypto format h = some state)
    (hcode : state.access.isSome = true) (hlocked : h.memory.session.validated = false) :
    ∃ sw h', (Host.perform crypto format (process crypto apdu)).run h = (.error (.status sw), h') ∧
      (sw = swSecurityStatus ∨ sw = swClassNotSupported) ∧
      Host.current crypto format h' = some state ∧ h'.storage = h.storage := by
  by_cases hcla : apdu.cla = 0
  · obtain ⟨k, hdispatch⟩ := @dispatch_guarded crypto apdu hins
    obtain ⟨saved, hgate⟩ := run_requireValidated hstate hcode hlocked k
    have hrem : apdu.ins ≠ insSendRemaining := by
      intro heq
      rw [heq] at hins
      exact absurd hins (by decide)
    refine ⟨swSecurityStatus, { h with
      memory := ⟨some state, { h.memory.session with remaining := none }⟩, saved := saved }, ?_,
      .inl rfl, rfl, rfl⟩
    rw [process, if_neg hrem, decide_eq_true hcla, hdispatch]
    show (Host.perform crypto format ((requireValidated >>= k).attempt >>= _)).run h = _
    rw [Host.perform] at hgate ⊢
    rw [Script.run_perform_bind, Prog.run_bind_of_ok hgate]
    rfl
  · refine ⟨swClassNotSupported, h, ?_, .inr rfl, hstate, rfl⟩
    rw [process, decide_eq_false hcla]
    rfl

end

/-! ## Runs -/

/-- The applet with the crypto engine of its boot. -/
structure Machine (β : Type) where
  crypto : AppletCrypto
  host : Host β OathState Session

/-- What happens to the applet. -/
inductive Event (β : Type)
  | select
  | command (apdu : Apdu)
  | reboot (crypto : AppletCrypto) (storage : StorageEngine β) (rng : Nat → Entropy)

namespace Machine

variable {β : Type} [StorageBackend β]

/-- `OathApplet::new`. -/
def boot (crypto : AppletCrypto) (storage : StorageEngine β) (rng : Nat → Entropy) : Machine β :=
  ⟨crypto, ((Host.ensureLoaded crypto format).run ⟨storage, rng, ⟨none, .fresh⟩, none⟩).2⟩

/-- The answer to a command, and the applet after it. -/
def respond (m : Machine β) (apdu : Apdu) : Except Fault ResponseData × Host β OathState Session :=
  (Host.perform m.crypto format (process m.crypto apdu)).run m.host

/-- One event; a SELECT that succeeds is answered with `select_response`. -/
def step (m : Machine β) : Event β → Machine β
  | .select =>
      ⟨m.crypto, ((Host.perform m.crypto format (select >>= fun _ => selectResponse)).run m.host).2⟩
  | .command apdu => ⟨m.crypto, (m.respond apdu).2⟩
  | .reboot crypto storage rng => boot crypto storage rng

/-- Runs, with the machine that each event found. -/
inductive Reach : List (Machine β × Event β) → Machine β → Prop
  | boot (crypto : AppletCrypto) (storage : StorageEngine β) (rng : Nat → Entropy) :
      Reach [] (boot crypto storage rng)
  | step {past : List (Machine β × Event β)} {m : Machine β} (e : Event β) :
      Reach past m → Reach (past ++ [(m, e)]) (m.step e)

/-- The state that the next command works on. -/
def current (m : Machine β) : Option OathState := Host.current m.crypto format m.host

/-- A VALIDATE with the right response to the challenge in force. -/
def Validates (m : Machine β) (e : Event β) : Prop :=
  ∃ apdu, e = .command apdu ∧ apdu.cla = 0 ∧ apdu.ins = insValidate ∧
    Answers m.crypto m.host apdu.data

/-- Such a VALIDATE came after the last SELECT, with no reboot since. -/
def Unlocked (past : List (Machine β × Event β)) : Prop :=
  ∃ before m e since, past = before ++ (m, e) :: since ∧ m.Validates e ∧
    ∀ entry ∈ since, ∃ apdu, entry.2 = .command apdu

theorem boot_locked (crypto : AppletCrypto) (storage : StorageEngine β) (rng : Nat → Entropy) :
    (boot crypto storage rng).host.memory.session.validated = false := by
  have hkeeps : Keeps (Prog.Frame.constant fun h : Host β OathState Session => h.memory.session)
      (Host.ensureLoaded crypto format) := Host.keeps_session_ensureLoaded
  have hsession := hkeeps ⟨storage, rng, ⟨none, .fresh⟩, none⟩
  exact congrArg Session.validated hsession

theorem select_locked (m : Machine β) :
    (m.step .select).host.memory.session.validated = false := by
  rw [Bool.eq_false_iff]
  intro hvalid
  have hrest : ((do ensureLoaded; rotateChallengeForSelect : OathCommand Unit) >>=
      fun _ => selectResponse).Asks RaisesNot :=
    (asks_ensureLoaded.bind fun _ => asks_rotateChallengeForSelect).bind fun _ =>
      asks_selectResponse
  have hkeeps : Keeps staysLocked
    (Host.perform m.crypto format _ : Prog (Host β OathState Session) _ _) :=
    keeps_staysLocked hrest
  exact absurd (hkeeps { m.host with memory := { m.host.memory with
    session := { m.host.memory.session with validated := false } } } hvalid) Bool.false_ne_true

/-- Only a right VALIDATE opens a session, and only commands leave it open. -/
theorem validated_step {m : Machine β} {e : Event β}
    (hvalid : (m.step e).host.memory.session.validated = true) :
    ∃ apdu, e = .command apdu ∧
      (m.host.memory.session.validated = true ∨ m.Validates e) := by
  cases e with
  | select =>
      rw [select_locked] at hvalid
      cases hvalid
  | reboot crypto storage rng =>
      rw [step, boot_locked] at hvalid
      cases hvalid
  | command apdu =>
      obtain hbefore | ⟨hcla, hins, hright⟩ := validated_of_process hvalid
      · exact ⟨apdu, rfl, .inl hbefore⟩
      · exact ⟨apdu, rfl, .inr ⟨apdu, rfl, hcla, hins, hright⟩⟩

/-- In every run, a validated session goes back to a right VALIDATE since the last SELECT. -/
theorem unlocked_of_validated {past : List (Machine β × Event β)} {m : Machine β}
    (hreach : Reach past m) (hvalid : m.host.memory.session.validated = true) : Unlocked past := by
  induction hreach with
  | boot crypto storage rng =>
      rw [boot_locked] at hvalid
      cases hvalid
  | @step past m e _ ih =>
      obtain ⟨apdu, hcommand, hbefore | hright⟩ := validated_step hvalid
      · obtain ⟨before, g, event, since, rfl, hright, hsince⟩ := ih hbefore
        refine ⟨before, g, event, since ++ [(m, e)], by rw [List.append_assoc]; rfl, hright, ?_⟩
        intro entry hentry
        obtain hentry | hentry := List.mem_append.mp hentry
        · exact hsince entry hentry
        · rw [List.mem_singleton.mp hentry]
          exact ⟨apdu, hcommand⟩
      · exact ⟨past, m, e, [], rfl, hright, fun _ h => absurd h List.not_mem_nil⟩

/-- In every run, while an access code is set and no VALIDATE has answered the challenge in force
since the last SELECT, a guarded command is refused and changes neither the state nor the
storage. -/
theorem access_code_gates {past : List (Machine β × Event β)} {m : Machine β}
    (hreach : Reach past m) {apdu : Apdu} (hins : apdu.ins ∈ guarded) {state : OathState}
    (hstate : m.current = some state) (hcode : state.access.isSome = true)
    (hlocked : ¬Unlocked past) :
    (∃ sw, (m.respond apdu).1 = .error (.status sw) ∧
        (sw = swSecurityStatus ∨ sw = swClassNotSupported)) ∧
      (m.step (.command apdu)).current = some state ∧
      (m.step (.command apdu)).host.storage = m.host.storage := by
  have hsession : m.host.memory.session.validated = false :=
    Bool.eq_false_iff.mpr fun hvalid => hlocked (unlocked_of_validated hreach hvalid)
  obtain ⟨sw, h', hrun, hsw, hcurrent, hstorage⟩ :=
    run_process_guarded hins hstate hcode hsession
  have hrespond : m.respond apdu = (.error (.status sw), h') := hrun
  refine ⟨⟨sw, congrArg Prod.fst hrespond, hsw⟩, ?_, ?_⟩
  · rw [current, step, hrespond]
    exact hcurrent
  · rw [step, hrespond]
    exact hstorage

end Machine

/-! ## A session that SELECT closes -/

/-- What ChaCha20-Poly1305 makes of a state with the access key `07` and no credential, with the
three challenges of the run below. -/
def lockedAead : KnownAead where
  rows := [
    .of 0x02 0x04
      (Bytes.beBytes 33 (0x01100102030405060708090a0b0c0d0e * 2 ^ 136 +
        0x0f10010101070801020304050607080000))
      (Bytes.beBytes 49 (0x1d42d5cedfe335bf465adfd9fe1082abd5681e0097efe2a7d4 * 2 ^ 192 +
        0xb91162600812f0c62507c458770f2d0f32e8799e45400bfb)),
    .of 0x02 0x09
      (Bytes.beBytes 33 (0x01100102030405060708090a0b0c0d0e * 2 ^ 136 +
        0x0f10010101070808070605040302010000))
      (Bytes.beBytes 49 (0x136711cfcaf914e1abb1c260505ddc57da707dc1bc1ca8763d * 2 ^ 192 +
        0x19c91d0a77c36287dec52142108aa9ebfdbbe0922775085d)),
    .of 0x02 0x09
      (Bytes.beBytes 33 (0x01100102030405060708090a0b0c0d0e * 2 ^ 136 +
        0x0f10010101070809090909090909090000))
      (Bytes.beBytes 49 (0x136711cfcaf914e1abb1c260505ddc57da707dc1bc1ca87733 * 2 ^ 192 +
        0x16c510007ccb62873f2e23f373ce25d925b7e63af78bd2ed))]
  opens := by decide +kernel
  one_key := by decide +kernel
  apart := by decide +kernel
  ne_nil := by decide +kernel

/-- The code of the stored challenge under the access key, and of the one of the host. -/
def lockedCodes (key message : Bytes) : Bytes :=
  Bytes.beBytes 20 (if key = [7] ∧ message = [1, 2, 3, 4, 5, 6, 7, 8]
    then 0xe08cf561aa76cb3adfd9f0903fd06074454a091e
    else if key = [7] ∧ message = [8, 7, 6, 5, 4, 3, 2, 1]
    then 0xc9e9ff72576fa89338b623bca49f3b26ff893615
    else 0)

/-- The algorithms of the run, under the master key `02..02`. -/
def lockedCrypto : AppletCrypto :=
  { lockedAead.crypto (List.replicate 32 0x02) KnownAead.length_masterKey with
    hmacSha1 := lockedCodes
    length_hmacSha1 := fun _ _ => Bytes.length_beBytes _ _ }

/-- The applet after a boot that finds the state with the first challenge. -/
def lockedMachine : Machine KvMap :=
  .boot lockedCrypto { StorageEngine.new with
    kvStore := (∅ : KvMap).insert "sys:oath" (List.replicate 12 0x04 ++
      Bytes.beBytes 49 (0x1d42d5cedfe335bf465adfd9fe1082abd5681e0097efe2a7d4 * 2 ^ 192 +
        0xb91162600812f0c62507c458770f2d0f32e8799e45400bfb)) }
    (KnownAead.constantDraws 0x09)

/-- VALIDATE with the code of that challenge. -/
def rightValidate : Apdu :=
  ⟨0, 0xA3, 0, 0, 0x75 :: 20 :: lockedCodes [7] [1, 2, 3, 4, 5, 6, 7, 8] ++
    [0x74, 8, 8, 7, 6, 5, 4, 3, 2, 1], none⟩

/-- The applet after this VALIDATE, and then after a SELECT. -/
def validatedMachine : Machine KvMap := lockedMachine.step (.command rightValidate)

def reselectedMachine : Machine KvMap := validatedMachine.step .select

def listCommand : Apdu := ⟨0, 0xA1, 0, 0, [], none⟩

/-- LIST is answered after the VALIDATE, and refused after the SELECT. -/
theorem access_code_gates_reselected :
    (validatedMachine.respond listCommand).1.isOk = true ∧
      (∃ sw, (reselectedMachine.respond listCommand).1 = .error (.status sw) ∧
        (sw = swSecurityStatus ∨ sw = swClassNotSupported)) ∧
      (reselectedMachine.step (.command listCommand)).current =
        some (reselectedMachine.current.get (by decide +kernel)) ∧
      (reselectedMachine.step (.command listCommand)).host.storage =
        reselectedMachine.host.storage := by
  refine ⟨by decide +kernel, Machine.access_code_gates
    (((Machine.Reach.boot _ _ _).step (.command rightValidate)).step .select) (by decide)
    (Option.some_get _).symm (by decide +kernel) ?_⟩
  rintro ⟨before, m, e, since, hpast, hvalidates, hsince⟩
  obtain rfl | ⟨first, rest, rfl⟩ : before = [] ∨ ∃ first rest, before = first :: rest := by
    cases before <;> simp
  · -- the SELECT came after it
    obtain ⟨-, rfl⟩ := List.cons.inj hpast
    obtain ⟨apdu, hcommand⟩ := hsince _ (List.mem_singleton_self _)
    cases hcommand
  · -- or it is the SELECT
    have hselect := (List.cons.inj hpast).2
    cases rest with
    | nil =>
        obtain ⟨apdu, hcommand, -⟩ := hvalidates
        have hevent := congrArg Prod.snd (List.cons.inj hselect).1
        rw [hcommand] at hevent
        cases hevent
    | cons second rest => simp at hselect

end Oath

end OpenKey
