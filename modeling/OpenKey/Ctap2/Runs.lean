import OpenKey.Ctap2.Outcomes
import OpenKey.Ctap2.Sample

/-!
# Runs

An input is a command or a power cycle. A command other than Reset is a sequence of moves; Reset
empties the storage or does nothing; a power cycle opens the storage again. The lemmas here say
what each keeps, so that an invariant of runs is proved once per kind of input.
-/

namespace OpenKey

open Prog (Keeps bind_eq_ok check_eq_ok ensure_eq_ok map_eq_ok)

set_option autoImplicit false

/-! ## Where runs start -/

/-- Nothing is stored. -/
structure StorageEngine.Blank {β : Type} [StorageBackend β] [LawfulBackend β]
    (e : StorageEngine β) : Prop where
  credentials : e.credentials = ∅
  kvStore : e.kvStore = ∅
  largeBlobs : e.largeBlobs = []
  contents : ∀ b, e.backend = some b → contents b = ∅

/-- A newly opened authenticator over storage that holds nothing. -/
structure Auth.Blank {β : Type} [StorageBackend β] [LawfulBackend β] (a : Auth β) : Prop where
  storage : a.storage.Blank
  opened : a = a.reboot a.storage []

/-- A state that calls can lead to, from storage that holds nothing. -/
def Auth.Reachable {β : Type} [StorageBackend β] [LawfulBackend β] (build : Build) (a : Auth β) :
    Prop :=
  ∃ (start : Auth β) (cs : List Call), start.Blank ∧ a = start.calls build cs

theorem blank_memoryDevice : memoryDevice.Blank where
  storage := ⟨rfl, rfl, rfl, fun _ h => nomatch h⟩
  opened := rfl

theorem blank_backedDevice : backedDevice.Blank where
  storage := by
    refine ⟨rfl, rfl, rfl, ?_⟩
    rintro b ⟨⟩
    rfl
  opened := rfl

namespace StorageEngine.Blank

variable {β : Type} [StorageBackend β] [LawfulBackend β] {e : StorageEngine β}

theorem value (h : e.Blank) (key : String) : e.value key = none := by
  have hpers : e.persisted key = none := by
    unfold persisted
    cases hb : e.backend with
    | none => rfl
    | some b => simp [h.contents b hb]
  rw [value_eq, hpers, h.kvStore]
  simp

theorem synced (h : e.Blank) : e.Synced := by
  intro _ key _ v hv
  rw [h.kvStore] at hv
  simp at hv

theorem keyed (h : e.Blank) : e.Keyed := by
  intro id s hs
  rw [h.credentials] at hs
  simp at hs

end StorageEngine.Blank

namespace Auth

variable {β : Type} [StorageBackend β] (build : Build)

/-! ## Dispatch -/

/-- A command other than GetNextAssertion starts without an hmac-secret session. -/
theorem run_processCommand_of_ne {cmd : UInt8} (data : Bytes) (a : Auth β)
    (h : Ctap2Command.fromU8 cmd ≠ .getNextAssertion) : (processCommand build cmd data).run a =
      (dispatch build (.fromU8 cmd) data).run { a with hmacSecretSession := none } := by
  unfold processCommand
  simp only [h, ne_eq, not_false_eq_true, decide_true]
  rfl

theorem run_processCommand (cmd : UInt8) (data : Bytes) (a : Auth β) :
    ∃ a', a'.core = a.core ∧ (processCommand build cmd data).run a =
      (dispatch build (.fromU8 cmd) data).run a' := by
  by_cases h : Ctap2Command.fromU8 cmd = .getNextAssertion
  · refine ⟨a, rfl, ?_⟩
    unfold processCommand
    simp only [h, ne_eq, not_true, decide_false]
    rfl
  · exact ⟨{ a with hmacSecretSession := none }, rfl, run_processCommand_of_ne build data a h⟩

/-! ## Power cycles -/

theorem backend_reopen (e : StorageEngine β) : (reopen build e).backend = e.backend := by
  unfold reopen
  cases h : e.backend with
  | none => rfl
  | some b => exact (StorageEngine.withBackend_eq build.codec b).1

theorem keyed_reopen (e : StorageEngine β) : (reopen build e).Keyed := by
  unfold reopen
  cases e.backend with
  | none =>
      intro id s hs
      simp [StorageEngine.new, StorageEngine.empty] at hs
  | some b => exact StorageEngine.keyed_withBackend build.codec b

section Lawful

variable [LawfulBackend β]

theorem synced_reopen (e : StorageEngine β) : (reopen build e).Synced := by
  unfold reopen
  cases e.backend with
  | none => exact fun h => absurd h (by simp [StorageEngine.new, StorageEngine.empty])
  | some b => exact StorageEngine.synced_withBackend build.codec b

/-- A setting survives a power cycle if there is a backend. -/
theorem value_reopen {e : StorageEngine β} (hb : e.backend.isSome = true) (hs : e.Synced)
    {key : String} (hkey : SystemKey key) : (reopen build e).value key = e.value key := by
  obtain ⟨b, hb⟩ := Option.isSome_iff_exists.mp hb
  have hopen : (reopen build e).value key =
    (StorageEngine.withBackend build.codec b).value key := by
    unfold reopen
    rw [hb]
    rfl
  rw [hopen, StorageEngine.value_withBackend build.codec hb hs hkey]

/-- Without a backend nothing survives. -/
theorem value_reopen_none {e : StorageEngine β} (hb : e.backend = none) (key : String) :
    (reopen build e).value key = none := by
  unfold reopen
  rw [hb]
  simp [StorageEngine.value_eq, StorageEngine.persisted, StorageEngine.new, StorageEngine.empty]

/-! ## Reset -/

/-- What Reset leaves behind. -/
structure Cleared (a b : Auth β) : Prop where
  value : ∀ key, SystemKey key → b.storage.value key = none
  synced : b.storage.Synced
  credentials : b.storage.credentials = ∅
  backend : b.storage.backend.isSome = a.storage.backend.isSome
  next : b.getNextAssertionState = none
  token : b.pinUvAuthToken = none
  log : a.log <:+ b.log

theorem credentials_clearLargeBlobs (e : StorageEngine β) :
    ((StorageEngine.clearLargeBlobs).run e).2.credentials = e.credentials := by
  unfold StorageEngine.clearLargeBlobs
  rw [Prog.run_update_bind, StorageEngine.run_onBackendIgnored_delete]
  rfl

/-- Reset is refused and does nothing, or empties the storage. -/
theorem handleReset_cases (a : Auth β) :
    ((∃ error, (handleReset.run a).1 = .error error) ∧ (handleReset.run a).2.core = a.core) ∨
      ((handleReset.run a).1 = .ok () ∧ Cleared a (handleReset.run a).2) := by
  unfold handleReset
  cases hpresence : (checkPresence : Ctap β Unit).run a with
  | mk result a₁ =>
      have hcore : a₁.core = a.core := core_of_quiet quiet_checkPresence hpresence
      cases result with
      | error error =>
          rw [Prog.run_bind_of_error hpresence]
          exact .inl ⟨⟨error, rfl⟩, hcore⟩
      | ok u =>
          rw [Prog.run_bind_of_ok hpresence]
          obtain ⟨e, hclear, hvalue, hsynced, hcreds, hbackend⟩ :=
            StorageEngine.run_clear a₁.storage
          have hsettled := StorageEngine.settled_clearLargeBlobs e
          have hstorage : a₁.storage = a.storage := congrArg Core.storage hcore
          have hlog : a₁.log = a.log := congrArg Core.log hcore
          refine .inr ⟨rfl, ?_, ?_, ?_, ?_, rfl, rfl, ?_⟩
          · intro key hkey
            show (((StorageEngine.clearLargeBlobs).run
              (StorageEngine.clear.run a₁.storage).2).2).value
              key = none
            rw [hclear, hsettled.1 key hkey, hvalue]
          · show (((StorageEngine.clearLargeBlobs).run
              (StorageEngine.clear.run a₁.storage).2).2).Synced
            rw [hclear]
            exact hsettled.2.1 hsynced
          · show (((StorageEngine.clearLargeBlobs).run
              (StorageEngine.clear.run a₁.storage).2).2).credentials = ∅
            rw [hclear, credentials_clearLargeBlobs, hcreds]
          · show (((StorageEngine.clearLargeBlobs).run
              (StorageEngine.clear.run a₁.storage).2).2).backend.isSome = _
            rw [hclear, hsettled.2.2, hbackend, hstorage]
          · show a.log <:+ .stored _ _ :: .stored _ _ :: a₁.log
            rw [hlog]
            exact (List.suffix_cons _ _).trans (List.suffix_cons _ _)

/-! ## Commands -/

/-- A command other than Reset is a sequence of moves. -/
theorem moves_step {cmd : UInt8} (data : Bytes) (hcmd : Ctap2Command.fromU8 cmd ≠ .reset)
    (a : Auth β) :
    (Moves (commandKinds (.fromU8 cmd))).rel a (a.step build (.command cmd data)) :=
  moves_processCommand build cmd data hcmd a

/-- Reset does nothing or empties the storage. -/
theorem reset_step {cmd : UInt8} (data : Bytes) (hcmd : Ctap2Command.fromU8 cmd = .reset)
    (a : Auth β) :
    ((∃ error, (a.exchange build cmd data).result = .error error) ∧
        (a.step build (.command cmd data)).core = a.core) ∨
      ((a.exchange build cmd data).result = .ok .empty ∧
        Cleared a (a.step build (.command cmd data))) := by
  obtain ⟨a', hcore, hrun⟩ := run_processCommand build cmd data a
  have hstep : (a.step build (.command cmd data)) = (handleReset.run a').2 := by
    show ((processCommand build cmd data).run a).2 = _
    rw [hrun, hcmd]
    exact congrArg Prod.snd (Prog.run_map _ _ _)
  have hres : (a.exchange build cmd data).result =
      (handleReset.run a').1.map fun _ => CtapResponse.empty := by
    show ((processCommand build cmd data).run a).1 = _
    rw [hrun, hcmd]
    exact congrArg Prod.fst (Prog.run_map _ _ _)
  rw [hstep, hres]
  obtain ⟨⟨error, herror⟩, hsame⟩ | ⟨hok, hclear⟩ := handleReset_cases a'
  · rw [herror]
    exact .inl ⟨⟨error, rfl⟩, hsame.trans hcore⟩
  · rw [hok]
    have hstorage : a'.storage = a.storage := congrArg Core.storage hcore
    have hlog : a'.log = a.log := congrArg Core.log hcore
    exact .inr ⟨rfl, hclear.value, hclear.synced, hclear.credentials, hstorage ▸ hclear.backend,
      hclear.next, hclear.token, hlog ▸ hclear.log⟩

end Lawful

/-! ## Traces -/

theorem run_append (a : Auth β) (xs ys : List Input) :
    a.run build (xs ++ ys) = (a.run build xs).run build ys := List.foldl_append

theorem trace_append (a : Auth β) (xs ys : List Input) :
    a.trace build (xs ++ ys) = a.trace build xs ++ (a.run build xs).trace build ys := by
  induction xs generalizing a with
  | nil => rfl
  | cons input xs ih =>
      cases input with
      | command cmd data => exact congrArg (a.exchange build cmd data :: ·) (ih _)
      | powerCycle => exact ih _

theorem trace_snoc (a : Auth β) (xs : List Input) (cmd : UInt8) (data : Bytes) :
    a.trace build (xs ++ [.command cmd data]) =
      a.trace build xs ++ [(a.run build xs).exchange build cmd data] :=
  trace_append build a xs [.command cmd data]

/-- An exchange of a trace starts in a state of the run. -/
theorem mem_trace {a : Auth β} {inputs : List Input} {x : Exchange β}
    (h : x ∈ a.trace build inputs) : ∃ past cmd data, x =
      (a.run build past).exchange build cmd data := by
  induction inputs generalizing a with
  | nil => cases h
  | cons input inputs ih =>
      cases input with
      | powerCycle =>
          obtain ⟨past, cmd, data, rfl⟩ := ih h
          exact ⟨.powerCycle :: past, cmd, data, rfl⟩
      | command cmd data =>
          obtain rfl | h := List.mem_cons.mp h
          · exact ⟨[], cmd, data, rfl⟩
          · obtain ⟨past, cmd', data', rfl⟩ := ih h
            exact ⟨.command cmd data :: past, cmd', data', rfl⟩

/-- What every input keeps holds after a run. -/
theorem run_invariant {P : Auth β → Prop} {inputs : List Input}
    (hstep : ∀ a, P a → ∀ input ∈ inputs, P (a.step build input)) {a : Auth β} (ha : P a) :
    P (a.run build inputs) := by
  induction inputs generalizing a with
  | nil => exact ha
  | cons input inputs ih =>
      exact ih (fun a ha input hmem => hstep a ha input (List.mem_cons_of_mem _ hmem))
        (hstep a ha input List.mem_cons_self)

/-- What every command and every power cycle keeps holds before each exchange of a trace; `C` is a
condition on the exchanges, and `P` may speak of those that have passed. -/
theorem trace_invariant {P : List (Exchange β) → Auth β → Prop} {C : Exchange β → Prop}
    (hcommand : ∀ past a cmd data, P past a → C (a.exchange build cmd data) →
      P (past ++ [a.exchange build cmd data]) (a.step build (.command cmd data)))
    (hpower : ∀ past a, P past a → P past (a.powerCycle build)) {inputs : List Input}
    {seen : List (Exchange β)} {a : Auth β} (h : P seen a) {past future : List (Exchange β)}
    {x : Exchange β} (hx : a.trace build inputs = past ++ x :: future) (hC : ∀ y ∈ past, C y) :
    ∃ b cmd data, P (seen ++ past) b ∧ x = b.exchange build cmd data := by
  induction inputs generalizing seen a past with
  | nil => simp [trace] at hx
  | cons input inputs ih =>
      cases input with
      | powerCycle => exact ih (hpower _ _ h) hx hC
      | command cmd data =>
          cases past with
          | nil =>
              obtain ⟨rfl, -⟩ := List.cons.inj hx
              exact ⟨a, cmd, data, by rwa [List.append_nil], rfl⟩
          | cons y past =>
              obtain ⟨rfl, hrest⟩ := List.cons.inj hx
              obtain ⟨b, cmd', data', hb, hxb⟩ :=
                ih (hcommand _ _ cmd data h (hC _ List.mem_cons_self)) hrest
                  fun y hy => hC y (List.mem_cons_of_mem _ hy)
              rw [List.append_assoc] at hb
              exact ⟨b, cmd', data', hb, hxb⟩

/-- The storage is as it is when it has just been opened. -/
def Opened (a : Auth β) : Prop := reopen build a.storage = a.storage

end Auth

/-! ## Responses -/

namespace Exchange

variable {β : Type}

/-- The command of an exchange. -/
def command (x : Exchange β) : Ctap2Command := .fromU8 x.cmd

/-- The answer of a successful GetAssertion or GetNextAssertion. -/
def assertion (x : Exchange β) : Option GetAssertionResponse :=
  match x.command, x.result with
  | .getAssertion, .ok (.getAssertion response) => some response
  | .getNextAssertion, .ok (.getAssertion response) => some response
  | _, _ => none

theorem assertion_eq_some {x : Exchange β} {r : GetAssertionResponse} :
    x.assertion = some r ↔ (x.command = .getAssertion ∨ x.command = .getNextAssertion) ∧
      x.result = .ok (.getAssertion r) := by
  unfold assertion
  constructor
  · intro h
    split at h
    · next response hcmd hres =>
        cases h
        exact ⟨.inl hcmd, hres⟩
    · next response hcmd hres =>
        cases h
        exact ⟨.inr hcmd, hres⟩
    · cases h
  · rintro ⟨hcmd | hcmd, hres⟩ <;> simp only [hcmd, hres]

end Exchange

namespace Auth

variable {β : Type} [StorageBackend β] (build : Build)

/-- A successful assertion is one of the two kinds; its steps. -/
theorem assertion_steps {a : Auth β} {cmd : UInt8} {data : Bytes} {r : GetAssertionResponse}
    (h : (a.exchange build cmd data).assertion = some r) :
    (Ctap2Command.fromU8 cmd = .getAssertion ∧
        ∃ request verified credential assertion extensions total a₁ a₂ a₃,
          build.cbor.decodeGetAssertion data = .ok request ∧
          AssertionSteps build request verified credential assertion extensions total
            { a with hmacSecretSession := none } a₁ a₂ a₃ r (a.step build (.command cmd data))) ∨
      (Ctap2Command.fromU8 cmd = .getNextAssertion ∧
        ∃ state credential found chained assertion a₁,
          ChainedSteps build state credential found chained assertion a a₁ r
            (a.step build (.command cmd data))) := by
  obtain ⟨hkind, hres⟩ := Exchange.assertion_eq_some.mp h
  have hrun : (processCommand build cmd data).run a =
      (.ok (.getAssertion r), a.step build (.command cmd data)) := Prod.ext hres rfl
  rcases hkind with hcmd | hcmd
  · have hcmd' : Ctap2Command.fromU8 cmd = .getAssertion := hcmd
    rw [run_processCommand_of_ne build data a (by rw [hcmd']; decide), hcmd'] at hrun
    obtain ⟨r', hrun, hr⟩ := map_eq_ok.mp hrun
    cases hr
    obtain ⟨request, a₁, hcheck, hrun⟩ := bind_eq_ok.mp hrun
    obtain ⟨hdecode, rfl⟩ := check_eq_ok.mp hcheck
    obtain ⟨verified, credential, assertion, extensions, total, a₁, a₂, a₃, hsteps⟩ :=
      getAssertion_steps build hrun
    exact .inl ⟨hcmd, request, verified, credential, assertion, extensions, total, a₁, a₂, a₃,
      hdecode, hsteps⟩
  · have hcmd' : Ctap2Command.fromU8 cmd = .getNextAssertion := hcmd
    unfold processCommand at hrun
    simp only [hcmd', ne_eq, not_true, decide_false] at hrun
    obtain ⟨r', hrun, hr⟩ := map_eq_ok.mp hrun
    cases hr
    exact .inr ⟨hcmd, handleGetNextAssertion_steps build hrun⟩

/-- What the steps tell. -/
theorem assertion_cases {a : Auth β} {cmd : UInt8} {data : Bytes} {r : GetAssertionResponse}
    (h : (a.exchange build cmd data).assertion = some r) :
    (Ctap2Command.fromU8 cmd = .getAssertion ∧ ∃ request verified credential,
        build.cbor.decodeGetAssertion data = .ok request ∧
        Asserted build request verified credential a r (a.step build (.command cmd data))) ∨
      (Ctap2Command.fromU8 cmd = .getNextAssertion ∧ ∃ state credential,
        AssertedNext build state credential a r (a.step build (.command cmd data))) := by
  obtain ⟨hcmd, request, verified, credential, assertion, extensions, total, a₁, a₂, a₃, hdecode,
    hsteps⟩ | ⟨hcmd, state, credential, found, chained, assertion, a₁, hsteps⟩ :=
      assertion_steps build h
  · exact .inl ⟨hcmd, request, verified, credential, hdecode,
      (hsteps.asserted build).of_core build rfl⟩
  · exact .inr ⟨hcmd, state, credential, hsteps.assertedNext build⟩

/-- A successful MakeCredential. -/
theorem created_of_result {a : Auth β} {cmd : UInt8} {data : Bytes} {r : MakeCredentialResponse}
    (hcmd : Ctap2Command.fromU8 cmd = .makeCredential)
    (hresult : (a.exchange build cmd data).result = .ok (.makeCredential r)) :
    ∃ request verified, build.cbor.decodeMakeCredential data = .ok request ∧
      Created request verified a r := by
  obtain ⟨a', hcore, hrun⟩ := run_processCommand build cmd data a
  rw [hcmd] at hrun
  have hdispatch : (dispatch build .makeCredential data).run a' =
      (.ok (.makeCredential r), (a.exchange build cmd data).after) := by
    rw [← hrun, ← hresult]
    rfl
  obtain ⟨r', hmake, hr⟩ := map_eq_ok.mp hdispatch
  cases hr
  obtain ⟨request, a₁, hcheck, hmake⟩ := bind_eq_ok.mp hmake
  obtain ⟨hdecode, rfl⟩ := check_eq_ok.mp hcheck
  obtain ⟨verified, hcreated⟩ := makeCredential_ok build hmake
  exact ⟨request, verified, hdecode, hcreated.of_core hcore⟩

/-- The two commands answer with an assertion or fail. -/
theorem assertion_or_error (a : Auth β) {cmd : UInt8} (data : Bytes)
    (h : Ctap2Command.fromU8 cmd = .getAssertion ∨ Ctap2Command.fromU8 cmd = .getNextAssertion) :
    (∃ r, (a.exchange build cmd data).assertion = some r) ∨
      ∃ error, (a.exchange build cmd data).result = .error error := by
  obtain ⟨a', -, hrun⟩ := run_processCommand build cmd data a
  cases hresult : (a.exchange build cmd data).result with
  | error error => exact .inr ⟨error, rfl⟩
  | ok response =>
      have hdispatch : (dispatch build (.fromU8 cmd) data).run a' =
          (.ok response, (a.exchange build cmd data).after) := by
        rw [← hrun, ← hresult]
        rfl
      have hshape : ∃ r, response = .getAssertion r := by
        rcases h with hcmd | hcmd
        · rw [hcmd] at hdispatch
          obtain ⟨r, -, hr⟩ := Prog.map_eq_ok.mp hdispatch
          exact ⟨r, hr.symm⟩
        · rw [hcmd] at hdispatch
          obtain ⟨r, -, hr⟩ := Prog.map_eq_ok.mp hdispatch
          exact ⟨r, hr.symm⟩
      obtain ⟨r, rfl⟩ := hshape
      exact .inl ⟨r, Exchange.assertion_eq_some.mpr ⟨h, hresult⟩⟩

end Auth

end OpenKey
