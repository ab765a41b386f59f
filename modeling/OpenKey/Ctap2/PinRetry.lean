import OpenKey.Ctap2.PinChecks

/-!
# The PIN retry counter

Three subcommands of ClientPIN check a PIN against one persistent and one volatile counter. The
law of the persistent one is stated against the log: the counter and the number of checks begun
since the last one that passed always add up to eight. It holds in every state of every run,
and in the storage every single write leaves behind, so it survives a loss of power at any point.
-/

namespace OpenKey

open Prog (Keeps KeepsAt bind_eq_ok check_eq_ok ensure_eq_ok map_eq_ok)

set_option autoImplicit false

/-! ## Counting in the log -/

section Log

variable {β : Type}

/-- The PIN checks begun since the last one that passed, or since the PIN was set. -/
def checksSince : List (Event β) → Nat
  | [] => 0
  | .stored _ .checkBegun :: log => checksSince log + 1
  | .stored _ .checkPassed :: _ => 0
  | .stored _ .pinSet :: _ => 0
  | _ :: log => checksSince log

/-- The consecutive PIN checks that failed in the current power cycle. -/
def failuresSince : List (Event β) → Nat
  | [] => 0
  | .booted :: _ => 0
  | .failed :: log => failuresSince log + 1
  | .stored _ .checkPassed :: _ => 0
  | .stored _ .pinSet :: _ => 0
  | _ :: log => failuresSince log

end Log

/-! ## The law of the counters -/

section Law

variable {β : Type} [StorageBackend β] [LawfulBackend β]

/-- The persistent counter agrees with the log. -/
structure RetryLaw (e : StorageEngine β) (log : List (Event β)) : Prop where
  synced : e.Synced
  backend : e.backend.isSome = true
  sum : e.readRetries + checksSince log = pinMaxRetries
  unset : e.isPinSet = false → checksSince log = 0

/-- The law holds now and held after every write. -/
structure RetryInv (c : Core β) : Prop where
  now : RetryLaw c.storage c.log
  writes : ∀ later e mark tail, c.log = later ++ .stored e mark :: tail →
    RetryLaw e (.stored e mark :: tail)
  failures : c.failures = min (failuresSince c.log) 255
  unset : c.storage.isPinSet = false → failuresSince c.log = 0
  compared : ∀ later path matched tail, c.log = later ++ .compared path matched :: tail →
    path = .changePin ∨ path = .pinToken → ∃ e older, tail = .stored e .checkBegun :: older

theorem RetryLaw.of_values {e e' : StorageEngine β} {log log' : List (Event β)}
    (h : RetryLaw e log) (hsynced : e.Synced → e'.Synced)
    (hbackend : e'.backend.isSome = e.backend.isSome)
    (hretries : e'.value pinRetriesKey = e.value pinRetriesKey)
    (hpin : e'.isPinSet = false → e.isPinSet = false)
    (hlog : checksSince log' = checksSince log) : RetryLaw e' log' where
  synced := hsynced h.synced
  backend := hbackend.trans h.backend
  sum := by
    rw [hlog, show e'.readRetries = e.readRetries from readDecimal_congr hretries _ _]
    exact h.sum
  unset hunset := by
    rw [hlog]
    exact h.unset (hpin hunset)

/-- An entry of the log that is no write leaves the law as it is. -/
theorem RetryLaw.cons {e : StorageEngine β} {log : List (Event β)} {event : Event β}
    (h : RetryLaw e log) (hevent : ∀ e' mark, event ≠ .stored e' mark) :
    RetryLaw e (event :: log) := by
  refine h.of_values id rfl rfl id ?_
  cases event with
  | stored e' mark => exact absurd rfl (hevent e' mark)
  | booted | compared | failed | issued => rfl

/-- A power cycle keeps the law. -/
theorem RetryLaw.reopen {e : StorageEngine β} {log : List (Event β)} (build : Build)
    (h : RetryLaw e log) : RetryLaw (Auth.reopen build e) (.booted :: log) := by
  refine h.of_values (fun _ => Auth.synced_reopen build e)
    (congrArg Option.isSome (Auth.backend_reopen build e))
    (Auth.value_reopen build h.backend h.synced systemKey_retries) (fun hunset => ?_) rfl
  unfold StorageEngine.isPinSet at hunset ⊢
  rwa [Auth.value_reopen build h.backend h.synced systemKey_pin] at hunset

/-! ## Moves -/

/-- The writes a move makes keep the law. -/
theorem RetryInv.stored {c : Core β} (h : RetryInv c) {e : StorageEngine β} {mark : Mark}
    (hlaw : RetryLaw e (.stored e mark :: c.log)) {failures : Nat}
    (hfail : failures = min (failuresSince (.stored e mark :: c.log)) 255)
    (hunset : e.isPinSet = false → failuresSince (.stored e mark :: c.log) = 0) :
    RetryInv { c with failures := failures, storage := e, log := .stored e mark :: c.log } where
  now := hlaw
  writes later e' mark' tail heq := by
    cases later with
    | nil =>
        obtain ⟨heq₁, heq₂⟩ := List.cons.inj heq
        cases heq₁
        rw [← heq₂]
        exact hlaw
    | cons event later =>
        obtain ⟨-, heq⟩ := List.cons.inj heq
        exact h.writes later e' mark' tail heq
  failures := hfail
  unset := hunset
  compared later path matched tail heq hpath := by
    cases later with
    | nil =>
        obtain ⟨heq, -⟩ := List.cons.inj heq
        cases heq
    | cons event later =>
        obtain ⟨-, heq⟩ := List.cons.inj heq
        exact h.compared later path matched tail heq hpath

/-- So do its other entries of the log. -/
theorem RetryInv.event {c : Core β} (h : RetryInv c) {event : Event β} {failures : Nat}
    {token : Option PinUvAuthTokenState} (hevent : ∀ e mark, event ≠ .stored e mark)
    (hfail : failures = min (failuresSince (event :: c.log)) 255)
    (hunset : c.storage.isPinSet = false → failuresSince (event :: c.log) = 0)
    (hcompared : ∀ path matched, event = .compared path matched →
      path = .changePin ∨ path = .pinToken → ∃ e older, c.log = .stored e .checkBegun :: older) :
    RetryInv { c with failures := failures, token := token, log := event :: c.log } where
  now := h.now.cons hevent
  writes later e mark tail heq := by
    cases later with
    | nil =>
        obtain ⟨heq, -⟩ := List.cons.inj heq
        exact absurd heq (hevent e mark)
    | cons event' later =>
        obtain ⟨-, heq⟩ := List.cons.inj heq
        exact h.writes later e mark tail heq
  failures := hfail
  unset := hunset
  compared later path matched tail heq hpath := by
    cases later with
    | nil =>
        obtain ⟨heq₁, heq₂⟩ := List.cons.inj heq
        rw [← heq₂]
        exact hcompared path matched heq₁ hpath
    | cons event' later =>
        obtain ⟨-, heq⟩ := List.cons.inj heq
        exact h.compared later path matched tail heq hpath

/-- Saving another entry keeps the law. -/
theorem RetryLaw.saved {e e' : StorageEngine β} {log : List (Event β)} {key : String}
    {v : Option Bytes} (h : RetryLaw e log) (hs : StorageEngine.Saved key v e e')
    (hretries : pinRetriesKey ≠ key) (hpin : e'.isPinSet = false → e.isPinSet = false) :
    RetryLaw e' (.stored e' .ordinary :: log) := by
  refine h.of_values hs.synced hs.backend ?_ hpin rfl
  rw [hs.value_eq, if_neg hretries]

theorem isPinSet_saved {e e' : StorageEngine β} {key : String} {v : Option Bytes}
    (hs : StorageEngine.Saved key v e e') (hkey : pinStorageKey ≠ key) :
    e'.isPinSet = e.isPinSet := by
  unfold StorageEngine.isPinSet
  rw [hs.value_eq, if_neg hkey]

theorem RetryInv.ordinary {c : Core β} (h : RetryInv c) {e : StorageEngine β}
    (hlaw : RetryLaw e (.stored e .ordinary :: c.log))
    (hpin : e.isPinSet = false → c.storage.isPinSet = false) :
    RetryInv { c with storage := e, log := .stored e .ordinary :: c.log } :=
  h.stored hlaw h.failures fun hunset => h.unset (hpin hunset)

/-- Each of the allowed saves keeps the invariant. -/
theorem RetryInv.save {c : Core β} (h : RetryInv c) {key : String} {v : Option Bytes} {mark : Mark}
    {e : StorageEngine β} (hs : StorageEngine.Saved key v c.storage e)
    (ha : Allowed c key v mark) :
    RetryInv { c with storage := e, log := .stored e mark :: c.log } := by
  have hother : mark = .ordinary → pinRetriesKey ≠ key → pinStorageKey ≠ key →
      RetryInv { c with storage := e, log := .stored e mark :: c.log } := by
    rintro rfl hretries hkey
    have hpin := isPinSet_saved hs hkey
    exact h.ordinary (h.now.saved hs hretries (by rw [hpin]; exact id)) (by rw [hpin]; exact id)
  cases ha with
  | initialPin hash hunset =>
      have hset : e.isPinSet = true := by
        unfold StorageEngine.isPinSet
        rw [hs.value_eq, if_pos rfl]
        rfl
      have hzero : checksSince c.log = 0 := h.now.unset hunset
      refine h.stored ⟨hs.synced h.now.synced, hs.backend.trans h.now.backend, ?_, fun _ => rfl⟩ ?_
        fun _ => rfl
      · have hsum := h.now.sum
        rw [hzero] at hsum
        rw [show e.readRetries = c.storage.readRetries from
          readDecimal_congr (by rw [hs.value_eq, if_neg (by decide)]) _ _]
        exact hsum
      · rw [h.failures, h.unset hunset]
        rfl
  | newPin hash hset =>
      have hset' : e.isPinSet = true := by
        unfold StorageEngine.isPinSet
        rw [hs.value_eq, if_pos rfl]
        rfl
      have hno : e.isPinSet = false → c.storage.isPinSet = false := by
        intro hf
        rw [hset'] at hf
        cases hf
      exact h.ordinary (h.now.saved hs (by decide) hno) hno
  | takeRetry hset hleft hopen =>
      have hsum := h.now.sum
      have hread : e.readRetries = c.storage.readRetries - 1 :=
        readDecimal_saved hs (by unfold pinMaxRetries at hsum; omega) _
      have hpin : e.isPinSet = true := (isPinSet_saved hs (by decide)).trans hset
      refine h.stored ⟨hs.synced h.now.synced, hs.backend.trans h.now.backend, ?_, fun hf => ?_⟩
        h.failures fun hf => ?_
      · show e.readRetries + (checksSince c.log + 1) = _
        omega
      · rw [hpin] at hf
        cases hf
      · rw [hpin] at hf
        cases hf
  | alwaysUv v hset => exact hother rfl (by decide) (by decide)
  | counted hlt => exact hother rfl (by decide) (by decide)
  | plain key v hmem =>
      refine hother rfl ?_ ?_
      · rintro rfl
        exact absurd hmem (by decide)
      · rintro rfl
        exact absurd hmem (by decide)

/-- Every move keeps the invariant. -/
theorem RetryInv.move {K : Set Kind} {c c' : Core β} (hmove : Move K c c') (h : RetryInv c) :
    RetryInv c' := by
  cases hmove with
  | issue hK state =>
      exact h.event (by rintro e mark ⟨⟩) h.failures h.unset (by rintro path matched ⟨⟩)
  | dropToken hK => exact ⟨h.now, h.writes, h.failures, h.unset, h.compared⟩
  | enumerate hK state => exact ⟨h.now, h.writes, h.failures, h.unset, h.compared⟩
  | records hK hs hk =>
      have hpin := hs.1 _ systemKey_pin
      have hno : ∀ {e : StorageEngine β}, e.value pinStorageKey = c.storage.value pinStorageKey →
          e.isPinSet = false → c.storage.isPinSet = false := by
        intro e heq hunset
        unfold StorageEngine.isPinSet at hunset ⊢
        rwa [← heq]
      exact h.ordinary (h.now.of_values hs.2.1 hs.2.2 (hs.1 _ systemKey_retries) (hno hpin) rfl)
        (hno hpin)
  | save hK hs ha => exact h.save hs ha
  | @restore hK mark e hs ha =>
      have hread : e.readRetries = pinMaxRetries := readDecimal_saved hs (by decide) _
      have hzero : checksSince (.stored e mark :: c.log) = 0 ∧
          failuresSince (.stored e mark :: c.log) = 0 := by
        obtain ⟨rfl, -⟩ | ⟨rfl, e', tail, hlog⟩ := ha
        · exact ⟨rfl, rfl⟩
        · rw [hlog]
          exact ⟨rfl, rfl⟩
      refine h.stored ⟨hs.synced h.now.synced, hs.backend.trans h.now.backend, ?_,
        fun _ => hzero.1⟩ ?_ fun _ => hzero.2
      · rw [hread, hzero.1, Nat.add_zero]
      · rw [hzero.2]
        rfl
  | compare hK matched ha =>
      refine h.event (by rintro e mark ⟨⟩) h.failures h.unset ?_
      rintro path' matched' ⟨⟩ hpath
      exact ha hpath
  | fail hK hset =>
      refine h.event (by rintro e mark ⟨⟩) ?_ (fun hunset => ?_) (by rintro path matched ⟨⟩)
      · rw [h.failures]
        show min (min (failuresSince c.log) 255 + 1) 255 = min (failuresSince c.log + 1) 255
        omega
      · rw [hset] at hunset
        cases hunset

end Law

/-! ## Runs with a loss of power at any write -/

namespace Auth

variable {β : Type} [StorageBackend β] [LawfulBackend β] (build : Build)

/-- One step of a run: a command, a power cycle after it, or a loss of power after one of the
writes of a command. -/
inductive PowerStep : Auth β → Auth β → Prop
  | command (a : Auth β) (cmd : UInt8) (data : Bytes)
      (hcmd : Ctap2Command.fromU8 cmd ≠ .reset) : PowerStep a (a.step build (.command cmd data))
  | powerCycle (a : Auth β) : PowerStep a (a.powerCycle build)
  | cut (a : Auth β) (cmd : UInt8) (data : Bytes) (hcmd : Ctap2Command.fromU8 cmd ≠ .reset)
      (later tail : List (Event β)) (e : StorageEngine β) (mark : Mark)
      (hlog : (a.step build (.command cmd data)).log = later ++ .stored e mark :: tail)
      (hnew : a.log <:+ tail) :
      PowerStep a ((a.step build (.command cmd data)).reboot (reopen build e)
        (.stored e mark :: tail))

/-- The runs of an authenticator without Reset. -/
def PowerRun : Auth β → Auth β → Prop := Relation.ReflTransGen (PowerStep build)

omit [LawfulBackend β] in
theorem powerRun_run {inputs : List Input} (h : ∀ input ∈ inputs, input.isReset = false)
    (a : Auth β) : PowerRun build a (a.run build inputs) := by
  induction inputs generalizing a with
  | nil => exact .refl
  | cons input inputs ih =>
      have hfirst : PowerStep build a (a.step build input) := by
        cases input with
        | powerCycle => exact .powerCycle a
        | command cmd data =>
            exact .command a cmd data (of_decide_eq_false (h _ List.mem_cons_self))
      exact .head hfirst (ih (fun i hi => h i (List.mem_cons_of_mem _ hi)) _)

theorem retryInv_reboot {a : Auth β} {e : StorageEngine β} {log : List (Event β)}
    (hlaw : RetryLaw e log)
    (hwrites : ∀ later e mark tail, log = later ++ .stored e mark :: tail →
      RetryLaw e (.stored e mark :: tail))
    (hcompared : ∀ later path matched tail, log = later ++ .compared path matched :: tail →
      path = .changePin ∨ path = .pinToken → ∃ e older, tail = .stored e .checkBegun :: older) :
    RetryInv (a.reboot (reopen build e) log).core where
  now := hlaw.reopen build
  writes later e' mark tail heq := by
    cases later with
    | nil => cases (List.cons.inj heq).1
    | cons event later => exact hwrites later e' mark tail (List.cons.inj heq).2
  failures := rfl
  unset _ := rfl
  compared later path matched tail heq hpath := by
    cases later with
    | nil => cases (List.cons.inj heq).1
    | cons event later => exact hcompared later path matched tail (List.cons.inj heq).2 hpath

theorem retryInv_step {a b : Auth β} (h : RetryInv a.core) (hstep : PowerStep build a b) :
    RetryInv b.core := by
  have hcommand : ∀ (cmd : UInt8) (data : Bytes), Ctap2Command.fromU8 cmd ≠ .reset →
      RetryInv (a.step build (.command cmd data)).core := fun cmd data hcmd =>
    moves_invariant (P := RetryInv) (fun _ _ hmove hinv => hinv.move hmove)
      (moves_step build data hcmd a) h
  cases hstep with
  | command cmd data hcmd => exact hcommand cmd data hcmd
  | powerCycle => exact retryInv_reboot build h.now h.writes h.compared
  | cut cmd data hcmd later tail e mark hlog hnew =>
      have hinv := hcommand cmd data hcmd
      refine retryInv_reboot build (hinv.writes later e mark tail hlog)
        (fun later' e' mark' tail' heq => ?_)
        fun later' path matched tail' heq hpath => ?_
      · refine hinv.writes (later ++ later') e' mark' tail' ?_
        show (a.step build (.command cmd data)).log = _
        rw [hlog, heq, List.append_assoc]
      · refine hinv.compared (later ++ later') path matched tail' ?_ hpath
        show (a.step build (.command cmd data)).log = _
        rw [hlog, heq, List.append_assoc]

theorem retryInv_run {a b : Auth β} (h : RetryInv a.core) (hrun : PowerRun build a b) :
    RetryInv b.core := by
  induction hrun with
  | refl => exact h
  | tail _ hstep ih => exact retryInv_step build ih hstep

theorem retryInv_blank {a : Auth β} (h : a.Blank) (hb : a.storage.backend.isSome = true) :
    RetryInv a.core := by
  have hlog : a.log = [.booted] := by
    rw [h.opened]
    rfl
  have hfail : a.pinFailuresSinceReset = 0 := by
    rw [h.opened]
    rfl
  have hread : a.storage.readRetries = pinMaxRetries := by
    unfold StorageEngine.readRetries StorageEngine.readDecimal
    rw [h.storage.value]
    rfl
  refine ⟨⟨h.storage.synced, hb, ?_, fun _ => ?_⟩, fun later e mark tail heq => ?_, ?_, fun _ => ?_,
    fun later path matched tail heq => ?_⟩
  · show a.storage.readRetries + checksSince a.log = _
    rw [hread, hlog]
    rfl
  · show checksSince a.log = 0
    rw [hlog]
    rfl
  · rw [show a.core.log = [.booted] from hlog] at heq
    cases later with
    | nil => cases (List.cons.inj heq).1
    | cons event later => simp at heq
  · show a.pinFailuresSinceReset = min (failuresSince a.log) 255
    rw [hfail, hlog]
    rfl
  · show failuresSince a.log = 0
    rw [hlog]
    rfl
  · rw [show a.core.log = [.booted] from hlog] at heq
    cases later with
    | nil => cases (List.cons.inj heq).1
    | cons event later => simp at heq

/-! ## Refusals -/

section Refusals

omit [LawfulBackend β]

/-- No PIN check may start: there is no retry left, or the session is blocked. -/
def CheckClosed (a : Auth β) : Prop := a.storage.readRetries = 0 ∨ a.isPinAuthBlocked = true

theorem CheckClosed.of_core {a b : Auth β} (h : CheckClosed a) (hcore : b.core = a.core) :
    CheckClosed b := by
  have hs : b.storage = a.storage := congrArg Core.storage hcore
  have hf : b.pinFailuresSinceReset = a.pinFailuresSinceReset := congrArg Core.failures hcore
  unfold CheckClosed isPinAuthBlocked at h ⊢
  rwa [hs, hf]

/-- The two checks every PIN check starts with do not both pass. -/
theorem CheckClosed.elim {a : Auth β} (h : CheckClosed a) (hleft : (a.getPinRetries != 0) = true)
    (hopen : (!a.isPinAuthBlocked) = true) : False := by
  rcases h with hzero | hblocked
  · simp [getPinRetries, hzero] at hleft
  · simp [hblocked] at hopen

theorem refuses_handleChangePin {request : ClientPinRequest} {a : Auth β} (h : CheckClosed a) :
    Refuses (handleChangePin request) a :=
  .quiet_bind (quiet_validateProtocol _) fun _ _ hcore => .ensure_bind fun _ =>
    .ensure_bind fun hleft => .ensure_bind fun hopen => ((h.of_core hcore).elim hleft hopen).elim

theorem refuses_handleGetPinTokenCommon {request : ClientPinRequest} {protocol : PinUvProtocol}
    {permissions : UInt8} {rpId : Option String} {a : Auth β} (h : CheckClosed a) :
    Refuses (handleGetPinTokenCommon request protocol permissions rpId) a :=
  .ensure_bind fun _ => .ensure_bind fun _ => .ensure_bind fun hleft => .ensure_bind fun hopen =>
    (h.elim hleft hopen).elim

theorem refuses_clientPinSubCommand {request : ClientPinRequest} {a : Auth β} (h : CheckClosed a)
    (hsub : ChecksPin request) : Refuses (clientPinSubCommand request) a := by
  unfold clientPinSubCommand
  rcases hsub with hsub | hsub | hsub
  · rw [hsub]
    exact refuses_handleChangePin h
  · rw [hsub]
    exact .quiet_bind (quiet_validateProtocol _) fun _ _ hcore => .ensure_bind fun _ =>
      refuses_handleGetPinTokenCommon (h.of_core hcore)
  · rw [hsub]
    exact .quiet_bind (quiet_validateProtocol _) fun _ _ h₁ =>
      .quiet_bind (quiet_required _) fun _ _ h₂ => .quiet_bind (quiet_validatePermissions _)
        fun _ _ h₃ => .quiet_bind (quiet_requireRpId _ _) fun _ _ h₄ =>
          refuses_handleGetPinTokenCommon (h.of_core (by rw [h₄, h₃, h₂, h₁]))

/-- A command that asks for a PIN check is refused, and neither compares nor takes a retry. -/
theorem refused_command {a : Auth β} {cmd : UInt8} {data : Bytes} {request : ClientPinRequest}
    (h : CheckClosed a) (hcmd : Ctap2Command.fromU8 cmd = .clientPin)
    (hdecode : ClientPinRequest.decode build.cbor data = .ok request) (hsub : ChecksPin request) :
    (∃ error, (a.exchange build cmd data).result = .error error) ∧
      (a.step build (.command cmd data)).core = a.core := by
  obtain ⟨a', hcore, hrun⟩ := run_processCommand build cmd data a
  obtain ⟨error, b, hrefused, hb⟩ := refuses_clientPinSubCommand (h.of_core hcore) hsub
  have hpin : (handleClientPin build data).run a' = (.error error, b) :=
    (Prog.run_bind_of_ok (Prod.ext hdecode rfl)).trans hrefused
  have hdispatch : (dispatch build (.fromU8 cmd) data).run a' = (.error error, b) := by
    rw [hcmd, dispatch, Prog.run_map, hpin]
    rfl
  rw [hdispatch] at hrun
  exact ⟨⟨error, congrArg Prod.fst hrun⟩,
    (congrArg (fun r => r.2.core) hrun).trans (hb.trans hcore)⟩

end Refusals

/-! ## No way back from zero -/

/-- While no PIN check may start, ClientPIN does not touch the counter. -/
theorem moves_clientPin_closed {K : Set Kind} {a : Auth β} (data : Bytes) (h : CheckClosed a)
    (hset : a.storage.isPinSet = true) (huv : Kind.save uvRetriesKey ∈ K)
      (hissue : Kind.issue ∈ K) :
    KeepsAt (Moves K) (handleClientPin build data) a := by
  refine .check_bind fun request _ => ?_
  by_cases hsub : ChecksPin request
  · obtain ⟨error, b, hrun, hcore⟩ := refuses_clientPinSubCommand h hsub
    show (Moves K).rel a ((clientPinSubCommand request).run a).2
    rw [hrun]
    exact moves_of_core hcore
  unfold clientPinSubCommand
  split
  · exact moves_of_quiet quiet_handleGetRetries a
  · exact moves_of_quiet (quiet_handleGetKeyAgreement request) a
  · refine quiet_bind (quiet_validateProtocol _) fun _ b hcore => .ensure_bind fun hunset => ?_
    rw [show b.storage = a.storage from congrArg Core.storage hcore, hset] at hunset
    cases hunset
  · next hfour => exact absurd (.inl hfour) hsub
  · next hfive => exact absurd (.inr (.inl hfive)) hsub
  · exact moves_handleGetUvToken request huv hissue a
  · exact moves_of_quiet quiet_handleGetUvRetries a
  · next hnine => exact absurd (.inr (.inr hnine)) hsub
  · exact moves_of_quiet (.fail _) a

theorem moves_closed {a : Auth β} {cmd : UInt8} (data : Bytes) (h : CheckClosed a)
    (hset : a.storage.isPinSet = true) (hcmd : Ctap2Command.fromU8 cmd ≠ .reset) :
    ∃ K, Kind.save pinRetriesKey ∉ K ∧ (Moves K).rel a (a.step build (.command cmd data)) := by
  by_cases hpin : Ctap2Command.fromU8 cmd = .clientPin
  · refine ⟨{.save uvRetriesKey, .issue}, by simp [pinRetriesKey, uvRetriesKey], ?_⟩
    obtain ⟨a', hcore, hrun⟩ := run_processCommand build cmd data a
    have hstorage : a'.storage = a.storage := congrArg Core.storage hcore
    have hkeeps := moves_clientPin_closed build (K := {.save uvRetriesKey, .issue}) data
      (h.of_core hcore) (hstorage ▸ hset) (by simp) (by simp)
    have hstep : a.step build (.command cmd data) = ((handleClientPin build data).run a').2 := by
      show ((processCommand build cmd data).run a).2 = _
      rw [hrun, hpin, dispatch, Prog.run_map]
    rw [hstep]
    exact (Moves _).trans (moves_of_core hcore) hkeeps
  · refine ⟨commandKinds (.fromU8 cmd), ?_, moves_step build data hcmd a⟩
    generalize Ctap2Command.fromU8 cmd = command at hpin
    cases command with
    | clientPin => exact absurd rfl hpin
    | _ => simp [commandKinds, makeCredentialKinds, assertionKinds, configKinds, pinRetriesKey,
        cfgEpPendingKey, signCounterStorageKey, cfgAlwaysUvKey, cfgMakeCredUvNotRqdKey,
        cfgMinPinLengthKey, cfgMinPinLengthRpidsKey, cfgForceChangePinKey]

/-- A PIN is set and there is no retry left. -/
structure Exhausted (e : StorageEngine β) : Prop where
  retries : e.readRetries = 0
  pinSet : e.isPinSet = true

/-- The storage is exhausted, and was after every write since `base`. -/
structure StaysExhausted (base : List (Event β)) (c : Core β) : Prop where
  now : Exhausted c.storage
  writes : ∀ later e mark tail, c.log = later ++ .stored e mark :: tail →
    base <:+ tail → Exhausted e

theorem Exhausted.move {K : Set Kind} {c c' : Core β} (hK : Kind.save pinRetriesKey ∉ K)
    (hmove : Move K c c') (h : Exhausted c.storage) : Exhausted c'.storage := by
  refine ⟨?_, hmove.isPinSet h.pinSet⟩
  have hvalue : c'.storage.value pinRetriesKey = c.storage.value pinRetriesKey := by
    cases hmove with
    | issue | dropToken | enumerate | compare | fail => rfl
    | records _ hs _ => exact hs.1 _ systemKey_retries
    | save hmem hs _ =>
        rw [hs.value_eq, if_neg]
        rintro rfl
        exact hK hmem
    | restore hmem => exact absurd hmem hK
  exact (readDecimal_congr hvalue _ _).trans h.retries

theorem StaysExhausted.move {K : Set Kind} {base : List (Event β)} {c c' : Core β}
    (hK : Kind.save pinRetriesKey ∉ K) (hmove : Move K c c') (h : StaysExhausted base c) :
    StaysExhausted base c' := by
  have hnow := h.now.move hK hmove
  have hcons : ∀ event, c'.log = event :: c.log →
      (∀ e mark, event = .stored e mark → e = c'.storage) → StaysExhausted base c' := by
    intro event hlog hevent
    refine ⟨hnow, fun later e mark tail heq hbase => ?_⟩
    rw [hlog] at heq
    cases later with
    | nil =>
        rw [hevent e mark (List.cons.inj heq).1]
        exact hnow
    | cons event' later => exact h.writes later e mark tail (List.cons.inj heq).2 hbase
  cases hmove with
  | issue | compare | fail => exact hcons _ rfl (by rintro e mark ⟨⟩)
  | dropToken | enumerate => exact ⟨hnow, h.writes⟩
  | records | save | restore =>
      refine hcons _ rfl ?_
      rintro e mark ⟨⟩
      rfl

theorem Exhausted.reopen {e : StorageEngine β} {log : List (Event β)} (h : Exhausted e)
    (hlaw : RetryLaw e log) : Exhausted (reopen build e) := by
  refine ⟨?_, ?_⟩
  · exact (readDecimal_congr
      (value_reopen build hlaw.backend hlaw.synced systemKey_retries) _ _).trans
      h.retries
  · unfold StorageEngine.isPinSet
    rw [value_reopen build hlaw.backend hlaw.synced systemKey_pin]
    exact h.pinSet

theorem exhausted_step {a b : Auth β} (hinv : RetryInv a.core) (h : Exhausted a.storage)
    (hstep : PowerStep build a b) : Exhausted b.storage := by
  have hstays : ∀ (cmd : UInt8) (data : Bytes), Ctap2Command.fromU8 cmd ≠ .reset →
      StaysExhausted a.log (a.step build (.command cmd data)).core := by
    intro cmd data hcmd
    obtain ⟨K, hK, hmoves⟩ := moves_closed build data (.inl h.retries) h.pinSet hcmd
    refine moves_invariant (P := StaysExhausted a.log) (fun _ _ hmove hs => hs.move hK hmove) hmoves
      ⟨h, fun later e mark tail heq hbase => ?_⟩
    have hlen := hbase.length_le
    rw [show a.log = _ from heq] at hlen
    simp at hlen
    omega
  cases hstep with
  | command cmd data hcmd => exact (hstays cmd data hcmd).now
  | powerCycle => exact h.reopen build hinv.now
  | cut cmd data hcmd later tail e mark hlog hnew =>
      have hafter := retryInv_step build hinv (.command a cmd data hcmd)
      exact ((hstays cmd data hcmd).writes later e mark tail hlog hnew).reopen build
        (hafter.writes later e mark tail hlog)

theorem exhausted_run {a b : Auth β} (hinv : RetryInv a.core) (h : Exhausted a.storage)
    (hrun : PowerRun build a b) : Exhausted b.storage := by
  induction hrun with
  | refl => exact h
  | tail hrun hstep ih => exact exhausted_step build (retryInv_run build hinv hrun) ih hstep

/-! ## The machine -/

/-- Every command that checks a PIN is refused in this state, without a trace. -/
def RefusesChecks (a : Auth β) : Prop :=
  ∀ (cmd : UInt8) (data : Bytes) (request : ClientPinRequest),
    Ctap2Command.fromU8 cmd = .clientPin →
    ClientPinRequest.decode build.cbor data = .ok request → ChecksPin request →
    (∃ error, (a.exchange build cmd data).result = .error error) ∧
      (a.step build (.command cmd data)).core = a.core

omit [LawfulBackend β] in
theorem CheckClosed.refusesChecks {a : Auth β} (h : CheckClosed a) : RefusesChecks build a :=
  fun _ _ _ hcmd hdecode hsub => refused_command build h hcmd hdecode hsub

/-- In every run from empty storage without Reset, with power lost at any write: the counter is
eight minus the checks begun since the last that passed; a check passes exactly if the submitted
hash is the stored one; it saves its decrement before it compares; three failures in a row close the
power cycle; and zero is final. -/
theorem pin_retry_machine (start a : Auth β) (hblank : start.Blank)
    (hbackend : start.storage.backend.isSome = true) (hrun : PowerRun build start a)
    (hset : a.storage.isPinSet = true) :
    (a.storage.readRetries = 8 - checksSince a.log ∧ checksSince a.log ≤ 8) ∧
      (∀ cmd data, Ctap2Command.fromU8 cmd ≠ .reset → JudgesCommand build a cmd data) ∧
      (∀ later path matched tail, a.log = later ++ .compared path matched :: tail →
        path = .changePin ∨ path = .pinToken →
        ∃ e older, tail = .stored e .checkBegun :: older ∧
          e.readRetries = 8 - checksSince tail ∧ checksSince tail = checksSince older + 1) ∧
      (3 ≤ failuresSince a.log → RefusesChecks build a) ∧
      (a.storage.readRetries = 0 → ∀ b, PowerRun build a b →
        b.storage.readRetries = 0 ∧ RefusesChecks build b) := by
  have hinv : RetryInv a.core := retryInv_run build (retryInv_blank hblank hbackend) hrun
  have hsum : a.storage.readRetries + checksSince a.log = 8 := hinv.now.sum
  refine ⟨by omega, fun cmd data hcmd => judges_command build data hcmd a,
    fun later path matched tail hlog hpath => ?_, fun hfailed => ?_, fun hzero b hb => ?_⟩
  · obtain ⟨e, older, rfl⟩ := hinv.compared later path matched tail hlog hpath
    have hlaw := hinv.writes (later ++ [.compared path matched]) e .checkBegun older (by
      show a.log = _
      rw [hlog, List.append_assoc]
      rfl)
    have hsum' : e.readRetries + checksSince (.stored e .checkBegun :: older) = 8 := hlaw.sum
    exact ⟨e, older, rfl, by omega, rfl⟩
  · have hfailures : a.pinFailuresSinceReset = min (failuresSince a.log) 255 := hinv.failures
    refine CheckClosed.refusesChecks build (.inr (decide_eq_true ?_))
    show 3 ≤ a.pinFailuresSinceReset
    omega
  · have hexhausted := exhausted_run build hinv ⟨hzero, hset⟩ hb
    exact ⟨hexhausted.retries, CheckClosed.refusesChecks build (.inl hexhausted.retries)⟩

/-- The state after power is lost in a command, right after the write that `n` entries of its log
follow. -/
def cutAfter (a : Auth β) (cmd : UInt8) (data : Bytes) (n : Nat) : Option (Auth β) :=
  match (a.step build (.command cmd data)).log.drop n with
  | .stored e mark :: tail =>
      if a.log.length ≤ tail.length then
        some ((a.step build (.command cmd data)).reboot (reopen build e) (.stored e mark :: tail))
      else none
  | _ => none

theorem log_suffix_of_moves {K : Set Kind} {a b : Auth β} (h : (Moves K).rel a b) :
    a.log <:+ b.log := by
  refine moves_invariant (P := fun c => a.log <:+ c.log) (fun c c' hmove hs => ?_) h
    (List.suffix_refl _)
  cases hmove with
  | dropToken | enumerate => exact hs
  | _ => exact hs.trans (List.suffix_cons _ _)

theorem powerStep_cutAfter {a b : Auth β} {cmd : UInt8} {data : Bytes} {n : Nat}
    (hcmd : Ctap2Command.fromU8 cmd ≠ .reset) (h : cutAfter build a cmd data n = some b) :
    PowerStep build a b := by
  have hlog := (List.take_append_drop n (a.step build (.command cmd data)).log).symm
  have hgrows := log_suffix_of_moves (moves_step build data hcmd a)
  unfold cutAfter at h
  split at h
  · next e mark tail hdrop =>
      rw [hdrop] at hlog
      split at h
      · next hlen =>
          cases h
          refine .cut a cmd data hcmd _ tail e mark hlog
            (List.suffix_of_suffix_length_le hgrows ?_ hlen)
          rw [hlog]
          exact ⟨_, List.append_assoc _ [_] _⟩
      · cases h
  · cases h

set_option maxRecDepth 100000 in
/-- A check fails, and power is lost in the next one when it has taken its retry. -/
theorem pin_retry_machine_sample : ∃ b, PowerRun sampleBuild backedDevice b ∧
    b.storage.isPinSet = true ∧ pinMarks b.log = [.begun, .failed, .begun, .set] ∧
      b.storage.readRetries = 8 - checksSince b.log := by
  have hcut : (cutAfter sampleBuild
      (backedDevice.run sampleBuild [setPinCommand, wrongTokenCommand]) 0x06 secondTokenData 3).any
      (fun b => b.storage.isPinSet && decide (pinMarks b.log = [.begun, .failed, .begun, .set])) =
      true := by decide +kernel
  obtain ⟨b, hb, hstate⟩ := (Option.any_eq_true _ _).mp hcut
  obtain ⟨hset, hmarks⟩ := Bool.and_eq_true_iff.mp hstate
  have hrun : PowerRun sampleBuild backedDevice b :=
    (powerRun_run sampleBuild (by decide) backedDevice).tail
      (powerStep_cutAfter sampleBuild (by decide) hb)
  exact ⟨b, hrun, hset, of_decide_eq_true hmarks, (pin_retry_machine sampleBuild backedDevice b
    blank_backedDevice rfl hrun hset).1.1⟩

end Auth

end OpenKey
