import OpenKey.Ctap2.AllowList
import OpenKey.Ctap2.HmacSession
import OpenKey.Storage.Faults

/-!
# Which assertions are counted

GetAssertion takes the next value of the signature counter once its request is admitted and a
credential is selected, GetNextAssertion once the next match is loaded and its output of hmac-secret
is ready (`ReachesCount`).

**One command (`counted_step`, `unwritten_step`).** Over a medium whose reads may fail, a command
that reaches the counter saves the successor of the value it reads. One that does not, or finds the
counter full, writes nothing.
-/

namespace OpenKey

open Prog (Keeps KeepsAt)

set_option autoImplicit false

namespace Auth

variable {β : Type} [StorageBackend β] (build : Build)

/-! ## Reaching the counter -/

/-- A command that gets as far as the signature counter. -/
inductive ReachesCount (a : Auth β) (cmd : UInt8) (data : Bytes) : Prop
  | first {request : GetAssertionRequest} {verified : Bool} {credential : Credential}
      (hcmd : Ctap2Command.fromU8 cmd = .getAssertion)
      (hdecode : build.cbor.decodeGetAssertion data = .ok request)
      (hadmitted : Admitted a request verified)
      (hselect : selectCredential a request (a.credProtectUvSatisfied verified) = .ok credential)
  | next {state : GetNextAssertionState} {credentialId : Bytes} {credential : Credential}
      (hcmd : Ctap2Command.fromU8 cmd = .getNextAssertion)
      (hstate : a.getNextAssertionState = some state)
      (hmatch : (findMatchingCredentials a state.rpId state.allowList
        state.uvSatisfied)[state.currentIndex + 1]? = some credentialId)
      (hload : a.storage.getCredential credentialId a.crypto = .ok (some credential))
      (hchain : a.ChainReady state credential)

theorem ReachesCount.asserts {a : Auth β} {cmd : UInt8} {data : Bytes}
    (h : ReachesCount build a cmd data) :
    Ctap2Command.fromU8 cmd = .getAssertion ∨ Ctap2Command.fromU8 cmd = .getNextAssertion := by
  cases h with
  | first hcmd => exact .inl hcmd
  | next hcmd => exact .inr hcmd

/-- The session of hmac-secret does not count. -/
theorem admitted_session {a : Auth β} {request : GetAssertionRequest} {verified : Bool}
    {session : Option HmacSecretSession} :
    Admitted { a with hmacSecretSession := session } request verified ↔
      Admitted a request verified :=
  ⟨fun h => ⟨h.verdict, h.pin, h.always, h.present⟩,
    fun h => ⟨h.verdict, h.pin, h.always, h.present⟩⟩

omit [StorageBackend β] in
theorem selectCredential_session {a : Auth β} {request : GetAssertionRequest} {uvSatisfied : Bool}
    {session : Option HmacSecretSession} :
    selectCredential { a with hmacSecretSession := session } request uvSatisfied =
      selectCredential a request uvSatisfied :=
  selectCredential_congr (a := a) (b := { a with hmacSecretSession := session }) rfl _ _

theorem run_getAssertion_command {cmd : UInt8} (data : Bytes) (a : Auth β)
    (h : Ctap2Command.fromU8 cmd = .getAssertion) : ((processCommand build cmd data).run a).2 =
      ((handleGetAssertion build data).run { a with hmacSecretSession := none }).2 := by
  rw [run_processCommand_of_ne build data a (by rw [h]; decide), h, dispatch, Prog.run_map]

/-- GetNextAssertion keeps the session of hmac-secret. -/
theorem run_nextAssertion {cmd : UInt8} (data : Bytes) (a : Auth β)
    (h : Ctap2Command.fromU8 cmd = .getNextAssertion) : (processCommand build cmd data).run a =
      (CtapResponse.getAssertion <$> handleGetNextAssertion build).run a := by
  unfold processCommand
  simp only [h, ne_eq, not_true, decide_false]
  rfl

/-! ## Nothing written -/

/-- The moves that write nothing. -/
def Unwritten : Prog.Frame (Auth β) := .constant fun a => (a.storage, a.log)

omit [StorageBackend β] in
theorem unwritten_of_quiet {α : Type} {m : Ctap β α} (h : Keeps Quiet m) : Keeps Unwritten m :=
  h.mono fun _ _ hcore => congrArg (fun c : Core β => (c.storage, c.log)) hcore

omit [StorageBackend β] in
theorem unwritten_openEnumeration (request : GetAssertionRequest) (flags : UInt8)
    (uvSatisfied : Bool) (credential : Credential) :
    Keeps Unwritten (openEnumeration request flags uvSatisfied credential : Ctap β Nat) :=
  (Keeps.read _).bind fun _ => .ite
    (fun _ => Keeps.bind (.update fun _ => rfl) fun _ => .pure _)
    fun _ => Keeps.bind (.update fun _ => rfl) fun _ => .pure _

/-- An assertion is not counted once the counter is full. -/
theorem unwritten_signCounted {credential : Credential} {rpIdHash clientDataHash : Bytes}
    {flags : UInt8} {a : Auth β} (hfull : 2 ^ 32 ≤ a.storage.signCounter + 1) {α : Type}
    {k : Assertion → Ctap β α} :
    KeepsAt Unwritten (signCounted build credential rpIdHash flags clientDataHash >>= k) a := by
  have hcount : (nextSignCount : Ctap β Nat).run a = (.error .unknown, a) := by
    unfold nextSignCount
    rw [Prog.run_read_bind]
    exact Prog.run_ensure_bind_error (decide_eq_false (Nat.not_lt.mpr hfull))
  unfold signCounted KeepsAt
  rw [Prog.bind_bind, Prog.run_bind_of_error hcount]
  exact Unwritten.refl a

theorem unwritten_getAssertion {request : GetAssertionRequest} {a : Auth β}
    (h : ∀ verified credential, Admitted a request verified →
      selectCredential a request (a.credProtectUvSatisfied verified) = .ok credential →
        2 ^ 32 ≤ a.storage.signCounter + 1) :
    KeepsAt Unwritten (getAssertion build request) a := by
  refine .bind (unwritten_of_quiet (quiet_authenticateOperation _ _ _ _ _ _) a)
    fun verified a₁ hauthenticated => ?_
  obtain ⟨rfl, hverdict, hpin, halways⟩ := authenticateOperation_ok hauthenticated
  refine .bind (unwritten_of_quiet (.when fun _ => quiet_checkPresence) a) fun _ b hpresent => ?_
  have hadmitted : Admitted a request verified :=
    ⟨hverdict, hpin, halways, present_of_ok hpresent⟩
  have hcore : b.core = a.core := core_of_quiet (.when fun _ => quiet_checkPresence) hpresent
  have hstorage : b.storage = a.storage := storage_of_core hcore
  have hseen : b.credProtectUvSatisfied verified = a.credProtectUvSatisfied verified := by
    unfold credProtectUvSatisfied
    rw [hstorage]
  refine .read_bind (.check_bind fun credential hselect => .read_bind ?_)
  rw [hseen, selectCredential_congr hcore] at hselect
  refine unwritten_signCounted build ?_
  rw [hstorage]
  exact h verified credential hadmitted hselect

theorem unwritten_handleGetNextAssertion {a : Auth β}
    (h : ∀ state credentialId credential, a.getNextAssertionState = some state →
      (findMatchingCredentials a state.rpId state.allowList
        state.uvSatisfied)[state.currentIndex + 1]? = some credentialId →
      a.storage.getCredential credentialId a.crypto = .ok (some credential) →
      a.ChainReady state credential → 2 ^ 32 ≤ a.storage.signCounter + 1) :
    KeepsAt Unwritten (handleGetNextAssertion build) a := by
  have htake : Keeps Unwritten (takeNextState : Ctap β GetNextAssertionState) :=
    Keeps.bind (.act fun _ => rfl) fun _ => .check _
  refine .bind (htake a) fun state a₁ hstate => ?_
  obtain ⟨hopened, rfl⟩ := takeNextState_ok hstate
  refine .read_bind (.bind ?_ fun credentialId a₂ hnext => ?_)
  · unfold nextMatch
    split
    · exact .pure _
    · rfl
  obtain ⟨hmatch, rfl⟩ := nextMatch_ok hnext
  refine .bind rfl fun credential a₃ hfound => ?_
  obtain ⟨hload, rfl⟩ := loadCredential_ok hfound
  refine .bind (unwritten_of_quiet (quiet_chainedHmacSecret _ _) _) fun chained b hchained => ?_
  have hstorage : b.storage = a.storage :=
    congrArg Core.storage (core_of_quiet (quiet_chainedHmacSecret _ _) hchained)
  rw [KeepsAt, Prog.run_bind_of_ok (run_when_endHmacSession _ b), Prog.run_update_bind,
    buildGetAssertionResponse, Prog.run_read_bind]
  refine unwritten_signCounted build (a := { b with
    hmacSecretSession := _, getNextAssertionState := _ }) ?_
  show 2 ^ 32 ≤ b.storage.signCounter + 1
  rw [hstorage]
  have hready : ChainReady { a with getNextAssertionState := none } state credential :=
    chainReady_of_ok hchained
  exact h state credentialId credential hopened hmatch hload hready

/-! ## The counter on the medium -/

section Counter

variable [TruthfulBackend β]

/-- The state after an entry is stored. -/
def afterWrite (mark : Mark) (key : String) (v : Bytes) (a : Auth β) : Auth β :=
  { a with
    storage := StorageEngine.afterStore key v a.storage
    log := .stored (StorageEngine.afterStore key v a.storage) mark :: a.log }

theorem run_persist_write (mark : Mark) (key : String) (v : Bytes) (a : Auth β) :
    (persist mark (StorageEngine.store key v)).run a = (.ok (), afterWrite mark key v a) := by
  show ((((StorageEngine.store key v).run a.storage).1.mapError fun _ => Ctap2Error.unknown),
    { a with
      storage := ((StorageEngine.store key v).run a.storage).2
      log := .stored ((StorageEngine.store key v).run a.storage).2 mark :: a.log }) = _
  rw [StorageEngine.run_store_truthful]
  rfl

theorem run_persistIgnored_write (mark : Mark) (key : String) (v : Bytes) (a : Auth β) :
    (persistIgnored mark (StorageEngine.store key v)).run a =
      (.ok (), afterWrite mark key v a) := by
  refine Prod.ext rfl ?_
  show { a with
    storage := ((StorageEngine.store key v).run a.storage).2
    log := .stored ((StorageEngine.store key v).run a.storage).2 mark :: a.log } = _
  rw [StorageEngine.run_store_truthful]
  rfl

/-- A number that is stored is what the medium holds. -/
theorem healthy_afterWrite {mark : Mark} {key : String} {n bound : Nat} (hn : n < bound)
    (fallback : Nat) (a : Auth β) :
    (afterWrite mark key (utf8 (toString n)) a).storage.healthy.readDecimal key bound fallback =
      n := by
  show (StorageEngine.afterStore key _ a.storage).healthy.readDecimal key bound fallback = n
  rw [StorageEngine.healthy_afterStore]
  exact readDecimal_saved (StorageEngine.saved_store key _ a.storage.healthy) hn fallback

/-- The moves that keep the counter that the medium holds, and the log. -/
def CounterKept : Prog.Frame (Auth β) where
  rel a b := b.storage.healthy.signCounter = a.storage.healthy.signCounter ∧
    a.log.length ≤ b.log.length
  refl _ := ⟨rfl, le_rfl⟩
  trans h₁ h₂ := ⟨h₂.1.trans h₁.1, h₁.2.trans h₂.2⟩

theorem counterKept_of_unwritten {α : Type} {m : Ctap β α} (h : Keeps Unwritten m) :
    Keeps CounterKept m :=
  h.mono fun a b hsame => by
    obtain ⟨hstorage, hlog⟩ := Prod.ext_iff.mp (show (b.storage, b.log) = (a.storage, a.log)
      from hsame)
    exact ⟨congrArg (fun e : StorageEngine β => e.healthy.signCounter) hstorage,
      (congrArg List.length hlog).ge⟩

theorem counterKept_signAssertion (algorithm : Int) (privateKey data : Bytes) :
    Keeps CounterKept (signAssertion build algorithm privateKey data : Ctap β Bytes) :=
  counterKept_of_unwritten (unwritten_of_quiet (quiet_signAssertion build _ _ _))

/-- Something is written, and the medium holds the successor of the counter that was read. -/
def Counts (a b : Auth β) : Prop :=
  b.storage.healthy.signCounter = a.storage.signCounter + 1 ∧ a.log.length < b.log.length

theorem Counts.of_same {a b c : Auth β} (hstorage : b.storage = a.storage) (hlog : b.log = a.log)
    (h : Counts b c) : Counts a c := by
  unfold Counts at h ⊢
  rwa [hstorage, hlog] at h

theorem counted_signCounted (credential : Credential) (rpIdHash clientDataHash : Bytes)
    (flags : UInt8) {a : Auth β} (hroom : a.storage.signCounter + 1 < 2 ^ 32) :
    Counts a ((signCounted build credential rpIdHash flags clientDataHash).run a).2 := by
  obtain ⟨b, hcount, hcounter, hlog⟩ : ∃ b, (nextSignCount : Ctap β Nat).run a =
      (.ok (a.storage.signCounter + 1), b) ∧
      b.storage.healthy.signCounter = a.storage.signCounter + 1 ∧
      b.log.length = a.log.length + 1 := by
    refine ⟨afterWrite .ordinary _ _ a, ?_, healthy_afterWrite hroom 0 a, rfl⟩
    rw [nextSignCount, Prog.run_read_bind]
    exact (Prog.run_ensure_bind (s := a) (decide_eq_true hroom)).trans
      (Prog.run_bind_of_ok (run_persist_write .ordinary _ _ a))
  have hrest : Keeps CounterKept (do
      persist .ordinary (StorageEngine.updateSignCount build.codec credential.credentialId
        (a.storage.signCounter + 1))
      let authData := authDataHeader rpIdHash flags (a.storage.signCounter + 1)
      let signature ← signAssertion build credential.algorithm credential.privateKey
        (authData ++ clientDataHash)
      pure (⟨authData, signature⟩ : Assertion) : Ctap β Assertion) :=
    Keeps.bind (fun b => ⟨readDecimal_congr (StorageEngine.value_healthy_updateSignCount _ _ _ _
      systemKey_counter) _ _, Nat.le_succ _⟩) fun _ =>
      (counterKept_signAssertion build _ _ _).bind fun _ => .pure _
  obtain ⟨hkept, hgrows⟩ := hrest b
  rw [signCounted, Prog.run_bind_of_ok hcount]
  exact ⟨hkept.trans hcounter, by omega⟩

/-- So does what follows it. -/
theorem counted_bind {α : Type} {credential : Credential} {rpIdHash clientDataHash : Bytes}
    {flags : UInt8} {k : Assertion → Ctap β α} (hk : ∀ assertion, Keeps CounterKept (k assertion))
    {a : Auth β} (hroom : a.storage.signCounter + 1 < 2 ^ 32) :
    Counts a
      ((signCounted build credential rpIdHash flags clientDataHash >>= k).run a).2 := by
  have hcounted := counted_signCounted build credential rpIdHash clientDataHash flags hroom
  cases hrun : (signCounted build credential rpIdHash flags clientDataHash).run a with
  | mk result b =>
      rw [hrun] at hcounted
      cases result with
      | error error =>
          rw [Prog.run_bind_of_error hrun]
          exact hcounted
      | ok assertion =>
          rw [Prog.run_bind_of_ok hrun]
          obtain ⟨hkept, hgrows⟩ := hk assertion b
          exact ⟨hkept.trans hcounted.1, hcounted.2.trans_le hgrows⟩

theorem counted_getAssertion {request : GetAssertionRequest} {verified : Bool}
    {credential : Credential} {a : Auth β} (hadmitted : Admitted a request verified)
    (hselect : selectCredential a request (a.credProtectUvSatisfied verified) = .ok credential)
    (hroom : a.storage.signCounter + 1 < 2 ^ 32) :
    Counts a ((getAssertion build request).run a).2 := by
  obtain ⟨b, hcore, hrun⟩ := run_getAssertion_admitted build hadmitted
  have hstorage : b.storage = a.storage := storage_of_core hcore
  have hseen : b.credProtectUvSatisfied verified = a.credProtectUvSatisfied verified := by
    unfold credProtectUvSatisfied
    rw [hstorage]
  have hselect' : selectCredential b request (b.credProtectUvSatisfied verified) =
      .ok credential := by
    rw [hseen, selectCredential_congr hcore]
    exact hselect
  rw [hrun, assertSelected, Prog.run_read_bind, Prog.run_bind_of_ok (Prod.ext hselect' rfl),
    Prog.run_read_bind]
  refine Counts.of_same hstorage (congrArg Core.log hcore)
    (counted_bind build (fun assertion => ?_) (hstorage ▸ hroom))
  exact (counterKept_of_unwritten (unwritten_of_quiet (quiet_firstExtensions _ _ _))).bind
    fun _ => (counterKept_of_unwritten (unwritten_openEnumeration _ _ _ _)).bind fun _ => .pure _

theorem counted_handleGetNextAssertion {state : GetNextAssertionState} {credentialId : Bytes}
    {credential : Credential} {a : Auth β} (hstate : a.getNextAssertionState = some state)
    (hmatch : (findMatchingCredentials a state.rpId state.allowList
      state.uvSatisfied)[state.currentIndex + 1]? = some credentialId)
    (hload : a.storage.getCredential credentialId a.crypto = .ok (some credential))
    (hchain : a.ChainReady state credential) (hroom : a.storage.signCounter + 1 < 2 ^ 32) :
    Counts a ((handleGetNextAssertion build).run a).2 := by
  let a₀ : Auth β := { a with getNextAssertionState := none }
  have htake : takeNextState.run a = (.ok state, a₀) := by
    rw [takeNextState, Prog.run_act_bind, hstate]
    rfl
  have hnext : (nextMatch state (findMatchingCredentials a₀ state.rpId state.allowList
      state.uvSatisfied)).run a₀ = (.ok credentialId, a₀) := by
    have hmatch₀ : (findMatchingCredentials a₀ state.rpId state.allowList
      state.uvSatisfied)[state.currentIndex + 1]? = some credentialId := hmatch
    rw [nextMatch, hmatch₀]
    rfl
  have hfound : (loadCredential credentialId).run a₀ = (.ok credential, a₀) := by
    have hload₀ : a₀.storage.getCredential credentialId a₀.crypto = .ok (some credential) := hload
    rw [loadCredential, Prog.run_check, hload₀]
  have hready : a₀.ChainReady state credential := hchain
  obtain ⟨chained, b, hchained⟩ := run_chainedHmacSecret hready
  have hcore : b.core = a₀.core := core_of_quiet (quiet_chainedHmacSecret _ _) hchained
  have hstorage : b.storage = a.storage := congrArg Core.storage hcore
  have hlog : b.log = a.log := congrArg Core.log hcore
  rw [handleGetNextAssertion, Prog.run_bind_of_ok htake, Prog.run_read_bind,
    Prog.run_bind_of_ok hnext, Prog.run_bind_of_ok hfound, Prog.run_bind_of_ok hchained,
    Prog.run_bind_of_ok (run_when_endHmacSession _ b), Prog.run_update_bind,
    buildGetAssertionResponse, Prog.run_read_bind]
  refine Counts.of_same ?_ ?_ (counted_bind build (fun _ => .pure _) ?_)
  · exact hstorage
  · exact hlog
  · show b.storage.signCounter + 1 < 2 ^ 32
    rwa [hstorage]

/-! ## One command -/

omit [TruthfulBackend β] in
/-- A command of assertions that does not reach the counter, or finds it full, writes nothing. -/
theorem unwritten_step {a : Auth β} {cmd : UInt8} {data : Bytes}
    (hcmd : Ctap2Command.fromU8 cmd = .getAssertion ∨ Ctap2Command.fromU8 cmd = .getNextAssertion)
    (h : ReachesCount build a cmd data → 2 ^ 32 ≤ a.storage.signCounter + 1) :
    Unwritten.rel a (a.step build (.command cmd data)) := by
  show Unwritten.rel a ((processCommand build cmd data).run a).2
  rcases hcmd with hcmd | hcmd
  · rw [run_getAssertion_command build data a hcmd]
    have hkeeps : KeepsAt Unwritten (handleGetAssertion build data)
        { a with hmacSecretSession := none } :=
      .check_bind fun request hdecode => unwritten_getAssertion build
        fun verified credential hadmitted hselect =>
          h (.first hcmd hdecode (admitted_session.mp hadmitted)
            (selectCredential_session.symm.trans hselect))
    exact hkeeps
  · rw [run_nextAssertion build data a hcmd, Prog.run_map]
    exact unwritten_handleGetNextAssertion build fun state credentialId credential hstate hmatch
      hload hchain => h (.next hcmd hstate hmatch hload hchain)

/-- One that reaches it counts. -/
theorem counted_step {a : Auth β} {cmd : UInt8} {data : Bytes}
    (h : ReachesCount build a cmd data) (hroom : a.storage.signCounter + 1 < 2 ^ 32) :
    Counts a (a.step build (.command cmd data)) := by
  cases h with
  | @first request verified credential hcmd hdecode hadmitted hselect =>
      have hrun : (handleGetAssertion build data).run { a with hmacSecretSession := none } =
          (getAssertion build request).run { a with hmacSecretSession := none } :=
        Prog.run_bind_of_ok (Prod.ext hdecode rfl)
      show Counts a ((processCommand build cmd data).run a).2
      rw [run_getAssertion_command build data a hcmd, hrun]
      exact counted_getAssertion build (a := { a with hmacSecretSession := none })
        (admitted_session.mpr hadmitted) (selectCredential_session.trans hselect) hroom
  | next hcmd hstate hmatch hload hchain =>
      show Counts a ((processCommand build cmd data).run a).2
      rw [run_nextAssertion build data a hcmd, Prog.run_map]
      exact counted_handleGetNextAssertion build hstate hmatch hload hchain hroom

end Counter

end Auth

end OpenKey
