import OpenKey.Ctap2.Runs
import OpenKey.Ctap2.Within
import OpenKey.Storage.EngineRuns

/-!
# credProtect

A credential of level 3 is only used after user verification, and one of level 2 only after user
verification or when its id was named. The gate is `is_cred_protect_allowed`; it is asked with a
value that also depends on the setting alwaysUv, and GetNextAssertion asks it with the value of
the GetAssertion that opened the enumeration.

The invariant of runs therefore says three things: credentials are filed under their ids, alwaysUv
is only on while a PIN is set, so that GetAssertion then insists on a token, and the state of
GetNextAssertion carries the flag UV if its gate is open.
-/

namespace OpenKey

open Prog (Keeps KeepsOnFail)
open Std

set_option autoImplicit false

/-! ## The gate -/

theorem isCredProtectAllowed_level3 {c : Credential} {uv named : Bool}
    (h : isCredProtectAllowed c uv named = true) (hlevel : c.credProtect = some 3) : uv = true := by
  unfold isCredProtectAllowed at h
  rw [hlevel] at h
  simpa [credProtectUvRequired] using h

theorem isCredProtectAllowed_level2 {c : Credential} {uv named : Bool}
    (h : isCredProtectAllowed c uv named = true) (hlevel : c.credProtect = some 2) :
    uv = true ∨ named = true := by
  unfold isCredProtectAllowed at h
  rw [hlevel] at h
  simpa [credProtectUvRequired, credProtectAllowlistRequired] using h

namespace StorageEngine

variable {β : Type} [StorageBackend β]

/-- Decrypting the private key changes nothing else. -/
theorem unlock_ok {crypto : CryptoEngine} {s : StoredCredential} {c : Credential}
    (h : unlock crypto s = .ok c) : ∃ key, c = { s.credential with privateKey := key } := by
  unfold unlock at h
  split at h
  · next key _ =>
      cases h
      exact ⟨key, rfl⟩
  · cases h

omit [StorageBackend β] in
theorem getCredential_ok {e : StorageEngine β} {id : Bytes} {crypto : CryptoEngine}
    {c : Credential} (h : e.getCredential id crypto = .ok (some c)) :
    ∃ s, e.credentials[id]? = some s ∧ unlock crypto s = .ok c := by
  unfold getCredential at h
  split at h
  · next s hs =>
      refine ⟨s, hs, ?_⟩
      cases hu : unlock crypto s with
      | error error =>
          rw [hu] at h
          cases h
      | ok c' =>
          rw [hu] at h
          cases h
          rfl
  · cases h

omit [StorageBackend β] in
theorem mem_findByRpId {e : StorageEngine β} {rpId : String} {crypto : CryptoEngine}
    {c : Credential} (h : c ∈ e.findByRpId rpId crypto) :
    ∃ (id : Bytes) (s : StoredCredential), e.credentials[id]? = some s ∧
      unlock crypto s = .ok c := by
  unfold findByRpId findCredentialsByRpHash at h
  obtain ⟨s, hs, hu⟩ := List.mem_filterMap.mp h
  obtain ⟨id, hid⟩ := mem_records (List.mem_filter.mp hs).1
  refine ⟨id, s, hid, ?_⟩
  cases hu' : unlock crypto s with
  | error error =>
      rw [hu'] at hu
      cases hu
  | ok c' =>
      rw [hu'] at hu
      cases hu
      rfl

end StorageEngine

namespace Auth

variable {β : Type} [StorageBackend β] (build : Build)

/-- A stored credential passes the gate; `named` tells how it was found. -/
structure Passed (a : Auth β) (c : Credential) (uvSatisfied named : Bool) : Prop where
  allowed : isCredProtectAllowed c uvSatisfied named = true
  stored : ∃ s, a.storage.credentials[c.credentialId]? = some s ∧
    s.credential.credProtect = c.credProtect

omit [StorageBackend β] in
/-- An unlocked record of a keyed store is found under its id. -/
theorem stored_of_unlock {a : Auth β} (hk : a.storage.Keyed) {id : Bytes} {s : StoredCredential}
    {c : Credential} (hs : a.storage.credentials[id]? = some s)
    (hu : StorageEngine.unlock a.crypto s = .ok c) :
    c.credentialId = id ∧ ∃ s, a.storage.credentials[c.credentialId]? = some s ∧
      s.credential.credProtect = c.credProtect := by
  obtain ⟨key, rfl⟩ := StorageEngine.unlock_ok hu
  have hid : s.credential.credentialId = id := hk id s hs
  exact ⟨hid, s, by rw [← hs, ← hid], rfl⟩

omit [StorageBackend β] in
theorem selectNamed_ok {a : Auth β} (hk : a.storage.Keyed) {rpIdHash : Bytes} {uvSatisfied : Bool}
    {descriptors : List CredentialDescriptor} {c : Credential}
    (h : selectNamed a rpIdHash uvSatisfied descriptors = .ok (some c)) :
    (∃ d ∈ descriptors, d.id = c.credentialId) ∧ Passed a c uvSatisfied true := by
  induction descriptors with
  | nil => cases h
  | cons descriptor rest ih =>
      have hlater : selectNamed a rpIdHash uvSatisfied rest = .ok (some c) →
          (∃ d ∈ descriptor :: rest, d.id = c.credentialId) ∧ Passed a c uvSatisfied true := by
        intro hrest
        obtain ⟨⟨d, hd, hid⟩, hpassed⟩ := ih hrest
        exact ⟨⟨d, List.mem_cons_of_mem _ hd, hid⟩, hpassed⟩
      unfold selectNamed at h
      split at h
      · cases h
      · exact hlater h
      · next credential hget =>
          split at h
          · next hallowed =>
              cases h
              obtain ⟨s, hs, hu⟩ := StorageEngine.getCredential_ok hget
              obtain ⟨hid, hstored⟩ := stored_of_unlock hk hs hu
              exact ⟨⟨descriptor, List.mem_cons_self, hid.symm⟩, hallowed.2, hstored⟩
          · exact hlater h

omit [StorageBackend β] in
theorem mem_discoverable {a : Auth β} (hk : a.storage.Keyed) {rpId : String} {uvSatisfied : Bool}
    {c : Credential} (h : c ∈ discoverable a rpId uvSatisfied) : Passed a c uvSatisfied false := by
  obtain ⟨hmem, hallowed⟩ := List.mem_filter.mp h
  obtain ⟨id, s, hs, hu⟩ := StorageEngine.mem_findByRpId hmem
  exact ⟨hallowed, (stored_of_unlock hk hs hu).2⟩

omit [StorageBackend β] in
/-- The credential GetAssertion selects was named, or was found by discovery. -/
theorem selectCredential_ok {a : Auth β} (hk : a.storage.Keyed) {request : GetAssertionRequest}
    {uvSatisfied : Bool} {c : Credential} (h : selectCredential a request uvSatisfied = .ok c) :
    ∃ named, Passed a c uvSatisfied named ∧
      (named = true → ∃ d ∈ request.named, d.id = c.credentialId) := by
  unfold selectCredential at h
  split at h
  · cases h
  · next credential hnamed =>
      cases h
      obtain ⟨hd, hpassed⟩ := selectNamed_ok hk hnamed
      exact ⟨true, hpassed, fun _ => hd⟩
  · split at h
    · cases h
    · next credential rest hfound =>
        cases h
        have hmem : c ∈ discoverable a request.rpId uvSatisfied := by
          rw [hfound]
          exact List.mem_cons_self
        exact ⟨false, mem_discoverable hk hmem, fun hf => by cases hf⟩

omit [StorageBackend β] in
/-- So were the credentials GetNextAssertion goes through. -/
theorem mem_findMatchingCredentials {a : Auth β} (hk : a.storage.Keyed) {rpId : String}
    {allowList : List CredentialDescriptor} {uvSatisfied : Bool} {id : Bytes}
    (h : id ∈ findMatchingCredentials a rpId allowList uvSatisfied) :
    ∃ c named, c.credentialId = id ∧ Passed a c uvSatisfied named ∧
      (named = true → ∃ d ∈ allowList, d.id = id) := by
  unfold findMatchingCredentials at h
  split at h
  · obtain ⟨c, hc, rfl⟩ := List.mem_map.mp h
    exact ⟨c, false, rfl, mem_discoverable hk hc, fun hf => by cases hf⟩
  · obtain ⟨d, hd, hmatch⟩ := List.mem_filterMap.mp h
    unfold matchingId at hmatch
    split at hmatch
    · next credential hget =>
        split at hmatch
        · next hallowed =>
            cases hmatch
            obtain ⟨s, hs, hu⟩ := StorageEngine.getCredential_ok hget
            obtain ⟨hid, hstored⟩ := stored_of_unlock hk hs hu
            exact ⟨credential, true, rfl, ⟨hallowed.2, hstored⟩, fun _ => ⟨d, hd, hid.symm⟩⟩
        · cases hmatch
    · cases hmatch

/-! ## The state of GetNextAssertion -/

section Next

theorem next_of_moves [LawfulBackend β] {K : Set Kind} (hK : Kind.enumerate ∉ K) {a b : Auth β}
    (h : (Moves K).rel a b) : b.getNextAssertionState = a.getNextAssertionState :=
  moves_invariant (P := fun c => c.next = a.getNextAssertionState)
    (fun _ _ hmove heq => (hmove.next hK).trans heq) h rfl

/-- The moves that leave the state of GetNextAssertion alone. -/
def SameNext : Prog.Frame (Auth β) := .constant Auth.getNextAssertionState

omit [StorageBackend β] in
theorem sameNext_of_quiet {α : Type} {m : Ctap β α} (h : Keeps Quiet m) : Keeps SameNext m :=
  h.mono fun _ _ hcore => congrArg Core.next hcore

theorem sameNext_signCounted (credential : Credential) (rpIdHash : Bytes) (flags : UInt8)
    (clientDataHash : Bytes) :
    Keeps SameNext (signCounted build credential rpIdHash flags clientDataHash : Ctap β _) :=
  (within_signCounted (F := Within .any) (commonCalls_any build) _ _ _ _).mono fun _ _ h => h.2.1

omit [StorageBackend β] in
theorem openEnumeration_total (request : GetAssertionRequest) (flags : UInt8) (uvSatisfied : Bool)
    (credential : Credential) (a : Auth β) : ∃ total b,
      (openEnumeration request flags uvSatisfied credential).run a = (.ok total, b) := by
  unfold openEnumeration
  rw [Prog.run_read_bind]
  split
  · exact ⟨_, _, rfl⟩
  · exact ⟨_, _, rfl⟩

/-- A GetAssertion that fails opens no enumeration. -/
theorem sameNext_getAssertion (request : GetAssertionRequest) :
    KeepsOnFail SameNext (getAssertion build request : Ctap β _) := by
  refine .bind (sameNext_of_quiet (quiet_authenticateOperation _ _ _ _ _ _)) fun _ =>
    .bind (.when fun _ => sameNext_of_quiet quiet_checkPresence) fun _ => .bind (.read _) fun _ =>
      .bind (.check _) fun _ => .bind (.read _) fun _ =>
        .bind (sameNext_signCounted build _ _ _ _) fun _ =>
          .bind (sameNext_of_quiet (quiet_firstExtensions _ _ _)) fun _ => ?_
  intro a b error hrun
  obtain ⟨total, c, hopen⟩ := openEnumeration_total _ _ _ _ a
  rw [Prog.run_bind_of_ok hopen] at hrun
  cases hrun

/-- The state of GetNextAssertion, if there is one, satisfies `P`. -/
def NextIs (P : GetNextAssertionState → Prop) (a : Auth β) : Prop :=
  ∀ state, a.getNextAssertionState = some state → P state

omit [StorageBackend β] in
theorem NextIs.of_same {P : GetNextAssertionState → Prop} {a b : Auth β} (h : a.NextIs P)
    (hnext : b.getNextAssertionState = a.getNextAssertionState) : b.NextIs P := fun state hstate =>
  h state (hnext ▸ hstate)

omit [StorageBackend β] in
theorem nextIs_of_sameNext {P : GetNextAssertionState → Prop} {α : Type} {m : Ctap β α}
    (h : Keeps SameNext m) : Keeps (.invariant (NextIs P)) m :=
  h.mono fun _ _ hnext ha => ha.of_same hnext

/-- GetNextAssertion only moves the position of the enumeration. -/
theorem nextIs_handleGetNextAssertion {P : GetNextAssertionState → Prop}
    (hP : ∀ state index, P state → P { state with currentIndex := index }) :
    Keeps (.invariant (NextIs P)) (handleGetNextAssertion build : Ctap β _) := by
  have htake : Keeps (.invariant (NextIs P)) (takeNextState : Ctap β _) :=
    Keeps.bind (.act fun a _ state hstate => by cases hstate) fun _ => .check _
  intro a ha
  refine Prog.KeepsAt.bind (htake a) (fun state b hrun => ?_) ha
  obtain ⟨hstate, rfl⟩ := takeNextState_ok hrun
  refine Keeps.bind (.read _) (fun matching => Keeps.bind ?_ fun _ => (Keeps.check _).bind fun _ =>
    (nextIs_of_sameNext (sameNext_of_quiet (quiet_chainedHmacSecret _ _))).bind fun _ =>
      (Keeps.when fun _ => nextIs_of_sameNext (sameNext_of_quiet quiet_endHmacSession)).bind
        fun _ => Keeps.bind (.update fun c _ state' hstate' => ?_) fun _ =>
          (Keeps.read _).bind fun _ =>
            (nextIs_of_sameNext (sameNext_signCounted build _ _ _ _)).bind fun _ => .pure _) _
  · unfold nextMatch
    split
    · exact .pure _
    · exact (nextIs_of_sameNext (sameNext_of_quiet quiet_endHmacSession)).bind fun _ => .fail _
  · cases hstate'
    exact hP state _ (ha state hstate)

end Next

end Auth

/-! ## Enumerations -/

namespace Exchange

variable {β : Type}

/-- A GetAssertion whose answer announces further assertions. -/
def opens (x : Exchange β) : Bool :=
  decide (x.command = .getAssertion) && x.assertion.any fun r => r.numberOfCredentials.isSome

/-- The GetAssertion an answer belongs to: the command itself, or the last one before it that
announced further assertions. -/
def opening (past : List (Exchange β)) (x : Exchange β) : Option (Exchange β) :=
  if x.command = .getAssertion then some x else (past.filter opens).getLast?

/-- The request of a GetAssertion names a credential. -/
def Names (build : Build) (x : Exchange β) (id : Bytes) : Prop :=
  ∃ request, build.cbor.decodeGetAssertion x.data = .ok request ∧ ∃ d ∈ request.named, d.id = id

theorem getLast?_opens {past : List (Exchange β)} {x : Exchange β} (h : x.opens = true) :
    ((past ++ [x]).filter opens).getLast? = some x := by
  simp [List.filter_append, h]

theorem filter_opens {past : List (Exchange β)} {x : Exchange β} (h : x.opens = false) :
    (past ++ [x]).filter opens = past.filter opens := by
  simp [List.filter_append, h]

end Exchange

/-! ## The invariant -/

/-- alwaysUv stays off while no PIN is set. -/
theorem Move.always {β : Type} [StorageBackend β] [LawfulBackend β] {K : Set Kind} {c c' : Core β}
    (h : Move K c c')
    (halways : c.storage.isAlwaysUv = true → c.storage.isPinSet = true) :
    c'.storage.isAlwaysUv = true → c'.storage.isPinSet = true := by
  intro hon
  obtain heq | ⟨heq, -⟩ | ⟨v, mark, ha, hs⟩ := h.value_eq systemKey_alwaysUv
  · refine h.isPinSet (halways ?_)
    rw [StorageEngine.isAlwaysUv] at hon ⊢
    rwa [← heq]
  · exact absurd heq (by decide)
  · generalize hkey : cfgAlwaysUvKey = key at ha hs
    cases ha with
    | alwaysUv v hset => exact h.isPinSet hset
    | initialPin | newPin => exact absurd hkey (by decide)
    | takeRetry => exact absurd hkey (by decide)
    | counted => exact absurd hkey (by decide)
    | plain key v hmem =>
        subst hkey
        exact absurd hmem (by decide)

namespace Auth

variable {β : Type} [StorageBackend β] [LawfulBackend β] (build : Build)

/-- What the state of GetNextAssertion carries over from the GetAssertion that opened it. -/
structure Carried (past : List (Exchange β)) (state : GetNextAssertionState) : Prop where
  uv : state.uvSatisfied = true → (state.flags &&& flagUv != 0) = true
  opened : ∃ y request, (past.filter Exchange.opens).getLast? = some y ∧
    build.cbor.decodeGetAssertion y.data = .ok request ∧ request.named = state.allowList

/-- The invariant of runs, after the exchanges `past`. -/
structure Guarded (past : List (Exchange β)) (a : Auth β) : Prop where
  keyed : a.storage.Keyed
  synced : a.storage.Synced
  always : a.storage.isAlwaysUv = true → a.storage.isPinSet = true
  next : a.NextIs (Carried build past)

theorem guarded_blank {a : Auth β} (h : a.Blank) : Guarded build [] a where
  keyed := h.storage.keyed
  synced := h.storage.synced
  always halways := by
    rw [StorageEngine.isAlwaysUv, h.storage.value] at halways
    cases halways
  next state hstate := by
    rw [h.opened] at hstate
    cases hstate

/-! ### One input -/

/-- A sequence of moves keeps the invariant, as far as it is about the storage. -/
theorem Guarded.of_moves {past past' : List (Exchange β)} {K : Set Kind} {a b : Auth β}
    (h : Guarded build past a) (hmoves : (Moves K).rel a b)
      (hnext : b.NextIs (Carried build past')) :
    Guarded build past' b where
  keyed := moves_invariant (P := fun c => c.storage.Keyed) (fun _ _ hmove => hmove.keyed) hmoves
    h.keyed
  synced := moves_invariant (P := fun c => c.storage.Synced) (fun _ _ hmove => hmove.synced) hmoves
    h.synced
  always := moves_invariant
    (P := fun c => c.storage.isAlwaysUv = true → c.storage.isPinSet = true)
    (fun _ _ hmove => hmove.always) hmoves h.always
  next := hnext

theorem Guarded.powerCycle {past : List (Exchange β)} {a : Auth β} (h : Guarded build past a) :
    Guarded build past (a.powerCycle build) where
  keyed := keyed_reopen build a.storage
  synced := synced_reopen build a.storage
  always := by
    intro halways
    change (reopen build a.storage).isAlwaysUv = true at halways
    show (reopen build a.storage).isPinSet = true
    unfold StorageEngine.isAlwaysUv at halways
    unfold StorageEngine.isPinSet
    cases hb : a.storage.backend with
    | none =>
        rw [value_reopen_none build hb] at halways
        cases halways
    | some b =>
        have hsome : a.storage.backend.isSome = true := by rw [hb]; rfl
        rw [value_reopen build hsome h.synced systemKey_alwaysUv] at halways
        rw [value_reopen build hsome h.synced systemKey_pin]
        exact h.always halways
  next _ hstate := by cases hstate

theorem guarded_of_cleared {past : List (Exchange β)} {a b : Auth β} (h : Cleared a b) :
    Guarded build past b where
  keyed id s hs := by
    rw [h.credentials] at hs
    simp at hs
  synced := h.synced
  always halways := by
    rw [StorageEngine.isAlwaysUv, h.value _ systemKey_alwaysUv] at halways
    cases halways
  next state hstate := by
    rw [h.next] at hstate
    cases hstate

omit [LawfulBackend β] in
/-- With alwaysUv on, GetAssertion insists on a token. -/
theorem Asserted.verified_of_satisfied {request : GetAssertionRequest} {verified : Bool}
    {credential : Credential} {a b : Auth β} {r : GetAssertionResponse}
    (h : Asserted build request verified credential a r b)
    (halways : a.storage.isAlwaysUv = true → a.storage.isPinSet = true)
    (hsat : a.credProtectUvSatisfied verified = true) : verified = true := by
  unfold credProtectUvSatisfied at hsat
  rcases Bool.or_eq_true _ _ ▸ hsat with hv | hon
  · exact hv
  · exact h.pin (h.always hon) (halways hon)

/-- The state GetAssertion leaves behind carries what it should. -/
theorem Asserted.nextIs {past : List (Exchange β)} {request : GetAssertionRequest} {verified : Bool}
    {credential : Credential} {a : Auth β} {cmd : UInt8} {data : Bytes} {r : GetAssertionResponse}
    (h : Guarded build past a) (hcmd : Ctap2Command.fromU8 cmd = .getAssertion)
    (hx : (a.exchange build cmd data).assertion = some r)
    (hdecode : build.cbor.decodeGetAssertion data = .ok request)
    (hasserted : Asserted build request verified credential a r
      (a.step build (.command cmd data))) :
    (a.step build (.command cmd data)).NextIs
      (Carried build (past ++ [a.exchange build cmd data])) := by
  have hopens : (a.exchange build cmd data).opens = r.numberOfCredentials.isSome := by
    unfold Exchange.opens
    rw [hx, show (a.exchange build cmd data).command = .getAssertion from hcmd]
    simp
  obtain ⟨a₁, a₂, assertion, hcore, hsigned, -, hb⟩ := hasserted.signed
  obtain ⟨hmany, index, hb⟩ | ⟨hfew, hb⟩ := hb
  · intro state hstate
    have hnext : (a.step build (.command cmd data)).getNextAssertionState = some
        (leftState request verified (a.credProtectUvSatisfied verified) index) :=
      congrArg Core.next hb
    rw [hnext] at hstate
    cases hstate
    refine ⟨fun hsat => ?_, a.exchange build cmd data, request, ?_, hdecode, rfl⟩
    · show (assertionFlags request.options.up verified &&& flagUv != 0) = true
      rw [uvFlag_assertionFlags]
      exact hasserted.verified_of_satisfied build h.always hsat
    · exact Exchange.getLast?_opens (hopens.trans hmany)
  · have hnext : (a.step build (.command cmd data)).getNextAssertionState =
        a.getNextAssertionState := by
      have h₂ := congrArg Core.next hb
      have h₁ : a₂.getNextAssertionState = a₁.getNextAssertionState :=
        (sameNext_signCounted build _ _ _ _).of_run hsigned
      exact (h₂.trans h₁).trans (congrArg Core.next hcore)
    intro state hstate
    obtain ⟨huv, y, request', hlast, hrest⟩ := h.next state (hnext ▸ hstate)
    refine ⟨huv, y, request', ?_, hrest⟩
    rw [Exchange.filter_opens (hopens.trans (by rw [hfew]; rfl))]
    exact hlast

omit [StorageBackend β] [LawfulBackend β] in
/-- An exchange that opens no enumeration carries the invariant over the longer past. -/
theorem NextIs.snoc {past : List (Exchange β)} {x : Exchange β} {a : Auth β}
    (h : a.NextIs (Carried build past)) (hopens : x.opens = false) :
    a.NextIs (Carried build (past ++ [x])) := by
  intro state hstate
  obtain ⟨huv, y, request, hlast, hrest⟩ := h state hstate
  refine ⟨huv, y, request, ?_, hrest⟩
  rw [Exchange.filter_opens hopens]
  exact hlast

theorem Guarded.command {past : List (Exchange β)} {a : Auth β} (h : Guarded build past a)
    (cmd : UInt8) (data : Bytes) :
    Guarded build (past ++ [a.exchange build cmd data]) (a.step build (.command cmd data)) := by
  have hcommand : (a.exchange build cmd data).command = Ctap2Command.fromU8 cmd := rfl
  have hother : Ctap2Command.fromU8 cmd ≠ .getAssertion →
      (a.exchange build cmd data).opens = false := by
    intro hne
    unfold Exchange.opens
    rw [hcommand]
    simp [hne]
  by_cases hreset : Ctap2Command.fromU8 cmd = .reset
  · obtain ⟨-, hcore⟩ | ⟨-, hcleared⟩ := reset_step build data hreset a
    · refine h.of_moves build (K := ∅) (moves_of_core hcore) ?_
      have hnext := h.next.of_same (congrArg Core.next hcore)
      exact hnext.snoc build (hother (by rw [hreset]; decide))
    · exact guarded_of_cleared build hcleared
  refine h.of_moves build (moves_step build data hreset a) ?_
  by_cases hga : Ctap2Command.fromU8 cmd = .getAssertion
  · obtain ⟨r, hx⟩ | ⟨error, hfail⟩ := assertion_or_error build a data (.inl hga)
    · obtain ⟨-, request, verified, credential, hdecode, hasserted⟩ | ⟨hgna, -⟩ :=
        assertion_cases build hx
      · exact hasserted.nextIs build h hga hx hdecode
      · rw [hga] at hgna
        cases hgna
    · have hopens : (a.exchange build cmd data).opens = false := by
        unfold Exchange.opens Exchange.assertion
        rw [hfail, hcommand, hga]
        rfl
      refine NextIs.snoc build (h.next.of_same ?_) hopens
      obtain ⟨a', hcore, hrun⟩ := run_processCommand build cmd data a
      rw [hga] at hrun
      have hkeeps : KeepsOnFail SameNext (dispatch build .getAssertion data : Ctap β _) :=
        (KeepsOnFail.bind (.check _) fun request => sameNext_getAssertion build request).map
      have hsame := hkeeps a' _ error (hrun.symm.trans (Prod.ext hfail rfl))
      exact Eq.trans hsame (congrArg Core.next hcore)
  · by_cases hgna : Ctap2Command.fromU8 cmd = .getNextAssertion
    · have hkeeps : Keeps (.invariant (NextIs (Carried build past)))
          (processCommand build cmd data : Ctap β _) := by
        unfold processCommand
        simp only [hgna, ne_eq, not_true, decide_false]
        refine (Keeps.when fun h => by cases h).bind fun _ => ?_
        exact (nextIs_handleGetNextAssertion build fun state index hs => ⟨hs.uv, hs.opened⟩).map
      exact NextIs.snoc build (hkeeps a h.next) (hother hga)
    · have hkinds : Kind.enumerate ∉ commandKinds (.fromU8 cmd) := by
        generalize Ctap2Command.fromU8 cmd = command at hga hgna
        cases command with
        | getAssertion => exact absurd rfl hga
        | getNextAssertion => exact absurd rfl hgna
        | _ => simp [commandKinds, makeCredentialKinds, clientPinKinds, configKinds]
      exact NextIs.snoc build
        (h.next.of_same (next_of_moves hkinds (moves_step build data hreset a)))
        (hother hga)

/-! ### One answer -/

/-- A stored record of the credential that was used, before or after the command. -/
theorem credProtect_of_signed {credential : Credential} {rpIdHash clientDataHash : Bytes}
    {flags : UInt8} {a b : Auth β} {r : Assertion} {s₀ s : StoredCredential}
    (h : (signCounted build credential rpIdHash flags clientDataHash).run a = (.ok r, b))
    (hs₀ : a.storage.credentials[credential.credentialId]? = some s₀)
    (hs : a.storage.credentials[credential.credentialId]? = some s ∨
      b.storage.credentials[credential.credentialId]? = some s) :
    s.credential.credProtect = s₀.credential.credProtect := by
  rcases hs with hs | hs
  · rw [hs₀] at hs
    cases hs
    rfl
  · obtain ⟨-, -, e, e', hsaved, hupdate, hcore⟩ := signCounted_ok build h
    obtain ⟨s₁, hs₁, hcreds⟩ := StorageEngine.updateSignCount_ok build.codec hupdate
    have hstorage : b.storage = e' := congrArg Core.storage hcore
    rw [hsaved.credentials, hs₀] at hs₁
    cases hs₁
    rw [hstorage, hcreds, ExtTreeMap.getElem?_insert_self] at hs
    cases hs
    rfl

/-- The two rules of credProtect, for a stored record. -/
def Protects (s : StoredCredential) (uv named : Prop) : Prop :=
  (s.credential.credProtect = some 3 → uv) ∧ (s.credential.credProtect = some 2 → uv ∨ named)

omit [StorageBackend β] [LawfulBackend β] in
theorem Passed.protects {a : Auth β} {c : Credential} {uvSatisfied named : Bool}
    {s : StoredCredential}
    {uv named' : Prop} (h : Passed a c uvSatisfied named)
    (hs : s.credential.credProtect = c.credProtect) (huv : uvSatisfied = true → uv)
    (hnamed : named = true → named') : Protects s uv named' := by
  refine ⟨fun hlevel => huv ?_, fun hlevel => ?_⟩
  · exact isCredProtectAllowed_level3 h.allowed (hs ▸ hlevel)
  · exact (isCredProtectAllowed_level2 h.allowed (hs ▸ hlevel)).imp huv hnamed

theorem Guarded.protects {past : List (Exchange β)} {a : Auth β} (h : Guarded build past a)
    {cmd : UInt8} {data : Bytes} {r : GetAssertionResponse}
    (hx : (a.exchange build cmd data).assertion = some r) :
    ∃ d, r.credential = some d ∧ ∀ s : StoredCredential,
      (a.storage.credentials[d.id]? = some s ∨
        (a.step build (.command cmd data)).storage.credentials[d.id]? = some s) →
      Protects s (uvFlag r.authData = true)
        (∃ y, (a.exchange build cmd data).opening past = some y ∧ y.Names build d.id) := by
  have hcommand : (a.exchange build cmd data).command = Ctap2Command.fromU8 cmd := rfl
  obtain ⟨hga, request, verified, credential, hdecode, hasserted⟩ |
    ⟨hgna, state, credential, hnext⟩ := assertion_cases build hx
  · refine ⟨_, hasserted.descriptor, fun s hs => ?_⟩
    obtain ⟨named, hpassed, hnamed⟩ := selectCredential_ok h.keyed hasserted.selected
    obtain ⟨s₀, hs₀, hlevel⟩ := hpassed.stored
    obtain ⟨a₁, a₂, assertion, hcore, hsigned, hdata, hb⟩ := hasserted.signed
    have hstorage₁ : a₁.storage = a.storage := congrArg Core.storage hcore
    have hstorage : (a.step build (.command cmd data)).storage = a₂.storage := by
      obtain ⟨-, index, hb⟩ | ⟨-, hb⟩ := hb
      · exact congrArg Core.storage hb
      · exact congrArg Core.storage hb
    rw [hstorage, ← hstorage₁] at hs
    rw [← hstorage₁] at hs₀
    have hsame := credProtect_of_signed build hsigned hs₀ hs
    refine hpassed.protects (hsame.trans hlevel) (fun hsat => ?_) fun hn => ?_
    · rw [hdata, uvFlag_signed build (length_hashRpId _ _) hsigned, uvFlag_assertionFlags]
      exact hasserted.verified_of_satisfied build h.always hsat
    · refine ⟨a.exchange build cmd data, ?_, request, hdecode, hnamed hn⟩
      rw [Exchange.opening, hcommand, if_pos hga]
  · refine ⟨_, hnext.descriptor, fun s hs => ?_⟩
    obtain ⟨id, hid, hload⟩ := hnext.found
    obtain ⟨c, named, rfl, hpassed, hnamed⟩ :=
      mem_findMatchingCredentials h.keyed (List.mem_of_getElem? hid)
    obtain ⟨s₀, hs₀, hlevel⟩ := hpassed.stored
    obtain ⟨s₁, hs₁, hunlock⟩ := StorageEngine.getCredential_ok hload
    obtain ⟨hcid, -⟩ := stored_of_unlock h.keyed hs₁ hunlock
    obtain ⟨a₁, assertion, hcore, hsigned, hdata⟩ := hnext.signed
    have hstorage₁ : a₁.storage = a.storage := congrArg Core.storage hcore
    rw [← hstorage₁] at hs
    rw [← hstorage₁, ← hcid] at hs₀
    have hsame := credProtect_of_signed build hsigned hs₀ hs
    obtain ⟨huv, y, request, hlast, hdecode, hallow⟩ := h.next state hnext.opened
    refine hpassed.protects (hsame.trans hlevel) (fun hsat => ?_) fun hn => ?_
    · rw [hdata, uvFlag_signed build (CryptoEngine.length_sha256 _ _) hsigned]
      exact huv hsat
    · refine ⟨y, ?_, request, hdecode, ?_⟩
      · rw [Exchange.opening, hcommand, if_neg (by rw [hgna]; decide)]
        exact hlast
      · rw [hallow]
        obtain ⟨d, hd, hdid⟩ := hnamed hn
        exact ⟨d, hd, hdid.trans hcid.symm⟩

/-! ### Runs -/

theorem Guarded.trace {inputs : List Input} {seen : List (Exchange β)} {a : Auth β}
    (h : Guarded build seen a) {past future : List (Exchange β)} {x : Exchange β}
    (hx : a.trace build inputs = past ++ x :: future) :
    ∃ b cmd data, Guarded build (seen ++ past) b ∧ x = b.exchange build cmd data :=
  trace_invariant build (C := fun _ => True) (fun _ _ cmd data h _ => h.command build cmd data)
    (fun _ _ h => h.powerCycle build) h hx fun _ _ => trivial

theorem guarded_run {a : Auth β} (hblank : a.Blank) (inputs : List Input) :
    ∃ past, Guarded build past (a.run build inputs) := by
  refine run_invariant build (P := fun b => ∃ past, Guarded build past b) ?_
    ⟨[], guarded_blank build hblank⟩
  rintro b ⟨past, hb⟩ input -
  cases input with
  | powerCycle => exact ⟨past, hb.powerCycle build⟩
  | command cmd data => exact ⟨_, hb.command build cmd data⟩

/-- In every run from an empty store, an assertion with a credential of level 3 has the flag UV,
and one with a credential of level 2 has it or was named in the GetAssertion it belongs to. -/
theorem cred_protect_never_bypassed (a : Auth β) (hblank : a.Blank) (inputs : List Input)
    (past future : List (Exchange β)) (x : Exchange β) (r : GetAssertionResponse)
    (hrun : a.trace build inputs = past ++ x :: future) (hx : x.assertion = some r) :
    ∃ d, r.credential = some d ∧ ∀ s : StoredCredential,
      (x.before.storage.credentials[d.id]? = some s ∨
        x.after.storage.credentials[d.id]? = some s) →
      (s.credential.credProtect = some 3 → uvFlag r.authData = true) ∧
        (s.credential.credProtect = some 2 → uvFlag r.authData = true ∨
          ∃ y, x.opening past = some y ∧ y.Names build d.id) := by
  obtain ⟨b, cmd, data, hguarded, rfl⟩ := (guarded_blank build hblank).trace build hrun
  exact hguarded.protects build hx

set_option maxRecDepth 100000 in
/-- The sample device asserts a credential of level 2 that the request names. -/
theorem cred_protect_never_bypassed_sample :
    ∃ r, ((memoryDevice.run sampleBuild (sampleSetup 2)).exchange sampleBuild 0x02
        (getAssertionData [allowListEntry [firstId]])).assertion = some r ∧
      ∃ d, r.credential = some d ∧ ∀ s : StoredCredential,
        (memoryDevice.run sampleBuild (sampleSetup 2)).storage.credentials[d.id]? = some s →
        s.credential.credProtect = some 2 → uvFlag r.authData = true ∨
          ∃ y, ((memoryDevice.run sampleBuild (sampleSetup 2)).exchange sampleBuild 0x02
              (getAssertionData [allowListEntry [firstId]])).opening
              (memoryDevice.trace sampleBuild (sampleSetup 2)) = some y ∧
            y.Names sampleBuild d.id := by
  have hsome : ((memoryDevice.run sampleBuild (sampleSetup 2)).exchange sampleBuild 0x02
      (getAssertionData [allowListEntry [firstId]])).assertion.isSome = true := by decide +kernel
  obtain ⟨r, hr⟩ := Option.isSome_iff_exists.mp hsome
  obtain ⟨d, hd, hall⟩ := cred_protect_never_bypassed sampleBuild memoryDevice blank_memoryDevice
    (sampleSetup 2 ++ [getAssertionCommand [allowListEntry [firstId]]]) _ [] _ r
    (trace_append sampleBuild memoryDevice (sampleSetup 2) _) hr
  generalize memoryDevice.run sampleBuild (sampleSetup 2) = a at *
  exact ⟨r, hr, d, hd, fun s hs => (hall s (.inl hs)).2⟩

end Auth

end OpenKey
