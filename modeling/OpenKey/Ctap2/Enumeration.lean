import OpenKey.Ctap2.CredProtect
import OpenKey.Storage.Records
import Mathlib.Data.List.Perm.Subperm

/-!
# Enumerations

A GetAssertion with more than one match leaves a state from which GetNextAssertion goes on. Three
commands change that state: GetAssertion replaces it when it opens an enumeration of its own,
GetNextAssertion moves it forward or takes it away, and a confirmed Reset drops it. Every other
command, and a GetAssertion that fails or has one match, leaves it where it is, so an enumeration
may be continued long after another command. The hmac-secret session has no such gap: every
command but GetNextAssertion ends it.

An enumeration that has no match left (`Spent`) is not continued, and only a MakeCredential can
give it one.

All of this holds over any backend, whatever fails.
-/

namespace OpenKey

open Prog (Keeps KeepsOnFail)

set_option autoImplicit false

namespace Exchange

variable {β : Type}

/-- The past ends in a GetAssertion that announced further assertions, followed by nothing but
GetNextAssertion. -/
def Uninterrupted (past : List (Exchange β)) : Prop :=
  ∃ before g between, past = before ++ g :: between ∧ g.opens = true ∧
    ∀ y ∈ between, y.command = .getNextAssertion

theorem command_of_opens {x : Exchange β} (h : x.opens = true) : x.command = .getAssertion := by
  unfold opens at h
  exact of_decide_eq_true ((Bool.and_eq_true _ _ ▸ h).1)

theorem opens_eq_false {x : Exchange β} (h : x.command ≠ .getAssertion) : x.opens = false := by
  cases hopens : x.opens with
  | false => rfl
  | true => exact absurd (command_of_opens hopens) h

theorem uninterrupted_opens {past : List (Exchange β)} {x : Exchange β} (h : x.opens = true) :
    Uninterrupted (past ++ [x]) :=
  ⟨past, x, [], rfl, h, by simp⟩

theorem Uninterrupted.snoc {past : List (Exchange β)} {x : Exchange β} (h : Uninterrupted past)
    (hx : x.command = .getNextAssertion) : Uninterrupted (past ++ [x]) := by
  obtain ⟨before, g, between, rfl, hg, hall⟩ := h
  refine ⟨before, g, between ++ [x], by simp, hg, fun y hy => ?_⟩
  rcases List.mem_append.mp hy with hy | hy
  · exact hall y hy
  · rw [List.mem_singleton.mp hy]
    exact hx

/-- The GetAssertion it ends in is the last one that opened an enumeration. -/
theorem Uninterrupted.last {past : List (Exchange β)} {g : Exchange β} (h : Uninterrupted past)
    (hlast : (past.filter opens).getLast? = some g) :
    ∃ before between, past = before ++ g :: between ∧ g.opens = true ∧
      ∀ y ∈ between, y.command = .getNextAssertion := by
  obtain ⟨before, g', between, rfl, hg, hall⟩ := h
  have hnone : between.filter opens = [] := by
    rw [List.filter_eq_nil_iff]
    intro y hy
    rw [opens_eq_false (by rw [hall y hy]; decide)]
    exact Bool.false_ne_true
  rw [List.filter_append, List.filter_cons_of_pos hg, hnone, List.getLast?_append] at hlast
  obtain rfl : g' = g := by simpa using hlast
  exact ⟨before, between, rfl, hg, hall⟩

/-- Another command, if it is the last one, is an interruption. -/
theorem not_uninterrupted {past : List (Exchange β)} {x : Exchange β}
    (hcommand : x.command ≠ .getNextAssertion) (hopens : x.opens = false) :
    ¬Uninterrupted (past ++ [x]) := by
  rintro ⟨before, g, between, heq, hg, hall⟩
  have hlast : (g :: between).getLast? = some x := by
    have h := congrArg List.getLast? heq
    rw [List.getLast?_append_of_ne_nil _ (List.cons_ne_nil _ _),
      List.getLast?_append_of_ne_nil _ (List.cons_ne_nil _ _)] at h
    exact h.symm
  rcases List.mem_cons.mp (List.mem_of_getLast? hlast) with rfl | hx
  · rw [hopens] at hg
    cases hg
  · exact hcommand (hall x hx)

end Exchange

namespace Auth

variable {β : Type} [StorageBackend β] (build : Build)

/-! ## One command -/

/-- Reset drops the enumeration if the user confirms it. -/
theorem next_reset {cmd : UInt8} (data : Bytes) (hcmd : Ctap2Command.fromU8 cmd = .reset)
    (a : Auth β) :
    (a.step build (.command cmd data)).hmacSecretSession = none ∧
      (a.step build (.command cmd data)).getNextAssertionState =
        if a.present then none else a.getNextAssertionState := by
  obtain ⟨b, hcore, hsession, hpresence⟩ := run_checkPresence { a with hmacSecretSession := none }
  have hstep : a.step build (.command cmd data) =
      (handleReset.run { a with hmacSecretSession := none }).2 := by
    show ((processCommand build cmd data).run a).2 = _
    rw [run_processCommand_of_ne build data a (by rw [hcmd]; decide), hcmd]
    exact congrArg Prod.snd (Prog.run_map _ _ _)
  rw [hstep, handleReset]
  have hpresent : ({ a with hmacSecretSession := none } : Auth β).present = a.present := rfl
  rw [hpresent] at hpresence
  cases hp : a.present with
  | false =>
      rw [hp] at hpresence
      rw [Prog.run_bind_of_error hpresence]
      exact ⟨hsession, congrArg Core.next hcore⟩
  | true =>
      rw [hp] at hpresence
      rw [Prog.run_bind_of_ok hpresence]
      exact ⟨rfl, rfl⟩

/-- Every command but three leaves the enumeration alone and ends the session. -/
theorem next_other {cmd : UInt8} (data : Bytes) (hreset : Ctap2Command.fromU8 cmd ≠ .reset)
    (hga : Ctap2Command.fromU8 cmd ≠ .getAssertion)
    (hgna : Ctap2Command.fromU8 cmd ≠ .getNextAssertion) (a : Auth β) :
    (a.step build (.command cmd data)).hmacSecretSession = none ∧
      (a.step build (.command cmd data)).getNextAssertionState = a.getNextAssertionState := by
  have hkeeps := within_dispatch (storageCalls_any (β := β) build) _ data hreset hga hgna
  obtain ⟨-, hnext, hsession⟩ := hkeeps { a with hmacSecretSession := none }
  rw [step, run_processCommand_of_ne build data a hgna]
  exact ⟨hsession, hnext⟩

/-- GetAssertion opens an enumeration or leaves the old one. -/
theorem next_getAssertion {cmd : UInt8} (data : Bytes)
    (hcmd : Ctap2Command.fromU8 cmd = .getAssertion) (a : Auth β) :
    ((a.exchange build cmd data).opens = false ∧
      (a.step build (.command cmd data)).getNextAssertionState = a.getNextAssertionState) ∨
    ((a.exchange build cmd data).opens = true ∧ ∃ request verified index,
      build.cbor.decodeGetAssertion data = .ok request ∧
      (a.step build (.command cmd data)).getNextAssertionState =
        some (leftState request verified (a.credProtectUvSatisfied verified) index)) := by
  have hcommand : (a.exchange build cmd data).command = .getAssertion := hcmd
  obtain ⟨r, hx⟩ | ⟨error, hfail⟩ := assertion_or_error build a data (.inl hcmd)
  · have hopens : (a.exchange build cmd data).opens = r.numberOfCredentials.isSome := by
      unfold Exchange.opens
      rw [hx, hcommand]
      simp
    obtain ⟨-, request, verified, credential, hdecode, hasserted⟩ | ⟨hgna, -⟩ :=
      assertion_cases build hx
    · obtain ⟨a₁, a₂, assertion, hcore, hsigned, -, ⟨hmany, index, hb⟩ | ⟨hfew, hb⟩⟩ :=
        hasserted.signed
      · exact .inr ⟨hopens.trans hmany, request, verified, index, hdecode, congrArg Core.next hb⟩
      · refine .inl ⟨hopens.trans (by rw [hfew]; rfl), ?_⟩
        have hsame : a₂.getNextAssertionState = a₁.getNextAssertionState :=
          (sameNext_signCounted build _ _ _ _).of_run hsigned
        exact (congrArg Core.next hb).trans (hsame.trans (congrArg Core.next hcore))
    · rw [hcmd] at hgna
      cases hgna
  · refine .inl ⟨?_, ?_⟩
    · unfold Exchange.opens Exchange.assertion
      rw [hfail, hcommand]
      rfl
    · obtain ⟨a', hcore, hrun⟩ := run_processCommand build cmd data a
      rw [hcmd] at hrun
      have hkeeps : KeepsOnFail SameNext (dispatch build .getAssertion data : Ctap β _) :=
        (KeepsOnFail.bind (.check _) fun request => sameNext_getAssertion build request).map
      have hsame := hkeeps a' _ error (hrun.symm.trans (Prod.ext hfail rfl))
      exact Eq.trans hsame (congrArg Core.next hcore)

/-- GetNextAssertion moves the position of the enumeration and nothing else of it. -/
theorem next_getNextAssertion {P : GetNextAssertionState → Prop}
    (hP : ∀ state index, P state → P { state with currentIndex := index }) {cmd : UInt8}
    (data : Bytes) (hcmd : Ctap2Command.fromU8 cmd = .getNextAssertion) {a : Auth β}
    (ha : a.NextIs P) : (a.step build (.command cmd data)).NextIs P := by
  have hkeeps : Keeps (.invariant (NextIs P)) (processCommand build cmd data : Ctap β _) := by
    unfold processCommand
    simp only [hcmd, ne_eq, not_true, decide_false]
    exact (Keeps.when fun h => by cases h).bind fun _ =>
      (nextIs_handleGetNextAssertion build hP).map
  exact hkeeps a ha

/-! ## The state of an enumeration -/

/-- The state was left by the last GetAssertion that opened an enumeration. -/
def Left (past : List (Exchange β)) (state : GetNextAssertionState) : Prop :=
  ∃ g request verified index, (past.filter Exchange.opens).getLast? = some g ∧
    build.cbor.decodeGetAssertion g.data = .ok request ∧
    state = leftState request verified (g.before.credProtectUvSatisfied verified) index

theorem Left.snoc {past : List (Exchange β)} {state : GetNextAssertionState} {x : Exchange β}
    (h : Left build past state) (hx : x.opens = false) : Left build (past ++ [x]) state := by
  obtain ⟨g, request, verified, index, hlast, hrest⟩ := h
  exact ⟨g, request, verified, index, by rw [Exchange.filter_opens hx]; exact hlast, hrest⟩

/-- Whatever the commands, a pending state was left by the last GetAssertion that opened an
enumeration. -/
theorem left_command {past : List (Exchange β)} {a : Auth β} (h : a.NextIs (Left build past))
    (cmd : UInt8) (data : Bytes) : (a.step build (.command cmd data)).NextIs
      (Left build (past ++ [a.exchange build cmd data])) := by
  have hcommand : (a.exchange build cmd data).command = Ctap2Command.fromU8 cmd := rfl
  have hsame : (a.exchange build cmd data).opens = false →
      (a.step build (.command cmd data)).NextIs (Left build past) →
      (a.step build (.command cmd data)).NextIs
        (Left build (past ++ [a.exchange build cmd data])) :=
    fun hopens hnext state hstate => (hnext state hstate).snoc build hopens
  by_cases hga : Ctap2Command.fromU8 cmd = .getAssertion
  · obtain ⟨hopens, hnext⟩ | ⟨hopens, request, verified, index, hdecode, hnext⟩ :=
      next_getAssertion build data hga a
    · exact hsame hopens (h.of_same hnext)
    · intro state hstate
      rw [hnext] at hstate
      cases hstate
      exact ⟨_, request, verified, index, Exchange.getLast?_opens hopens, hdecode, rfl⟩
  have hopens : (a.exchange build cmd data).opens = false :=
    Exchange.opens_eq_false (by rw [hcommand]; exact hga)
  refine hsame hopens ?_
  by_cases hgna : Ctap2Command.fromU8 cmd = .getNextAssertion
  · refine next_getNextAssertion build (fun state index hs => ?_) data hgna h
    obtain ⟨g, request, verified, index', hlast, hdecode, rfl⟩ := hs
    exact ⟨g, request, verified, index, hlast, hdecode, rfl⟩
  by_cases hreset : Ctap2Command.fromU8 cmd = .reset
  · intro state hstate
    rw [(next_reset build data hreset a).2] at hstate
    split at hstate
    · cases hstate
    · exact h state hstate
  · exact h.of_same (next_other build data hreset hga hgna a).2

/-! ## Enumerations with no match left -/

/-- The enumeration that is pending, if any, has no further match. -/
def Spent (a : Auth β) : Prop :=
  a.NextIs fun state => (findMatchingCredentials a state.rpId state.allowList
    state.uvSatisfied).length ≤ state.currentIndex + 1

omit [StorageBackend β] in
theorem spent_of_none {a : Auth β} (h : a.getNextAssertionState = none) : a.Spent := by
  intro state hstate
  rw [h] at hstate
  cases hstate

/-- Nothing is left of an enumeration after a GetNextAssertion that finds no match. -/
theorem next_of_spent {cmd : UInt8} (data : Bytes)
    (hcmd : Ctap2Command.fromU8 cmd = .getNextAssertion) {a : Auth β} (ha : a.Spent) :
    (a.step build (.command cmd data)).getNextAssertionState = none := by
  have hstep : a.step build (.command cmd data) = ((handleGetNextAssertion build).run a).2 := by
    show ((processCommand build cmd data).run a).2 = _
    unfold processCommand
    simp only [hcmd, ne_eq, not_true, decide_false]
    exact congrArg Prod.snd (Prog.run_map _ _ _)
  rw [hstep, handleGetNextAssertion]
  have htake : (takeNextState : Ctap β _).run a =
      (a.getNextAssertionState.elim (.error .invalidState) .ok,
        { a with getNextAssertionState := none }) := by
    unfold takeNextState
    rw [Prog.run_act_bind, Prog.run_check]
  cases hstate : a.getNextAssertionState with
  | none =>
      rw [hstate] at htake
      rw [Prog.run_bind_of_error htake]
  | some state =>
      rw [hstate] at htake
      rw [Prog.run_bind_of_ok htake, Prog.run_read_bind]
      have hnone : (findMatchingCredentials ({ a with getNextAssertionState := none } : Auth β)
          state.rpId state.allowList state.uvSatisfied)[state.currentIndex + 1]? = none :=
        List.getElem?_eq_none (ha state hstate)
      unfold nextMatch
      rw [hnone]
      rfl

/-- A GetNextAssertion that succeeds finds a match. -/
theorem not_spent {cmd : UInt8} {data : Bytes} {a : Auth β} {r : GetAssertionResponse}
    (hx : (a.exchange build cmd data).assertion = some r)
    (hcmd : Ctap2Command.fromU8 cmd = .getNextAssertion) : ¬a.Spent := by
  intro hspent
  obtain ⟨hga, -⟩ | ⟨-, state, credential, found, chained, assertion, a₁, hsteps⟩ :=
    assertion_steps build hx
  · rw [hcmd] at hga
    cases hga
  · obtain ⟨id, hid, -⟩ := hsteps.loaded
    obtain ⟨hlt, -⟩ := List.getElem?_eq_some_iff.mp hid
    rw [hsteps.matches_eq] at hlt
    exact absurd (hspent state hsteps.opened) (Nat.not_le.mpr hlt)

theorem commonCalls_records {P : Bytes → StoredCredential → Prop}
    (hP : StoredCredential.Lasting P) :
    CommonCalls build (.invariant (StorageEngine.Records P) : Prog.Frame (StorageEngine β)) where
  store key _ v _ := StorageEngine.records_store key v
  delete key _ := StorageEngine.records_delete key
  updateSignCount := StorageEngine.records_updateSignCount hP
  updateUserInfo := StorageEngine.records_updateUserInfo hP
  deleteCredential := StorageEngine.records_deleteCredential
  writeLargeBlobs := StorageEngine.records_writeLargeBlobs

/-- The records of `b` are records of `a`, but for their counters and names. -/
def Fewer (a b : Auth β) : Prop :=
  b.crypto = a.crypto ∧ b.storage.Records fun id s =>
    ∃ s₀, a.storage.credentials[id]? = some s₀ ∧ s.origin = s₀.origin

/-- Only MakeCredential adds a record. -/
theorem fewer_step {cmd : UInt8} (data : Bytes)
    (hmake : Ctap2Command.fromU8 cmd ≠ .makeCredential) (a : Auth β) :
    a.Fewer (a.step build (.command cmd data)) := by
  have hlasting : StoredCredential.Lasting fun id s =>
      ∃ s₀, a.storage.credentials[id]? = some s₀ ∧ s.origin = s₀.origin :=
    ⟨fun _ h => h, fun _ _ h => h⟩
  have hstart : a.storage.Records fun id s =>
      ∃ s₀, a.storage.credentials[id]? = some s₀ ∧ s.origin = s₀.origin :=
    fun _ s hs => ⟨s, hs, rfl⟩
  have hcalls := commonCalls_records (β := β) build hlasting
  have hkeeps : Keeps (Touching (.invariant (StorageEngine.Records fun id s =>
      ∃ s₀, a.storage.credentials[id]? = some s₀ ∧ s.origin = s₀.origin)) : Prog.Frame (Auth β))
      (processCommand build cmd data) := by
    by_cases hreset : Ctap2Command.fromU8 cmd = .reset
    · refine (Keeps.when fun _ => quiet_endHmacSession).bind fun _ => ?_
      rw [hreset]
      exact (touching_handleReset StorageEngine.records_clear
        StorageEngine.records_clearLargeBlobs).map
    · exact keeps_processCommand hcalls cmd data hreset (fun heq => absurd heq hmake)
        fun _ => within_handleCredentialManagement hcalls data
  obtain ⟨hrecords, hcrypto⟩ := hkeeps a
  exact ⟨hcrypto, hrecords hstart⟩

/-- What opens a record, and may be used, does not depend on its counter and names. -/
theorem unlock_of_origin {crypto : CryptoEngine} {s s₀ : StoredCredential}
    (horigin : s.origin = s₀.origin) {c : Credential}
    (h : StorageEngine.unlock crypto s = .ok c) :
    ∃ c₀, StorageEngine.unlock crypto s₀ = .ok c₀ ∧ c₀.rpId = c.rpId ∧
      c₀.credProtect = c.credProtect := by
  have hkey : s.encryptedPrivateKey = s₀.encryptedPrivateKey :=
    congrArg (fun s => s.encryptedPrivateKey) horigin
  have hnonce : s.nonce = s₀.nonce := congrArg (fun s => s.nonce) horigin
  have hrpId : s.credential.rpId = s₀.credential.rpId :=
    congrArg (fun s => s.credential.rpId) horigin
  have hprotect : s.credential.credProtect = s₀.credential.credProtect :=
    congrArg (fun s => s.credential.credProtect) horigin
  unfold StorageEngine.unlock at h ⊢
  rw [hkey, hnonce] at h
  cases hopen : crypto.decrypt s₀.encryptedPrivateKey s₀.nonce with
  | error text => simp [hopen] at h
  | ok privateKey =>
      rw [hopen] at h
      cases h
      exact ⟨_, rfl, hrpId.symm, hprotect.symm⟩

theorem isCredProtectAllowed_congr {c c₀ : Credential} (h : c₀.credProtect = c.credProtect)
    (uvSatisfied named : Bool) :
    isCredProtectAllowed c₀ uvSatisfied named = isCredProtectAllowed c uvSatisfied named := by
  unfold isCredProtectAllowed
  rw [h]

omit [StorageBackend β] in
/-- A named credential that may be used could be used before. -/
theorem Fewer.named {a b : Auth β} (h : a.Fewer b) {rpId : String} {uvSatisfied : Bool}
    {descriptor : CredentialDescriptor}
    (hb : (b.matchingId rpId uvSatisfied descriptor).isSome = true) :
    (a.matchingId rpId uvSatisfied descriptor).isSome = true := by
  obtain ⟨hcrypto, hrecords⟩ := h
  unfold Auth.matchingId StorageEngine.getCredential at hb ⊢
  rw [hcrypto] at hb
  cases hs : b.storage.credentials[descriptor.id]? with
  | none => simp [hs] at hb
  | some s =>
      obtain ⟨s₀, hs₀, horigin⟩ := hrecords _ s hs
      rw [hs] at hb
      rw [hs₀]
      cases hopen : StorageEngine.unlock a.crypto s with
      | error error => simp [hopen, Except.map] at hb
      | ok c =>
          obtain ⟨c₀, hopen₀, hrpId, hprotect⟩ := unlock_of_origin horigin hopen
          simp only [hopen, Except.map] at hb
          simp only [hopen₀, Except.map, hrpId,
            isCredProtectAllowed_congr hprotect uvSatisfied true]
          split at hb
          · next hallowed =>
              rw [if_pos hallowed]
              rfl
          · cases hb

/-- A record that may be discovered for a relying party. -/
def discovers (crypto : CryptoEngine) (rpId : String) (uvSatisfied : Bool)
    (s : StoredCredential) : Bool :=
  decide (s.credential.rpIdHash = crypto.sha256 (utf8 rpId)) &&
    ((StorageEngine.unlock crypto s).toOption.any fun c => isCredProtectAllowed c uvSatisfied false)

theorem length_filter_filterMap {α γ : Type} (p : α → Bool) (f : α → Option γ) (q : γ → Bool)
    (l : List α) : (((l.filter p).filterMap f).filter q).length =
      (l.filter fun x => p x && (f x).any q).length := by
  induction l with
  | nil => rfl
  | cons x l ih =>
      cases hp : p x with
      | false => simpa [hp] using ih
      | true =>
          cases hf : f x with
          | none => simpa [hp, hf] using ih
          | some y =>
              cases hq : q y with
              | false => simpa [hp, hf, hq] using ih
              | true => simpa [hp, hf, hq] using ih

omit [StorageBackend β] in
theorem length_discoverable (a : Auth β) (rpId : String) (uvSatisfied : Bool) :
    (a.discoverable rpId uvSatisfied).length =
      (a.storage.credentials.toList.filter fun entry =>
        discovers a.crypto rpId uvSatisfied entry.2).length := by
  unfold discoverable StorageEngine.findByRpId StorageEngine.findCredentialsByRpHash
  rw [length_filter_filterMap, StorageEngine.records, List.filter_map, List.length_map]
  rfl

omit [StorageBackend β] in
theorem Fewer.discovered {a b : Auth β} (h : a.Fewer b) {rpId : String} {uvSatisfied : Bool}
    {id : Bytes} {s : StoredCredential} (hs : b.storage.credentials[id]? = some s)
    (hb : discovers b.crypto rpId uvSatisfied s = true) :
    ∃ s₀, a.storage.credentials[id]? = some s₀ ∧
      Auth.discovers a.crypto rpId uvSatisfied s₀ = true := by
  obtain ⟨hcrypto, hrecords⟩ := h
  obtain ⟨s₀, hs₀, horigin⟩ := hrecords _ s hs
  refine ⟨s₀, hs₀, ?_⟩
  have hhash : s.credential.rpIdHash = s₀.credential.rpIdHash :=
    congrArg (fun s => s.credential.rpIdHash) horigin
  rw [hcrypto] at hb
  unfold Auth.discovers at hb ⊢
  obtain ⟨hrp, hopen⟩ := (Bool.and_eq_true _ _).mp hb
  rw [hhash] at hrp
  cases hunlock : StorageEngine.unlock a.crypto s with
  | error error => simp [hunlock, Except.toOption] at hopen
  | ok c =>
      obtain ⟨c₀, hunlock₀, -, hprotect⟩ := unlock_of_origin horigin hunlock
      rw [hrp, hunlock₀]
      rw [hunlock] at hopen
      exact (isCredProtectAllowed_congr hprotect uvSatisfied false).trans hopen

theorem length_filterMap_le {α γ : Type} {f g : α → Option γ} {l : List α}
    (h : ∀ x ∈ l, (f x).isSome = true → (g x).isSome = true) :
    (l.filterMap f).length ≤ (l.filterMap g).length := by
  induction l with
  | nil => exact Nat.le_refl _
  | cons x l ih =>
      have hrest := ih fun y hy => h y (List.mem_cons_of_mem x hy)
      have hx := h x List.mem_cons_self
      cases hf : f x with
      | none =>
          rw [List.filterMap_cons_none hf]
          cases hg : g x with
          | none => rwa [List.filterMap_cons_none hg]
          | some y =>
              rw [List.filterMap_cons_some hg]
              exact Nat.le_succ_of_le hrest
      | some y =>
          obtain ⟨z, hg⟩ := Option.isSome_iff_exists.mp (hx (by rw [hf]; rfl))
          rw [List.filterMap_cons_some hf, List.filterMap_cons_some hg]
          exact Nat.succ_le_succ hrest

omit [StorageBackend β] in
/-- Fewer records have fewer matches. -/
theorem Fewer.length_le {a b : Auth β} (h : a.Fewer b) (rpId : String)
    (allowList : List CredentialDescriptor) (uvSatisfied : Bool) :
    (findMatchingCredentials b rpId allowList uvSatisfied).length ≤
      (findMatchingCredentials a rpId allowList uvSatisfied).length := by
  unfold findMatchingCredentials
  split
  · rw [List.length_map, List.length_map, length_discoverable, length_discoverable]
    have hnodup : ((b.storage.credentials.toList.filter fun entry =>
        discovers b.crypto rpId uvSatisfied entry.2).map Prod.fst).Nodup := by
      refine List.Nodup.sublist (List.filter_sublist.map _) ?_
      rw [Std.ExtTreeMap.map_fst_toList_eq_keys]
      exact Std.ExtTreeMap.nodup_keys
    have hsub : (b.storage.credentials.toList.filter fun entry =>
        discovers b.crypto rpId uvSatisfied entry.2).map Prod.fst ⊆
        (a.storage.credentials.toList.filter fun entry =>
          discovers a.crypto rpId uvSatisfied entry.2).map Prod.fst := by
      intro id hid
      obtain ⟨⟨id', s⟩, hmem, rfl⟩ := List.mem_map.mp hid
      obtain ⟨hlist, hdiscovers⟩ := List.mem_filter.mp hmem
      obtain ⟨s₀, hs₀, hdiscovers₀⟩ :=
        h.discovered (Std.ExtTreeMap.mem_toList_iff_getElem?_eq_some.mp hlist) hdiscovers
      exact List.mem_map.mpr ⟨(id', s₀), List.mem_filter.mpr
        ⟨Std.ExtTreeMap.mem_toList_iff_getElem?_eq_some.mpr hs₀, hdiscovers₀⟩, rfl⟩
    simpa using (hnodup.subperm hsub).length_le
  · exact length_filterMap_le fun _ _ => h.named

/-- An spent enumeration stays spent, but for a MakeCredential. -/
theorem spent_step {cmd : UInt8} (data : Bytes)
    (hmake : Ctap2Command.fromU8 cmd ≠ .makeCredential)
    (hgna : Ctap2Command.fromU8 cmd ≠ .getNextAssertion) {a : Auth β}
    (hopens : (a.exchange build cmd data).opens = false) (ha : a.Spent) :
    (a.step build (.command cmd data)).Spent := by
  have hfewer := fewer_step build data hmake a
  have hsame : (a.step build (.command cmd data)).getNextAssertionState = a.getNextAssertionState →
      (a.step build (.command cmd data)).Spent := by
    intro hnext state hstate
    rw [hnext] at hstate
    exact (hfewer.length_le _ _ _).trans (ha state hstate)
  by_cases hreset : Ctap2Command.fromU8 cmd = .reset
  · have hnext := (next_reset build data hreset a).2
    split at hnext
    · exact spent_of_none hnext
    · exact hsame hnext
  by_cases hga : Ctap2Command.fromU8 cmd = .getAssertion
  · obtain ⟨-, hnext⟩ | ⟨hopens', -⟩ := next_getAssertion build data hga a
    · exact hsame hnext
    · rw [hopens] at hopens'
      cases hopens'
  · exact hsame (next_other build data hreset hga hgna a).2

/-! ## Enumerations that are not interrupted -/

/-- No enumeration is pending before the exchange, or only one with no match left and the command is
no MakeCredential, or it is a GetNextAssertion, a GetAssertion that opens an enumeration of its own,
or a Reset that the user confirms. -/
def Orderly (x : Exchange β) : Prop :=
  x.before.getNextAssertionState = none ∨
    (x.before.Spent ∧ x.command ≠ .makeCredential) ∨ x.command = .getNextAssertion ∨
    x.opens = true ∨ (x.command = .reset ∧ x.before.present = true)

/-- The invariant of orderly runs, after the exchanges `past`. -/
structure Followed (past : List (Exchange β)) (a : Auth β) : Prop where
  left : a.NextIs (Left build past)
  pending : Exchange.Uninterrupted past ∨ a.Spent

theorem followed_of_none {past : List (Exchange β)} {a : Auth β}
    (h : a.getNextAssertionState = none) : Followed build past a := by
  refine ⟨fun state hstate => ?_, .inr (spent_of_none h)⟩
  rw [h] at hstate
  cases hstate

theorem Followed.command {past : List (Exchange β)} {a : Auth β} (h : Followed build past a)
    {cmd : UInt8} {data : Bytes} (hx : Orderly (a.exchange build cmd data)) :
    Followed build (past ++ [a.exchange build cmd data]) (a.step build (.command cmd data)) := by
  refine ⟨left_command build h.left cmd data, ?_⟩
  by_cases hopens : (a.exchange build cmd data).opens = true
  · exact .inl (Exchange.uninterrupted_opens hopens)
  rw [Bool.not_eq_true] at hopens
  by_cases hgna : Ctap2Command.fromU8 cmd = .getNextAssertion
  · rcases h.pending with hpast | hspent
    · exact .inl (hpast.snoc hgna)
    · exact .inr (spent_of_none (next_of_spent build data hgna hspent))
  -- any other command finds no enumeration with a match, or is a confirmed Reset
  refine .inr ?_
  rcases hx with hnone | ⟨hspent, hmake⟩ | hx | hx | ⟨hreset, hpresent⟩
  · have hbefore : a.getNextAssertionState = none := hnone
    by_cases hreset : Ctap2Command.fromU8 cmd = .reset
    · refine spent_of_none ((next_reset build data hreset a).2.trans ?_)
      rw [hbefore, ite_self]
    by_cases hga : Ctap2Command.fromU8 cmd = .getAssertion
    · obtain ⟨-, hnext⟩ | ⟨hopens', -⟩ := next_getAssertion build data hga a
      · exact spent_of_none (hnext.trans hbefore)
      · rw [hopens] at hopens'
        cases hopens'
    · exact spent_of_none ((next_other build data hreset hga hgna a).2.trans hbefore)
  · exact spent_step build data hmake hgna hopens hspent
  · exact absurd hx hgna
  · rw [hopens] at hx
    cases hx
  · exact spent_of_none ((next_reset build data hreset a).2.trans (if_pos hpresent))

/-- In a run in which no other command is processed while an enumeration with a match left is
pending, and no MakeCredential while any is, a GetNextAssertion that succeeds continues the last
GetAssertion of the run: that one announced further assertions, nothing but GetNextAssertion came
in between, and the answer is for its relying party and its clientDataHash. -/
theorem next_assertion_belongs (a : Auth β) (hstart : a.getNextAssertionState = none)
    (inputs : List Input) (past future : List (Exchange β)) (x : Exchange β)
    (r : GetAssertionResponse) (hrun : a.trace build inputs = past ++ x :: future)
    (horderly : ∀ y ∈ past, Orderly y) (hnext : x.command = .getNextAssertion)
    (hx : x.assertion = some r) :
    ∃ before g between request, past = before ++ g :: between ∧ g.opens = true ∧
      (∀ y ∈ between, y.command = .getNextAssertion) ∧
      build.cbor.decodeGetAssertion g.data = .ok request ∧
      ∃ state credential found chained assertion a₁,
        ChainedSteps build state credential found chained assertion x.before a₁ r x.after ∧
        state.rpId = request.rpId ∧ state.clientDataHash = request.clientDataHash := by
  obtain ⟨b, cmd, data, hfollowed, rfl⟩ := trace_invariant build (P := Followed build)
    (fun _ _ _ _ h hC => h.command build hC) (fun _ _ _ => followed_of_none build rfl)
    (followed_of_none build hstart : Followed build [] a) hrun horderly
  obtain ⟨hga, -⟩ | ⟨-, state, credential, found, chained, assertion, a₁, hsteps⟩ :=
    assertion_steps build hx
  · rw [show Ctap2Command.fromU8 cmd = .getNextAssertion from hnext] at hga
    cases hga
  · obtain ⟨g, request, verified, index, hlast, hdecode, hstate⟩ :=
      hfollowed.left state hsteps.opened
    obtain ⟨before, between, hpast, hopens, hall⟩ :=
      (hfollowed.pending.resolve_right (not_spent build hx hnext)).last hlast
    refine ⟨before, g, between, request, hpast, hopens, hall, hdecode, state, credential, found,
      chained, assertion, a₁, hsteps, ?_, ?_⟩
    · rw [hstate]
      rfl
    · rw [hstate]
      rfl

set_option maxRecDepth 100000 in
/-- The sample device enumerates two credentials. -/
theorem next_assertion_belongs_sample :
    ∃ r, ((memoryDevice.run sampleBuild (sampleSetup 1 ++ [getAssertionCommand []])).exchange
        sampleBuild 0x08 []).assertion = some r ∧
      ∃ before g between request,
        memoryDevice.trace sampleBuild (sampleSetup 1 ++ [getAssertionCommand []]) =
          before ++ g :: between ∧ g.opens = true ∧
        sampleBuild.cbor.decodeGetAssertion g.data = .ok request := by
  have hsome : ((memoryDevice.run sampleBuild
      (sampleSetup 1 ++ [getAssertionCommand []])).exchange sampleBuild 0x08 []).assertion.isSome =
        true := by decide +kernel
  have hquiet : (memoryDevice.trace sampleBuild (sampleSetup 1 ++ [getAssertionCommand []])).all
      (fun y => y.before.getNextAssertionState.isNone) = true := by decide +kernel
  obtain ⟨r, hr⟩ := Option.isSome_iff_exists.mp hsome
  obtain ⟨before, g, between, request, hpast, hopens, -, hdecode, -⟩ :=
    next_assertion_belongs sampleBuild memoryDevice rfl
      ((sampleSetup 1 ++ [getAssertionCommand []]) ++ [getNextAssertionCommand]) _ [] _ r
      (trace_append sampleBuild memoryDevice (sampleSetup 1 ++ [getAssertionCommand []]) _)
      (fun y hy => .inl (Option.isNone_iff_eq_none.mp (List.all_eq_true.mp hquiet y hy))) rfl hr
  exact ⟨r, hr, before, g, between, request, hpast, hopens, hdecode⟩

set_option maxRecDepth 100000 in
/-- On the sample device GetInfo comes between the two, and GetNextAssertion succeeds. -/
theorem next_assertion_after_get_info :
    ∃ past x r, memoryDevice.trace sampleBuild
        (sampleSetup 1 ++ [getAssertionCommand []] ++ [.command 0x04 []] ++
          [getNextAssertionCommand]) = past ++ [x] ∧ x.command = .getNextAssertion ∧
      x.assertion = some r ∧ ¬Exchange.Uninterrupted past := by
  have hsome : ((memoryDevice.run sampleBuild (sampleSetup 1 ++ [getAssertionCommand []] ++
      [.command 0x04 []])).exchange sampleBuild 0x08 []).assertion.isSome =
        true := by decide +kernel
  obtain ⟨r, hr⟩ := Option.isSome_iff_exists.mp hsome
  refine ⟨_, _, r, trace_snoc sampleBuild memoryDevice _ 0x08 [], rfl, hr, ?_⟩
  rw [trace_snoc]
  exact Exchange.not_uninterrupted (by decide) rfl

end Auth

end OpenKey
