import OpenKey.Storage.EngineRuns

/-!
# Storage errors

What the operations of the storage engine leave behind when calls on the backend fail. A
`FaultyBackend` fails the calls its plan says, without effect on its entries. `Atomic` is the
ideal: a reported error changed nothing, a reported success is in memory and in the backend.

The source meets it exactly under `Safe`. `store` always does; the operations that change memory
before the backend, or discard what the backend says, do not when the call fails and there was
something to change; and `clear` does not while the memory holds large blobs, which it forgets
to drop. `atomic_iff_safe` says so for every reachable engine.
-/

namespace OpenKey

open Std

set_option autoImplicit false

/-! ## Faulty backends -/

/-- A backend that fails the calls planned to fail. -/
structure FaultyBackend where
  entries : KvMap
  /-- Which of the next writes and deletes fail; those beyond the plan succeed. -/
  faults : List Bool

/-- A write or delete, unless it is planned to fail. -/
def FaultyBackend.call (f : KvMap → KvMap) : Prog FaultyBackend StorageError Unit := .mk fun b =>
  (if b.faults.headD false then .error (.backendError "call failed") else .ok (),
    { entries := if b.faults.headD false then b.entries else f b.entries
      faults := b.faults.tail })

instance : StorageBackend FaultyBackend where
  read b key := .ok b.entries[key]?
  write key value := FaultyBackend.call fun m => m.insert key value
  delete key := FaultyBackend.call fun m => m.erase key
  listKeys b := .ok b.entries.keys

/-! ## Operations and their ideal -/

/-- What can be observed of an engine: its memory, and the entries of its backend if any. -/
structure Observed where
  credentials : ExtTreeMap Bytes StoredCredential
  kvStore : KvMap
  largeBlobs : Bytes
  stored : Option KvMap
  deriving DecidableEq

namespace StorageEngine

variable (codec : Codec StoredCredential) (crypto : CryptoEngine)

/-- Observe an engine. -/
def observe (e : StorageEngine FaultyBackend) : Observed :=
  ⟨e.credentials, e.kvStore, e.largeBlobs, e.backend.map (·.entries)⟩

/-- Run an operation. -/
def perform : EngineOp → Prog (StorageEngine FaultyBackend) EngineError Unit
  | .store key value => store key value
  | .delete key => delete key
  | .storeCredential credential nonce => storeCredential codec crypto credential nonce
  | .updateSignCount id signCount => updateSignCount codec id signCount
  | .deleteCredential id => void (deleteCredential id)
  | .updateUserInfo id userName userDisplayName =>
      void (updateUserInfo codec id userName userDisplayName)
  | .writeLargeBlobs offset data expectedLen => writeLargeBlobs offset data expectedLen
  | .clear => clear
  | .clearLargeBlobs => clearLargeBlobs

/-- A credential put in both places. -/
def Observed.put (id : Bytes) (s : StoredCredential) (o : Observed) : Observed :=
  { o with credentials := o.credentials.insert id s
           stored := o.stored.map fun m => m.insert (credKey id) (codec.encode s) }

/-- A credential removed from both places. -/
def Observed.drop (id : Bytes) (o : Observed) : Observed :=
  { o with credentials := o.credentials.erase id
           stored := o.stored.map fun m => m.erase (credKey id) }

/-- The record `store_credential` evicts, if it does. -/
def evicted (e : StorageEngine FaultyBackend) : Option StoredCredential :=
  if e.isFull then e.oldest else none

/-- What an operation is for: the change a successful one makes, in memory and in the backend. -/
def intended (op : EngineOp) (e : StorageEngine FaultyBackend) : Observed :=
  let o := e.observe
  match op with
  | .store key value =>
      { o with kvStore := o.kvStore.insert key value
               stored := o.stored.map fun m => m.insert key value }
  | .delete key =>
      { o with kvStore := o.kvStore.erase key, stored := o.stored.map fun m => m.erase key }
  | .storeCredential credential nonce =>
      let room := e.evicted.elim o fun s => Observed.drop s.credential.credentialId o
      match atRest crypto credential nonce with
      | .ok s => Observed.put codec s.credential.credentialId s room
      | .error _ => o
  | .updateSignCount id signCount =>
      o.credentials[id]?.elim o fun s =>
        Observed.put codec id { s with credential := { s.credential with signCount := signCount } }
          o
  | .deleteCredential id => if id ∈ o.credentials then Observed.drop id o else o
  | .updateUserInfo id userName userDisplayName =>
      o.credentials[id]?.elim o fun s =>
        Observed.put codec id { s with
          credential := { s.credential with
            userName := userName, userDisplayName := userDisplayName } } o
  | .writeLargeBlobs offset data expectedLen =>
      let blobs := splicedBlobs o.largeBlobs offset data expectedLen
      { o with largeBlobs := blobs, stored := o.stored.map fun m =>
        m.insert largeBlobsStorageKey blobs }
  | .clear => ⟨∅, ∅, [], o.stored.map fun _ => ∅⟩
  | .clearLargeBlobs =>
      { o with largeBlobs := [], stored := o.stored.map fun m => m.erase largeBlobsStorageKey }

/-- An error changed nothing; a success made the intended change in both places. -/
def Atomic (e : StorageEngine FaultyBackend) (op : EngineOp) : Prop :=
  match (perform codec crypto op).run e with
  | (.error _, e') => e'.observe = e.observe
  | (.ok _, e') => e'.observe = intended codec crypto op e

/-- Which of the next calls on the backend fail. -/
def plan (e : StorageEngine FaultyBackend) : List Bool := e.backend.elim [] (·.faults)

/-- The next call on the backend fails. -/
def nextFails (e : StorageEngine FaultyBackend) : Bool := e.plan.headD false

/-- The entries of the backend. -/
def held (e : StorageEngine FaultyBackend) : KvMap := e.backend.elim ∅ (·.entries)

/-- The operation meets no failing call, or none that matters. -/
def Safe (e : StorageEngine FaultyBackend) : EngineOp → Prop
  | .store _ _ => True
  | .delete key => e.nextFails = false ∨ key ∉ e.held
  | .storeCredential credential nonce =>
      e.evicted = none ∨
        (e.nextFails = false ∧ (e.plan.tail.headD false) = false ∧
          ∃ s, atRest crypto credential nonce = .ok s)
  | .updateSignCount id signCount =>
      ∀ s, e.credentials[id]? = some s → e.nextFails = false ∨ s.credential.signCount = signCount
  | .deleteCredential id => e.nextFails = false ∨ id ∉ e.credentials
  | .updateUserInfo id userName userDisplayName =>
      ∀ s, e.credentials[id]? = some s → e.nextFails = false ∨
        (s.credential.userName = userName ∧ s.credential.userDisplayName = userDisplayName)
  | .writeLargeBlobs offset data expectedLen =>
      ∀ last, checkLargeBlobs e offset data expectedLen = .ok last →
        e.nextFails = false ∨ splicedBlobs e.largeBlobs offset data expectedLen = e.largeBlobs
  | .clear => e.largeBlobs = [] ∧ ∀ fails ∈ e.plan.take e.held.keys.length, fails = false
  | .clearLargeBlobs => e.nextFails = false ∨ largeBlobsStorageKey ∉ e.held

/-! ## Calls on the backend -/

/-- The engine after a call on its backend, failed or not. -/
def settle (f : KvMap → KvMap) (e : StorageEngine FaultyBackend) : StorageEngine FaultyBackend :=
  { e with backend := e.backend.map fun b =>
      { entries := if b.faults.headD false then b.entries else f b.entries
        faults := b.faults.tail } }

section

variable (f : KvMap → KvMap) (e : StorageEngine FaultyBackend)

@[simp] theorem settle_credentials : (settle f e).credentials = e.credentials := rfl

@[simp] theorem settle_kvStore : (settle f e).kvStore = e.kvStore := rfl

@[simp] theorem settle_largeBlobs : (settle f e).largeBlobs = e.largeBlobs := rfl

@[simp] theorem settle_plan : (settle f e).plan = e.plan.tail := by
  cases h : e.backend <;> simp [plan, settle, h]

theorem run_call :
    (onBackend (FaultyBackend.call f)).run e =
      (if e.nextFails then .error (.storage (.backendError "call failed")) else .ok (),
        settle f e) := by
  cases h : e.backend with
  | none =>
      simp only [onBackend, h, nextFails, plan, Option.elim_none, List.headD_nil,
        Bool.false_eq_true, if_false, settle, Option.map_none]
      rw [← h]
  | some b =>
      simp only [onBackend, h, nextFails, plan, Option.elim_some, FaultyBackend.call, settle,
        Option.map_some]
      cases b.faults.headD false <;> rfl

theorem run_deleteIgnored (key : String) :
    (onBackendIgnored (StorageBackend.delete key)).run e =
      (.ok (), settle (fun m => m.erase key) e) := by
  rw [onBackendIgnored, Prog.run_attempt_bind]
  exact congrArg (Except.ok (), ·) (congrArg Prod.snd (run_call _ e))

variable {e}

theorem run_call_fails (h : e.nextFails = true) :
    (onBackend (FaultyBackend.call f)).run e =
      (.error (.storage (.backendError "call failed")), settle f e) := by
  rw [run_call, if_pos h]

theorem run_call_succeeds (h : e.nextFails = false) :
    (onBackend (FaultyBackend.call f)).run e = (.ok (), settle f e) := by
  rw [run_call, h]
  rfl

theorem observe_settle_of_fails (h : e.nextFails = true) : (settle f e).observe = e.observe := by
  cases hb : e.backend with
  | none => simp only [observe, settle, hb, Option.map_none]
  | some b =>
      simp only [nextFails, plan, hb, Option.elim_some] at h
      simp only [observe, settle, hb, Option.map_some, h, if_true]

theorem observe_settle_of_succeeds (h : e.nextFails = false) :
    (settle f e).observe = { e.observe with stored := e.observe.stored.map f } := by
  cases hb : e.backend with
  | none => simp only [observe, settle, hb, Option.map_none]
  | some b =>
      simp only [nextFails, plan, hb, Option.elim_some] at h
      simp only [observe, settle, hb, Option.map_some, h, Bool.false_eq_true, if_false]

/-- A change of the backend that fails to happen shows unless it was no change. -/
theorem stored_eq_map_iff (h : e.nextFails = true) :
    e.observe.stored = e.observe.stored.map f ↔ f e.held = e.held := by
  cases hb : e.backend with
  | none => simp [nextFails, plan, hb] at h
  | some b =>
      simp only [observe, held, hb, Option.map_some, Option.some.injEq, Option.elim_some]
      exact eq_comm

end

theorem erase_eq_self_iff {m : KvMap} {key : String} : m.erase key = m ↔ key ∉ m := by
  constructor
  · intro h
    rw [← h]
    simp
  · intro h
    apply ExtTreeMap.ext_getElem?
    intro k
    rw [ExtTreeMap.getElem?_erase]
    split
    next hk =>
      obtain rfl : key = k := LawfulEqCmp.eq_of_compare hk
      rw [ExtTreeMap.getElem?_eq_none h]
    next => rfl

/-! ## Operation by operation -/

section

variable {e e' : StorageEngine FaultyBackend} {op : EngineOp}

theorem atomic_of_error {error : EngineError}
    (h : (perform codec crypto op).run e = (.error error, e')) :
    Atomic codec crypto e op ↔ e'.observe = e.observe := by
  rw [Atomic, h]

theorem atomic_of_ok (h : (perform codec crypto op).run e = (.ok (), e')) :
    Atomic codec crypto e op ↔ e'.observe = intended codec crypto op e := by
  rw [Atomic, h]

/-- `store` asks the backend first. -/
theorem store_atomic (key : String) (value : Bytes) : Atomic codec crypto e (.store key value) := by
  let f : KvMap → KvMap := fun m => m.insert key value
  let e₁ : StorageEngine FaultyBackend :=
    { e with wearCounters := e.wearCounters.insert "kv" ((e.wearCounters["kv"]?).getD 0 + 1) }
  cases h : e.nextFails with
  | true =>
      have h₁ : e₁.nextFails = true := h
      rw [atomic_of_error codec crypto (Prog.run_bind_of_error (run_call_fails f h₁))]
      exact observe_settle_of_fails f h₁
  | false =>
      have h₁ : e₁.nextFails = false := h
      rw [atomic_of_ok codec crypto (Prog.run_bind_of_ok (run_call_succeeds f h₁))]
      have hobs := observe_settle_of_succeeds f h₁
      exact congrArg (fun o : Observed => { o with kvStore := o.kvStore.insert key value }) hobs

/-- `delete` goes on whatever the backend says. -/
theorem delete_atomic_iff (key : String) :
    Atomic codec crypto e (.delete key) ↔ e.nextFails = false ∨ key ∉ e.held := by
  let f : KvMap → KvMap := fun m => m.erase key
  have hrun : (perform codec crypto (.delete key)).run e =
      (.ok (), { settle f e with kvStore := e.kvStore.erase key }) :=
    Prog.run_bind_of_ok (run_deleteIgnored e key)
  rw [atomic_of_ok codec crypto hrun]
  have hobs : ({ settle f e with kvStore := e.kvStore.erase key } :
      StorageEngine FaultyBackend).observe =
      { (settle f e).observe with kvStore := e.kvStore.erase key } := rfl
  rw [hobs]
  cases h : e.nextFails with
  | true =>
      rw [observe_settle_of_fails f h]
      have hiff := (stored_eq_map_iff f h).trans erase_eq_self_iff
      simp only [intended, Observed.mk.injEq, true_and, Bool.true_eq_false, false_or]
      exact ⟨fun hboth => hiff.mp hboth.2, fun habsent => ⟨rfl, hiff.mpr habsent⟩⟩
  | false =>
      rw [observe_settle_of_succeeds f h]
      simp only [intended, true_or, iff_true]
      rfl

theorem insert_eq_self_iff {m : ExtTreeMap Bytes StoredCredential} {id : Bytes}
    {s s' : StoredCredential} (hs : m[id]? = some s) : m.insert id s' = m ↔ s' = s := by
  constructor
  · intro h
    have hget : (m.insert id s')[id]? = some s' := ExtTreeMap.getElem?_insert_self
    rw [h, hs] at hget
    exact (Option.some.inj hget).symm
  · rintro rfl
    apply ExtTreeMap.ext_getElem?
    intro k
    rw [ExtTreeMap.getElem?_insert]
    split
    next hk =>
      obtain rfl : id = k := LawfulEqCmp.eq_of_compare hk
      exact hs.symm
    next => rfl

/-- Rewriting a record changes memory first: a failing call shows unless nothing changed. -/
theorem rewrite_atomic_iff {id : Bytes} {s : StoredCredential} (s' : StoredCredential)
    (hs : e.credentials[id]? = some s)
    (hrun : ∀ r e', (rewriteCredential codec id s').run e = (r, e') →
      (perform codec crypto op).run e = (r, e'))
    (hintended : intended codec crypto op e = Observed.put codec id s' e.observe) :
    Atomic codec crypto e op ↔ e.nextFails = false ∨ s' = s := by
  let f : KvMap → KvMap := fun m => m.insert (credKey id) (codec.encode s')
  let e₁ : StorageEngine FaultyBackend := { e with credentials := e.credentials.insert id s' }
  cases h : e.nextFails with
  | true =>
      have h₁ : e₁.nextFails = true := h
      rw [atomic_of_error codec crypto (hrun _ _ (run_call_fails f h₁)),
        observe_settle_of_fails f h₁]
      simp only [observe, Observed.mk.injEq, and_true, Bool.true_eq_false, false_or, e₁]
      exact insert_eq_self_iff hs
  | false =>
      have h₁ : e₁.nextFails = false := h
      rw [atomic_of_ok codec crypto (hrun _ _ (run_call_succeeds f h₁)),
        observe_settle_of_succeeds f h₁, hintended]
      simp only [true_or, iff_true]
      rfl

theorem updateSignCount_atomic_iff (id : Bytes) (signCount : Nat) :
    Atomic codec crypto e (.updateSignCount id signCount) ↔
      ∀ s, e.credentials[id]? = some s →
        e.nextFails = false ∨ s.credential.signCount = signCount := by
  cases hs : e.credentials[id]? with
  | none =>
      have hrun : (perform codec crypto (.updateSignCount id signCount)).run e =
          (.error (.message "Credential not found"), e) := by
        rw [perform, updateSignCount, Prog.run_read_bind, hs]
        rfl
      rw [atomic_of_error codec crypto hrun]
      simp
  | some s =>
      rw [rewrite_atomic_iff codec crypto
        { s with credential := { s.credential with signCount := signCount } } hs
        (fun r e' h => by rw [perform, updateSignCount, Prog.run_read_bind, hs]; exact h)
        (by rw [intended]; simp only [observe, hs, Option.elim_some])]
      have hiff : ({ s with credential := { s.credential with signCount := signCount } } :
          StoredCredential) = s ↔ s.credential.signCount = signCount := by
        obtain ⟨⟨⟩, -, -⟩ := s
        simp [eq_comm]
      rw [hiff]
      simp

theorem updateUserInfo_atomic_iff (id : Bytes) (userName userDisplayName : Option String) :
    Atomic codec crypto e (.updateUserInfo id userName userDisplayName) ↔
      ∀ s, e.credentials[id]? = some s → e.nextFails = false ∨
        (s.credential.userName = userName ∧ s.credential.userDisplayName = userDisplayName) := by
  cases hs : e.credentials[id]? with
  | none =>
      have hrun : (perform codec crypto (.updateUserInfo id userName userDisplayName)).run e =
          (.ok (), e) := by
        refine Prog.run_bind_of_ok (a := false) ?_
        rw [updateUserInfo, Prog.run_read_bind, hs]
        rfl
      rw [atomic_of_ok codec crypto hrun, intended]
      simp [observe, hs]
  | some s =>
      rw [rewrite_atomic_iff codec crypto
        { s with credential := { s.credential with
          userName := userName, userDisplayName := userDisplayName } } hs
        (fun r e' h => by
          rw [perform, updateUserInfo, void, Prog.run_bind, Prog.run_read_bind, hs,
            Prog.run_bind, h]
          cases r <;> rfl)
        (by rw [intended]; simp only [observe, hs, Option.elim_some])]
      have hiff : ({ s with credential := { s.credential with
          userName := userName, userDisplayName := userDisplayName } } : StoredCredential) = s ↔
          s.credential.userName = userName ∧ s.credential.userDisplayName = userDisplayName := by
        obtain ⟨⟨⟩, -, -⟩ := s
        simp [eq_comm]
      rw [hiff]
      simp

section

variable (id : Bytes)

/-- The engine after `delete_credential` found its credential. -/
def dropped (e : StorageEngine FaultyBackend) : StorageEngine FaultyBackend :=
  settle (fun m => m.erase (credKey id)) { e with credentials := e.credentials.erase id }

theorem isSome_of_mem (h : id ∈ e.credentials) : (e.credentials[id]?).isSome = true := by
  rw [ExtTreeMap.getElem?_eq_some_getElem h]
  rfl

theorem run_deleteCredential_fails (hmem : id ∈ e.credentials) (h : e.nextFails = true) :
    (deleteCredential id).run e =
      (.error (.storage (.backendError "call failed")), dropped id e) := by
  rw [deleteCredential, Prog.run_read_bind, isSome_of_mem id hmem, if_pos rfl, Prog.run_update_bind]
  exact Prog.run_bind_of_error (run_call_fails _ h)

theorem run_deleteCredential_succeeds (hmem : id ∈ e.credentials) (h : e.nextFails = false) :
    (deleteCredential id).run e = (.ok true, dropped id e) := by
  rw [deleteCredential, Prog.run_read_bind, isSome_of_mem id hmem, if_pos rfl, Prog.run_update_bind]
  exact Prog.run_bind_of_ok (run_call_succeeds _ h)

theorem run_deleteCredential_absent (hmem : id ∉ e.credentials) :
    (deleteCredential id).run e = (.ok false, e) := by
  rw [deleteCredential, Prog.run_read_bind, ExtTreeMap.getElem?_eq_none hmem]
  rfl

/-- A dropped credential is gone from memory, so the change shows. -/
theorem dropped_observe_ne (hmem : id ∈ e.credentials) : (dropped id e).observe ≠ e.observe := by
  intro h
  have herase : e.credentials.erase id = e.credentials := congrArg Observed.credentials h
  rw [← herase] at hmem
  simp at hmem

theorem observe_dropped (h : e.nextFails = false) :
    (dropped id e).observe = Observed.drop id e.observe :=
  observe_settle_of_succeeds _ (e := { e with credentials := e.credentials.erase id }) h

theorem deleteCredential_atomic_iff :
    Atomic codec crypto e (.deleteCredential id) ↔ e.nextFails = false ∨ id ∉ e.credentials := by
  by_cases hmem : id ∈ e.credentials
  · cases h : e.nextFails with
    | true =>
        rw [atomic_of_error codec crypto
          (Prog.run_bind_of_error (run_deleteCredential_fails id hmem h))]
        simp [dropped_observe_ne id hmem, hmem]
    | false =>
        rw [atomic_of_ok codec crypto
          (Prog.run_bind_of_ok (run_deleteCredential_succeeds id hmem h)), observe_dropped id h]
        simp only [true_or, iff_true, intended]
        exact (if_pos hmem).symm
  · rw [atomic_of_ok codec crypto (Prog.run_bind_of_ok (run_deleteCredential_absent id hmem))]
    simp only [intended]
    exact ⟨fun _ => .inr hmem, fun _ => (if_neg hmem).symm⟩

end

theorem writeLargeBlobs_atomic_iff (offset : Nat) (data : Bytes) (expectedLen : Option Nat) :
    Atomic codec crypto e (.writeLargeBlobs offset data expectedLen) ↔
      ∀ last, checkLargeBlobs e offset data expectedLen = .ok last →
        e.nextFails = false ∨ splicedBlobs e.largeBlobs offset data expectedLen = e.largeBlobs := by
  cases hcheck : checkLargeBlobs e offset data expectedLen with
  | error error =>
      have hrun : (perform codec crypto (.writeLargeBlobs offset data expectedLen)).run e =
          (.error error, e) := Prog.run_bind_of_error (by rw [Prog.run_check, hcheck])
      rw [atomic_of_error codec crypto hrun]
      simp
  | ok last =>
      let blobs := splicedBlobs e.largeBlobs offset data expectedLen
      let f : KvMap → KvMap := fun m => m.insert largeBlobsStorageKey blobs
      let e₁ : StorageEngine FaultyBackend := { e with largeBlobs := blobs }
      have hrun : (perform codec crypto (.writeLargeBlobs offset data expectedLen)).run e =
          (onBackend (FaultyBackend.call f)).run e₁ :=
        Prog.run_bind_of_ok (by rw [Prog.run_check, hcheck])
      cases h : e.nextFails with
      | true =>
          have h₁ : e₁.nextFails = true := h
          rw [atomic_of_error codec crypto (hrun.trans (run_call_fails f h₁)),
            observe_settle_of_fails f h₁]
          simp [observe, e₁, blobs]
      | false =>
          have h₁ : e₁.nextFails = false := h
          rw [atomic_of_ok codec crypto (hrun.trans (run_call_succeeds f h₁)),
            observe_settle_of_succeeds f h₁]
          simp only [true_or, implies_true, iff_true]
          rfl

theorem clearLargeBlobs_atomic_iff :
    Atomic codec crypto e .clearLargeBlobs ↔
      e.nextFails = false ∨ largeBlobsStorageKey ∉ e.held := by
  let f : KvMap → KvMap := fun m => m.erase largeBlobsStorageKey
  let e₁ : StorageEngine FaultyBackend := { e with largeBlobs := [] }
  have hrun : (perform codec crypto .clearLargeBlobs).run e = (.ok (), settle f e₁) :=
    run_deleteIgnored e₁ largeBlobsStorageKey
  rw [atomic_of_ok codec crypto hrun]
  cases h : e.nextFails with
  | true =>
      have h₁ : e₁.nextFails = true := h
      rw [observe_settle_of_fails f h₁]
      have hiff := (stored_eq_map_iff f h).trans erase_eq_self_iff
      simp only [intended, Bool.true_eq_false, false_or]
      rw [← hiff]
      constructor
      · exact fun hobs => congrArg Observed.stored hobs
      · intro hstored
        rw [Observed.mk.injEq]
        exact ⟨rfl, rfl, rfl, hstored⟩
  | false =>
      have h₁ : e₁.nextFails = false := h
      rw [observe_settle_of_succeeds f h₁]
      simp only [true_or, iff_true]
      rfl

/-! ## Reset -/

/-- The engine after its keys were deleted one by one. -/
def eraseAll : List String → StorageEngine FaultyBackend → StorageEngine FaultyBackend
  | [], e => e
  | key :: keys, e => eraseAll keys (settle (fun m => m.erase key) e)

theorem run_deleteAll (keys : List String) (e : StorageEngine FaultyBackend) :
    (deleteAll keys).run e = (.ok (), eraseAll keys e) := by
  induction keys generalizing e with
  | nil => rfl
  | cons key keys ih =>
      rw [deleteAll, Prog.run_bind_of_ok (run_deleteIgnored e key), ih]
      rfl

theorem held_settle_erase (key : String) (e : StorageEngine FaultyBackend) :
    (settle (fun m => m.erase key) e).held = if e.nextFails then e.held else e.held.erase key := by
  cases hb : e.backend with
  | none =>
      simp only [held, settle, hb, nextFails, plan, Option.map_none, Option.elim_none]
      simp [erase_eq_self_iff.mpr]
  | some b => simp only [held, settle, hb, nextFails, plan, Option.map_some, Option.elim_some]

theorem mem_eraseAll_of_not_mem {key : String} {keys : List String} (hkey : key ∉ keys)
    (h : key ∈ e.held) : key ∈ (eraseAll keys e).held := by
  induction keys generalizing e with
  | nil => exact h
  | cons k keys ih =>
      have hne : key ≠ k := fun heq => hkey (heq ▸ List.mem_cons_self)
      refine ih (fun hrest => hkey (List.mem_cons_of_mem k hrest)) ?_
      rw [held_settle_erase]
      split
      · exact h
      · rw [ExtTreeMap.mem_erase]
        exact ⟨fun heq => hne (LawfulEqCmp.eq_of_compare heq).symm, h⟩

/-- A key whose deletion fails survives. -/
theorem exists_survivor {keys : List String} (hnodup : keys.Nodup)
    (hheld : ∀ key ∈ keys, key ∈ e.held)
    (hfault : ¬∀ fails ∈ e.plan.take keys.length, fails = false) :
    ∃ key, key ∈ (eraseAll keys e).held := by
  induction keys generalizing e with
  | nil => simp at hfault
  | cons key keys ih =>
      obtain ⟨hkey, hnodup⟩ := List.nodup_cons.mp hnodup
      cases h : e.nextFails with
      | true =>
          have hkept : key ∈ (settle (fun m => m.erase key) e).held := by
            rw [held_settle_erase, if_pos h]
            exact hheld key List.mem_cons_self
          refine ⟨key, ?_⟩
          rw [eraseAll]
          exact mem_eraseAll_of_not_mem hkey hkept
      | false =>
          refine ih hnodup (fun k hk => ?_) (fun hall => hfault ?_)
          · rw [held_settle_erase, h, if_neg Bool.false_ne_true, ExtTreeMap.mem_erase]
            refine ⟨fun heq => hkey ?_, hheld k (List.mem_cons_of_mem key hk)⟩
            rw [LawfulEqCmp.eq_of_compare heq]
            exact hk
          · rw [settle_plan] at hall
            rw [nextFails] at h
            cases hplan : e.plan with
            | nil => simp
            | cons fails rest =>
                rw [hplan] at hall h
                intro x hx
                obtain rfl | hx := List.mem_cons.mp hx
                · exact h
                · exact hall x hx

/-- Without failures the keys are gone. -/
theorem not_mem_eraseAll {key : String} {keys : List String}
    (hplan : ∀ fails ∈ e.plan.take keys.length, fails = false)
    (h : key ∈ keys ∨ key ∉ e.held) : key ∉ (eraseAll keys e).held := by
  induction keys generalizing e with
  | nil => exact h.resolve_left List.not_mem_nil
  | cons k keys ih =>
      have hnext : e.nextFails = false := by
        rw [nextFails]
        cases hp : e.plan with
        | nil => rfl
        | cons fails rest => exact hplan fails (by rw [hp]; exact List.mem_cons_self)
      refine ih (fun fails hf => hplan fails ?_) ?_
      · rw [settle_plan] at hf
        cases hp : e.plan with
        | nil => simp [hp] at hf
        | cons x rest =>
            rw [hp] at hf
            exact List.mem_cons_of_mem x hf
      · rw [held_settle_erase, hnext, if_neg Bool.false_ne_true, ExtTreeMap.mem_erase]
        obtain h | h := h
        · obtain rfl | h := List.mem_cons.mp h
          · exact .inr fun hmem => hmem.1 compare_self
          · exact .inl h
        · exact .inr fun hmem => h hmem.2

theorem observe_eraseAll_stored (keys : List String) (e : StorageEngine FaultyBackend) :
    (eraseAll keys e).observe.stored = e.observe.stored.map fun _ => (eraseAll keys e).held := by
  induction keys generalizing e with
  | nil => cases hb : e.backend <;> simp [eraseAll, observe, held, hb]
  | cons key keys ih =>
      rw [eraseAll, ih]
      cases hb : e.backend <;> simp [observe, settle, hb]

theorem eraseAll_largeBlobs (keys : List String) (e : StorageEngine FaultyBackend) :
    (eraseAll keys e).largeBlobs = e.largeBlobs := by
  induction keys generalizing e with
  | nil => rfl
  | cons key keys ih => exact ih _

theorem knownKeys_eq : e.knownKeys = e.held.keys := by
  cases hb : e.backend with
  | none => simp [knownKeys, held, hb]
  | some b =>
      simp only [knownKeys, held, hb, Option.elim_some]
      rfl

/-- `clear` leaves the large blobs in memory, and discards what the backend says. -/
theorem clear_atomic_iff :
    Atomic codec crypto e .clear ↔
      e.largeBlobs = [] ∧ ∀ fails ∈ e.plan.take e.held.keys.length, fails = false := by
  have hrun : (perform codec crypto .clear).run e =
      (.ok (), { eraseAll e.held.keys e with credentials := ∅, kvStore := ∅ }) := by
    rw [perform, clear, Prog.run_read_bind, knownKeys_eq,
      Prog.run_bind_of_ok (run_deleteAll e.held.keys e)]
    rfl
  have hobs : ({ eraseAll e.held.keys e with credentials := ∅, kvStore := ∅ } :
      StorageEngine FaultyBackend).observe =
      ⟨∅, ∅, e.largeBlobs, e.observe.stored.map fun _ => (eraseAll e.held.keys e).held⟩ := by
    rw [← observe_eraseAll_stored, ← eraseAll_largeBlobs e.held.keys e]
    rfl
  rw [atomic_of_ok codec crypto hrun, hobs]
  constructor
  · intro heq
    refine ⟨congrArg Observed.largeBlobs heq, ?_⟩
    by_contra hfault
    obtain ⟨key, hkey⟩ := exists_survivor ExtTreeMap.nodup_keys
      (fun k hk => ExtTreeMap.mem_keys.mp hk) hfault
    have hstored := congrArg Observed.stored heq
    cases hb : e.backend with
    | none => simp [plan, hb] at hfault
    | some b =>
        simp only [intended, observe, hb, Option.map_some, Option.some.injEq] at hstored
        rw [hstored] at hkey
        simp at hkey
  · rintro ⟨hblobs, hplan⟩
    have hempty : (eraseAll e.held.keys e).held = ∅ := by
      rw [ExtTreeMap.eq_empty_iff_forall_not_mem]
      intro key
      refine not_mem_eraseAll hplan ?_
      rw [ExtTreeMap.mem_keys]
      exact Decidable.em _
    rw [hempty, hblobs]
    rfl

/-! ## Storing a credential -/

theorem mem_of_evicted (hkeyed : Keyed e) {s : StoredCredential} (h : e.evicted = some s) :
    s.credential.credentialId ∈ e.credentials :=
  ExtTreeMap.mem_iff_isSome_getElem?.mpr (by rw [credentials_of_evictee hkeyed h]; rfl)

theorem run_makeRoom_some {s : StoredCredential} (h : e.evicted = some s) :
    (makeRoom : Prog (StorageEngine FaultyBackend) EngineError Unit).run e =
      (void (deleteCredential s.credential.credentialId)).run e := run_makeRoom_of_some h

section

variable {credential : Credential} {nonce : Bytes}

theorem run_insertCredential_unsealed {error : EngineError}
    (h : atRest crypto credential nonce = .error error) :
    (insertCredential codec crypto credential nonce).run e = (.error error, e) :=
  Prog.run_bind_of_error (by rw [Prog.run_check, h])

theorem run_insertCredential_fails {s : StoredCredential}
    (h : atRest crypto credential nonce = .ok s) (hfails : e.nextFails = true) :
    ∃ error e', (insertCredential codec crypto credential nonce).run e = (.error error, e') ∧
      e'.observe = e.observe := by
  let counters := e.wearCounters.insert "credentials" ((e.wearCounters["credentials"]?).getD 0 + 1)
  let e₁ : StorageEngine FaultyBackend := { e with wearCounters := counters }
  have h₁ : e₁.nextFails = true := hfails
  let f : KvMap → KvMap := fun m => m.insert (credKey s.credential.credentialId) (codec.encode s)
  refine ⟨.storage (.backendError "call failed"), settle f e₁, ?_, observe_settle_of_fails f h₁⟩
  rw [insertCredential, Prog.run_bind_of_ok (by rw [Prog.run_check, h]), incrementWearCounter,
    Prog.run_update_bind]
  exact Prog.run_bind_of_error (run_call_fails f h₁)

theorem run_insertCredential_succeeds {s : StoredCredential}
    (h : atRest crypto credential nonce = .ok s) (hok : e.nextFails = false) :
    ∃ e', (insertCredential codec crypto credential nonce).run e = (.ok (), e') ∧
      e'.observe = Observed.put codec s.credential.credentialId s e.observe := by
  let counters := e.wearCounters.insert "credentials" ((e.wearCounters["credentials"]?).getD 0 + 1)
  let e₁ : StorageEngine FaultyBackend := { e with wearCounters := counters }
  let f : KvMap → KvMap := fun m => m.insert (credKey s.credential.credentialId) (codec.encode s)
  have h₁ : e₁.nextFails = false := hok
  have hobs := observe_settle_of_succeeds f h₁
  refine ⟨{ settle f e₁ with
    credentials := e.credentials.insert s.credential.credentialId s }, ?_, ?_⟩
  · rw [insertCredential, Prog.run_bind_of_ok (by rw [Prog.run_check, h])]
    exact Prog.run_bind_of_ok (run_call_succeeds f h₁)
  · exact congrArg (fun o : Observed =>
      { o with credentials := o.credentials.insert s.credential.credentialId s }) hobs

/-- Without an eviction nothing is touched before the backend has accepted the record. -/
theorem storeCredential_atomic (h : e.evicted = none) :
    Atomic codec crypto e (.storeCredential credential nonce) := by
  have hroom : (perform codec crypto (.storeCredential credential nonce)).run e =
      (insertCredential codec crypto credential nonce).run e :=
    Prog.run_bind_of_ok (run_makeRoom_of_none h)
  cases hseal : atRest crypto credential nonce with
  | error error =>
      rw [atomic_of_error codec crypto
        (hroom.trans (run_insertCredential_unsealed codec crypto hseal))]
  | ok s =>
      cases hnext : e.nextFails with
      | true =>
          obtain ⟨error, e', hrun, hobs⟩ := run_insertCredential_fails codec crypto hseal hnext
          exact (atomic_of_error codec crypto (hroom.trans hrun)).mpr hobs
      | false =>
          obtain ⟨e', hrun, hobs⟩ := run_insertCredential_succeeds codec crypto hseal hnext
          rw [atomic_of_ok codec crypto (hroom.trans hrun), hobs]
          simp only [intended, h, hseal, Option.elim_none]

/-- An eviction happens before the record is encrypted and written. -/
theorem storeCredential_atomic_iff (hkeyed : Keyed e) :
    Atomic codec crypto e (.storeCredential credential nonce) ↔
      e.evicted = none ∨
        (e.nextFails = false ∧ (e.plan.tail.headD false) = false ∧
          ∃ s, atRest crypto credential nonce = .ok s) := by
  cases hev : e.evicted with
  | none => simp [storeCredential_atomic codec crypto hev]
  | some old =>
      have hmem := mem_of_evicted hkeyed hev
      have hne := dropped_observe_ne _ hmem
      simp only [reduceCtorEq, false_or]
      cases hnext : e.nextFails with
      | true =>
          have hrun : (perform codec crypto (.storeCredential credential nonce)).run e =
              (.error (.storage (.backendError "call failed")),
                dropped old.credential.credentialId e) :=
            Prog.run_bind_of_error ((run_makeRoom_some hev).trans
              (Prog.run_bind_of_error (run_deleteCredential_fails _ hmem hnext)))
          rw [atomic_of_error codec crypto hrun]
          simp [hne]
      | false =>
          have hroom : (perform codec crypto (.storeCredential credential nonce)).run e =
              (insertCredential codec crypto credential nonce).run
                (dropped old.credential.credentialId e) :=
            Prog.run_bind_of_ok ((run_makeRoom_some hev).trans
              (Prog.run_bind_of_ok (run_deleteCredential_succeeds _ hmem hnext)))
          have hplan : (dropped old.credential.credentialId e).nextFails =
              e.plan.tail.headD false := by
            rw [nextFails, dropped, settle_plan]
            rfl
          cases hseal : atRest crypto credential nonce with
          | error error =>
              rw [atomic_of_error codec crypto
                (hroom.trans (run_insertCredential_unsealed codec crypto hseal))]
              simp [hne]
          | ok s =>
              cases hsecond : e.plan.tail.headD false with
              | true =>
                  obtain ⟨error, e', hrun, hobs⟩ :=
                    run_insertCredential_fails codec crypto hseal (hplan.trans hsecond)
                  rw [atomic_of_error codec crypto (hroom.trans hrun), hobs]
                  simp [hne]
              | false =>
                  obtain ⟨e', hrun, hobs⟩ :=
                    run_insertCredential_succeeds codec crypto hseal (hplan.trans hsecond)
                  rw [atomic_of_ok codec crypto (hroom.trans hrun), hobs,
                    observe_dropped _ hnext]
                  simp [intended, hev, hseal]

end

end

/-! ## Reachable engines -/

/-- Plan the faults of the calls to come. -/
def withFaults (faults : List Bool) (e : StorageEngine FaultyBackend) :
    StorageEngine FaultyBackend :=
  { e with backend := e.backend.map fun b => { b with faults := faults } }

/-- The engines that operations lead to, from memory or from any backend, with any calls failing
on the way. -/
inductive Reachable : StorageEngine FaultyBackend → Prop
  | inMemory : Reachable new
  | opened (b : FaultyBackend) : Reachable (withBackend codec b)
  | limited {e : StorageEngine FaultyBackend} (max : Nat) (before : Reachable e) :
      Reachable { e with maxCredentialCount := some max }
  | performed {e : StorageEngine FaultyBackend} (op : EngineOp) (faults : List Bool)
      (before : Reachable e) :
      Reachable ((perform codec crypto op).run (withFaults faults e)).2

section

variable {codec crypto}

theorem perform_eq_runOp (op : EngineOp) : perform codec crypto op = runOp codec crypto op := by
  cases op <;> rfl

theorem Reachable.keyed {e : StorageEngine FaultyBackend} (h : Reachable codec crypto e) :
    Keyed e := by
  induction h with
  | inMemory => exact keyed_empty none
  | opened b => exact keyed_withBackend codec b
  | limited max before ih => exact ih
  | performed op faults before ih =>
      rw [perform_eq_runOp]
      exact keyed_runOp op (withFaults faults _) ih

end

/-- **Storage errors.** On every reachable engine, whichever calls on the backend fail, an
operation is atomic exactly if it is safe. -/
theorem atomic_iff_safe (e : StorageEngine FaultyBackend) (h : Reachable codec crypto e)
    (op : EngineOp) (faults : List Bool) :
    Atomic codec crypto (withFaults faults e) op ↔ Safe crypto (withFaults faults e) op := by
  have hkeyed : Keyed (withFaults faults e) := h.keyed
  cases op with
  | store key value => exact iff_of_true (store_atomic codec crypto key value) trivial
  | delete key => exact delete_atomic_iff codec crypto key
  | storeCredential credential nonce => exact storeCredential_atomic_iff codec crypto hkeyed
  | updateSignCount id signCount => exact updateSignCount_atomic_iff codec crypto id signCount
  | deleteCredential id => exact deleteCredential_atomic_iff codec crypto id
  | updateUserInfo id userName userDisplayName =>
      exact updateUserInfo_atomic_iff codec crypto id userName userDisplayName
  | writeLargeBlobs offset data expectedLen =>
      exact writeLargeBlobs_atomic_iff codec crypto offset data expectedLen
  | clear => exact clear_atomic_iff codec crypto
  | clearLargeBlobs => exact clearLargeBlobs_atomic_iff codec crypto

/-! ## A failing delete -/

/-- An engine opened on a backend that holds one entry. -/
def oneEntry : StorageEngine FaultyBackend :=
  withBackend unusedCodec ⟨(∅ : KvMap).insert "pin_hash" [1], []⟩

/-- A `store` whose write fails changes nothing. -/
theorem atomic_iff_safe_store :
    Atomic unusedCodec unusedCrypto (withFaults [true] oneEntry) (.store "pin_hash" [2]) :=
  (atomic_iff_safe unusedCodec unusedCrypto oneEntry (.opened _) (.store "pin_hash" [2])
    [true]).mpr trivial

/-- A `delete` that the backend refuses reports success, and the entry is still there. -/
theorem failed_delete_reports_success :
    ¬∀ e, Reachable unusedCodec unusedCrypto e → ∀ op faults,
      Atomic unusedCodec unusedCrypto (withFaults faults e) op := by
  intro hall
  have hatomic := hall oneEntry (.opened _) (.delete "pin_hash") [true]
  rw [delete_atomic_iff] at hatomic
  revert hatomic
  decide +kernel

end StorageEngine

end OpenKey
