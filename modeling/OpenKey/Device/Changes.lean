import OpenKey.Device.Persistence
import OpenKey.Device.ResidentKey

/-!
# What a command persists

A command of the PIV or the OpenPGP applet makes at most one change: it puts a state in memory,
persists it, and goes back to some state where that fails. `Change` is such a change, and `Outcome`
how a command ends that is to make it.

**Failures (`Outcome.rollsBack_iff`).** Where the storage refuses the state, memory and storage are
as before exactly if the state that the command goes back to is the one it found.
-/

namespace OpenKey

open Command

set_option autoImplicit false

/-- A change of an applet. -/
structure Change (S V : Type) where
  /-- The state to persist. -/
  state : S
  /-- The draws before it is sealed. -/
  draws : Nat
  /-- The session once it is persisted, and the answer. -/
  session : V
  answer : Except Fault ResponseData
  /-- The state and the session where it is not. -/
  kept : S
  dropped : V

namespace Change

variable {β S V : Type} [StorageBackend β]

/-- The memory of the applet once the change is persisted. -/
def applied (memory : Memory S V) : Option (Change S V) → Memory S V
  | none => memory
  | some change => ⟨some change.state, change.session⟩

/-- The storage takes the state of a change. -/
def taken (crypto : AppletCrypto) (format : AppletFormat S) (h : Host β S V)
    (change : Change S V) : Bool :=
  Host.accepts crypto format { h with rng := fun n => h.rng (n + change.draws) } change.state

/-- How a command ends that is to make this change. -/
inductive Outcome [FallibleBackend β] (crypto : AppletCrypto) (format : AppletFormat S)
    (h g : Host β S V) : Option (Change S V) → Except Fault ResponseData → Prop
  | stays (result : Except Fault ResponseData) (memory : g.memory = h.memory)
      (saved : g.saved = h.saved) (storage : g.storage = h.storage) :
      Outcome crypto format h g none result
  | written (change : Change S V) (taken : change.taken crypto format h = true)
      (memory : g.memory = ⟨some change.state, change.session⟩)
      (saved : g.saved = some change.state)
      (held : ∃ blob entropy, g.storage.heldEntry format.storageKey = some blob ∧
        Host.sealState crypto format change.state entropy = .ok blob) :
      Outcome crypto format h g (some change) change.answer
  | failed (change : Change S V) (refused : change.taken crypto format h = false)
      (memory : g.memory = ⟨some change.kept, change.dropped⟩) (saved : g.saved = h.saved)
      (held : g.storage.heldEntry format.storageKey = h.storage.heldEntry format.storageKey) :
      Outcome crypto format h g (some change) (.error (.status format.failure))

/-- An applet that is about to persist the state of a change. -/
structure Poised (change : Change S V) (h g : Host β S V) : Prop where
  memory : g.memory = ⟨some change.state, change.dropped⟩
  storage : g.storage = h.storage
  saved : g.saved = h.saved
  rng : g.rng 0 = h.rng change.draws

theorem Poised.accepts_eq {change : Change S V} {h g : Host β S V} (hp : Poised change h g)
    (crypto : AppletCrypto) (format : AppletFormat S) :
    Host.accepts crypto format g change.state = change.taken crypto format h := by
  refine Host.accepts_congr (h := { h with rng := fun n => h.rng (n + change.draws) }) hp.storage ?_
    change.state
  show g.rng 0 = h.rng (0 + change.draws)
  rw [hp.rng, Nat.zero_add]

section

variable [FallibleBackend β] {crypto : AppletCrypto} {format : AppletFormat S}
  {h g t t' : Host β S V}
  {change : Change S V} (hp : Poised change h g)

include hp

/-- The state is persisted; the session may change afterwards. -/
theorem Poised.written (ht : Host.Written crypto format change.state g t)
    (hmem : t'.memory = ⟨some change.state, change.session⟩) (hsaved : t'.saved = t.saved)
    (hstorage : t'.storage = t.storage) :
    Outcome crypto format h t' (some change) change.answer := by
  obtain ⟨blob, hheld, hseal⟩ := ht.held
  refine .written change ?_ hmem (hsaved.trans ht.saved) ⟨blob, _, by rw [hstorage, hheld], hseal⟩
  exact (hp.accepts_eq crypto format).symm.trans ht.accepted

/-- The state is not persisted; the command may go back to another one. -/
theorem Poised.unwritten (ht : Host.Unwritten crypto format change.state g t)
    (hmem : t'.memory = ⟨some change.kept, change.dropped⟩) (hsaved : t'.saved = t.saved)
    (hstorage : t'.storage = t.storage) :
    Outcome crypto format h t' (some change) (.error (.status format.failure)) := by
  refine .failed change ?_ hmem ((hsaved.trans ht.saved).trans hp.saved) ?_
  · exact (hp.accepts_eq crypto format).symm.trans ht.refused
  · rw [hstorage, ht.held, hp.storage]

omit [StorageBackend β] [FallibleBackend β] in
theorem Poised.backend (hb : h.storage.backend.isSome) : g.storage.backend.isSome := by
  rw [hp.storage]
  exact hb

/-- Persisting, with a change of the state in memory after a failure. -/
theorem ends_persistOr (hb : h.storage.backend.isSome) {rollback : S → S}
    (hkept : change.kept = rollback change.state) (hsession : change.session = change.dropped)
    {response : ResponseData} (hanswer : change.answer = .ok response) :
    Host.Ends crypto format
      (do persistOr rollback; pure response : Command S V ResponseData) g fun r t =>
        Outcome crypto format h t (some change) r := by
  have hmem : g.memory.state = some change.state := congrArg Memory.state hp.memory
  refine .bind (.tryPersist hmem (hp.backend hb) (fun t ht => ?_) fun t ht => ?_)
  · have hwritten : Outcome crypto format h t (some change) change.answer :=
      hp.written ht (by rw [ht.memory, hp.memory, hsession]) rfl rfl
    rw [hanswer] at hwritten
    exact .pure (.pure hwritten)
  · have hloaded : t.memory.state = some change.state := by
      rw [ht.memory]
      exact hmem
    refine .bind (.tryLoad hloaded (.loadedState hloaded ?_))
    refine hp.unwritten ht ?_ rfl rfl
    rw [hkept]
    exact congrArg (fun memory => Memory.mk (some (rollback change.state)) memory.session)
      (ht.memory.trans hp.memory)

end

/-! ## Keys -/

section

variable {γ : Type} {crypto : AppletCrypto} {format : AppletFormat S} {h : Host β S V}
  {Q : Except Fault γ → Host β S V → Prop}

theorem ends_generateKey {alg : KeyAlg} {f : ResidentKey → Command S V γ}
    (hf : ∀ key, generatedKey crypto (h.rng 0) alg = some key →
      Host.Ends crypto format (f key) { h with rng := fun n => h.rng (n + 1) } Q)
    (hQ : generatedKey crypto (h.rng 0) alg = none →
      Q (.error (.status swConditionsNotSatisfied)) { h with rng := fun n => h.rng (n + 1) }) :
    Host.Ends crypto format (generateKey crypto alg >>= f) h Q := by
  refine .bind (.draw ?_)
  cases hkey : generatedKey crypto (h.rng 0) alg with
  | none => exact hQ hkey
  | some key => exact hf key hkey

/-- A signature changes nothing but the draws to come. -/
theorem ends_signWith {key : ResidentKey} {data : Bytes} {f : Bytes → Command S V γ}
    (hf : ∀ (g : Host β S V) signature, g.memory = h.memory → g.saved = h.saved →
      g.storage = h.storage → Host.Ends crypto format (f signature) g Q)
    (hQ : ∀ g : Host β S V, g.memory = h.memory → g.saved = h.saved → g.storage = h.storage →
      Q (.error (.status swConditionsNotSatisfied)) g) :
    Host.Ends crypto format (signWith crypto key data >>= f) h Q := by
  refine .bind ?_
  unfold signWith
  split
  · cases (crypto.sign data key.privKey).toOption with
    | none => exact hQ h rfl rfl rfl
    | some signature => exact hf h signature rfl rfl rfl
  · refine .draw ?_
    cases (crypto.signP256 (h.rng 0) key.privKey data).toOption with
    | none => exact hQ _ rfl rfl rfl
    | some signature => exact hf _ signature rfl rfl rfl

end

/-! ## Failures -/

section

variable [AtomicBackend β] {crypto : AppletCrypto} {format : AppletFormat S}

/-- The state in memory is the one that the medium holds. -/
structure Synced (crypto : AppletCrypto) (format : AppletFormat S) (state : S)
    (h : Host β S V) : Prop where
  durable : h.storage.Durable
  memory : h.memory.state = some state
  stored : Host.storedState crypto format h.storage = some (state, false)

/-- Where the storage refuses what the command persists, it ends in an error, and memory and storage
hold the state from before. -/
def RollsBack (crypto : AppletCrypto) (format : AppletFormat S) (state : S) (h g : Host β S V)
    (target : Option (Change S V)) (result : Except Fault ResponseData) : Prop :=
  ∀ change ∈ target, change.taken crypto format h = false →
    (∃ sw, result = .error (.status sw)) ∧ Synced crypto format state g

theorem Outcome.synced (haead : AeadSound crypto.prims) {h g : Host β S V}
    (hd : g.storage.Durable) {change : Change S V}
    {result : Except Fault ResponseData} (htaken : change.taken crypto format h = true)
    (hout : Outcome crypto format h g (some change) result) :
    Synced crypto format change.state g := by
  cases hout with
  | written _ taken memory saved held =>
      obtain ⟨blob, entropy, hheld, hseal⟩ := held
      exact ⟨hd, congrArg Memory.state memory, Host.storedState_of_held haead hd hheld hseal⟩
  | failed _ refused memory saved held =>
      rw [htaken] at refused
      cases refused

theorem Outcome.rollsBack_iff {state : S} {h g : Host β S V}
    (hsync : Synced crypto format state h) (hd : g.storage.Durable)
    {target : Option (Change S V)} {result : Except Fault ResponseData}
    (hout : Outcome crypto format h g target result) :
    RollsBack crypto format state h g target result ↔
      ∀ change ∈ target, change.taken crypto format h = true ∨ change.kept = state := by
  cases hout with
  | stays _ memory saved storage =>
      exact iff_of_true (fun _ h => nomatch h) fun _ h => nomatch h
  | written change taken memory saved held =>
      refine iff_of_true (fun other hother hrefused => ?_) fun other hother => ?_
      · obtain rfl := Option.some.inj hother
        rw [taken] at hrefused
        cases hrefused
      · obtain rfl := Option.some.inj hother
        exact .inl taken
  | failed change refused memory saved held =>
      have hstored : Host.storedState crypto format g.storage = some (state, false) :=
        (Host.storedState_of_heldEntry hsync.durable hd held).trans hsync.stored
      constructor
      · intro hback other hother
        obtain rfl := Option.some.inj hother
        obtain ⟨-, -, hmem, -⟩ := hback change rfl refused
        rw [memory] at hmem
        exact .inr (Option.some.inj hmem)
      · intro hkept other hother _
        obtain rfl := Option.some.inj hother
        refine ⟨⟨_, rfl⟩, hd, ?_, hstored⟩
        obtain htaken | hkept := hkept change rfl
        · rw [refused] at htaken
          cases htaken
        · rw [memory, hkept]

end

end Change

end OpenKey
