import OpenKey.Device.Card
import OpenKey.Device.Changes

/-!
# Runs of one applet

One applet of the card on its storage, as the router drives it: SELECTs, commands, and reboots,
which build it again over what the storage then holds, under any master key.

**Without failures (`Machine.serving_step`).** Over a storage that does not fail, and with an AEAD
that seals every state, memory and storage agree after every event. Memory then moves by
`Account.next` alone: a command makes its change, a reboot under the same key keeps the state, and
one under another key makes a factory state.
-/

namespace OpenKey

open Change (Synced)
open Command (ensureLoaded)

set_option autoImplicit false

/-- A storage that does not fail takes every state that can be sealed. -/
theorem Host.accepts_lawful {β S V : Type} [StorageBackend β] [LawfulBackend β]
    {crypto : AppletCrypto} (htotal : AeadTotal crypto.prims) {format : AppletFormat S}
    (h : Host β S V) {state : S} (hlen : (format.serialize state).length < 2 ^ 36) :
    Host.accepts crypto format h state = true := by
  have hnonce : ((h.rng 0).bytes 12).length = 12 := Entropy.length_bytes _ 12
  obtain ⟨ciphertext, hseal⟩ :=
    Option.isSome_iff_exists.mp (htotal.seal_isSome crypto.length_key hnonce hlen)
  unfold Host.accepts Host.sealState CryptoEngine.encrypt
  rw [if_neg (not_not.mpr hnonce), hseal]
  simp only [StorageEngine.run_store]
  rfl

namespace AppletName

/-- A master key. -/
abbrev MasterKey := { key : Bytes // key.length = 32 }

/-- What happens to an applet. -/
inductive Event
  | select
  | command (apdu : Apdu)
  | reboot (key : MasterKey) (rng : Nat → Entropy)

/-- An applet with the crypto engine of its boot. -/
structure Machine (β : Type) (n : AppletName) where
  crypto : AppletCrypto
  host : Host β n.State n.Session

/-- The engine under another master key. -/
def rekeyed (crypto : AppletCrypto) (key : MasterKey) : AppletCrypto :=
  { crypto with key := key.1, length_key := key.2 }

namespace Machine

variable {β : Type} [StorageBackend β] {n : AppletName} (patience : Nat)
  (codec : Codec StoredCredential)

/-- `new` of the applet. -/
def boot (crypto : AppletCrypto) (storage : StorageEngine β) (rng : Nat → Entropy) : Machine β n :=
  ⟨crypto, ((Host.ensureLoaded crypto (n.format patience)).run
    ⟨storage, rng, ⟨none, n.fresh⟩, none⟩).2⟩

/-- The answer to a command, and the applet after it. -/
def respond (m : Machine β n) (apdu : Apdu) :
    Except Fault ResponseData × Host β n.State n.Session :=
  (Host.perform m.crypto (n.format patience) (n.process m.crypto apdu)).run m.host

/-- The storage over what the medium holds. -/
def reopened (m : Machine β n) : StorageEngine β :=
  m.host.storage.backend.elim .new (StorageEngine.withBackend codec)

/-- One event; a SELECT that succeeds is answered with `select_response`. -/
def step (m : Machine β n) : Event → Machine β n
  | .select => ⟨m.crypto, ((Host.perform m.crypto (n.format patience)
      (n.select >>= fun _ => n.selectResponse)).run m.host).2⟩
  | .command apdu => ⟨m.crypto, (m.respond patience apdu).2⟩
  | .reboot key rng => boot patience (rekeyed m.crypto key) (m.reopened codec) rng

/-- The events of a run, one after the other. -/
def run (m : Machine β n) (events : List Event) : Machine β n :=
  events.foldl (step patience codec) m

/-- The events of a run, with the machine that each of them found. -/
def trace (m : Machine β n) : List Event → List (Machine β n × Event)
  | [] => []
  | e :: events => (m, e) :: trace (m.step patience codec e) events

omit [StorageBackend β] in
/-- A reboot is under the key of the boot before. -/
def KeepsKey (m : Machine β n) : Event → Prop
  | .reboot key _ => key.1 = m.crypto.key
  | _ => True

instance (m : Machine β n) (e : Event) : Decidable (m.KeepsKey e) := by
  cases e <;> unfold KeepsKey <;> infer_instance

end Machine

/-- What is known of an applet: the change that each command makes, and that nothing else is
persisted once the applet is loaded. -/
structure Account (n : AppletName) (patience : Nat) where
  change : AppletCrypto → n.State → n.Session → Entropy → Apdu → Option (Change n.State n.Session)
  /-- The factory state. -/
  made : n.State
  factory : (n.format patience).factory = pure made
  length : ∀ state, ((n.format patience).serialize state).length < 2 ^ 36
  process : ∀ {β : Type} [StorageBackend β] [FallibleBackend β] {crypto : AppletCrypto}
    {state : n.State} {h : Host β n.State n.Session}, h.memory.state = some state →
    h.storage.backend.isSome → ∀ apdu,
    Host.Ends crypto (n.format patience) (n.process crypto apdu) h fun r g =>
      Change.Outcome crypto (n.format patience) h g
        (change crypto state h.memory.session (h.rng 0) apdu) r
  select : ∀ {β : Type} [StorageBackend β] {crypto : AppletCrypto} {state : n.State}
    {h : Host β n.State n.Session}, h.memory.state = some state →
    Host.Ends crypto (n.format patience) (n.select >>= fun _ => n.selectResponse) h fun _ g => g = h

namespace Account

variable {n : AppletName} {patience : Nat} (account : Account n patience)

/-- What an event makes of the memory of an applet whose storage does not fail. -/
def next (crypto : AppletCrypto) (memory : Memory n.State n.Session) (entropy : Entropy) :
    Event → Memory n.State n.Session
  | .select => memory
  | .command apdu => Change.applied memory
      (memory.state.bind fun state => account.change crypto state memory.session entropy apdu)
  | .reboot key _ => ⟨if key.1 = crypto.key then memory.state else some account.made, n.fresh⟩

end Account

namespace Machine

variable {β : Type} [StorageBackend β] [LawfulBackend β] {n : AppletName} {patience : Nat}
  (account : Account n patience) (codec : Codec StoredCredential)

/-- A boot takes the state that it finds, or makes a factory state; both are then on the medium. -/
theorem synced_boot {crypto : AppletCrypto} (haead : AeadSound crypto.prims)
    (htotal : AeadTotal crypto.prims) (b : β) (rng : Nat → Entropy) : ∃ state,
    (boot patience crypto (.withBackend codec b) rng : Machine β n).host.memory =
      ⟨some state, n.fresh⟩ ∧
    Synced crypto (n.format patience) state
      (boot patience crypto (.withBackend codec b) rng : Machine β n).host ∧
    (∀ found, Host.storedState crypto (n.format patience) (.withBackend codec b) = some found →
      state = found.1) ∧
    (Host.storedState crypto (n.format patience) (.withBackend codec b) = none →
      state = account.made) := by
  have hd : (StorageEngine.withBackend codec b).Durable := StorageEngine.durable_withBackend codec b
  have hd' : (boot patience crypto (.withBackend codec b) rng : Machine β n).host.storage.Durable :=
    (Host.keeps_ensureLoaded (StorageEngine.confined_store _)
      ⟨StorageEngine.withBackend codec b, rng, ⟨none, n.fresh⟩, none⟩ hd).1
  have hmade : ((n.format patience).factory.run rng).1 = .ok account.made := by
    rw [account.factory]
    rfl
  obtain ⟨state, hmemory, -, hloads⟩ : ∃ state,
      (boot patience crypto (.withBackend codec b) rng : Machine β n).host.memory = _ ∧ _ ∧
        Host.Loads crypto (n.format patience) state _ _ :=
    Host.ensureLoaded_ends (h := ⟨.withBackend codec b, rng, ⟨none, n.fresh⟩, none⟩)
      hd.backend rfl hmade
  have hsource : Host.Made crypto (n.format patience) state
      ⟨.withBackend codec b, rng, ⟨none, n.fresh⟩, none⟩ →
      (∀ found, Host.storedState crypto (n.format patience) (.withBackend codec b) = some found →
        state = found.1) ∧
      (Host.storedState crypto (n.format patience) (.withBackend codec b) = none →
        state = account.made) := by
    rintro (hold | ⟨hnone, hfactory⟩)
    · simp only at hold
      rw [hold]
      exact ⟨fun found h => by cases h; rfl, fun h => nomatch h⟩
    · simp only at hnone
      rw [hnone]
      exact ⟨(fun found h => nomatch h), fun _ => Except.ok.inj (hfactory.symm.trans hmade)⟩
  cases hloads with
  | found hstored hsaved hstorage =>
      simp only at hstored
      refine ⟨state, hmemory, ⟨hd', congrArg Memory.state hmemory, ?_⟩, ?_⟩
      · exact (congrArg (Host.storedState crypto (n.format patience)) hstorage).trans hstored
      · rw [hstored]
        exact ⟨fun found h => by cases h; rfl, fun h => nomatch h⟩
  | written made hsaved held =>
      obtain ⟨blob, entropy, hheld, hseal⟩ := held
      exact ⟨state, hmemory, ⟨hd', congrArg Memory.state hmemory,
        Host.storedState_of_held haead hd' hheld hseal⟩, hsource made⟩
  | refused made refusal hsaved held =>
      obtain ⟨t, -, hrefused⟩ := refusal
      rw [Host.accepts_lawful htotal t (account.length state)] at hrefused
      cases hrefused

/-- Memory and storage of the applet agree. -/
def Serving (patience : Nat) (m : Machine β n) : Prop :=
  ∃ state, Synced m.crypto (n.format patience) state m.host

omit [LawfulBackend β] in
theorem prims_step (m : Machine β n) (e : Event) :
    (m.step patience codec e).crypto.prims = m.crypto.prims := by
  cases e <;> rfl

section

variable {m : Machine β n} (haead : AeadSound m.crypto.prims) (htotal : AeadTotal m.crypto.prims)

include haead htotal

theorem serving_reboot (hserving : m.Serving patience) (key : MasterKey)
    (rng : Nat → Entropy) :
    (m.step patience codec (.reboot key rng)).Serving patience ∧
      (m.step patience codec (.reboot key rng)).host.memory =
        account.next m.crypto m.host.memory (m.host.rng 0) (.reboot key rng) := by
  obtain ⟨state, hd, hmem, hstored⟩ := hserving
  obtain ⟨b, hb⟩ := Option.isSome_iff_exists.mp hd.backend
  have hreopened : m.reopened codec = .withBackend codec b := by
    unfold reopened
    rw [hb]
    rfl
  have hsame : ∀ crypto : AppletCrypto,
      Host.storedState crypto (n.format patience) (.withBackend codec b) =
        Host.storedState crypto (n.format patience) m.host.storage := fun crypto =>
    Host.storedState_congr (StorageEngine.value_reopened codec hd hb _)
  have haead' : AeadSound (rekeyed m.crypto key).prims := haead
  obtain ⟨new, hmemory, hsync, hfound, hnone⟩ := synced_boot account codec haead' htotal b rng
  have hsource : some new = if key.1 = m.crypto.key then m.host.memory.state
      else some account.made := by
    split
    · next hkey =>
        have hcrypto : rekeyed m.crypto key = m.crypto := by
          unfold rekeyed
          simp only [hkey]
        have hfound' := hfound (state, false)
        rw [hcrypto, hsame] at hfound'
        rw [hmem, hfound' hstored]
    · next hkey =>
        have hlost : Host.storedState (rekeyed m.crypto key) (n.format patience) m.host.storage =
            none := Host.storedState_other haead
              (rfl : (rekeyed m.crypto key).prims = m.crypto.prims) hkey hstored
        rw [hnone ((hsame _).trans hlost)]
  unfold step
  rw [hreopened]
  exact ⟨⟨new, hsync⟩, hmemory.trans (congrArg (Memory.mk · n.fresh) hsource)⟩

/-- An event keeps memory and storage in agreement, and moves memory by `next`. -/
theorem serving_step (hserving : m.Serving patience) (e : Event) :
    (m.step patience codec e).Serving patience ∧
      (m.step patience codec e).host.memory =
        account.next m.crypto m.host.memory (m.host.rng 0) e := by
  cases e with
  | select =>
      obtain ⟨state, hsync⟩ := hserving
      have hselect : (m.step patience codec .select).host = m.host := account.select hsync.memory
      refine ⟨⟨state, ?_⟩, congrArg Host.memory hselect⟩
      rw [hselect]
      exact hsync
  | command apdu =>
      obtain ⟨state, hsync⟩ := hserving
      have hd : (m.respond patience apdu).2.storage.Durable :=
        (Host.keeps_command (StorageEngine.confined_store _) (n.process m.crypto apdu) m.host
          hsync.durable).1
      have hout : Change.Outcome m.crypto (n.format patience) m.host (m.respond patience apdu).2
          (account.change m.crypto state m.host.memory.session (m.host.rng 0) apdu)
          (m.respond patience apdu).1 := account.process hsync.memory hsync.durable.backend apdu
      have hnext : account.next m.crypto m.host.memory (m.host.rng 0) (.command apdu) =
          Change.applied m.host.memory
            (account.change m.crypto state m.host.memory.session (m.host.rng 0) apdu) := by
        show Change.applied _ (m.host.memory.state.bind _) = _
        rw [hsync.memory, Option.bind_some]
      rw [hnext]
      generalize account.change m.crypto state m.host.memory.session (m.host.rng 0) apdu = target
        at hout ⊢
      show (∃ state, Synced m.crypto (n.format patience) state (m.respond patience apdu).2) ∧
        (m.respond patience apdu).2.memory = _
      generalize m.respond patience apdu = out at hd hout ⊢
      obtain ⟨result, g⟩ := out
      cases target with
      | none =>
          obtain ⟨-, hmemory, hsaved, hstorage⟩ := hout
          refine ⟨⟨state, hd, ?_, ?_⟩, hmemory⟩
          · rw [hmemory]
            exact hsync.memory
          · rw [hstorage]
            exact hsync.stored
      | some change =>
          have htaken : change.taken m.crypto (n.format patience) m.host = true :=
            Host.accepts_lawful htotal _ (account.length change.state)
          refine ⟨⟨change.state, hout.synced haead hd htaken⟩, ?_⟩
          cases hout with
          | written _ _ memory saved held => exact memory
          | failed _ refused memory saved held =>
              rw [htaken] at refused
              cases refused
  | reboot key rng => exact serving_reboot account codec haead htotal hserving key rng

/-- What an event finds in the memory of the applet, and what it makes of that. -/
theorem memory_step (hserving : m.Serving patience) (e : Event) : ∃ state,
    m.host.memory = ⟨some state, m.host.memory.session⟩ ∧
      (m.step patience codec e).host.memory =
        account.next m.crypto ⟨some state, m.host.memory.session⟩ (m.host.rng 0) e := by
  have hnext := (serving_step account codec haead htotal hserving e).2
  obtain ⟨state, hsync⟩ := hserving
  have hmemory : m.host.memory = ⟨some state, m.host.memory.session⟩ :=
    congrArg (Memory.mk · m.host.memory.session) hsync.memory
  refine ⟨state, hmemory, ?_⟩
  rwa [← hmemory]

include account in
/-- A reboot under another key opens a session, as every reboot does. -/
theorem session_rekeyed (hserving : m.Serving patience) {e : Event} (hkey : ¬m.KeepsKey e) :
    (m.step patience codec e).host.memory.session = n.fresh := by
  rw [(serving_step account codec haead htotal hserving e).2]
  cases e with
  | select => exact absurd trivial hkey
  | command apdu => exact absurd trivial hkey
  | reboot key rng => rfl

end

/-- The applet after a boot over some medium, and a run. -/
def Reached (patience : Nat) (prims : Primitives) (m : Machine β n) : Prop :=
  ∃ (crypto : AppletCrypto) (b : β) (rng : Nat → Entropy) (events : List Event),
    crypto.prims = prims ∧ m =
      run patience codec (boot patience crypto (.withBackend codec b) rng) events

include account in
/-- What a boot makes and every event keeps holds in every run. -/
theorem reached_induction {codec : Codec StoredCredential} {prims : Primitives}
    (haead : AeadSound prims) (htotal : AeadTotal prims) (I : Machine β n → Prop)
    (hboot : ∀ {m : Machine β n}, m.crypto.prims = prims → m.Serving patience →
      m.host.memory.session = n.fresh → I m)
    (hstep : ∀ m e, I m → I (m.step patience codec e)) {m : Machine β n}
    (hreached : m.Reached codec patience prims) : I m := by
  obtain ⟨crypto, b, rng, events, rfl, rfl⟩ := hreached
  obtain ⟨state, hmemory, hsync, -⟩ := synced_boot account codec haead htotal b rng
  have hstart : I (boot patience crypto (.withBackend codec b) rng) :=
    hboot rfl ⟨state, hsync⟩ (congrArg Memory.session hmemory)
  generalize (boot patience crypto (.withBackend codec b) rng : Machine β n) = m at hstart ⊢
  induction events generalizing m with
  | nil => exact hstart
  | cons e events ih => exact ih _ (hstep m e hstart)

/-! ## Counters -/

section

variable {codec} (I : Machine β n → Prop) (allowed : Machine β n → Event → Prop)

omit [LawfulBackend β] in
/-- What every allowed event keeps, a run of allowed events keeps. -/
theorem run_induction (hstep : ∀ m e, I m → allowed m e → I (m.step patience codec e))
    {m : Machine β n} (h : I m) {events : List Event}
    (hallowed : ∀ p ∈ m.trace patience codec events, allowed p.1 p.2) :
    I (m.run patience codec events) := by
  induction events generalizing m with
  | nil => exact h
  | cons e events ih =>
      refine ih (hstep m e h (hallowed (m, e) List.mem_cons_self)) fun p hp => ?_
      exact hallowed p (List.mem_cons_of_mem _ hp)

omit [LawfulBackend β] in
/-- A counter that goes down by the events that it counts. -/
theorem count_trace (counter : Machine β n → Nat) (counted : Machine β n × Event → Bool)
    (hstep : ∀ m e, I m → allowed m e → I (m.step patience codec e) ∧
      counter (m.step patience codec e) + (counted (m, e)).toNat = counter m)
    {m : Machine β n} (h : I m) {events : List Event}
    (hallowed : ∀ p ∈ m.trace patience codec events, allowed p.1 p.2) :
    counter (m.run patience codec events) + (m.trace patience codec events).countP counted =
      counter m := by
  induction events generalizing m with
  | nil => rfl
  | cons e events ih =>
      obtain ⟨hnext, hcount⟩ := hstep m e h (hallowed (m, e) List.mem_cons_self)
      have hrest := ih hnext fun p hp => hallowed p (List.mem_cons_of_mem _ hp)
      show counter (run patience codec (m.step patience codec e) events) +
        ((m, e) :: (m.step patience codec e).trace patience codec events).countP counted = counter m
      rw [List.countP_cons, ← hcount, ← hrest]
      cases counted (m, e)
      · rfl
      · rfl

omit [LawfulBackend β] in
theorem trace_append (m : Machine β n) (events later : List Event) :
    m.trace patience codec (events ++ later) = m.trace patience codec events ++
      (m.run patience codec events).trace patience codec later := by
  induction events generalizing m with
  | nil => rfl
  | cons e events ih => exact congrArg (List.cons (m, e)) (ih _)

omit [LawfulBackend β] in
theorem run_append (m : Machine β n) (events later : List Event) :
    m.run patience codec (events ++ later) =
      (m.run patience codec events).run patience codec later := List.foldl_append

end

end Machine

end AppletName

end OpenKey
