import OpenKey.Device.Card
import OpenKey.Device.KnownAead
import OpenKey.Storage.Snapshot

/-!
# Power cycles

The boot of `targets/rp2350/src/main.rs` over the two-slot flash, sessions of APDUs after it, and
the next boot over what the flash then holds.

**A session** (`Host.Live`). Once the boot is over, every applet is at work on the flash, and each
command keeps it so.

**The next boot.** `CryptoEngine::new` draws a new master key. Under the key of the session every
applet finds its state (`Card.build_found`), under any other key none does and each makes a factory
state (`Card.build_lost`).
-/

namespace OpenKey

open Prog (Keeps)

set_option autoImplicit false

/-! ## The card -/

namespace Card

variable {β : Type} [StorageBackend β] [AtomicBackend β] {crypto : AppletCrypto} {patience : Nat}

/-- An applet of the card is at work. -/
def Live (crypto : AppletCrypto) (patience : Nat) (c : Card β) (n : AppletName) : Prop :=
  Host.Live crypto (n.format patience) (c.host n)

/-- What one applet writes leaves the others at work. -/
theorem live_setHost {c : Card β} {n n' : AppletName} (hne : n' ≠ n)
    {h : Host β n.State n.Session}
    (hconf : (StorageEngine.confined n.storageKey).rel c.storage h.storage)
    (hlive : Live crypto patience c n') : Live crypto patience (c.setHost n h) n' := by
  obtain ⟨hd, hentry⟩ := hconf hlive.durable
  have hseat := seats_setHost (c := c) hne h
  refine Host.Live.of_entry hlive hd ?_ ?_ ?_
  · show ((c.setHost n h).seats n').memory.state.isSome
    rw [hseat]
    exact hlive.loaded
  · show ((c.setHost n h).seats n').saved = (c.seats n').saved
    rw [hseat]
  · rw [AppletName.storageKey_format]
    exact hentry _ fun hkey => hne (AppletName.storageKey_inj hkey)

theorem confined_store_format (n : AppletName) (blob : Bytes) :
    Keeps (StorageEngine.confined n.storageKey)
      (StorageEngine.store (n.format patience).storageKey blob :
        Prog (StorageEngine β) EngineError Unit) := by
  rw [AppletName.storageKey_format]
  exact StorageEngine.confined_store _ _

/-- Every command of an applet keeps all of them at work. -/
theorem keeps_live_perform (haead : AeadSound crypto.prims) {α : Type} (n : AppletName)
    (command : Command n.State n.Session α) :
    Keeps (.invariant fun c : Card β => ∀ n', Live crypto patience c n')
      (perform crypto patience n command) := by
  intro c hlive n'
  by_cases hne : n' = n
  · subst hne
    show Host.Live crypto (n'.format patience) (Card.host n' (c.setHost n' _))
    rw [host_setHost]
    exact Host.keeps_live haead command _ (hlive n')
  · exact live_setHost hne (Host.keeps_command (confined_store_format n) command (c.host n))
      (hlive n')

/-! ## Boots -/

omit [AtomicBackend β] in
/-- The parts of a boot that went through. -/
theorem build_cons_eq_ok {n : AppletName} {rest : List AppletName} {c c' : Card β} {u : Unit}
    (hrun : (build crypto patience (n :: rest)).run c = (.ok u, c')) :
    ∃ h v, (Host.ensureLoaded crypto (n.format patience)).run (c.host n) = (.ok v, h) ∧
      (build crypto patience rest).run (c.setHost n h) = (.ok u, c') := by
  obtain ⟨v, c₁, hon, hrest⟩ := Prog.bind_eq_ok.mp hrun
  rw [on, Prog.run_zoom] at hon
  obtain ⟨hok, rfl⟩ := Prod.mk.inj hon
  exact ⟨_, v, Prod.ext hok rfl, hrest⟩

theorem confined_ensureLoaded (n : AppletName) {h h' : Host β n.State n.Session}
    {r : Except Fault Unit}
    (hrun : (Host.ensureLoaded crypto (n.format patience)).run h = (r, h')) :
    (StorageEngine.confined n.storageKey).rel h.storage h'.storage :=
  (Host.keeps_ensureLoaded (confined_store_format n)).of_run hrun

/-- After a boot the applets that were built are at work. -/
theorem build_live (haead : AeadSound crypto.prims) {names : List AppletName}
    (hnodup : names.Nodup) {c c' : Card β} {u : Unit} (hd : c.storage.Durable)
    (hvacant : ∀ n ∈ names, (c.seats n).memory.state = none)
    (hrun : (build crypto patience names).run c = (.ok u, c')) :
    (∀ n ∈ names, Live crypto patience c' n) ∧
      ∀ n ∉ names, Live crypto patience c n → Live crypto patience c' n := by
  induction names generalizing c with
  | nil =>
      cases hrun
      exact ⟨fun n hn => absurd hn List.not_mem_nil, fun _ _ hlive => hlive⟩
  | cons n rest ih =>
      obtain ⟨hnew, hnodup⟩ := List.nodup_cons.mp hnodup
      obtain ⟨h, v, hload, hrest⟩ := build_cons_eq_ok hrun
      have hconf := confined_ensureLoaded n hload
      have hlive : Live crypto patience (c.setHost n h) n := by
        show Host.Live crypto (n.format patience) (Card.host n (c.setHost n h))
        rw [host_setHost]
        exact Host.live_of_ensureLoaded haead hd (hvacant n List.mem_cons_self) hload
      obtain ⟨hbuilt, hkept⟩ := ih hnodup (hconf hd).1 (fun n' hn' => by
        rw [seats_setHost (ne_of_mem_of_not_mem hn' hnew)]
        exact hvacant n' (List.mem_cons_of_mem n hn')) hrest
      refine ⟨fun n' hn' => ?_, fun n' hn' hlive' => ?_⟩
      · obtain rfl | hn' := List.mem_cons.mp hn'
        · exact hkept n' hnew hlive
        · exact hbuilt n' hn'
      · obtain ⟨hne, hn'⟩ := not_or.mp (mt List.mem_cons.mpr hn')
        exact hkept n' hn' (live_setHost hne hconf hlive')

omit [AtomicBackend β] in
/-- A boot over a storage that has the state of every applet takes these states, and writes
nothing. -/
theorem build_found {names : List AppletName} (hnodup : names.Nodup) {c : Card β}
    (hvacant : ∀ n ∈ names, (c.seats n).memory.state = none)
    (hfound : ∀ n ∈ names, ∃ state,
      Host.storedState crypto (n.format patience) c.storage = some (state, false)) :
    ∃ c', (build crypto patience names).run c = (.ok (), c') ∧ c'.storage = c.storage ∧
      (∀ n ∈ names, (c'.seats n).memory.state =
        (Host.storedState crypto (n.format patience) c.storage).map (·.1)) ∧
      ∀ n ∉ names, c'.seats n = c.seats n := by
  induction names generalizing c with
  | nil => exact ⟨c, rfl, rfl, fun n hn => absurd hn List.not_mem_nil, fun _ _ => rfl⟩
  | cons n rest ih =>
      obtain ⟨hnew, hnodup⟩ := List.nodup_cons.mp hnodup
      obtain ⟨state, hstate⟩ := hfound n List.mem_cons_self
      have hload := Host.ensureLoaded_found (h := c.host n) (hvacant n List.mem_cons_self) hstate
      obtain ⟨c', hrest, hstorage, htaken, hsame⟩ := ih hnodup
        (c := c.setHost n ((Host.ensureLoaded crypto (n.format patience)).run (c.host n)).2)
        (fun n' hn' => by
          rw [seats_setHost (ne_of_mem_of_not_mem hn' hnew)]
          exact hvacant n' (List.mem_cons_of_mem n hn'))
        (fun n' hn' => by
          rw [hload]
          exact hfound n' (List.mem_cons_of_mem n hn'))
      rw [hload] at hrest hstorage htaken hsame
      refine ⟨c', ?_, hstorage, fun n' hn' => ?_, fun n' hn' => ?_⟩
      · rw [← hrest]
        exact Prog.run_bind_of_ok (by rw [on, Prog.run_zoom, hload])
      · obtain rfl | hn' := List.mem_cons.mp hn'
        · rw [hsame n' hnew, hstate, seats_setHost_self]
          rfl
        · exact htaken n' hn'
      · obtain ⟨hne, hn'⟩ := not_or.mp (mt List.mem_cons.mpr hn')
        rw [hsame n' hn', seats_setHost hne]

/-- A boot over a storage that has the state of no applet makes factory states. -/
theorem build_lost {names : List AppletName} (hnodup : names.Nodup) {c c' : Card β} {u : Unit}
    (hd : c.storage.Durable) (hvacant : ∀ n ∈ names, (c.seats n).memory.state = none)
    (hlost : ∀ n ∈ names, Host.storedState crypto (n.format patience) c.storage = none)
    (hrun : (build crypto patience names).run c = (.ok u, c')) :
    (∀ n ∈ names, ∃ state rng rng', (n.format patience).factory.run rng = (.ok state, rng') ∧
        (c'.seats n).memory.state = some state) ∧
      ∀ n ∉ names, c'.seats n = c.seats n := by
  induction names generalizing c with
  | nil =>
      cases hrun
      exact ⟨fun n hn => absurd hn List.not_mem_nil, fun _ _ => rfl⟩
  | cons n rest ih =>
      obtain ⟨hnew, hnodup⟩ := List.nodup_cons.mp hnodup
      obtain ⟨h, v, hload, hrest⟩ := build_cons_eq_ok hrun
      obtain ⟨hd', hentry⟩ := confined_ensureLoaded n hload hd
      obtain ⟨state, hmem, hcurrent⟩ := Host.loaded_of_ensureLoaded hload
      have hnone : Host.current crypto (n.format patience) (c.host n) = none := by
        unfold Host.current
        rw [show (c.host n).memory.state = none from hvacant n List.mem_cons_self]
        show (Host.storedState crypto (n.format patience) c.storage).map (·.1) = none
        rw [hlost n List.mem_cons_self]
        rfl
      obtain ⟨hmade, hsame⟩ := ih hnodup (c := c.setHost n h) hd'
        (fun n' hn' => by
          rw [seats_setHost (ne_of_mem_of_not_mem hn' hnew)]
          exact hvacant n' (List.mem_cons_of_mem n hn'))
        (fun n' hn' => by
          rw [← hlost n' (List.mem_cons_of_mem n hn')]
          refine Host.storedState_congr ?_
          show h.storage.value _ = c.storage.value _
          rw [hd'.value_eq, hd.value_eq, AppletName.storageKey_format]
          exact hentry _ fun hkey =>
            ne_of_mem_of_not_mem hn' hnew (AppletName.storageKey_inj hkey)) hrest
      refine ⟨fun n' hn' => ?_, fun n' hn' => ?_⟩
      · obtain rfl | hn' := List.mem_cons.mp hn'
        · obtain hfound | ⟨-, rng, rng', hfactory⟩ := hcurrent
          · rw [hnone] at hfound
            cases hfound
          · refine ⟨state, rng, rng', hfactory, ?_⟩
            rw [hsame n' hnew, seats_setHost_self]
            exact hmem
        · exact hmade n' hn'
      · obtain ⟨hne, hn'⟩ := not_or.mp (mt List.mem_cons.mpr hn')
        rw [hsame n' hn', seats_setHost hne]

end Card

/-! ## The firmware -/

/-- The flash backend, with the form of its snapshots. -/
def Flash (_snapshots : Codec KvMap) : Type := FlashStorageBackend NorFlash

instance (snapshots : Codec KvMap) : StorageBackend (Flash snapshots) :=
  FlashStorageBackend.storageBackend snapshots

instance (snapshots : Codec KvMap) : AtomicBackend (Flash snapshots) :=
  FlashStorageBackend.atomicBackend snapshots

/-- What a build of the firmware fixes. The key of `crypto` is not used. -/
structure Firmware where
  /-- The form of the snapshots on the flash. -/
  snapshots : Codec KvMap
  /-- The form of the credentials. -/
  records : Codec StoredCredential
  crypto : AppletCrypto
  /-- How often `factory_state` of the Management applet may draw a serial. -/
  patience : Nat

/-- The applets on the flash. -/
abbrev Firmware.Cards (fw : Firmware) : Type := Card (Flash fw.snapshots)

/-- The master key: `ring_smoke` takes the first draw, `CryptoEngine::new` the second. -/
def bootKey (rng : Nat → Entropy) : Bytes := (rng 1).bytes 32

namespace Firmware

variable (fw : Firmware)

/-- `CryptoEngine::new`. -/
def cryptoOf (rng : Nat → Entropy) : AppletCrypto :=
  { fw.crypto with key := bootKey rng, length_key := Entropy.length_bytes _ _ }

/-- The order in which `main` builds the applets. -/
def buildOrder : List AppletName := [.oath, .management, .piv, .openPgp]

/-- The card before the applets are built. -/
def bare (b : FlashStorageBackend NorFlash) (rng : Nat → Entropy) : fw.Cards :=
  Card.blank (StorageEngine.withBackend fw.records (b : Flash fw.snapshots)) fun n => rng (n + 2)

/-- `main`, until the applets are registered; it panics if the flash cannot be opened or an applet
cannot be built. -/
def boot (device : NorFlash) (rng : Nat → Entropy) : Option fw.Cards :=
  match FlashStorageBackend.new fw.snapshots device with
  | .error _ => none
  | .ok b =>
      match (Card.build (fw.cryptoOf rng) fw.patience buildOrder).run (fw.bare b rng) with
      | (.ok (), c) => some c
      | (.error _, _) => none

/-- An APDU through the router, after the authenticator has taken some draws. -/
def exchange (rng : Nat → Entropy) (r : CardRouter fw.Cards) (step : Nat × Bytes) :
    CardRouter fw.Cards :=
  ((CardRouter.process (Card.applets (fw.cryptoOf rng) fw.patience) step.2).run
    { r with card := { r.card with rng := fun n => r.card.rng (step.1 + n) } }).2

/-- The card after the loop of `main` has passed on these APDUs. -/
def session (rng : Nat → Entropy) (c : fw.Cards) (steps : List (Nat × Bytes)) : fw.Cards :=
  (steps.foldl (fw.exchange rng) ⟨c, none, none⟩).card

/-- The next boot over the flash gives every applet the state it persisted last, and finds it there:
it does not make one. -/
def Survives (c : fw.Cards) (b : FlashStorageBackend NorFlash) (rng : Nat → Entropy) : Prop :=
  ∃ c', fw.boot b.device rng = some c' ∧ ∀ n, ∃ state, (c.seats n).saved = some state ∧
    (Host.storedState (fw.cryptoOf rng) (n.format fw.patience) (fw.bare b rng).storage).map (·.1) =
      some state ∧
    (c'.seats n).memory.state = some state

/-! ## The flash through a session -/

/-- The moves of the engine that are steady moves of the flash. -/
def steadily : Prog.Frame (StorageEngine (Flash fw.snapshots)) where
  rel e e' := ∀ b, e.backend = some b → ∃ b', e'.backend = some b' ∧
    (FlashStorageBackend.steadily fw.snapshots).rel b b'
  refl _ b hb := ⟨b, hb, (FlashStorageBackend.steadily fw.snapshots).refl b⟩
  trans h₁ h₂ b hb := by
    obtain ⟨b₁, hb₁, hrel₁⟩ := h₁ b hb
    obtain ⟨b₂, hb₂, hrel₂⟩ := h₂ b₁ hb₁
    exact ⟨b₂, hb₂, (FlashStorageBackend.steadily fw.snapshots).trans hrel₁ hrel₂⟩

theorem steadily_of_backend {e e' : StorageEngine (Flash fw.snapshots)}
    (h : e'.backend = e.backend) : fw.steadily.rel e e' := by
  intro b hb
  rw [← h] at hb
  exact ⟨b, hb, (FlashStorageBackend.steadily fw.snapshots).refl b⟩

theorem steadily_store (key : String) (v : Bytes) :
    Keeps fw.steadily (StorageEngine.store key v) := by
  have hwrite : Keeps fw.steadily (StorageEngine.onBackend (StorageBackend.write key v)) := by
    intro e b hb
    refine ⟨((FlashStorageBackend.write fw.snapshots key v).run b).2, ?_,
      FlashStorageBackend.keeps_steadily fw.snapshots _ b⟩
    simp only [StorageEngine.onBackend, hb]
    rfl
  refine Keeps.bind (fun e => fw.steadily_of_backend ?_) fun _ => hwrite.bind fun _ =>
    Keeps.update fun e => fw.steadily_of_backend rfl
  rfl

/-- The moves of a session: the applets stay at work, and the flash steady. -/
def serving (crypto : AppletCrypto) : Prog.Frame fw.Cards :=
  (Prog.Frame.invariant fun c => ∀ n, Card.Live crypto fw.patience c n).and
    (Card.storageFrame fw.steadily)

variable {fw}

theorem serving_exchange (haead : AeadSound fw.crypto.prims) (rng : Nat → Entropy)
    (r : CardRouter fw.Cards) (step : Nat × Bytes) :
    (fw.serving (fw.cryptoOf rng)).rel r.card (fw.exchange rng r step).card := by
  have haead' : AeadSound (fw.cryptoOf rng).prims := haead
  have hperform : ∀ {α : Type} (n : AppletName) (command : Command n.State n.Session α),
      Keeps (fw.serving (fw.cryptoOf rng))
        (Card.perform (fw.cryptoOf rng) fw.patience n command) :=
    fun n command => (Card.keeps_live_perform haead' n command).and
      (Card.keeps_storage_perform (fun _ _ => fw.steadily_store _ _) n command)
  have hprocess := CardRouter.keeps_cardFrame_process
    (Card.within_applets (fw.cryptoOf rng) fw.patience hperform) step.2
  refine (fw.serving (fw.cryptoOf rng)).trans ?_ (hprocess _)
  -- the draws of the authenticator change nothing on the card
  refine ⟨fun hlive n => ?_, fw.steadily.refl r.card.storage⟩
  exact ⟨(hlive n).durable, (hlive n).loaded, (hlive n).stored⟩

theorem serving_session (haead : AeadSound fw.crypto.prims) (rng : Nat → Entropy) (c : fw.Cards)
    (steps : List (Nat × Bytes)) :
    (fw.serving (fw.cryptoOf rng)).rel c (fw.session rng c steps) := by
  unfold session
  suffices h : ∀ r : CardRouter fw.Cards, (fw.serving (fw.cryptoOf rng)).rel r.card
      (steps.foldl (fw.exchange rng) r).card from h ⟨c, none, none⟩
  induction steps with
  | nil => exact fun r => Prog.Frame.refl _ r.card
  | cons step steps ih =>
      exact fun r => Prog.Frame.trans _ (serving_exchange haead rng r step)
        (ih (fw.exchange rng r step))

/-! ## Two boots -/

theorem vacant_bare (b : FlashStorageBackend NorFlash) (rng : Nat → Entropy) (n : AppletName) :
    ((fw.bare b rng).seats n).memory.state = none := rfl

theorem backend_bare (b : FlashStorageBackend NorFlash) (rng : Nat → Entropy) :
    (fw.bare b rng).storage.backend = some b :=
  (@StorageEngine.withBackend_eq (Flash fw.snapshots) _ fw.records b).1

theorem nodup_buildOrder : buildOrder.Nodup := by decide

theorem mem_buildOrder (n : AppletName) : n ∈ buildOrder := by
  cases n <;> decide

/-- A boot over a consistent flash is the boot of the backend it was written by. -/
theorem boot_eq_some {b : FlashStorageBackend NorFlash}
    (hb : FlashStorageBackend.Consistent fw.snapshots b) {rng : Nat → Entropy} {c : fw.Cards} :
    fw.boot b.device rng = some c ↔
      (Card.build (fw.cryptoOf rng) fw.patience buildOrder).run (fw.bare b rng) = (.ok (), c) := by
  unfold boot
  rw [FlashStorageBackend.new_of_consistent fw.snapshots hb]
  simp only
  split
  · next hrun => simp [hrun]
  · next hrun => simp [hrun]

theorem cryptoOf_congr {rng rng' : Nat → Entropy} (h : bootKey rng' = bootKey rng) :
    fw.cryptoOf rng' = fw.cryptoOf rng := by
  unfold cryptoOf
  simp only [h]

/-- What a session leaves: the applets at work, on a flash that opens as it is. -/
theorem left_by_session (haead : AeadSound fw.crypto.prims) {b : FlashStorageBackend NorFlash}
    (hb : FlashStorageBackend.Consistent fw.snapshots b) (hpower : b.device.power = none)
    {rng : Nat → Entropy} {c : fw.Cards} (hboot : fw.boot b.device rng = some c)
    (steps : List (Nat × Bytes)) {b' : FlashStorageBackend NorFlash}
    (hb' : (fw.session rng c steps).storage.backend = some b') (hgen : b'.generation < 2 ^ 64) :
    FlashStorageBackend.Consistent fw.snapshots b' ∧
      ∀ n, Card.Live (fw.cryptoOf rng) fw.patience (fw.session rng c steps) n := by
  have haead' : AeadSound (fw.cryptoOf rng).prims := haead
  have hrun := (boot_eq_some hb).mp hboot
  have hbuilt := (Card.build_live haead' nodup_buildOrder
    (StorageEngine.durable_withBackend fw.records _) (fun n _ => vacant_bare b rng n) hrun).1
  obtain ⟨hlive, hsession⟩ := serving_session haead rng c steps
  refine ⟨?_, hlive fun n => hbuilt n (mem_buildOrder n)⟩
  have hbuild : fw.steadily.rel (fw.bare b rng).storage c.storage :=
    (Card.keeps_storage_build (fun _ _ => fw.steadily_store _ _) buildOrder).of_run hrun
  obtain ⟨b'', hb'', hrel⟩ := fw.steadily.trans hbuild hsession b (backend_bare b rng)
  obtain rfl : b'' = b' := Option.some.inj (hb''.symm.trans hb')
  exact (hrel ⟨hb.usable, hpower⟩).2.2 hgen hb

/-- **Power cycles.** After any session over the flash, the next boot gives the applets their states
exactly when `CryptoEngine::new` draws the same key again. With another key every applet is in a
factory state. -/
theorem applets_survive_iff (fw : Firmware) (haead : AeadSound fw.crypto.prims)
    {b : FlashStorageBackend NorFlash} (hb : FlashStorageBackend.Consistent fw.snapshots b)
    (hpower : b.device.power = none) {rng rng' : Nat → Entropy} {c : fw.Cards}
    (hboot : fw.boot b.device rng = some c) (steps : List (Nat × Bytes))
    {b' : FlashStorageBackend NorFlash}
    (hb' : (fw.session rng c steps).storage.backend = some b') (hgen : b'.generation < 2 ^ 64) :
    (fw.Survives (fw.session rng c steps) b' rng' ↔ bootKey rng' = bootKey rng) ∧
      (bootKey rng' ≠ bootKey rng → ∀ c', fw.boot b'.device rng' = some c' → ∀ n,
        ∃ state draws draws', (n.format fw.patience).factory.run draws = (.ok state, draws') ∧
          (c'.seats n).memory.state = some state) := by
  obtain ⟨hcons, hlive⟩ := left_by_session haead hb hpower hboot steps hb' hgen
  replace haead : AeadSound (fw.cryptoOf rng).prims := haead
  have hdurable := (hlive .oath).durable
  have hsame : ∀ (crypto : AppletCrypto) (n : AppletName),
      Host.storedState crypto (n.format fw.patience) (fw.bare b' rng').storage =
        Host.storedState crypto (n.format fw.patience) (fw.session rng c steps).storage :=
    fun crypto n => Host.storedState_congr (StorageEngine.value_reopened fw.records hdurable hb' _)
  have hlost : bootKey rng' ≠ bootKey rng → ∀ n : AppletName,
      Host.storedState (fw.cryptoOf rng') (n.format fw.patience) (fw.bare b' rng').storage =
        none := by
    intro hkey n
    obtain ⟨state, -, hstored⟩ := (hlive n).stored
    have hprims : (fw.cryptoOf rng').prims = (fw.cryptoOf rng).prims := rfl
    rw [hsame]
    exact Host.storedState_other haead hprims hkey hstored
  refine ⟨⟨fun hsurvives => ?_, fun hkey => ?_⟩, fun hkey c' hboot' n => ?_⟩
  · obtain ⟨c', -, hstates⟩ := hsurvives
    obtain ⟨state, -, hfound, -⟩ := hstates .oath
    by_contra hkey
    rw [hlost hkey .oath] at hfound
    cases hfound
  · have hfound : ∀ n, ∃ state, ((fw.session rng c steps).seats n).saved = some state ∧
        Host.storedState (fw.cryptoOf rng') (n.format fw.patience) (fw.bare b' rng').storage =
          some (state, false) := by
      intro n
      rw [hsame, cryptoOf_congr hkey]
      exact (hlive n).stored
    obtain ⟨c', hrun, -, htaken, -⟩ := Card.build_found nodup_buildOrder
      (fun n _ => vacant_bare b' rng' n)
      fun n _ => (hfound n).imp fun _ h => h.2
    refine ⟨c', (boot_eq_some hcons).mpr hrun, fun n => ?_⟩
    obtain ⟨state, hsaved, hstored⟩ := hfound n
    refine ⟨state, hsaved, by rw [hstored]; rfl, ?_⟩
    rw [htaken n (mem_buildOrder n), hstored]
    rfl
  · exact (Card.build_lost nodup_buildOrder (StorageEngine.durable_withBackend fw.records _)
      (fun n _ => vacant_bare b' rng' n) (fun n _ => hlost hkey n)
      ((boot_eq_some hcons).mp hboot')).1 n (mem_buildOrder n)

/-! ## A build with ciphertexts of ChaCha20-Poly1305 -/

/-- The bytes of a number. -/
def hex (len value : Nat) : Bytes := Bytes.beBytes len value

/-- A plaintext under a key and a nonce of one byte over and over, and its ciphertext. -/
def sealedUnder (key nonce : UInt8) (plaintext ciphertext : Bytes) :
    (Bytes × Bytes × Bytes) × Bytes :=
  ((List.replicate 32 key, List.replicate 12 nonce, plaintext), ciphertext)

/-- What `ring` makes of the states below: the factory states of a first boot, an OATH state with
one credential, and the factory states of a boot with other draws. -/
def sampleSealed : List ((Bytes × Bytes × Bytes) × Bytes) := [
  sealedUnder 0x02 0x04 (hex 21 0x011003030303030303030303030303030303000000)
    (hex 37 0x1d42d7cfdfe433ba4251d5d0f61f8ca6d97b1f0196e99a3e2cf8571dd69c97b2e2ff50cec4),
  sealedUnder 0x02 0x06 (hex 30 0x0205050505062e0000000000000000000000000000000000000000000000)
    (hex 46 (0x68a2a4f585b303d83830694909d5a1927f8a42ff24d94b955802334c38341494 * 2 ^ 112 +
      0x4936a9df8f223a527896fbf48bec)),
  sealedUnder 0x02 0x07 (hex 11 0x0306313233343536030000)
    (hex 27 0x40a31fc107f59c18c731208928abf6048856633d30fdfadcc9a146),
  sealedUnder 0x02 0x08 (hex 20 0x0206313233343536030831323334353637380300)
    (hex 36 0x21b24510f64779092f40e84e63c15dd53bd07b411da4a2da87876acfbf254d8a8d868e2e),
  sealedUnder 0x02 0x09
    (hex 49 (0x011003030303030303030303030303030303000001016121060000000000 * 2 ^ 152 +
      0x000000000e0102030405060708090a0b0c0d0e))
    (hex 65 (0x136713cecafe12e4afbac8695852d25ad6637cc0bc1ac15f3c1fcc190975c262 * 2 ^ 264 +
      0x8704a4d8135009d101a7c8ff39beb3d99d9095b6cbfb71606840cee980eb285a8c)),
  sealedUnder 0x42 0x44 (hex 21 0x011043434343434343434343434343434343000000)
    (hex 37 0xe773e88c14a8d5881ee4f82894535fa26ec2bc89548d050c03136f6008489a3a065b699e45),
  sealedUnder 0x42 0x46 (hex 30 0x0245454545062e0000000000000000000000000000000000000000000000)
    (hex 46 (0x7c5fc2a802700269dd61ee87a84f7ddd3cc6a1fee2c3a86a53c8a29f8ecf3d0f * 2 ^ 112 +
      0x3f1dd85467e31093830cc3ff8f12)),
  sealedUnder 0x42 0x47 (hex 11 0x0306313233343536030000)
    (hex 27 0xe7f56e40debe37c28ec2451c17d6d7fc0c7ddceec0b118b7be806e),
  sealedUnder 0x42 0x48 (hex 20 0x0206313233343536030831323334353637380300)
    (hex 36 0xf8555716149573c814cdc40c3cac5680351bae3c65e405db5d0ca4d41c9904780efa4457)]

/-- The same, from the ciphertexts. -/
def sampleOpened : List ((Bytes × Bytes × Bytes) × Bytes) :=
  sampleSealed.map fun row => ((row.1.1, row.1.2.1, row.2), row.1.2.2)

/-- A build that knows these ciphertexts, on the CBOR form of snapshots. -/
def sample : Firmware where
  snapshots := snapshotCodec
  records := unusedCodec
  crypto := {
    prims := { unusedCrypto.prims with
      length_sha256 := length_sha256_unused
      length_hmacSha256 := length_hmacSha256_unused
      aeadSeal := fun key nonce plaintext => sampleSealed.lookup (key, nonce, plaintext)
      aeadOpen := fun key nonce ciphertext => sampleOpened.lookup (key, nonce, ciphertext) }
    key := List.replicate 32 0
    length_key := length_zeros
    hmacSha1 := fun _ _ => List.replicate 20 0
    length_hmacSha1 := length_sha1Zeros
    hmacSha512 := fun _ _ => List.replicate 64 0
    length_hmacSha512 := length_sha512Zeros
    length_ed25519Public := fun h => (nomatch h)
    length_p256Generate := fun h => (nomatch h) }
  patience := 1


theorem aeadSound_sample : AeadSound sample.crypto.prims where
  open_seal h := by
    have hrows : ∀ row ∈ sampleSealed,
        sampleOpened.lookup (row.1.1, row.1.2.1, row.2) = some row.1.2.2 := by decide +kernel
    exact hrows _ (mem_of_lookup h)
  open_other h hkey := by
    have hrows : ∀ row ∈ sampleOpened, ∀ row' ∈ sampleOpened, row.1.2 = row'.1.2 →
        row.1.1 = row'.1.1 := by decide +kernel
    refine Option.eq_none_iff_forall_ne_some.mpr fun plaintext hother => hkey ?_
    exact hrows _ (mem_of_lookup hother) _ (mem_of_lookup h) rfl
  seal_ne_nil h := by
    have hrows : ∀ row ∈ sampleSealed, row.2 ≠ [] := by decide +kernel
    exact hrows _ (mem_of_lookup h)

/-- An erased flash of two sectors. -/
def erasedFlash : FlashStorageBackend NorFlash := ⟨NorFlash.erased 512 2, ∅, 0, 0⟩

theorem consistent_erasedFlash : FlashStorageBackend.Consistent sample.snapshots erasedFlash :=
  FlashStorageBackend.consistent_erased snapshotCodec (by decide) (by decide) (by decide)

/-- Draws that repeat one byte each. -/
def draws (first : Nat) : Nat → Entropy := fun k _ => UInt8.ofNat (first + k)

/-- SELECT of the OATH applet, then PUT of a TOTP credential named `a`. -/
def registration : List (Nat × Bytes) := [
  (0, [0x00, 0xA4, 0x04, 0x00, 0x07, 0xA0, 0x00, 0x00, 0x05, 0x27, 0x21, 0x01]),
  (0, [0x00, 0x01, 0x00, 0x00, 21, 0x71, 0x01, 0x61, 0x73, 16, 0x21, 0x06, 1, 2, 3, 4, 5, 6, 7, 8,
    9, 10, 11, 12, 13, 14])]

/-- The card and the flash after a boot on an erased flash and a registration. -/
def registered : Option (sample.Cards × FlashStorageBackend NorFlash) :=
  (sample.boot erasedFlash.device (draws 0x01)).bind fun c =>
    (sample.session (draws 0x01) c registration).storage.backend.map fun b => (c, b)

theorem registered_eq_some {c : sample.Cards} {b : FlashStorageBackend NorFlash}
    (h : registered = some (c, b)) : sample.boot erasedFlash.device (draws 0x01) = some c ∧
      (sample.session (draws 0x01) c registration).storage.backend = some b := by
  unfold registered at h
  obtain ⟨c', hboot, h⟩ := Option.bind_eq_some_iff.mp h
  obtain ⟨b', hbackend, h⟩ := Option.map_eq_some_iff.mp h
  cases h
  exact ⟨hboot, hbackend⟩

theorem applets_survive_iff_registration :
    ∃ c b, sample.boot erasedFlash.device (draws 0x01) = some c ∧
      sample.Survives (sample.session (draws 0x01) c registration) b (draws 0x01) := by
  have hsome : (registered.filter fun r => r.2.generation < 2 ^ 64).isSome := by decide +kernel
  obtain ⟨⟨c, b⟩, h⟩ := Option.isSome_iff_exists.mp hsome
  obtain ⟨hreg, hgen⟩ := Option.filter_eq_some_iff.mp h
  obtain ⟨hboot, hbackend⟩ := registered_eq_some hreg
  exact ⟨c, b, hboot, (applets_survive_iff sample aeadSound_sample consistent_erasedFlash rfl hboot
    registration hbackend (of_decide_eq_true hgen)).1.mpr rfl⟩

/-- The names that the OATH applet persisted, and those that it has after a boot with other
draws. -/
def namesAfterBoot : Option (List Bytes × List Bytes) :=
  registered.bind fun r => (sample.boot r.2.device (draws 0x41)).bind fun c' =>
    ((sample.session (draws 0x01) r.1 registration).seats .oath).saved.bind fun saved =>
      (c'.seats .oath).memory.state.map fun state =>
        (OathState.credentials saved |>.map.keys, OathState.credentials state |>.map.keys)

/-- The credential is on the flash, and gone after the next boot. -/
theorem registration_lost : AeadSound sample.crypto.prims ∧
    FlashStorageBackend.Consistent sample.snapshots erasedFlash ∧
    ∃ (c c' : sample.Cards) (b : FlashStorageBackend NorFlash) (saved state : OathState),
      sample.boot erasedFlash.device (draws 0x01) = some c ∧
      (sample.session (draws 0x01) c registration).storage.backend = some b ∧
      sample.boot b.device (draws 0x41) = some c' ∧
      ((sample.session (draws 0x01) c registration).seats .oath).saved = some saved ∧
      (c'.seats .oath).memory.state = some state ∧
      saved.credentials.map.keys = [[0x61]] ∧ state.credentials.map.keys = [] := by
  have hnames : namesAfterBoot = some ([[0x61]], []) := by decide +kernel
  unfold namesAfterBoot at hnames
  obtain ⟨⟨c, b⟩, hreg, h⟩ := Option.bind_eq_some_iff.mp hnames
  obtain ⟨c', hboot', h⟩ := Option.bind_eq_some_iff.mp h
  obtain ⟨saved, hsaved, h⟩ := Option.bind_eq_some_iff.mp h
  obtain ⟨state, hstate, h⟩ := Option.map_eq_some_iff.mp h
  obtain ⟨hboot, hbackend⟩ := registered_eq_some hreg
  obtain ⟨hfirst, hsecond⟩ := Prod.mk.inj h
  exact ⟨aeadSound_sample, consistent_erasedFlash, c, c', b, saved, state, hboot, hbackend, hboot',
    hsaved, hstate, hfirst, hsecond⟩

end Firmware

end OpenKey
