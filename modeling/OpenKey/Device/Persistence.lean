import OpenKey.Device.Applet
import OpenKey.Storage.WriteThrough

/-!
# What an applet persists

One applet over a medium that may refuse a write.

**At work** (`Host.Live`). The applet has its state in memory, and the medium holds the state
persisted last, sealed under the master key. Each command keeps this: a write that is refused
changes neither.

**How a command ends** (`Host.Ends`). A command of an applet that has its state in memory is
followed step by step. Only `persist_state` depends on the storage: it goes through exactly when the
storage `accepts` the blob.
-/

namespace OpenKey

open Prog (Keeps)

set_option autoImplicit false

/-- What the code relies on of ChaCha20-Poly1305: it opens what it sealed, no ciphertext opens under
two keys, and a ciphertext carries at least its tag. -/
structure AeadSound (prims : Primitives) : Prop where
  open_seal : ∀ {key nonce plaintext ciphertext},
    prims.aeadSeal key nonce plaintext = some ciphertext →
      prims.aeadOpen key nonce ciphertext = some plaintext
  open_other : ∀ {key key' nonce plaintext ciphertext},
    prims.aeadOpen key nonce ciphertext = some plaintext → key' ≠ key →
      prims.aeadOpen key' nonce ciphertext = none
  seal_ne_nil : ∀ {key nonce plaintext ciphertext},
    prims.aeadSeal key nonce plaintext = some ciphertext → ciphertext ≠ []

/-- ChaCha20-Poly1305 seals every text of fewer than `2 ^ 36` bytes. -/
structure AeadTotal (prims : Primitives) : Prop where
  seal_isSome : ∀ {key nonce plaintext : Bytes}, key.length = 32 → nonce.length = 12 →
    plaintext.length < 2 ^ 36 → (prims.aeadSeal key nonce plaintext).isSome

/-! ## One applet -/

namespace Host

section

variable {S : Type} {crypto : AppletCrypto} {format : AppletFormat S}

/-- What is sealed can be opened. -/
theorem openBlob_sealState (haead : AeadSound crypto.prims) {state : S} {entropy : Entropy}
    {blob : Bytes} (h : sealState crypto format state entropy = .ok blob) :
    openBlob crypto format blob = some (state, false) := by
  have hnonce : (entropy.bytes 12).length = 12 := Entropy.length_bytes entropy 12
  unfold sealState CryptoEngine.encrypt at h
  rw [if_neg (not_not.mpr hnonce)] at h
  cases hseal : crypto.prims.aeadSeal crypto.key (entropy.bytes 12) (format.serialize state) with
  | none =>
      rw [hseal] at h
      cases h
  | some ciphertext =>
      rw [hseal] at h
      obtain rfl := Except.ok.inj h
      have hpos := List.length_pos_iff.mpr (haead.seal_ne_nil hseal)
      have hlen : (entropy.bytes 12 ++ ciphertext).length > 12 := by
        rw [List.length_append, hnonce]
        omega
      unfold openBlob CryptoEngine.decrypt
      rw [if_pos hlen, List.drop_left' hnonce, List.take_left' hnonce, if_neg (not_not.mpr hnonce),
        haead.open_seal hseal]
      simp only [format.parse_serialize, format.migrates_serialize, Option.map_some]

/-- What opens under one key opens under no other. -/
theorem openBlob_other {crypto' : AppletCrypto} (haead : AeadSound crypto.prims)
    (hprims : crypto'.prims = crypto.prims) (hkey : crypto'.key ≠ crypto.key) {blob : Bytes}
    {found : S × Bool} (h : openBlob crypto format blob = some found) :
    openBlob crypto' format blob = none := by
  unfold openBlob CryptoEngine.decrypt at h ⊢
  split at h
  · next hlen =>
      have hnonce : (blob.take 12).length = 12 := by
        rw [List.length_take]
        omega
      rw [if_neg (not_not.mpr hnonce)] at h ⊢
      rw [if_pos hlen, hprims]
      cases hopen : crypto.prims.aeadOpen crypto.key (blob.take 12) (blob.drop 12) with
      | none =>
          rw [hopen] at h
          cases h
      | some plaintext => rw [haead.open_other hopen hkey]
  · cases h

/-- What is sealed opens to what it was made of, under whatever key it opens. -/
theorem eq_of_openBlob {crypto' : AppletCrypto} (haead : AeadSound crypto.prims)
    (hprims : crypto'.prims = crypto.prims) {state : S} {entropy : Entropy} {blob : Bytes}
    (hseal : sealState crypto format state entropy = .ok blob) {found : S × Bool}
    (hopen : openBlob crypto' format blob = some found) : found = (state, false) := by
  have hself := openBlob_sealState haead hseal
  by_cases hkey : crypto'.key = crypto.key
  · have hsame : openBlob crypto' format blob = openBlob crypto format blob := by
      unfold openBlob CryptoEngine.decrypt
      rw [hprims, hkey]
    rw [hsame, hself] at hopen
    exact (Option.some.inj hopen).symm
  · rw [openBlob_other haead hprims hkey hself] at hopen
    cases hopen

end

variable {β S V : Type} [StorageBackend β] [AtomicBackend β] {crypto : AppletCrypto}
  {format : AppletFormat S}

omit [AtomicBackend β] in
/-- The stored state depends on what is read under the key of the applet only. -/
theorem storedState_congr {e e' : StorageEngine β}
    (h : e'.value format.storageKey = e.value format.storageKey) :
    storedState crypto format e' = storedState crypto format e := by
  unfold storedState
  exact congrArg (Option.bind · (openBlob crypto format)) h

omit [AtomicBackend β] in
/-- What one key finds no other key finds. -/
theorem storedState_other {crypto' : AppletCrypto} (haead : AeadSound crypto.prims)
    (hprims : crypto'.prims = crypto.prims) (hkey : crypto'.key ≠ crypto.key)
    {e : StorageEngine β} {found : S × Bool} (h : storedState crypto format e = some found) :
    storedState crypto' format e = none := by
  obtain ⟨blob, hblob, hopen⟩ := Option.bind_eq_some_iff.mp h
  unfold storedState
  rw [hblob, Option.bind_some]
  exact openBlob_other haead hprims hkey hopen

/-- The ways `persist_state` ends: the state of the memory is on the medium, or the medium is as
before. -/
inductive Persists (crypto : AppletCrypto) (format : AppletFormat S) (h h' : Host β S V) :
    Except Fault Unit → Prop
  | done (state : S) (loaded : h.memory.state = some state) (saved : h'.saved = some state)
      (stored : storedState crypto format h'.storage = some (state, false)) :
      Persists crypto format h h' (.ok ())
  | refused (fault : Fault) (saved : h'.saved = h.saved)
      (entry : h'.storage.entry format.storageKey = h.storage.entry format.storageKey) :
      Persists crypto format h h' (.error fault)

theorem persistState_cases (haead : AeadSound crypto.prims) {h : Host β S V}
    (hd : h.storage.Durable) :
    Persists crypto format h ((persistState crypto format).run h).2
      ((persistState crypto format).run h).1 := by
  unfold persistState
  cases hstate : h.memory.state with
  | none =>
      rw [Prog.run_check_bind_error (by rw [hstate]; rfl)]
      exact .refused _ rfl rfl
  | some state =>
      rw [Prog.run_check_bind (by rw [hstate]; rfl : _ = Except.ok state), draw, Prog.run_act_bind]
      cases hseal : sealState crypto format state (h.rng 0) with
      | error fault =>
          exact .refused fault rfl rfl
      | ok blob =>
          simp only [Prog.run_bind, Prog.run_check, Prog.run_mapError, Prog.run_zoom]
          obtain ⟨hdur, hstores⟩ := StorageEngine.store_cases hd format.storageKey blob
          generalize (StorageEngine.store format.storageKey blob).run h.storage =
            out at hdur hstores
          obtain ⟨result, e⟩ := out
          cases hstores with
          | done hentry =>
              refine .done state hstate rfl ?_
              show (e.value format.storageKey).bind (openBlob crypto format) = _
              rw [hdur.value_eq, hentry, if_pos rfl]
              exact openBlob_sealState haead hseal
          | refused error hentry => exact .refused _ rfl (hentry format.storageKey)

variable (crypto format) in
theorem keeps_confined_persistState :
    Keeps (storageFrame (StorageEngine.confined format.storageKey))
      (persistState crypto format : Prog (Host β S V) Fault Unit) :=
  keeps_persistState (StorageEngine.confined_store format.storageKey)

/-- An applet at work: its state is in memory, and the medium holds the one persisted last. -/
structure Live (crypto : AppletCrypto) (format : AppletFormat S) (h : Host β S V) : Prop where
  durable : h.storage.Durable
  loaded : h.memory.state.isSome
  stored : ∃ state, h.saved = some state ∧
    storedState crypto format h.storage = some (state, false)

theorem Live.of_entry {h h' : Host β S V} (hlive : Live crypto format h)
    (hd : h'.storage.Durable) (hmem : h'.memory.state.isSome) (hsaved : h'.saved = h.saved)
    (hentry : h'.storage.entry format.storageKey = h.storage.entry format.storageKey) :
    Live crypto format h' := by
  refine ⟨hd, hmem, ?_⟩
  rw [hsaved, storedState_congr (e := h.storage)]
  · exact hlive.stored
  · rw [hd.value_eq, hlive.durable.value_eq, hentry]

theorem keeps_live_persistState (haead : AeadSound crypto.prims) :
    Keeps (.invariant (Live crypto format))
      (persistState crypto format : Prog (Host β S V) Fault Unit) := by
  intro h hlive
  have hcases : Persists crypto format h _ _ := persistState_cases haead hlive.durable
  have hd := (keeps_confined_persistState crypto format h hlive.durable).1
  have hmem : ((persistState crypto format).run h).2.memory = h.memory :=
    keeps_memory_persistState h
  have hloaded : ((persistState crypto format).run h).2.memory.state.isSome := by
    rw [hmem]
    exact hlive.loaded
  generalize (persistState crypto format).run h = out at hcases hd hloaded ⊢
  obtain ⟨result, h'⟩ := out
  cases hcases with
  | done state hstate hsaved hstored => exact ⟨hd, hloaded, state, hsaved, hstored⟩
  | refused fault hsaved hentry => exact hlive.of_entry hd hloaded hsaved hentry

/-- Every command of an applet keeps it at work. -/
theorem keeps_live (haead : AeadSound crypto.prims) {α : Type} (command : Command S V α) :
    Keeps (.invariant (Live crypto format))
      (perform crypto format command : Prog (Host β S V) Fault α) := by
  refine Script.keeps_perform _ (fun op => ?_) command
  cases op with
  | inspect => exact Keeps.read _
  | setState state => exact Keeps.update fun h hlive => ⟨hlive.durable, rfl, hlive.stored⟩
  | modifySession change =>
      exact Keeps.update fun h hlive => ⟨hlive.durable, hlive.loaded, hlive.stored⟩
  | draw => exact Keeps.act fun h hlive => ⟨hlive.durable, hlive.loaded, hlive.stored⟩
  | ensureLoaded =>
      intro h hlive
      have hrun : (ensureLoaded crypto format).run h = (.ok (), h) := by
        unfold ensureLoaded
        rw [Prog.run_read_bind, hlive.loaded]
        rfl
      show Live crypto format ((ensureLoaded crypto format).run h).2
      rw [hrun]
      exact hlive
  | persistState => exact fun h => keeps_live_persistState haead h

/-! ## The load at boot -/

/-- An applet whose load has succeeded is at work. -/
theorem live_of_ensureLoaded (haead : AeadSound crypto.prims) {h h' : Host β S V} {u : Unit}
    (hd : h.storage.Durable) (hmem : h.memory.state = none)
    (hrun : (ensureLoaded crypto format).run h = (.ok u, h')) : Live crypto format h' := by
  have hpersist : ∀ {g g' : Host β S V} {v : Unit}, g.storage.Durable →
      (persistState crypto format).run g = (.ok v, g') → Live crypto format g' := by
    intro g g' v hg hpersist
    have hcases : Persists crypto format g _ _ := persistState_cases haead hg
    have hconf := keeps_confined_persistState crypto format g hg
    have hmemory := keeps_memory_persistState.of_run hpersist
    rw [hpersist] at hcases hconf
    cases hcases with
    | done state hstate hsaved hstored =>
        refine ⟨hconf.1, ?_, state, hsaved, hstored⟩
        rw [show g'.memory = g.memory from hmemory, hstate]
        rfl
  unfold ensureLoaded at hrun
  rw [Prog.run_read_bind, hmem, Option.isSome_none, if_neg Bool.false_ne_true,
    Prog.run_read_bind] at hrun
  cases hfound : storedState crypto format h.storage with
  | some found =>
      obtain ⟨state, migrated⟩ := found
      simp only [hfound] at hrun
      rw [Prog.run_update_bind] at hrun
      cases migrated with
      | true =>
          rw [Prog.when, if_pos rfl] at hrun
          refine hpersist ?_ hrun
          exact hd
      | false =>
          cases hrun
          exact ⟨hd, rfl, state, rfl, hfound⟩
  | none =>
      simp only [hfound] at hrun
      obtain ⟨state, t, hzoom, hrun⟩ := Prog.bind_eq_ok.mp hrun
      rw [Prog.run_update_bind] at hrun
      refine hpersist ?_ hrun
      rw [Prog.run_zoom] at hzoom
      rw [← (Prod.mk.inj hzoom).2]
      exact hd

omit [AtomicBackend β] in
/-- A state that is found, and not of an older version, is taken as it is. -/
theorem ensureLoaded_found {h : Host β S V} {state : S} (hmem : h.memory.state = none)
    (hfound : storedState crypto format h.storage = some (state, false)) :
    (ensureLoaded crypto format).run h = (.ok (), { h with
      memory := { h.memory with state := some state }, saved := some state }) := by
  unfold ensureLoaded
  rw [Prog.run_read_bind, hmem, Option.isSome_none, if_neg Bool.false_ne_true, Prog.run_read_bind,
    hfound]
  rfl

/-! ## Persisting a state in memory -/

section

variable {β S V : Type} [StorageBackend β] [FallibleBackend β] {crypto : AppletCrypto}
  {format : AppletFormat S}

omit [FallibleBackend β] in
variable (crypto format) in
/-- The storage takes the blob of a state, sealed under the next draw. -/
def accepts (h : Host β S V) (state : S) : Bool :=
  match sealState crypto format state (h.rng 0) with
  | .ok blob => ((StorageEngine.store format.storageKey blob).run h.storage).1.isOk
  | .error _ => false

omit [FallibleBackend β] in
theorem accepts_congr {h g : Host β S V} (hstorage : g.storage = h.storage)
    (hrng : g.rng 0 = h.rng 0) (state : S) :
    accepts crypto format g state = accepts crypto format h state := by
  unfold accepts
  rw [hstorage, hrng]

/-- What `persist_state` leaves when it goes through: the blob of the state is on the medium. -/
structure Written (crypto : AppletCrypto) (format : AppletFormat S) (state : S)
    (h g : Host β S V) : Prop where
  accepted : accepts crypto format h state = true
  memory : g.memory = h.memory
  saved : g.saved = some state
  backend : g.storage.backend.isSome
  held : ∃ blob, g.storage.heldEntry format.storageKey = some blob ∧
    sealState crypto format state (h.rng 0) = .ok blob

/-- What it leaves when it fails: the medium is as before. -/
structure Unwritten (crypto : AppletCrypto) (format : AppletFormat S) (state : S)
    (h g : Host β S V) : Prop where
  refused : accepts crypto format h state = false
  memory : g.memory = h.memory
  saved : g.saved = h.saved
  backend : g.storage.backend.isSome
  held : g.storage.heldEntry format.storageKey = h.storage.heldEntry format.storageKey

/-- `persist_state` ends in one of these two ways, and fails with a status word only. -/
theorem persistState_ends {h : Host β S V} {state : S} (hb : h.storage.backend.isSome)
    (hmem : h.memory.state = some state) : ∃ g,
    ((persistState crypto format).run h = (.ok (), g) ∧ Written crypto format state h g) ∨
      ((persistState crypto format).run h = (.error (.status format.failure), g) ∧
        Unwritten crypto format state h g) := by
  unfold persistState
  rw [Prog.run_check_bind (by rw [hmem]; rfl : _ = Except.ok state), draw, Prog.run_act_bind]
  cases hseal : sealState crypto format state (h.rng 0) with
  | error fault =>
      have hfault : fault = .status format.failure := by
        unfold sealState at hseal
        split at hseal
        · cases hseal
        · cases hseal
          rfl
      refine ⟨_, .inr ⟨Prog.run_check_bind_error (congrArg Except.error hfault), ?_, rfl, rfl, hb,
        rfl⟩⟩
      unfold accepts
      rw [hseal]
  | ok blob =>
      simp only [Prog.run_bind, Prog.run_check, Prog.run_mapError, Prog.run_zoom]
      have haccepts : accepts crypto format h state =
          ((StorageEngine.store format.storageKey blob).run h.storage).1.isOk := by
        unfold accepts
        rw [hseal]
      obtain ⟨hb', hheld⟩ := StorageEngine.store_held hb format.storageKey blob
      generalize (StorageEngine.store format.storageKey blob).run h.storage = out at *
      obtain ⟨hok, hentry⟩ | ⟨⟨error, herror⟩, hentry⟩ := hheld
      · rw [hok] at haccepts ⊢
        exact ⟨_, .inl ⟨rfl, haccepts, rfl, rfl, hb', blob, hentry, hseal⟩⟩
      · rw [herror] at haccepts ⊢
        exact ⟨_, .inr ⟨rfl, haccepts, rfl, rfl, hb', hentry⟩⟩

omit [FallibleBackend β] in
/-- Where the state of a load has to be persisted: it is of an older version, or made anew. -/
def Made (crypto : AppletCrypto) (format : AppletFormat S) (state : S) (h : Host β S V) : Prop :=
  storedState crypto format h.storage = some (state, true) ∨
    storedState crypto format h.storage = none ∧ (format.factory.run h.rng).1 = .ok state

/-- How a load ends, with the state that it has put in memory: it was on the medium, or it is there
now, or the medium is as before. -/
inductive Loads (crypto : AppletCrypto) (format : AppletFormat S) (state : S) (h g : Host β S V) :
    Prop
  | found (stored : storedState crypto format h.storage = some (state, false))
      (saved : g.saved = some state) (storage : g.storage = h.storage)
  | written (made : Made crypto format state h) (saved : g.saved = some state)
      (held : ∃ blob entropy, g.storage.heldEntry format.storageKey = some blob ∧
        sealState crypto format state entropy = .ok blob)
  | refused (made : Made crypto format state h)
      (refusal : ∃ t : Host β S V, t.storage = h.storage ∧ accepts crypto format t state = false)
      (saved : storedState crypto format h.storage = none → g.saved = h.saved)
      (held : g.storage.heldEntry format.storageKey = h.storage.heldEntry format.storageKey)

theorem ensureLoaded_ends {h : Host β S V} (hb : h.storage.backend.isSome)
    (hmem : h.memory.state = none) {made : S} (hmade : (format.factory.run h.rng).1 = .ok made) :
    ∃ state, ((ensureLoaded crypto format).run h).2.memory = ⟨some state, h.memory.session⟩ ∧
      ((ensureLoaded crypto format).run h).2.storage.backend.isSome ∧
      Loads crypto format state h ((ensureLoaded crypto format).run h).2 := by
  have hpersist : ∀ {state : S} {g : Host β S V}, Made crypto format state h →
      g.storage = h.storage → g.memory = ⟨some state, h.memory.session⟩ →
      (storedState crypto format h.storage = none → g.saved = h.saved) →
      ((persistState crypto format).run g).2.memory = ⟨some state, h.memory.session⟩ ∧
        ((persistState crypto format).run g).2.storage.backend.isSome ∧
        Loads crypto format state h ((persistState crypto format).run g).2 := by
    intro state g hfrom hstorage hmemory hsaved
    have hgb : g.storage.backend.isSome := by
      rw [hstorage]
      exact hb
    obtain ⟨t, hends⟩ : ∃ t,
        ((persistState crypto format).run g = (.ok (), t) ∧ Written crypto format state g t) ∨
          ((persistState crypto format).run g = (.error (.status format.failure), t) ∧
            Unwritten crypto format state g t) :=
      persistState_ends hgb (congrArg Memory.state hmemory)
    obtain ⟨hrun, ht⟩ | ⟨hrun, ht⟩ := hends
    · rw [hrun]
      obtain ⟨blob, hheld, hseal⟩ := ht.held
      exact ⟨ht.memory.trans hmemory, ht.backend, .written hfrom ht.saved ⟨blob, _, hheld, hseal⟩⟩
    · rw [hrun]
      refine ⟨ht.memory.trans hmemory, ht.backend,
        .refused hfrom ⟨g, hstorage, ht.refused⟩ (fun hnone => ht.saved.trans (hsaved hnone)) ?_⟩
      rw [ht.held, hstorage]
  unfold ensureLoaded
  rw [Prog.run_read_bind, hmem, Option.isSome_none, if_neg Bool.false_ne_true, Prog.run_read_bind]
  cases hfound : storedState crypto format h.storage with
  | some found =>
      obtain ⟨state, migrated⟩ := found
      refine ⟨state, ?_⟩
      simp only
      rw [Prog.run_update_bind]
      cases migrated with
      | true =>
          refine hpersist (.inl hfound) rfl rfl fun hnone => ?_
          rw [hfound] at hnone
          cases hnone
      | false => exact ⟨rfl, hb, .found hfound rfl rfl⟩
  | none =>
      refine ⟨made, ?_⟩
      simp only
      rw [Prog.run_bind, Prog.run_zoom, hmade]
      simp only
      rw [Prog.run_update_bind]
      exact hpersist (.inr ⟨hfound, hmade⟩) rfl rfl fun _ => rfl

omit [FallibleBackend β] in
theorem run_ensureLoaded_of_loaded {h : Host β S V} {state : S}
    (hmem : h.memory.state = some state) : (ensureLoaded crypto format).run h = (.ok (), h) := by
  unfold ensureLoaded
  rw [Prog.run_read_bind, hmem]
  rfl

omit [StorageBackend β] [FallibleBackend β] in
theorem caught_eq_status {α : Type} {m : Prog (Host β S V) Fault α} {h g : Host β S V}
    {sw : UInt16} (hrun : m.run h = (.error (.status sw), g)) :
    (caught m).run h = (.ok (.error sw), g) := by
  show (Fault.status? (m.run h).1, (m.run h).2) = _
  rw [hrun]
  rfl

/-- The applet has its state in memory, over a medium. -/
def Ready (h : Host β S V) : Prop := h.storage.backend.isSome ∧ h.memory.state.isSome

/-- No operation of a ready applet panics, and it stays ready. -/
theorem answer_ready (op : AppletOp S V) {h : Host β S V} (hready : h.Ready) :
    ∃ a g, (answer crypto format op).run h = (.ok a, g) ∧ g.Ready := by
  obtain ⟨hb, hloaded⟩ := hready
  obtain ⟨state, hmem⟩ := Option.isSome_iff_exists.mp hloaded
  cases op with
  | inspect => exact ⟨_, h, rfl, hb, hloaded⟩
  | setState state => exact ⟨_, _, rfl, hb, rfl⟩
  | modifySession change => exact ⟨_, _, rfl, hb, hloaded⟩
  | draw => exact ⟨_, _, rfl, hb, hloaded⟩
  | ensureLoaded =>
      exact ⟨_, h, caught_eq_ok.mpr (run_ensureLoaded_of_loaded hmem), hb, hloaded⟩
  | persistState =>
      obtain ⟨g, hends⟩ := persistState_ends hb hmem
      obtain ⟨hrun, hg⟩ | ⟨hrun, hg⟩ := hends
      · refine ⟨_, g, caught_eq_ok.mpr hrun, hg.backend, ?_⟩
        rw [hg.memory]
        exact hloaded
      · refine ⟨_, g, caught_eq_status hrun, hg.backend, ?_⟩
        rw [hg.memory]
        exact hloaded

end

section

variable {β S : Type} [StorageBackend β] [AtomicBackend β] {crypto : AppletCrypto}
  {format : AppletFormat S}

theorem storedState_of_held (haead : AeadSound crypto.prims) {e : StorageEngine β} (he : e.Durable)
    {blob : Bytes} (hheld : e.heldEntry format.storageKey = some blob) {state : S}
    {entropy : Entropy} (hseal : sealState crypto format state entropy = .ok blob) :
    storedState crypto format e = some (state, false) := by
  show (e.value format.storageKey).bind (openBlob crypto format) = _
  rw [he.value_eq, show e.entry format.storageKey = some blob from hheld]
  exact openBlob_sealState haead hseal

theorem storedState_of_heldEntry {e e' : StorageEngine β} (he : e.Durable) (he' : e'.Durable)
    (hheld : e'.heldEntry format.storageKey = e.heldEntry format.storageKey) :
    storedState crypto format e' = storedState crypto format e :=
  storedState_congr (by
    rw [he'.value_eq, he.value_eq]
    exact hheld)

end

/-! ## How a command ends -/

section

variable {β S V : Type} [StorageBackend β] {crypto : AppletCrypto} {format : AppletFormat S}

/-- What holds of the result of a command and of the applet after it. -/
def Ends (crypto : AppletCrypto) (format : AppletFormat S) {α : Type} (command : Command S V α)
    (h : Host β S V) (Q : Except Fault α → Host β S V → Prop) : Prop :=
  Q ((perform crypto format command).run h).1 ((perform crypto format command).run h).2

namespace Ends

variable {α γ : Type} {h : Host β S V} {state : S} {Q : Except Fault γ → Host β S V → Prop}

theorem mono {command : Command S V γ} {Q' : Except Fault γ → Host β S V → Prop}
    (hends : Ends crypto format command h Q) (hQ : ∀ r g, Q r g → Q' r g) :
    Ends crypto format command h Q' := hQ _ _ hends

theorem bind {m : Command S V α} {f : α → Command S V γ}
    (hm : Ends crypto format m h fun r g => match r with
      | .ok a => Ends crypto format (f a) g Q
      | .error e => Q (.error e) g) : Ends crypto format (m >>= f) h Q := by
  unfold Ends at hm ⊢
  rw [perform, Script.run_perform_bind, Prog.run_bind]
  rw [perform] at hm
  rcases hrun : (m.perform (answer crypto format)).run h with ⟨e | a, g⟩
  · rw [hrun] at hm
    exact hm
  · rw [hrun] at hm
    exact hm

theorem pure {a : γ} (hQ : Q (.ok a) h) : Ends crypto format (pure a) h Q := hQ

theorem refuse {sw : UInt16} (hQ : Q (.error (.status sw)) h) :
    Ends crypto format (Command.refuse sw) h Q := hQ

theorem inspect {f : Memory S V → Command S V γ} (hf : Ends crypto format (f h.memory) h Q) :
    Ends crypto format (Command.inspect >>= f) h Q := hf

theorem session {f : V → Command S V γ} (hf : Ends crypto format (f h.memory.session) h Q) :
    Ends crypto format (Command.session >>= f) h Q := hf

theorem draw {f : Entropy → Command S V γ}
    (hf : Ends crypto format (f (h.rng 0)) { h with rng := fun n => h.rng (n + 1) } Q) :
    Ends crypto format (Command.draw >>= f) h Q := hf

theorem setState {f : Unit → Command S V γ}
    (hf : Ends crypto format (f ()) { h with memory := { h.memory with state := some state } } Q) :
    Ends crypto format (Command.setState state >>= f) h Q := hf

theorem modifySession {change : V → V} {f : Unit → Command S V γ}
    (hf : Ends crypto format (f ())
      { h with memory := { h.memory with session := change h.memory.session } } Q) :
    Ends crypto format (Command.modifySession change >>= f) h Q := hf

theorem require {c : Bool} {sw : UInt16} {f : Unit → Command S V γ}
    (hf : c = true → Ends crypto format (f ()) h Q)
    (hQ : c = false → Q (.error (.status sw)) h) :
    Ends crypto format (Command.require c sw >>= f) h Q := by
  cases c with
  | true => exact hf rfl
  | false => exact hQ rfl

theorem require_last {c : Bool} {sw : UInt16} {Q : Except Fault Unit → Host β S V → Prop}
    (hdone : c = true → Q (.ok ()) h) (hQ : c = false → Q (.error (.status sw)) h) :
    Ends crypto format (Command.require c sw) h Q := by
  cases c with
  | true => exact hdone rfl
  | false => exact hQ rfl

theorem orRefuse {value : Option α} {sw : UInt16} {f : α → Command S V γ}
    (hf : ∀ a, value = some a → Ends crypto format (f a) h Q)
    (hQ : value = none → Q (.error (.status sw)) h) :
    Ends crypto format (Command.orRefuse value sw >>= f) h Q := by
  cases value with
  | some a => exact hf a rfl
  | none => exact hQ rfl

theorem orFault {value : Except Fault α} {f : α → Command S V γ}
    (hf : ∀ a, value = .ok a → Ends crypto format (f a) h Q)
    (hQ : ∀ e, value = .error e → Q (.error e) h) :
    Ends crypto format (Command.orFault value >>= f) h Q := by
  cases value with
  | ok a => exact hf a rfl
  | error e => exact hQ e rfl

theorem orStatus {value : Except UInt16 α} {f : α → Command S V γ}
    (hf : ∀ a, value = .ok a → Ends crypto format (f a) h Q)
    (hQ : ∀ sw, value = .error sw → Q (.error (.status sw)) h) :
    Ends crypto format (Command.orStatus value >>= f) h Q := by
  cases value with
  | ok a => exact hf a rfl
  | error sw => exact hQ sw rfl

theorem ite {c : Prop} [Decidable c] {m₁ m₂ : Command S V γ}
    (h₁ : c → Ends crypto format m₁ h Q) (h₂ : ¬c → Ends crypto format m₂ h Q) :
    Ends crypto format (if c then m₁ else m₂) h Q := by
  split
  · next hc => exact h₁ hc
  · next hc => exact h₂ hc

section

variable (hmem : h.memory.state = some state)

include hmem

theorem tryLoad {f : Except UInt16 Unit → Command S V γ}
    (hf : Ends crypto format (f (.ok ())) h Q) :
    Ends crypto format (Command.tryLoad >>= f) h Q := by
  have hload : (caught (Host.ensureLoaded crypto format)).run h = (.ok (.ok ()), h) :=
    caught_eq_ok.mpr (run_ensureLoaded_of_loaded hmem)
  have hbind : (perform crypto format (Command.tryLoad >>= f)).run h =
      (perform crypto format (f (.ok ()))).run h :=
    (rfl : _ = ((caught (Host.ensureLoaded crypto format)) >>= fun a =>
      (perform crypto format (f a) : Prog (Host β S V) Fault γ)).run h).trans
        (Prog.run_bind_of_ok hload)
  unfold Ends at hf ⊢
  rw [hbind]
  exact hf

theorem ensureLoaded {f : Unit → Command S V γ} (hf : Ends crypto format (f ()) h Q) :
    Ends crypto format (Command.ensureLoaded >>= f) h Q :=
  bind (tryLoad hmem hf)

theorem loadedState {f : S → Command S V γ} (hf : Ends crypto format (f state) h Q) :
    Ends crypto format (Command.loadedState >>= f) h Q := by
  refine bind ?_
  unfold Command.loadedState
  refine inspect ?_
  rw [hmem]
  exact hf

theorem stateMut {f : S → Command S V γ} (hf : Ends crypto format (f state) h Q) :
    Ends crypto format (Command.stateMut >>= f) h Q := by
  refine bind (ensureLoaded hmem ?_)
  unfold Command.loadedState
  refine inspect ?_
  rw [hmem]
  exact hf

variable [FallibleBackend β] (hb : h.storage.backend.isSome)

include hb

theorem tryPersist {f : Except UInt16 Unit → Command S V γ}
    (hdone : ∀ g, Written crypto format state h g → Ends crypto format (f (.ok ())) g Q)
    (hfail : ∀ g, Unwritten crypto format state h g →
      Ends crypto format (f (.error format.failure)) g Q) :
    Ends crypto format (Command.tryPersist >>= f) h Q := by
  have hcall : ∀ {a g}, (caught (Host.persistState crypto format)).run h = (.ok a, g) →
      Ends crypto format (f a) g Q → Ends crypto format (Command.tryPersist >>= f) h Q := by
    intro a g hrun hf
    unfold Ends at hf ⊢
    have hbind : (perform crypto format (Command.tryPersist >>= f)).run h =
        (perform crypto format (f a)).run g :=
      (rfl : _ = ((caught (Host.persistState crypto format)) >>= fun a =>
        (perform crypto format (f a) : Prog (Host β S V) Fault γ)).run h).trans
          (Prog.run_bind_of_ok hrun)
    rw [hbind]
    exact hf
  obtain ⟨g, hends⟩ := persistState_ends hb hmem
  obtain ⟨hrun, hg⟩ | ⟨hrun, hg⟩ := hends
  · exact hcall (caught_eq_ok.mpr hrun) (hdone g hg)
  · exact hcall (caught_eq_status hrun) (hfail g hg)

theorem persistState {f : Unit → Command S V γ}
    (hdone : ∀ g, Written crypto format state h g → Ends crypto format (f ()) g Q)
    (hfail : ∀ g, Unwritten crypto format state h g → Q (.error (.status format.failure)) g) :
    Ends crypto format (Command.persistState >>= f) h Q :=
  bind (tryPersist hmem hb hdone hfail)

/-- An attempt of a command goes on with its result. -/
theorem attempt {m : Command S V α} {f : Except Fault α → Command S V γ}
    (hm : Ends crypto format m h fun r g => Ends crypto format (f r) g Q) :
    Ends crypto format (m.attempt >>= f) h Q := by
  have hready : h.Ready := ⟨hb, by rw [hmem]; rfl⟩
  have hanswer : ∀ (op : AppletOp S V) (g : Host β S V), g.Ready →
      ∃ a t, (answer crypto format op).run g = (.ok a, t) ∧ t.Ready := fun op _ => answer_ready op
  unfold Ends at hm ⊢
  rw [perform, Script.run_attempt_bind _ hanswer m f hready]
  exact hm

end

end Ends

end

end Host

end OpenKey
