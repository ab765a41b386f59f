import OpenKey.Storage.EngineAtomic
import OpenKey.Storage.FlashProof

/-!
# Entries written through to a medium that may refuse a write

A write to the two-slot flash fails when the snapshot is too large for a sector, and then the map
is the old one. `AtomicBackend` says so of a medium: every read is answered, and a write takes
effect or leaves what the medium holds as it was. The reads of a `FallibleBackend` may fail too.

**The engine** (`Durable`). Everything that the key-value store has in memory is on the medium too,
so an engine opened again on the medium reads the same entries (`value_reopened`).

**The flash** (`steadily`). As long as the generation counter has not left its 64 bits, the device
holds what the backend has in memory, so that opening it again gives the same backend.
-/

namespace OpenKey

open Std
open Prog (Keeps)

set_option autoImplicit false

/-- A medium that answers every read, and whose writes take effect or leave it as it was. -/
class AtomicBackend (β : Type) [StorageBackend β] where
  /-- What the medium holds. -/
  onMedium : β → KvMap
  read_eq : ∀ (b : β) key, StorageBackend.read b key = .ok (onMedium b)[key]?
  onMedium_write : ∀ (b : β) key value,
    ((StorageBackend.write key value).run b).1 = .ok () ∧
        onMedium ((StorageBackend.write key value).run b).2 = (onMedium b).insert key value ∨
      (∃ e, ((StorageBackend.write key value).run b).1 = .error e) ∧
        onMedium ((StorageBackend.write key value).run b).2 = onMedium b

export AtomicBackend (onMedium)

/-- A medium whose reads may fail, and whose writes take effect or leave it as it was. -/
class FallibleBackend (β : Type) [StorageBackend β] where
  /-- What the medium holds. -/
  held : β → KvMap
  read_cases : ∀ (b : β) key, StorageBackend.read b key = .ok (held b)[key]? ∨
    ∃ e, StorageBackend.read b key = .error e
  held_write : ∀ (b : β) key value,
    ((StorageBackend.write key value).run b).1 = .ok () ∧
        held ((StorageBackend.write key value).run b).2 = (held b).insert key value ∨
      (∃ e, ((StorageBackend.write key value).run b).1 = .error e) ∧
        held ((StorageBackend.write key value).run b).2 = held b

instance (β : Type) [StorageBackend β] [AtomicBackend β] : FallibleBackend β where
  held := onMedium
  read_cases b key := .inl (AtomicBackend.read_eq b key)
  held_write := AtomicBackend.onMedium_write

instance (β : Type) [StorageBackend β] [LawfulBackend β] : AtomicBackend β where
  onMedium := contents
  read_eq := LawfulBackend.read_eq
  onMedium_write b key value :=
    .inl ⟨LawfulBackend.write_ok b key value, LawfulBackend.contents_write b key value⟩

instance : AtomicBackend FaultyBackend where
  onMedium := FaultyBackend.entries
  read_eq _ _ := rfl
  onMedium_write b key value := by
    obtain ⟨entries, _ | ⟨_ | _, faults⟩⟩ := b
    · exact .inl ⟨rfl, rfl⟩
    · exact .inl ⟨rfl, rfl⟩
    · exact .inr ⟨⟨_, rfl⟩, rfl⟩

namespace StorageEngine

section Fallible

variable {β : Type} [StorageBackend β] [FallibleBackend β]

/-- The entry on the medium, whether it can be read or not. -/
def heldEntry (e : StorageEngine β) (key : String) : Option Bytes :=
  e.backend.bind fun b => (FallibleBackend.held b)[key]?

/-- A `store` puts the entry on the medium, or is refused and changes nothing there. -/
theorem store_held {e : StorageEngine β} (he : e.backend.isSome) (key : String) (v : Bytes) :
    ((store key v).run e).2.backend.isSome ∧
      (((store key v).run e).1 = .ok () ∧ ((store key v).run e).2.heldEntry key = some v ∨
        (∃ error, ((store key v).run e).1 = .error error) ∧
          ((store key v).run e).2.heldEntry key = e.heldEntry key) := by
  obtain ⟨b, hb⟩ := Option.isSome_iff_exists.mp he
  unfold heldEntry store
  rw [Prog.run_bind_of_ok (rfl : (incrementWearCounter "kv").run e = (.ok (), _)), Prog.run_bind]
  simp only [onBackend, Prog.run_update, hb]
  obtain ⟨hok, hheld⟩ | ⟨⟨error, herror⟩, hheld⟩ := FallibleBackend.held_write b key v
  · rw [hok]
    refine ⟨rfl, .inl ⟨rfl, ?_⟩⟩
    show (FallibleBackend.held _)[key]? = some v
    rw [hheld, kvMap_getElem?_insert, if_pos rfl]
  · rw [herror]
    refine ⟨rfl, .inr ⟨⟨_, rfl⟩, ?_⟩⟩
    show (FallibleBackend.held _)[key]? = _
    rw [hheld]
    rfl

/-- What a new engine reads is on the medium. -/
theorem heldEntry_of_retrieve (codec : Codec StoredCredential) {b : β} {key : String} {v : Bytes}
    (h : (withBackend codec b).retrieve key = .ok v) :
    (withBackend codec b).heldEntry key = some v := by
  obtain ⟨hbackend, hkv⟩ := withBackend_eq codec b
  unfold retrieve at h
  unfold heldEntry
  rw [hbackend, hkv] at h
  rw [hbackend, Option.bind_some]
  obtain hread | ⟨error, hread⟩ := FallibleBackend.read_cases b key
  · simp only [hread] at h
    cases hheld : (FallibleBackend.held b)[key]? with
    | none => simp [hheld] at h
    | some w =>
        rw [hheld] at h
        cases h
        rfl
  · simp only [hread] at h
    cases h

end Fallible

variable {β : Type} [StorageBackend β] [AtomicBackend β]

/-- The entry on the medium. -/
def entry (e : StorageEngine β) (key : String) : Option Bytes :=
  e.backend.bind fun b => (onMedium b)[key]?

/-- There is a medium, and it holds everything that the key-value store has in memory. -/
structure Durable (e : StorageEngine β) : Prop where
  backend : e.backend.isSome
  flushed : ∀ key v, e.kvStore[key]? = some v → e.entry key = some v

/-- A durable engine reads what is on the medium. -/
theorem Durable.value_eq {e : StorageEngine β} (he : e.Durable) (key : String) :
    e.value key = e.entry key := by
  obtain ⟨b, hb⟩ := Option.isSome_iff_exists.mp he.backend
  have hflushed := he.flushed key
  unfold entry at hflushed ⊢
  unfold value retrieve
  rw [hb] at hflushed ⊢
  simp only [AtomicBackend.read_eq, Option.bind_some] at hflushed ⊢
  cases hheld : (onMedium b)[key]? with
  | some v => rfl
  | none =>
      cases hkv : e.kvStore[key]? with
      | none => rfl
      | some v =>
          have hv := hflushed v hkv
          rw [hheld] at hv
          cases hv

/-- What a `store` does to the entries on the medium. -/
inductive Stores (key : String) (v : Bytes) (e e' : StorageEngine β) :
    Except EngineError Unit → Prop
  | done (entry : ∀ key', e'.entry key' = if key' = key then some v else e.entry key') :
      Stores key v e e' (.ok ())
  | refused (error : EngineError) (entry : ∀ key', e'.entry key' = e.entry key') :
      Stores key v e e' (.error error)

theorem store_cases {e : StorageEngine β} (he : e.Durable) (key : String) (v : Bytes) :
    ((store key v).run e).2.Durable ∧
      Stores key v e ((store key v).run e).2 ((store key v).run e).1 := by
  obtain ⟨b, hb⟩ := Option.isSome_iff_exists.mp he.backend
  have hflushed := he.flushed
  unfold entry at hflushed
  rw [hb] at hflushed
  unfold store
  rw [Prog.run_bind_of_ok (rfl : (incrementWearCounter "kv").run e = (.ok (), _)), Prog.run_bind]
  simp only [onBackend, Prog.run_update, hb]
  obtain ⟨hok, hheld⟩ | ⟨⟨error, herror⟩, hheld⟩ := AtomicBackend.onMedium_write b key v
  · rw [hok]
    simp only [Except.mapError]
    refine ⟨⟨rfl, fun key' v' hv => ?_⟩, .done fun key' => ?_⟩
    · show (onMedium _)[key']? = some v'
      rw [hheld, kvMap_getElem?_insert]
      replace hv : (e.kvStore.insert key v)[key']? = some v' := hv
      rw [kvMap_getElem?_insert] at hv
      by_cases hkey : key' = key
      · rw [if_pos hkey] at hv ⊢
        exact hv
      · rw [if_neg hkey] at hv ⊢
        exact hflushed key' v' hv
    · unfold entry
      rw [hb]
      show (onMedium _)[key']? = _
      rw [hheld, kvMap_getElem?_insert]
      rfl
  · rw [herror]
    simp only [Except.mapError]
    refine ⟨⟨rfl, fun key' v' hv => ?_⟩, .refused _ fun key' => ?_⟩
    · show (onMedium _)[key']? = some v'
      rw [hheld]
      exact hflushed key' v' hv
    · unfold entry
      rw [hb]
      show (onMedium _)[key']? = _
      rw [hheld]
      rfl

/-- The moves that keep the engine durable and change no entry but the one under `key`. -/
def confined (key : String) : Prog.Frame (StorageEngine β) where
  rel e e' := e.Durable → e'.Durable ∧ ∀ key' ≠ key, e'.entry key' = e.entry key'
  refl _ he := ⟨he, fun _ _ => rfl⟩
  trans h₁ h₂ he := by
    obtain ⟨he₁, hentry₁⟩ := h₁ he
    obtain ⟨he₂, hentry₂⟩ := h₂ he₁
    exact ⟨he₂, fun key' hkey => (hentry₂ key' hkey).trans (hentry₁ key' hkey)⟩

theorem confined_store (key : String) (v : Bytes) :
    Keeps (confined key) (store key v : Prog (StorageEngine β) EngineError Unit) := by
  intro e he
  obtain ⟨he', hstores⟩ := store_cases he key v
  refine ⟨he', fun key' hkey => ?_⟩
  generalize ((store key v).run e).1 = result at hstores
  cases hstores with
  | done hentry => rw [hentry, if_neg hkey]
  | refused error hentry => exact hentry key'

variable (codec : Codec StoredCredential)

theorem durable_withBackend (b : β) : (withBackend codec b).Durable := by
  obtain ⟨hbackend, hkv⟩ := withBackend_eq codec b
  refine ⟨by rw [hbackend]; rfl, fun key v hv => ?_⟩
  rw [hkv] at hv
  simp at hv

/-- An engine opened on the medium of a durable one reads the same entries. -/
theorem value_reopened {e : StorageEngine β} {b : β} (he : e.Durable) (hb : e.backend = some b)
    (key : String) : (withBackend codec b).value key = e.value key := by
  rw [(durable_withBackend codec b).value_eq, he.value_eq]
  unfold entry
  rw [(withBackend_eq codec b).1, hb]

end StorageEngine

/-! ## The two-slot flash -/

namespace FlashStorageBackend

section

variable {δ : Type} [FlashDevice δ] (codec : Codec KvMap)

theorem keeps_cache_commit (cache : KvMap) : Keeps (Prog.Frame.constant FlashStorageBackend.cache)
    (commit codec cache : Prog (FlashStorageBackend δ) StorageError Unit) := by
  have hdevice : ∀ m, Keeps (Prog.Frame.constant FlashStorageBackend.cache)
      (onDevice m : Prog (FlashStorageBackend δ) StorageError Unit) := fun m b => rfl
  exact (Keeps.read _).bind fun _ => (Keeps.ensure _ _).bind fun _ => (Keeps.read _).bind fun _ =>
    (hdevice _).bind fun _ => (Keeps.read _).bind fun _ => (hdevice _).bind fun _ =>
      (hdevice _).bind fun _ => Keeps.update fun _ => rfl

/-- The map is the new one exactly when the commit went through. -/
theorem cache_commitCache (f : KvMap → KvMap) (b : FlashStorageBackend δ) :
    ((commitCache codec f).run b).1 = .ok () ∧ ((commitCache codec f).run b).2.cache = f b.cache ∨
      (∃ e, ((commitCache codec f).run b).1 = .error e) ∧
        ((commitCache codec f).run b).2.cache = b.cache := by
  have hcache := keeps_cache_commit codec (f b.cache) b
  rw [commitCache, Prog.run_read_bind, Prog.run_bind]
  rcases hrun : (commit codec (f b.cache)).run b with ⟨e | _, b'⟩
  · rw [hrun] at hcache
    exact .inr ⟨⟨e, rfl⟩, hcache⟩
  · exact .inl ⟨rfl, rfl⟩

/-- The flash as a medium. -/
@[reducible] def atomicBackend :
    @AtomicBackend (FlashStorageBackend δ) (storageBackend codec) :=
  @AtomicBackend.mk _ (storageBackend codec) FlashStorageBackend.cache (fun _ _ => rfl)
    fun b key value => cache_commitCache codec (fun cache => cache.insert key value) b

end

variable (codec : Codec KvMap)

/-- A usable device on a lasting supply. -/
structure Steady (b : FlashStorageBackend NorFlash) : Prop where
  usable : b.device.Usable
  power : b.device.power = none

/-- The moves that keep memory and device consistent while the generation counter fits its 64
bits. -/
def steadily : Prog.Frame (FlashStorageBackend NorFlash) where
  rel b b' := Steady b → Steady b' ∧ b.generation ≤ b'.generation ∧
    (b'.generation < 2 ^ 64 → Consistent codec b → Consistent codec b')
  refl _ h := ⟨h, Nat.le_refl _, fun _ hb => hb⟩
  trans h₁ h₂ h := by
    obtain ⟨hs₁, hle₁, hc₁⟩ := h₁ h
    obtain ⟨hs₂, hle₂, hc₂⟩ := h₂ hs₁
    exact ⟨hs₂, hle₁.trans hle₂, fun hgen hb => hc₂ hgen (hc₁ (hle₂.trans_lt hgen) hb)⟩

end FlashStorageBackend

namespace NorFlash

theorem keeps_power_eraseSector (sector : Nat) :
    Keeps (.invariant fun d : NorFlash => d.power = none) (eraseSector sector) := by
  intro d hd
  unfold eraseSector
  simp only
  split
  · exact hd
  · split
    · exact hd
    · show d.drain 1 = none
      rw [drain, hd]
      rfl

theorem keeps_power_program (offset : Nat) (data : Bytes) :
    Keeps (.invariant fun d : NorFlash => d.power = none) (program offset data) := by
  intro d hd
  have hdrain : ∀ n, d.drain n = none := fun n => by rw [drain, hd]; rfl
  unfold program
  simp only
  split
  · exact hd
  · split
    · exact hdrain _
    · exact hdrain _

end NorFlash

namespace FlashStorageBackend

variable (codec : Codec KvMap)

theorem keeps_power_commit (cache : KvMap) :
    Keeps (.invariant fun b : FlashStorageBackend NorFlash => b.device.power = none)
      (commit codec cache) := by
  have hdevice : ∀ m, Keeps (.invariant fun d : NorFlash => d.power = none) m →
      Keeps (.invariant fun b : FlashStorageBackend NorFlash => b.device.power = none)
        (onDevice m) := fun m hm b => hm b.device
  exact (Keeps.read _).bind fun _ => (Keeps.ensure _ _).bind fun _ => (Keeps.read _).bind fun _ =>
    (hdevice _ (NorFlash.keeps_power_eraseSector _)).bind fun _ => (Keeps.read _).bind fun _ =>
      (hdevice _ (NorFlash.keeps_power_program _ _)).bind fun _ =>
        (hdevice _ (NorFlash.keeps_power_program _ _)).bind fun _ => Keeps.update fun _ h => h

theorem keeps_steadily (f : KvMap → KvMap) : Keeps (steadily codec) (commitCache codec f) := by
  intro b hb
  have hpower := keeps_power_commit codec (f b.cache) b hb.power
  have hout := commit_outcome codec hb.usable (f b.cache)
  rw [run_commitCache]
  generalize (commit codec (f b.cache)).run b = out at hpower hout
  cases hout with
  | refused e why => exact ⟨hb, Nat.le_refl _, fun _ h => h⟩
  | torn e k d hcut =>
      rw [hb.power] at hcut
      cases hcut
  | done d hfits hw =>
      exact ⟨⟨hw.usable hb.usable, hpower⟩, Nat.le_succ _, fun hgen h => h.done codec hgen hfits hw⟩

end FlashStorageBackend

end OpenKey
