import OpenKey.Storage.EngineView

/-!
# Reads that fail

A medium whose reads may fail at any time, but find what is held when they do not
(`TruthfulBackend`), next to the engine over a medium with the same entries of which no read fails
(`healthy`).

**Hidden entries (`value_or`).** Under every key an engine finds what its healthy copy finds, or
nothing: a read that fails looks like an entry that is absent. A write leaves the healthy copy as it
would leave it if no read failed (`healthy_afterStore`).
-/

namespace OpenKey

set_option autoImplicit false

/-- A medium that holds entries: a read fails, or finds what is held, and writes do not fail. -/
class TruthfulBackend (β : Type) [StorageBackend β] where
  /-- What the medium holds. -/
  holds : β → KvMap
  read_ok : ∀ (b : β) key found, StorageBackend.read b key = .ok found → found = (holds b)[key]?
  write_ok : ∀ (b : β) key value, ((StorageBackend.write key value).run b).1 = .ok ()
  holds_write : ∀ (b : β) key value,
    holds ((StorageBackend.write key value).run b).2 = (holds b).insert key value

instance (priority := low) {β : Type} [StorageBackend β] [LawfulBackend β] :
    TruthfulBackend β where
  holds := contents
  read_ok b key found h := by
    rw [LawfulBackend.read_eq] at h
    exact (Except.ok.inj h).symm
  write_ok := LawfulBackend.write_ok
  holds_write := LawfulBackend.contents_write

namespace StorageEngine

section

variable {β : Type} [StorageBackend β] [TruthfulBackend β]

/-- The same engine over a medium with the same entries, of which no read fails. -/
def healthy (e : StorageEngine β) : StorageEngine KvMap where
  credentials := e.credentials
  kvStore := e.kvStore
  largeBlobs := e.largeBlobs
  backend := e.backend.map TruthfulBackend.holds
  wearCounters := e.wearCounters
  maxCredentialCount := e.maxCredentialCount

/-- No failed read hides the entry under this key. -/
def Tells (e : StorageEngine β) (key : String) : Prop := e.value key = e.healthy.value key

theorem value_or (e : StorageEngine β) (key : String) : e.value key = none ∨ e.Tells key := by
  unfold Tells value retrieve healthy
  cases hbackend : e.backend with
  | none => exact .inr rfl
  | some b =>
      cases hread : StorageBackend.read b key with
      | error error =>
          refine .inl ?_
          simp only [hread]
          rfl
      | ok found =>
          refine .inr ?_
          have hfound := TruthfulBackend.read_ok b key found hread
          subst hfound
          simp only [hread, Option.map_some]
          rfl

/-! ## Writes -/

theorem run_write_truthful (key : String) (v : Bytes) (e : StorageEngine β) :
    (onBackend (StorageBackend.write key v)).run e = (.ok (), written key v e) := by
  unfold written
  cases h : e.backend with
  | none =>
      simp only [onBackend, h, Option.map_none]
      rw [← h]
  | some b => simp only [onBackend, h, TruthfulBackend.write_ok, Except.mapError, Option.map_some]

theorem healthy_written (key : String) (v : Bytes) (e : StorageEngine β) :
    (written key v e).healthy = written key v e.healthy := by
  have hbackend : (written key v e).backend.map TruthfulBackend.holds =
      (written key v e.healthy).backend := by
    unfold written healthy
    rw [Option.map_map, Option.map_map]
    exact congrArg (e.backend.map ·) (funext fun b => TruthfulBackend.holds_write b key v)
  unfold healthy
  rw [hbackend]
  rfl

theorem run_store_truthful (key : String) (v : Bytes) (e : StorageEngine β) :
    (store key v).run e = (.ok (), afterStore key v e) := by
  unfold store
  rw [Prog.run_bind_of_ok (rfl : (incrementWearCounter "kv").run e = (.ok (), _)),
    Prog.run_bind_of_ok (run_write_truthful key v _)]
  rfl

theorem healthy_afterStore (key : String) (v : Bytes) (e : StorageEngine β) :
    (afterStore key v e).healthy = afterStore key v e.healthy := by
  have h := healthy_written key v ((incrementWearCounter "kv").run e).2
  exact congrArg (fun f : StorageEngine KvMap => { f with kvStore := e.kvStore.insert key v }) h

/-- An update of a credential changes no setting of the healthy copy. -/
theorem value_healthy_updateSignCount (codec : Codec StoredCredential) (id : Bytes) (n : Nat)
    (e : StorageEngine β) {key : String} (hkey : SystemKey key) :
    ((updateSignCount codec id n).run e).2.healthy.value key = e.healthy.value key := by
  have hwrite : ∀ (v : Bytes) (f : StorageEngine β),
      ((onBackend (StorageBackend.write (credKey id) v)).run f).2.healthy.value key =
        f.healthy.value key := by
    intro v f
    rw [run_write_truthful]
    show (written _ v f).healthy.value key = _
    rw [healthy_written, value_eq, persisted_written, if_neg (hkey.2 id), value_eq]
    rfl
  unfold updateSignCount
  rw [Prog.run_read_bind]
  cases e.credentials[id]? with
  | none => rfl
  | some s => exact hwrite _ _

end

end StorageEngine

/-! ## A map whose reads fail -/

/-- A map, and the keys whose reads fail. -/
structure FaultyMap where
  entries : KvMap
  failing : List String

instance : StorageBackend FaultyMap where
  read m key :=
    if key ∈ m.failing then .error (.backendError "read failed") else .ok m.entries[key]?
  write key value := Prog.update fun m => { m with entries := m.entries.insert key value }
  delete key := Prog.update fun m => { m with entries := m.entries.erase key }
  listKeys m := .ok m.entries.keys

instance : TruthfulBackend FaultyMap where
  holds := FaultyMap.entries
  read_ok m key found h := by
    have hread : (if key ∈ m.failing then Except.error (StorageError.backendError "read failed")
        else .ok m.entries[key]?) = .ok found := h
    split at hread
    · cases hread
    · exact (Except.ok.inj hread).symm
  write_ok _ _ _ := rfl
  holds_write _ _ _ := rfl

end OpenKey
