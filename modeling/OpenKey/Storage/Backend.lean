import Std.Data.ExtTreeMap.Lemmas
import OpenKey.Library.Bytes
import OpenKey.Library.Prog

/-!
# Persistence backends

The trait `StorageBackend` of `crates/openkey-storage/src/storage.rs`: a key-value medium that
the storage engine writes through. A method on `&mut self` is a `Prog` over the backend, so a
failed call may still have changed it.

`LawfulBackend` is what the comments of the trait promise of a medium that does not fail:
`write` overwrites, `delete` of an absent key is not an error, and reads see the writes.
-/

namespace OpenKey

open Std

set_option autoImplicit false

/-- Errors of the storage layer. -/
inductive StorageError
  /-- The key is in neither the backend nor the cache. -/
  | keyNotFound (key : String)
  /-- Failure reported by the medium. -/
  | backendError (text : String)
  /-- Persisted data could not be encoded or decoded. -/
  | serializationError (text : String)
  | maxCredentialsReached (count : Nat)
  | wearLevelingThresholdExceeded (sector : String)
  | ioError (text : String)
  /-- Rejected argument, used by the large-blob limits. -/
  | invalidParameter (text : String)
  deriving DecidableEq, Repr

/-- A snapshot of a key-value medium. Rust's `BTreeMap<String, Vec<u8>>`. -/
abbrev KvMap := ExtTreeMap String Bytes

theorem ofList_toList {α β : Type} [BEq α] [LawfulBEq α] {cmp : α → α → Ordering} [TransCmp cmp]
    [LawfulEqCmp cmp] [LawfulBEqCmp cmp] (m : ExtTreeMap α β cmp) :
    ExtTreeMap.ofList m.toList cmp = m := by
  apply ExtTreeMap.ext_getElem?
  intro k
  cases h : m[k]? with
  | none =>
      apply ExtTreeMap.getElem?_ofList_of_contains_eq_false
      rw [ExtTreeMap.map_fst_toList_eq_keys]
      simp only [List.contains_eq_mem, decide_eq_false_iff_not, ExtTreeMap.mem_keys]
      intro hk
      rw [ExtTreeMap.getElem?_eq_some_getElem hk] at h
      cases h
  | some v =>
      exact ExtTreeMap.getElem?_ofList_of_mem ReflCmp.compare_self ExtTreeMap.distinct_keys_toList
        (ExtTreeMap.mem_toList_iff_getElem?_eq_some.mpr h)

section

variable {α β : Type} [DecidableEq α] {cmp : α → α → Ordering} [TransCmp cmp] [LawfulEqCmp cmp]

theorem getElem?_insert_ite (m : ExtTreeMap α β cmp) (key key' : α) (v : β) :
    (m.insert key v)[key']? = if key' = key then some v else m[key']? := by
  rw [ExtTreeMap.getElem?_insert]
  by_cases h : key' = key
  · rw [if_pos h, if_pos (by rw [h]; exact ReflCmp.compare_self)]
  · rw [if_neg h, if_neg fun hc => h (LawfulEqCmp.eq_of_compare hc).symm]

theorem getElem?_erase_ite (m : ExtTreeMap α β cmp) (key key' : α) :
    (m.erase key)[key']? = if key' = key then none else m[key']? := by
  rw [ExtTreeMap.getElem?_erase]
  by_cases h : key' = key
  · rw [if_pos h, if_pos (by rw [h]; exact ReflCmp.compare_self)]
  · rw [if_neg h, if_neg fun hc => h (LawfulEqCmp.eq_of_compare hc).symm]

end

/-- A key-value medium. -/
class StorageBackend (β : Type) where
  /-- The value under a key, or `none` if absent. -/
  read : β → String → Except StorageError (Option Bytes)
  /-- Store a value, overwriting. -/
  write : String → Bytes → Prog β StorageError Unit
  /-- Remove a key; an absent key is not an error. -/
  delete : String → Prog β StorageError Unit
  /-- All known keys. -/
  listKeys : β → Except StorageError (List String)

/-- A medium that never fails and reads back what was written. -/
class LawfulBackend (β : Type) [StorageBackend β] where
  /-- What the medium holds. -/
  contents : β → KvMap
  read_eq : ∀ (b : β) key, StorageBackend.read b key = .ok (contents b)[key]?
  write_ok : ∀ (b : β) key value, ((StorageBackend.write key value).run b).1 = .ok ()
  contents_write : ∀ (b : β) key value,
    contents ((StorageBackend.write key value).run b).2 = (contents b).insert key value
  delete_ok : ∀ (b : β) key, ((StorageBackend.delete key).run b).1 = .ok ()
  contents_delete : ∀ (b : β) key,
    contents ((StorageBackend.delete key).run b).2 = (contents b).erase key
  listKeys_eq : ∀ b : β, ∃ keys, StorageBackend.listKeys b = .ok keys ∧
    ∀ key, key ∈ keys ↔ key ∈ contents b

export LawfulBackend (contents)

/-! ## A map as a backend -/

/-- A map is a medium: the in-memory model of a backend that never fails. -/
instance : StorageBackend KvMap where
  read m key := .ok m[key]?
  write key value := Prog.update fun m => m.insert key value
  delete key := Prog.update fun m => m.erase key
  listKeys m := .ok m.keys

instance : LawfulBackend KvMap where
  contents m := m
  read_eq _ _ := rfl
  write_ok _ _ _ := rfl
  contents_write _ _ _ := rfl
  delete_ok _ _ := rfl
  contents_delete _ _ := rfl
  listKeys_eq m := ⟨m.keys, rfl, fun _ => ExtTreeMap.mem_keys⟩

end OpenKey
