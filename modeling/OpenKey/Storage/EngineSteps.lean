import OpenKey.Storage.EngineRuns
import OpenKey.Storage.LargeBlobs

/-!
# Steps of the storage engine

Over a medium that does not fail, every operation but `clear` is a few steps, each of which changes
memory and medium alike. What the steps keep, the operations keep (`Steady`, `Stable`).
-/

namespace OpenKey

open Std
open Prog (Keeps)

set_option autoImplicit false

namespace StorageEngine

variable {β : Type} [StorageBackend β] [LawfulBackend β]

/-! ## Steps -/

/-- The engine once a credential is deleted. -/
def afterDeleteCredential (id : Bytes) (e : StorageEngine β) : StorageEngine β :=
  deleted (credKey id) { e with credentials := e.credentials.erase id }

/-- The engine once a record is rewritten. -/
def afterRewrite (codec : Codec StoredCredential) (id : Bytes) (s : StoredCredential)
    (e : StorageEngine β) : StorageEngine β :=
  written (credKey id) (codec.encode s) { e with credentials := e.credentials.insert id s }

/-- The engine once a record is added. -/
def afterInsert (codec : Codec StoredCredential) (s : StoredCredential) (e : StorageEngine β) :
    StorageEngine β :=
  { written (credKey s.credential.credentialId) (codec.encode s)
      ((incrementWearCounter "credentials").run e).2 with
    credentials := e.credentials.insert s.credential.credentialId s }

/-- The engine once the large blobs are written. -/
def afterBlobs (blobs : Bytes) (e : StorageEngine β) : StorageEngine β :=
  written largeBlobsStorageKey blobs { e with largeBlobs := blobs }

/-- The engine once they are cleared. -/
def afterClearBlobs (e : StorageEngine β) : StorageEngine β :=
  deleted largeBlobsStorageKey { e with largeBlobs := [] }

theorem run_deleteCredential (id : Bytes) (e : StorageEngine β) :
    (deleteCredential id).run e =
      if id ∈ e.credentials then (.ok true, afterDeleteCredential id e) else (.ok false, e) := by
  rw [deleteCredential, Prog.run_read_bind]
  by_cases hid : id ∈ e.credentials
  · rw [if_pos hid, if_pos (ExtTreeMap.mem_iff_isSome_getElem?.mp hid), Prog.run_update_bind,
      Prog.run_bind_of_ok (run_onBackend_delete _ _)]
    rfl
  · rw [if_neg hid, if_neg fun h => hid (ExtTreeMap.mem_iff_isSome_getElem?.mpr h)]
    rfl

theorem run_rewriteCredential (codec : Codec StoredCredential) (id : Bytes) (s : StoredCredential)
    (e : StorageEngine β) :
    (rewriteCredential codec id s).run e = (.ok (), afterRewrite codec id s e) := by
  rw [rewriteCredential, Prog.run_update_bind, writeCredential, run_onBackend_write]
  rfl

/-- A record with other names of the user. -/
def renamed (userName userDisplayName : Option String) (s : StoredCredential) : StoredCredential :=
  { s with credential := { s.credential with
    userName := userName, userDisplayName := userDisplayName } }

theorem run_updateUserInfo (codec : Codec StoredCredential) (id : Bytes)
    (userName userDisplayName : Option String) (e : StorageEngine β) :
    (updateUserInfo codec id userName userDisplayName).run e =
      e.credentials[id]?.elim (.ok false, e) fun s =>
        (.ok true, afterRewrite codec id (renamed userName userDisplayName s) e) := by
  rw [updateUserInfo, Prog.run_read_bind]
  cases e.credentials[id]? with
  | none => rfl
  | some s => exact Prog.run_bind_of_ok (run_rewriteCredential codec id _ e)

theorem run_insertCredential (codec : Codec StoredCredential) {crypto : CryptoEngine}
    {credential : Credential} {nonce : Bytes} {s : StoredCredential}
    (h : atRest crypto credential nonce = .ok s) (e : StorageEngine β) :
    (insertCredential codec crypto credential nonce).run e = (.ok (), afterInsert codec s e) := by
  rw [insertCredential, Prog.run_bind_of_ok (Prod.ext h rfl), incrementWearCounter,
    Prog.run_update_bind, writeCredential, Prog.run_bind_of_ok (run_onBackend_write _ _ _)]
  rfl

theorem run_clearLargeBlobs (e : StorageEngine β) :
    clearLargeBlobs.run e = (.ok (), afterClearBlobs e) := by
  rw [clearLargeBlobs, Prog.run_update_bind, run_onBackendIgnored_delete]
  rfl

/-! ## What the steps keep -/

/-- A property that every step keeps but the addition of an entry or a record. -/
structure Lasting (codec : Codec StoredCredential) (P : StorageEngine β → Prop) : Prop where
  delete : ∀ {e : StorageEngine β} {key : String}, SystemKey key → P e → P (afterDelete key e)
  erase : ∀ {e : StorageEngine β} (id : Bytes), P e → P (afterDeleteCredential id e)
  rewrite : ∀ {e : StorageEngine β} {id : Bytes} {s s' : StoredCredential},
    e.credentials[id]? = some s → s'.credential.credentialId = s.credential.credentialId → P e →
      P (afterRewrite codec id s' e)
  blobs : ∀ {e : StorageEngine β} (blobs : Bytes), P e → P (afterBlobs blobs e)
  clearBlobs : ∀ {e : StorageEngine β}, P e → P (afterClearBlobs e)

/-- A property that every step keeps but the addition of a record. -/
structure Steady (codec : Codec StoredCredential) (P : StorageEngine β → Prop) : Prop
    extends Lasting codec P where
  store : ∀ {e : StorageEngine β} {key : String}, SystemKey key → ∀ v, P e → P (afterStore key v e)

/-- A property that every step keeps. -/
structure Stable (codec : Codec StoredCredential) (P : StorageEngine β → Prop) : Prop
    extends Steady codec P where
  insert : ∀ {e : StorageEngine β} (s : StoredCredential), P e → P (afterInsert codec s e)

section

variable {codec : Codec StoredCredential} {P : StorageEngine β → Prop}

omit [LawfulBackend β] in
theorem Steady.and {Q : StorageEngine β → Prop} (h : Steady codec P) (h' : Steady codec Q) :
    Steady codec fun e => P e ∧ Q e where
  store hkey v he := ⟨h.store hkey v he.1, h'.store hkey v he.2⟩
  delete hkey he := ⟨h.delete hkey he.1, h'.delete hkey he.2⟩
  erase id he := ⟨h.erase id he.1, h'.erase id he.2⟩
  rewrite hs hid he := ⟨h.rewrite hs hid he.1, h'.rewrite hs hid he.2⟩
  blobs v he := ⟨h.blobs v he.1, h'.blobs v he.2⟩
  clearBlobs he := ⟨h.clearBlobs he.1, h'.clearBlobs he.2⟩

theorem Steady.keeps_store (h : Steady codec P) {key : String} (hkey : SystemKey key) (v : Bytes) :
    Keeps (.invariant P) (StorageEngine.store key v) := by
  intro e he
  rw [run_store]
  exact h.store hkey v he

variable (h : Lasting codec P)

include h

theorem Lasting.keeps_delete {key : String} (hkey : SystemKey key) :
    Keeps (.invariant P) (StorageEngine.delete key) := by
  intro e he
  rw [run_delete]
  exact h.delete hkey he

theorem Lasting.keeps_deleteCredential (id : Bytes) :
    Keeps (.invariant P) (deleteCredential id) := by
  intro e he
  rw [run_deleteCredential]
  split
  · exact h.erase id he
  · exact he

theorem Lasting.keeps_updateSignCount (id : Bytes) (n : Nat) :
    Keeps (.invariant P) (updateSignCount codec id n) := by
  intro e he
  rw [updateSignCount, Prog.run_read_bind]
  cases hs : e.credentials[id]? with
  | none => exact he
  | some s =>
      rw [run_rewriteCredential]
      exact h.rewrite hs rfl he

theorem Lasting.keeps_updateUserInfo (id : Bytes) (userName userDisplayName : Option String) :
    Keeps (.invariant P) (updateUserInfo codec id userName userDisplayName) := by
  intro e he
  rw [run_updateUserInfo]
  cases hs : e.credentials[id]? with
  | none => exact he
  | some s => exact h.rewrite hs rfl he

theorem Lasting.keeps_writeLargeBlobs (offset : Nat) (data : Bytes) (expectedLen : Option Nat) :
    Keeps (.invariant P) (writeLargeBlobs offset data expectedLen) := by
  intro e he
  cases hcheck : e.checkLargeBlobs offset data expectedLen with
  | error error =>
      rw [run_writeLargeBlobs_refused hcheck]
      exact he
  | ok last =>
      rw [writeLargeBlobs, Prog.run_bind_of_ok (Prod.ext hcheck rfl), Prog.run_read_bind,
        Prog.run_update_bind, run_onBackend_write]
      exact h.blobs _ he

theorem Lasting.keeps_clearLargeBlobs : Keeps (.invariant P) clearLargeBlobs := by
  intro e he
  rw [run_clearLargeBlobs]
  exact h.clearBlobs he

theorem Lasting.keeps_makeRoom : Keeps (.invariant P) makeRoom :=
  (Keeps.read _).bind fun _ => .when fun _ => (Keeps.read _).bind fun found => by
    cases found with
    | none => exact .pure ()
    | some s => exact (h.keeps_deleteCredential _).bind fun _ => .pure ()

end

theorem keeps_insertCredential {codec : Codec StoredCredential} {P : StorageEngine β → Prop}
    (h : ∀ {e : StorageEngine β} (s : StoredCredential), P e → P (afterInsert codec s e))
    (crypto : CryptoEngine) (credential : Credential) (nonce : Bytes) :
    Keeps (.invariant P) (insertCredential codec crypto credential nonce) := by
  intro e he
  cases hrest : atRest crypto credential nonce with
  | error error =>
      rw [insertCredential, Prog.run_bind_of_error (Prod.ext hrest rfl)]
      exact he
  | ok s =>
      rw [run_insertCredential codec hrest]
      exact h s he

theorem Stable.keeps_insertCredential {codec : Codec StoredCredential}
    {P : StorageEngine β → Prop} (h : Stable codec P) (crypto : CryptoEngine)
    (credential : Credential) (nonce : Bytes) :
    Keeps (.invariant P) (insertCredential codec crypto credential nonce) :=
  StorageEngine.keeps_insertCredential h.insert crypto credential nonce

end StorageEngine

end OpenKey
