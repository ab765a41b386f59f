import OpenKey.Storage.EngineRuns
import OpenKey.Storage.EngineSteps

/-!
# A property of all records

Over any backend, whatever fails: an operation adds a record, removes one, or changes the signature
counter or the user names of one. A property of records that the last two respect
(`StoredCredential.Lasting`) therefore holds of every record in memory as long as it holds of the
records that are added.
-/

namespace OpenKey

open Std
open Prog (Keeps)

set_option autoImplicit false

/-- A record without what later commands change of it. -/
def StoredCredential.origin (s : StoredCredential) : StoredCredential :=
  { s with credential := { s.credential with
      signCount := 0, userName := none, userDisplayName := none } }

/-- A property of records that the signature counter and the user names do not touch. -/
structure StoredCredential.Lasting (P : Bytes → StoredCredential → Prop) : Prop where
  counted : ∀ {id : Bytes} {s : StoredCredential} (n : Nat), P id s →
    P id { s with credential := { s.credential with signCount := n } }
  renamed : ∀ {id : Bytes} {s : StoredCredential} (userName userDisplayName : Option String),
    P id s → P id { s with credential := { s.credential with
      userName := userName, userDisplayName := userDisplayName } }

namespace StorageEngine

variable {β : Type} [StorageBackend β] {P : Bytes → StoredCredential → Prop}
  {codec : Codec StoredCredential}

/-- Every record in memory has the property, under its id. -/
def Records (P : Bytes → StoredCredential → Prop) (e : StorageEngine β) : Prop :=
  ∀ (id : Bytes) (s : StoredCredential), e.credentials[id]? = some s → P id s

omit [StorageBackend β] in
theorem Records.of_credentials {e e' : StorageEngine β} (h : Records P e)
    (hcredentials : e'.credentials = e.credentials) : Records P e' := by
  intro id s hs
  rw [hcredentials] at hs
  exact h id s hs

omit [StorageBackend β] in
theorem Records.insert {e : StorageEngine β} (h : Records P e) {id : Bytes} {s : StoredCredential}
    (hs : P id s) : Records P { e with credentials := e.credentials.insert id s } := by
  intro id' s' hs'
  rw [getElem?_insert_ite] at hs'
  split at hs'
  · next hid =>
      cases hs'
      rw [hid]
      exact hs
  · exact h id' s' hs'

omit [StorageBackend β] in
theorem Records.erase {e : StorageEngine β} (h : Records P e) (id : Bytes) :
    Records P { e with credentials := e.credentials.erase id } := by
  intro id' s' hs'
  rw [getElem?_erase_ite] at hs'
  split at hs'
  · cases hs'
  · exact h id' s' hs'

omit [StorageBackend β] in
theorem records_of_empty {e : StorageEngine β} (h : e.credentials = ∅) : Records P e := by
  intro id s hs
  rw [h] at hs
  simp at hs

/-! ## Operations -/

omit [StorageBackend β] in
theorem records_onBackend (m : Prog β StorageError Unit) :
    Keeps (.invariant (Records P)) (onBackend m) := by
  intro e h
  obtain ⟨backend, hsnd⟩ := onBackend_snd m e
  rw [hsnd]
  exact h

omit [StorageBackend β] in
theorem records_onBackendIgnored (m : Prog β StorageError Unit) :
    Keeps (.invariant (Records P)) (onBackendIgnored m) :=
  (Keeps.attempt (records_onBackend m)).bind fun _ => .pure ()

theorem records_store (key : String) (v : Bytes) :
    Keeps (.invariant (Records P)) (store key v : Prog (StorageEngine β) EngineError Unit) :=
  (Keeps.update fun _ h => h).bind fun _ => (records_onBackend _).bind fun _ => .update fun _ h => h

theorem records_delete (key : String) :
    Keeps (.invariant (Records P)) (delete key : Prog (StorageEngine β) EngineError Unit) :=
  (records_onBackendIgnored _).bind fun _ => .update fun _ h => h

theorem records_deleteCredential (id : Bytes) :
    Keeps (.invariant (Records P)) (deleteCredential id : Prog (StorageEngine β) _ _) :=
  (Keeps.read _).bind fun _ => .ite
    (fun _ => (Keeps.update fun _ h => h.erase id).bind fun _ =>
      (records_onBackend _).bind fun _ => .pure true)
    fun _ => .pure false

theorem records_makeRoom :
    Keeps (.invariant (Records P)) (makeRoom : Prog (StorageEngine β) EngineError Unit) :=
  (Keeps.read _).bind fun _ => .when fun _ => (Keeps.read _).bind fun found => by
    cases found with
    | none => exact .pure ()
    | some s => exact (records_deleteCredential _).bind fun _ => .pure ()

theorem records_writeLargeBlobs (offset : Nat) (data : Bytes) (expectedLen : Option Nat) :
    Keeps (.invariant (Records P))
      (writeLargeBlobs offset data expectedLen : Prog (StorageEngine β) _ _) :=
  (Keeps.check _).bind fun _ => (Keeps.read _).bind fun _ =>
    (Keeps.update fun _ h => h).bind fun _ => records_onBackend _

theorem records_clearLargeBlobs :
    Keeps (.invariant (Records P)) (clearLargeBlobs : Prog (StorageEngine β) EngineError Unit) :=
  (Keeps.update fun _ h => h).bind fun _ => records_onBackendIgnored _

theorem records_clear :
    Keeps (.invariant (Records P)) (clear : Prog (StorageEngine β) EngineError Unit) := by
  have hall : ∀ keys, Keeps (.invariant (Records P))
      (deleteAll keys : Prog (StorageEngine β) EngineError Unit) := by
    intro keys
    induction keys with
    | nil => exact .pure ()
    | cons key keys ih => exact (records_onBackendIgnored _).bind fun _ => ih
  exact (Keeps.read _).bind fun keys => (hall keys).bind fun _ =>
    .update fun _ _ => records_of_empty rfl

theorem records_rewriteCredential {e : StorageEngine β} (h : Records P e) {id : Bytes}
    {s : StoredCredential} (hs : P id s) :
    Records P ((rewriteCredential codec id s).run e).2 :=
  records_onBackend _ _ (h.insert hs)

theorem records_updateSignCount (hP : StoredCredential.Lasting P) (id : Bytes) (n : Nat) :
    Keeps (.invariant (Records P)) (updateSignCount codec id n : Prog (StorageEngine β) _ _) := by
  intro e h
  unfold updateSignCount
  rw [Prog.run_read_bind]
  cases hs : e.credentials[id]? with
  | none => exact h
  | some s => exact records_rewriteCredential h (hP.counted n (h id s hs))

theorem records_updateUserInfo (hP : StoredCredential.Lasting P) (id : Bytes)
    (userName userDisplayName : Option String) :
    Keeps (.invariant (Records P))
      (updateUserInfo codec id userName userDisplayName : Prog (StorageEngine β) _ _) := by
  intro e h
  unfold updateUserInfo
  rw [Prog.run_read_bind]
  cases hs : e.credentials[id]? with
  | none => exact h
  | some s =>
      simp only [Prog.snd_run_bind_pure]
      exact records_rewriteCredential h (hP.renamed userName userDisplayName (h id s hs))

/-- A record that is added must have the property; one that is not stored need not. -/
theorem records_insertCredential {crypto : CryptoEngine} {credential : Credential} {nonce : Bytes}
    (hP : ∀ s, atRest crypto credential nonce = .ok s → P s.credential.credentialId s) :
    Keeps (.invariant (Records P))
      (insertCredential codec crypto credential nonce : Prog (StorageEngine β) _ _) := by
  have hadd : ∀ s, P s.credential.credentialId s → Keeps (.invariant (Records P)) (do
      incrementWearCounter "credentials"
      writeCredential codec s.credential.credentialId s
      Prog.update fun e =>
        { e with credentials := e.credentials.insert s.credential.credentialId s } :
      Prog (StorageEngine β) EngineError Unit) := fun s hs =>
    (Keeps.update fun _ h => h).bind fun _ => (records_onBackend _).bind fun _ =>
      .update fun _ h => h.insert hs
  intro e h
  cases hrest : atRest crypto credential nonce with
  | error error =>
      rw [insertCredential, Prog.run_bind_of_error (Prod.ext hrest rfl)]
      exact h
  | ok s =>
      rw [insertCredential, Prog.run_bind_of_ok (Prod.ext hrest rfl)]
      exact hadd s (hP s hrest) e h

end StorageEngine

end OpenKey
