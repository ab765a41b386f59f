import OpenKey.Storage.EngineView

/-!
# Runs of the storage engine

The mutating operations as one type, what they do to the credentials, and the engines that they lead
to. A new credential makes room for itself first (`evictee`): at its limit the engine gives up the
credential of the least `created_at`, and of several such the one with the first id.
-/

namespace OpenKey

open Std

set_option autoImplicit false

/-- The mutating operations of the engine. -/
inductive EngineOp
  | store (key : String) (value : Bytes)
  | delete (key : String)
  | storeCredential (credential : Credential) (nonce : Bytes)
  | updateSignCount (credentialId : Bytes) (signCount : Nat)
  | deleteCredential (credentialId : Bytes)
  | updateUserInfo (credentialId : Bytes) (userName userDisplayName : Option String)
  | writeLargeBlobs (offset : Nat) (data : Bytes) (expectedLen : Option Nat)
  | clear
  | clearLargeBlobs

namespace StorageEngine

/-- Discard a result. -/
def void {σ ε α : Type} (m : Prog σ ε α) : Prog σ ε Unit := m >>= fun _ => pure ()

/-! ## The oldest credential -/

theorem minByKey_mem {α : Type} {key : α → Nat} {l : List α} {a : α}
    (h : minByKey key l = some a) : a ∈ l := by
  induction l generalizing a with
  | nil => cases h
  | cons x l ih =>
      rw [minByKey] at h
      cases hl : minByKey key l with
      | none =>
          rw [hl] at h
          cases h
          exact List.mem_cons_self
      | some b =>
          simp only [hl] at h
          split at h
          · cases h
            exact List.mem_cons_of_mem x (ih hl)
          · cases h
            exact List.mem_cons_self

theorem minByKey_eq_none {α : Type} {key : α → Nat} {l : List α} (h : minByKey key l = none) :
    l = [] := by
  rcases l with _ | ⟨x, l⟩
  · rfl
  · rw [minByKey] at h
    split at h
    · cases h
    · split at h <;> cases h

/-- What `min_by_key` picks is least. -/
theorem minByKey_le {α : Type} {key : α → Nat} {l : List α} {a : α}
    (h : minByKey key l = some a) : ∀ b ∈ l, key a ≤ key b := by
  induction l generalizing a with
  | nil => cases h
  | cons x l ih =>
      rw [minByKey] at h
      intro b hb
      cases hl : minByKey key l with
      | none =>
          rw [hl] at h
          cases h
          rcases List.mem_cons.mp hb with rfl | hb
          · exact Nat.le_refl _
          · rw [minByKey_eq_none hl] at hb
            cases hb
      | some m =>
          simp only [hl] at h
          have hm := ih hl
          split at h
          · next hlt =>
              cases h
              rcases List.mem_cons.mp hb with rfl | hb
              · exact Nat.le_of_lt hlt
              · exact hm b hb
          · next hge =>
              cases h
              rcases List.mem_cons.mp hb with rfl | hb
              · exact Nat.le_refl _
              · exact Nat.le_trans (Nat.not_lt.mp hge) (hm b hb)

section

variable {β : Type}

theorem mem_records {e : StorageEngine β} {s : StoredCredential} (h : s ∈ e.records) :
    ∃ id : Bytes, e.credentials[id]? = some s := by
  unfold records at h
  obtain ⟨⟨id, s'⟩, hmem, rfl⟩ := List.mem_map.mp h
  exact ⟨id, ExtTreeMap.mem_toList_iff_getElem?_eq_some.mp hmem⟩

theorem mem_records_iff {e : StorageEngine β} {s : StoredCredential} :
    s ∈ e.records ↔ ∃ id : Bytes, e.credentials[id]? = some s := by
  constructor
  · exact mem_records
  · rintro ⟨id, hid⟩
    exact List.mem_map.mpr ⟨(id, s), ExtTreeMap.mem_toList_iff_getElem?_eq_some.mpr hid, rfl⟩

/-- The credential that makes room for a new one. -/
def evictee (e : StorageEngine β) : Option StoredCredential := if e.isFull then e.oldest else none

theorem credentials_of_evictee {e : StorageEngine β} (hk : e.Keyed) {s : StoredCredential}
    (h : e.evictee = some s) : e.credentials[s.credential.credentialId]? = some s := by
  unfold evictee at h
  split at h
  · obtain ⟨id, hid⟩ := mem_records (minByKey_mem h)
    rw [hk id s hid]
    exact hid
  · cases h

/-- The credentials once there is room for a new one. -/
def roomy (e : StorageEngine β) : ExtTreeMap Bytes StoredCredential :=
  e.evictee.elim e.credentials fun s => e.credentials.erase s.credential.credentialId

theorem getElem?_roomy (e : StorageEngine β) (id : Bytes) :
    e.roomy[id]? = if e.evictee.map (·.credential.credentialId) = some id then none
      else e.credentials[id]? := by
  unfold roomy
  cases h : e.evictee with
  | none => rfl
  | some s =>
      rw [Option.elim_some, getElem?_erase_ite, Option.map_some]
      by_cases hid : id = s.credential.credentialId
      · rw [if_pos hid, if_pos (congrArg some hid.symm)]
      · rw [if_neg hid, if_neg fun heq => hid (Option.some.inj heq).symm]

variable [StorageBackend β]

theorem run_makeRoom_of_none {e : StorageEngine β} (h : e.evictee = none) :
    (makeRoom : Prog (StorageEngine β) EngineError Unit).run e = (.ok (), e) := by
  unfold makeRoom
  rw [Prog.run_read_bind, Prog.when]
  unfold evictee at h
  split at h
  · next hfull =>
      rw [if_pos hfull, pruneOldestCredential, Prog.run_read_bind, h]
      rfl
  · next hfull =>
      rw [if_neg hfull]
      rfl

theorem run_makeRoom_of_some {e : StorageEngine β} {s : StoredCredential} (h : e.evictee = some s) :
    (makeRoom : Prog (StorageEngine β) EngineError Unit).run e =
      (void (deleteCredential s.credential.credentialId)).run e := by
  unfold makeRoom
  rw [Prog.run_read_bind, Prog.when]
  unfold evictee at h
  split at h
  · next hfull =>
      rw [if_pos hfull, pruneOldestCredential, Prog.run_read_bind, h]
      rfl
  · cases h

/-- The credential that makes room is gone from memory, whatever the medium says. -/
theorem credentials_makeRoom {e : StorageEngine β} (hk : e.Keyed) :
    ((makeRoom : Prog (StorageEngine β) EngineError Unit).run e).2.credentials = e.roomy := by
  unfold roomy
  cases h : e.evictee with
  | none => rw [run_makeRoom_of_none h, Option.elim_none]
  | some s =>
      have hheld := credentials_of_evictee hk h
      rw [run_makeRoom_of_some h, void, Prog.snd_run_bind_pure, deleteCredential,
        Prog.run_read_bind, hheld, Option.isSome_some, if_pos rfl, Prog.run_update_bind,
        Prog.snd_run_bind_pure]
      obtain ⟨backend, hbackend⟩ :=
        onBackend_snd (StorageBackend.delete (credKey s.credential.credentialId))
          ({ e with credentials := e.credentials.erase s.credential.credentialId } :
            StorageEngine β)
      rw [hbackend, Option.elim_some]

end

/-! ## Operations -/

section

variable {β : Type} [StorageBackend β] (codec : Codec StoredCredential) (crypto : CryptoEngine)

/-- Run an operation. -/
def runOp : EngineOp → Prog (StorageEngine β) EngineError Unit
  | .store key value => store key value
  | .delete key => delete key
  | .storeCredential credential nonce => storeCredential codec crypto credential nonce
  | .updateSignCount id signCount => updateSignCount codec id signCount
  | .deleteCredential id => void (deleteCredential id)
  | .updateUserInfo id userName userDisplayName =>
      void (updateUserInfo codec id userName userDisplayName)
  | .writeLargeBlobs offset data expectedLen => writeLargeBlobs offset data expectedLen
  | .clear => clear
  | .clearLargeBlobs => clearLargeBlobs

/-- The engines that operations lead to, from memory or from any backend, whatever the backend
answers on the way. -/
inductive Reached : StorageEngine β → Prop
  | inMemory : Reached new
  | opened (b : β) : Reached (withBackend codec b)
  | limited {e : StorageEngine β} (max : Nat) (before : Reached e) :
      Reached { e with maxCredentialCount := some max }
  | ran {e : StorageEngine β} (op : EngineOp) (before : Reached e) :
      Reached ((runOp codec crypto op).run e).2

variable {codec crypto}

theorem keyed_runOp (op : EngineOp) :
    Prog.Keeps (.invariant Keyed) (runOp codec crypto op : Prog (StorageEngine β) _ _) := by
  cases op with
  | store key value =>
      exact (Prog.Keeps.update fun _ h => h).bind fun _ => (keyed_onBackend _).bind fun _ =>
        .update fun _ h => h
  | delete key =>
      exact ((keyed_onBackend _).attempt.bind fun _ => .pure ()).bind fun _ => .update fun _ h => h
  | storeCredential credential nonce =>
      exact keyed_makeRoom.bind fun _ => keyed_insertCredential codec crypto credential nonce
  | updateSignCount id signCount => exact keyed_updateSignCount codec id signCount
  | deleteCredential id => exact (keyed_deleteCredential id).bind fun _ => .pure ()
  | updateUserInfo id userName userDisplayName =>
      exact (keyed_updateUserInfo codec id userName userDisplayName).bind fun _ => .pure ()
  | writeLargeBlobs offset data expectedLen => exact keyed_writeLargeBlobs offset data expectedLen
  | clear =>
      refine (Prog.Keeps.read _).bind fun keys => Prog.Keeps.bind ?_ fun _ =>
        .update fun _ _ id s hs => by simp at hs
      induction keys with
      | nil => exact .pure ()
      | cons key keys ih =>
          exact ((keyed_onBackend _).attempt.bind fun _ => .pure ()).bind fun _ => ih
  | clearLargeBlobs =>
      exact (Prog.Keeps.update fun _ h => h).bind fun _ =>
        (keyed_onBackend _).attempt.bind fun _ => .pure ()

theorem Reached.keyed {e : StorageEngine β} (h : Reached codec crypto e) : Keyed e := by
  induction h with
  | inMemory => exact keyed_empty none
  | opened b => exact keyed_withBackend codec b
  | limited max before ih => exact ih
  | ran op before ih => exact keyed_runOp op _ ih

/-! ## Storing a credential -/

variable {credential : Credential} {nonce : Bytes} {e : StorageEngine β}

theorem credentialId_of_atRest {s : StoredCredential} (h : atRest crypto credential nonce = .ok s) :
    s.credential.credentialId = credential.credentialId := by
  unfold atRest at h
  split at h
  · cases h
    rfl
  · cases h

/-- A credential that is stored is added to what is left once there is room. -/
theorem credentials_storeCredential (hk : e.Keyed) {e' : StorageEngine β} {u : Unit}
    (hrun : (storeCredential codec crypto credential nonce).run e = (.ok u, e')) :
    ∃ s, atRest crypto credential nonce = .ok s ∧
      e'.credentials = e.roomy.insert credential.credentialId s := by
  obtain ⟨u₁, e₁, hroom, hrun⟩ := Prog.bind_eq_ok.mp hrun
  have hroomy : e₁.credentials = e.roomy := by
    rw [← credentials_makeRoom hk, hroom]
  obtain ⟨s, e₂, hcheck, hrun⟩ := Prog.bind_eq_ok.mp hrun
  obtain ⟨hrest, rfl⟩ := Prog.check_eq_ok.mp hcheck
  obtain ⟨u₃, e₃, hwear, hrun⟩ := Prog.bind_eq_ok.mp hrun
  cases hwear
  obtain ⟨u₄, e₄, hwrite, hrun⟩ := Prog.bind_eq_ok.mp hrun
  cases hrun
  obtain ⟨backend, hbackend⟩ := onBackend_snd
    (StorageBackend.write (credKey s.credential.credentialId) (codec.encode s))
    { e₁ with
      wearCounters := e₁.wearCounters.insert "credentials"
        ((e₁.wearCounters["credentials"]?).getD 0 + 1) }
  have hsnd : e₄ = _ := (congrArg Prod.snd hwrite).symm.trans hbackend
  refine ⟨s, hrest, ?_⟩
  rw [hsnd, credentialId_of_atRest hrest, hroomy]

end

end StorageEngine

end OpenKey
