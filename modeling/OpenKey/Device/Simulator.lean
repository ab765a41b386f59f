import OpenKey.Ctap2.Enumeration
import OpenKey.Device.PowerCycle
import OpenKey.Storage.SharedFile

/-!
# The simulator on one file

`targets/simulator/src/main.rs` opens two storage engines on one path, one for the authenticator and
one that the four applets share. The comment there says that neither deletes the keys of the other.

**What a request can touch** (`Spares`). An APDU writes under the keys of the applets only, and a
command of the authenticator under its own, with one exception: `clear`, which Reset calls, deletes
every key that the backend lists, whoever stored it.

**Runs.** Each request of a run leaves the entries of the other side alone exactly when none is a
Reset that the user confirms while the file holds the state of an applet (`stores_apart_iff`).
-/

namespace OpenKey

open Std
open Prog (Keeps)

set_option autoImplicit false

/-! ## Entries that stay -/

namespace StorageEngine

variable {β : Type} [StorageBackend β] [LawfulBackend β]

/-- The moves that change no entry of the backend under a key in `P`. -/
def Spares (P : String → Prop) : Prog.Frame (StorageEngine β) where
  rel e e' := (∀ key, P key → e'.persisted key = e.persisted key) ∧
    e'.backend.isSome = e.backend.isSome
  refl _ := ⟨fun _ _ => rfl, rfl⟩
  trans h₁ h₂ := ⟨fun key hkey => (h₂.1 key hkey).trans (h₁.1 key hkey), h₂.2.trans h₁.2⟩

section

variable {P : String → Prop}

theorem spares_of_backend {e e' : StorageEngine β} (h : e'.backend = e.backend) :
    (Spares P).rel e e' := by
  refine ⟨fun key _ => ?_, by rw [h]⟩
  unfold persisted
  rw [h]

theorem spares_write {key : String} (hkey : ¬P key) (v : Bytes) :
    Keeps (Spares P) (onBackend (StorageBackend.write key v) :
      Prog (StorageEngine β) EngineError Unit) := by
  intro e
  rw [run_onBackend_write]
  refine ⟨fun key' hkey' => ?_, by simp [written]⟩
  rw [persisted_written, if_neg]
  rintro rfl
  exact hkey hkey'

theorem spares_delete {key : String} (hkey : ¬P key) :
    Keeps (Spares P) (onBackend (StorageBackend.delete key) :
      Prog (StorageEngine β) EngineError Unit) := by
  intro e
  rw [run_onBackend_delete]
  refine ⟨fun key' hkey' => ?_, by simp [deleted]⟩
  rw [persisted_deleted, if_neg]
  rintro rfl
  exact hkey hkey'

theorem spares_update {g : StorageEngine β → StorageEngine β}
    (h : ∀ e, (g e).backend = e.backend) :
    Keeps (Spares P) (Prog.update g : Prog (StorageEngine β) EngineError Unit) :=
  .update fun e => spares_of_backend (h e)

theorem spares_store {key : String} (hkey : ¬P key) (v : Bytes) :
    Keeps (Spares P) (store key v : Prog (StorageEngine β) EngineError Unit) := by
  refine Keeps.bind ?_ fun _ => (spares_write hkey v).bind fun _ => ?_
  · exact spares_update fun _ => rfl
  · exact spares_update fun _ => rfl

theorem spares_remove {key : String} (hkey : ¬P key) :
    Keeps (Spares P) (delete key : Prog (StorageEngine β) EngineError Unit) := by
  refine Keeps.bind ?_ fun _ => ?_
  · exact (spares_delete hkey).attempt.bind fun _ => .pure ()
  · exact spares_update fun _ => rfl

variable (hcred : ∀ id, ¬P (credKey id))

include hcred

theorem spares_deleteCredential (id : Bytes) :
    Keeps (Spares P) (deleteCredential id : Prog (StorageEngine β) EngineError Bool) := by
  refine (Keeps.read _).bind fun _ => .ite (fun _ => .bind ?_ fun _ => ?_) fun _ => .pure false
  · exact spares_update fun _ => rfl
  · exact (spares_delete (hcred id)).bind fun _ => .pure true

theorem spares_makeRoom :
    Keeps (Spares P) (makeRoom : Prog (StorageEngine β) EngineError Unit) :=
  (Keeps.read _).bind fun _ => .when fun _ => (Keeps.read _).bind fun found => by
    cases found with
    | none => exact .pure ()
    | some s => exact (spares_deleteCredential hcred _).bind fun _ => .pure ()

variable (codec : Codec StoredCredential)

theorem spares_insertCredential (crypto : CryptoEngine) (credential : Credential) (nonce : Bytes) :
    Keeps (Spares P) (insertCredential codec crypto credential nonce :
      Prog (StorageEngine β) EngineError Unit) := by
  refine (Keeps.check _).bind fun _ => Keeps.bind ?_ fun _ =>
    (spares_write (hcred _) _).bind fun _ => ?_
  · exact spares_update fun _ => rfl
  · exact spares_update fun _ => rfl

theorem spares_rewriteCredential (id : Bytes) (s : StoredCredential) :
    Keeps (Spares P) (rewriteCredential codec id s : Prog (StorageEngine β) EngineError Unit) := by
  refine Keeps.bind ?_ fun _ => spares_write (hcred id) _
  exact spares_update fun _ => rfl

end

/-- The keys under which the authenticator stores nothing. -/
def Foreign (key : String) : Prop := SystemKey key ∧ key ∉ settingKeys

/-- What the commands of the authenticator call, but for `clear`, changes no foreign entry. -/
theorem storageCalls_foreign (build : Build) :
    StorageCalls build (Spares Foreign : Prog.Frame (StorageEngine β)) := by
  have hcred : ∀ id, ¬Foreign (credKey id) := fun id h => not_systemKey_credKey id h.1
  have hblobs : ¬Foreign largeBlobsStorageKey := fun h => not_systemKey_largeBlobs h.1
  refine ⟨⟨fun key hkey v _ => spares_store (fun h => h.2 hkey) v,
    fun key hkey => spares_remove fun h => h.2 hkey, fun id n => ?_, fun id name displayName => ?_,
    spares_deleteCredential hcred, fun offset data expectedLen => ?_⟩, spares_makeRoom hcred,
    spares_insertCredential hcred build.codec⟩
  · refine (Keeps.read _).bind fun found => ?_
    cases found with
    | none => exact .fail _
    | some s => exact spares_rewriteCredential hcred build.codec id _
  · refine (Keeps.read _).bind fun found => ?_
    cases found with
    | none => exact .pure false
    | some s => exact (spares_rewriteCredential hcred build.codec id _).bind fun _ => .pure true
  · refine (Keeps.check _).bind fun _ => (Keeps.read _).bind fun _ => .bind ?_ fun _ => ?_
    · exact spares_update fun _ => rfl
    · exact spares_write hblobs _

end StorageEngine

/-! ## Reset -/

namespace Auth

variable {β : Type} [StorageBackend β] [LawfulBackend β] (build : Build)

/-- A confirmed Reset leaves no setting, whoever stored it; one that is not confirmed does
nothing. -/
theorem storage_reset {cmd : UInt8} (data : Bytes) (hcmd : Ctap2Command.fromU8 cmd = .reset)
    (a : Auth β) :
    if a.present then
      (∀ key, SystemKey key → (a.step build (.command cmd data)).storage.persisted key = none) ∧
        (a.step build (.command cmd data)).storage.backend.isSome = a.storage.backend.isSome
    else (a.step build (.command cmd data)).storage = a.storage := by
  have hstep : a.step build (.command cmd data) =
      (handleReset.run { a with hmacSecretSession := none }).2 := by
    show ((processCommand build cmd data).run a).2 = _
    rw [run_processCommand_of_ne build data a (by rw [hcmd]; decide), hcmd]
    exact congrArg Prod.snd (Prog.run_map _ _ _)
  obtain ⟨b, hcore, -, hpresence⟩ := run_checkPresence { a with hmacSecretSession := none }
  have hpresent : ({ a with hmacSecretSession := none } : Auth β).present = a.present := rfl
  rw [hpresent] at hpresence
  rw [hstep]
  cases hp : a.present with
  | false =>
      rw [hp] at hpresence
      rw [if_neg Bool.false_ne_true, handleReset, Prog.run_bind_of_error hpresence]
      exact congrArg Core.storage hcore
  | true =>
      rw [if_pos rfl]
      obtain ⟨⟨error, herror⟩, -⟩ | ⟨-, hcleared⟩ := handleReset_cases
        ({ a with hmacSecretSession := none } : Auth β)
      · rw [hp] at hpresence
        rw [handleReset, Prog.run_bind_of_ok hpresence] at herror
        cases herror
      · refine ⟨fun key hkey => ?_, hcleared.backend⟩
        have hvalue := hcleared.value key hkey
        rw [StorageEngine.value_eq, Option.or_eq_none_iff] at hvalue
        exact hvalue.1

end Auth

/-! ## The simulator -/

theorem foreign_storageKey (n : AppletName) : StorageEngine.Foreign n.storageKey := by
  cases n <;> exact ⟨systemKey_of_take (by decide) (by decide), by decide⟩

/-- A request to the simulator. -/
inductive Request
  /-- A command of the authenticator. -/
  | command (cmd : UInt8) (data : Bytes)
  /-- An APDU for the card. -/
  | apdu (raw : Bytes)

/-- `Simulator` over a path, with the disk that both engines are on. -/
structure Simulator (json : TotalJson) (path : StorePath) where
  disk : LiveDisk json path
  auth : Auth (LiveFile json path)
  router : CardRouter (Card (LiveFile json path))

namespace Simulator

open Shared (mount unmount)

variable {json : TotalJson} {path : StorePath}

/-- The authenticator on the disk as it is now. -/
def mountedAuth (s : Simulator json path) : Auth (LiveFile json path) :=
  { s.auth with storage := mount s.disk s.auth.storage }

/-- The router and its applets on the disk as it is now. -/
def mountedRouter (s : Simulator json path) : CardRouter (Card (LiveFile json path)) :=
  { s.router with card := { s.router.card with storage := mount s.disk s.router.card.storage } }

section

variable (build : Build) (crypto : AppletCrypto) (patience : Nat)

/-- `with_storage_path`: two engines on the path, and the applets built over the second one. The
authenticator is configured as `config`. -/
def withStoragePath (disk : LiveDisk json path) (config : Auth (LiveFile json path))
    (rng : Nat → Entropy) : Option (Simulator json path) :=
  let engine := StorageEngine.withBackend build.codec (LiveFile.new disk)
  match (Card.build crypto patience [.management, .oath, .piv, .openPgp]).run
      (Card.blank engine rng) with
  | (.ok (), card) => some ⟨unmount disk card.storage, config.reboot engine [], ⟨card, none, none⟩⟩
  | (.error _, _) => none

/-- A request, on the disk as the others have left it. -/
def step (s : Simulator json path) : Request → Simulator json path
  | .command cmd data =>
      let a := s.mountedAuth.step build (.command cmd data)
      { s with disk := unmount s.disk a.storage, auth := a }
  | .apdu raw =>
      let r := ((CardRouter.process (Card.applets crypto patience) raw).run s.mountedRouter).2
      { s with disk := unmount s.disk r.card.storage, router := r }

end

/-- The entry in the file. -/
def entry (s : Simulator json path) (key : String) : Option Bytes := s.disk.map[key]?

/-- A key of the authenticator: a credential, a setting or the large blobs. -/
def CtapKey (key : String) : Prop :=
  (∃ id, key = credKey id) ∨ key ∈ settingKeys ∨ key = largeBlobsStorageKey

/-- A request that leads from `s` to `t` leaves the entries of the other side alone. -/
def Apart (s t : Simulator json path) : Request → Prop
  | .command _ _ => ∀ n : AppletName, t.entry n.storageKey = s.entry n.storageKey
  | .apdu _ => ∀ key, CtapKey key → t.entry key = s.entry key

/-- A Reset that the user confirms, while the file holds the state of an applet. -/
def Overreaches (s : Simulator json path) : Request → Prop
  | .command cmd _ => Ctap2Command.fromU8 cmd = .reset ∧ s.auth.present = true ∧
      ∃ n : AppletName, (s.entry n.storageKey).isSome = true
  | .apdu _ => False

/-- Both engines have a backend. -/
structure Backed (s : Simulator json path) : Prop where
  auth : s.auth.storage.backend.isSome = true
  card : s.router.card.storage.backend.isSome = true

section

variable {disk : LiveDisk json path} {e : StorageEngine (LiveFile json path)}

theorem persisted_mount (h : e.backend.isSome = true) (key : String) :
    (mount disk e).persisted key = disk.map[key]? := by
  obtain ⟨b, hb⟩ := Option.isSome_iff_exists.mp h
  unfold StorageEngine.persisted mount
  rw [hb]
  rfl

theorem isSome_mount : (mount disk e).backend.isSome = e.backend.isSome := by
  unfold mount
  rw [Option.isSome_map]

theorem map_unmount (h : e.backend.isSome = true) (key : String) :
    (unmount disk e).map[key]? = e.persisted key := by
  obtain ⟨b, hb⟩ := Option.isSome_iff_exists.mp h
  unfold StorageEngine.persisted unmount
  rw [hb]
  rfl

/-- What an engine spares while it is on the disk, the disk keeps. -/
theorem kept_of_spares {e' : StorageEngine (LiveFile json path)} {P : String → Prop}
    (h : e.backend.isSome = true) (hspares : (StorageEngine.Spares P).rel (mount disk e) e') :
    e'.backend.isSome = true ∧
      ∀ key, P key → (unmount disk e').map[key]? = disk.map[key]? := by
  have hsome : e'.backend.isSome = true := by
    rw [hspares.2, isSome_mount]
    exact h
  refine ⟨hsome, fun key hkey => ?_⟩
  rw [map_unmount hsome, hspares.1 key hkey, persisted_mount h]

end

/-! ## One request -/

theorem not_ctapKey {key : String} (h : StorageEngine.Foreign key) : ¬CtapKey key := by
  rintro (⟨id, rfl⟩ | hkey | rfl)
  · exact not_systemKey_credKey id h.1
  · exact h.2 hkey
  · exact not_systemKey_largeBlobs h.1

section

variable {build : Build} {crypto : AppletCrypto} {patience : Nat} {s : Simulator json path}

theorem step_reset (hs : s.Backed) {cmd : UInt8} (data : Bytes)
    (hcmd : Ctap2Command.fromU8 cmd = .reset) :
    (s.step build crypto patience (.command cmd data)).Backed ∧
      ∀ key, SystemKey key → (s.step build crypto patience (.command cmd data)).entry key =
        if s.auth.present then none else s.entry key := by
  have hreset := Auth.storage_reset build data hcmd s.mountedAuth
  have hpresent : s.mountedAuth.present = s.auth.present := rfl
  have hstorage : s.mountedAuth.storage = mount s.disk s.auth.storage := rfl
  rw [hpresent, hstorage] at hreset
  cases hp : s.auth.present with
  | true =>
      rw [hp, if_pos rfl] at hreset
      obtain ⟨hnone, hsome⟩ := hreset
      rw [isSome_mount, hs.auth] at hsome
      refine ⟨⟨hsome, hs.card⟩, fun key hkey => ?_⟩
      rw [if_pos rfl, ← hnone key hkey]
      exact map_unmount hsome key
  | false =>
      rw [hp, if_neg Bool.false_ne_true] at hreset
      have hsome : (mount s.disk s.auth.storage).backend.isSome = true := by
        rw [isSome_mount]
        exact hs.auth
      rw [← hreset] at hsome
      refine ⟨⟨hsome, hs.card⟩, fun key hkey => ?_⟩
      rw [if_neg Bool.false_ne_true]
      refine (map_unmount hsome key).trans ?_
      rw [hreset]
      exact persisted_mount hs.auth key

theorem step_command (hs : s.Backed) {cmd : UInt8} (data : Bytes)
    (hcmd : Ctap2Command.fromU8 cmd ≠ .reset) :
    (s.step build crypto patience (.command cmd data)).Backed ∧
      ∀ key, StorageEngine.Foreign key →
        (s.step build crypto patience (.command cmd data)).entry key = s.entry key := by
  have htouching := Auth.touching_processCommand (StorageEngine.storageCalls_foreign build) cmd data
    hcmd s.mountedAuth
  obtain ⟨hsome, hkept⟩ := kept_of_spares hs.auth htouching.1
  exact ⟨⟨hsome, hs.card⟩, hkept⟩

theorem step_apdu (hs : s.Backed) (raw : Bytes) :
    (s.step build crypto patience (.apdu raw)).Backed ∧
      ∀ key, CtapKey key →
        (s.step build crypto patience (.apdu raw)).entry key = s.entry key := by
  have hspares : ∀ (n : AppletName) (blob : Bytes), Keeps (StorageEngine.Spares CtapKey)
      (StorageEngine.store n.storageKey blob : Prog (StorageEngine (LiveFile json path)) _ _) :=
    fun n blob => StorageEngine.spares_store (not_ctapKey (foreign_storageKey n)) blob
  have hprocess := CardRouter.keeps_cardFrame_process
    (Card.within_applets crypto patience (Card.keeps_storage_perform hspares)) raw
    s.mountedRouter
  obtain ⟨hsome, hkept⟩ := kept_of_spares hs.card hprocess
  exact ⟨⟨hs.auth, hsome⟩, hkept⟩

/-- A request leaves the other side alone unless it overreaches. -/
theorem step_apart_iff (hs : s.Backed) (r : Request) :
    (s.step build crypto patience r).Backed ∧
      (s.Apart (s.step build crypto patience r) r ↔ ¬s.Overreaches r) := by
  cases r with
  | apdu raw =>
      obtain ⟨hbacked, hkept⟩ := step_apdu hs raw
      exact ⟨hbacked, fun _ => not_false, fun _ => hkept⟩
  | command cmd data =>
      by_cases hcmd : Ctap2Command.fromU8 cmd = .reset
      · obtain ⟨hbacked, hentry⟩ := step_reset hs data hcmd
        refine ⟨hbacked, fun hapart hover => ?_, fun hover n => ?_⟩
        · obtain ⟨-, hpresent, n, hsome⟩ := hover
          have hsame := hapart n
          rw [hentry _ (foreign_storageKey n).1, if_pos hpresent] at hsame
          rw [← hsame] at hsome
          cases hsome
        · rw [hentry _ (foreign_storageKey n).1]
          by_cases hpresent : s.auth.present = true
          · rw [if_pos hpresent]
            have hnone : ¬(s.entry n.storageKey).isSome = true :=
              fun hsome => hover ⟨hcmd, hpresent, n, hsome⟩
            rw [Option.not_isSome_iff_eq_none] at hnone
            exact hnone.symm
          · rw [if_neg hpresent]
      · obtain ⟨hbacked, hkept⟩ := step_command hs data hcmd
        exact ⟨hbacked, fun _ hover => hcmd hover.1, fun _ n => hkept _ (foreign_storageKey n)⟩

end

/-! ## Runs -/

section

variable (build : Build) (crypto : AppletCrypto) (patience : Nat)

/-- Every request of a run leaves the entries of the other side alone. -/
def AllApart : Simulator json path → List Request → Prop
  | _, [] => True
  | s, r :: rest => s.Apart (s.step build crypto patience r) r ∧
      AllApart (s.step build crypto patience r) rest

/-- No request of a run is a Reset that the user confirms while the file holds the state of an
applet. -/
def NoneOverreaches : Simulator json path → List Request → Prop
  | _, [] => True
  | s, r :: rest => ¬s.Overreaches r ∧ NoneOverreaches (s.step build crypto patience r) rest

theorem allApart_iff {s : Simulator json path} (hs : s.Backed) (requests : List Request) :
    s.AllApart build crypto patience requests ↔
      s.NoneOverreaches build crypto patience requests := by
  induction requests generalizing s with
  | nil => exact Iff.rfl
  | cons r rest ih =>
      obtain ⟨hbacked, hiff⟩ := step_apart_iff hs r
      exact and_congr hiff (ih hbacked)

/-- Both engines of a new simulator are on the file. -/
theorem backed_withStoragePath {disk : LiveDisk json path} {config : Auth (LiveFile json path)}
    {rng : Nat → Entropy} {s : Simulator json path}
    (h : withStoragePath build crypto patience disk config rng = some s) : s.Backed := by
  have hengine :
    (StorageEngine.withBackend build.codec (LiveFile.new disk)).backend.isSome = true := by
    rw [(StorageEngine.withBackend_eq build.codec (LiveFile.new disk)).1]
    rfl
  have hstore : ∀ (n : AppletName) (blob : Bytes), Keeps (StorageEngine.Spares fun _ => False)
      (StorageEngine.store n.storageKey blob : Prog (StorageEngine (LiveFile json path)) _ _) :=
    fun n blob => StorageEngine.spares_store id blob
  unfold withStoragePath at h
  simp only at h
  split at h
  · next card hrun =>
      have hkeeps := (Card.keeps_storage_build hstore _).of_run hrun
      cases h
      refine ⟨hengine, ?_⟩
      rw [hkeeps.2]
      exact hengine
  · cases h

/-- A simulator opens on a file that holds a state of every applet, and does not change it. -/
theorem withStoragePath_found (disk : LiveDisk json path) (config : Auth (LiveFile json path))
    (rng : Nat → Entropy) (hfound : ∀ n : AppletName,
      ((disk.map[(n.format patience).storageKey]?).bind
        (Host.openBlob crypto (n.format patience))).map (·.2) = some false) :
    ∃ s, withStoragePath build crypto patience disk config rng = some s ∧
      s.auth.present = config.present ∧ ∀ key, s.entry key = disk.map[key]? := by
  obtain ⟨engine, hengine⟩ : ∃ engine, engine =
      StorageEngine.withBackend build.codec (LiveFile.new disk) := ⟨_, rfl⟩
  obtain ⟨hbackend, hkv⟩ := StorageEngine.withBackend_eq build.codec (LiveFile.new disk)
  rw [← hengine] at hbackend hkv
  have hpersisted : ∀ key, engine.persisted key = disk.map[key]? := by
    intro key
    unfold StorageEngine.persisted
    rw [hbackend]
    rfl
  have hstored : ∀ n : AppletName, ∃ state,
      Host.storedState crypto (n.format patience) engine = some (state, false) := by
    intro n
    have hvalue : engine.value (n.format patience).storageKey =
        disk.map[(n.format patience).storageKey]? := by
      rw [StorageEngine.value_eq, hpersisted, hkv]
      simp
    have hopen := hfound n
    rw [← hvalue] at hopen
    obtain ⟨⟨state, migrated⟩, hstate, rfl⟩ := Option.map_eq_some_iff.mp hopen
    exact ⟨state, hstate⟩
  obtain ⟨card, hrun, hstorage, -⟩ := Card.build_found (c := Card.blank engine rng)
    (by decide : [AppletName.management, .oath, .piv, .openPgp].Nodup) (fun _ _ => rfl)
    fun n _ => hstored n
  refine ⟨⟨Shared.unmount disk card.storage, config.reboot engine [], ⟨card, none, none⟩⟩, ?_, rfl,
    fun key => ?_⟩
  · unfold withStoragePath
    simp only [← hengine, hrun]
  · have hsome : card.storage.backend.isSome = true := by
      rw [hstorage]
      show engine.backend.isSome = true
      rw [hbackend]
      rfl
    rw [← hpersisted key]
    refine (map_unmount hsome key).trans ?_
    rw [hstorage]
    rfl

/-- **Shared storage.** For every simulator opened on a file and every interleaving of commands and
APDUs: each of them leaves the entries of the other side as they are, exactly when none is a Reset
that the user confirms while the file holds the state of an applet. -/
theorem stores_apart_iff (disk : LiveDisk json path) (config : Auth (LiveFile json path))
    (rng : Nat → Entropy) {s : Simulator json path}
    (hopen : withStoragePath build crypto patience disk config rng = some s)
    (requests : List Request) :
    s.AllApart build crypto patience requests ↔ s.NoneOverreaches build crypto patience requests :=
  allApart_iff build crypto patience (backed_withStoragePath build crypto patience hopen) requests

end

/-! ## A simulator opened again on its file -/

/-- What the applets have left in the file, each sealed by ChaCha20-Poly1305. -/
def savedStates : KvMap := ExtTreeMap.ofList
  ([("sys:oath", 0), ("sys:mgmt", 1), ("sys:piv", 2), ("sys:openpgp", 3)].filterMap fun entry =>
    Firmware.sampleSealed[entry.2]?.map fun row => (entry.1, row.1.2.1 ++ row.2))

/-- The text of the file. -/
def savedText : String := String.ofList (Json.printObject savedStates.toList)

/-- The file, and nothing else. -/
def savedFiles (path : Path) : Option Bytes :=
  if path = samplePath.path then some (utf8 savedText) else none

theorem loads_savedFiles :
    FileStorageBackend.Loads prettyJson.toJsonFormat samplePath.path savedFiles savedStates := by
  have htext : prettyJson.toStringPretty savedStates = .ok savedText := rfl
  exact FileStorageBackend.loads_of_main _ htext (if_neg (by decide)) (if_pos rfl)

/-- A disk with the file. -/
def savedDisk : LiveDisk prettyJson samplePath := ⟨savedFiles, savedStates, loads_savedFiles⟩

/-- The key of the applets, and the algorithms. -/
def sampleApplets : AppletCrypto := Firmware.sample.cryptoOf (Firmware.draws 0x01)

/-- An authenticator without a presence button. -/
def sampleConfig : Auth (LiveFile prettyJson samplePath) :=
  Auth.new (List.replicate 16 0) sampleCrypto StorageEngine.new (fun n _ => UInt8.ofNat (n + 1))
    fun n => n

theorem opens_savedStates (n : AppletName) :
    ((savedStates[(n.format 1).storageKey]?).bind
      (Host.openBlob sampleApplets (n.format 1))).map (·.2) = some false := by
  cases n <;> decide +kernel

theorem opens_savedDisk :
    ∃ s, withStoragePath sampleBuild sampleApplets 1 savedDisk sampleConfig
        (Firmware.draws 0x01) = some s ∧
      s.auth.present = true ∧ ∀ key, s.entry key = savedStates[key]? := by
  have hmap : savedDisk.map = savedStates := LiveDisk.map_eq loads_savedFiles
  rw [← hmap]
  refine withStoragePath_found sampleBuild sampleApplets 1 savedDisk sampleConfig _ fun n => ?_
  rw [hmap]
  exact opens_savedStates n

/-- A session with an APDU and a command in turn. -/
theorem stores_apart_iff_getInfo :
    ∃ s, withStoragePath sampleBuild sampleApplets 1 savedDisk sampleConfig
        (Firmware.draws 0x01) = some s ∧
      s.AllApart sampleBuild sampleApplets 1
        [.apdu [0x00, 0xA4, 0x04, 0x00], .command 0x04 []] := by
  obtain ⟨s, hopen, -, -⟩ := opens_savedDisk
  refine ⟨s, hopen, (stores_apart_iff sampleBuild sampleApplets 1 savedDisk sampleConfig
    (Firmware.draws 0x01) hopen _).mpr ⟨not_false, ?_, trivial⟩⟩
  rintro ⟨hreset, -⟩
  exact absurd hreset (by decide)

/-- Reset of the authenticator deletes the state of the OATH applet. -/
theorem reset_deletes_applet_state :
    ∃ s, withStoragePath sampleBuild sampleApplets 1 savedDisk sampleConfig
        (Firmware.draws 0x01) = some s ∧
      (s.entry AppletName.oath.storageKey).isSome = true ∧
      (s.step sampleBuild sampleApplets 1 (.command 0x07 [])).entry AppletName.oath.storageKey =
        none ∧
      ¬s.AllApart sampleBuild sampleApplets 1 [.command 0x07 []] := by
  obtain ⟨s, hopen, hpresent, hentry⟩ := opens_savedDisk
  have hsome : (s.entry AppletName.oath.storageKey).isSome = true := by
    rw [hentry]
    decide +kernel
  have hnone : (s.step sampleBuild sampleApplets 1 (.command 0x07 [])).entry
      AppletName.oath.storageKey = none := by
    rw [(step_reset (backed_withStoragePath _ _ _ hopen) [] (by decide)).2 _
      (foreign_storageKey .oath).1, if_pos hpresent]
  refine ⟨s, hopen, hsome, hnone, fun hapart => ?_⟩
  have hsame := hapart.1 .oath
  rw [hnone] at hsame
  rw [← hsame] at hsome
  cases hsome

end Simulator

end OpenKey
