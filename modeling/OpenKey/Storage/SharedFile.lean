import Mathlib.Data.List.Induction
import OpenKey.Library.Json
import OpenKey.Storage.EngineView
import OpenKey.Storage.FileProof

/-!
# Engines that share a file

Several storage engines opened on one path, as the simulator does for CTAP2 and the smart-card
applets. The file is what all of them wrote, in order: no flush loses a key. Each engine also
keeps the entries that it stored itself, and falls back on them when the file has no such key.
That copy is what brings a key back that another engine has deleted.

**The medium** (`LiveFile`). A file backend on a disk that does not fail, as a structure that
carries the invariant: no crash is due, and the files load. It is a lawful backend.

**The engines** (`Shared`). One disk, and an engine for each index; a call by one of them runs on
the disk as the others have left it.

Main result: `shared_retrieve_iff`.
-/

namespace OpenKey

open Std

set_option autoImplicit false

/-! ## Files on a disk that does not fail -/

namespace Disk

variable {files : Path → Option Bytes}

theorem run_step {f : (Path → Option Bytes) → Except StorageError (Path → Option Bytes)}
    {files' : Path → Option Bytes} (h : f files = .ok files') :
    (step f).run ⟨files, none⟩ = (.ok (), ⟨files', none⟩) := by
  simp only [step, h]
  rfl

theorem run_writeAll (path : Path) (contents : Bytes) {old : Bytes} (h : files path = some old) :
    (writeAll path contents).run ⟨files, none⟩ =
      (.ok (), ⟨Function.update files path (some (old ++ contents)), none⟩) := by
  induction contents generalizing files old with
  | nil =>
      rw [List.append_nil, ← h, Function.update_eq_self]
      rfl
  | cons byte contents ih =>
      have hstep : (append path byte).run ⟨files, none⟩ =
          (.ok (), ⟨Function.update files path (some (old ++ [byte])), none⟩) :=
        run_step (by rw [h]; rfl)
      rw [writeAll, Prog.run_bind_of_ok hstep, ih (Function.update_self ..), Function.update_idem,
        List.append_assoc]
      rfl

theorem run_writeDurable (path : Path) (contents : Bytes) :
    (writeDurable path contents).run ⟨files, none⟩ =
      (.ok (), ⟨Function.update files path (some contents), none⟩) := by
  have hstep : (create path).run ⟨files, none⟩ =
      (.ok (), ⟨Function.update files path (some []), none⟩) := run_step rfl
  rw [writeDurable, Prog.run_bind_of_ok hstep, run_writeAll path contents
    (Function.update_self ..), Function.update_idem, List.nil_append]

theorem run_removeFile {path : Path} (h : (files path).isSome = true) :
    (removeFile path).run ⟨files, none⟩ = (.ok (), ⟨Function.update files path none, none⟩) :=
  run_step (if_pos h)

theorem run_replaceFile {source destination : Path} (hne : source ≠ destination)
    {contents : Bytes} (h : files source = some contents) :
    (replaceFile source destination).run ⟨files, none⟩ =
      (.ok (), ⟨Function.update (Function.update files source none) destination (some contents),
        none⟩) := by
  have hrename : ∀ files : Path → Option Bytes, files source = some contents →
      (rename source destination).run ⟨files, none⟩ = (.ok (), ⟨Function.update
        (Function.update files source none) destination (some contents), none⟩) := by
    intro files hs
    refine run_step ?_
    rw [hs]
  rw [replaceFile, Prog.run_read_bind]
  cases hd : (files destination).isSome with
  | false => exact hrename files h
  | true =>
      have hs : Function.update files destination none source = some contents := by
        rw [Function.update_of_ne hne, h]
      rw [Prog.when, if_pos rfl, Prog.run_bind_of_ok (run_removeFile hd), hrename _ hs,
        Function.update_comm hne.symm, Function.update_idem]

end Disk

namespace FileStorageBackend

/-- A flush leaves the contents in the main file and no journal. -/
theorem run_flushFiles {path : Path} (hjournal : path.extension ≠ some "journal")
    (htmp : path.extension ≠ some "tmp") (files : Path → Option Bytes) (contents : Bytes) :
    ∃ files', (flushFiles path (path.withExtension "journal") contents).run ⟨files, none⟩ =
        (.ok (), ⟨files', none⟩) ∧
      files' path = some contents ∧ files' (path.withExtension "journal") = none := by
  have hpj : path ≠ path.withExtension "journal" := fun h => hjournal (congrArg Path.extension h)
  have hpt : path.withExtension "tmp" ≠ path := fun h => htmp (congrArg Path.extension h.symm)
  have hjt : path.withExtension "journal" ≠ path.withExtension "tmp" := withExtension_ne (by decide)
  obtain ⟨replaced, hreplaced⟩ : ∃ replaced, replaced = Function.update (Function.update
      (Function.update (Function.update files (path.withExtension "journal") (some contents))
        (path.withExtension "tmp") (some contents)) (path.withExtension "tmp") none) path
          (some contents) := ⟨_, rfl⟩
  have hkept : (replaced (path.withExtension "journal")).isSome = true := by
    rw [hreplaced, Function.update_of_ne hpj.symm, Function.update_of_ne hjt,
      Function.update_of_ne hjt, Function.update_self]
    rfl
  refine ⟨Function.update replaced (path.withExtension "journal") none, ?_, ?_,
    Function.update_self ..⟩
  · rw [flushFiles, Prog.run_bind_of_ok (Disk.run_writeDurable _ _),
      Prog.run_bind_of_ok (Disk.run_writeDurable _ _),
      Prog.run_bind_of_ok (Disk.run_replaceFile hpt (Function.update_self ..)), ← hreplaced,
      Disk.run_removeFile hkept]
  · rw [Function.update_of_ne hpj, hreplaced, Function.update_self]

end FileStorageBackend

/-- `serde_json` on snapshots, which does not fail. -/
structure TotalJson extends JsonFormat where
  total : ∀ m, ∃ text, toStringPretty m = .ok text

/-- A path whose extension is not one that the backend gives its own files. -/
structure StorePath where
  path : Path
  journal_ne : path.extension ≠ some "journal"
  tmp_ne : path.extension ≠ some "tmp"

/-- A disk that does not fail, with a store that loads. -/
structure LiveDisk (json : TotalJson) (path : StorePath) where
  files : Path → Option Bytes
  loads : ∃ m, FileStorageBackend.Loads json.toJsonFormat path.path files m

/-- A file backend on such a disk. -/
structure LiveFile (json : TotalJson) (path : StorePath) where
  cache : KvMap
  dirty : Bool
  disk : LiveDisk json path

namespace LiveDisk

variable {json : TotalJson} {path : StorePath}

/-- What the store loads as. -/
def map (d : LiveDisk json path) : KvMap :=
  (FileStorageBackend.loadSnapshot json.toJsonFormat d.files path.path
    (path.path.withExtension "journal")).toOption.getD ∅

theorem map_eq {d : LiveDisk json path} {m : KvMap}
    (h : FileStorageBackend.Loads json.toJsonFormat path.path d.files m) : d.map = m := by
  rw [FileStorageBackend.Loads] at h
  rw [map, h]
  rfl

theorem loads_map (d : LiveDisk json path) :
    FileStorageBackend.Loads json.toJsonFormat path.path d.files d.map := by
  obtain ⟨m, h⟩ := d.loads
  rw [map_eq h]
  exact h

end LiveDisk

namespace LiveFile

variable {json : TotalJson} {path : StorePath}

/-- The backend of the source. -/
def toBackend (b : LiveFile json path) : FileStorageBackend where
  path := path.path
  journalPath := path.path.withExtension "journal"
  cache := b.cache
  dirty := b.dirty
  disk := ⟨b.disk.files, none⟩

/-- `FileStorageBackend::new` on the path. -/
def new (disk : LiveDisk json path) : LiveFile json path := ⟨disk.map, false, disk⟩

theorem new_eq (disk : LiveDisk json path) :
    FileStorageBackend.new json.toJsonFormat path.path ⟨disk.files, none⟩ =
      .ok (new disk).toBackend := by
  have hload := disk.loads_map
  rw [FileStorageBackend.Loads] at hload
  simp only [FileStorageBackend.new, hload]
  rfl

/-- A read-modify-write succeeds, and the store then loads as the modified map. -/
theorem run_toBackend (f : KvMap → KvMap) (b : LiveFile json path) : ∃ files,
    FileStorageBackend.Loads json.toJsonFormat path.path files (f b.disk.map) ∧
      (FileStorageBackend.modify json.toJsonFormat f).run b.toBackend = (.ok (),
        { b.toBackend with cache := f b.disk.map, dirty := false, disk := ⟨files, none⟩ }) := by
  obtain ⟨text, htext⟩ := json.total (f b.disk.map)
  obtain ⟨files, hflush, hmain, hjournal⟩ := FileStorageBackend.run_flushFiles path.journal_ne
    path.tmp_ne b.disk.files (utf8 text)
  refine ⟨files, FileStorageBackend.loads_of_main _ htext hjournal hmain, ?_⟩
  obtain ⟨changed, hchanged⟩ : ∃ changed : FileStorageBackend,
      changed = { b.toBackend with cache := f b.disk.map, dirty := true } := ⟨_, rfl⟩
  have hfiles : (FileStorageBackend.onDisk (FileStorageBackend.flushFiles changed.path
      changed.journalPath (utf8 text))).run changed =
        (.ok (), { changed with disk := ⟨files, none⟩ }) := by
    rw [FileStorageBackend.onDisk, Prog.run_zoom, hchanged]
    change (((FileStorageBackend.flushFiles path.path (path.path.withExtension "journal")
      (utf8 text)).run ⟨b.disk.files, none⟩).1, _) = _
    simp only [toBackend, hflush]
  have hwritten : (FileStorageBackend.flush json.toJsonFormat).run changed =
      (.ok (), { changed with dirty := false, disk := ⟨files, none⟩ }) := by
    rw [FileStorageBackend.flush, Prog.run_read_bind]
    have hdirty : changed.dirty = true := by rw [hchanged]
    have hcache : json.toStringPretty changed.cache = .ok text := by rw [hchanged]; exact htext
    rw [hdirty, Prog.when, if_pos rfl]
    exact Prog.bind_eq_ok.mpr ⟨text, changed, Prog.check_eq_ok.mpr ⟨by rw [hcache]; rfl, rfl⟩,
      Prog.bind_eq_ok.mpr ⟨(), _, hfiles, rfl⟩⟩
  refine Prog.bind_eq_ok.mpr ⟨b.disk.map, b.toBackend,
    Prog.check_eq_ok.mpr ⟨b.disk.loads_map, rfl⟩, ?_⟩
  rw [Prog.run_update_bind, ← hchanged, hwritten, hchanged]

/-- A read-modify-write of the source. -/
def modify (f : KvMap → KvMap) : Prog (LiveFile json path) StorageError Unit := .mk fun b =>
  let r := (FileStorageBackend.modify json.toJsonFormat f).run b.toBackend
  (r.1,
    { cache := r.2.cache
      dirty := r.2.dirty
      disk := ⟨r.2.disk.files, by
        obtain ⟨files, hloads, hrun⟩ := run_toBackend f b
        show ∃ m, FileStorageBackend.Loads _ _
          ((FileStorageBackend.modify json.toJsonFormat f).run b.toBackend).2.disk.files m
        rw [hrun]
        exact ⟨_, hloads⟩⟩ })

/-- The backend keeps its invariant: the structure is left out of what the source computes. -/
theorem toBackend_modify (f : KvMap → KvMap) (b : LiveFile json path) :
    ((modify f).run b).2.toBackend =
      ((FileStorageBackend.modify json.toJsonFormat f).run b.toBackend).2 := by
  obtain ⟨files, -, hrun⟩ := run_toBackend f b
  show (⟨path.path, path.path.withExtension "journal", _, _, ⟨_, none⟩⟩ : FileStorageBackend) = _
  simp only [modify, hrun]
  rfl

theorem modify_ok (f : KvMap → KvMap) (b : LiveFile json path) :
    ((modify f).run b).1 = .ok () := by
  obtain ⟨files, -, hrun⟩ := run_toBackend f b
  exact congrArg Prod.fst hrun

theorem map_modify (f : KvMap → KvMap) (b : LiveFile json path) :
    ((modify f).run b).2.disk.map = f b.disk.map := by
  obtain ⟨files, hloads, hrun⟩ := run_toBackend f b
  have hfiles : ((modify f).run b).2.disk.files = files := congrArg (fun r => r.2.disk.files) hrun
  refine LiveDisk.map_eq ?_
  rw [hfiles]
  exact hloads

instance : StorageBackend (LiveFile json path) where
  read b key := (FileStorageBackend.storageBackend json.toJsonFormat).read b.toBackend key
  write key value := modify fun cache => cache.insert key value
  delete key := modify fun cache => cache.erase key
  listKeys b := (FileStorageBackend.storageBackend json.toJsonFormat).listKeys b.toBackend

theorem load_toBackend (b : LiveFile json path) :
    FileStorageBackend.loadSnapshot json.toJsonFormat b.toBackend.disk.files b.toBackend.path
      b.toBackend.journalPath = .ok b.disk.map := b.disk.loads_map

instance : LawfulBackend (LiveFile json path) where
  contents b := b.disk.map
  read_eq b key := by
    show (FileStorageBackend.loadSnapshot _ _ _ _).map _ = _
    rw [load_toBackend]
    rfl
  write_ok b _ _ := modify_ok _ b
  contents_write b _ _ := map_modify _ b
  delete_ok b _ := modify_ok _ b
  contents_delete b _ := map_modify _ b
  listKeys_eq b := by
    refine ⟨b.disk.map.keys, ?_, fun _ => ExtTreeMap.mem_keys⟩
    show (FileStorageBackend.loadSnapshot _ _ _ _).map _ = _
    rw [load_toBackend]
    rfl

end LiveFile

/-! ## Calls -/

/-- A call on a storage engine. -/
inductive KvCall
  | store (key : String) (value : Bytes)
  | delete (key : String)
  | retrieve (key : String)
  deriving DecidableEq

namespace KvCall

/-- The call as the engine makes it; a retrieval returns what it found. -/
def run {β : Type} [StorageBackend β] : KvCall → Prog (StorageEngine β) EngineError (Option Bytes)
  | .store key value => do
      StorageEngine.store key value
      pure none
  | .delete key => do
      StorageEngine.delete key
      pure none
  | .retrieve key => do
      let value ← Prog.check fun e => e.retrieve key
      pure (some value)

/-- What the call does to the entries. -/
def apply : KvCall → KvMap → KvMap
  | .store key value, m => m.insert key value
  | .delete key, m => m.erase key
  | .retrieve _, m => m

end KvCall

/-- The entries after calls, starting from `m`: under each key what was stored last, unless it
was deleted after that. -/
def history (m : KvMap) (calls : List KvCall) : KvMap := calls.foldl (fun m call => call.apply m) m

/-- The error of a retrieval that finds nothing. -/
def keyMissing (key : String) : EngineError := .message ("Key '" ++ key ++ "' not found")

theorem StorageEngine.retrieve_eq {β : Type} [StorageBackend β] [LawfulBackend β]
    (e : StorageEngine β) (key : String) : e.retrieve key =
      ((e.persisted key).or e.kvStore[key]?).elim (.error (keyMissing key)) .ok := by
  unfold retrieve persisted
  cases e.backend with
  | none => cases e.kvStore[key]? <;> rfl
  | some b =>
      simp only [LawfulBackend.read_eq, Option.bind_some]
      cases (contents b)[key]? with
      | none => cases e.kvStore[key]? <;> rfl
      | some v => rfl

/-! ## Several engines on one file -/

/-- Engines on one disk. -/
structure Shared (json : TotalJson) (path : StorePath) (ι : Type) where
  disk : LiveDisk json path
  engines : ι → StorageEngine (LiveFile json path)

namespace Shared

variable {json : TotalJson} {path : StorePath} {ι : Type} [DecidableEq ι]

/-- An engine on the disk as it is now. -/
def mount (disk : LiveDisk json path) (e : StorageEngine (LiveFile json path)) :
    StorageEngine (LiveFile json path) :=
  { e with backend := e.backend.map fun b => { b with disk := disk } }

/-- The disk that an engine leaves behind. -/
def unmount (disk : LiveDisk json path) (e : StorageEngine (LiveFile json path)) :
    LiveDisk json path :=
  e.backend.elim disk fun b => b.disk

/-- Every engine is opened with a backend of its own on the path. -/
def openAll (codec : Codec StoredCredential) (disk : LiveDisk json path) : Shared json path ι where
  disk := disk
  engines _ := StorageEngine.withBackend codec (LiveFile.new disk)

/-- A call by one of the engines. -/
def call (who : ι) (c : KvCall) : Prog (Shared json path ι) EngineError (Option Bytes) :=
  .mk fun s =>
    let r := c.run.run (mount s.disk (s.engines who))
    (r.1, ⟨unmount s.disk r.2, Function.update s.engines who r.2⟩)

/-- The state after calls, in this order. -/
def after (s : Shared json path ι) (calls : List (ι × KvCall)) : Shared json path ι :=
  calls.foldl (fun s c => ((call c.1 c.2).run s).2) s

/-- What an engine would answer to a retrieval. -/
def retrieve (s : Shared json path ι) (who : ι) (key : String) : Except EngineError Bytes :=
  (mount s.disk (s.engines who)).retrieve key

/-- The calls an engine made itself. -/
def own (who : ι) (calls : List (ι × KvCall)) : List KvCall :=
  (calls.filter fun c => c.1 = who).map (·.2)

/-- An engine answers a retrieval with the entry in `m`, or that there is none. -/
def Answers (s : Shared json path ι) (who : ι) (key : String) (m : KvMap) : Prop :=
  s.retrieve who key = (m[key]?).elim (.error (keyMissing key)) .ok

/-! ### One call -/

/-- What one call does to an engine with a backend. -/
theorem run_call (e : StorageEngine (LiveFile json path)) (c : KvCall)
    (hb : e.backend.isSome = true)
    (disk : LiveDisk json path) :
    ∃ b, (c.run.run (mount disk e)).2.backend = some b ∧ b.disk.map = c.apply disk.map ∧
      (c.run.run (mount disk e)).2.kvStore = c.apply e.kvStore := by
  obtain ⟨b, hb⟩ := Option.isSome_iff_exists.mp hb
  cases c with
  | store key value =>
      simp only [KvCall.run, Prog.snd_run_bind_pure, StorageEngine.run_store]
      refine ⟨_, ?_, LiveFile.map_modify _ ({ b with disk := disk } : LiveFile json path), rfl⟩
      simp only [StorageEngine.afterStore, StorageEngine.written, mount, hb]
      rfl
  | delete key =>
      simp only [KvCall.run, Prog.snd_run_bind_pure, StorageEngine.run_delete]
      refine ⟨_, ?_, LiveFile.map_modify _ ({ b with disk := disk } : LiveFile json path), rfl⟩
      simp only [StorageEngine.afterDelete, StorageEngine.deleted, mount, hb]
      rfl
  | retrieve key =>
      simp only [KvCall.run, Prog.snd_run_bind_pure, Prog.run_check]
      refine ⟨{ b with disk := disk }, ?_, rfl, rfl⟩
      simp only [mount, hb]
      rfl

/-- The file holds what all engines did, and the memory of each what it did itself. -/
structure Tracks (m : KvMap) (calls : List (ι × KvCall)) (s : Shared json path ι) : Prop where
  backed : ∀ who, (s.engines who).backend.isSome = true
  file : s.disk.map = history m (calls.map (·.2))
  memory : ∀ who, (s.engines who).kvStore = history ∅ (own who calls)

theorem own_snoc (who : ι) (calls : List (ι × KvCall)) (c : ι × KvCall) :
    own who (calls ++ [c]) = own who calls ++ if c.1 = who then [c.2] else [] := by
  unfold own
  rw [List.filter_append, List.map_append]
  by_cases h : c.1 = who <;> simp [h]

theorem history_snoc (m : KvMap) (calls : List KvCall) (c : KvCall) :
    history m (calls ++ [c]) = c.apply (history m calls) := by
  rw [history, List.foldl_append]
  rfl

theorem Tracks.call {m : KvMap} {calls : List (ι × KvCall)} {s : Shared json path ι}
    (h : Tracks m calls s) (c : ι × KvCall) :
    Tracks m (calls ++ [c]) ((Shared.call c.1 c.2).run s).2 := by
  obtain ⟨b, hb, hmap, hkv⟩ := run_call (s.engines c.1) c.2 (h.backed c.1) s.disk
  refine ⟨fun who => ?_, ?_, fun who => ?_⟩
  · show (Function.update s.engines c.1 _ who).backend.isSome = true
    by_cases hwho : who = c.1
    · rw [hwho, Function.update_self, hb]
      rfl
    · rw [Function.update_of_ne hwho]
      exact h.backed who
  · show (unmount s.disk (c.2.run.run (mount s.disk (s.engines c.1))).2).map = _
    rw [unmount, hb, List.map_append, List.map_singleton, history_snoc, ← h.file]
    exact hmap
  · show (Function.update s.engines c.1 _ who).kvStore = _
    rw [own_snoc]
    by_cases hwho : who = c.1
    · rw [hwho, Function.update_self, if_pos rfl, history_snoc, ← h.memory, hkv]
    · rw [Function.update_of_ne hwho, if_neg (Ne.symm hwho), List.append_nil]
      exact h.memory who

/-! ### Runs -/

theorem tracks_after (codec : Codec StoredCredential) (disk : LiveDisk json path)
    (calls : List (ι × KvCall)) : Tracks disk.map calls ((openAll codec disk).after calls) := by
  induction calls using List.reverseRecOn with
  | nil =>
      obtain ⟨hback, hkv⟩ := StorageEngine.withBackend_eq codec (LiveFile.new disk)
      exact ⟨fun _ => by rw [after, List.foldl_nil, openAll, hback]; rfl, rfl, fun _ => hkv⟩
  | append_singleton calls c ih =>
      rw [after, List.foldl_append, List.foldl_cons, List.foldl_nil]
      exact ih.call c

theorem Tracks.retrieve {m : KvMap} {calls : List (ι × KvCall)} {s : Shared json path ι}
    (h : Tracks m calls s) (who : ι) (key : String) : s.retrieve who key =
      ((history m (calls.map (·.2)))[key]?.or (history ∅ (own who calls))[key]?).elim
        (.error (keyMissing key)) .ok := by
  obtain ⟨b, hb⟩ := Option.isSome_iff_exists.mp (h.backed who)
  have hpersisted : (mount s.disk (s.engines who)).persisted key =
      (history m (calls.map (·.2)))[key]? := by
    rw [StorageEngine.persisted, mount, hb, ← h.file]
    rfl
  rw [Shared.retrieve, StorageEngine.retrieve_eq, hpersisted, ← h.memory who]
  rfl

/-- **Coherence.** After any interleaving of calls the file holds, under each key, what was stored
last by any engine. An engine retrieves that, exactly unless its own last change of the key was to
store it and another engine has deleted the key since. -/
theorem shared_retrieve_iff (codec : Codec StoredCredential) (disk : LiveDisk json path)
    (calls : List (ι × KvCall)) (who : ι) (key : String) :
    ((openAll codec disk).after calls).disk.map = history disk.map (calls.map (·.2)) ∧
      (((openAll codec disk).after calls).Answers who key (history disk.map (calls.map (·.2))) ↔
        (key ∈ history ∅ (own who calls) → key ∈ history disk.map (calls.map (·.2)))) := by
  have h := tracks_after codec disk calls
  refine ⟨h.file, ?_⟩
  rw [Answers, h.retrieve, ← ExtTreeMap.isSome_getElem?_iff_mem,
    ← ExtTreeMap.isSome_getElem?_iff_mem]
  cases (history disk.map (calls.map (·.2)))[key]? with
  | some w => simp
  | none =>
      cases (history ∅ (own who calls))[key]? with
      | none => simp
      | some v => simp

end Shared

/-! ## A key that comes back -/

/-- `serde_json` on snapshots, with the keys in order. -/
def prettyJson : TotalJson where
  toStringPretty m := .ok (String.ofList (Json.printObject m.toList))
  fromStr text :=
    match Json.readObject text.toList with
    | some (members, []) => .ok (ExtTreeMap.ofList members)
    | _ => .error "expected value"
  fromStr_toStringPretty m text h := by
    have hread := Json.reads_object m.toList [] trivial
    rw [List.append_nil] at hread
    rw [← Except.ok.inj h, String.toList_ofList, hread]
    exact congrArg Except.ok (ofList_toList m)
  head_toStringPretty m text h := by
    rw [← Except.ok.inj h, String.toList_ofList]
    cases m.toList <;> rfl
  total m := ⟨_, rfl⟩

/-- A path for a store. -/
def samplePath : StorePath := ⟨⟨"store", some "json"⟩, by decide, by decide⟩

/-- An empty disk. -/
def emptyDisk : LiveDisk prettyJson samplePath := ⟨fun _ => none, ∅, rfl⟩

/-- One engine stores a key and the other deletes it; the first still finds it. -/
theorem deleted_key_comes_back :
    ((Shared.openAll unusedCodec emptyDisk : Shared _ _ (Fin 2)).after
        [(0, .store "pin" [1]), (1, .delete "pin")]).retrieve 0 "pin" = .ok [1] ∧
      ¬((Shared.openAll unusedCodec emptyDisk : Shared _ _ (Fin 2)).after
        [(0, .store "pin" [1]), (1, .delete "pin")]).Answers 0 "pin"
          (history ∅ [.store "pin" [1], .delete "pin"]) := by
  have htracks := Shared.tracks_after unusedCodec emptyDisk
    [((0 : Fin 2), KvCall.store "pin" [1]), (1, .delete "pin")]
  have hfile : (history ∅ [.store "pin" [1], .delete "pin"])["pin"]? = none := by decide +kernel
  have hown :
    (history ∅ (Shared.own (0 : Fin 2) [(0, .store "pin" [1]), (1, .delete "pin")]))["pin"]? =
      some [1] := by decide +kernel
  have hempty : emptyDisk.map = ∅ := LiveDisk.map_eq rfl
  have hretrieve := htracks.retrieve 0 "pin"
  rw [hempty, hown, List.map_cons, List.map_singleton, hfile] at hretrieve
  refine ⟨hretrieve, fun hanswers => ?_⟩
  rw [Shared.Answers, hretrieve, hfile] at hanswers
  cases hanswers

end OpenKey
