import OpenKey.Storage.File
import OpenKey.Storage.Snapshot

/-!
# Crashes of the file backend

A journal that is complete decides what the next load sees, whatever the state of the other two
files; a journal that was created and not completed does so too, and that is where the scheme
fails. `file_crash_safe` says that every other crash point is safe, over whole histories.
-/

namespace OpenKey

open Std

set_option autoImplicit false

namespace Disk

/-! ## File operations -/

/-- A step that leaves `path` alone. -/
theorem step_keeps {f : (Path → Option Bytes) → Except StorageError (Path → Option Bytes)}
    {path : Path} (h : ∀ files files', f files = .ok files' → files' path = files path) :
    Prog.Keeps (.constant fun d : Disk => d.files path) (step f) := by
  intro d
  simp only [Prog.Frame.constant, step]
  split
  · rfl
  · split
    next files' hf => exact h _ _ hf
    next => rfl

theorem create_keeps {path other : Path} (h : path ≠ other) :
    Prog.Keeps (.constant fun d : Disk => d.files other) (create path) := by
  refine step_keeps fun files files' hf => ?_
  rw [← Except.ok.inj hf, Function.update_of_ne h.symm]

theorem append_keeps {path other : Path} {byte : UInt8} (h : path ≠ other) :
    Prog.Keeps (.constant fun d : Disk => d.files other) (append path byte) := by
  refine step_keeps fun files files' hf => ?_
  rw [← Except.ok.inj hf, Function.update_of_ne h.symm]

theorem writeAll_keeps {path other : Path} (h : path ≠ other) (contents : Bytes) :
    Prog.Keeps (.constant fun d : Disk => d.files other) (writeAll path contents) := by
  induction contents with
  | nil => exact .pure ()
  | cons byte contents ih => exact (append_keeps h).bind fun _ => ih

theorem removeFile_keeps {path other : Path} (h : path ≠ other) :
    Prog.Keeps (.constant fun d : Disk => d.files other) (removeFile path) := by
  refine step_keeps fun files files' hf => ?_
  split at hf
  · rw [← Except.ok.inj hf, Function.update_of_ne h.symm]
  · cases hf

theorem rename_keeps {source destination other : Path} (hs : source ≠ other)
    (hd : destination ≠ other) :
    Prog.Keeps (.constant fun d : Disk => d.files other) (rename source destination) := by
  refine step_keeps fun files files' hf => ?_
  split at hf
  · rw [← Except.ok.inj hf, Function.update_of_ne hd.symm, Function.update_of_ne hs.symm]
  · cases hf

theorem writeDurable_keeps {path other : Path} (h : path ≠ other) (contents : Bytes) :
    Prog.Keeps (.constant fun d : Disk => d.files other) (writeDurable path contents) :=
  (create_keeps h).bind fun _ => writeAll_keeps h contents

theorem replaceFile_keeps {source destination other : Path} (hs : source ≠ other)
    (hd : destination ≠ other) :
    Prog.Keeps (.constant fun d : Disk => d.files other) (replaceFile source destination) :=
  (Prog.Keeps.read _).bind fun _ => (Prog.Keeps.when fun _ => removeFile_keeps hd).bind
    fun _ => rename_keeps hs hd

/-! ## Completed operations -/

theorem step_ok {f : (Path → Option Bytes) → Except StorageError (Path → Option Bytes)}
    {d d' : Disk} {u : Unit} (h : (step f).run d = (.ok u, d')) : f d.files = .ok d'.files := by
  simp only [step] at h
  split at h
  · cases h
  · split at h
    next files hf =>
      rw [hf]
      cases h
      rfl
    next => cases h

theorem writeAll_ok {path : Path} {contents : Bytes} {d d' : Disk} {u : Unit} {old : Bytes}
    (h : (writeAll path contents).run d = (.ok u, d')) (hold : d.files path = some old) :
    d'.files path = some (old ++ contents) := by
  induction contents generalizing d old with
  | nil =>
      cases h
      rw [hold, List.append_nil]
  | cons byte contents ih =>
      obtain ⟨_, d₁, happend, hrest⟩ := Prog.bind_eq_ok.mp h
      have hfiles := step_ok happend
      have h₁ : d₁.files path = some (old ++ [byte]) := by
        rw [← Except.ok.inj hfiles, Function.update_self, hold]
        rfl
      rw [ih hrest h₁, List.append_assoc]
      rfl

theorem writeDurable_ok {path : Path} {contents : Bytes} {d d' : Disk} {u : Unit}
    (h : (writeDurable path contents).run d = (.ok u, d')) : d'.files path = some contents := by
  obtain ⟨_, d₁, hcreate, hwrite⟩ := Prog.bind_eq_ok.mp h
  have hfiles := step_ok hcreate
  have h₁ : d₁.files path = some [] := by rw [← Except.ok.inj hfiles, Function.update_self]
  exact writeAll_ok hwrite h₁

/-- Renaming a file over itself never gets this far: the removal has taken it away. -/
theorem replaceFile_ok {source destination : Path} {contents : Bytes} {d d' : Disk} {u : Unit}
    (h : (replaceFile source destination).run d = (.ok u, d'))
    (hsource : d.files source = some contents) : d'.files destination = some contents := by
  rw [replaceFile, Prog.run_read_bind] at h
  obtain ⟨_, d₁, hremove, hrename⟩ := Prog.bind_eq_ok.mp h
  have hfiles := step_ok hrename
  split at hfiles
  next contents' hs =>
    rw [← Except.ok.inj hfiles, Function.update_self]
    by_cases hne : destination = source
    · subst hne
      rw [hsource, Option.isSome_some, Prog.when, if_pos rfl] at hremove
      have hgone := step_ok hremove
      rw [hsource, Option.isSome_some, if_pos rfl] at hgone
      rw [← Except.ok.inj hgone, Function.update_self] at hs
      cases hs
    · have hkeep := Prog.Keeps.when (c := (d.files destination).isSome)
        (fun _ => removeFile_keeps hne) d
      rw [hremove] at hkeep
      rw [← hs, ← hsource]
      exact hkeep
  next => cases hfiles

/-! ## Crash points -/

/-- The disk takes at least `n` more steps. -/
def Lasts (d : Disk) (n : Nat) : Prop := ∀ k, d.power = some k → n ≤ k

theorem step_of_lasts {f : (Path → Option Bytes) → Except StorageError (Path → Option Bytes)}
    {d : Disk} {files : Path → Option Bytes} {n : Nat} (h : d.Lasts (n + 1))
    (hf : f d.files = .ok files) :
    ∃ d', (step f).run d = (.ok (), d') ∧ d'.files = files ∧ d'.Lasts n := by
  have hpower : d.power ≠ some 0 := fun h₀ => by have := h 0 h₀; omega
  refine ⟨⟨files, d.power.map (· - 1)⟩, ?_, rfl, ?_⟩
  · simp only [step, if_neg hpower, hf]
  · intro k hk
    obtain ⟨q, hq, rfl⟩ := Option.map_eq_some_iff.mp hk
    have := h q hq
    omega

theorem writeAll_of_lasts {path : Path} {contents : Bytes} {d : Disk}
    (h : d.Lasts contents.length) :
    ∃ d', (writeAll path contents).run d = (.ok (), d') := by
  induction contents generalizing d with
  | nil => exact ⟨d, rfl⟩
  | cons byte contents ih =>
      have happend : ∃ d', (append path byte).run d = (.ok (), d') ∧ _ := step_of_lasts h rfl
      obtain ⟨d₁, happend, -, h₁⟩ := happend
      obtain ⟨d', hrest⟩ := ih h₁
      exact ⟨d', by rw [writeAll, Prog.run_bind_of_ok happend, hrest]⟩

theorem writeDurable_of_lasts {path : Path} {contents : Bytes} {d : Disk}
    (h : d.Lasts (contents.length + 1)) :
    ∃ d', (writeDurable path contents).run d = (.ok (), d') := by
  have hcreate : ∃ d', (create path).run d = (.ok (), d') ∧ _ := step_of_lasts h rfl
  obtain ⟨d₁, hcreate, -, h₁⟩ := hcreate
  obtain ⟨d', hwrite⟩ := writeAll_of_lasts h₁
  exact ⟨d', by rw [writeDurable, Prog.run_bind_of_ok hcreate, hwrite]⟩

theorem step_error {f : (Path → Option Bytes) → Except StorageError (Path → Option Bytes)}
    {d d' : Disk} {e : StorageError} (h : (step f).run d = (.error e, d')) : d' = d := by
  simp only [step] at h
  split at h
  · cases h
    rfl
  · split at h
    · cases h
    · cases h
      rfl

theorem create_of_crashed {path : Path} {d : Disk} (h : d.power = some 0) :
    (create path).run d = (.error (.ioError "crash"), d) := by
  simp only [create, step, if_pos h]

end Disk

namespace FileStorageBackend

variable (json : JsonFormat)

/-- The disk loads as `m`. -/
def Loads (path : Path) (files : Path → Option Bytes) (m : KvMap) : Prop :=
  loadSnapshot json files path (path.withExtension "journal") = .ok m

theorem readToString_utf8 (text : String) : readToString (utf8 text) = .ok text := by
  rw [readToString, ofUtf8_utf8]

theorem parseSnapshot_utf8 {m : KvMap} {text : String} (h : json.toStringPretty m = .ok text) :
    parseSnapshot json (utf8 text) = .ok m := by
  have hbrace := json.head_toStringPretty m text h
  have hblank : text.toList.all isWhiteSpace = false := by
    cases hl : text.toList with
    | nil => simp [hl] at hbrace
    | cons c cs =>
        obtain rfl : c = '\x7b' := by simpa [hl] using hbrace
        rw [List.all_cons]
        have hc : isWhiteSpace '\x7b' = false := by decide
        rw [hc, Bool.false_and]
  rw [parseSnapshot, readToString_utf8]
  change (if text.toList.all isWhiteSpace = true then _ else _) = _
  rw [hblank, if_neg Bool.false_ne_true, json.fromStr_toStringPretty m text h]
  rfl

theorem loads_of_journal {path : Path} {files : Path → Option Bytes} {m : KvMap} {text : String}
    (h : json.toStringPretty m = .ok text)
    (hfile : files (path.withExtension "journal") = some (utf8 text)) : Loads json
      path files m := by
  simp only [Loads, loadSnapshot, hfile, Option.isSome_some, if_true]
  exact parseSnapshot_utf8 json h

theorem loads_of_main {path : Path} {files : Path → Option Bytes} {m : KvMap} {text : String}
    (h : json.toStringPretty m = .ok text) (hjournal : files (path.withExtension "journal") = none)
    (hfile : files path = some (utf8 text)) : Loads json path files m := by
  simp only [Loads, loadSnapshot, hjournal, Option.isSome_none, Bool.false_eq_true, if_false, hfile]
  exact parseSnapshot_utf8 json h

/-! ## A flush -/

/-- The crash, if any, comes before the journal is created or after its `n` bytes are written. -/
def JournalWhole (power : Option Nat) (n : Nat) : Prop :=
  ∀ k, power = some k → k = 0 ∨ n < k

theorem withExtension_ne {path : Path} {e e' : String} (h : e ≠ e') :
    path.withExtension e ≠ path.withExtension e' := by
  intro heq
  exact h (Option.some.inj (congrArg Path.extension heq))

/-- With a whole journal on the disk, the rest of a flush may stop anywhere. -/
theorem loads_after_journal {path : Path} (hext : path.extension ≠ some "journal") {d : Disk}
    {m : KvMap} {text : String} (h : json.toStringPretty m = .ok text)
    (hjournal : d.files (path.withExtension "journal") = some (utf8 text)) :
    Loads json path ((do
      Disk.writeDurable (path.withExtension "tmp") (utf8 text)
      Disk.replaceFile (path.withExtension "tmp") path
      Disk.removeFile (path.withExtension "journal")).run d).2.files m := by
  have hpath : path ≠ path.withExtension "journal" := by
    intro heq
    exact hext (congrArg Path.extension heq)
  have htmp : path.withExtension "tmp" ≠ path.withExtension "journal" :=
    withExtension_ne (by decide)
  have hkeep₁ := Disk.writeDurable_keeps htmp (utf8 text) d
  cases hrun₁ : (Disk.writeDurable (path.withExtension "tmp") (utf8 text)).run d with
  | mk r₁ d₁ =>
  rw [hrun₁] at hkeep₁
  have hj₁ : d₁.files (path.withExtension "journal") = some (utf8 text) :=
    hkeep₁.trans hjournal
  cases r₁ with
  | error e =>
      rw [Prog.run_bind_of_error hrun₁]
      exact loads_of_journal json h hj₁
  | ok u =>
  rw [Prog.run_bind_of_ok hrun₁]
  have hkeep₂ := Disk.replaceFile_keeps htmp hpath d₁
  cases hrun₂ : (Disk.replaceFile (path.withExtension "tmp") path).run d₁ with
  | mk r₂ d₂ =>
  rw [hrun₂] at hkeep₂
  have hj₂ : d₂.files (path.withExtension "journal") = some (utf8 text) := hkeep₂.trans hj₁
  cases r₂ with
  | error e =>
      rw [Prog.run_bind_of_error hrun₂]
      exact loads_of_journal json h hj₂
  | ok u =>
  rw [Prog.run_bind_of_ok hrun₂]
  have hmain := Disk.replaceFile_ok hrun₂ (Disk.writeDurable_ok hrun₁)
  have hkeep₃ := Disk.removeFile_keeps hpath.symm d₂
  cases hrun₃ : (Disk.removeFile (path.withExtension "journal")).run d₂ with
  | mk r₃ d₃ =>
  rw [hrun₃] at hkeep₃
  cases r₃ with
  | error e =>
      rw [Disk.step_error hrun₃]
      exact loads_of_journal json h hj₂
  | ok u =>
      have hgone := Disk.step_ok hrun₃
      rw [hj₂, Option.isSome_some, if_pos rfl] at hgone
      refine loads_of_main json h ?_ (hkeep₃.trans hmain)
      rw [← Except.ok.inj hgone, Function.update_self]

/-- A flush that leaves no partial journal leaves the disk as it was, or loading as the new map. -/
theorem flushFiles_loads {path : Path} (hext : path.extension ≠ some "journal") {d : Disk}
    {m : KvMap} {text : String} (h : json.toStringPretty m = .ok text)
    (hwhole : JournalWhole d.power (utf8 text).length) :
    (∃ e, (flushFiles path (path.withExtension "journal") (utf8 text)).run d = (.error e, d)) ∨
      Loads json path
        ((flushFiles path (path.withExtension "journal") (utf8 text)).run d).2.files m := by
  by_cases hcrash : d.power = some 0
  · left
    refine ⟨.ioError "crash", ?_⟩
    rw [flushFiles, Disk.writeDurable]
    exact Prog.run_bind_of_error (Prog.run_bind_of_error (Disk.create_of_crashed hcrash))
  · right
    have hlasts : d.Lasts ((utf8 text).length + 1) := by
      intro k hk
      obtain rfl | hlt := hwhole k hk
      · exact absurd hk hcrash
      · omega
    obtain ⟨d₁, hjournal⟩ := Disk.writeDurable_of_lasts hlasts
    rw [flushFiles, Prog.run_bind_of_ok hjournal]
    exact loads_after_journal json hext h (Disk.writeDurable_ok hjournal)

/-! ## Operations and histories -/

/-- An operation on the backend. -/
inductive FileOp
  | write (key : String) (value : Bytes)
  | delete (key : String)
  deriving DecidableEq

/-- The map after a completed operation. -/
def FileOp.apply : FileOp → KvMap → KvMap
  | .write key value, m => m.insert key value
  | .delete key, m => m.erase key

/-- An operation as the source runs it. -/
def FileOp.run : FileOp → Prog FileStorageBackend StorageError Unit
  | .write key value => FileStorageBackend.write json key value
  | .delete key => FileStorageBackend.delete json key

/-- An operation, and after how many file-system steps the process crashes, if it does. -/
structure FileStep where
  op : FileOp
  cut : Option Nat

/-- Set the steps left before the crash. -/
def supply (power : Option Nat) (b : FileStorageBackend) : FileStorageBackend :=
  { b with disk := { b.disk with power := power } }

/-- What the next load sees. -/
def load (b : FileStorageBackend) : Except StorageError KvMap :=
  loadSnapshot json b.disk.files b.path b.journalPath

/-- Run a step. After a crash, during the operation or right after it, the store is opened
again. The first component is the operation's own result. -/
def runStep (st : FileStep) (b : FileStorageBackend) :
    Except StorageError Unit × Except StorageError FileStorageBackend :=
  let (r, b') := (st.op.run json).run (supply st.cut b)
  (r, if st.cut.isSome then new json b'.path (supply none b').disk else .ok (supply none b'))

/-- The histories made of allowed steps. -/
inductive History (allowed : FileStorageBackend → FileStep → Prop) (b₀ : FileStorageBackend) :
    FileStorageBackend → Prop
  | start : History allowed b₀ b₀
  | step {b b' : FileStorageBackend} {st : FileStep} {r : Except StorageError Unit}
      (before : History allowed b₀ b) (clear : allowed b st)
      (run : runStep json st b = (r, .ok b')) : History allowed b₀ b'

/-- After any history of allowed steps, an allowed step leaves a store that opens, and that loads
as the map before it or the map after it; a completed one leaves the map after it. -/
def CrashSafe (allowed : FileStorageBackend → FileStep → Prop) (path : Path) : Prop :=
  ∀ disk b₀, new json path disk = .ok b₀ → ∀ b, History json allowed b₀ b →
    ∃ m, load json b = .ok m ∧ ∀ st, allowed b st →
      ∃ r b', runStep json st b = (r, .ok b') ∧
        (load json b' = .ok m ∨ load json b' = .ok (st.op.apply m)) ∧
        (r = .ok () → load json b' = .ok (st.op.apply m))

/-- The crash of this step, if any, leaves no partially written journal. -/
def CrashesClear (b : FileStorageBackend) (st : FileStep) : Prop :=
  ∀ m text, load json b = .ok m → json.toStringPretty (st.op.apply m) = .ok text →
    JournalWhole st.cut (utf8 text).length

/-- A backend on a store that loads. -/
structure Opened (path : Path) (b : FileStorageBackend) (m : KvMap) : Prop where
  path_eq : b.path = path
  journal_eq : b.journalPath = path.withExtension "journal"
  loads : Loads json path b.disk.files m

theorem Opened.load {path : Path} {b : FileStorageBackend} {m : KvMap} (h : Opened json path b m) :
    load json b = .ok m := by
  rw [FileStorageBackend.load, h.path_eq, h.journal_eq]
  exact h.loads

theorem new_of_loads {path : Path} (disk : Disk) {m : KvMap} (h : Loads json path disk.files m) :
    ∃ b, new json path disk = .ok b ∧ Opened json path b m := by
  refine ⟨⟨path, path.withExtension "journal", m, false, disk⟩, ?_, rfl, rfl, h⟩
  rw [Loads] at h
  simp only [new, h]
  rfl

theorem opened_of_new {path : Path} {disk : Disk} {b : FileStorageBackend}
    (h : new json path disk = .ok b) : ∃ m, Opened json path b m := by
  cases hl : loadSnapshot json disk.files path (path.withExtension "journal") with
  | error e =>
      simp only [new, hl] at h
      cases h
  | ok m =>
      simp only [new, hl] at h
      cases h
      exact ⟨m, rfl, rfl, hl⟩

/-- What a read-modify-write leaves, if its crash leaves no partial journal. -/
theorem modify_opened {path : Path} (hext : path.extension ≠ some "journal")
    {b : FileStorageBackend} {m : KvMap} (hb : Opened json path b m) {f : KvMap → KvMap}
    (hwhole : ∀ text, json.toStringPretty (f m) = .ok text →
      JournalWhole b.disk.power (utf8 text).length) {r : Except StorageError Unit}
    {b' : FileStorageBackend} (hrun : (modify json f).run b = (r, b')) :
    (Opened json path b' m ∧ r ≠ .ok ()) ∨ Opened json path b' (f m) := by
  have hload : (Prog.check fun b : FileStorageBackend =>
      loadSnapshot json b.disk.files b.path b.journalPath).run b = (.ok m, b) := by
    rw [Prog.run_check]
    exact congrArg (·, b) hb.load
  rw [modify, Prog.run_bind_of_ok hload, Prog.run_update_bind, flush, Prog.run_read_bind,
    Prog.when, if_pos rfl] at hrun
  cases htext : json.toStringPretty (f m) with
  | error e =>
      rw [Prog.run_bind_of_error (by rw [Prog.run_check, htext]; rfl)] at hrun
      cases hrun
      exact .inl ⟨⟨hb.path_eq, hb.journal_eq, hb.loads⟩, by simp⟩
  | ok text =>
      rw [Prog.run_bind_of_ok (by rw [Prog.run_check, htext]; rfl)] at hrun
      have hflush := flushFiles_loads json hext htext (hwhole text htext)
      simp only [hb.path_eq, hb.journal_eq] at hrun
      cases hfiles : (flushFiles path (path.withExtension "journal") (utf8 text)).run b.disk with
      | mk r₁ d₁ =>
      rw [hfiles] at hflush
      cases r₁ with
      | error e =>
          rw [Prog.run_bind_of_error (by rw [onDisk, Prog.run_zoom, hfiles])] at hrun
          cases hrun
          obtain ⟨e', heq⟩ | hloads := hflush
          · cases heq
            exact .inl ⟨⟨rfl, rfl, hb.loads⟩, by simp⟩
          · exact .inr ⟨rfl, rfl, hloads⟩
      | ok u =>
          rw [Prog.run_bind_of_ok (by rw [onDisk, Prog.run_zoom, hfiles])] at hrun
          cases hrun
          obtain ⟨e', heq⟩ | hloads := hflush
          · cases heq
          · exact .inr ⟨rfl, rfl, hloads⟩

/-- One step: the store opens again as the map before it or the map after it. -/
theorem runStep_opened {path : Path} (hext : path.extension ≠ some "journal")
    {b : FileStorageBackend} {m : KvMap} (hb : Opened json path b m) {st : FileStep}
    (hclear : CrashesClear json b st) :
    ∃ r b', runStep json st b = (r, .ok b') ∧
      ((Opened json path b' m ∧ r ≠ .ok ()) ∨ Opened json path b' (st.op.apply m)) := by
  obtain ⟨op, cut⟩ := st
  have hb₁ : Opened json path (supply cut b) m := ⟨hb.path_eq, hb.journal_eq, hb.loads⟩
  have hop : op.run json = modify json op.apply := by cases op <;> rfl
  cases hrun : (modify json op.apply).run (supply cut b) with
  | mk r b₁ =>
  have hout := modify_opened json hext hb₁ (fun text htext => hclear m text hb.load htext) hrun
  cases cut with
  | none =>
      refine ⟨r, supply none b₁, by simp only [runStep, hop, hrun]; rfl, ?_⟩
      exact hout.imp (fun h => ⟨⟨h.1.path_eq, h.1.journal_eq, h.1.loads⟩, h.2⟩)
        (fun h => ⟨h.path_eq, h.journal_eq, h.loads⟩)
  | some k =>
      have hstep : ∀ b', new json b₁.path (supply none b₁).disk = .ok b' →
          runStep json ⟨op, some k⟩ b = (r, .ok b') := by
        intro b' hnew
        simp only [runStep, hop, hrun, Option.isSome_some, if_true, hnew]
      obtain ⟨h, hr⟩ | h := hout
      · obtain ⟨b', hnew, hb'⟩ := new_of_loads json (supply none b₁).disk h.loads
        exact ⟨r, b', hstep b' (by rw [h.path_eq]; exact hnew), .inl ⟨hb', hr⟩⟩
      · obtain ⟨b', hnew, hb'⟩ := new_of_loads json (supply none b₁).disk h.loads
        exact ⟨r, b', hstep b' (by rw [h.path_eq]; exact hnew), .inr hb'⟩

theorem History.opened {path : Path} (hext : path.extension ≠ some "journal")
    {b₀ b : FileStorageBackend} (h : History json (CrashesClear json) b₀ b) {m₀ : KvMap}
    (h₀ : Opened json path b₀ m₀) : ∃ m, Opened json path b m := by
  induction h with
  | start => exact ⟨m₀, h₀⟩
  | step before clear run ih =>
      obtain ⟨m, hb⟩ := ih
      obtain ⟨r', b'', hrun, hout⟩ := runStep_opened json hext hb clear
      rw [run] at hrun
      cases hrun
      obtain ⟨h, -⟩ | h := hout
      · exact ⟨m, h⟩
      · exact ⟨_, h⟩

/-- **Crash safety outside the journal write.** Crashes that fall before the journal is created
or after it is complete lose nothing, however many of them there are. -/
theorem file_crash_safe (path : Path) (hext : path.extension ≠ some "journal") :
    CrashSafe json (CrashesClear json) path := by
  intro disk b₀ hnew b hist
  obtain ⟨m₀, h₀⟩ := opened_of_new json hnew
  obtain ⟨m, hb⟩ := hist.opened json hext h₀
  refine ⟨m, hb.load, fun st hclear => ?_⟩
  obtain ⟨r, b', hrun, hout⟩ := runStep_opened json hext hb hclear
  refine ⟨r, b', hrun, ?_, fun hr => ?_⟩
  · exact hout.imp (fun h => h.1.load) (fun h => h.load)
  · obtain ⟨-, hne⟩ | h := hout
    · exact absurd hr hne
    · exact h.load

/-! ## The torn journal -/

/-- The text of a store with one entry of one byte, given by its digits. -/
def oneEntryText (digits : String) : String :=
  "\x7b\n  \"pin\": [\n    " ++ digits ++ "\n  ]\n\x7d"

/-- `serde_json` on the stores of the examples below; memory is taken to run out on others. -/
def sampleJson : JsonFormat where
  toStringPretty m :=
    if m = (∅ : KvMap).insert "pin" [1] then .ok (oneEntryText "1")
    else if m = (∅ : KvMap).insert "pin" [2] then .ok (oneEntryText "2")
    else .error "out of memory"
  fromStr text :=
    if text = oneEntryText "1" then .ok ((∅ : KvMap).insert "pin" [1])
    else if text = oneEntryText "2" then .ok ((∅ : KvMap).insert "pin" [2])
    else .error "EOF while parsing an object"
  fromStr_toStringPretty m text h := by
    have hne : oneEntryText "2" ≠ oneEntryText "1" := by decide
    split at h
    next hm => rw [← Except.ok.inj h, if_pos rfl, hm]
    next =>
      split at h
      next hm => rw [← Except.ok.inj h, if_neg hne, if_pos rfl, hm]
      next => cases h
  head_toStringPretty m text h := by
    split at h
    next => rw [← Except.ok.inj h]; decide
    next =>
      split at h
      next => rw [← Except.ok.inj h]; decide
      next => cases h

/-- A crash right after the first byte of the temporary file, in the first write. -/
theorem file_crash_safe_temporary :
    ∃ b₀, new sampleJson ⟨"store", some "json"⟩ ⟨fun _ => none, none⟩ = .ok b₀ ∧
      ∃ r b', runStep sampleJson ⟨.write "pin" [1], some 29⟩ b₀ = (r, .ok b') ∧
        (load sampleJson b' = .ok ∅ ∨ load sampleJson b' = .ok ((∅ : KvMap).insert "pin" [1])) := by
  have hsafe := file_crash_safe sampleJson ⟨"store", some "json"⟩ (by decide)
  refine ⟨_, rfl, ?_⟩
  obtain ⟨m, hm, hstep⟩ := hsafe ⟨fun _ => none, none⟩ _ rfl _ .start
  obtain rfl : ∅ = m := Except.ok.inj hm
  obtain ⟨r, b', hrun, hmap, -⟩ := hstep ⟨.write "pin" [1], some 29⟩ (by
    intro m text hload htext k hk
    obtain rfl : ∅ = m := Except.ok.inj hload
    obtain rfl : oneEntryText "1" = text := Except.ok.inj htext
    obtain rfl : 29 = k := Option.some.inj hk
    decide)
  exact ⟨r, b', hrun, hmap⟩

/-- A store on an empty disk. -/
def freshStore : FileStorageBackend :=
  ⟨⟨"store", some "json"⟩, ⟨"store", some "journal"⟩, ∅, false, ⟨fun _ => none, none⟩⟩

/-- The store after its first write. -/
def oneEntryStore : FileStorageBackend :=
  supply none ((FileOp.run sampleJson (.write "pin" [1])).run (supply none freshStore)).2

/-- **The torn journal.** A crash between the creation of the journal and its first byte loads as
the empty map, with the intact main file beside it. -/
theorem empty_journal_hides_store :
    ¬CrashSafe sampleJson (fun _ _ => True) ⟨"store", some "json"⟩ := by
  intro hsafe
  have hfirst : runStep sampleJson ⟨.write "pin" [1], none⟩ freshStore =
      (_, .ok oneEntryStore) := rfl
  obtain ⟨m, hm, hstep⟩ := hsafe ⟨fun _ => none, none⟩ freshStore rfl oneEntryStore
    (.step .start trivial hfirst)
  have hload : load sampleJson oneEntryStore = .ok ((∅ : KvMap).insert "pin" [1]) := by
    decide +kernel
  obtain rfl : (∅ : KvMap).insert "pin" [1] = m := Except.ok.inj (hload.symm.trans hm)
  obtain ⟨r, b', hrun, hmap, -⟩ := hstep ⟨.write "pin" [2], some 1⟩ trivial
  have hempty : (runStep sampleJson ⟨.write "pin" [2], some 1⟩ oneEntryStore).2.bind
      (load sampleJson) = .ok ∅ := by decide +kernel
  rw [hrun] at hempty
  change load sampleJson b' = .ok ∅ at hempty
  rw [hempty] at hmap
  revert hmap
  decide +kernel

end FileStorageBackend

end OpenKey
