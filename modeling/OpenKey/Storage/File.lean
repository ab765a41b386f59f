import OpenKey.Storage.Backend

/-!
# The journalled file backend

`FileStorageBackend` of `crates/openkey-storage/src/storage.rs`, the medium of the simulator. A
flush writes the serialised map to a journal, then to a temporary file, renames the temporary
file over the main one and removes the journal. Loading takes the journal if there is one.

`Disk` is a file system that may crash after any number of steps, one step being the creation,
removal or renaming of a file or the writing of one byte. Directories are left out: the parent
of the store is taken to exist.
-/

namespace OpenKey

open Std

set_option autoImplicit false

/-! ## The file system -/

/-- A path, by the stem and the extension of its last component. -/
structure Path where
  stem : String
  extension : Option String
  deriving DecidableEq

/-- The path with another extension. -/
def Path.withExtension (path : Path) (extension : String) : Path :=
  { path with extension := some extension }

/-- A file system. -/
structure Disk where
  files : Path → Option Bytes
  /-- Steps left before the crash; `none` if there is none. -/
  power : Option Nat

namespace Disk

/-- One file-system step: it is taken whole, refused, or prevented by the crash. -/
def step (f : (Path → Option Bytes) → Except StorageError (Path → Option Bytes)) :
    Prog Disk StorageError Unit := .mk fun d =>
  if d.power = some 0 then (.error (.ioError "crash"), d)
  else
    match f d.files with
    | .ok files => (.ok (), { files := files, power := d.power.map (· - 1) })
    | .error e => (.error e, d)

/-- `File::create`: an empty file, whatever was there. -/
def create (path : Path) : Prog Disk StorageError Unit :=
  step fun files => .ok (Function.update files path (some []))

/-- Append one byte. -/
def append (path : Path) (byte : UInt8) : Prog Disk StorageError Unit :=
  step fun files => .ok (Function.update files path (some ((files path).getD [] ++ [byte])))

/-- `write_all`. -/
def writeAll (path : Path) : Bytes → Prog Disk StorageError Unit
  | [] => pure ()
  | byte :: bytes => do
      append path byte
      writeAll path bytes

/-- `fs::remove_file`. -/
def removeFile (path : Path) : Prog Disk StorageError Unit :=
  step fun files =>
    if (files path).isSome then .ok (Function.update files path none)
    else .error (.ioError "entity not found")

/-- `fs::rename`. -/
def rename (source destination : Path) : Prog Disk StorageError Unit :=
  step fun files =>
    match files source with
    | some contents =>
        .ok (Function.update (Function.update files source none) destination (some contents))
    | none => .error (.ioError "entity not found")

/-- `write_durable`: the bytes are on the disk when the call returns. -/
def writeDurable (path : Path) (contents : Bytes) : Prog Disk StorageError Unit := do
  create path
  writeAll path contents

/-- `replace_file`. -/
def replaceFile (source destination : Path) : Prog Disk StorageError Unit := do
  let present ← Prog.read fun d => (d.files destination).isSome
  Prog.when present (removeFile destination)
  rename source destination

end Disk

/-! ## Serialisation -/

/-- `serde_json` on snapshots. -/
structure JsonFormat where
  /-- `to_string_pretty`. -/
  toStringPretty : KvMap → Except String String
  /-- `from_str`. -/
  fromStr : String → Except String KvMap
  /-- A text that was produced parses back. -/
  fromStr_toStringPretty : ∀ m text, toStringPretty m = .ok text → fromStr text = .ok m
  /-- A text that was produced starts with a brace. -/
  head_toStringPretty : ∀ m text, toStringPretty m = .ok text → text.toList.head? = some '\x7b'

/-- The characters `str::trim` removes. -/
def isWhiteSpace (c : Char) : Bool :=
  c.toNat ∈ [0x09, 0x0a, 0x0b, 0x0c, 0x0d, 0x20, 0x85, 0xa0, 0x1680, 0x2000, 0x2001, 0x2002,
    0x2003, 0x2004, 0x2005, 0x2006, 0x2007, 0x2008, 0x2009, 0x200a, 0x2028, 0x2029, 0x202f,
    0x205f, 0x3000]

/-- `fs::read_to_string` on the contents of a file. -/
def readToString (contents : Bytes) : Except StorageError String :=
  match ofUtf8 contents with
  | some text => .ok text
  | none => .error (.ioError "stream did not contain valid UTF-8")

/-! ## The backend -/

/-- The file backend, and the disk it lives on. -/
structure FileStorageBackend where
  path : Path
  journalPath : Path
  cache : KvMap
  dirty : Bool
  disk : Disk

namespace FileStorageBackend

variable (json : JsonFormat)

/-- What the text of a snapshot stands for. -/
def parseSnapshot (contents : Bytes) : Except StorageError KvMap := do
  let text ← readToString contents
  if text.toList.all isWhiteSpace then pure ∅
  else (json.fromStr text).mapError .serializationError

/-- `load_snapshot`: the journal has precedence over the main file. -/
def loadSnapshot (files : Path → Option Bytes) (path journalPath : Path) :
    Except StorageError KvMap :=
  let snapshotPath := if (files journalPath).isSome then journalPath else path
  match files snapshotPath with
  | none => .ok ∅
  | some contents => parseSnapshot json contents

/-- Open the file at `path` and load it. -/
def new (path : Path) (disk : Disk) : Except StorageError FileStorageBackend := do
  let journalPath := path.withExtension "journal"
  let cache ← loadSnapshot json disk.files path journalPath
  pure { path := path, journalPath := journalPath, cache := cache, dirty := false, disk := disk }

/-- A call on the disk. -/
def onDisk (m : Prog Disk StorageError Unit) : Prog FileStorageBackend StorageError Unit :=
  Prog.zoom (·.disk) (fun disk b => { b with disk := disk }) m

/-- The file operations of a flush. -/
def flushFiles (path journalPath : Path) (contents : Bytes) : Prog Disk StorageError Unit := do
  Disk.writeDurable journalPath contents
  let temporaryPath := path.withExtension "tmp"
  Disk.writeDurable temporaryPath contents
  Disk.replaceFile temporaryPath path
  Disk.removeFile journalPath

/-- Write the cache to the disk if it has changed. -/
def flush : Prog FileStorageBackend StorageError Unit := do
  let b ← Prog.read fun b => b
  Prog.when b.dirty do
    let text ← Prog.check fun _ => (json.toStringPretty b.cache).mapError .serializationError
    onDisk (flushFiles b.path b.journalPath (utf8 text))
    Prog.update fun b => { b with dirty := false }

/-- Read, modify, write. -/
def modify (f : KvMap → KvMap) : Prog FileStorageBackend StorageError Unit := do
  let cache ← Prog.check fun b => loadSnapshot json b.disk.files b.path b.journalPath
  Prog.update fun b => { b with cache := f cache, dirty := true }
  flush json

/-- `write`. -/
def write (key : String) (value : Bytes) : Prog FileStorageBackend StorageError Unit :=
  modify json fun cache => cache.insert key value

/-- `delete`. -/
def delete (key : String) : Prog FileStorageBackend StorageError Unit :=
  modify json fun cache => cache.erase key

/-- The backend as the storage engine sees it. -/
@[reducible] def storageBackend : StorageBackend FileStorageBackend where
  read b key := (loadSnapshot json b.disk.files b.path b.journalPath).map fun m => m[key]?
  write := write json
  delete := delete json
  listKeys b := (loadSnapshot json b.disk.files b.path b.journalPath).map fun m => m.keys

end FileStorageBackend

end OpenKey
