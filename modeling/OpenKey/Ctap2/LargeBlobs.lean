import OpenKey.Ctap2.Runs
import OpenKey.Ctap2.Within
import OpenKey.Storage.LargeBlobs

/-!
# Writing the large-blob array

A platform writes an array of large blobs as consecutive fragments, each with the length of the
whole (`Writes`). The first one lets the array grow to that length, and what stood beyond it stays.

**Theorem (`largeBlobs_iff`).** Afterwards the array is what was written exactly when the one before
was no longer, and a read of it is answered in full where its count, cut to 32 bits, still reaches
the end. A refused write leaves the array as it was unless it had passed the range checks, that is
unless the medium refused it. In no run is the array longer than 4096 bytes.
-/

namespace OpenKey

open Prog (Keeps bind_eq_ok check_eq_ok)

set_option autoImplicit false

namespace Auth

variable {β : Type} [StorageBackend β] (build : Build)

/-! ## Fragments -/

/-- The bytes of a command that writes a fragment of an array of `length` bytes. -/
def IsSet (length offset : Nat) (fragment data : Bytes) : Prop :=
  ∃ request, build.cbor.decodeLargeBlobs data = .ok request ∧ request.set = some fragment ∧
    request.offset = offset ∧ request.length = some length

/-- Commands that write a byte string from `offset` on, fragment by fragment. -/
inductive Writes (length : Nat) : Nat → List Bytes → Bytes → Prop
  | nil (offset : Nat) : Writes length offset [] []
  | cons {offset : Nat} {fragment data rest : Bytes} {datas : List Bytes}
      (head : IsSet build length offset fragment data)
      (tail : Writes length (offset + fragment.length) datas rest) :
      Writes length offset (data :: datas) (fragment ++ rest)

/-- The commands one after the other; the first that is refused ends the sequence. -/
def writeAll : List Bytes → Ctap β Unit
  | [] => pure ()
  | data :: datas => do
      let _ ← handleLargeBlobs build data
      writeAll datas

/-- The array read in consecutive pieces of the given lengths. -/
def pieces (e : StorageEngine β) : Nat → List Nat → Bytes
  | _, [] => []
  | offset, count :: counts => e.readLargeBlobs offset count ++ pieces e (offset + count) counts

/-! ## The law -/

/-- The array is `blob`, and it is read back, whole or in pieces, by any of the commands `gets`. -/
structure Holds (blob : Bytes) (gets : List Bytes) (a : Auth β) : Prop where
  length : a.storage.getLargeBlobsLen = blob.length
  split : ∀ counts : List Nat, blob.length ≤ counts.sum → pieces a.storage 0 counts = blob
  read : ∀ data ∈ gets, ∀ request, build.cbor.decodeLargeBlobs data = .ok request →
    request.set = none → ((handleLargeBlobs build data).run a).1 =
      (toUsize request.offset).map fun offset =>
        ⟨some ((blob.drop offset).take (request.get.getD 0))⟩

/-- The array before is no longer than `blob`, and no count of `gets` loses what it asks for when it
is cut to 32 bits. -/
structure Fits (blob : Bytes) (gets : List Bytes) (a : Auth β) : Prop where
  before : a.storage.largeBlobs.length ≤ blob.length
  counts : ∀ data ∈ gets, ∀ request, build.cbor.decodeLargeBlobs data = .ok request →
    request.set = none → request.offset < usizeRange → request.get.getD 0 < usizeRange ∨
      blob.length - request.offset ≤ request.get.getD 0 % usizeRange

/-- A write that passes the range checks and is not what is there already. -/
def Overwrites (a : Auth β) (data : Bytes) : Prop :=
  ∃ request blob write last, build.cbor.decodeLargeBlobs data = .ok request ∧
    request.set = some blob ∧ checkLargeBlobsWrite a.largeBlobsLimit request blob = .ok write ∧
    a.storage.checkLargeBlobs write.offset write.data write.expectedLen = .ok last ∧
    StorageEngine.splicedBlobs a.storage.largeBlobs write.offset write.data write.expectedLen ≠
      a.storage.largeBlobs

/-! ## One command -/

section

variable {build} {a a' : Auth β} {data : Bytes} {request : LargeBlobsRequest}

theorem toUsize_ok {n m : Nat} (h : toUsize n = .ok m) : m = n := by
  unfold toUsize at h
  split at h
  · exact (Except.ok.inj h).symm
  · cases h

theorem checkLargeBlobsWrite_ok {maxSize : Nat} {blob : Bytes} {write : LargeBlobsWrite}
    (h : checkLargeBlobsWrite maxSize request blob = .ok write) :
    write = ⟨request.offset, blob, request.length⟩ := by
  obtain ⟨expectedLen, hexpected, h⟩ := Except.bind_eq_ok.mp h
  obtain ⟨offset, hoffset, h⟩ := Except.bind_eq_ok.mp h
  obtain ⟨writeEnd, -, h⟩ := Except.bind_eq_ok.mp h
  obtain rfl := toUsize_ok hoffset
  have hlength : expectedLen = request.length := by
    cases hlen : request.length with
    | none =>
        rw [hlen] at hexpected
        exact (Except.ok.inj hexpected).symm
    | some n =>
        rw [hlen, Option.elim_some] at hexpected
        cases hn : toUsize n with
        | error error =>
            rw [hn] at hexpected
            cases hexpected
        | ok m =>
            rw [hn, toUsize_ok hn] at hexpected
            exact (Except.ok.inj hexpected).symm
  split at h
  · cases h
  split at h
  · cases h
  split at h
  · cases h
  · rw [← hlength]
    exact (Except.ok.inj h).symm

/-- A write that passes the checks of the range puts its fragment into the array, and is refused
only by the medium. -/
theorem largeBlobs_of_passes {blob : Bytes} {write : LargeBlobsWrite} {last : Nat}
    (hdecode : build.cbor.decodeLargeBlobs data = .ok request) (hset : request.set = some blob)
    (hwrite : checkLargeBlobsWrite a.largeBlobsLimit request blob = .ok write)
    (hlast : a.storage.checkLargeBlobs write.offset write.data write.expectedLen = .ok last) :
    ((handleLargeBlobs build data).run a).2.storage.largeBlobs =
      StorageEngine.splicedBlobs a.storage.largeBlobs write.offset write.data
        write.expectedLen := by
  unfold handleLargeBlobs
  rw [hdecode, Prog.run_bind_of_ok (a := request) rfl]
  simp only [hset]
  rw [writeLargeBlobs, Prog.run_bind_of_ok (Prod.ext hwrite rfl), Prog.snd_run_bind_pure]
  exact StorageEngine.largeBlobs_writeLargeBlobs hlast

/-- A write that does not pass them is refused and changes nothing. -/
theorem run_of_not_passes {blob : Bytes}
    (hdecode : build.cbor.decodeLargeBlobs data = .ok request) (hset : request.set = some blob)
    (hnot : ∀ write last, checkLargeBlobsWrite a.largeBlobsLimit request blob = .ok write →
      a.storage.checkLargeBlobs write.offset write.data write.expectedLen ≠ .ok last) :
    (∃ error, ((handleLargeBlobs build data).run a).1 = .error error) ∧
      ((handleLargeBlobs build data).run a).2.storage = a.storage := by
  unfold handleLargeBlobs
  rw [hdecode, Prog.run_bind_of_ok (a := request) rfl]
  simp only [hset]
  cases hwrite : checkLargeBlobsWrite a.largeBlobsLimit request blob with
  | error error =>
      rw [show (writeLargeBlobs request blob).run a = (.error error, a) from
        Prog.run_check_bind_error hwrite]
      exact ⟨⟨error, rfl⟩, rfl⟩
  | ok write =>
      cases hlast : a.storage.checkLargeBlobs write.offset write.data write.expectedLen with
      | ok last => exact absurd hlast (hnot write last hwrite)
      | error error =>
          have hrun := StorageEngine.run_writeLargeBlobs_refused hlast
          have hchecked : (Prog.check fun a : Auth β =>
              checkLargeBlobsWrite a.largeBlobsLimit request blob).run a = (.ok write, a) :=
            Prod.ext hwrite rfl
          have hstorage : (Prog.mapError largeBlobsError (onStorage .ordinary
              (StorageEngine.writeLargeBlobs write.offset write.data write.expectedLen))).run a =
              (.error (largeBlobsError error),
                { a with storage := a.storage, log := .stored a.storage .ordinary :: a.log }) := by
            rw [Prog.run_mapError]
            simp only [onStorage, hrun]
            rfl
          rw [writeLargeBlobs, Prog.run_bind_of_ok hchecked, Prog.run_bind_of_error hstorage]
          exact ⟨⟨_, rfl⟩, rfl⟩

/-- A set command that is accepted passed the checks. -/
theorem set_ok {length offset : Nat} {fragment : Bytes} {response : LargeBlobsResponse}
    (hset : IsSet build length offset fragment data)
    (hrun : (handleLargeBlobs build data).run a = (.ok response, a')) :
    offset ≤ a.storage.largeBlobs.length ∧ offset + fragment.length ≤ length ∧
      a'.storage.largeBlobs =
        StorageEngine.splicedBlobs a.storage.largeBlobs offset fragment (some length) := by
  obtain ⟨request, hdecode, hfragment, rfl, hlength⟩ := hset
  by_cases hpasses : ∃ write last, checkLargeBlobsWrite a.largeBlobsLimit request fragment =
      .ok write ∧ a.storage.checkLargeBlobs write.offset write.data write.expectedLen = .ok last
  · obtain ⟨write, last, hwrite, hlast⟩ := hpasses
    have harray := largeBlobs_of_passes hdecode hfragment hwrite hlast
    obtain rfl := checkLargeBlobsWrite_ok hwrite
    rw [hrun, hlength] at harray
    have hchecked := StorageEngine.checkLargeBlobs_ok hlast
    exact ⟨hchecked.1, (hchecked.2.2 length hlength).2, harray⟩
  · obtain ⟨⟨error, herror⟩, -⟩ := run_of_not_passes (a := a) hdecode hfragment
      fun write last hwrite hlast => hpasses ⟨write, last, hwrite, hlast⟩
    rw [hrun] at herror
    cases herror

/-- A read is answered with a piece of the array. -/
theorem run_get (hdecode : build.cbor.decodeLargeBlobs data = .ok request)
    (hget : request.set = none) : ((handleLargeBlobs build data).run a).1 =
      (toUsize request.offset).map fun offset =>
        ⟨some ((a.storage.largeBlobs.drop offset).take (request.get.getD 0 % usizeRange))⟩ := by
  unfold handleLargeBlobs
  rw [hdecode, Prog.run_bind_of_ok (a := request) rfl]
  simp only [hget]
  unfold readLargeBlobs
  cases hoffset : toUsize request.offset with
  | error error => rfl
  | ok offset => rfl

end

/-! ## A whole array -/

section

variable {build} {length offset : Nat} {datas : List Bytes} {rest : Bytes} {a a' : Auth β}

/-- Once the fragments are written they stand one after the other behind what was there, and what
stood beyond the whole length still does. -/
theorem largeBlobs_writeAll (hwrites : Writes build length offset datas rest)
    (hoffset : offset ≤ a.storage.largeBlobs.length) (hlength : offset + rest.length = length)
    (hrun : (writeAll build datas).run a = (.ok (), a')) :
    a'.storage.largeBlobs.take length = a.storage.largeBlobs.take offset ++ rest ∧
      a'.storage.largeBlobs.drop length = a.storage.largeBlobs.drop length := by
  induction hwrites generalizing a with
  | nil offset =>
      cases hrun
      rw [← hlength, List.length_nil, Nat.add_zero, List.append_nil]
      exact ⟨rfl, rfl⟩
  | @cons offset fragment data rest datas head tail ih =>
      obtain ⟨response, b, hfirst, hrun⟩ := bind_eq_ok.mp hrun
      obtain ⟨hstart, hend, harray⟩ := set_ok head hfirst
      rw [List.length_append] at hlength
      have hgrown : offset + fragment.length ≤ b.storage.largeBlobs.length := by
        rw [harray, StorageEngine.length_splicedBlobs]
        omega
      obtain ⟨htake, hdrop⟩ := ih hgrown (by omega) hrun
      rw [htake, hdrop, harray, StorageEngine.take_splicedBlobs hstart,
        StorageEngine.drop_splicedBlobs hstart hend, List.append_assoc]
      exact ⟨rfl, rfl⟩

/-- After a whole array is written, it stands in front of what was beyond its length. -/
theorem largeBlobs_written {blob : Bytes} (hwrites : Writes build blob.length 0 datas blob)
    (hrun : (writeAll build datas).run a = (.ok (), a')) :
    a'.storage.largeBlobs = blob ++ a.storage.largeBlobs.drop blob.length := by
  obtain ⟨htake, hdrop⟩ :=
    largeBlobs_writeAll hwrites (Nat.zero_le _) (Nat.zero_add _) hrun
  rw [← List.take_append_drop blob.length a'.storage.largeBlobs, htake, hdrop, List.take_zero,
    List.nil_append]

end

omit [StorageBackend β] in
/-- Consecutive pieces of an array make up its front. -/
theorem pieces_eq (e : StorageEngine β) (offset : Nat) (counts : List Nat) :
    pieces e offset counts = (e.largeBlobs.drop offset).take counts.sum := by
  induction counts generalizing offset with
  | nil => rfl
  | cons count counts ih =>
      rw [pieces, ih, List.sum_cons, StorageEngine.readLargeBlobs, List.take_add, List.drop_drop]

/-- A count cut to 32 bits reads the same where it was below that, or still reaches the end. -/
theorem take_cut_iff {blob : Bytes} (hblob : blob.length ≤ maxLargeBlobsSize) (offset count : Nat) :
    (blob.drop offset).take (count % usizeRange) = (blob.drop offset).take count ↔
      count < usizeRange ∨ blob.length - offset ≤ count % usizeRange := by
  have hsize : maxLargeBlobsSize < usizeRange := by decide
  have hrest : (blob.drop offset).length = blob.length - offset := List.length_drop
  constructor
  · intro h
    by_contra hnot
    push Not at hnot
    have hlen := congrArg List.length h
    rw [List.length_take, List.length_take, hrest] at hlen
    omega
  · rintro (hcount | hreach)
    · rw [Nat.mod_eq_of_lt hcount]
    · have hle : count % usizeRange ≤ count := Nat.mod_le _ _
      rw [List.take_of_length_le (by omega), List.take_of_length_le (by omega)]

section

variable {build} {datas : List Bytes} {a a' : Auth β}

/-- What is written is held exactly where it fits. -/
theorem holds_iff {blob : Bytes} (hblob : blob.length ≤ maxLargeBlobsSize)
    (hwrites : Writes build blob.length 0 datas blob) (gets : List Bytes)
    (hrun : (writeAll build datas).run a = (.ok (), a')) :
    Holds build blob gets a' ↔ Fits build blob gets a := by
  have harray := largeBlobs_written hwrites hrun
  have hread : a.storage.largeBlobs.length ≤ blob.length → ∀ data request,
      build.cbor.decodeLargeBlobs data = .ok request → request.set = none →
        ((handleLargeBlobs build data).run a').1 = (toUsize request.offset).map fun offset =>
          ⟨some ((blob.drop offset).take (request.get.getD 0 % usizeRange))⟩ := by
    intro hle data request hdecode hget
    rw [run_get hdecode hget, harray, List.drop_eq_nil_of_le hle, List.append_nil]
  constructor
  · intro hholds
    have hle : a.storage.largeBlobs.length ≤ blob.length := by
      have hlen := hholds.length
      rw [StorageEngine.getLargeBlobsLen, harray, List.length_append, List.length_drop] at hlen
      omega
    refine ⟨hle, fun data hdata request hdecode hget hoffset => ?_⟩
    have hsame := (hread hle data request hdecode hget).symm.trans
      (hholds.read data hdata request hdecode hget)
    rw [toUsize, if_pos hoffset] at hsame
    refine (take_cut_iff hblob _ _).mp ?_
    exact Option.some.inj (congrArg LargeBlobsResponse.config (Except.ok.inj hsame))
  · rintro ⟨hle, hcounts⟩
    refine ⟨?_, fun counts hsum => ?_, fun data hdata request hdecode hget => ?_⟩
    · rw [StorageEngine.getLargeBlobsLen, harray, List.drop_eq_nil_of_le hle, List.append_nil]
    · rw [pieces_eq, harray, List.drop_eq_nil_of_le hle, List.append_nil, List.drop_zero,
        List.take_of_length_le hsum]
    · rw [hread hle data request hdecode hget, toUsize]
      by_cases hoffset : request.offset < usizeRange
      · rw [if_pos hoffset]
        exact congrArg (fun piece => Except.ok (⟨some piece⟩ : LargeBlobsResponse))
          ((take_cut_iff hblob _ _).mpr (hcounts data hdata request hdecode hget hoffset))
      · rw [if_neg hoffset]
        rfl

/-- A refused write changed the array exactly where it had passed the checks of the range. -/
theorem unchanged_iff {data : Bytes} {error : Ctap2Error}
    (hrun : (handleLargeBlobs build data).run a = (.error error, a')) :
    a'.storage.largeBlobs = a.storage.largeBlobs ↔ ¬Overwrites build a data := by
  have hafter : a' = ((handleLargeBlobs build data).run a).2 := (congrArg Prod.snd hrun).symm
  constructor
  · rintro hsame ⟨request, blob, write, last, hdecode, hset, hwrite, hlast, hne⟩
    rw [← largeBlobs_of_passes hdecode hset hwrite hlast, ← hafter] at hne
    exact hne hsame
  · intro hnot
    rw [hafter]
    unfold handleLargeBlobs at hrun ⊢
    cases hdecode : build.cbor.decodeLargeBlobs data with
    | error error => rfl
    | ok request =>
        cases hset : request.set with
        | none =>
            rw [Prog.run_bind_of_ok (a := request) rfl]
            simp only [hset, readLargeBlobs]
            cases toUsize request.offset <;> rfl
        | some blob =>
            have hsame : ((handleLargeBlobs build data).run a).2.storage.largeBlobs =
                a.storage.largeBlobs := by
              by_cases hpasses : ∃ write last,
                  checkLargeBlobsWrite a.largeBlobsLimit request blob = .ok write ∧
                    a.storage.checkLargeBlobs write.offset write.data write.expectedLen = .ok last
              · obtain ⟨write, last, hwrite, hlast⟩ := hpasses
                rw [largeBlobs_of_passes hdecode hset hwrite hlast]
                by_contra hne
                exact hnot ⟨request, blob, write, last, hdecode, hset, hwrite, hlast, hne⟩
              · rw [(run_of_not_passes hdecode hset fun write last hwrite hlast =>
                  hpasses ⟨write, last, hwrite, hlast⟩).2]
            unfold handleLargeBlobs at hsame
            rwa [hdecode] at hsame

end

/-! ## Acceptance -/

section

variable {build} {length offset : Nat} {a : Auth β}

/-- The medium takes every array of large blobs. -/
def MediumTakes (β : Type) [StorageBackend β] : Prop :=
  ∀ (b : β) v, ((StorageBackend.write largeBlobsStorageKey v).run b).1 = .ok ()

theorem run_onBackend_takes (hmedium : MediumTakes β) (v : Bytes) (e : StorageEngine β) :
    ((StorageEngine.onBackend (StorageBackend.write largeBlobsStorageKey v)).run e).1 = .ok () := by
  cases hb : e.backend with
  | none => simp only [StorageEngine.onBackend, hb]
  | some b =>
      simp only [StorageEngine.onBackend, hb, hmedium b v]
      rfl

/-- A fragment in its place within the limits is accepted. -/
theorem set_accepted (hmedium : MediumTakes β) {fragment data : Bytes}
    (hset : IsSet build length offset fragment data) (hlimit : length ≤ a.largeBlobsLimit)
    (hsize : length ≤ maxLargeBlobsSize) (hend : offset + fragment.length ≤ length)
    (hoffset : offset ≤ a.storage.largeBlobs.length) :
    ∃ response a', (handleLargeBlobs build data).run a = (.ok response, a') ∧
      a'.largeBlobsLimit = a.largeBlobsLimit := by
  obtain ⟨request, hdecode, hfragment, rfl, hlength⟩ := hset
  have husize : maxLargeBlobsSize < usizeRange := by decide
  have hfits : ∀ {n : Nat}, n ≤ length → toUsize n = .ok n := fun hn => if_pos (by omega)
  have hwrite : checkLargeBlobsWrite a.largeBlobsLimit request fragment =
      .ok ⟨request.offset, fragment, some length⟩ := by
    unfold checkLargeBlobsWrite
    simp only [hlength, Option.elim_some, hfits (Nat.le_refl length),
      hfits (show request.offset ≤ length by omega), bind, Except.bind, Except.map, hfits hend]
    rw [if_neg (by omega), if_neg (by simpa using hlimit), if_neg (by simpa using hend)]
  have hlast : a.storage.checkLargeBlobs request.offset fragment (some length) =
      .ok (request.offset + fragment.length) := by
    unfold StorageEngine.checkLargeBlobs
    rw [if_neg (by omega), if_neg (by omega), if_neg (by simpa using hsize),
      if_neg (by simpa using hend), if_neg (by omega)]
  have hstored : ((StorageEngine.writeLargeBlobs request.offset fragment (some length)).run
      a.storage).1 = .ok () := by
    rw [StorageEngine.writeLargeBlobs,
      Prog.run_bind_of_ok (show _ = (Except.ok _, a.storage) from Prod.ext hlast rfl),
      Prog.run_read_bind, Prog.run_update_bind]
    exact run_onBackend_takes hmedium _ _
  unfold handleLargeBlobs
  rw [hdecode, Prog.run_bind_of_ok (a := request) rfl]
  simp only [hfragment]
  rw [writeLargeBlobs,
    Prog.run_bind_of_ok (show _ = (Except.ok _, a) from Prod.ext hwrite rfl)]
  have hmapped : (Prog.mapError largeBlobsError (onStorage .ordinary
      (StorageEngine.writeLargeBlobs request.offset fragment (some length)))).run a =
      (.ok (), _) := Prod.ext (by
        rw [Prog.run_mapError]
        simp only [onStorage, hstored]
        rfl) rfl
  rw [Prog.run_bind_of_ok hmapped]
  exact ⟨_, _, rfl, rfl⟩

/-- Within the limits, and over a medium that takes it, a whole array is accepted. -/
theorem writeAll_accepted (hmedium : MediumTakes β) {datas : List Bytes} {rest : Bytes}
    (hwrites : Writes build length offset datas rest) (hlimit : length ≤ a.largeBlobsLimit)
    (hsize : length ≤ maxLargeBlobsSize) (hend : offset + rest.length ≤ length)
    (hoffset : offset ≤ a.storage.largeBlobs.length) :
    ∃ a', (writeAll build datas).run a = (.ok (), a') := by
  induction hwrites generalizing a with
  | nil offset => exact ⟨a, rfl⟩
  | @cons offset fragment data rest datas head tail ih =>
      rw [List.length_append] at hend
      obtain ⟨response, b, hrun, hsame⟩ :=
        set_accepted hmedium head hlimit hsize (by omega) hoffset
      obtain ⟨-, -, harray⟩ := set_ok head hrun
      obtain ⟨a', hrest⟩ := ih (a := b) (by omega) (by omega) (by
        rw [harray, StorageEngine.length_splicedBlobs]
        omega)
      exact ⟨a', by rw [writeAll, Prog.run_bind_of_ok hrun, hrest]⟩

end

/-! ## Runs -/

section

variable [LocalBackend β]

/-- The storage calls of every command keep the array within its limit. -/
theorem storageCalls_bounded :
    StorageCalls build (.invariant fun e : StorageEngine β => e.Bounded) where
  store key hkey v _ := StorageEngine.bounded_store (by
    rintro rfl
    revert hkey
    decide) v
  delete key _ := StorageEngine.bounded_deleteEntry key
  makeRoom := StorageEngine.bounded_makeRoom
  insertCredential := StorageEngine.bounded_insertCredential build.codec
  updateSignCount := StorageEngine.bounded_updateSignCount build.codec
  updateUserInfo := StorageEngine.bounded_updateUserInfo build.codec
  deleteCredential := StorageEngine.bounded_deleteCredential
  writeLargeBlobs := StorageEngine.bounded_writeLargeBlobs

theorem bounded_reopen {e : StorageEngine β} (h : e.Bounded) : (reopen build e).Bounded := by
  unfold reopen
  cases hb : e.backend with
  | none =>
      have hnew : (StorageEngine.new : StorageEngine β).Bounded := StorageEngine.bounded_new
      exact ⟨hnew.memory, hnew.medium⟩
  | some b =>
      have hopened := StorageEngine.bounded_withBackend build.codec fun v => h.medium b v hb
      exact ⟨hopened.memory, hopened.medium⟩

theorem bounded_call {a : Auth β} (h : a.storage.Bounded) (call : Call) :
    (a.call build call).storage.Bounded := by
  by_cases hcycle : call = .input .powerCycle
  · rw [hcycle]
    exact bounded_reopen build h
  · exact (touching_call (storageCalls_bounded build) StorageEngine.bounded_clear
      StorageEngine.bounded_clearLargeBlobs a hcycle).1 h

/-- No run makes the array longer than its limit. -/
theorem bounded_calls {a : Auth β} (h : a.storage.Bounded) (cs : List Call) :
    (a.calls build cs).storage.Bounded := by
  induction cs generalizing a with
  | nil => exact h
  | cons call cs ih => exact ih (bounded_call build h call)

/-- A whole array that is written replaces the one before exactly where it fits; a refused write
changed the array exactly where it had passed the checks of the range; and no array exceeds the
limit, in any run. -/
theorem largeBlobs_iff :
    (∀ (blob : Bytes) datas, blob.length ≤ maxLargeBlobsSize →
      Writes build blob.length 0 datas blob → ∀ a : Auth β,
        (MediumTakes β → blob.length ≤ a.largeBlobsLimit →
          ∃ a', (writeAll build datas).run a = (.ok (), a')) ∧
        ∀ a' gets, (writeAll build datas).run a = (.ok (), a') →
          (Holds build blob gets a' ↔ Fits build blob gets a)) ∧
      (∀ (a a' : Auth β) data error, (handleLargeBlobs build data).run a = (.error error, a') →
        (a'.storage.largeBlobs = a.storage.largeBlobs ↔ ¬Overwrites build a data)) ∧
      ∀ (a : Auth β) cs, a.storage.Bounded →
        (a.calls build cs).storage.largeBlobs.length ≤ maxLargeBlobsSize :=
  ⟨fun _ _ hblob hwrites _ =>
      ⟨fun hmedium hlimit => writeAll_accepted hmedium hwrites hlimit hblob
          (Nat.le_of_eq (Nat.zero_add _)) (Nat.zero_le _),
        fun _ gets hrun => holds_iff hblob hwrites gets hrun⟩,
    fun _ _ _ _ hrun => unchanged_iff hrun,
    fun _ cs h => (bounded_calls build h cs).memory⟩

end

/-! ## A shorter array after a longer one -/

/-- A write of a whole array in one fragment. -/
def setBlobData (blob : Bytes) : Bytes :=
  encodeValue (textMap [("offset", .integer 0), ("set", .bytes blob),
    ("length", .integer blob.length)])

/-- The device after an array of two bytes. -/
def twoBlobs : Auth KvMap :=
  memoryDevice.calls sampleBuild [.input (.command 0x0C (setBlobData [1, 2]))]

theorem decode_setBlobData : sampleBuild.cbor.decodeLargeBlobs (setBlobData [9]) =
    .ok ⟨0, none, some [9], some 1, none, none⟩ := rfl

theorem writes_shorter : Writes sampleBuild 1 0 [setBlobData [9]] [9] := by
  show Writes sampleBuild 1 0 [setBlobData [9]] ([9] ++ [])
  exact .cons ⟨_, decode_setBlobData, rfl, rfl, rfl⟩ (.nil _)

theorem run_shorter : ∃ a', (writeAll sampleBuild [setBlobData [9]]).run twoBlobs = (.ok (), a') ∧
    a'.storage.largeBlobs = [9, 2] :=
  ⟨_, rfl, rfl⟩

/-- Over two bytes, one byte is accepted, and held exactly if two were no more than one. -/
theorem largeBlobs_iff_shorter : ∃ a',
    (writeAll sampleBuild [setBlobData [9]]).run twoBlobs = (.ok (), a') ∧
      (Holds sampleBuild [9] [] a' ↔ Fits sampleBuild [9] [] twoBlobs) := by
  obtain ⟨hwritten, -, -⟩ := largeBlobs_iff (β := KvMap) sampleBuild
  obtain ⟨haccepted, hholds⟩ := hwritten [9] _ (by decide) writes_shorter twoBlobs
  obtain ⟨a', hrun⟩ := haccepted (fun b v => LawfulBackend.write_ok b _ v) (by decide)
  exact ⟨a', hrun, hholds a' [] hrun⟩

/-- A byte written over two leaves the second one. -/
theorem shorter_leaves_tail : ¬∀ a a' : Auth KvMap, Reachable sampleBuild a →
    (writeAll sampleBuild [setBlobData [9]]).run a = (.ok (), a') →
      Holds sampleBuild [9] [] a' := by
  intro hall
  obtain ⟨a', hrun, harray⟩ := run_shorter
  have hholds := hall twoBlobs a' ⟨memoryDevice, _, blank_memoryDevice, rfl⟩ hrun
  have hlength := hholds.length
  rw [StorageEngine.getLargeBlobsLen, harray] at hlength
  cases hlength

end Auth

end OpenKey
