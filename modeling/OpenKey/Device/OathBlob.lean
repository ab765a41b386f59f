import OpenKey.Device.OathCounters
import OpenKey.Library.Cursor

/-!
# The blob of the OATH state

`parseState` is `parse_state` as the source has it: a reader with a position, and each check where
the source makes it. It never reads outside the blob (`Cursor.parse_careful`), and on every blob
that has positions it finds what `OathState.parse` finds (`parseState_eq`).

**Reboots (`state_survives_reboot`).** In every run, the state that was persisted last is the one
that a boot over the same medium and under the same master key finds, and never a factory state in
its place.
-/

namespace OpenKey

open Command

set_option autoImplicit false

namespace Oath

open Reading

/-! ## `parse_state` -/

/-- The access code and the pending challenge. -/
def readAccess : Reading (Option OathAccess × Option Bytes) := do
  let flag ← byte
  if flag = 0 then pure (none, none)
  else do
    let wire ← byte
    let algorithm ← orReject (OathAlgorithm.fromWire wire)
    let key ← prefixed
    -- a key behind its length in one byte is never longer
    if h : key ≠ [] ∧ key.length < 256 then do
      let pending ← prefixed
      pure (some ⟨algorithm, key, h⟩, if pending = [] then none else some pending)
    else reject

/-- One credential under its name. -/
def readCredential : Reading ({ name : Bytes // NameOk name } × OathCredential) := do
  let name ← prefixed
  if hname : NameOk name then do
    let wire ← byte
    let oathType ← orReject (OathType.fromWire (wire &&& 0xF0))
    let algorithm ← orReject (OathAlgorithm.fromWire (wire &&& 0x0F))
    let digits ← byte
    if hdigits : DigitsOk digits then do
      let flags ← byte
      let counter ← take 8
      let secret ← prefixed
      if hsecret : SecretOk secret then
        pure (⟨name, hname⟩, ⟨secret, oathType, algorithm, digits, flags &&& 0x01 ≠ 0,
          flags &&& 0x02 ≠ 0, UInt64.ofNat (Bytes.beNat counter), hsecret, hdigits⟩)
      else reject
    else reject
  else reject

/-- The state around its parts, each of which is in bounds by now. -/
def assemble (salt : Bytes) (access : Option OathAccess × Option Bytes)
    (entries : List ({ name : Bytes // NameOk name } × OathCredential)) : Option OathState :=
  (OathState.build salt access (entries.map fun entry => (entry.1.1, entry.2)) []).map Prod.fst

/-- `parse_state`, behind the version. -/
def readBody : Reading OathState := do
  let salt ← prefixed
  if salt ≠ [] ∧ salt.length ≤ 64 then do
    let access ← readAccess
    let count ← number2
    if count ≤ 32 then do
      let entries ← many readCredential count
      let done ← atEnd
      if done then orReject (assemble salt access entries) else reject
    else reject
  else reject

/-- `parse_state`, from the position of the reader on. -/
def readState : Reading OathState := do
  let version ← byte
  if version = 1 then readBody else reject

/-- `parse_state`, where words have `range` values. -/
def parseState (range : Nat) (blob : Bytes) : Except Panic (Option OathState) :=
  Cursor.parse range readState blob

theorem careful_readAccess : readAccess.Careful := by
  refine careful_byte.bind fun flag => ?_
  split
  · exact careful_pure _
  · refine careful_byte.bind fun wire => (careful_orReject _).bind fun algorithm =>
      careful_prefixed.bind fun key => ?_
    split
    · exact careful_prefixed.bind fun pending => careful_pure _
    · exact careful_reject

theorem careful_readCredential : readCredential.Careful := by
  refine careful_prefixed.bind fun name => ?_
  split
  · refine careful_byte.bind fun wire => (careful_orReject _).bind fun oathType =>
      (careful_orReject _).bind fun algorithm => careful_byte.bind fun digits => ?_
    split
    · refine careful_byte.bind fun flags => (careful_take 8).bind fun counter =>
        careful_prefixed.bind fun secret => ?_
      split
      · exact careful_pure _
      · exact careful_reject
    · exact careful_reject
  · exact careful_reject

theorem careful_readBody : readBody.Careful := by
  refine careful_prefixed.bind fun salt => ?_
  split
  · refine careful_readAccess.bind fun access => careful_number2.bind fun count => ?_
    split
    · refine (careful_many careful_readCredential count).bind fun entries =>
        careful_atEnd.bind fun done => ?_
      split
      · exact careful_orReject _
      · exact careful_reject
    · exact careful_reject
  · exact careful_reject

theorem careful_readState : readState.Careful := by
  refine careful_byte.bind fun version => ?_
  split
  · exact careful_readBody
  · exact careful_reject

/-! ## The order of the checks -/

theorem front_readAccess : front readAccess = OathState.readAccess := by
  unfold readAccess OathState.readAccess
  rw [front_bind, front_byte]
  refine bind_congr fun flag => ?_
  split
  · rfl
  · rw [front_bind, front_byte]
    refine bind_congr fun wire => ?_
    cases OathAlgorithm.fromWire wire with
    | none =>
        simp only [Blob.bind_failure]
        rfl
    | some algorithm =>
        show front (prefixed >>= _) = _
        rw [front_bind, front_prefixed]
        refine bind_congr fun key => ?_
        split
        · rw [front_bind, front_prefixed]
          rfl
        · exact (Blob.bind_failure _).symm

/-- A credential under a name that is in bounds. -/
def named (entry : Bytes × OathCredential) :
    Blob.Reader ({ name : Bytes // NameOk name } × OathCredential) :=
  if h : NameOk entry.1 then pure (⟨entry.1, h⟩, entry.2) else failure

theorem named_eq {entry : Bytes × OathCredential} (h : NameOk entry.1) :
    named entry = pure (⟨entry.1, h⟩, entry.2) := dif_pos h

theorem named_eq_failure {entry : Bytes × OathCredential} (h : ¬NameOk entry.1) :
    named entry = failure := dif_neg h

theorem front_readCredential :
    front readCredential = OathState.readCredential >>= named := by
  unfold readCredential OathState.readCredential
  simp only [bind_assoc]
  rw [front_bind, front_prefixed]
  refine bind_congr fun name => ?_
  split
  · next hname =>
      rw [front_bind, front_byte]
      refine bind_congr fun wire => ?_
      cases OathType.fromWire (wire &&& 0xF0) with
      | none =>
          simp only [Blob.failure_bind, Blob.bind_failure]
          rfl
      | some oathType =>
          cases OathAlgorithm.fromWire (wire &&& 0x0F) with
          | none =>
              simp only [Blob.failure_bind, Blob.bind_failure]
              rfl
          | some algorithm =>
              show front (byte >>= _) = _
              rw [front_bind, front_byte]
              refine bind_congr fun digits => ?_
              split
              · next hdigits =>
                  simp only [front_bind, front_byte, front_take, Blob.number, bind_assoc, pure_bind]
                  refine bind_congr fun flags => bind_congr fun counter => ?_
                  rw [front_prefixed]
                  refine bind_congr fun secret => ?_
                  split
                  · next hsecret =>
                      rw [dif_pos ⟨hsecret, hdigits⟩, pure_bind, named_eq hname]
                      rfl
                  · next hsecret =>
                      rw [dif_neg fun h => hsecret h.1]
                      rfl
              · next hdigits =>
                  simp only [hdigits, and_false, dite_false, Blob.failure_bind, Blob.bind_failure]
                  rfl
  · next hname =>
      -- the other parser reads on, and finds the name in the end
      have hread : (failure : Blob.Reader ({ name : Bytes // NameOk name } × OathCredential)) =
          Blob.byte >>= fun _ => Blob.byte >>= fun _ => Blob.byte >>= fun _ =>
            Blob.number 8 >>= fun _ => Blob.prefixed 1 >>= fun _ => failure := by
        simp only [Blob.bind_failure]
      refine Eq.trans hread (bind_congr fun wire => bind_congr fun digits => bind_congr fun flags =>
        bind_congr fun counter => bind_congr fun secret => ?_)
      split
      · split
        · rw [pure_bind, named_eq_failure hname]
        · rfl
      · rfl

/-- Reading credentials with their names checked at once, or all of them in the end. -/
theorem many_named (r : Blob.Reader (Bytes × OathCredential)) (n : Nat) :
    (List.map fun entry => (entry.1.1, entry.2)) <$> Blob.many (r >>= named) n =
      Blob.many r n >>= fun entries =>
        if ∀ entry ∈ entries, NameOk entry.1 then pure entries else failure := by
  induction n with
  | zero => simp [Blob.many]
  | succ n ih =>
      simp only [Blob.many, map_bind, bind_assoc, map_pure, pure_bind]
      refine bind_congr fun entry => ?_
      by_cases hname : NameOk entry.1
      · simp only [named_eq hname, pure_bind]
        have htail : Blob.many (r >>= named) n >>= (fun entries =>
            (pure ((entry.1, entry.2) :: entries.map fun entry => (entry.1.1, entry.2)) :
              Blob.Reader (List (Bytes × OathCredential)))) =
            ((List.map fun entry => (entry.1.1, entry.2)) <$> Blob.many (r >>= named) n) >>=
              fun entries => pure (entry :: entries) := by
          simp only [map_eq_pure_bind, bind_assoc, pure_bind]
        simp only [List.map_cons]
        rw [htail, ih, bind_assoc]
        refine bind_congr fun entries => ?_
        simp only [List.forall_mem_cons, hname, true_and]
        split <;> rfl
      · simp only [named_eq_failure hname, Blob.failure_bind, List.forall_mem_cons,
          hname, false_and,
          if_false, Blob.bind_failure]

/-- The state around credentials whose names are in bounds. -/
def completed (salt : Bytes) (access : Option OathAccess × Option Bytes)
    (entries : List (Bytes × OathCredential)) : Blob.Reader OathState :=
  fun rest => if rest = [] then (OathState.build salt access entries []) else none

theorem build_finish (salt : Bytes) (access : Option OathAccess × Option Bytes)
    (entries : List (Bytes × OathCredential)) :
    OathState.build salt access entries >>= Blob.finish = completed salt access entries := by
  unfold completed OathState.build
  split
  · funext rest
    show Blob.finish _ rest = _
    unfold Blob.finish
    split
    · next h => rw [h]; rfl
    · rfl
  · funext rest
    exact (ite_self none).symm

/-- Nothing is built around a salt that is out of bounds, or a name that is. -/
theorem build_eq_failure {salt : Bytes} {access : Option OathAccess × Option Bytes}
    {entries : List (Bytes × OathCredential)}
    (h : ¬((salt ≠ [] ∧ salt.length ≤ 64) ∧ ∀ entry ∈ entries, NameOk entry.1)) :
    OathState.build salt access entries = failure :=
  dif_neg fun hok => h ⟨hok.1, hok.2.2.1⟩

theorem front_readBody : front readBody = OathState.readBody >>= Blob.finish := by
  unfold readBody OathState.readBody
  simp only [bind_assoc]
  rw [front_bind, front_prefixed]
  refine bind_congr fun salt => ?_
  split
  · next hsalt =>
      rw [front_bind, front_readAccess]
      refine bind_congr fun access => ?_
      rw [front_bind, front_number2]
      refine bind_congr fun count => ?_
      split
      · next hcount =>
          rw [front_bind, front_many, front_readCredential, Blob.require,
            if_pos (decide_eq_true hcount),
            pure_bind]
          have hmany := congrArg (· >>= completed salt access)
            (many_named OathState.readCredential count)
          simp only [map_eq_pure_bind, bind_assoc, pure_bind] at hmany
          refine Eq.trans (bind_congr fun entries => ?_)
            (hmany.trans (bind_congr fun entries => ?_))
          · funext rest
            show front (if decide (rest = []) then _ else reject) rest = _
            unfold completed
            by_cases hend : rest = []
            · rw [if_pos (decide_eq_true hend), if_pos hend, hend]
              unfold assemble OathState.build
              split <;> rfl
            · rw [if_neg (by simpa using hend), if_neg hend]
              rfl
          · split
            · rw [pure_bind, build_finish]
            · next hnames =>
                rw [build_eq_failure fun h => hnames h.2]
                rfl
      · next hcount =>
          rw [Blob.require, if_neg (by simpa using hcount)]
          rfl
  · next hsalt =>
      simp only [build_eq_failure fun h => hsalt h.1, Blob.failure_bind, Blob.bind_failure]
      rfl

/-- The parser of the source finds what `OathState.parse` finds. -/
theorem parseState_eq {range : Nat} {blob : Bytes} (h : blob.length < range) :
    parseState range blob = .ok (OathState.parse blob) := by
  unfold parseState
  rw [Cursor.parse_eq_front careful_readState h]
  refine congrArg Except.ok ?_
  rw [readState, front_bind, front_byte]
  cases blob with
  | nil => rfl
  | cons version body =>
      show (front (if version = 1 then readBody else reject) body).map Prod.fst =
        if version = 1 then Blob.whole OathState.readBody body else none
      split
      · rw [Blob.whole_eq_finish, front_readBody]
      · rfl

/-! ## The length of a blob -/

theorem length_prefixed (bytes : Bytes) :
    (OathState.prefixed bytes).length = bytes.length + 1 := by
  rw [OathState.prefixed, List.length_append, Bytes.length_beBytes, Nat.add_comm]

/-- The blob of a state has its positions in every word. -/
theorem length_serialize (state : OathState) : state.serialize.length < 2 ^ 16 := by
  have hsalt := state.salt_ok.2
  have hcount := state.credentials.size_ok
  have haccess : (OathState.serializeAccess state.access state.pendingChallenge).length ≤ 514 := by
    unfold OathState.serializeAccess
    have hpending : (state.pendingChallenge.getD []).length < 256 := by
      cases hchallenge : state.pendingChallenge with
      | none => decide
      | some challenge => exact (state.pending_ok challenge hchallenge).1.2
    split
    · decide
    · next access _ =>
        have hkey := access.key_ok.2
        simp only [List.length_append, List.length_singleton, length_prefixed]
        omega
  have hcreds := Bytes.length_flatMap_le (f := OathState.serializeCredential) (k := 141)
    (l := state.credentials.map.toList) fun entry hentry => by
      have hname := (OathState.names_toList state.credentials entry hentry).2
      have hsecret := entry.2.secret_ok.2
      simp only [OathState.serializeCredential, List.length_append, List.length_singleton,
        length_prefixed, Bytes.length_beBytes]
      omega
  rw [Std.ExtTreeMap.length_toList] at hcreds
  simp only [OathState.serialize, List.length_cons, List.length_append, length_prefixed,
    Bytes.length_beBytes]
  omega

/-! ## Reboots -/

namespace Machine

variable {β : Type} [StorageBackend β] [AtomicBackend β]

/-- Runs over a medium, under any keys. -/
inductive Served (codec : Codec StoredCredential) (prims : Primitives) : Machine β → Prop
  | boot (crypto : AppletCrypto) (b : β) (rng : Nat → Entropy) (hprims : crypto.prims = prims) :
      Served codec prims (boot crypto (.withBackend codec b) rng)
  | step {m : Machine β} (e : Event β) : Served codec prims m → m.Continues codec prims e →
      Served codec prims (m.step e)

/-- The medium holds the state persisted last. -/
structure Keeping (prims : Primitives) (m : Machine β) : Prop where
  prims_eq : m.crypto.prims = prims
  durable : m.host.storage.Durable
  loaded : m.host.memory.state.isSome
  stored : ∀ state, m.host.saved = some state →
    Host.storedState m.crypto format m.host.storage = some (state, false)

variable {codec : Codec StoredCredential} {prims : Primitives} {m : Machine β}

theorem keeping_boot (haead : AeadSound prims) {crypto : AppletCrypto}
    (hprims : crypto.prims = prims)
    (b : β) (rng : Nat → Entropy) : Keeping prims (boot crypto (.withBackend codec b) rng) := by
  have hd : (StorageEngine.withBackend codec b).Durable := StorageEngine.durable_withBackend codec b
  have hd' : (boot crypto (.withBackend codec b) rng).host.storage.Durable :=
    (Host.keeps_ensureLoaded (StorageEngine.confined_store format.storageKey)
      ⟨StorageEngine.withBackend codec b, rng, ⟨none, Session.fresh⟩, none⟩ hd).1
  obtain ⟨state, hmemory, -, hloads⟩ := boot_loads codec crypto b rng
  refine ⟨hprims, hd', by rw [hmemory]; rfl, fun saved hsaved => ?_⟩
  cases hloads with
  | found hstored hsame hstorage =>
      rw [hstorage, show saved = state from Option.some.inj (hsaved.symm.trans hsame)]
      exact hstored
  | written _ hsame held =>
      obtain ⟨blob, entropy, hheld, hseal⟩ := held
      rw [show saved = state from Option.some.inj (hsaved.symm.trans hsame)]
      exact Host.storedState_of_held (hprims ▸ haead) hd' hheld hseal
  | refused made _ hsame _ =>
      exfalso
      obtain hold | ⟨hnone, -⟩ := made
      · exact Bool.noConfusion (Host.migrated_eq_false (fun _ => rfl) hold)
      · rw [hsame hnone] at hsaved
        cases hsaved

/-- What an event that persists at most one state leaves. -/
theorem keeping_of_outcome (haead : AeadSound prims) (h : Keeping prims m) {state : OathState}
    {g : Host β OathState Session} {target : Option Edit} {result : Except Fault ResponseData}
    (hd : g.storage.Durable) (hout : Outcome m.crypto state m.host g target result) :
    Keeping prims ⟨m.crypto, g⟩ := by
  cases hout with
  | stays _ memory saved storage =>
      refine ⟨h.prims_eq, hd, by rw [memory]; rfl, fun last hlast => ?_⟩
      rw [storage]
      exact h.stored last (saved ▸ hlast)
  | written edit _ _ memory saved _ held =>
      obtain ⟨blob, entropy, hheld, hseal⟩ := held
      refine ⟨h.prims_eq, hd, by rw [memory]; rfl, fun last hlast => ?_⟩
      rw [show last = edit.state from Option.some.inj (hlast.symm.trans saved)]
      exact Host.storedState_of_held (h.prims_eq ▸ haead) hd hheld hseal
  | failed edit _ memory saved _ held =>
      refine ⟨h.prims_eq, hd, by rw [memory]; rfl, fun last hlast => ?_⟩
      rw [Host.storedState_of_heldEntry h.durable hd held]
      exact h.stored last (saved ▸ hlast)

variable (codec) in
theorem keeping_step (haead : AeadSound prims) (h : Keeping prims m) {e : Event β}
    (hcontinues : m.Continues codec prims e) : Keeping prims (m.step e) := by
  have hdurable : ∀ {α : Type} (command : OathCommand α),
      ((Host.perform m.crypto format command).run m.host).2.storage.Durable := fun command =>
    (Host.keeps_command (StorageEngine.confined_store format.storageKey) command m.host h.durable).1
  obtain ⟨state, hmem⟩ := Option.isSome_iff_exists.mp h.loaded
  cases e with
  | select =>
      obtain ⟨result, hout⟩ : ∃ r, Outcome m.crypto state m.host (m.step .select).host
        (rotated state (m.host.rng 0)) r := ends_select hmem h.durable.backend
      exact keeping_of_outcome haead h (hdurable _) hout
  | command apdu =>
      exact keeping_of_outcome haead h (hdurable _) (ends_process hmem h.durable.backend apdu)
  | reboot crypto storage rng =>
      obtain ⟨hprims, b, b', -, rfl, -⟩ := hcontinues
      exact keeping_boot haead hprims b' rng

theorem keeping_served (haead : AeadSound prims) (h : Served codec prims m) : Keeping prims m := by
  induction h with
  | boot crypto b rng hprims => exact keeping_boot haead hprims b rng
  | step e _ hcontinues ih => exact keeping_step codec haead ih hcontinues

/-- A boot over the medium, under the key it was written with, finds the state persisted last. -/
theorem current_rebooted (h : Keeping prims m) {state : OathState}
    (hsaved : m.host.saved = some state)
    {b : β} (hb : m.host.storage.backend = some b) (rng : Nat → Entropy) :
    (boot m.crypto (.withBackend codec b) rng).current = some state := by
  have hstored : Host.storedState m.crypto format (.withBackend codec b) = some (state, false) :=
    (Host.storedState_congr (StorageEngine.value_reopened codec h.durable hb _)).trans
      (h.stored state hsaved)
  unfold boot
  rw [Host.ensureLoaded_found rfl hstored]
  rfl

/-- **OATH state survives reboots.** In every run, the state in force is read back as it is written;
the state persisted last is the one that a boot finds, and after a command that persists one and
succeeds it is the state in force. On any blob, `parse_state` reads within the blob. -/
theorem state_survives_reboot (haead : AeadSound prims) (hserved : Served codec prims m)
    {range : Nat} (hrange : 2 ^ 16 ≤ range) :
    (∀ state, m.current = some state →
      parseState range state.serialize = .ok (some state)) ∧
    (∀ state b rng, m.host.saved = some state → m.host.storage.backend = some b →
      (boot m.crypto (.withBackend codec b) rng).current = some state) ∧
    (∀ apdu b rng, (m.respond apdu).1.isOk → (m.edit apdu).isSome →
      (m.step (.command apdu)).host.storage.backend = some b →
      (boot m.crypto (.withBackend codec b) rng).current = (m.step (.command apdu)).current) ∧
    ∀ (words : Nat) (blob : Bytes), ∃ result, parseState words blob = .ok result := by
  have hkeeping := keeping_served haead hserved
  refine ⟨fun state _ => ?_, fun state b rng hsaved hb => current_rebooted hkeeping hsaved hb rng,
    fun apdu b rng hok hedit hb => ?_, fun words blob =>
      Cursor.parse_careful careful_readState blob⟩
  · rw [parseState_eq (Nat.lt_of_lt_of_le (length_serialize state) hrange),
      OathState.parse_serialize]
  · obtain ⟨state, hmem⟩ := Option.isSome_iff_exists.mp hkeeping.loaded
    have hafter : Keeping prims (m.step (.command apdu)) :=
      keeping_step codec haead hkeeping trivial
    have hout : Outcome m.crypto state m.host (m.respond apdu).2 (m.edit apdu)
        (m.respond apdu).1 := by
      rw [edit_of_memory hmem]
      exact ends_process hmem hkeeping.durable.backend apdu
    obtain ⟨edit, hedit⟩ := Option.isSome_iff_exists.mp hedit
    rw [hedit] at hout
    generalize (m.respond apdu).1 = result at hout hok
    cases hout with
    | written _ _ _ memory saved _ _ =>
        have hnow : (m.step (.command apdu)).current = some edit.state := current_of_memory memory
        rw [hnow]
        exact current_rebooted hafter saved hb rng
    | failed => cases hok

end Machine

/-! ## A credential after a reboot -/

/-- The credential that PUT has stored is there after a reboot. -/
theorem state_survives_reboot_put : ∃ b : FaultyBackend,
    (countBoot.step (.command countPut)).host.storage.backend = some b ∧
      (Machine.boot countCrypto (.withBackend unusedCodec b)
        (KnownAead.constantDraws 0x01)).current =
        (countBoot.step (.command countPut)).current ∧
      (countBoot.step (.command countPut)).current.map (fun s => s.credentials.map.keys) =
        some [[0x61]] := by
  have hserved : Machine.Served unusedCodec countCrypto.prims countBoot := .boot _ _ _ rfl
  obtain ⟨b, hb⟩ : ∃ b, (countBoot.step (.command countPut)).host.storage.backend = some b :=
    Option.isSome_iff_exists.mp (by decide +kernel)
  obtain ⟨-, -, hput, -⟩ :=
    Machine.state_survives_reboot sound_countCrypto hserved (Nat.le_refl (2 ^ 16))
  exact ⟨b, hb, hput countPut b _ (by decide +kernel) (by decide +kernel) hb, by decide +kernel⟩

end Oath

end OpenKey
