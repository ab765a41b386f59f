import OpenKey.Crypto.Engine
import OpenKey.Library.Script
import OpenKey.Storage.Engine
import OpenKey.Transport.Iso7816

/-!
# Applets and their persisted state

The applets of `crates/openkey-device/src/firmware` keep their state in the same way: it is
serialized, encrypted under the master key with a fresh nonce and stored under one reserved key
(`persist_state`), and loaded on first use (`ensure_loaded`), with a factory state in place of one
that is absent or cannot be read. `AppletFormat` is what differs between them.

A command of an applet is a script over its memory, the random generator and these two operations.
It has no other way to the storage, so what the two operations keep, every command keeps.
-/

namespace OpenKey

open Prog (Keeps)

set_option autoImplicit false

/-! ## Status words of the applets -/

/-- `SW_CLASS_NOT_SUPPORTED`. -/
def swClassNotSupported : UInt16 := 0x6E00

/-- `SW_WRONG_SYNTAX`. -/
def swWrongSyntax : UInt16 := 0x6A80

/-- `sw_retries`: `63 CX`. -/
def swRetries (left : UInt8) : UInt16 := 0x63C0 ||| (left &&& 0x0F).toUInt16

/-! ## Tag-length-value lists -/

/-- `push_tlv`: a short form; it panics on a value of more than 255 bytes. -/
def pushTlv (out : Bytes) (tag : UInt8) (value : Bytes) : Except Fault Bytes :=
  if value.length ≤ 255 then .ok (out ++ tag :: UInt8.ofNat value.length :: value)
  else .error .panic

/-- The loop that takes a list of short forms apart, `fuel` times at most; each takes two bytes or
more. -/
def tlvLoop : Nat → Bytes → Option (List (UInt8 × Bytes))
  | _, [] => some []
  | fuel + 1, tag :: len :: rest =>
      if len.toNat ≤ rest.length then
        (tlvLoop fuel (rest.drop len.toNat)).map ((tag, rest.take len.toNat) :: ·)
      else none
  | _, _ => none

/-- The short forms of a request; `6A80` if one is truncated. -/
def parseTlvs (data : Bytes) : Except UInt16 (List (UInt8 × Bytes)) :=
  (tlvLoop data.length data).elim (.error swWrongSyntax) .ok

/-- `u16::from_be_bytes` of a value of two bytes; it panics on others. -/
def u16OfBe : Bytes → Except Fault UInt16
  | [hi, lo] => .ok (UInt16.ofNat (Bytes.beNat [hi, lo]))
  | _ => .error .panic

/-- The first byte; it panics if there is none. -/
def firstByte : Bytes → Except Fault UInt8
  | b :: _ => .ok b
  | [] => .error .panic

/-! ## Algorithms -/

/-- The crypto engine, with the algorithms that only the applets use and the lengths of keys. -/
structure AppletCrypto extends CryptoEngine where
  /-- `hmacSha1 key data`. -/
  hmacSha1 : Bytes → Bytes → Bytes
  length_hmacSha1 : ∀ key data, (hmacSha1 key data).length = 20
  hmacSha512 : Bytes → Bytes → Bytes
  length_hmacSha512 : ∀ key data, (hmacSha512 key data).length = 64
  length_ed25519Public : ∀ {seed pub}, prims.ed25519Public seed = some pub → pub.length = 32
  length_p256Generate : ∀ {entropy priv pub}, prims.p256Generate entropy = some (priv, pub) →
    32 < priv.length ∧ priv.length ≤ 256 ∧ pub.length = 65

theorem length_sha1Zeros (_ _ : Bytes) : (List.replicate 20 (0 : UInt8)).length = 20 :=
  List.length_replicate

theorem length_sha512Zeros (_ _ : Bytes) : (List.replicate 64 (0 : UInt8)).length = 64 :=
  List.length_replicate

/-! ## Commands -/

/-- What an applet keeps in memory: its state once it is loaded, and its session. -/
structure Memory (S V : Type) where
  state : Option S
  session : V

/-- The operations of an applet. -/
inductive AppletOp (S V : Type)
  | inspect
  | setState (state : S)
  | modifySession (change : V → V)
  /-- A draw from the system random generator. -/
  | draw
  | ensureLoaded
  | persistState

/-- The answers to the operations; the last two may fail with a status word. -/
def AppletOp.Answer {S V : Type} : AppletOp S V → Type
  | .inspect => Memory S V
  | .setState _ => Unit
  | .modifySession _ => Unit
  | .draw => Entropy
  | .ensureLoaded => Except UInt16 Unit
  | .persistState => Except UInt16 Unit

/-- A command of an applet with states `S` and sessions `V`. -/
abbrev Command (S V : Type) := Script (AppletOp S V) AppletOp.Answer Fault

namespace Command

variable {S V α : Type}

/-- End with a status word. -/
def refuse (sw : UInt16) : Command S V α := .fail (.status sw)

/-- Continue only if `c` holds. -/
def require (c : Bool) (sw : UInt16) : Command S V Unit := Script.require c (.status sw)

/-- The value, or a status word. -/
def orRefuse (value : Option α) (sw : UInt16) : Command S V α :=
  value.elim (refuse sw) pure

/-- The value, or its fault. -/
def orFault (value : Except Fault α) : Command S V α := Script.lift value

/-- The value, or the status word of its failure. -/
def orStatus (value : Except UInt16 α) : Command S V α := Script.lift (value.mapError .status)

/-- The memory of the applet. -/
def inspect : Command S V (Memory S V) := Script.call AppletOp.inspect

/-- One draw from the system random generator. -/
def draw : Command S V Entropy := Script.call AppletOp.draw

/-- `ensure_loaded`, with the result in hand. -/
def tryLoad : Command S V (Except UInt16 Unit) := Script.call AppletOp.ensureLoaded

/-- `ensure_loaded`. -/
def ensureLoaded : Command S V Unit := do
  let result ← tryLoad
  orStatus result

/-- `persist_state`, with the result in hand. -/
def tryPersist : Command S V (Except UInt16 Unit) := Script.call AppletOp.persistState

/-- `persist_state`. -/
def persistState : Command S V Unit := do
  let result ← tryPersist
  orStatus result

/-- The session. -/
def session : Command S V V := do
  let memory ← inspect
  pure memory.session

/-- Change the session. -/
def modifySession (change : V → V) : Command S V Unit := Script.call (AppletOp.modifySession change)

/-- Change the state in memory. -/
def setState (state : S) : Command S V Unit := Script.call (AppletOp.setState state)

/-- The state in memory, which a call of `ensure_loaded` has put there. -/
def loadedState : Command S V S := do
  let memory ← inspect
  memory.state.elim (.fail .panic) pure

/-- `state_mut`. -/
def stateMut : Command S V S := do
  ensureLoaded
  loadedState

end Command

/-! ## The persisted state -/

/-- How an applet keeps its state. -/
structure AppletFormat (S : Type) where
  /-- `STORAGE_KEY`. -/
  storageKey : String
  /-- The status word when the state cannot be persisted. -/
  failure : UInt16
  /-- `serialize_state`. -/
  serialize : S → Bytes
  /-- `parse_state`. -/
  parse : Bytes → Option S
  /-- The text is of an older version, and is written again once it is loaded. -/
  migrates : Bytes → Bool
  /-- `factory_state`, from the draws of the random generator. -/
  factory : Prog (Nat → Entropy) Fault S
  parse_serialize : ∀ s, parse (serialize s) = some s
  migrates_serialize : ∀ s, migrates (serialize s) = false

/-- An applet on its storage. -/
structure Host (β S V : Type) where
  storage : StorageEngine β
  /-- The draws still to come from the system random generator. -/
  rng : Nat → Entropy
  memory : Memory S V
  /-- The state persisted last; the source has no such field. -/
  saved : Option S

namespace Host

variable {β S V : Type} [StorageBackend β]

/-- One draw. -/
def draw : Prog (Host β S V) Fault Entropy :=
  Prog.act fun h => (h.rng 0, { h with rng := fun n => h.rng (n + 1) })

variable (crypto : AppletCrypto) (format : AppletFormat S)

/-- The blob of a state: the nonce, then the ciphertext. -/
def sealState (state : S) (entropy : Entropy) : Except Fault Bytes :=
  match crypto.encrypt (format.serialize state) (entropy.bytes 12) with
  | .ok ciphertext => .ok (entropy.bytes 12 ++ ciphertext)
  | .error _ => .error (.status format.failure)

/-- `persist_state`. -/
def persistState : Prog (Host β S V) Fault Unit := do
  let state ← Prog.check fun h =>
    h.memory.state.elim (.error (.status format.failure)) .ok
  let entropy ← draw
  let blob ← Prog.check fun _ => sealState crypto format state entropy
  Prog.mapError (fun _ => .status format.failure)
    (Prog.zoom Host.storage (fun e h => { h with storage := e })
      (StorageEngine.store format.storageKey blob))
  Prog.update fun h => { h with saved := some state }

/-- The state in a blob, with whether it is of an older version. -/
def openBlob (blob : Bytes) : Option (S × Bool) :=
  if blob.length > 12 then
    match crypto.decrypt (blob.drop 12) (blob.take 12) with
    | .ok plaintext => (format.parse plaintext).map fun s => (s, format.migrates plaintext)
    | .error _ => none
  else none

/-- The state in the storage. -/
def storedState (e : StorageEngine β) : Option (S × Bool) :=
  (e.retrieve format.storageKey).toOption.bind (openBlob crypto format)

/-- `ensure_loaded`. -/
def ensureLoaded : Prog (Host β S V) Fault Unit := do
  let loaded ← Prog.read fun h => h.memory.state.isSome
  if loaded then pure ()
  else do
    let found ← Prog.read fun h => storedState crypto format h.storage
    match found with
    | some (state, migrated) => do
        Prog.update fun h =>
          { h with memory := { h.memory with state := some state }, saved := some state }
        Prog.when migrated (persistState crypto format)
    | none => do
        let state ← Prog.zoom Host.rng (fun rng h => { h with rng := rng }) format.factory
        Prog.update fun h => { h with memory := { h.memory with state := some state } }
        persistState crypto format

/-- A program with the status word of its failure in hand. -/
def caught {α : Type} (m : Prog (Host β S V) Fault α) :
    Prog (Host β S V) Fault (Except UInt16 α) :=
  .mk fun h => (Fault.status? (m.run h).1, (m.run h).2)

/-- What the operations of a command do. -/
def answer : (op : AppletOp S V) → Prog (Host β S V) Fault op.Answer
  | .inspect => Prog.read fun h => h.memory
  | .setState state =>
      Prog.update fun h => { h with memory := { h.memory with state := some state } }
  | .modifySession change => Prog.update fun h =>
      { h with memory := { h.memory with session := change h.memory.session } }
  | .draw => draw
  | .ensureLoaded => caught (ensureLoaded crypto format)
  | .persistState => caught (persistState crypto format)

/-- The program of a command. -/
def perform {α : Type} (command : Command S V α) : Prog (Host β S V) Fault α :=
  command.perform (answer crypto format)

/-! ## What a command touches -/

/-- The moves that stay within `G` on the storage. -/
def storageFrame (G : Prog.Frame (StorageEngine β)) : Prog.Frame (Host β S V) where
  rel g h := G.rel g.storage h.storage
  refl h := G.refl h.storage
  trans := G.trans

section

variable {G : Prog.Frame (StorageEngine β)} {crypto format}
  (hG : ∀ blob, Keeps G (StorageEngine.store format.storageKey blob))

include hG

theorem keeps_persistState :
    Keeps (storageFrame G) (persistState crypto format : Prog (Host β S V) Fault Unit) := by
  refine (Keeps.check _).bind fun _ => (Keeps.act fun h => G.refl h.storage).bind fun _ =>
    (Keeps.check _).bind fun blob => Keeps.bind ?_ fun _ => Keeps.update fun h => G.refl h.storage
  exact fun h => hG blob h.storage

theorem keeps_ensureLoaded :
    Keeps (storageFrame G) (ensureLoaded crypto format : Prog (Host β S V) Fault Unit) := by
  refine (Keeps.read _).bind fun _ => .ite (fun _ => .pure ()) fun _ =>
    (Keeps.read _).bind fun found => ?_
  cases found with
  | some found =>
      exact (Keeps.update fun h => G.refl h.storage).bind fun _ =>
        .when fun _ => keeps_persistState hG
  | none =>
      exact Keeps.bind (fun h => G.refl h.storage) fun _ =>
        (Keeps.update fun h => G.refl h.storage).bind fun _ => keeps_persistState hG

/-- Every command of an applet changes the storage only by storing under its key. -/
theorem keeps_command {α : Type} (command : Command S V α) :
    Keeps (storageFrame G) (perform crypto format command : Prog (Host β S V) Fault α) := by
  refine Script.keeps_perform _ (fun op => ?_) command
  cases op with
  | inspect => exact Keeps.read _
  | setState state => exact Keeps.update fun h => G.refl h.storage
  | modifySession change => exact Keeps.update fun h => G.refl h.storage
  | draw => exact Keeps.act fun h => G.refl h.storage
  | ensureLoaded => exact fun h => keeps_ensureLoaded hG h
  | persistState => exact fun h => keeps_persistState hG h

end

/-! ## The state in force -/

variable {crypto format}

theorem keeps_memory_persistState : Keeps (Prog.Frame.constant Host.memory)
    (persistState crypto format : Prog (Host β S V) Fault Unit) :=
  (Keeps.check _).bind fun _ => (Keeps.act fun _ => rfl).bind fun _ => (Keeps.check _).bind fun _ =>
    Keeps.bind (fun _ => rfl) fun _ => Keeps.update fun _ => rfl

theorem keeps_session_ensureLoaded : Keeps (Prog.Frame.constant fun h => h.memory.session)
    (ensureLoaded crypto format : Prog (Host β S V) Fault Unit) := by
  have hpersist : Keeps (Prog.Frame.constant fun h => h.memory.session)
      (persistState crypto format : Prog (Host β S V) Fault Unit) :=
    keeps_memory_persistState.mono fun _ _ h => congrArg Memory.session h
  refine (Keeps.read _).bind fun _ => .ite (fun _ => .pure ()) fun _ =>
    (Keeps.read _).bind fun found => ?_
  cases found with
  | some found => exact (Keeps.update fun _ => rfl).bind fun _ => .when fun _ => hpersist
  | none =>
      exact Keeps.bind (fun _ => rfl) fun _ => (Keeps.update fun _ => rfl).bind fun _ => hpersist

variable (crypto format) in
/-- The state that the next command works on: the one in memory, else the one in storage. -/
def current (h : Host β S V) : Option S :=
  match h.memory.state with
  | some state => some state
  | none => (storedState crypto format h.storage).map (·.1)

/-- Where no version is an older one, no state in storage is of an older one. -/
theorem migrated_eq_false (hmig : ∀ text, format.migrates text = false) {e : StorageEngine β}
    {state : S} {migrated : Bool} (h : storedState crypto format e = some (state, migrated)) :
    migrated = false := by
  obtain ⟨blob, -, hblob⟩ := Option.bind_eq_some_iff.mp h
  unfold openBlob at hblob
  split at hblob
  · split at hblob
    · obtain ⟨_, -, hpair⟩ := Option.map_eq_some_iff.mp hblob
      exact (congrArg Prod.snd hpair).symm.trans (hmig _)
    · cases hblob
  · cases hblob

/-- A state in force is loaded as it is. -/
theorem run_ensureLoaded {h : Host β S V} {state : S} (hmig : ∀ text, format.migrates text = false)
    (hstate : current crypto format h = some state) : ∃ saved,
      (ensureLoaded crypto format).run h = (.ok (), { h with
        memory := { h.memory with state := some state }, saved := saved }) := by
  unfold ensureLoaded
  rw [Prog.run_read_bind]
  unfold current at hstate
  split at hstate
  · next hmem =>
      obtain rfl := Option.some.inj hstate
      rw [hmem]
      refine ⟨h.saved, ?_⟩
      show (Except.ok (), h) = _
      rw [← hmem]
  · next hmem =>
      obtain ⟨⟨_, migrated⟩, hfound, rfl⟩ := Option.map_eq_some_iff.mp hstate
      have hmigrated := migrated_eq_false hmig hfound
      rw [hmem, Option.isSome_none, if_neg Bool.false_ne_true, Prog.run_read_bind]
      simp only [hfound, hmigrated]
      exact ⟨_, rfl⟩

/-- A load that succeeds leaves the state in force, or a factory state where there was none. -/
theorem loaded_of_ensureLoaded {h h' : Host β S V} {u : Unit}
    (hrun : (ensureLoaded crypto format).run h = (.ok u, h')) :
    ∃ state, h'.memory.state = some state ∧ (current crypto format h = some state ∨
      current crypto format h = none ∧ ∃ rng rng', format.factory.run rng = (.ok state, rng')) := by
  unfold ensureLoaded at hrun
  rw [Prog.run_read_bind] at hrun
  unfold current
  cases hmem : h.memory.state with
  | some state =>
      rw [hmem, if_pos Option.isSome_some] at hrun
      cases hrun
      exact ⟨state, hmem, .inl rfl⟩
  | none =>
      rw [hmem, Option.isSome_none, if_neg Bool.false_ne_true, Prog.run_read_bind] at hrun
      cases hfound : storedState crypto format h.storage with
      | some found =>
          obtain ⟨state, migrated⟩ := found
          simp only [hfound] at hrun
          rw [Prog.run_update_bind] at hrun
          have hkeep : Keeps (Prog.Frame.constant Host.memory)
              (Prog.when migrated (persistState crypto format) : Prog (Host β S V) Fault Unit) :=
            Keeps.when fun _ => keeps_memory_persistState
          have hmemory := hkeep.of_run hrun
          exact ⟨state, congrArg Memory.state hmemory, .inl rfl⟩
      | none =>
          simp only [hfound] at hrun
          obtain ⟨state, t, hzoom, hrun⟩ := Prog.bind_eq_ok.mp hrun
          rw [Prog.run_update_bind] at hrun
          have hmemory := keeps_memory_persistState.of_run hrun
          rw [Prog.run_zoom] at hzoom
          have hfactory : (format.factory.run h.rng).1 = .ok state := congrArg Prod.fst hzoom
          exact ⟨state, congrArg Memory.state hmemory, .inr ⟨rfl, h.rng, _,
            Prod.ext hfactory rfl⟩⟩

omit [StorageBackend β] in
theorem caught_eq_ok {α : Type} {m : Prog (Host β S V) Fault α} {h h' : Host β S V} {a : α} :
    (caught m).run h = (.ok (.ok a), h') ↔ m.run h = (.ok a, h') := by
  show (Fault.status? (m.run h).1, (m.run h).2) = _ ↔ _
  rcases m.run h with ⟨fault | b, t⟩
  · cases fault <;> simp [Fault.status?]
  · simp [Fault.status?]

/-- A command succeeds exactly when its parts do, one after the other. -/
theorem perform_bind_eq_ok {α γ : Type} {command : Command S V α} {f : α → Command S V γ}
    {h h' : Host β S V} {c : γ} :
    (perform crypto format (command >>= f)).run h = (.ok c, h') ↔
      ∃ a g, (perform crypto format command).run h = (.ok a, g) ∧
        (perform crypto format (f a)).run g = (.ok c, h') := by
  rw [perform, Script.run_perform_bind]
  exact Prog.bind_eq_ok

theorem perform_ensureLoaded_eq_ok {h h' : Host β S V} {u : Unit} :
    (perform crypto format Command.ensureLoaded).run h = (.ok u, h') ↔
      (ensureLoaded crypto format).run h = (.ok u, h') := by
  rw [Command.ensureLoaded, perform_bind_eq_ok, ← caught_eq_ok]
  have hcall : (perform crypto format Command.tryLoad).run h =
      (caught (ensureLoaded crypto format)).run h := by
    show ((caught (ensureLoaded crypto format)) >>= pure).run h = _
    rw [Prog.run_bind]
    rcases (caught (ensureLoaded crypto format)).run h with ⟨_ | _, _⟩ <;> rfl
  rw [hcall]
  constructor
  · rintro ⟨sw | v, g, hload, hresult⟩
    · cases hresult
    · cases hresult
      exact hload
  · intro hload
    exact ⟨.ok u, h', hload, rfl⟩

/-- The state that a command works on is in memory, and was in force unless none was. -/
theorem state_of_stateMut {h h' : Host β S V} {state : S}
    (hrun : (perform crypto format Command.stateMut).run h = (.ok state, h')) :
    h'.memory.state = some state ∧ (current crypto format h = some state ∨
      current crypto format h = none ∧ ∃ rng rng', format.factory.run rng = (.ok state, rng')) := by
  obtain ⟨u, g, hload, hstate⟩ := perform_bind_eq_ok.mp hrun
  obtain ⟨loaded, hmem, hcase⟩ := loaded_of_ensureLoaded (perform_ensureLoaded_eq_ok.mp hload)
  have hrun' : (perform crypto format Command.loadedState).run g =
      (perform crypto format ((some loaded).elim (.fail .panic) pure)).run g := by
    rw [← hmem]
    rfl
  rw [hrun'] at hstate
  cases hstate
  exact ⟨hmem, hcase⟩

end Host

end OpenKey
