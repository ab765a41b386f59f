import OpenKey.Ctap2.Noninterference
import OpenKey.Storage.Twin

/-!
# Reset leaves a fresh authenticator

**Theorem (`reset_complete`).** After a successful Reset every later sequence of commands and power
cycles is answered as by a new authenticator of the same configuration over blank storage.

Two authenticators are twins if their storages are and the rest of their states, up to the log, is
equal. Twins answer every command alike and stay twins, which is gone through handler by handler;
what Reset leaves behind is a twin of a new authenticator.
-/

namespace OpenKey

open Prog (Coupled)
open Std

set_option autoImplicit false

/-- The codec of the records tells them from the settings, and reads each of them with its own
id. -/
structure Build.Distinguishes (build : Build) : Prop where
  records : StorageEngine.KeepsIds build.codec
  settings : ∀ v, build.SettingValue v → build.codec.decode v = none

namespace Auth

variable {β : Type} [StorageBackend β] [LawfulBackend β]

/-- The same authenticator, up to its log and what cannot be told of its storage. -/
structure Twin (a b : Auth β) : Prop where
  same : b = { a with storage := b.storage, log := b.log }
  storage : a.storage.Twin b.storage

/-! ## Reading and writing -/

section

variable {α : Type}

theorem Twin.read_eq {f : Auth β → α}
    (hf : ∀ a backend wear log, f { a with
      storage := { a.storage with backend := backend, wearCounters := wear }, log := log } = f a)
    {a b : Auth β} (h : Twin a b) : f a = f b := by
  have hb : b = { a with
      storage := { a.storage with
        backend := b.storage.backend, wearCounters := b.storage.wearCounters }
      log := b.log } := by
    rw [← h.storage.same]
    exact h.same
  rw [hb]
  exact (hf _ _ _ _).symm

theorem twin_read {f : Auth β → α}
    (hf : ∀ a backend wear log, f { a with
      storage := { a.storage with backend := backend, wearCounters := wear }, log := log } = f a) :
    Coupled Twin (Prog.read f : Ctap β α) := .read fun _ _ h => h.read_eq hf

theorem twin_check {f : Auth β → Except Ctap2Error α}
    (hf : ∀ a backend wear log, f { a with
      storage := { a.storage with backend := backend, wearCounters := wear }, log := log } = f a) :
    Coupled Twin (Prog.check f : Ctap β α) := .check fun _ _ h => h.read_eq hf

theorem twin_update {g : Auth β → Auth β}
    (hg : ∀ a e l, ∃ l', g { a with storage := e, log := l } =
      { g a with storage := e, log := l' })
    (hstorage : ∀ a, (g a).storage = a.storage) :
    Coupled Twin (Prog.update g : Ctap β Unit) := by
  refine .update fun a b h => ?_
  obtain ⟨l', hl⟩ := hg a b.storage b.log
  rw [← h.same] at hl
  refine ⟨by rw [hl], ?_⟩
  rw [hstorage, hstorage]
  exact h.storage

end

instance : Tandem (Twin (β := β)) where
  stores _ := StorageEngine.Twin
  same h := h.same
  storage h := h.storage
  stored h _ e' hs _ l' :=
    ⟨congrArg (fun x : Auth β => { x with storage := e', log := l' }) h.same, hs⟩
  map hg h := (twin_update hg.commutes (fun a => (hg.storage a).1) _ _ h).2
  values h key _ := h.value key
  store v _ := StorageEngine.twin_store _ v
  delete _ _ := StorageEngine.twin_deleteEntry _

/-! ## Assertions -/

section Assertions

variable {a b : Auth β}

theorem Twin.getCredential (h : Twin a b) (id : Bytes) :
    a.storage.getCredential id a.crypto = b.storage.getCredential id b.crypto :=
  h.read_eq (f := fun a => a.storage.getCredential id a.crypto) fun _ _ _ _ => rfl

theorem Twin.selectNamed (h : Twin a b) (rpIdHash : Bytes) (uvSatisfied : Bool)
    (descriptors : List CredentialDescriptor) :
    a.selectNamed rpIdHash uvSatisfied descriptors =
      b.selectNamed rpIdHash uvSatisfied descriptors := by
  induction descriptors with
  | nil => rfl
  | cons descriptor rest ih => simp only [Auth.selectNamed, h.getCredential, ih]

theorem Twin.selectCredential (h : Twin a b) (request : GetAssertionRequest)
    (uvSatisfied : Bool) :
    a.selectCredential request uvSatisfied = b.selectCredential request uvSatisfied := by
  have hcrypto : a.crypto = b.crypto := h.read_eq (f := fun a => a.crypto) fun _ _ _ _ => rfl
  have hdiscoverable : a.discoverable request.rpId uvSatisfied =
      b.discoverable request.rpId uvSatisfied :=
    h.read_eq (f := fun a => a.discoverable request.rpId uvSatisfied) fun _ _ _ _ => rfl
  unfold Auth.selectCredential
  rw [h.selectNamed, hcrypto, hdiscoverable]

theorem Twin.checkExcludeList (h : Twin a b) (rpIdHash : Bytes)
    (excludeList : List CredentialDescriptor) :
    a.checkExcludeList rpIdHash excludeList = b.checkExcludeList rpIdHash excludeList := by
  induction excludeList with
  | nil => rfl
  | cons descriptor rest ih => simp only [Auth.checkExcludeList, h.getCredential, ih]

variable (build : Build)

theorem twin_signCounted (credential : Credential) (rpIdHash : Bytes) (flags : UInt8)
    (clientDataHash : Bytes) :
    Coupled Twin (signCounted build credential rpIdHash flags clientDataHash : Ctap β Assertion) :=
  tandem_nextSignCount.bind fun _ =>
    (tandem_persist fun _ => StorageEngine.twin_updateSignCount _ _ _).bind fun _ =>
      (tandem_signAssertion build _ _ _).bind fun _ => .pure _

theorem twin_openEnumeration (request : GetAssertionRequest) (flags : UInt8) (uvSatisfied : Bool)
    (credential : Credential) :
    Coupled Twin (openEnumeration request flags uvSatisfied credential : Ctap β Nat) :=
  (twin_read fun _ _ _ _ => rfl).bind fun _ => .ite
    (fun _ => .bind (twin_update (fun _ _ _ => ⟨_, rfl⟩) fun _ => rfl) fun _ => .pure _)
    fun _ => tandem_endHmacSession.bind fun _ => .pure _

theorem twin_getAssertion (request : GetAssertionRequest) :
    Coupled Twin (getAssertion build request : Ctap β GetAssertionResponse) := by
  refine (tandem_authenticateOperation _ _ _ _ _ _).bind fun verified =>
    (Coupled.when fun _ => tandem_checkPresence).bind fun _ => .bind (.read fun a b h => ?_)
      fun _ => (Coupled.check fun _ _ h => h.selectCredential _ _).bind fun _ =>
        (tandem_read fun _ _ _ => rfl).bind fun _ => (twin_signCounted build _ _ _ _).bind
          fun _ => (tandem_firstExtensions _ _ _).bind fun _ =>
            (twin_openEnumeration _ _ _ _).bind fun _ => .pure _
  unfold credProtectUvSatisfied
  rw [Tandem.isAlwaysUv h]

theorem twin_handleGetNextAssertion :
    Coupled Twin (handleGetNextAssertion build : Ctap β GetAssertionResponse) :=
  tandem_takeNextState.bind fun _ => (twin_read fun _ _ _ _ => rfl).bind fun _ =>
    (tandem_nextMatch _ _).bind fun _ => .bind (twin_check fun _ _ _ _ => rfl) fun _ =>
      (tandem_chainedHmacSecret _ _).bind fun _ =>
        (Coupled.when fun _ => tandem_endHmacSession).bind fun _ => .bind
          (twin_update (fun _ _ _ => ⟨_, rfl⟩) fun _ => rfl) fun _ =>
            (twin_read fun _ _ _ _ => rfl).bind fun _ => (twin_signCounted build _ _ _ _).bind
              fun _ => .pure _

end Assertions

/-! ## MakeCredential -/

section MakeCredential

variable (build : Build)

theorem twin_storeCredential (credential : Credential) :
    Coupled Twin (storeCredential build credential : Ctap β Unit) :=
  (tandem_persist fun _ => StorageEngine.twin_makeRoom).bind fun _ => (tandem_randomBytes _).bind
    fun _ => (tandem_read fun _ _ _ => rfl).bind fun _ =>
      tandem_persist fun _ => StorageEngine.twin_insertCredential _ _ _ _

theorem twin_makeCredential (request : MakeCredentialRequest) :
    Coupled Twin (makeCredential build request : Ctap β MakeCredentialResponse) :=
  (tandem_authenticateOperation _ _ _ _ _ _).bind fun _ =>
    (Coupled.when fun _ => tandem_checkPresence).bind fun _ => (tandem_read fun _ _ _ => rfl).bind
      fun _ => (tandem_check fun _ _ _ => rfl).bind fun _ =>
        (Coupled.check fun _ _ h => h.checkExcludeList _ _).bind fun _ =>
          (tandem_check fun _ _ _ => rfl).bind fun _ =>
          (tandem_newCredential build _ _ _ _).bind fun _ => (twin_storeCredential build _).bind
            fun _ => tandem_makeCredentialResponse build _ _ _

end MakeCredential

/-! ## AuthenticatorConfig -/

section Config

variable (build : Build)

theorem Twin.value {a b : Auth β} (h : Twin a b) (key : String) :
    a.storage.value key = b.storage.value key := (h.storage.value key).symm

theorem twin_setFlag (key : String) : Coupled Twin (setFlag key : Ctap β Unit) :=
  tandem_persist fun _ => StorageEngine.twin_store _ _

theorem twin_clearFlag (key : String) : Coupled Twin (clearFlag key : Ctap β Unit) :=
  tandem_persistIgnored fun _ => StorageEngine.twin_deleteEntry _

theorem twin_toggleFlag (key : String) : Coupled Twin (toggleFlag key : Ctap β Unit) :=
  (Coupled.read fun _ _ h => by rw [h.value]).bind fun _ =>
    .ite (fun _ => twin_clearFlag key) fun _ => twin_setFlag key

theorem twin_verifyCurrentPin (encrypted : Bytes) :
    Coupled Twin (verifyCurrentPin encrypted : Ctap β Unit) :=
  .bind (.bind (tandem_act (fun _ _ _ => rfl) (.of_kept (fun _ _ _ => ⟨_, rfl⟩) fun _ => rfl))
      fun _ => tandem_check fun _ _ _ => rfl) fun _ =>
    (tandem_check fun _ _ _ => rfl).bind fun _ => (tandem_ensurePinSet (c := id)).bind fun _ =>
      (tandem_read fun _ _ _ => rfl).bind fun _ => (tandem_comparePinHash _ _).bind fun _ =>
        tandem_ensure fun _ _ _ => rfl

theorem twin_storeRpids (rpids : List String) :
    Coupled Twin (storeRpids build rpids : Ctap β Unit) :=
  tandem_persist fun _ => StorageEngine.twin_store _ _

theorem twin_handleSetMinPinLength (params : Option Value) :
    Coupled Twin (handleSetMinPinLength build params : Ctap β Unit) := by
  refine (tandem_check fun _ _ _ => rfl).bind fun params => .bind ?_ fun _ =>
    (tandem_persist fun _ => StorageEngine.twin_store _ _).bind fun _ => .bind ?_ fun _ =>
      .ite (fun _ => twin_setFlag _) fun _ => twin_clearFlag _
  · cases params.currentPin with
    | none => exact .pure _
    | some encrypted => exact twin_verifyCurrentPin encrypted
  · cases params.rpids with
    | none => exact .pure _
    | some rpids => exact twin_storeRpids build rpids

theorem twin_handleAuthnrConfig (data : Bytes) :
    Coupled Twin (handleAuthnrConfig build data : Ctap β Unit) := by
  refine (tandem_check fun _ _ _ => rfl).bind fun request =>
    (tandem_ensurePinSet (c := fun set => decide (request.subCommand = 0x01) || set)).bind fun _ =>
      (tandem_required _).bind fun _ => (tandem_required _).bind fun _ =>
        (tandem_check fun _ _ _ => rfl).bind fun _ => (tandem_check fun _ _ _ => rfl).bind
          fun _ => ?_
  unfold authnrConfigSubCommand
  split
  · exact twin_setFlag _
  · exact twin_toggleFlag _
  · exact twin_handleSetMinPinLength build _
  · exact twin_toggleFlag _
  · exact (tandem_check fun _ _ _ => rfl).bind fun _ => twin_storeRpids build _
  · exact .fail _

end Config

/-! ## The other commands -/

section Others

variable (build : Build) {α : Type}

theorem twin_beginEnumeration {put : Option (Enumeration α) → Auth β → Auth β}
    (hput : ∀ state, Coupled Twin (Prog.update (put state) : Ctap β Unit)) (items : List α) :
    Coupled Twin (beginEnumeration put items) := by
  cases items with
  | nil => exact .fail _
  | cons first rest => exact (hput _).bind fun _ => .pure _

theorem twin_putCredMgmtRps (state : Option (Enumeration (String × Bytes))) :
    Coupled Twin (Prog.update (putCredMgmtRps state) : Ctap β Unit) :=
  twin_update (fun _ _ _ => ⟨_, rfl⟩) fun _ => rfl

theorem twin_putCredMgmtCreds (state : Option (Enumeration Credential)) :
    Coupled Twin (Prog.update (putCredMgmtCreds state) : Ctap β Unit) :=
  twin_update (fun _ _ _ => ⟨_, rfl⟩) fun _ => rfl

theorem twin_handleCredMgmtDeleteCredential (id : Bytes) :
    Coupled Twin (handleCredMgmtDeleteCredential id : Ctap β CtapResponse) :=
  (tandem_persist fun _ => StorageEngine.twin_deleteCredential _).bind fun _ => .pure _

theorem twin_handleCredMgmtUpdateUser (id : Bytes) (user : User) :
    Coupled Twin (handleCredMgmtUpdateUser build id user : Ctap β CtapResponse) :=
  (tandem_persist fun _ => StorageEngine.twin_updateUserInfo _ _ _ _).bind fun _ =>
    (tandem_ensure fun _ _ _ => rfl).bind fun _ => .pure _

theorem twin_credMgmtSubCommand (request : CredentialManagementRequest) :
    Coupled Twin (credMgmtSubCommand build request : Ctap β CtapResponse) := by
  unfold credMgmtSubCommand
  split
  · exact twin_read fun _ _ _ _ => rfl
  · exact (twin_read fun _ _ _ _ => rfl).bind fun _ =>
      (twin_beginEnumeration twin_putCredMgmtRps _).bind fun _ => .pure _
  · exact (tandem_nextInEnumeration _ _ (fun _ _ _ => rfl) twin_putCredMgmtRps).bind
      fun _ => .pure _
  · exact (tandem_demanded _).bind fun _ => (tandem_demanded _).bind fun _ =>
      (twin_read fun _ _ _ _ => rfl).bind fun _ =>
        (twin_beginEnumeration twin_putCredMgmtCreds _).bind fun _ => .pure _
  · exact (tandem_nextInEnumeration _ _ (fun _ _ _ => rfl) twin_putCredMgmtCreds).bind
      fun _ => .pure _
  · exact (tandem_demanded _).bind fun _ => (tandem_demanded _).bind fun _ =>
      twin_handleCredMgmtDeleteCredential _
  · exact (tandem_demanded _).bind fun _ => (tandem_demanded _).bind fun _ =>
      (tandem_demanded _).bind fun _ => twin_handleCredMgmtUpdateUser build _ _
  · exact .fail _

theorem twin_handleCredentialManagement (data : Bytes) :
    Coupled Twin (handleCredentialManagement build data : Ctap β CtapResponse) :=
  (tandem_check fun _ _ _ => rfl).bind fun _ => (tandem_check fun _ _ _ => rfl).bind fun _ =>
    (tandem_check fun _ _ _ => rfl).bind fun verified =>
      (tandem_ensurePinSet (c := fun set => verified || set)).bind fun _ =>
        (tandem_ensure fun _ _ _ => rfl).bind fun _ => twin_credMgmtSubCommand build _

theorem twin_handleLargeBlobs (data : Bytes) :
    Coupled Twin (handleLargeBlobs build data : Ctap β LargeBlobsResponse) := by
  refine (tandem_check fun _ _ _ => rfl).bind fun request => ?_
  cases request.set with
  | none => exact (tandem_check fun _ _ _ => rfl).bind fun _ => twin_read fun _ _ _ _ => rfl
  | some blob =>
      exact (tandem_check fun _ _ _ => rfl).bind fun _ =>
        (tandem_persist fun _ => StorageEngine.twin_writeLargeBlobs _ _ _).bind fun _ => .pure _

theorem twin_handleEnumerateRpsInitial :
    Coupled Twin (handleEnumerateRpsInitial : Ctap β EnumerateRpsResponse) :=
  (twin_read fun _ _ _ _ => rfl).bind fun _ =>
    (twin_beginEnumeration tandem_putEnumerateRps _).bind fun _ => .pure _

theorem twin_handleReset : Coupled Twin (handleReset : Ctap β Unit) :=
  tandem_checkPresence.bind fun _ =>
    (tandem_persistIgnored fun _ => StorageEngine.twin_clear).bind fun _ =>
      (tandem_persistIgnored fun _ => StorageEngine.twin_clearLargeBlobs).bind fun _ =>
        twin_update (fun _ _ _ => ⟨_, rfl⟩) fun _ => rfl

theorem twin_dispatch (command : Ctap2Command) (data : Bytes) :
    Coupled Twin (dispatch build command data : Ctap β CtapResponse) := by
  cases command with
  | makeCredential =>
      exact ((tandem_check fun _ _ _ => rfl).bind fun _ => twin_makeCredential build _).map
  | getAssertion =>
      exact ((tandem_check fun _ _ _ => rfl).bind fun _ => twin_getAssertion build _).map
  | getInfo => exact (tandem_getInfo build).map
  | selection => exact .pure _
  | getVersion => exact .pure _
  | clientPin => exact (tandem_handleClientPin build data).map
  | reset => exact twin_handleReset.map
  | getNextAssertion => exact (twin_handleGetNextAssertion build).map
  | bioEnroll =>
      exact Coupled.map ((tandem_check fun _ _ _ => rfl).bind fun _ =>
        (tandem_ensure fun _ _ _ => rfl).bind fun _ => .pure _)
  | credentialManagement => exact twin_handleCredentialManagement build data
  | largeBlobs => exact (twin_handleLargeBlobs build data).map
  | authenticatorConfig => exact (twin_handleAuthnrConfig build data).map
  | enumerateRpsInitial => exact twin_handleEnumerateRpsInitial.map
  | enumerateRpsNext => exact tandem_handleEnumerateRpsNext.map
  | unknown code => exact .fail _

theorem twin_processCommand (cmd : UInt8) (data : Bytes) :
    Coupled Twin (processCommand build cmd data : Ctap β CtapResponse) :=
  (Coupled.when fun _ => tandem_endHmacSession).bind fun _ => twin_dispatch build _ data

end Others

/-! ## Runs -/

section Runs

variable (build : Build)

/-- The answers to the commands of a sequence of inputs. -/
def results (a : Auth β) (inputs : List Input) : List (Except Ctap2Error CtapResponse) :=
  (a.trace build inputs).map (·.result)

variable {a b : Auth β}

theorem twin_reopen {e e' : StorageEngine β} (h : e.Twin e') (hc : e.Catalogued build.codec) :
    (reopen build e).Twin (reopen build e') := by
  have hlimit : e.maxCredentialCount = e'.maxCredentialCount :=
    h.read_eq (f := fun e => e.maxCredentialCount) fun _ _ _ => rfl
  have hopened : StorageEngine.Twin
      (e.backend.elim StorageEngine.new (StorageEngine.withBackend build.codec))
      (e'.backend.elim StorageEngine.new (StorageEngine.withBackend build.codec)) := by
    have hcontents := h.contents
    rcases hb : e.backend with _ | b <;> rcases hb' : e'.backend with _ | b'
    · exact ⟨rfl, rfl⟩
    · rw [hb, hb'] at hcontents
      cases hcontents
    · rw [hb, hb'] at hcontents
      cases hcontents
    · rw [hb, hb'] at hcontents
      exact StorageEngine.twin_withBackend (Option.some.inj hcontents).symm (hc.filed b hb)
  unfold reopen
  refine ⟨?_, hopened.contents⟩
  rw [hopened.same, hlimit]

theorem Twin.powerCycle (h : Twin a b) (hc : a.storage.Catalogued build.codec) :
    Twin (a.powerCycle build) (b.powerCycle build) := by
  refine ⟨?_, twin_reopen build h.storage hc⟩
  conv_lhs => rw [h.same]
  rfl

variable {build}

theorem storageCalls_catalogued (hcodec : build.Distinguishes) :
    StorageCalls build (.invariant (StorageEngine.Catalogued build.codec :
      StorageEngine β → Prop)) where
  store _ _ v hv := StorageEngine.catalogued_store (hcodec.settings v hv)
  delete _ hkey := (StorageEngine.lasting_catalogued hcodec.records).keeps_delete
    (systemKey_of_setting hkey)
  updateSignCount := (StorageEngine.lasting_catalogued hcodec.records).keeps_updateSignCount
  updateUserInfo := (StorageEngine.lasting_catalogued hcodec.records).keeps_updateUserInfo
  deleteCredential := (StorageEngine.lasting_catalogued hcodec.records).keeps_deleteCredential
  writeLargeBlobs := (StorageEngine.lasting_catalogued hcodec.records).keeps_writeLargeBlobs
  makeRoom := (StorageEngine.lasting_catalogued hcodec.records).keeps_makeRoom
  insertCredential :=
    StorageEngine.keeps_insertCredential (StorageEngine.catalogued_insert hcodec.records)

/-- Every command and every power cycle leaves the records under their ids. -/
theorem catalogued_step (hcodec : build.Distinguishes) (h : a.storage.Catalogued build.codec)
    (input : Input) : (a.step build input).storage.Catalogued build.codec := by
  cases input with
  | command cmd data =>
      exact (touching_call (storageCalls_catalogued hcodec) StorageEngine.catalogued_clear
        (StorageEngine.lasting_catalogued hcodec.records).keeps_clearLargeBlobs a
        (show Call.input (.command cmd data) ≠ .input .powerCycle by simp)).1 h
  | powerCycle =>
      refine ⟨keyed_reopen build a.storage, fun b hb => ?_⟩
      exact h.filed b ((backend_reopen build a.storage).symm.trans hb)

theorem Twin.step (h : Twin a b) (hc : a.storage.Catalogued build.codec) (input : Input) :
    Twin (a.step build input) (b.step build input) := by
  cases input with
  | command cmd data => exact (twin_processCommand build cmd data a b h).2
  | powerCycle => exact h.powerCycle build hc

/-- Twins answer every sequence of inputs alike. -/
theorem Twin.results (hcodec : build.Distinguishes) (h : Twin a b)
    (hc : a.storage.Catalogued build.codec) (inputs : List Input) :
    results build a inputs = results build b inputs := by
  induction inputs generalizing a b with
  | nil => rfl
  | cons input inputs ih =>
      have hrest := ih (h.step hc input) (catalogued_step hcodec hc input)
      cases input with
      | powerCycle => exact hrest
      | command cmd data =>
          exact congrArg₂ List.cons (twin_processCommand build cmd data a b h).1 hrest

end Runs

/-! ## What Reset leaves behind -/

/-- A new authenticator over `storage` in the place of `a`: what `new` makes, with the capabilities
and the attestation `a` is configured with, and facing the same world. `LAST_TS` belongs to the
process and its clock. -/
def fresh (a : Auth β) (storage : StorageEngine β) : Auth β :=
  { new a.capabilities.aaguid a.crypto storage a.rng a.clock with
    capabilities := a.capabilities
    attestationFormat := a.attestationFormat
    attestationCert := a.attestationCert
    userPresence := a.userPresence
    userVerification := a.userVerification
    lastTimestamp := a.lastTimestamp }

end Auth

/-- Nothing but the limit tells blank engines apart. -/
theorem StorageEngine.Blank.twin {β : Type} [StorageBackend β] [LawfulBackend β]
    {e e' : StorageEngine β} (h : e.Blank) (h' : e'.Blank)
    (hlimit : e'.maxCredentialCount = e.maxCredentialCount)
    (hbackend : e'.backend.isSome = e.backend.isSome) : e.Twin e' := by
  refine ⟨?_, ?_⟩
  · cases e
    cases e'
    obtain ⟨rfl, rfl, rfl, -⟩ := h
    obtain ⟨rfl, rfl, rfl, -⟩ := h'
    obtain rfl := hlimit
    rfl
  · rcases hb : e.backend with _ | b <;> rcases hb' : e'.backend with _ | b'
    · rfl
    · rw [hb, hb'] at hbackend
      cases hbackend
    · rw [hb, hb'] at hbackend
      cases hbackend
    · exact congrArg some ((h'.contents b' hb').trans (h.contents b hb).symm)

theorem StorageEngine.Blank.catalogued {β : Type} [StorageBackend β] [LawfulBackend β]
    {e : StorageEngine β} (h : e.Blank) (codec : Codec StoredCredential) : e.Catalogued codec where
  keyed := h.keyed
  filed b hb key v s _ hv _ := by
    rw [h.contents b hb, ExtTreeMap.getElem?_empty] at hv
    cases hv

/-- Clearing leaves a blank engine. -/
theorem StorageEngine.blank_clear {β : Type} [StorageBackend β] [LawfulBackend β]
    (e : StorageEngine β) :
    ∃ e', (clearLargeBlobs.run ((clear : Prog (StorageEngine β) EngineError Unit).run e).2).2 = e' ∧
      e'.Blank ∧ e'.maxCredentialCount = e.maxCredentialCount ∧
      e'.backend.isSome = e.backend.isSome := by
  obtain ⟨backend, hrun, hcontents⟩ := clear_eq e
  rw [hrun]
  unfold clearLargeBlobs
  rw [Prog.run_update_bind, run_onBackendIgnored_delete]
  refine ⟨_, rfl, ⟨rfl, rfl, rfl, ?_⟩, rfl, ?_⟩
  · intro b hb
    obtain ⟨b', rfl, rfl⟩ := Option.map_eq_some_iff.mp hb
    rw [LawfulBackend.contents_delete]
    obtain ⟨b₀, hb₀⟩ : ∃ b₀, e.backend = some b₀ := by
      cases he : e.backend with
      | none =>
          rw [he] at hcontents
          cases hcontents
      | some b₀ => exact ⟨b₀, rfl⟩
    rw [hb₀] at hcontents
    rw [Option.some.inj hcontents]
    refine ExtTreeMap.ext_getElem? fun key => ?_
    rw [kvMap_getElem?_erase, ExtTreeMap.getElem?_empty, ite_self]
  · have hsome := congrArg Option.isSome hcontents
    simpa [deleted] using hsome

namespace Auth

variable {β : Type} [StorageBackend β] [LawfulBackend β]

/-- A successful Reset leaves blank storage and nothing volatile. -/
theorem handleReset_ok {a b : Auth β} (h : handleReset.run a = (.ok (), b)) :
    b.storage.Blank ∧ b.storage.maxCredentialCount = a.storage.maxCredentialCount ∧
      b.storage.backend.isSome = a.storage.backend.isSome ∧ b = b.forget := by
  obtain ⟨_, a₁, hpresence, h⟩ := Prog.bind_eq_ok.mp h
  have hstorage : a₁.storage = a.storage :=
    storage_of_core (core_of_quiet quiet_checkPresence hpresence)
  obtain ⟨e, rfl, hblank, hlimit, hbackend⟩ := StorageEngine.blank_clear a₁.storage
  obtain ⟨-, rfl⟩ := Prod.mk.inj h
  exact ⟨hblank, hlimit.trans (congrArg (·.maxCredentialCount) hstorage),
    hbackend.trans (congrArg (·.backend.isSome) hstorage), rfl⟩

/-- What a forgetful state cannot be told apart from. -/
theorem twin_fresh {a : Auth β} {storage : StorageEngine β} (hforget : a = a.forget)
    (hstorage : a.storage.Twin storage) : Twin a (a.fresh storage) := by
  refine ⟨?_, hstorage⟩
  conv_rhs => rw [hforget]
  rfl

/-- After a successful Reset the authenticator answers like a new one over blank storage. -/
theorem reset_complete (build : Build) (hcodec : build.Distinguishes) {a : Auth β} {cmd : UInt8}
    {data : Bytes}
    (hcmd : Ctap2Command.fromU8 cmd = .reset)
    (hok : (a.exchange build cmd data).result = .ok .empty) {storage : StorageEngine β}
    (hblank : storage.Blank) (hlimit : storage.maxCredentialCount = a.storage.maxCredentialCount)
    (hbackend : storage.backend.isSome = a.storage.backend.isSome) (inputs : List Input) :
    results build (a.exchange build cmd data).after inputs =
      results build ((a.exchange build cmd data).after.fresh storage) inputs := by
  have hrun : (processCommand build cmd data).run a =
      (.ok .empty, (a.exchange build cmd data).after) := Prod.ext hok rfl
  rw [run_processCommand_of_ne build data a (by rw [hcmd]; decide), hcmd] at hrun
  obtain ⟨_, hreset, -⟩ := Prog.map_eq_ok.mp hrun
  obtain ⟨hblank', hlimit', hbackend', hforget⟩ := handleReset_ok hreset
  exact (twin_fresh hforget (hblank'.twin hblank (hlimit.trans hlimit'.symm)
    (hbackend.trans hbackend'.symm))).results hcodec (hblank'.catalogued build.codec) inputs

theorem distinguishes_sampleBuild : sampleBuild.Distinguishes where
  records _ _ h := by cases h
  settings _ _ := rfl

theorem reset_complete_after_setPin :
    (backedDevice.run sampleBuild [setPinCommand]).storage.isPinSet = true ∧
      results sampleBuild
          ((backedDevice.run sampleBuild [setPinCommand]).exchange sampleBuild 0x07 []).after
          [.command 0x04 [], .powerCycle, setPinCommand] =
        results sampleBuild
          (((backedDevice.run sampleBuild [setPinCommand]).exchange sampleBuild 0x07 []).after.fresh
            (.withBackend unusedCodec ∅)) [.command 0x04 [], .powerCycle, setPinCommand] := by
  have hisOk : ((backedDevice.run sampleBuild [setPinCommand]).exchange sampleBuild 0x07
      []).result.isOk = true := by decide +kernel
  have hok : ((backedDevice.run sampleBuild [setPinCommand]).exchange sampleBuild 0x07 []).result =
      .ok .empty := by
    obtain ⟨⟨error, herror⟩, -⟩ | ⟨hok, -⟩ :=
      reset_step sampleBuild [] (by decide : Ctap2Command.fromU8 0x07 = .reset)
        (backedDevice.run sampleBuild [setPinCommand])
    · rw [herror] at hisOk
      cases hisOk
    · exact hok
  exact ⟨by decide +kernel, reset_complete sampleBuild distinguishes_sampleBuild (by decide) hok
    blank_backedDevice.storage (by decide +kernel) (by decide +kernel) _⟩

end Auth

end OpenKey
