import OpenKey.Ctap2.Creation
import OpenKey.Ctap2.CredentialKeys
import OpenKey.Ctap2.Deletion
import OpenKey.Ctap2.Enumeration
import OpenKey.Storage.Records

/-!
# Where credentials come from

**Theorem (`assertions_verify`).** In every run from an empty store, whatever the commands and power
cycles, a successful assertion is for a credential that an earlier MakeCredential of the run has
made: it drew the id, and it left the record that now signs, for the relying party and the user of
its request. The signature of the assertion checks under the public key of that record, and if the
MakeCredential was answered, under the key its answer attested.

The proof carries the registration of every stored record along the run (`Registered`): the
exchange that made it, with the key pair that was drawn for it. Commands change a record in its
counter and its names only, so what the registration left is the record still (`origin`); a power
cycle reads back what is on the medium, provided that no setting decodes as a credential
(`Rereads`).

A MakeCredential that fails after the record is stored has made a credential too, so only the
attested key waits for an answer.
-/

namespace OpenKey

open Prog (Keeps bind_eq_ok check_eq_ok)

set_option autoImplicit false

namespace Auth

variable {β : Type} [StorageBackend β] (build : Build)

/-! ## The new credential -/

/-- What a new credential takes from the request, its id, which is the first draw, and its key
pair. -/
structure Fresh (a : Auth β) (request : MakeCredentialRequest) (credential : Credential) :
    Prop where
  drawn : credential.credentialId = (a.rng 0).bytes 16
  rpId : credential.rpId = request.rp.id
  rpIdHash : credential.rpIdHash = hashRpId request.rp.id a.crypto
  user : credential.userHandle = some request.user.id
  algorithm : selectAlgorithm build request.pubKeyCredParams = .ok credential.algorithm
  keys : ∃ entropy, a.crypto.keyPair build credential.algorithm entropy =
    .ok (credential.privateKey, credential.publicKey)

omit [StorageBackend β] in
theorem rng_checkPresence :
    Keeps (.constant fun a : Auth β => a.rng) (checkPresence : Ctap β Unit) := by
  refine Keeps.bind (.act fun a => ?_) fun _ => .ensure _ _
  cases a.userPresence <;> rfl

omit [StorageBackend β] in
theorem newCredential_fresh {request : MakeCredentialRequest} {algorithm : Int}
    {rpIdHash credBlob : Bytes} {credential : Credential} {a b : Auth β}
    (hhash : rpIdHash = hashRpId request.rp.id a.crypto)
    (halgorithm : selectAlgorithm build request.pubKeyCredParams = .ok algorithm)
    (h : (newCredential build request algorithm rpIdHash credBlob).run a = (.ok credential, b)) :
    Fresh build a request credential := by
  obtain ⟨id, a₁, h₁, h⟩ := bind_eq_ok.mp h
  obtain ⟨keys, a₂, h₂, h⟩ := bind_eq_ok.mp h
  obtain ⟨largeBlobKey, a₃, -, h⟩ := bind_eq_ok.mp h
  obtain ⟨credRandoms, a₄, -, h⟩ := bind_eq_ok.mp h
  obtain ⟨createdAt, a₅, -, h⟩ := bind_eq_ok.mp h
  cases h
  cases h₁
  obtain ⟨entropy, hkeys⟩ := newKeyPair_ok build h₂
  exact ⟨rfl, rfl, hhash, rfl, halgorithm, entropy, hkeys⟩

theorem prepareCredential_fresh {request : MakeCredentialRequest} {verified : Bool}
    {credential : Credential} {a b : Auth β}
    (h : (prepareCredential build request).run a = (.ok (verified, credential), b)) :
    Fresh build a request credential := by
  obtain ⟨_, a₁, h₁, h⟩ := bind_eq_ok.mp h
  obtain ⟨_, a₂, h₂, h⟩ := bind_eq_ok.mp h
  have hcore₁ := core_of_quiet (quiet_authenticateOperation _ _ _ _ _ _) h₁
  have hcore₂ := core_of_quiet (.when fun _ => quiet_checkPresence) h₂
  have hcrypto : a₂.crypto = a.crypto := congrArg Core.crypto (hcore₂.trans hcore₁)
  have hrng₁ : a₁.rng = a.rng :=
    (quiet_authenticateOperation (F := .constant fun a : Auth β => a.rng) _ _ _ _ _ _).of_run h₁
  have hrng₂ : a₂.rng = a₁.rng := (Keeps.when fun _ => rng_checkPresence).of_run h₂
  rw [Prog.run_read_bind] at h
  obtain ⟨algorithm, a₃, h₃, h⟩ := bind_eq_ok.mp h
  obtain ⟨halgorithm, rfl⟩ := check_eq_ok.mp h₃
  obtain ⟨_, a₄, h₄, h⟩ := bind_eq_ok.mp h
  obtain ⟨-, rfl⟩ := check_eq_ok.mp h₄
  obtain ⟨credBlob, a₅, h₅, h⟩ := bind_eq_ok.mp h
  obtain ⟨-, rfl⟩ := check_eq_ok.mp h₅
  obtain ⟨made, a₆, h₆, h⟩ := bind_eq_ok.mp h
  cases h
  obtain ⟨hdrawn, hrpId, hhash, huser, halgorithm', hkeys⟩ :=
    newCredential_fresh build rfl halgorithm h₆
  rw [hrng₂, hrng₁] at hdrawn
  rw [hcrypto] at hhash hkeys
  exact ⟨hdrawn, hrpId, hhash, huser, halgorithm', hkeys⟩

/-- The attested credential data of an answer are those of the credential. -/
theorem makeCredentialResponse_attested {request : MakeCredentialRequest} {credential : Credential}
    {verified : Bool} {r : MakeCredentialResponse} {a b : Auth β}
    (h : (makeCredentialResponse build request credential verified).run a = (.ok r, b)) :
    ∃ attested, attestedCredentialData build a.crypto a.capabilities.aaguid credential.credentialId
        credential.algorithm credential.publicKey = .ok attested ∧
      r.authData = authDataHeader credential.rpIdHash
        (creationFlags request.options.up verified) 0 ++ attested := by
  obtain ⟨attested, a₁, h₁, h⟩ := bind_eq_ok.mp h
  obtain ⟨hattested, rfl⟩ := check_eq_ok.mp h₁
  obtain ⟨extensions, a₂, -, h⟩ := bind_eq_ok.mp h
  obtain ⟨pending, a₃, -, h⟩ := bind_eq_ok.mp h
  obtain ⟨format, a₄, -, h⟩ := bind_eq_ok.mp h
  obtain ⟨info, a₅, -, h⟩ := bind_eq_ok.mp h
  cases h
  exact ⟨attested, hattested, rfl⟩

/-! ## Registrations -/

/-- An exchange has made a record: the id it drew, the record it left, what it took from the
request, the key pair that was drawn, the private key under the nonce, and the data its answer
attests. -/
structure Registered (crypto : CryptoEngine) (y : Exchange β) (request : MakeCredentialRequest)
    (s : StoredCredential) : Prop where
  command : y.command = .makeCredential
  decoded : build.cbor.decodeMakeCredential y.data = .ok request
  drawn : s.credential.credentialId = (y.before.rng 0).bytes 16
  left : (y.after.storage.credentials[s.credential.credentialId]?).map StoredCredential.origin =
    some s.origin
  rpId : s.credential.rpId = request.rp.id
  rpIdHash : s.credential.rpIdHash = hashRpId request.rp.id crypto
  user : s.credential.userHandle = some request.user.id
  algorithm : selectAlgorithm build request.pubKeyCredParams = .ok s.credential.algorithm
  keys : ∃ entropy privateKey, crypto.keyPair build s.credential.algorithm entropy =
      .ok (privateKey, s.credential.publicKey) ∧
    crypto.encrypt privateKey s.nonce = .ok s.encryptedPrivateKey
  attested : ∀ r, y.result = .ok (.makeCredential r) → ∃ flags attested,
    attestedCredentialData build crypto y.before.capabilities.aaguid s.credential.credentialId
      s.credential.algorithm s.credential.publicKey = .ok attested ∧
    r.authData = authDataHeader s.credential.rpIdHash flags 0 ++ attested

omit [StorageBackend β] in
theorem lasting_registered (crypto : CryptoEngine) (past : List (Exchange β)) :
    StoredCredential.Lasting fun _ s =>
      ∃ y ∈ past, ∃ request, Registered build crypto y request s where
  counted := by
    rintro id s n ⟨y, hy, request, h⟩
    exact ⟨y, hy, request, h.command, h.decoded, h.drawn, h.left, h.rpId, h.rpIdHash, h.user,
      h.algorithm, h.keys, h.attested⟩
  renamed := by
    rintro id s name displayName ⟨y, hy, request, h⟩
    exact ⟨y, hy, request, h.command, h.decoded, h.drawn, h.left, h.rpId, h.rpIdHash, h.user,
      h.algorithm, h.keys, h.attested⟩

/-! ## MakeCredential -/

/-- The moves that leave the engine and the capabilities alone. -/
def SameSetup : Prog.Frame (Auth β) := .constant fun a => (a.crypto, a.capabilities)

omit [StorageBackend β] in
theorem sameSetup_of_core {a b : Auth β} (h : b.core = a.core) : SameSetup.rel a b :=
  Prod.ext (congrArg Core.crypto h) (congrArg Core.capabilities h)

theorem sameSetup_storeCredential (credential : Credential) :
    Keeps SameSetup (storeCredential build credential : Ctap β Unit) := by
  have hpersist : ∀ {α : Type} (m : Prog (StorageEngine β) EngineError α),
      Keeps SameSetup (persist .ordinary m : Ctap β α) := fun _ _ => rfl
  exact (hpersist _).bind fun _ =>
    ((quiet_randomBytes (F := Quiet) _).mono fun _ _ => sameSetup_of_core).bind fun _ =>
      (Keeps.read _).bind fun _ => hpersist _

/-- The record of a new credential is registered by the exchange that stored it. -/
theorem registered_of_prepared {request : MakeCredentialRequest} {a a₁ : Auth β}
    {y : Exchange β} {verified : Bool} {credential : Credential} {nonce : Bytes}
    {s : StoredCredential} (hcommand : y.command = .makeCredential)
    (hrng : y.before.rng = a.rng) (hcapabilities : y.before.capabilities = a.capabilities)
    (hleft : y.after.storage.credentials[s.credential.credentialId]? = some s)
    (hdecode : build.cbor.decodeMakeCredential y.data = .ok request)
    (hresult : y.result = ((makeCredential build request).run a).1.map .makeCredential)
    (hprepare : (prepareCredential build request).run a = (.ok (verified, credential), a₁))
    (hrest : StorageEngine.atRest a.crypto credential nonce = .ok s) :
    Registered build a.crypto y request s := by
  have hfresh := prepareCredential_fresh build hprepare
  obtain ⟨entropy, hkeys⟩ := hfresh.keys
  unfold StorageEngine.atRest at hrest
  cases hencrypt : a.crypto.encrypt credential.privateKey nonce with
  | error text => simp [hencrypt] at hrest
  | ok encrypted =>
      rw [hencrypt] at hrest
      cases hrest
      refine ⟨hcommand, hdecode, hrng ▸ hfresh.drawn, by rw [hleft]; rfl, hfresh.rpId,
        hfresh.rpIdHash, hfresh.user, hfresh.algorithm,
        ⟨entropy, credential.privateKey, hkeys, hencrypt⟩, fun r hr => ?_⟩
      rw [hr] at hresult
      obtain ⟨r', hr', heq⟩ := Except.map_eq_ok.mp hresult.symm
      cases heq
      have hrun : (makeCredential build request).run a =
          (.ok r, ((makeCredential build request).run a).2) := Prod.ext hr' rfl
      rw [makeCredential_eq, Prog.run_bind_of_ok hprepare] at hrun
      obtain ⟨_, a₂, hstore, hrun⟩ := bind_eq_ok.mp hrun
      have hsetup := (sameSetup_storeCredential build credential).of_run hstore
      have hquiet := sameSetup_of_core
        (core_of_quiet (quiet_prepareCredential build request) hprepare)
      obtain ⟨hcrypto, hcaps⟩ := Prod.mk.inj (SameSetup.trans hquiet hsetup)
      obtain ⟨attested, hattested, hdata⟩ := makeCredentialResponse_attested build hrun
      rw [hcrypto, hcaps, ← hcapabilities] at hattested
      exact ⟨_, attested, hattested, hdata⟩

/-- The record of the credential that a request prepares. -/
def Made (a : Auth β) (request : MakeCredentialRequest) (s : StoredCredential) : Prop :=
  ∃ verified credential a₁ nonce,
    (prepareCredential build request).run a = (.ok (verified, credential), a₁) ∧
      StorageEngine.atRest a.crypto credential nonce = .ok s

/-- MakeCredential keeps a property of all records that the record it adds has. -/
theorem records_makeCredential {P : Bytes → StoredCredential → Prop}
    {request : MakeCredentialRequest} {a : Auth β} (ha : a.storage.Records P)
    (hnew : ∀ s, Made build a request s → P s.credential.credentialId s) :
    (((makeCredential build request).run a).2).storage.Records P := by
  rw [makeCredential_eq]
  rcases hprepare : (prepareCredential build request).run a with
    ⟨error | ⟨verified, credential⟩, a₁⟩
  · rw [Prog.run_bind_of_error hprepare]
    rw [storage_of_core (core_of_quiet (quiet_prepareCredential build request) hprepare)]
    exact ha
  have hcore := core_of_quiet (quiet_prepareCredential build request) hprepare
  have hstored : (((storeCredential build credential).run a₁).2).storage.Records P := by
    have hbefore : a₁.storage.Records P := by
      rw [storage_of_core hcore]
      exact ha
    have hroom := StorageEngine.records_makeRoom (β := β) a₁.storage hbefore
    obtain ⟨_, e, hmade, _, -, hstorage⟩ | ⟨e, hmade, nonce, -, hstorage⟩ :=
      storeCredential_cases build credential a₁
    · rw [hstorage]
      rwa [hmade] at hroom
    · rw [hstorage]
      rw [hmade] at hroom
      refine StorageEngine.records_insertCredential (fun s hs => ?_) e hroom
      rw [show a₁.crypto = a.crypto from congrArg Core.crypto hcore] at hs
      exact hnew s ⟨verified, credential, a₁, nonce, hprepare, hs⟩
  rw [Prog.run_bind_of_ok hprepare]
  rcases hstore : (storeCredential build credential).run a₁ with ⟨error | u, a₂⟩
  · rw [Prog.run_bind_of_error hstore]
    rwa [hstore] at hstored
  · rw [Prog.run_bind_of_ok hstore]
    rw [hstore] at hstored
    exact hstored.of_credentials
      (run_makeCredentialResponse build (prepared_of_run build hprepare) verified a₂).2

/-! ## Runs -/

section Runs

variable [LawfulBackend β]

omit [LawfulBackend β] in
theorem storage_handleReset (a : Auth β) : (handleReset.run a).2.storage = a.storage ∨
    (handleReset.run a).2.storage =
      (StorageEngine.clearLargeBlobs.run (StorageEngine.clear.run a.storage).2).2 := by
  unfold handleReset
  cases hpresence : (checkPresence : Ctap β Unit).run a with
  | mk result a₁ =>
      have hstorage : a₁.storage = a.storage :=
        storage_of_core (core_of_quiet quiet_checkPresence hpresence)
      cases result with
      | error error =>
          rw [Prog.run_bind_of_error hpresence]
          exact .inl hstorage
      | ok u =>
          rw [Prog.run_bind_of_ok hpresence, ← hstorage]
          exact .inr rfl

omit [LawfulBackend β] in
theorem storage_of_reset {cmd : UInt8} (data : Bytes) (hcmd : Ctap2Command.fromU8 cmd = .reset)
    (a : Auth β) : (a.step build (.command cmd data)).storage = a.storage ∨
      (a.step build (.command cmd data)).storage =
        (StorageEngine.clearLargeBlobs.run (StorageEngine.clear.run a.storage).2).2 := by
  have hstep : a.step build (.command cmd data) =
      (handleReset.run { a with hmacSecretSession := none }).2 := by
    show ((processCommand build cmd data).run a).2 = _
    rw [run_processCommand_of_ne build data a (by rw [hcmd]; decide), hcmd]
    exact congrArg Prod.snd (Prog.run_map _ _ _)
  rw [hstep]
  exact storage_handleReset { a with hmacSecretSession := none }

omit [LawfulBackend β] in
theorem crypto_step (cmd : UInt8) (data : Bytes) (a : Auth β) :
    (a.step build (.command cmd data)).crypto = a.crypto :=
  (touching_call (storageCalls_any (β := β) build) (fun _ => trivial) (fun _ => trivial) a
    (show Call.input (.command cmd data) ≠ .input .powerCycle from nofun)).2

/-- Every command keeps memory and medium in step. -/
theorem mirrored_step (cmd : UInt8) (data : Bytes) {a : Auth β}
    (h : a.storage.Mirrored build.codec) :
    (a.step build (.command cmd data)).storage.Mirrored build.codec := by
  by_cases hreset : Ctap2Command.fromU8 cmd = .reset
  · rcases storage_of_reset build data hreset a with hsame | hcleared
    · rw [hsame]
      exact h
    · rw [hcleared]
      exact StorageEngine.mirrored_cleared a.storage
  · exact (touching_processCommand (storageCalls_of_stable StorageEngine.stable_mirrored) cmd data
      hreset a).1 h

/-- A record after a MakeCredential was there before it, or is registered by it. -/
theorem registered_makeCredential {cmd : UInt8} (data : Bytes) {a : Auth β}
    (hmirrored : a.storage.Mirrored build.codec)
    (hmake : Ctap2Command.fromU8 cmd = .makeCredential) {id : Bytes} {s : StoredCredential}
    (hs : (a.step build (.command cmd data)).storage.credentials[id]? = some s) :
    (∃ id : Bytes, a.storage.credentials[id]? = some s) ∨
      ∃ request, Registered build a.crypto (a.exchange build cmd data) request s := by
  have hne : Ctap2Command.fromU8 cmd ≠ .getNextAssertion := by
    rw [hmake]
    decide
  have hrun : (processCommand build cmd data).run a =
      (CtapResponse.makeCredential <$> handleMakeCredential build data).run
        { a with hmacSecretSession := none } := by
    rw [run_processCommand_of_ne build data a hne, hmake]
    rfl
  have hstep : a.step build (.command cmd data) =
      ((handleMakeCredential build data).run { a with hmacSecretSession := none }).2 := by
    show ((processCommand build cmd data).run a).2 = _
    rw [hrun]
    exact congrArg Prod.snd (Prog.run_map _ _ _)
  have hid : s.credential.credentialId = id :=
    (mirrored_step build cmd data hmirrored).keyed id s hs
  have hleft := hs
  rw [hstep] at hs
  cases hdecode : build.cbor.decodeMakeCredential data with
  | error error =>
      have hrefused : (handleMakeCredential build data).run { a with hmacSecretSession := none } =
          (.error error, { a with hmacSecretSession := none }) :=
        Prog.run_check_bind_error hdecode
      rw [hrefused] at hs
      exact .inl ⟨id, hs⟩
  | ok request =>
      have hdecoded : (handleMakeCredential build data).run { a with hmacSecretSession := none } =
          (makeCredential build request).run { a with hmacSecretSession := none } :=
        Prog.run_check_bind hdecode
      rw [hdecoded] at hs
      have hcases := records_makeCredential build (a := { a with hmacSecretSession := none })
        (P := fun _ s => (∃ id : Bytes, a.storage.credentials[id]? = some s) ∨
          Made build { a with hmacSecretSession := none } request s)
        (fun id s hs => .inl ⟨id, hs⟩) (fun s hs => .inr hs) id s hs
      rcases hcases with hbefore | ⟨verified, credential, a₁, nonce, hprepare, hrest⟩
      · exact .inl hbefore
      · refine .inr ⟨request, registered_of_prepared build
          (a := { a with hmacSecretSession := none }) hmake rfl rfl (hid ▸ hleft) hdecode ?_
          hprepare hrest⟩
        show ((processCommand build cmd data).run a).1 = _
        rw [hrun, Prog.run_map, hdecoded]

/-- Every command keeps the records registered. -/
theorem registered_step {past : List (Exchange β)} (cmd : UInt8) (data : Bytes) {a : Auth β}
    (hmirrored : a.storage.Mirrored build.codec)
    (h : a.storage.Records fun _ s =>
      ∃ y ∈ past, ∃ request, Registered build a.crypto y request s) :
    (a.step build (.command cmd data)).storage.Records fun _ s =>
      ∃ y ∈ past ++ [a.exchange build cmd data], ∃ request,
        Registered build a.crypto y request s := by
  have hlonger : a.storage.Records fun _ s => ∃ y ∈ past ++ [a.exchange build cmd data],
      ∃ request, Registered build a.crypto y request s := by
    intro id s hs
    obtain ⟨y, hy, hrest⟩ := h id s hs
    exact ⟨y, List.mem_append_left _ hy, hrest⟩
  by_cases hreset : Ctap2Command.fromU8 cmd = .reset
  · rcases storage_of_reset build data hreset a with hsame | hcleared
    · rw [hsame]
      exact hlonger
    · rw [hcleared]
      exact StorageEngine.records_clearLargeBlobs _ (StorageEngine.records_clear _ hlonger)
  by_cases hmake : Ctap2Command.fromU8 cmd = .makeCredential
  · intro id s hs
    rcases registered_makeCredential build data hmirrored hmake hs with ⟨id', hbefore⟩ | hnew
    · exact hlonger id' s hbefore
    · exact ⟨_, List.mem_append_right _ List.mem_cons_self, hnew⟩
  · have hcalls := commonCalls_records (β := β) build
      (lasting_registered build a.crypto (past ++ [a.exchange build cmd data]))
    have hkeeps : Keeps (Touching (.invariant (StorageEngine.Records _)) : Prog.Frame (Auth β))
        (processCommand build cmd data) :=
      keeps_processCommand hcalls cmd data hreset (fun heq => absurd heq hmake)
        fun _ => within_handleCredentialManagement hcalls data
    exact (hkeeps a).1 hlonger

/-- After the exchanges `past`, every record was made by one of them, memory and medium are in step,
and an enumeration in progress was opened by one of them. -/
structure Traceable (crypto : CryptoEngine) (past : List (Exchange β)) (a : Auth β) : Prop where
  engine : a.crypto = crypto
  records : a.storage.Records fun _ s => ∃ y ∈ past, ∃ request, Registered build crypto y request s
  mirrored : a.storage.Mirrored build.codec
  next : a.NextIs (Left build past)

theorem traceable_blank {a : Auth β} (h : a.Blank) : Traceable build a.crypto [] a where
  engine := rfl
  records := StorageEngine.records_of_empty h.storage.credentials
  mirrored := by
    refine ⟨h.storage.keyed, fun b hb => ?_⟩
    rw [h.storage.credentials, h.storage.kvStore, h.storage.largeBlobs]
    exact StorageEngine.shadows_empty (h.storage.contents b hb)
  next state hstate := by
    rw [h.opened] at hstate
    cases hstate

theorem Traceable.command {crypto : CryptoEngine} {past : List (Exchange β)} {a : Auth β}
    (h : Traceable build crypto past a) (cmd : UInt8) (data : Bytes) :
    Traceable build crypto (past ++ [a.exchange build cmd data])
      (a.step build (.command cmd data)) where
  engine := (crypto_step build cmd data a).trans h.engine
  records := by
    obtain ⟨rfl, hrecords, hmirrored, -⟩ := h
    exact registered_step build cmd data hmirrored hrecords
  mirrored := mirrored_step build cmd data h.mirrored
  next := left_command build h.next cmd data

/-- What is on the medium is read back as what it is: no setting decodes as a credential, and every
record decodes. -/
def Readable (a : Auth β) : Prop :=
  a.storage.backend.isSome = true → a.storage.Plain build.codec ∧ a.storage.Decodes build.codec

/-- It is so at every power cycle of a run. -/
def Rereads (a : Auth β) : List Input → Prop
  | [] => True
  | .command cmd data :: inputs => Rereads (a.step build (.command cmd data)) inputs
  | .powerCycle :: inputs => a.Readable build ∧ Rereads (a.powerCycle build) inputs

omit [LawfulBackend β] in
theorem rereads_append (a : Auth β) (xs ys : List Input) :
    a.Rereads build (xs ++ ys) ↔ a.Rereads build xs ∧ (a.run build xs).Rereads build ys := by
  induction xs generalizing a with
  | nil => simp [Rereads, run]
  | cons input xs ih =>
      cases input with
      | command cmd data => exact ih _
      | powerCycle =>
          have hrest := ih (a.powerCycle build)
          exact (and_congr_right fun _ => hrest).trans and_assoc.symm

theorem Traceable.powerCycle {crypto : CryptoEngine} {past : List (Exchange β)} {a : Auth β}
    (h : Traceable build crypto past a) (hread : a.Readable build) :
    Traceable build crypto past (a.powerCycle build) := by
  have hstorage : (reopen build a.storage).Records
      (fun _ s => ∃ y ∈ past, ∃ request, Registered build crypto y request s) ∧
      (reopen build a.storage).Mirrored build.codec := by
    unfold reopen
    cases hb : a.storage.backend with
    | none =>
        have hkeyed : (StorageEngine.new : StorageEngine β).Keyed :=
          StorageEngine.keyed_empty (none : Option β)
        refine ⟨StorageEngine.records_of_empty rfl, hkeyed, ?_⟩
        intro b hb'
        cases hb'
    | some b =>
        obtain ⟨hplain, hdecodes⟩ := hread (by rw [hb]; rfl)
        have hsame := StorageEngine.same_withBackend h.mirrored hplain hdecodes hb
        have hmirrored := StorageEngine.mirrored_withBackend h.mirrored hplain hdecodes hb
        exact ⟨h.records.of_credentials hsame.credentials, hmirrored.keyed, hmirrored.medium⟩
  exact ⟨h.engine, hstorage.1, hstorage.2, fun state hstate => by cases hstate⟩

omit [LawfulBackend β] in
/-- What every command keeps, and every power cycle that reads back what is there, holds before each
exchange of a trace. -/
theorem reread_invariant {P : List (Exchange β) → Auth β → Prop}
    (hcommand : ∀ past a cmd data, P past a →
      P (past ++ [a.exchange build cmd data]) (a.step build (.command cmd data)))
    (hpower : ∀ past a, P past a → a.Readable build → P past (a.powerCycle build))
    {inputs : List Input} {seen : List (Exchange β)} {a : Auth β} (h : P seen a)
    (hread : a.Rereads build inputs) {past future : List (Exchange β)} {x : Exchange β}
    (hx : a.trace build inputs = past ++ x :: future) :
    ∃ b cmd data, P (seen ++ past) b ∧ x = b.exchange build cmd data := by
  induction inputs generalizing seen a past with
  | nil => simp [Auth.trace] at hx
  | cons input inputs ih =>
      cases input with
      | powerCycle => exact ih (hpower _ _ h hread.1) hread.2 hx
      | command cmd data =>
          rcases past with _ | ⟨y, past⟩
          · obtain ⟨rfl, -⟩ := List.cons.inj hx
            rw [List.append_nil]
            exact ⟨a, cmd, data, h, rfl⟩
          · obtain ⟨rfl, hrest⟩ := List.cons.inj hx
            obtain ⟨b, cmd', data', hb, hxb⟩ := ih (hcommand _ _ cmd data h) hread hrest
            rw [List.append_assoc] at hb
            exact ⟨b, cmd', data', hb, hxb⟩

/-! ## Assertions -/

/-- An answer to MakeCredential attests a key for a credential: the bytes of its authenticator data
behind the header are `aaguid || credIdLen || credId || COSE_Key`. -/
def Attests (r : MakeCredentialResponse) (credentialId : Bytes) (key : Value) : Prop :=
  ∃ header aaguid encoded, header.length = 37 ∧ encodeCbor build.cbor key = .ok encoded ∧
    r.authData =
      header ++ (aaguid ++ Bytes.beBytes 2 credentialId.length ++ credentialId ++ encoded)

/-- Authenticator data with attested credential data attest the key these hold. -/
theorem attests_of_data {crypto : CryptoEngine} {aaguid credentialId publicKey attested : Bytes}
    {algorithm : Int} {rpIdHash : Bytes} {flags : UInt8} {r : MakeCredentialResponse}
    (hlen : rpIdHash.length = 32)
    (hattested : attestedCredentialData build crypto aaguid credentialId algorithm publicKey =
      .ok attested)
    (hdata : r.authData = authDataHeader rpIdHash flags 0 ++ attested) :
    ∃ key, attestedKey build crypto algorithm publicKey = .ok key ∧
      Attests build r credentialId key := by
  obtain ⟨key, hkey, hattested⟩ := Except.bind_eq_ok.mp hattested
  obtain ⟨encoded, hencoded, hattested⟩ := Except.bind_eq_ok.mp hattested
  cases hattested
  refine ⟨key, hkey, _, aaguid, encoded, ?_, Except.mapError_eq_ok.mp hencoded, hdata⟩
  rw [authDataHeader, List.length_append, List.length_cons, Bytes.length_beBytes, hlen]

/-- A counted signature is one of the credential's key, over the data it comes with. -/
theorem signCounted_signature {credential : Credential} {rpIdHash clientDataHash : Bytes}
    {flags : UInt8} {a b : Auth β} {r : Assertion}
    (h : (signCounted build credential rpIdHash flags clientDataHash).run a = (.ok r, b)) :
    ∃ entropy, a.crypto.signature build credential.algorithm credential.privateKey
      (r.authData ++ clientDataHash) entropy = .ok r.signature := by
  obtain ⟨n, a₁, h₁, h⟩ := bind_eq_ok.mp h
  obtain ⟨_, -, e, -, rfl⟩ := nextSignCount_ok h₁
  obtain ⟨_, a₂, h₂, h⟩ := bind_eq_ok.mp h
  obtain ⟨e', -, rfl⟩ := persist_ok h₂
  obtain ⟨signature, a₃, h₃, h⟩ := bind_eq_ok.mp h
  cases h
  have hsign := signAssertion_ok build h₃
  exact hsign

omit [StorageBackend β] [LawfulBackend β] in
/-- The key that is read back from a registered record is the one that was drawn. -/
theorem Registered.keyPair {crypto : CryptoEngine} {y : Exchange β}
    {request : MakeCredentialRequest} {s : StoredCredential} {c : Credential}
    (h : Registered build crypto y request s)
    (hopens : ∀ {key nonce plaintext ciphertext},
      crypto.prims.aeadSeal key nonce plaintext = some ciphertext →
        crypto.prims.aeadOpen key nonce ciphertext = some plaintext)
    (hunlock : StorageEngine.unlock crypto s = .ok c) :
    c.algorithm = s.credential.algorithm ∧ ∃ entropy,
      crypto.keyPair build s.credential.algorithm entropy =
        .ok (c.privateKey, s.credential.publicKey) := by
  obtain ⟨drawn, privateKey, hpair, hencrypt⟩ := h.keys
  have hdecrypt : crypto.decrypt s.encryptedPrivateKey s.nonce = .ok privateKey := by
    unfold CryptoEngine.encrypt at hencrypt
    unfold CryptoEngine.decrypt
    by_cases hnonce : s.nonce.length = 12
    · rw [if_neg (not_not.mpr hnonce)] at hencrypt ⊢
      cases hseal : crypto.prims.aeadSeal crypto.key s.nonce privateKey with
      | none => simp [hseal] at hencrypt
      | some ciphertext =>
          rw [hseal] at hencrypt
          cases hencrypt
          rw [hopens hseal]
    · rw [if_pos hnonce] at hencrypt
      cases hencrypt
  unfold StorageEngine.unlock at hunlock
  rw [hdecrypt] at hunlock
  cases hunlock
  exact ⟨rfl, drawn, hpair⟩

omit [StorageBackend β] [LawfulBackend β] in
/-- The answer of a registration attests the key of the record. -/
theorem Registered.attests {crypto : CryptoEngine} {y : Exchange β}
    {request : MakeCredentialRequest} {s : StoredCredential}
    (h : Registered build crypto y request s) {mc : MakeCredentialResponse}
    (hmc : y.result = .ok (.makeCredential mc)) :
    ∃ key, attestedKey build crypto s.credential.algorithm s.credential.publicKey = .ok key ∧
      Attests build mc s.credential.credentialId key := by
  obtain ⟨flags, attested, hattested, hdata⟩ := h.attested mc hmc
  exact attests_of_data build (h.rpIdHash ▸ length_hashRpId _ _) hattested hdata

/-- The relying party of an assertion, by the hash in its authenticator data. -/
theorem take_authDataHeader {rpIdHash : Bytes} (flags : UInt8) (n : Nat)
    (hlen : rpIdHash.length = 32) : (authDataHeader rpIdHash flags n).take 32 = rpIdHash := by
  unfold authDataHeader
  rw [List.take_left' hlen]

theorem Traceable.assertion {crypto : CryptoEngine} {past : List (Exchange β)} {a : Auth β}
    (h : Traceable build crypto past a) {cmd : UInt8} {data : Bytes} {r : GetAssertionResponse}
    (hx : (a.exchange build cmd data).assertion = some r) :
    ∃ y ∈ past, ∃ request s c entropy z opening, Registered build crypto y request s ∧
      a.storage.credentials[s.credential.credentialId]? = some s ∧
      StorageEngine.unlock crypto s = .ok c ∧
      r.credential = some (descriptorOf c) ∧ r.user = some (userOf c) ∧
      r.authData.take 32 = hashRpId request.rp.id crypto ∧
      (a.exchange build cmd data).opening past = some z ∧
      build.cbor.decodeGetAssertion z.data = .ok opening ∧
      crypto.signature build c.algorithm c.privateKey (r.authData ++ opening.clientDataHash)
        entropy = .ok r.signature := by
  obtain ⟨rfl, hrecords, hmirrored, hnext⟩ := h
  have hcommand : (a.exchange build cmd data).command = Ctap2Command.fromU8 cmd := rfl
  obtain ⟨hga, request, verified, c, assertion, extensions, total, a₁, a₂, a₃, hdecode, hsteps⟩ |
    ⟨hgna, state, c, found, chained, assertion, a₁, hsteps⟩ := assertion_steps build hx
  · obtain ⟨hhash, id, s, hs, hunlock⟩ := selectCredential_stored hsteps.selected
    obtain ⟨y, hy, made, hregistered⟩ := hrecords id s hs
    have hheld : a.storage.credentials[s.credential.credentialId]? = some s := by
      rw [hmirrored.keyed id s hs]
      exact hs
    have hcrypto : a₁.crypto = a.crypto := congrArg Core.crypto hsteps.checked
    obtain ⟨entropy, hsign⟩ := signCounted_signature build hsteps.signed
    obtain ⟨-, hdata, -⟩ := signCounted_ok build hsteps.signed
    rw [hcrypto] at hsign
    have hopening : (a.exchange build cmd data).opening past =
        some (a.exchange build cmd data) := by
      rw [Exchange.opening, hcommand, if_pos hga]
    refine ⟨y, hy, made, s, c, entropy, _, request, hregistered, hheld, hunlock, ?_, ?_, ?_,
      hopening, hdecode, ?_⟩
    · rw [hsteps.response]
    · rw [hsteps.response]
    · rw [hsteps.response, hdata, take_authDataHeader _ _ (length_hashRpId _ _)]
      exact hhash.symm.trans ((StorageEngine.unlock_rpIdHash hunlock).trans hregistered.rpIdHash)
    · rw [hsteps.response]
      exact hsign
  · obtain ⟨id, hid, hload⟩ := hsteps.loaded
    obtain ⟨s, hs, hunlock⟩ := StorageEngine.getCredential_ok hload
    obtain ⟨y, hy, made, hregistered⟩ := hrecords id s hs
    have hheld : a.storage.credentials[s.credential.credentialId]? = some s := by
      rw [hmirrored.keyed id s hs]
      exact hs
    obtain ⟨g, opening, verified, index, hlast, hdecode, hstate⟩ := hnext state hsteps.opened
    have hcrypto : a₁.crypto = a.crypto :=
      congrArg Core.crypto (core_of_quiet (quiet_chainedHmacSecret _ _) hsteps.hmac)
    obtain ⟨entropy, hsign⟩ := signCounted_signature build hsteps.signed
    obtain ⟨-, hdata, -⟩ := signCounted_ok build hsteps.signed
    rw [show state.clientDataHash = opening.clientDataHash by rw [hstate]; rfl] at hsign
    have hopening : (a.exchange build cmd data).opening past = some g := by
      rw [Exchange.opening, hcommand, if_neg (by rw [hgna]; decide)]
      exact hlast
    refine ⟨y, hy, made, s, c, entropy, g, opening, hregistered, hheld, hunlock, ?_, ?_, ?_,
      hopening, hdecode, ?_⟩
    · rw [hsteps.response]
    · rw [hsteps.response]
    · rw [hsteps.response, hdata, take_authDataHeader _ _ (CryptoEngine.length_sha256 _ _)]
      obtain ⟨key, rfl⟩ := StorageEngine.unlock_ok hunlock
      show a.crypto.sha256 (utf8 s.credential.rpId) = _
      rw [hregistered.rpId]
      rfl
    · rw [hsteps.response]
      rw [← hcrypto]
      exact hsign

/-- In every run from an empty store, a successful assertion is signed by a record that an earlier
MakeCredential drew the id of and left, for the relying party and the user of its request. The
signature, over the authenticator data and the client data of the GetAssertion the assertion belongs
to, checks under the public key of the record; and if that MakeCredential was answered, under the
key the answer attested. -/
theorem assertions_verify (a : Auth β) (hblank : a.Blank) (verifiers : Verifiers)
    (hsound : verifiers.Sound a.crypto.prims)
    (hopens : ∀ {key nonce plaintext ciphertext},
      a.crypto.prims.aeadSeal key nonce plaintext = some ciphertext →
        a.crypto.prims.aeadOpen key nonce ciphertext = some plaintext)
    (inputs : List Input) (hread : a.Rereads build inputs) (past future : List (Exchange β))
    (x : Exchange β) (r : GetAssertionResponse)
    (hrun : a.trace build inputs = past ++ x :: future) (hx : x.assertion = some r) :
    ∃ y ∈ past, ∃ request d s z opening, y.command = .makeCredential ∧
      build.cbor.decodeMakeCredential y.data = .ok request ∧
      r.credential = some d ∧ d.id = (y.before.rng 0).bytes 16 ∧
      x.before.storage.credentials[d.id]? = some s ∧
      (y.after.storage.credentials[d.id]?).map StoredCredential.origin = some s.origin ∧
      s.credential.rpId = request.rp.id ∧ s.credential.userHandle = some request.user.id ∧
      r.user.map (·.id) = some request.user.id ∧
      r.authData.take 32 = hashRpId request.rp.id a.crypto ∧
      x.opening past = some z ∧ build.cbor.decodeGetAssertion z.data = .ok opening ∧
      CryptoEngine.checkRaw verifiers build.rs256 s.credential.algorithm s.credential.publicKey
        (r.authData ++ opening.clientDataHash) r.signature = true ∧
      ∀ mc, y.result = .ok (.makeCredential mc) → ∃ key, Attests build mc d.id key ∧
        checkCose verifiers a.crypto key (r.authData ++ opening.clientDataHash) r.signature =
          true := by
  obtain ⟨b, cmd, data, htraceable, rfl⟩ :=
    reread_invariant build (P := Traceable build a.crypto)
      (fun _ _ cmd data h => h.command build cmd data) (fun _ _ h => h.powerCycle build)
      (traceable_blank build hblank) hread hrun
  rw [List.nil_append] at htraceable
  obtain ⟨y, hy, request, s, c, entropy, z, opening, hregistered, hheld, hunlock, hcredential,
    huser, hhash, hopening, hdecode, hsign⟩ := htraceable.assertion build hx
  obtain ⟨halgorithm, drawn, hpair⟩ := hregistered.keyPair build hopens hunlock
  rw [halgorithm] at hsign
  have hid : c.credentialId = s.credential.credentialId := by
    obtain ⟨key, rfl⟩ := StorageEngine.unlock_ok hunlock
    rfl
  have hhandle : c.userHandle = some request.user.id := by
    obtain ⟨key, rfl⟩ := StorageEngine.unlock_ok hunlock
    exact hregistered.user
  have hdescribed : (descriptorOf c).id = s.credential.credentialId := hid
  refine ⟨y, hy, request, descriptorOf c, s, z, opening, hregistered.command, hregistered.decoded,
    hcredential, ?_, ?_, ?_, hregistered.rpId, hregistered.user, ?_, hhash, hopening, hdecode,
    checkRaw_of_keyPair hsound hpair hsign, fun mc hmc => ?_⟩
  · exact hdescribed.trans hregistered.drawn
  · rw [hdescribed]
    exact hheld
  · rw [hdescribed]
    exact hregistered.left
  · rw [huser]
    simp [userOf, hhandle]
  · obtain ⟨key, hkey, hattests⟩ := hregistered.attests build hmc
    rw [← hdescribed] at hattests
    exact ⟨key, hattests, checkCose_of_attested hsound
      (selectAlgorithm_supported build hregistered.algorithm) hpair hkey hsign⟩

end Runs

/-! ## The sample device -/

/-- The checks of the signatures in a table, which names the data by a view of them. -/
def tableVerifiers (prims : Primitives) (view : Bytes → Bytes)
    (table : List ((Bytes × Bytes) × Bytes)) : Verifiers where
  ed25519 publicKey data signature := table.any fun entry =>
    decide (prims.ed25519Public entry.1.1 = some publicKey ∧ entry.1.2 = view data ∧
      entry.2 = signature)
  p256 _ _ _ := false
  p384 _ _ _ := false
  rsaPss _ _ _ := false
  rsaPkcs1 _ _ _ := false

theorem tableEntry_mem {α γ : Type} [DecidableEq α] {table : List (α × γ)} {key : α} {v : γ}
    (h : tableEntry table key = some v) : (key, v) ∈ table := by
  obtain ⟨⟨key', v'⟩, hfind, heq⟩ := Option.map_eq_some_iff.mp h
  cases heq
  have hkey := List.find?_some hfind
  simp only [decide_eq_true_eq] at hkey
  subst hkey
  exact List.mem_of_find?_eq_some hfind

/-- Algorithms that sign from a table, as EdDSA only. -/
structure SignsFromTable (prims : Primitives) (view : Bytes → Bytes)
    (table : List ((Bytes × Bytes) × Bytes)) : Prop where
  ed25519 : ∀ seed data, prims.ed25519Sign seed data = tableEntry table (seed, view data)
  p256 : ∀ entropy, prims.p256Generate entropy = none
  p384 : ∀ entropy, prims.p384Generate entropy = none
  rsa : ∀ entropy, prims.rsaGenerate entropy = none
  der : ∀ n e, prims.rsaPublicDer n e = none

theorem SignsFromTable.sound {prims : Primitives} {view : Bytes → Bytes}
    {table : List ((Bytes × Bytes) × Bytes)} (h : SignsFromTable prims view table) :
    (tableVerifiers prims view table).Sound prims where
  ed25519 hpublic hsign := by
    rw [h.ed25519] at hsign
    refine List.any_eq_true.mpr ⟨_, tableEntry_mem hsign, ?_⟩
    exact decide_eq_true ⟨hpublic, rfl, rfl⟩
  p256 hgenerate := by simp [h.p256] at hgenerate
  p384 hgenerate := by simp [h.p384] at hgenerate
  rsaPss hgenerate := by simp [h.rsa] at hgenerate
  rsaPkcs1 hgenerate := by simp [h.rsa] at hgenerate
  uncompressed hgenerate := by simp [h.p256, h.p384] at hgenerate
  parts hder := by simp [h.der] at hder

/-- The checks of the signatures the sample device makes. -/
def sampleVerifiers : Verifiers := tableVerifiers sampleCrypto.prims id sampleSignatures

theorem signs_sampleCrypto : SignsFromTable sampleCrypto.prims id sampleSignatures :=
  ⟨fun _ _ => rfl, fun _ => rfl, fun _ => rfl, fun _ => rfl, fun _ _ => rfl⟩

theorem opens_sampleCrypto {key nonce plaintext ciphertext : Bytes}
    (h : sampleCrypto.prims.aeadSeal key nonce plaintext = some ciphertext) :
    sampleCrypto.prims.aeadOpen key nonce ciphertext = some plaintext := by
  have hmem : ((nonce, plaintext), ciphertext) ∈ sampleSealed := tableEntry_mem h
  have hopen : ∀ entry ∈ sampleSealed,
      sampleCrypto.prims.aeadOpen key entry.1.1 entry.2 = some entry.1.2 := by
    show ∀ entry ∈ sampleSealed, tableEntry
      (sampleSealed.map fun entry => ((entry.1.1, entry.2), entry.1.2)) (entry.1.1, entry.2) =
        some entry.1.2
    decide +kernel
  exact hopen _ hmem

/-- A PIN, a token and one credential. -/
def oneSetup : List Input := [setPinCommand, getTokenCommand, makeCredentialCommand 1 1]

/-- The record of that credential. -/
def oneRecord : StoredCredential :=
  (memoryDevice.run sampleBuild oneSetup).storage.records.headD StorageEngine.shortRecord

/-- The build whose codec reads and writes that record. -/
def oneRecordBuild : Build :=
  { sampleBuild with codec := StorageEngine.oneRecordCodec oneRecord }

/-- The device with that build over a medium that is still empty. -/
def oneRecordDevice : Auth KvMap := sampleDevice (.withBackend oneRecordBuild.codec ∅)

theorem blank_oneRecordDevice : oneRecordDevice.Blank where
  storage := by
    refine ⟨rfl, rfl, rfl, ?_⟩
    rintro b ⟨⟩
    rfl
  opened := rfl

set_option maxRecDepth 100000 in
/-- The record and the settings are read back as what they are. -/
theorem readable_oneRecordDevice :
    (oneRecordDevice.run oneRecordBuild oneSetup).Readable oneRecordBuild := by
  refine fun _ => ⟨StorageEngine.plain_of_entries [firstId] ?_, ?_⟩
  · decide +kernel
  · unfold StorageEngine.Decodes
    decide +kernel

set_option maxRecDepth 100000 in
theorem rereads_oneRecordDevice : oneRecordDevice.Rereads oneRecordBuild
    (oneSetup ++ [.powerCycle] ++ [getAssertionCommand []]) := by
  rw [List.append_assoc, rereads_append]
  exact ⟨trivial, readable_oneRecordDevice, trivial⟩

/-- A MakeCredential that was answered. -/
def answered (y : Exchange KvMap) : Bool :=
  match y.result with
  | .ok (.makeCredential _) => true
  | _ => false

set_option maxRecDepth 100000 in
/-- After a power cycle the device asserts the credential it made before, and the signature checks
under the key that was attested for it. -/
theorem assertions_verify_reopened :
    ∃ r, ((oneRecordDevice.run oneRecordBuild (oneSetup ++ [.powerCycle])).exchange oneRecordBuild
        0x02 (getAssertionData [])).assertion = some r ∧
      ∃ y ∈ oneRecordDevice.trace oneRecordBuild (oneSetup ++ [.powerCycle]), ∃ mc d key message,
        y.result = .ok (.makeCredential mc) ∧ r.credential = some d ∧
        d.id = (y.before.rng 0).bytes 16 ∧ Attests oneRecordBuild mc d.id key ∧
        checkCose sampleVerifiers sampleCrypto key message r.signature = true := by
  have hsome : ((oneRecordDevice.run oneRecordBuild (oneSetup ++ [.powerCycle])).exchange
      oneRecordBuild 0x02 (getAssertionData [])).assertion.isSome = true := by decide +kernel
  have hanswered : (oneRecordDevice.trace oneRecordBuild (oneSetup ++ [.powerCycle])).all
      (fun y => decide (y.command = .makeCredential → answered y = true)) = true := by
    decide +kernel
  obtain ⟨r, hr⟩ := Option.isSome_iff_exists.mp hsome
  have hverified := assertions_verify oneRecordBuild oneRecordDevice blank_oneRecordDevice
    sampleVerifiers signs_sampleCrypto.sound opens_sampleCrypto _ rereads_oneRecordDevice
  obtain ⟨y, hy, request, d, s, z, opening, hcommand, -, hcredential, hdrawn, -, -, -, -, -, -, -,
    -, -, hchecks⟩ := hverified _ [] _ r (trace_snoc oneRecordBuild oneRecordDevice
      (oneSetup ++ [.powerCycle]) 0x02 (getAssertionData [])) hr
  have hmade := of_decide_eq_true (List.all_eq_true.mp hanswered y hy) hcommand
  unfold answered at hmade
  split at hmade
  · next mc hmc =>
      obtain ⟨key, hattests, hcheck⟩ := hchecks mc hmc
      exact ⟨r, hr, y, hy, mc, d, key, _, hmc, hcredential, hdrawn, hattests, hcheck⟩
  · cases hmade

end Auth

end OpenKey
