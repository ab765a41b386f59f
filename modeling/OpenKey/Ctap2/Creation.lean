import OpenKey.Ctap2.CredProtect
import OpenKey.Storage.WriteThrough

/-!
# MakeCredential that fails

`make_credential` stores the credential before it makes the answer: the attestation comes after the
record, and after the credential that had to make room for it.

**Failures (`makeCredential_atomic`).** So a failure leaves the credentials and the pending
enterprise attestation as they were where, once the record is stored, the answer can be made, and
where no credential makes room for a record that is not stored (`Completes`). Elsewhere a new id, or
the missing credential, gives it away.
-/

namespace OpenKey

open Std
open Prog (Keeps bind_eq_ok check_eq_ok)

set_option autoImplicit false

/-! ## Storing a record -/

namespace StorageEngine

variable {β : Type} [StorageBackend β]

section

variable {codec : Codec StoredCredential} {crypto : CryptoEngine} {credential : Credential}
  {nonce : Bytes} {e : StorageEngine β}

/-- A record that is stored is in memory. -/
theorem credentials_of_insert {e' : StorageEngine β} {u : Unit}
    (hrun : (insertCredential codec crypto credential nonce).run e = (.ok u, e')) :
    (e'.credentials[credential.credentialId]?).isSome := by
  obtain ⟨s, e₁, hcheck, hrun⟩ := bind_eq_ok.mp hrun
  have hrest : atRest crypto credential nonce = .ok s := (check_eq_ok.mp hcheck).1
  obtain ⟨u₂, e₂, -, hrun⟩ := bind_eq_ok.mp hrun
  obtain ⟨u₃, e₃, -, hrun⟩ := bind_eq_ok.mp hrun
  cases hrun
  rw [← credentialId_of_atRest hrest]
  exact Option.isSome_of_eq_some ExtTreeMap.getElem?_insert_self

/-- What is read is what is in memory and on the medium. -/
theorem value_of_medium [AtomicBackend β] {e e' : StorageEngine β} (hkv : e'.kvStore = e.kvStore)
    (hmedium : e'.backend.map onMedium = e.backend.map onMedium) (key : String) :
    e'.value key = e.value key := by
  have hvalue : ∀ e : StorageEngine β, e.value key =
      ((e.backend.map onMedium).bind (·[key]?)).or e.kvStore[key]? := by
    intro e
    unfold value retrieve
    cases e.backend with
    | none => cases e.kvStore[key]? <;> rfl
    | some b =>
        simp only [AtomicBackend.read_eq, Option.map_some, Option.bind_some]
        cases (onMedium b)[key]? with
        | none => cases e.kvStore[key]? <;> rfl
        | some v => rfl
  rw [hvalue, hvalue, hkv, hmedium]

/-- A record that is not stored leaves everything as it was. -/
theorem insert_error [AtomicBackend β] {error : EngineError} {e' : StorageEngine β}
    (hrun : (insertCredential codec crypto credential nonce).run e = (.error error, e')) :
    e'.credentials = e.credentials ∧ ∀ key, e'.value key = e.value key := by
  unfold insertCredential at hrun
  cases hrest : atRest crypto credential nonce with
  | error refusal =>
      rw [Prog.run_check_bind_error (by exact hrest)] at hrun
      cases hrun
      exact ⟨rfl, fun _ => rfl⟩
  | ok s =>
      rw [Prog.run_check_bind (by exact hrest),
        Prog.run_bind_of_ok (rfl : (incrementWearCounter "credentials").run e = (.ok (), _)),
        Prog.run_bind] at hrun
      unfold writeCredential onBackend at hrun
      simp only at hrun
      cases hb : e.backend with
      | none =>
          simp only [Prog.run_update, hb] at hrun
          cases hrun
      | some b =>
          simp only [Prog.run_update, hb] at hrun
          obtain ⟨hok, -⟩ | ⟨⟨refusal, hrefused⟩, hmedium⟩ :=
            AtomicBackend.onMedium_write b (credKey s.credential.credentialId) (codec.encode s)
          · rw [hok] at hrun
            cases hrun
          · rw [hrefused] at hrun
            cases hrun
            refine ⟨rfl, value_of_medium rfl ?_⟩
            show some (onMedium _) = _
            rw [hmedium, hb]
            rfl

end

end StorageEngine

namespace Auth

variable {β : Type} [StorageBackend β] (build : Build)

/-! ## The steps before the record and after it -/

/-- What `make_credential` does before it stores anything: the checks, and the new credential. -/
def prepareCredential (request : MakeCredentialRequest) : Ctap β (Bool × Credential) := do
  let pinAuthenticated ← authenticateOperation request.pinProtocol request.pinUvAuthParam
    request.clientDataHash permissionMc request.rp.id request.options.uv
  Prog.when request.options.up checkPresence
  let rpIdHash ← Prog.read fun a => hashRpId request.rp.id a.crypto
  let algorithm ← Prog.check fun _ => selectAlgorithm build request.pubKeyCredParams
  Prog.check fun a => checkExcludeList a rpIdHash request.excludeList
  let credBlob ← Prog.check fun _ => requestedCredBlob request.extensions
  let credential ← newCredential build request algorithm rpIdHash credBlob
  pure (pinAuthenticated, credential)

theorem makeCredential_eq (request : MakeCredentialRequest) :
    (makeCredential build request : Ctap β MakeCredentialResponse) =
      (prepareCredential build request >>= fun p => storeCredential build p.2 >>= fun _ =>
        makeCredentialResponse build request p.2 p.1) := by
  unfold prepareCredential
  simp only [Prog.bind_bind]
  rfl

theorem quiet_prepareCredential (request : MakeCredentialRequest) :
    Keeps Quiet (prepareCredential build request : Ctap β (Bool × Credential)) :=
  (quiet_authenticateOperation _ _ _ _ _ _).bind fun _ =>
    (Keeps.when fun _ => quiet_checkPresence).bind fun _ => (Keeps.read _).bind fun _ =>
      (Keeps.check _).bind fun _ => (Keeps.check _).bind fun _ => (Keeps.check _).bind fun _ =>
        (quiet_newCredential build _ _ _ _).bind fun _ => .pure _

theorem selectAlgorithm_supported {params : List PublicKeyCredParams} {algorithm : Int}
    (h : selectAlgorithm build params = .ok algorithm) : algorithmSupported build
      algorithm = true := by
  unfold selectAlgorithm at h
  split at h
  · cases h
    rfl
  · split at h
    · next hfind =>
        cases h
        exact List.find?_some hfind
    · cases h

/-- What the new credential has passed. -/
structure Prepared (request : MakeCredentialRequest) (credential : Credential) : Prop where
  algorithm : algorithmSupported build credential.algorithm = true
  hmacSecret : ∃ requested, requestedHmacSecret request.extensions = .ok requested

theorem prepared_of_run {request : MakeCredentialRequest} {verified : Bool}
    {credential : Credential}
    {a a₁ : Auth β}
    (h : (prepareCredential build request).run a = (.ok (verified, credential), a₁)) :
    Prepared build request credential := by
  obtain ⟨_, _, -, h⟩ := bind_eq_ok.mp h
  obtain ⟨_, _, -, h⟩ := bind_eq_ok.mp h
  obtain ⟨_, _, -, h⟩ := bind_eq_ok.mp h
  obtain ⟨algorithm, _, halgorithm, h⟩ := bind_eq_ok.mp h
  obtain ⟨_, _, -, h⟩ := bind_eq_ok.mp h
  obtain ⟨_, _, -, h⟩ := bind_eq_ok.mp h
  obtain ⟨made, _, hnew, h⟩ := bind_eq_ok.mp h
  cases h
  obtain ⟨id, _, -, hnew⟩ := bind_eq_ok.mp hnew
  obtain ⟨keys, _, -, hnew⟩ := bind_eq_ok.mp hnew
  obtain ⟨largeBlobKey, _, -, hnew⟩ := bind_eq_ok.mp hnew
  obtain ⟨credRandoms, _, hrandoms, hnew⟩ := bind_eq_ok.mp hnew
  obtain ⟨createdAt, _, -, hnew⟩ := bind_eq_ok.mp hnew
  cases hnew
  obtain ⟨requested, _, hrequested, -⟩ := bind_eq_ok.mp hrandoms
  exact ⟨selectAlgorithm_supported build (check_eq_ok.mp halgorithm).1, requested,
    (check_eq_ok.mp hrequested).1⟩

/-- A key signs this, with the next draw. -/
def signs (crypto : CryptoEngine) (entropy : Entropy) (algorithm : Int) (privateKey data : Bytes) :
    Bool :=
  if algorithm = -7 then (crypto.signP256 entropy privateKey data).isOk
  else if algorithm = -35 then (crypto.signP384 entropy privateKey data).isOk
  else if build.rs256 ∧ algorithm = -37 then (crypto.signRsaPss entropy privateKey data).isOk
  else if build.rs256 ∧ algorithm = -257 then (crypto.signRsa entropy privateKey data).isOk
  else (crypto.sign data privateKey).isOk

/-- The authenticator can attest in a format: it is a format of its own, and the key signs. -/
def attests (a : Auth β) (format : AttestationFormat) (data privateKey : Bytes) (algorithm : Int) :
    Bool :=
  match format with
  | .none => true
  | .self => signs build a.crypto (a.rng 0) algorithm privateKey data
  | .packed => signs build a.crypto (a.rng 0) algorithm
      (a.attestationCert.elim privateKey (·.privateKey)) data
  | _ => false

/-- The authenticator can answer for a credential: its public key has a COSE form, and the
authenticator can attest it, in packed format if an enterprise attestation is pending. -/
def answers (a : Auth β) (request : MakeCredentialRequest) (credential : Credential)
    (verified : Bool) : Bool :=
  match attestedCredentialData build a.crypto a.capabilities.aaguid credential.credentialId
    credential.algorithm credential.publicKey with
  | .error _ => false
  | .ok attested => a.attests build
      (if (a.storage.value cfgEpPendingKey).isSome then .packed else a.attestationFormat)
      (authDataHeader credential.rpIdHash
        (flagAt ||| flagIf request.options.up flagUp ||| flagIf verified flagUv) 0 ++ attested ++
          request.clientDataHash)
      credential.privateKey credential.algorithm

/-! ## The answer -/

theorem isOk_mapError {ε ε' α : Type} (f : ε → ε') (x : Except ε α) :
    (x.mapError f).isOk = x.isOk := by
  cases x <;> rfl

omit [StorageBackend β] in
theorem isOk_map {α γ : Type} {m : Ctap β α} {f : α → γ} {a : Auth β} :
    ((m >>= fun x => pure (f x)).run a).1.isOk = (m.run a).1.isOk := by
  rw [Prog.run_bind]
  rcases m.run a with ⟨e | x, b⟩
  · rfl
  · rfl

omit [StorageBackend β] in
theorem isOk_signRandomised (sign : CryptoEngine → Entropy → Except String Bytes) (a : Auth β) :
    ((signRandomised sign : Ctap β Bytes).run a).1.isOk = (sign a.crypto (a.rng 0)).isOk :=
  isOk_mapError _ _

omit [StorageBackend β] in
theorem isOk_signAssertion (algorithm : Int) (privateKey data : Bytes) (a : Auth β) :
    ((signAssertion build algorithm privateKey data).run a).1.isOk =
      signs build a.crypto (a.rng 0) algorithm privateKey data := by
  unfold signAssertion signs
  split_ifs
  · exact isOk_signRandomised _ a
  · exact isOk_signRandomised _ a
  · exact isOk_signRandomised _ a
  · exact isOk_signRandomised _ a
  · exact isOk_mapError _ _

omit [StorageBackend β] in
theorem isOk_signForAttestation {algorithm : Int} (h : algorithmSupported build algorithm = true)
    (privateKey data : Bytes) (a : Auth β) :
    ((signForAttestation build algorithm privateKey data).run a).1.isOk =
      signs build a.crypto (a.rng 0) algorithm privateKey data := by
  unfold signForAttestation
  rw [Prog.run_ensure_bind (by simp only [algorithmSupported, decide_eq_true_eq] at h ⊢; tauto)]
  exact isOk_signAssertion build algorithm privateKey data a

omit [StorageBackend β] in
theorem isOk_attest {algorithm : Int} (h : algorithmSupported build algorithm = true)
    (format : AttestationFormat) (data privateKey : Bytes) (a : Auth β) :
    ((attest build format data privateKey algorithm).run a).1.isOk =
      a.attests build format data privateKey algorithm := by
  have hself : ((selfAttestation build data privateKey algorithm).run a).1.isOk =
      signs build a.crypto (a.rng 0) algorithm privateKey data :=
    isOk_map.trans (isOk_signForAttestation build h privateKey data a)
  cases format with
  | none => rfl
  | self => exact hself
  | packed =>
      unfold attest packedAttestation attests
      rw [Prog.run_read_bind]
      cases a.attestationCert with
      | none => exact hself
      | some certificate =>
          exact isOk_map.trans (isOk_signForAttestation build h certificate.privateKey data a)
  | u2f => rfl
  | androidKey => rfl
  | apple => rfl

/-- The flag is taken, and nothing but the storage changes. -/
theorem run_consumeEpPending (a : Auth β) : ∃ e log,
    (consumeEpPending.run a) =
      (.ok (a.storage.value cfgEpPendingKey).isSome, { a with storage := e, log := log }) ∧
    e.credentials = a.storage.credentials := by
  unfold consumeEpPending
  rw [Prog.run_read_bind]
  cases (a.storage.value cfgEpPendingKey).isSome with
  | false => exact ⟨a.storage, a.log, rfl, rfl⟩
  | true =>
      refine ⟨_, _, rfl, ?_⟩
      obtain ⟨backend, hbackend⟩ := StorageEngine.onBackend_snd
        (StorageBackend.delete cfgEpPendingKey) a.storage
      show ((StorageEngine.delete cfgEpPendingKey).run a.storage).2.credentials = _
      unfold StorageEngine.delete StorageEngine.onBackendIgnored
      rw [Prog.bind_bind, Prog.run_attempt_bind, hbackend]
      rfl

theorem extensionOutputs_ok {extensions : Option Extensions} {requested : Bool}
    (h : requestedHmacSecret extensions = .ok requested) (a : Auth β) (credBlob : Bytes)
    (largeBlobKey : Option Bytes) :
    ∃ outputs, extensionOutputs a extensions credBlob largeBlobKey = .ok outputs := by
  unfold extensionOutputs
  split
  · next found hfound =>
      have hsome : extensions = some found := (Option.filter_eq_some_iff.mp hfound).1
      rw [hsome] at h
      unfold makeCredentialOutputs
      rw [h]
      exact ⟨_, rfl⟩
  · exact ⟨_, rfl⟩

/-- An answer is made exactly when the authenticator has one, and no credential changes on the
way. -/
theorem run_makeCredentialResponse {request : MakeCredentialRequest} {credential : Credential}
    (h : Prepared build request credential) (verified : Bool) (a : Auth β) :
    ((makeCredentialResponse build request credential verified).run a).1.isOk =
        a.answers build request credential verified ∧
      ((makeCredentialResponse build request credential verified).run a).2.storage.credentials =
        a.storage.credentials := by
  obtain ⟨requested, hrequested⟩ := h.hmacSecret
  unfold makeCredentialResponse answers
  simp only
  cases hattested : attestedCredentialData build a.crypto a.capabilities.aaguid
    credential.credentialId credential.algorithm credential.publicKey with
  | error e =>
      rw [Prog.run_check_bind_error (by exact hattested)]
      exact ⟨rfl, rfl⟩
  | ok attested =>
      obtain ⟨outputs, houtputs⟩ := extensionOutputs_ok hrequested a credential.credBlob
        credential.largeBlobKey
      obtain ⟨e, log, hconsume, hcredentials⟩ := run_consumeEpPending a
      rw [Prog.run_check_bind (by exact hattested), Prog.run_check_bind (by exact houtputs),
        Prog.run_bind_of_ok hconsume, Prog.run_read_bind]
      constructor
      · rw [isOk_map, isOk_attest build h.algorithm]
        rfl
      · rw [Prog.snd_run_bind_pure]
        have hattest : ∀ (format : AttestationFormat) (data privateKey : Bytes) (algorithm : Int),
            Keeps Quiet (attest build format data privateKey algorithm : Ctap β _) :=
          quiet_attest build
        rw [← hcredentials]
        exact congrArg (fun c : Core β => c.storage.credentials) (hattest _ _ _ _ _)

/-! ## Failures -/

/-- A failure leaves the credentials and the pending enterprise attestation as they were. -/
def Atomic (a : Auth β) (request : MakeCredentialRequest) : Prop :=
  ∀ error b, (makeCredential build request).run a = (.error error, b) →
    b.storage.credentials = a.storage.credentials ∧
      b.storage.value cfgEpPendingKey = a.storage.value cfgEpPendingKey

/-- Where the request passes the checks: once the record is stored, the authenticator can answer,
and no credential makes room for a record that is not stored. -/
def Completes (a : Auth β) (request : MakeCredentialRequest) : Prop :=
  ∀ verified credential a₁, (prepareCredential build request).run a =
    (.ok (verified, credential), a₁) →
    (∀ a₂, (storeCredential build credential).run a₁ = (.ok (), a₂) →
      a₂.answers build request credential verified = true) ∧
    ∀ error a₂, (storeCredential build credential).run a₁ = (.error error, a₂) →
      a₁.storage.evictee = none

/-- The id of the new credential is not in use. -/
def NewId (a : Auth β) (request : MakeCredentialRequest) : Prop :=
  ∀ verified credential a₁, (prepareCredential build request).run a =
    (.ok (verified, credential), a₁) →
    a.storage.credentials[credential.credentialId]? = none

variable {build}

/-- How a MakeCredential fails: in the checks, in the store, or in the answer. -/
theorem makeCredential_error {request : MakeCredentialRequest} {a b : Auth β} {error : Ctap2Error}
    (h : (makeCredential build request).run a = (.error error, b)) :
    b.storage = a.storage ∨
      ∃ verified credential a₁,
        (prepareCredential build request).run a = (.ok (verified, credential), a₁) ∧
        ((storeCredential build credential).run a₁ = (.error error, b) ∨
          ∃ a₂, (storeCredential build credential).run a₁ = (.ok (), a₂) ∧
            (makeCredentialResponse build request credential verified).run a₂ =
              (.error error, b)) := by
  rw [makeCredential_eq] at h
  rcases hprepare : (prepareCredential build request).run a with ⟨e | ⟨verified, credential⟩, a₁⟩
  · rw [Prog.run_bind_of_error hprepare] at h
    cases h
    exact .inl (congrArg Core.storage
      (core_of_quiet (quiet_prepareCredential build request) hprepare))
  · rw [Prog.run_bind_of_ok hprepare] at h
    rcases hstore : (storeCredential build credential).run a₁ with ⟨e | u, a₂⟩
    · rw [Prog.run_bind_of_error hstore] at h
      cases h
      exact .inr ⟨verified, credential, a₁, rfl, .inl hstore⟩
    · rw [Prog.run_bind_of_ok hstore] at h
      exact .inr ⟨verified, credential, a₁, rfl, .inr ⟨a₂, hstore, h⟩⟩

/-- The storage calls of a store: one makes room, the other inserts. -/
theorem storeCredential_cases (build : Build) (credential : Credential) (a : Auth β) :
    (∃ error e, StorageEngine.makeRoom.run a.storage = (.error error, e) ∧
      ∃ error, ((storeCredential build credential).run a).1 = .error error ∧
        ((storeCredential build credential).run a).2.storage = e) ∨
    ∃ e, StorageEngine.makeRoom.run a.storage = (.ok (), e) ∧ ∃ nonce,
      ((storeCredential build credential).run a).1 =
          ((StorageEngine.insertCredential build.codec a.crypto credential nonce).run e).1.mapError
            (fun _ => .unknown) ∧
        ((storeCredential build credential).run a).2.storage =
          ((StorageEngine.insertCredential build.codec a.crypto credential nonce).run e).2 := by
  unfold storeCredential
  rcases hroom :
    (StorageEngine.makeRoom : Prog (StorageEngine β) EngineError Unit).run a.storage with
    ⟨error | u, e⟩
  · have hpersist : (persist .ordinary StorageEngine.makeRoom : Ctap β Unit).run a =
        (.error .unknown, { a with storage := e, log := .stored e .ordinary :: a.log }) := by
      unfold persist onStorage
      simp only [Prog.run_mapError, hroom, Except.mapError]
    rw [Prog.run_bind_of_error hpersist]
    exact .inl ⟨error, e, rfl, _, rfl, rfl⟩
  · have hpersist : (persist .ordinary StorageEngine.makeRoom : Ctap β Unit).run a =
        (.ok (), { a with storage := e, log := .stored e .ordinary :: a.log }) := by
      unfold persist onStorage
      simp only [Prog.run_mapError, hroom, Except.mapError]
    rw [Prog.run_bind_of_ok hpersist]
    exact .inr ⟨e, rfl, (a.rng 0).bytes 12, rfl, rfl⟩

/-- A store that fails with nothing to make room for changes nothing. -/
theorem storeCredential_refused [AtomicBackend β] {credential : Credential} {a b : Auth β}
    {error : Ctap2Error} (hnone : a.storage.evictee = none)
    (h : (storeCredential build credential).run a = (.error error, b)) :
    b.storage.credentials = a.storage.credentials ∧
      ∀ key, b.storage.value key = a.storage.value key := by
  have hroom := StorageEngine.run_makeRoom_of_none hnone
  obtain ⟨_, _, hfailed, -⟩ | ⟨e, hmade, nonce, hresult, hstorage⟩ :=
    storeCredential_cases build credential a
  · rw [hroom] at hfailed
    cases hfailed
  · rw [hroom] at hmade
    cases hmade
    rw [h] at hresult hstorage
    simp only at hresult hstorage
    rcases hinsert : (StorageEngine.insertCredential build.codec a.crypto credential nonce).run
      a.storage with ⟨e | u, t⟩
    · rw [hstorage, hinsert]
      exact StorageEngine.insert_error hinsert
    · rw [hinsert] at hresult
      cases hresult

/-- A store that fails after a credential has made room loses it. -/
theorem storeCredential_lost [AtomicBackend β] {credential : Credential} {a b : Auth β}
    {error : Ctap2Error} (hk : a.storage.Keyed) {s : StoredCredential}
    (hsome : a.storage.evictee = some s)
    (h : (storeCredential build credential).run a = (.error error, b)) :
    b.storage.credentials ≠ a.storage.credentials := by
  have hgone : ((StorageEngine.makeRoom : Prog (StorageEngine β) EngineError Unit).run
      a.storage).2.credentials[s.credential.credentialId]? = none := by
    rw [StorageEngine.credentials_makeRoom hk, StorageEngine.getElem?_roomy, hsome]
    exact if_pos rfl
  have hheld := StorageEngine.credentials_of_evictee hk hsome
  intro hsame
  rw [← hsame] at hheld
  obtain ⟨_, e, hfailed, _, -, hstorage⟩ | ⟨e, hmade, nonce, hresult, hstorage⟩ :=
    storeCredential_cases build credential a
  · rw [hfailed] at hgone
    rw [h] at hstorage
    rw [hstorage, hgone] at hheld
    cases hheld
  · rw [hmade] at hgone
    rw [h] at hresult hstorage
    simp only at hresult hstorage hgone
    rcases hinsert :
      (StorageEngine.insertCredential build.codec a.crypto credential nonce).run e with
      ⟨e' | u, t⟩
    · rw [hinsert] at hstorage
      rw [hstorage, (StorageEngine.insert_error hinsert).1, hgone] at hheld
      cases hheld
    · rw [hinsert] at hresult
      cases hresult

theorem storeCredential_stored {credential : Credential} {a b : Auth β}
    (h : (storeCredential build credential).run a = (.ok (), b)) :
    (b.storage.credentials[credential.credentialId]?).isSome := by
  obtain ⟨_, _, -, _, hfailed, -⟩ | ⟨e, -, nonce, hresult, hstorage⟩ :=
    storeCredential_cases build credential a
  · rw [h] at hfailed
    cases hfailed
  · rw [h] at hresult hstorage
    simp only at hresult hstorage
    rcases hinsert :
      (StorageEngine.insertCredential build.codec a.crypto credential nonce).run e with
      ⟨e' | u, t⟩
    · rw [hinsert] at hresult
      cases hresult
    · rw [hstorage, hinsert]
      exact StorageEngine.credentials_of_insert hinsert

theorem atomic_of_completes [AtomicBackend β] {a : Auth β} {request : MakeCredentialRequest}
    (h : Completes build a request) : Atomic build a request := by
  intro error b hrun
  obtain hsame | ⟨verified, credential, a₁, hprepare, hrest⟩ := makeCredential_error hrun
  · rw [hsame]
    exact ⟨rfl, rfl⟩
  · obtain ⟨hanswers, hroom⟩ := h verified credential a₁ hprepare
    have hstorage : a₁.storage = a.storage :=
      congrArg Core.storage (core_of_quiet (quiet_prepareCredential build request) hprepare)
    obtain hstore | ⟨a₂, hstore, hanswer⟩ := hrest
    · obtain ⟨hcredentials, hvalue⟩ := storeCredential_refused (hroom error b hstore) hstore
      rw [← hstorage]
      exact ⟨hcredentials, hvalue cfgEpPendingKey⟩
    · have hok := (run_makeCredentialResponse build (prepared_of_run build hprepare) verified a₂).1
      rw [hanswer, hanswers a₂ hstore] at hok
      cases hok

theorem completes_of_atomic [AtomicBackend β] {a : Auth β} {request : MakeCredentialRequest}
    (hk : a.storage.Keyed) (hnew : NewId build a request) (h : Atomic build a request) :
    Completes build a request := by
  intro verified credential a₁ hprepare
  have hstorage : a₁.storage = a.storage :=
    congrArg Core.storage (core_of_quiet (quiet_prepareCredential build request) hprepare)
  have hmake : (makeCredential build request).run a = (storeCredential build credential >>= fun _ =>
      makeCredentialResponse build request credential verified).run a₁ := by
    rw [makeCredential_eq, Prog.run_bind_of_ok hprepare]
  constructor
  · intro a₂ hstore
    obtain ⟨hok, hcredentials⟩ :=
      run_makeCredentialResponse build (prepared_of_run build hprepare) verified a₂
    rw [Prog.run_bind_of_ok hstore] at hmake
    rw [← hok]
    rcases hanswer : (makeCredentialResponse build request credential verified).run a₂ with
      ⟨error | response, b⟩
    · rw [hanswer] at hmake hcredentials
      have hstored := storeCredential_stored hstore
      rw [← hcredentials, (h error b hmake).1, hnew verified credential a₁ hprepare] at hstored
      cases hstored
    · rfl
  · intro error a₂ hstore
    rw [Prog.run_bind_of_error hstore] at hmake
    refine Option.eq_none_iff_forall_ne_some.mpr fun s hs => ?_
    refine storeCredential_lost (hstorage ▸ hk) hs hstore ?_
    rw [hstorage]
    exact (h error a₂ hmake).1

/-- **Atomicity.** Where a MakeCredential completes, a failure changes no credential and no pending
attestation; elsewhere one with a new id does. And so it goes in every run. -/
theorem makeCredential_atomic [AtomicBackend β] (build : Build) (a : Auth β) :
    (∀ request, Completes build a request → Atomic build a request) ∧
    (∀ request, a.storage.Keyed → NewId build a request →
      (Atomic build a request ↔ Completes build a request)) ∧
    ∀ inputs, ∀ x ∈ a.trace build inputs, x.command = .makeCredential →
      (∀ request, build.cbor.decodeMakeCredential x.data = .ok request →
        Completes build { x.before with hmacSecretSession := none } request) →
      ∀ error, x.result = .error error →
        x.after.storage.credentials = x.before.storage.credentials ∧
          x.after.storage.value cfgEpPendingKey = x.before.storage.value cfgEpPendingKey := by
  refine ⟨fun _ => atomic_of_completes, fun request hk hnew =>
    ⟨completes_of_atomic hk hnew, atomic_of_completes⟩, ?_⟩
  intro inputs x hx hcommand hcompletes error hresult
  obtain ⟨past, cmd, data, rfl⟩ := mem_trace build hx
  generalize a.run build past = b at hcommand hcompletes hresult ⊢
  have hmake : Ctap2Command.fromU8 cmd = .makeCredential := hcommand
  have hrun : (processCommand build cmd data).run b =
      (CtapResponse.makeCredential <$> handleMakeCredential build data).run
        { b with hmacSecretSession := none } := by
    rw [run_processCommand_of_ne build data b (by rw [hmake]; decide), hmake]
    rfl
  have hresult' := hresult
  change ((processCommand build cmd data).run b).1 = _ at hresult'
  show ((processCommand build cmd data).run b).2.storage.credentials = _ ∧
    ((processCommand build cmd data).run b).2.storage.value cfgEpPendingKey = _
  rw [hrun, Prog.run_map] at hresult' ⊢
  cases hdecode : build.cbor.decodeMakeCredential data with
  | error e =>
      have hhandle : (handleMakeCredential build data).run { b with hmacSecretSession := none } =
          (.error e, { b with hmacSecretSession := none }) :=
        Prog.run_check_bind_error (by exact hdecode)
      rw [hhandle]
      exact ⟨rfl, rfl⟩
  | ok request =>
      have hhandle : (handleMakeCredential build data).run { b with hmacSecretSession := none } =
          (makeCredential build request).run { b with hmacSecretSession := none } :=
        Prog.run_check_bind (by exact hdecode)
      rw [hhandle] at hresult' ⊢
      rcases hanswer : (makeCredential build request).run { b with hmacSecretSession := none } with
        ⟨e | response, c⟩
      · exact atomic_of_completes (hcompletes request hdecode) e c hanswer
      · rw [hanswer] at hresult'
        cases hresult'

/-! ## A format that is not implemented -/

/-- A device that is set to attest in the format of U2F, after a PIN and a token. -/
def u2fDevice : Auth KvMap :=
  { memoryDevice with attestationFormat := .u2f }.run sampleBuild [setPinCommand, getTokenCommand]

/-- A request for a credential, with some algorithm and hmac-secret. -/
def creationRequest (algorithm : Int) : MakeCredentialRequest :=
  ⟨sampleClientDataHash, ⟨"example.com", none, none⟩, ⟨[0x01], none, none, none⟩,
    [⟨"public-key", algorithm⟩], [], some ⟨none, none, false, some (.bool true), false⟩,
    ⟨false, false, true, false⟩, none, none, none⟩

/-- The request fails, and the credential is there. -/
theorem unsupported_format_stores : ¬Atomic sampleBuild u2fDevice (creationRequest (-8)) := by
  intro hatomic
  have hfails :
    ((makeCredential sampleBuild (creationRequest (-8))).run u2fDevice).1.isOk = false := by
    decide +kernel
  have hstored : ((makeCredential sampleBuild (creationRequest (-8))).run
      u2fDevice).2.storage.credentials.size = 1 := by
    decide +kernel
  rcases hrun : (makeCredential sampleBuild (creationRequest (-8))).run
    u2fDevice with ⟨error | r, b⟩
  · rw [hrun] at hstored
    have hsame : b.storage.credentials.size = u2fDevice.storage.credentials.size :=
      congrArg ExtTreeMap.size (hatomic error b hrun).1
    rw [hstored] at hsame
    exact absurd hsame (by decide +kernel)
  · rw [hrun] at hfails
    cases hfails

/-- A request for an algorithm that is not supported fails in the checks. -/
theorem makeCredential_atomic_refused :
    Atomic sampleBuild u2fDevice (creationRequest (-65535)) := by
  refine (makeCredential_atomic sampleBuild u2fDevice).1 _ fun verified credential a₁ hprepare => ?_
  have hfails : ((prepareCredential sampleBuild (creationRequest (-65535))).run
      u2fDevice).1.isOk = false := by
    decide +kernel
  rw [hprepare] at hfails
  cases hfails

end Auth

end OpenKey
