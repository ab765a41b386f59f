import OpenKey.Ctap2.PinPaths
import OpenKey.Ctap2.Registration

/-!
# Attestation statements

**Statements (`attestation_checks`).** What an answered MakeCredential states about its credential:
in the configured format, or in the format packed while an enterprise attestation is pending. A
statement without a certificate carries a signature that checks under the key that is attested next
to it; one with a certificate is signed by the key of the certificate.

**Enterprise attestation (`enterprise_once`).** The setting is taken away before the statement is
signed, so in every run the answers that owe their format to it are at most as many as the
enableEnterpriseAttestation commands before them.
-/

namespace OpenKey

open Prog (Keeps bind_eq_ok check_eq_ok)

set_option autoImplicit false

namespace Auth

variable {β : Type} [StorageBackend β] (build : Build)

/-! ## What does not change on the way -/

/-- The moves that leave the attestation settings alone. -/
def SameAttestation : Prog.Frame (Auth β) :=
  .constant fun a => (a.attestationFormat, a.attestationCert)

omit [StorageBackend β] in
theorem sameAttestation_draw : Keeps SameAttestation (draw : Ctap β Entropy) := .act fun _ => rfl

omit [StorageBackend β] in
theorem sameAttestation_randomBytes (len : Nat) :
    Keeps SameAttestation (randomBytes len : Ctap β Bytes) :=
  sameAttestation_draw.bind fun _ => .pure _

theorem sameAttestation_authenticateOperation (pinProtocol : Option Nat)
    (pinUvAuthParam : Option Bytes) (clientDataHash : Bytes) (permission : UInt8) (rpId : String)
    (uv : Bool) : Keeps SameAttestation (authenticateOperation pinProtocol pinUvAuthParam
      clientDataHash permission rpId uv : Ctap β Bool) :=
  (Keeps.check _).bind fun _ => (Keeps.ensure _ _).bind fun _ => (Keeps.ensure _ _).bind fun _ =>
    .pure _

omit [StorageBackend β] in
theorem sameAttestation_checkPresence : Keeps SameAttestation (checkPresence : Ctap β Unit) := by
  refine Keeps.bind (.act fun a => ?_) fun _ => .ensure _ _
  cases a.userPresence <;> rfl

omit [StorageBackend β] in
theorem sameAttestation_newKeyPair (algorithm : Int) :
    Keeps SameAttestation (newKeyPair build algorithm : Ctap β (Bytes × Bytes)) := by
  rw [newKeyPair_eq]
  exact sameAttestation_draw.bind fun _ => .check _

omit [StorageBackend β] in
theorem sameAttestation_newCredential (request : MakeCredentialRequest) (algorithm : Int)
    (rpIdHash credBlob : Bytes) : Keeps SameAttestation
      (newCredential build request algorithm rpIdHash credBlob : Ctap β Credential) := by
  have hblob : Keeps SameAttestation (newLargeBlobKey request.extensions : Ctap β _) := by
    unfold newLargeBlobKey
    split
    · exact (sameAttestation_randomBytes _).bind fun _ => .pure _
    · exact .pure _
  have hrandoms : Keeps SameAttestation (newCredRandoms request.extensions : Ctap β _) := by
    refine (Keeps.check _).bind fun requested => ?_
    split
    · exact (sameAttestation_randomBytes _).bind fun _ =>
        (sameAttestation_randomBytes _).bind fun _ => .pure _
    · exact .pure _
  have hclock : Keeps SameAttestation (currentTimestamp build : Ctap β Nat) := by
    refine .act fun a => ?_
    split <;> rfl
  exact (sameAttestation_randomBytes _).bind fun _ => (sameAttestation_newKeyPair build _).bind
    fun _ => hblob.bind fun _ => hrandoms.bind fun _ => hclock.bind fun _ => .pure _

theorem sameAttestation_prepareCredential (request : MakeCredentialRequest) :
    Keeps SameAttestation (prepareCredential build request : Ctap β (Bool × Credential)) :=
  (sameAttestation_authenticateOperation _ _ _ _ _ _).bind fun _ =>
    (Keeps.when fun _ => sameAttestation_checkPresence).bind fun _ => (Keeps.read _).bind fun _ =>
      (Keeps.check _).bind fun _ => (Keeps.check _).bind fun _ => (Keeps.check _).bind fun _ =>
        (sameAttestation_newCredential build _ _ _ _).bind fun _ => .pure _

theorem sameAttestation_storeCredential (credential : Credential) :
    Keeps SameAttestation (storeCredential build credential : Ctap β Unit) := by
  have hpersist : ∀ {α : Type} (m : Prog (StorageEngine β) EngineError α),
      Keeps SameAttestation (persist .ordinary m : Ctap β α) := fun _ _ => rfl
  exact (hpersist _).bind fun _ => (sameAttestation_randomBytes _).bind fun _ =>
    (Keeps.read _).bind fun _ => hpersist _

/-- An enterprise attestation is pending. -/
def epPending (a : Auth β) : Bool := (a.storage.value cfgEpPendingKey).isSome

/-- The format of the next statement. -/
def nextFormat (a : Auth β) : AttestationFormat :=
  if a.epPending then .packed else a.attestationFormat

section Lawful

variable [LawfulBackend β]

theorem systemKey_epPending : SystemKey cfgEpPendingKey :=
  systemKey_of_take (by decide) (by decide)

omit [LawfulBackend β] in
theorem epPending_of_value {a b : Auth β}
    (h : b.storage.value cfgEpPendingKey = a.storage.value cfgEpPendingKey) :
    b.epPending = a.epPending := by
  unfold epPending
  rw [h]

/-- Storing the credential does not change the format of the statement. -/
theorem nextFormat_of_stored {request : MakeCredentialRequest} {verified : Bool}
    {credential : Credential} {a a₁ a₂ : Auth β} {result : Except Ctap2Error Unit}
    (hprepare : (prepareCredential build request).run a = (.ok (verified, credential), a₁))
    (hstore : (storeCredential build credential).run a₁ = (result, a₂)) :
    a₂.epPending = a.epPending ∧ a₂.attestationFormat = a.attestationFormat ∧
      a₂.attestationCert = a.attestationCert := by
  have hstorage : a₁.storage = a.storage :=
    storage_of_core (core_of_quiet (quiet_prepareCredential build request) hprepare)
  have hmoves : (Moves {Kind.records}).rel a₁ a₂ :=
    (moves_storeCredential build credential (Set.mem_singleton _)).of_run hstore
  have hvalue := value_of_moves systemKey_epPending (by simp) hmoves
  have hsame := SameAttestation.trans
    ((sameAttestation_prepareCredential build request).of_run hprepare)
    ((sameAttestation_storeCredential build credential).of_run hstore)
  obtain ⟨hformat, hcert⟩ := Prod.mk.inj hsame
  exact ⟨epPending_of_value (hvalue.trans (by rw [hstorage])), hformat, hcert⟩

/-- Consuming takes the setting away. -/
theorem consumeEpPending_ok {a b : Auth β} {pending : Bool}
    (h : consumeEpPending.run a = (.ok pending, b)) :
    pending = a.epPending ∧ b.epPending = false ∧ SameSetup.rel a b ∧
      SameAttestation.rel a b := by
  unfold consumeEpPending at h
  rw [Prog.run_read_bind] at h
  show pending = (a.storage.value cfgEpPendingKey).isSome ∧ _
  cases hvalue : (a.storage.value cfgEpPendingKey).isSome with
  | false =>
      rw [hvalue] at h
      cases h
      exact ⟨rfl, hvalue, rfl, rfl⟩
  | true =>
      rw [hvalue] at h
      obtain ⟨_, a₁, h₁, h⟩ := bind_eq_ok.mp h
      cases h
      cases h₁
      refine ⟨rfl, ?_, rfl, rfl⟩
      show ((((StorageEngine.delete cfgEpPendingKey).run a.storage).2).value
        cfgEpPendingKey).isSome = false
      rw [StorageEngine.run_delete, (StorageEngine.saved_delete _ _).value_eq, if_pos rfl]
      rfl

/-! ## Statements -/

section Statements

variable {build} {crypto : CryptoEngine} {algorithm : Int} {privateKey data : Bytes}
  {statement : List (Int × Value)} {a b : Auth β}

omit [StorageBackend β] [LawfulBackend β] in
theorem signForAttestation_ok {signature : Bytes}
    (h : (signForAttestation build algorithm privateKey data).run a = (.ok signature, b)) :
    ∃ entropy, a.crypto.signature build algorithm privateKey data entropy = .ok signature := by
  obtain ⟨_, a₁, hknown, h⟩ := bind_eq_ok.mp h
  obtain ⟨-, rfl⟩ := Prog.ensure_eq_ok.mp hknown
  exact signAssertion_ok build h

omit [StorageBackend β] [LawfulBackend β] in
theorem selfAttestation_ok
    (h : (selfAttestation build data privateKey algorithm).run a = (.ok statement, b)) :
    ∃ signature entropy, statement = [(2, .bytes signature), (3, .integer algorithm)] ∧
      a.crypto.signature build algorithm privateKey data entropy = .ok signature := by
  obtain ⟨signature, a₁, hsign, h⟩ := bind_eq_ok.mp h
  cases h
  obtain ⟨entropy, hsign⟩ := signForAttestation_ok hsign
  exact ⟨signature, entropy, rfl, hsign⟩

/-- A statement about a credential, in the words of the format: no statement, a signature of the
credential, or a certificate with a signature of its key. -/
def States (build : Build) (crypto : CryptoEngine) (certificate : Option AttestationCertificate)
    (algorithm : Int) (data : Bytes) (signed : Bytes → Prop) (statement : List (Int × Value)) :
    AttestationFormat → Prop
  | .none => statement = []
  | .self => ∃ signature, statement = [(2, .bytes signature), (3, .integer algorithm)] ∧
      signed signature
  | .packed =>
      match certificate with
      | none => ∃ signature, statement = [(2, .bytes signature), (3, .integer algorithm)] ∧
          signed signature
      | some certificate => ∃ signature entropy, statement =
            [(1, .array [.bytes certificate.cert]), (2, .bytes signature),
              (3, .integer algorithm)] ∧
          crypto.signature build algorithm certificate.privateKey data entropy = .ok signature
  | _ => False

omit [StorageBackend β] [LawfulBackend β] in
theorem attest_ok {format : AttestationFormat} {signed : Bytes → Prop}
    (hsigned : ∀ signature entropy, a.crypto.signature build algorithm privateKey data entropy =
      .ok signature → signed signature)
    (h : (attest build format data privateKey algorithm).run a = (.ok statement, b)) :
    States build a.crypto a.attestationCert algorithm data signed statement format := by
  have hself : ∀ {b : Auth β},
      (selfAttestation build data privateKey algorithm).run a = (.ok statement, b) →
        ∃ signature, statement = [(2, .bytes signature), (3, .integer algorithm)] ∧
          signed signature := by
    intro b h
    obtain ⟨signature, entropy, rfl, hsign⟩ := selfAttestation_ok h
    exact ⟨signature, rfl, hsigned signature entropy hsign⟩
  cases format with
  | none =>
      cases h
      rfl
  | self => exact hself h
  | packed =>
      unfold attest packedAttestation at h
      rw [Prog.run_read_bind] at h
      unfold States
      cases hcert : a.attestationCert with
      | none =>
          rw [hcert] at h
          exact hself h
      | some certificate =>
          rw [hcert] at h
          obtain ⟨signature, a₁, hsign, h⟩ := bind_eq_ok.mp h
          cases h
          obtain ⟨entropy, hsign⟩ := signForAttestation_ok hsign
          exact ⟨signature, entropy, rfl, hsign⟩
  | u2f => cases h
  | androidKey => cases h
  | apple => cases h

end Statements

/-- The answer for a stored credential: the statement about it, after which nothing is pending. -/
theorem makeCredentialResponse_statement {request : MakeCredentialRequest}
    {credential : Credential} {verified : Bool} {r : MakeCredentialResponse} {a b : Auth β}
    (signed : Bytes → Prop)
    (hsigned : ∀ signature entropy, a.crypto.signature build credential.algorithm
      credential.privateKey (r.authData ++ request.clientDataHash) entropy = .ok signature →
        signed signature)
    (h : (makeCredentialResponse build request credential verified).run a = (.ok r, b)) :
    r.fmt = a.nextFormat.asStr ∧ b.epPending = false ∧
      States build a.crypto a.attestationCert credential.algorithm
        (r.authData ++ request.clientDataHash) signed r.attestationInfo a.nextFormat := by
  obtain ⟨attested, a₁, h₁, h⟩ := bind_eq_ok.mp h
  obtain ⟨-, rfl⟩ := check_eq_ok.mp h₁
  obtain ⟨extensions, a₂, h₂, h⟩ := bind_eq_ok.mp h
  obtain ⟨-, rfl⟩ := check_eq_ok.mp h₂
  obtain ⟨pending, a₃, h₃, h⟩ := bind_eq_ok.mp h
  obtain ⟨rfl, hgone, hsetup, hsame⟩ := consumeEpPending_ok h₃
  obtain ⟨hcrypto, -⟩ := Prod.mk.inj hsetup
  obtain ⟨hformat, hcert⟩ := Prod.mk.inj hsame
  rw [Prog.run_read_bind, hformat] at h
  obtain ⟨statement, a₄, h₄, h⟩ := bind_eq_ok.mp h
  cases h
  have hcore : b.core = a₃.core := core_of_quiet (quiet_attest build _ _ _ _) h₄
  have hstates := attest_ok (by rw [hcrypto]; exact hsigned) h₄
  rw [hcrypto, hcert] at hstates
  exact ⟨rfl, (epPending_of_value (by rw [storage_of_core hcore])).trans hgone, hstates⟩

omit [LawfulBackend β] in
/-- A MakeCredential that succeeds, up to the answer. -/
theorem makeCredential_stages {request : MakeCredentialRequest} {a b : Auth β}
    {r : MakeCredentialResponse} (h : (makeCredential build request).run a = (.ok r, b)) :
    ∃ verified credential a₁ a₂, (prepareCredential build request).run a =
        (.ok (verified, credential), a₁) ∧
      (storeCredential build credential).run a₁ = (.ok (), a₂) ∧
      (makeCredentialResponse build request credential verified).run a₂ = (.ok r, b) := by
  rw [makeCredential_eq] at h
  obtain ⟨⟨verified, credential⟩, a₁, hprepare, h⟩ := bind_eq_ok.mp h
  obtain ⟨_, a₂, hstore, h⟩ := bind_eq_ok.mp h
  exact ⟨verified, credential, a₁, a₂, hprepare, hstore, h⟩

omit [LawfulBackend β] in
theorem setup_of_stages {request : MakeCredentialRequest} {verified : Bool}
    {credential : Credential} {a a₁ a₂ : Auth β} {result : Except Ctap2Error Unit}
    (hprepare : (prepareCredential build request).run a = (.ok (verified, credential), a₁))
    (hstore : (storeCredential build credential).run a₁ = (result, a₂)) :
    a₂.crypto = a.crypto ∧ a₂.capabilities = a.capabilities :=
  Prod.mk.inj (SameSetup.trans
    (sameSetup_of_core (core_of_quiet (quiet_prepareCredential build request) hprepare))
    ((sameSetup_storeCredential build credential).of_run hstore))

omit [LawfulBackend β] in
/-- The run of an exchange that made a credential. -/
theorem run_of_made {a : Auth β} {cmd : UInt8} {data : Bytes} {r : MakeCredentialResponse}
    (hcmd : (a.exchange build cmd data).command = .makeCredential)
    (hresult : (a.exchange build cmd data).result = .ok (.makeCredential r)) :
    ∃ request a', a'.core = a.core ∧ SameAttestation.rel a a' ∧
      build.cbor.decodeMakeCredential data = .ok request ∧
      (makeCredential build request).run a' = (.ok r, a.step build (.command cmd data)) := by
  have hmake : Ctap2Command.fromU8 cmd = .makeCredential := hcmd
  have hrun : (processCommand build cmd data).run a =
      (.ok (.makeCredential r), a.step build (.command cmd data)) := Prod.ext hresult rfl
  rw [run_processCommand_of_ne build data a (by rw [hmake]; decide), hmake] at hrun
  obtain ⟨r', hrun, hr⟩ := Prog.map_eq_ok.mp hrun
  cases hr
  obtain ⟨request, a₁, hcheck, hrun⟩ := bind_eq_ok.mp hrun
  obtain ⟨hdecode, rfl⟩ := check_eq_ok.mp hcheck
  exact ⟨request, { a with hmacSecretSession := none }, rfl, rfl, hdecode, hrun⟩

/-- An answer to MakeCredential is in the configured format, or in the format packed while an
enterprise attestation is pending, and its statement checks: without a certificate under the key it
attests, over its authenticator data and the client data of the request. -/
theorem attestation_checks (a : Auth β) (verifiers : Verifiers)
    (hsound : verifiers.Sound a.crypto.prims) (cmd : UInt8) (data : Bytes)
    (r : MakeCredentialResponse)
    (hcmd : (a.exchange build cmd data).command = .makeCredential)
    (hresult : (a.exchange build cmd data).result = .ok (.makeCredential r)) :
    ∃ request algorithm id key, build.cbor.decodeMakeCredential data = .ok request ∧
      selectAlgorithm build request.pubKeyCredParams = .ok algorithm ∧
      Attests build r id key ∧ r.fmt = a.nextFormat.asStr ∧
      States build a.crypto a.attestationCert algorithm (r.authData ++ request.clientDataHash)
        (fun signature => checkCose verifiers a.crypto key (r.authData ++ request.clientDataHash)
          signature = true) r.attestationInfo a.nextFormat := by
  obtain ⟨request, a', hcore, hsame, hdecode, hmake⟩ := run_of_made build hcmd hresult
  obtain ⟨verified, credential, a₁, a₂, hprepare, hstore, hanswer⟩ :=
    makeCredential_stages build hmake
  have hfresh := prepareCredential_fresh build hprepare
  obtain ⟨entropy, hkeys⟩ := hfresh.keys
  obtain ⟨hcrypto, hcapabilities⟩ := setup_of_stages build hprepare hstore
  obtain ⟨hpending, hformat, hcert⟩ := nextFormat_of_stored build hprepare hstore
  have hcrypto' : a'.crypto = a.crypto := congrArg Core.crypto hcore
  have hsetup' := Prod.mk.inj hsame
  have hnext : a₂.nextFormat = a.nextFormat := by
    have hpending' : a'.epPending = a.epPending :=
      epPending_of_value (by rw [storage_of_core hcore])
    rw [nextFormat, nextFormat, hpending, hformat, hpending', hsetup'.1]
  obtain ⟨attested, hattested, hdata⟩ := makeCredentialResponse_attested build hanswer
  have hlen : credential.rpIdHash.length = 32 := by
    rw [hfresh.rpIdHash]
    exact length_hashRpId _ _
  obtain ⟨key, hkey, hattests⟩ := attests_of_data build hlen hattested hdata
  rw [hcrypto, hcrypto'] at hkey
  rw [hcrypto'] at hkeys
  obtain ⟨hfmt, -, hstates⟩ := makeCredentialResponse_statement build
    (fun signature => checkCose verifiers a.crypto key
      (r.authData ++ request.clientDataHash) signature = true) (fun signature entropy' hsign => by
        rw [hcrypto, hcrypto'] at hsign
        exact checkCose_of_attested hsound (selectAlgorithm_supported build hfresh.algorithm) hkeys
          hkey hsign) hanswer
  rw [hcrypto, hcrypto', hcert, hsetup'.2, hnext] at hstates
  exact ⟨request, credential.algorithm, credential.credentialId, key, hdecode, hfresh.algorithm,
    hattests, hfmt.trans (by rw [hnext]), hstates⟩

/-! ## Enterprise attestation -/

/-- The moves after which no enterprise attestation is pending that was not pending before. -/
def Falls : Prog.Frame (Auth β) where
  rel a b := b.epPending = true → a.epPending = true
  refl _ := id
  trans h₁ h₂ := h₁ ∘ h₂

theorem falls_of_moves {α : Type} {K : Set Kind} {m : Ctap β α}
    (hK : Kind.save cfgEpPendingKey ∉ K) (h : Keeps (Moves K) m) : Keeps Falls m :=
  h.mono fun _ _ hmoves => by
    show _ = true → _ = true
    rw [epPending_of_value (value_of_moves systemKey_epPending hK hmoves)]
    exact id

theorem falls_of_quiet {α : Type} {m : Ctap β α} (h : Keeps Quiet m) : Keeps Falls m :=
  falls_of_moves (K := ∅) (Set.notMem_empty _) (moves_of_quiet h)

theorem falls_store {key : String} (v : Bytes) (hkey : key ≠ cfgEpPendingKey) :
    Keeps Falls (persist .ordinary (StorageEngine.store key v) : Ctap β Unit) := by
  intro a
  show (((StorageEngine.store key v).run a.storage).2.value cfgEpPendingKey).isSome = true → _
  rw [StorageEngine.run_store, (StorageEngine.saved_store _ _ _).value_eq, if_neg hkey.symm]
  exact id

theorem falls_setFlag {key : String} (hkey : key ≠ cfgEpPendingKey) :
    Keeps Falls (setFlag key : Ctap β Unit) := falls_store [0x31] hkey

theorem falls_clearFlag (key : String) : Keeps Falls (clearFlag key : Ctap β Unit) := by
  intro a
  show (((StorageEngine.delete key).run a.storage).2.value cfgEpPendingKey).isSome = true → _
  rw [StorageEngine.run_delete, (StorageEngine.saved_delete _ _).value_eq]
  by_cases hkey : cfgEpPendingKey = key
  · rw [if_pos hkey]
    intro h
    cases h
  · rw [if_neg hkey]
    exact id

theorem falls_toggleFlag {key : String} (hkey : key ≠ cfgEpPendingKey) :
    Keeps Falls (toggleFlag key : Ctap β Unit) :=
  (Keeps.read _).bind fun _ => .ite (fun _ => falls_clearFlag key) fun _ => falls_setFlag hkey

/-- Only the first subcommand of AuthenticatorConfig sets the flag. -/
theorem falls_authnrConfigSubCommand {request : AuthnrConfigRequest}
    (hsub : request.subCommand ≠ 0x01) :
    Keeps Falls (authnrConfigSubCommand build request : Ctap β Unit) := by
  unfold authnrConfigSubCommand
  split
  · next h => exact absurd h hsub
  · exact falls_toggleFlag (by decide)
  · have hK : Kind.save cfgEpPendingKey ∉ minPinLengthKinds := by
      simp only [minPinLengthKinds, Set.mem_insert_iff, Set.mem_singleton_iff, Kind.save.injEq,
        reduceCtorEq, or_false]
      decide
    exact falls_of_moves hK (moves_handleSetMinPinLength build _ subset_rfl)
  · exact falls_toggleFlag (by decide)
  · exact (Keeps.check _).bind fun _ => falls_store _ (by decide)
  · exact .fail _

theorem falls_makeCredential (request : MakeCredentialRequest) :
    Keeps Falls (makeCredential build request : Ctap β MakeCredentialResponse) := by
  rw [makeCredential_eq]
  refine (falls_of_quiet (quiet_prepareCredential build request)).bind fun p => ?_
  have hstore : Keeps Falls (storeCredential build p.2 : Ctap β Unit) :=
    falls_of_moves (K := {Kind.records}) (by simp) (moves_storeCredential build p.2 (by simp))
  refine hstore.bind fun _ => (Keeps.check _).bind fun _ => (Keeps.check _).bind fun _ => ?_
  refine Keeps.bind ((Keeps.read _).bind fun _ => Keeps.bind
    (.when fun _ => falls_clearFlag _) fun _ => .pure _) fun _ => (Keeps.read _).bind fun _ => ?_
  exact (falls_of_quiet (quiet_attest build _ _ _ _)).bind fun _ => .pure _

end Lawful

end Auth

namespace Exchange

variable {β : Type} (build : Build)

/-- MakeCredential has answered in another format than the configured one. -/
def enterprise (x : Exchange β) : Bool :=
  match x.command, x.result with
  | .makeCredential, .ok (.makeCredential r) =>
      decide (r.fmt ≠ x.before.attestationFormat.asStr)
  | _, _ => false

/-- enableEnterpriseAttestation has succeeded. -/
def enables (x : Exchange β) : Bool :=
  match x.command, x.result, AuthnrConfigRequest.decode build.cbor x.data with
  | .authenticatorConfig, .ok _, .ok request => decide (request.subCommand = 0x01)
  | _, _, _ => false

end Exchange

namespace Auth

variable {β : Type} [StorageBackend β] (build : Build)

section Lawful

variable [LawfulBackend β]

omit [LawfulBackend β] in
/-- The run of AuthenticatorConfig. -/
theorem run_authenticatorConfig {cmd : UInt8} (data : Bytes) (a : Auth β)
    (h : Ctap2Command.fromU8 cmd = .authenticatorConfig) :
    (a.exchange build cmd data).result = ((handleAuthnrConfig build data).run
        { a with hmacSecretSession := none }).1.map (fun _ => .empty) ∧
      a.step build (.command cmd data) =
        ((handleAuthnrConfig build data).run { a with hmacSecretSession := none }).2 := by
  have hrun : (processCommand build cmd data).run a =
      ((fun _ => CtapResponse.empty) <$> handleAuthnrConfig build data).run
        { a with hmacSecretSession := none } := by
    rw [run_processCommand_of_ne build data a (by rw [h]; decide), h]
    rfl
  exact ⟨(congrArg Prod.fst hrun).trans (congrArg Prod.fst (Prog.run_map _ _ _)),
    (congrArg Prod.snd hrun).trans (congrArg Prod.snd (Prog.run_map _ _ _))⟩

/-- AuthenticatorConfig fails in a check, or runs its subcommand. -/
def FailsOrForwards (data : Bytes) (a : Auth β) (result : Except Ctap2Error Unit × Auth β) :
    Prop :=
  (∃ error, result = (.error error, a)) ∨
    ∃ request, AuthnrConfigRequest.decode build.cbor data = .ok request ∧
      result = (authnrConfigSubCommand build request).run a

omit [LawfulBackend β] in
theorem handleAuthnrConfig_cases (data : Bytes) (a : Auth β) :
    FailsOrForwards build data a ((handleAuthnrConfig build data).run a) := by
  have herror : ∀ error, FailsOrForwards build data a (.error error, a) :=
    fun error => .inl ⟨error, rfl⟩
  refine Prog.check_bind_elim herror fun request hdecode => ?_
  refine Prog.ensure_bind_elim herror fun _ => ?_
  refine Prog.check_bind_elim herror fun _ _ => Prog.check_bind_elim herror fun _ _ => ?_
  refine Prog.check_bind_elim herror fun _ _ => Prog.check_bind_elim herror fun _ _ => ?_
  exact .inr ⟨request, hdecode, rfl⟩

/-- AuthenticatorConfig leaves no enterprise attestation pending that was not pending before, except
where it is asked to and succeeds. -/
theorem pending_authenticatorConfig {cmd : UInt8} {data : Bytes} {a : Auth β}
    (h : Ctap2Command.fromU8 cmd = .authenticatorConfig)
    (hafter : (a.step build (.command cmd data)).epPending = true) :
    a.epPending = true ∨ (a.exchange build cmd data).enables build = true := by
  obtain ⟨hresult, hstep⟩ := run_authenticatorConfig build data a h
  rw [hstep] at hafter
  obtain ⟨error, hrun⟩ | ⟨request, hdecode, hrun⟩ :=
    handleAuthnrConfig_cases build data { a with hmacSecretSession := none }
  · rw [hrun] at hafter
    exact .inl hafter
  · rw [hrun] at hafter hresult
    by_cases hsub : request.subCommand = 0x01
    · have hok : (a.exchange build cmd data).result = .ok .empty := by
        rw [hresult, authnrConfigSubCommand, hsub]
        show ((persist .ordinary (StorageEngine.store cfgEpPendingKey [0x31]) : Ctap β Unit).run
          { a with hmacSecretSession := none }).1.map _ = _
        rw [persist, run_onStorage_ok (StorageEngine.run_store _ _ _)]
        rfl
      refine .inr ?_
      unfold Exchange.enables
      rw [hok, show (a.exchange build cmd data).command = .authenticatorConfig from h,
        show AuthnrConfigRequest.decode build.cbor (a.exchange build cmd data).data = .ok request
          from hdecode]
      exact decide_eq_true hsub
    · have hfalls := falls_authnrConfigSubCommand build hsub (β := β)
      exact .inl (hfalls { a with hmacSecretSession := none } hafter)

/-- MakeCredential leaves nothing pending that was not pending before; an answer in another format
than the configured one takes away what was pending. -/
theorem pending_makeCredential {cmd : UInt8} (data : Bytes) (a : Auth β)
    (h : Ctap2Command.fromU8 cmd = .makeCredential) :
    ((a.step build (.command cmd data)).epPending = true → a.epPending = true) ∧
      ((a.exchange build cmd data).enterprise = true →
        a.epPending = true ∧ (a.step build (.command cmd data)).epPending = false) := by
  constructor
  · have hstep : a.step build (.command cmd data) =
        ((handleMakeCredential build data).run { a with hmacSecretSession := none }).2 := by
      rw [step, run_processCommand_of_ne build data a (by rw [h]; decide), h]
      exact congrArg Prod.snd (Prog.run_map _ _ _)
    have hkeeps : Keeps Falls (handleMakeCredential build data : Ctap β MakeCredentialResponse) :=
      (Keeps.check _).bind fun request => falls_makeCredential build request
    rw [hstep]
    exact hkeeps { a with hmacSecretSession := none }
  · intro hused
    unfold Exchange.enterprise at hused
    split at hused
    · next r hcmd hresult =>
        obtain ⟨request, a', hcore, hsame, -, hmake⟩ := run_of_made build hcmd hresult
        obtain ⟨verified, credential, a₁, a₂, hprepare, hstore, hanswer⟩ :=
          makeCredential_stages build hmake
        obtain ⟨hpending, hformat, -⟩ := nextFormat_of_stored build hprepare hstore
        obtain ⟨hfmt, hgone, -⟩ := makeCredentialResponse_statement build
          (fun _ => True) (fun _ _ _ => trivial) hanswer
        refine ⟨?_, hgone⟩
        have hpending' : a₂.epPending = a.epPending :=
          hpending.trans (epPending_of_value (by rw [storage_of_core hcore]))
        rw [nextFormat, hformat, (Prod.mk.inj hsame).1, hpending'] at hfmt
        by_cases hp : a.epPending = true
        · exact hp
        · rw [if_neg hp] at hfmt
          exact absurd hfmt (of_decide_eq_true hused)
    · cases hused

/-- One command: the answers that use what is pending, and what it leaves pending, are covered by
what was pending and by what it enables. -/
theorem pending_command (cmd : UInt8) (data : Bytes) (a : Auth β) :
    (a.exchange build cmd data).enterprise.toNat +
        (a.step build (.command cmd data)).epPending.toNat ≤
      a.epPending.toNat + ((a.exchange build cmd data).enables build).toNat := by
  have hcommand : (a.exchange build cmd data).command = Ctap2Command.fromU8 cmd := rfl
  have hunused : Ctap2Command.fromU8 cmd ≠ .makeCredential →
      (a.exchange build cmd data).enterprise = false := by
    intro hne
    unfold Exchange.enterprise
    split
    · next hmake _ => exact absurd hmake hne
    · rfl
  by_cases hmake : Ctap2Command.fromU8 cmd = .makeCredential
  · obtain ⟨hfalls, huses⟩ := pending_makeCredential build data a hmake
    cases hused : (a.exchange build cmd data).enterprise with
    | true =>
        obtain ⟨hbefore, hafter⟩ := huses hused
        rw [hbefore, hafter]
        simp
    | false =>
        have hle := Bool.toNat_le_toNat (Bool.le_iff_imp.mpr hfalls)
        simp only [Bool.toNat_false]
        omega
  rw [hunused hmake, Bool.toNat_false, Nat.zero_add]
  by_cases hconfig : Ctap2Command.fromU8 cmd = .authenticatorConfig
  · by_cases hafter : (a.step build (.command cmd data)).epPending = true
    · obtain hbefore | henables := pending_authenticatorConfig build hconfig hafter
      · rw [hafter, hbefore]
        exact Nat.le_add_right _ _
      · rw [hafter, henables]
        exact Nat.le_add_left _ _
    · rw [Bool.eq_false_iff.mpr hafter]
      exact Nat.zero_le _
  -- no other command sets the flag
  suffices hfalls : (a.step build (.command cmd data)).epPending = true → a.epPending = true by
    exact (Bool.toNat_le_toNat (Bool.le_iff_imp.mpr hfalls)).trans (Nat.le_add_right _ _)
  by_cases hreset : Ctap2Command.fromU8 cmd = .reset
  · obtain ⟨-, hcore⟩ | ⟨-, hcleared⟩ := reset_step build data hreset a
    · rw [epPending_of_value (a := a) (by rw [storage_of_core hcore])]
      exact id
    · rw [epPending, hcleared.value _ systemKey_epPending]
      intro h
      cases h
  · have hK : Kind.save cfgEpPendingKey ∉ commandKinds (.fromU8 cmd) := by
      generalize Ctap2Command.fromU8 cmd = command at hmake hconfig
      cases command with
      | makeCredential => exact absurd rfl hmake
      | authenticatorConfig => exact absurd rfl hconfig
      | _ =>
          simp [commandKinds, assertionKinds, clientPinKinds, cfgEpPendingKey, pinStorageKey,
            pinRetriesKey, uvRetriesKey, signCounterStorageKey]
    rw [epPending_of_value (value_of_moves systemKey_epPending hK
      (moves_step build data hreset a))]
    exact id

theorem epPending_powerCycle {a : Auth β} (hsynced : a.storage.Synced) :
    (a.powerCycle build).epPending = true → a.epPending = true := by
  show ((reopen build a.storage).value cfgEpPendingKey).isSome = true → _
  cases hbackend : a.storage.backend with
  | none =>
      rw [value_reopen_none build hbackend]
      intro h
      cases h
  | some b =>
      rw [value_reopen build (by rw [hbackend]; rfl) hsynced systemKey_epPending]
      exact id

/-- A run: the answers that use what is pending are covered by what was pending at its start and by
what it enables. -/
theorem pending_run {a : Auth β} (hsynced : a.storage.Synced) (inputs : List Input) :
    (a.trace build inputs).countP Exchange.enterprise +
        (a.run build inputs).epPending.toNat ≤
      a.epPending.toNat + (a.trace build inputs).countP (Exchange.enables build) := by
  induction inputs generalizing a with
  | nil => exact Nat.le_of_eq (Nat.add_comm _ _)
  | cons input inputs ih =>
      have hrest := ih (a := a.step build input) (synced_call build hsynced (.input input))
      cases input with
      | powerCycle =>
          have hle := Bool.toNat_le_toNat (Bool.le_iff_imp.mpr (epPending_powerCycle build hsynced))
          exact hrest.trans (Nat.add_le_add_right hle _)
      | command cmd data =>
          have hone := pending_command build cmd data a
          have hcons : ∀ p : Exchange β → Bool,
              (a.trace build (.command cmd data :: inputs)).countP p =
                ((a.step build (.command cmd data)).trace build inputs).countP p +
                  (p (a.exchange build cmd data)).toNat := by
            intro p
            show (a.exchange build cmd data :: _).countP p = _
            rw [List.countP_cons]
            cases p (a.exchange build cmd data) <;> rfl
          rw [hcons, hcons]
          have hrun : a.run build (.command cmd data :: inputs) =
              (a.step build (.command cmd data)).run build inputs := rfl
          rw [hrun]
          omega

/-- In every run, the answers to MakeCredential in another format than the configured one are at
most as many as the enableEnterpriseAttestation commands that have succeeded, and one more if an
enterprise attestation was pending at its start. -/
theorem enterprise_once (start : Auth β) (hblank : start.Blank) (past inputs : List Input) :
    ((start.run build past).trace build inputs).countP Exchange.enterprise ≤
      ((start.run build past).trace build inputs).countP (Exchange.enables build) +
        (start.run build past).epPending.toNat := by
  have hsynced : (start.run build past).storage.Synced :=
    run_invariant build (P := fun a => a.storage.Synced)
      (fun a ha input _ => synced_call build ha (.input input)) hblank.storage.synced
  have hrun := pending_run build hsynced inputs
  omega

end Lawful

/-! ## The sample device -/

/-- The signature the first credential of the device attests itself with. The data are named by
their header; behind it stand the attested key and the hash of the client data. -/
def attestedSignatures : List ((Bytes × Bytes) × Bytes) :=
  [((drawn 32 5, authDataHeader
      (word32 0xa379a6f6eeafb9a55e378c118034e2751e682fab9f2d30ab13d2125586ce1947) 0x41 0),
    word32 0xf28b01dfd52548e365cc267a9541fb0fdb7901e5ab8095f7481ec0baf43a314d ++
      word32 0xfabd60989259d2d02902dd85ad0e713ec8f67410d0e4e6f4829ca4f6f472b20c)]

/-- The tables with the MAC of enableEnterpriseAttestation. -/
def enterpriseTables : Tables where
  macs := [((drawn 32 3, [0x0d, 0x01]),
    0xddb2c885d3396a065276c2846457675d87718aefe21c379f4de573f861efbdbe)]

/-- The device, with the signature of its first attestation. -/
def enterpriseDevice : Auth KvMap :=
  { managedDevice enterpriseTables with
    crypto := { managedCrypto enterpriseTables with
      prims := { (managedCrypto enterpriseTables).prims with
        ed25519Sign := fun seed data => tableEntry attestedSignatures (seed, data.take 37) } } }

theorem signs_enterpriseDevice :
    SignsFromTable enterpriseDevice.crypto.prims (List.take 37) attestedSignatures :=
  ⟨fun _ _ => rfl, fun _ => rfl, fun _ => rfl, fun _ => rfl, fun _ _ => rfl⟩

theorem blank_enterpriseDevice : enterpriseDevice.Blank where
  storage := ⟨rfl, rfl, rfl, fun _ h => nomatch h⟩
  opened := rfl

/-- enableEnterpriseAttestation, under the token the third draw yields. -/
def enableEnterpriseCommand : Input :=
  .command 0x0D (encodeValue (intMap [(1, .integer 1), (3, .integer 1),
    (4, .bytes (word16 0xddb2c885d3396a065276c2846457675d))]))

/-- A PIN, a token, and an enterprise attestation that waits. -/
def enterpriseSetup : List Input := [setPinCommand, getTokenCommand, enableEnterpriseCommand]

/-- Two credentials after that. -/
def enterpriseRun : List Input :=
  enterpriseSetup ++ [makeCredentialCommand 1 1, makeCredentialCommand 2 1]

/-- The device enables enterprise attestation once, and of two credentials it attests one. -/
theorem enterprise_once_sample :
    ((enterpriseDevice.run sampleBuild []).trace sampleBuild enterpriseRun).countP
        Exchange.enterprise = 1 ∧
      ((enterpriseDevice.run sampleBuild []).trace sampleBuild enterpriseRun).countP
          Exchange.enterprise ≤
        ((enterpriseDevice.run sampleBuild []).trace sampleBuild enterpriseRun).countP
          (Exchange.enables sampleBuild) + (enterpriseDevice.run sampleBuild []).epPending.toNat :=
  ⟨by decide +kernel,
    enterprise_once sampleBuild enterpriseDevice blank_enterpriseDevice [] enterpriseRun⟩

/-- The bytes of the makeCredential command. -/
def makeCredentialData (user : UInt8) (credProtect : Int) : Bytes :=
  match makeCredentialCommand user credProtect with
  | .command _ data => data
  | .powerCycle => []

/-- The statement the device makes in packed format checks. -/
theorem attestation_checks_sample :
    ∃ r, ((enterpriseDevice.run sampleBuild enterpriseSetup).exchange sampleBuild 0x01
        (makeCredentialData 1 1)).result = .ok (.makeCredential r) ∧ r.fmt = "packed" ∧
      ∃ key message signature algorithm, r.attestationInfo =
          [(2, .bytes signature), (3, .integer algorithm)] ∧
        checkCose
          (tableVerifiers enterpriseDevice.crypto.prims (List.take 37) attestedSignatures)
          enterpriseDevice.crypto key message signature = true := by
  have hanswered : answered ((enterpriseDevice.run sampleBuild enterpriseSetup).exchange
      sampleBuild 0x01 (makeCredentialData 1 1)) = true := by decide +kernel
  have hpending : (enterpriseDevice.run sampleBuild enterpriseSetup).epPending = true := by
    decide +kernel
  have hcert : (enterpriseDevice.run sampleBuild enterpriseSetup).attestationCert.isNone =
      true := by decide +kernel
  have hcrypto : (enterpriseDevice.run sampleBuild enterpriseSetup).crypto =
      enterpriseDevice.crypto := crypto_run sampleBuild (by decide +kernel) enterpriseDevice
  generalize enterpriseDevice.run sampleBuild enterpriseSetup = a at *
  unfold answered at hanswered
  split at hanswered
  · next r hresult =>
      obtain ⟨request, algorithm, id, key, -, -, -, hfmt, hstates⟩ :=
        attestation_checks sampleBuild a
          (tableVerifiers enterpriseDevice.crypto.prims (List.take 37) attestedSignatures)
          (by rw [hcrypto]; exact signs_enterpriseDevice.sound) 0x01 (makeCredentialData 1 1) r rfl
          hresult
      rw [nextFormat, if_pos hpending] at hfmt hstates
      rw [Option.isNone_iff_eq_none.mp hcert, hcrypto] at hstates
      obtain ⟨signature, hstatement, hchecks⟩ := hstates
      exact ⟨r, hresult, hfmt, key, _, signature, algorithm, hstatement, hchecks⟩
  · cases hanswered

end Auth

end OpenKey
