import OpenKey.Ctap2.Runs

/-!
# Who may change what is managed

CredentialManagement and AuthenticatorConfig change something only for a request that the token in
force authorises. LargeBlobs decodes the parameters of the authentication and never looks at them:
whatever the token, a write that passes the range checks is made.
-/

namespace OpenKey

open Prog (Keeps KeepsAt)

set_option autoImplicit false

/-- The entries of AuthenticatorConfig. -/
def configKeys : List String :=
  [cfgAlwaysUvKey, cfgMakeCredUvNotRqdKey, cfgMinPinLengthKey, cfgMinPinLengthRpidsKey,
    cfgForceChangePinKey, cfgEpPendingKey]

/-- What the management commands are there to change. -/
structure Managed where
  largeBlobs : Bytes
  credentials : Std.ExtTreeMap Bytes StoredCredential
  config : List (Option Bytes)

/-- The managed part of the storage. -/
def StorageEngine.managed {β : Type} [StorageBackend β] (e : StorageEngine β) : Managed where
  largeBlobs := e.largeBlobs
  credentials := e.credentials
  config := configKeys.map e.value

namespace Auth

variable {β : Type} [StorageBackend β] [LawfulBackend β] (build : Build)

/-- The managed part of a state. -/
def managed (a : Auth β) : Managed := a.storage.managed

omit [LawfulBackend β] in
theorem managed_of_core {a b : Auth β} (h : b.core = a.core) : b.managed = a.managed :=
  congrArg (fun c => c.storage.managed) h

omit [LawfulBackend β] in
theorem largeBlobs_of_managed {a b : Auth β} (h : a.managed = b.managed) :
    a.storage.largeBlobs = b.storage.largeBlobs :=
  congrArg Managed.largeBlobs h

/-- The moves that change nothing managed. -/
def Unmanaged : Prog.Frame (Auth β) := .constant managed

/-! ## What a request carries -/

section

variable (message : LargeBlobsRequest → Bytes)

/-- The request carries an authentication that the token in force validates, with the permission of
its command. `message` is what the authentication of a LargeBlobs request is over; the source has
no such function. -/
def CarriesAuth (a : Auth β) (command : Ctap2Command) (data : Bytes) : Prop :=
  match command with
  | .largeBlobs => ∃ request, build.cbor.decodeLargeBlobs data = .ok request ∧
      Authorised a request.pinUvAuthProtocol request.pinUvAuthParam (message request)
        permissionLbw none
  | .credentialManagement => ∃ request msg,
      build.cbor.decodeCredentialManagement data = .ok request ∧
      credentialManagementAuthMessage build.cbor data = .ok msg ∧
      Authorised a request.pinUvAuthProtocol request.pinUvAuthParam msg permissionCm none
  | .authenticatorConfig => ∃ request msg,
      AuthnrConfigRequest.decode build.cbor data = .ok request ∧
      authnrConfigAuthMessage build.cbor data = .ok msg ∧
      Authorised a request.pinUvAuthProtocol request.pinUvAuthParam msg permissionAcfg none
  | _ => False

/-- The management commands. -/
def IsManagement (command : Ctap2Command) : Prop :=
  command = .largeBlobs ∨ command = .credentialManagement ∨ command = .authenticatorConfig

/-- A request changes what is managed only if it carries an authentication. -/
def ChangesNeedAuth (a : Auth β) (cmd : UInt8) (data : Bytes) : Prop :=
  (a.step build (.command cmd data)).managed ≠ a.managed →
    CarriesAuth build message a (.fromU8 cmd) data

/-- A LargeBlobs write without a valid authentication that passes the range checks and whose
fragment differs from what is there. -/
def UnauthenticatedWrite (a : Auth β) (cmd : UInt8) (data : Bytes) : Prop :=
  Ctap2Command.fromU8 cmd = .largeBlobs ∧ ∃ request blob write last,
    build.cbor.decodeLargeBlobs data = .ok request ∧ request.set = some blob ∧
    checkLargeBlobsWrite a.largeBlobsLimit request blob = .ok write ∧
    a.storage.checkLargeBlobs write.offset write.data write.expectedLen = .ok last ∧
    StorageEngine.splicedBlobs a.storage.largeBlobs write.offset write.data write.expectedLen ≠
      a.storage.largeBlobs ∧
    ¬Authorised a request.pinUvAuthProtocol request.pinUvAuthParam (message request)
      permissionLbw none

end

/-! ## Large blobs -/

theorem systemKey_config {key : String} (h : key ∈ configKeys) : SystemKey key := by
  unfold configKeys at h
  simp only [List.mem_cons, List.not_mem_nil, or_false] at h
  rcases h with rfl | rfl | rfl | rfl | rfl | rfl <;>
    exact systemKey_of_take (by decide) (by decide)

/-- A write of large blobs is made if it passes the range checks, and changes nothing else. -/
theorem managed_writeLargeBlobs (e : StorageEngine β) (offset : Nat) (data : Bytes)
    (expectedLen : Option Nat) :
    ((StorageEngine.writeLargeBlobs offset data expectedLen).run e).2.managed ≠ e.managed ↔
      (∃ last, e.checkLargeBlobs offset data expectedLen = .ok last) ∧
        StorageEngine.splicedBlobs e.largeBlobs offset data expectedLen ≠ e.largeBlobs := by
  have hsettled := StorageEngine.settled_writeLargeBlobs (β := β) offset data expectedLen e
  have hconfig : configKeys.map
      ((StorageEngine.writeLargeBlobs offset data expectedLen).run e).2.value =
      configKeys.map e.value :=
    List.map_congr_left fun key hkey => hsettled.1 key (systemKey_config hkey)
  cases hcheck : e.checkLargeBlobs offset data expectedLen with
  | error error =>
      have hrun : (StorageEngine.writeLargeBlobs offset data expectedLen).run e =
          (.error error, e) := Prog.run_check_bind_error hcheck
      rw [hrun]
      refine iff_of_false (fun hne => hne rfl) ?_
      rintro ⟨⟨last, hlast⟩, -⟩
      cases hlast
  | ok last =>
      have hstorage : ∃ backend, ((StorageEngine.writeLargeBlobs offset data expectedLen).run e).2 =
          ⟨e.credentials, e.kvStore,
            StorageEngine.splicedBlobs e.largeBlobs offset data expectedLen, backend,
            e.wearCounters, e.maxCredentialCount⟩ := by
        rw [StorageEngine.writeLargeBlobs, Prog.run_bind_of_ok (Prod.ext hcheck rfl),
          Prog.run_read_bind, Prog.run_update_bind]
        exact StorageEngine.onBackend_snd _ _
      obtain ⟨backend, hrun⟩ := hstorage
      unfold StorageEngine.managed
      rw [hconfig, hrun]
      simp

/-- LargeBlobs changes what is managed exactly by a write that passes the range checks. -/
theorem managed_handleLargeBlobs (a : Auth β) (data : Bytes) :
    ((handleLargeBlobs build data).run a).2.managed ≠ a.managed ↔
      ∃ request blob write last, build.cbor.decodeLargeBlobs data = .ok request ∧
        request.set = some blob ∧ checkLargeBlobsWrite a.largeBlobsLimit request blob = .ok write ∧
        a.storage.checkLargeBlobs write.offset write.data write.expectedLen = .ok last ∧
        StorageEngine.splicedBlobs a.storage.largeBlobs write.offset write.data
          write.expectedLen ≠ a.storage.largeBlobs := by
  unfold handleLargeBlobs
  cases hdecode : build.cbor.decodeLargeBlobs data with
  | error error =>
      refine iff_of_false (fun hne => hne rfl) ?_
      rintro ⟨request, blob, write, last, h, -⟩
      cases h
  | ok request =>
      rw [Prog.run_bind_of_ok (a := request) rfl]
      cases hset : request.set with
      | none =>
          have hsame : ((readLargeBlobs request).run a).2.core = a.core :=
            core_of_quiet (quiet_readLargeBlobs _) rfl
          refine iff_of_false (fun hne => hne (managed_of_core hsame)) ?_
          rintro ⟨request', blob, write, last, h, hset', -⟩
          cases h
          rw [hset] at hset'
          cases hset'
      | some blob =>
          cases hwrite : checkLargeBlobsWrite a.largeBlobsLimit request blob with
          | error error =>
              have hfail : (writeLargeBlobs request blob).run a = (.error error, a) :=
                Prog.run_check_bind_error hwrite
              simp only [hfail]
              refine iff_of_false (fun hne => hne rfl) ?_
              rintro ⟨request', blob', write, last, h, hset', hwrite', -⟩
              cases h
              rw [hset] at hset'
              cases hset'
              rw [hwrite] at hwrite'
              cases hwrite'
          | ok write =>
              have hstorage : ((writeLargeBlobs request blob).run a).2.storage =
                  ((StorageEngine.writeLargeBlobs write.offset write.data
                    write.expectedLen).run a.storage).2 := by
                rw [writeLargeBlobs, Prog.run_bind_of_ok (Prod.ext hwrite rfl),
                  Prog.snd_run_bind_pure]
                rfl
              have hiff := managed_writeLargeBlobs a.storage write.offset write.data
                write.expectedLen
              rw [← hstorage] at hiff
              refine Iff.trans hiff ⟨?_, ?_⟩
              · rintro ⟨⟨last, hlast⟩, hne⟩
                exact ⟨request, blob, write, last, rfl, hset, hwrite, hlast, hne⟩
              · rintro ⟨request', blob', write', last, h, hset', hwrite', hlast, hne⟩
                cases h
                rw [hset] at hset'
                cases hset'
                rw [hwrite] at hwrite'
                cases hwrite'
                exact ⟨⟨last, hlast⟩, hne⟩

/-! ## The other two commands -/

omit [LawfulBackend β] in
theorem unmanaged_handleCredentialManagement (message : LargeBlobsRequest → Bytes) {a : Auth β}
    {data : Bytes} (h : ¬CarriesAuth build message a .credentialManagement data) :
    KeepsAt Unmanaged (handleCredentialManagement build data) a := by
  refine .check_bind fun request hdecode => .check_bind fun msg hmsg =>
    .check_bind fun verified hverify => .ensure_bind fun _ => .ensure_bind fun hverified => ?_
  rw [show verified = true from hverified] at hverify
  exact absurd ⟨request, msg, Except.mapError_eq_ok.mp hdecode, hmsg,
    verifyPinUvAuthForOperation_true.mp hverify⟩ h

omit [LawfulBackend β] in
theorem unmanaged_handleAuthnrConfig (message : LargeBlobsRequest → Bytes) {a : Auth β}
    {data : Bytes} (h : ¬CarriesAuth build message a .authenticatorConfig data) :
    KeepsAt Unmanaged (handleAuthnrConfig build data) a := by
  refine .check_bind fun request hdecode => .ensure_bind fun _ =>
    .check_bind fun version hversion =>
    .check_bind fun param hparam => .check_bind fun msg hmsg =>
      .check_bind fun verified hverify => ?_
  refine absurd ⟨request, msg, hdecode, hmsg, ?_⟩ h
  rw [Option.elim_error_eq_ok.mp hversion, Option.elim_error_eq_ok.mp hparam]
  exact authorised_of_verify hverify

/-! ## Changes and their authentication -/

omit [LawfulBackend β] in
/-- A management request is dispatched with no hmac-secret session, which plays no role in it. -/
theorem managed_step {a : Auth β} {cmd : UInt8} {data : Bytes} {command : Ctap2Command}
    (hcmd : Ctap2Command.fromU8 cmd = command) (hne : command ≠ .getNextAssertion) :
    (a.step build (.command cmd data)).managed =
      ((dispatch build command data).run { a with hmacSecretSession := none }).2.managed := by
  subst hcmd
  show ((processCommand build cmd data).run a).2.managed = _
  rw [run_processCommand_of_ne build data a hne]

/-- A management request changes something without authentication exactly when it is a write of
large blobs without one. -/
theorem changes_need_auth_iff (message : LargeBlobsRequest → Bytes) (a : Auth β) (cmd : UInt8)
    (data : Bytes) (hcmd : IsManagement (.fromU8 cmd)) :
    ChangesNeedAuth build message a cmd data ↔ ¬UnauthenticatedWrite build message a cmd data := by
  unfold ChangesNeedAuth UnauthenticatedWrite
  rcases hcmd with hcmd | hcmd | hcmd
  · have hchanged := managed_handleLargeBlobs build { a with hmacSecretSession := none } data
    rw [managed_step build hcmd (by decide), dispatch, Prog.run_map, hcmd]
    rw [show a.managed = { a with hmacSecretSession := none }.managed from rfl, hchanged]
    constructor
    · rintro hauth ⟨-, request, blob, write, last, hdecode, hset, hwrite, hcheck, hne, hnot⟩
      obtain ⟨request', hdecode', hyes⟩ :=
        hauth ⟨request, blob, write, last, hdecode, hset, hwrite, hcheck, hne⟩
      rw [hdecode] at hdecode'
      cases hdecode'
      exact hnot hyes
    · rintro hnone ⟨request, blob, write, last, hdecode, hset, hwrite, hcheck, hne⟩
      refine ⟨request, hdecode, ?_⟩
      by_contra hnot
      exact hnone ⟨rfl, request, blob, write, last, hdecode, hset, hwrite, hcheck, hne, hnot⟩
  · refine iff_of_true (fun hne => ?_) ?_
    · rw [hcmd]
      by_contra hnot
      refine hne ?_
      rw [managed_step build hcmd (by decide)]
      exact unmanaged_handleCredentialManagement build message
        (a := { a with hmacSecretSession := none }) hnot
    · rintro ⟨hlb, -⟩
      rw [hcmd] at hlb
      cases hlb
  · refine iff_of_true (fun hne => ?_) ?_
    · rw [hcmd]
      by_contra hnot
      refine hne ?_
      rw [managed_step build hcmd (by decide), dispatch, Prog.run_map]
      exact unmanaged_handleAuthnrConfig build message
        (a := { a with hmacSecretSession := none }) hnot
    · rintro ⟨hlb, -⟩
      rw [hcmd] at hlb
      cases hlb

/-- The device with a PIN, and a token that may configure it. -/
def configurable : Auth KvMap := memoryDevice.run sampleBuild [setPinCommand, getTokenCommand]

set_option maxRecDepth 100000 in
/-- With a PIN set, toggleAlwaysUv changes the configuration, and it carries an authentication. -/
theorem changes_need_auth_iff_toggled :
    configurable.storage.isPinSet = true ∧
      (configurable.step sampleBuild toggleAlwaysUvCommand).managed ≠ configurable.managed ∧
      CarriesAuth sampleBuild (fun _ => []) configurable .authenticatorConfig
        toggleAlwaysUvData := by
  have hchanges : (configurable.step sampleBuild toggleAlwaysUvCommand).managed ≠
      configurable.managed :=
    fun heq => absurd (congrArg Managed.config heq) (by decide +kernel)
  have hneeds : ChangesNeedAuth sampleBuild (fun _ => []) configurable 0x0D toggleAlwaysUvData :=
    (changes_need_auth_iff sampleBuild (fun _ => []) configurable 0x0D toggleAlwaysUvData
      (.inr (.inr rfl))).mpr fun h => by cases h.1
  exact ⟨by decide +kernel, hchanges, hneeds hchanges⟩

set_option maxRecDepth 100000 in
/-- With a PIN set and no token at all, one byte of large blobs is written. -/
theorem large_blobs_written_without_auth :
    ¬∃ message : LargeBlobsRequest → Bytes, ∀ a : Auth KvMap, Reachable sampleBuild a →
      a.storage.isPinSet = true → ∀ cmd data, IsManagement (.fromU8 cmd) →
        ChangesNeedAuth sampleBuild message a cmd data := by
  rintro ⟨message, h⟩
  have hreach : Reachable sampleBuild (memoryDevice.calls sampleBuild [.input setPinCommand]) :=
    ⟨memoryDevice, [.input setPinCommand], blank_memoryDevice, rfl⟩
  obtain ⟨request, -, hyes⟩ := h _ hreach (by decide +kernel) 0x0C writeBlobData (.inl rfl)
    fun heq => absurd (largeBlobs_of_managed heq) (by decide +kernel)
  have htoken : (memoryDevice.calls sampleBuild [.input setPinCommand]).pinUvAuthToken = none := by
    decide +kernel
  obtain ⟨version, protocol, token, param, -, -, hstate, -⟩ := hyes
  rw [htoken] at hstate
  cases hstate

end Auth

end OpenKey
