import OpenKey.Ctap2.Moves

/-!
# What a command touches

Over any backend, whatever fails: a command other than Reset changes the storage only by the calls
listed in `StorageCalls`, and only GetAssertion and GetNextAssertion change the state of
GetNextAssertion or open an hmac-secret session. A frame on the storage that every listed call
stays within is therefore a frame on whole commands.
-/

namespace OpenKey

open Prog (Keeps)

set_option autoImplicit false

/-- The keys of the settings. -/
def settingKeys : List String :=
  [pinStorageKey, pinRetriesKey, uvRetriesKey, signCounterStorageKey, cfgAlwaysUvKey,
    cfgMakeCredUvNotRqdKey, cfgMinPinLengthKey, cfgMinPinLengthRpidsKey, cfgForceChangePinKey,
    cfgEpPendingKey]

theorem systemKey_of_setting {key : String} (h : key ∈ settingKeys) : SystemKey key := by
  have hkeys : ∀ key ∈ settingKeys,
      key ≠ largeBlobsStorageKey ∧ key.toList.take 5 ≠ "cred:".toList := by decide
  exact systemKey_of_take (hkeys key h).1 (hkeys key h).2

/-- The values of most settings: flags, the minimum length of a PIN and the hash of the PIN are
short, and counters are decimal. -/
inductive PlainValue : Bytes → Prop
  | short {v : Bytes} (h : v.length ≤ pinHashLen) : PlainValue v
  | decimal (n : Nat) : PlainValue (utf8 (toString n))

/-- The values of the settings; the relying parties that see the minimum are a list of texts. -/
inductive Build.SettingValue (build : Build) : Bytes → Prop
  | plain {v : Bytes} (h : PlainValue v) : build.SettingValue v
  | rpids (rpids : List String) : build.SettingValue (cborToVec build.cbor rpids)

section

variable {β : Type} [StorageBackend β]

/-- The storage calls of the commands other than MakeCredential and Reset stay within `G`. -/
structure CommonCalls (build : Build) (G : Prog.Frame (StorageEngine β)) : Prop where
  store : ∀ key ∈ settingKeys, ∀ v, build.SettingValue v → Keeps G (StorageEngine.store key v)
  delete : ∀ key ∈ settingKeys, Keeps G (StorageEngine.delete key)
  updateSignCount : ∀ id n, Keeps G (StorageEngine.updateSignCount build.codec id n)
  updateUserInfo : ∀ id name displayName,
    Keeps G (StorageEngine.updateUserInfo build.codec id name displayName)
  deleteCredential : ∀ id, Keeps G (StorageEngine.deleteCredential id)
  writeLargeBlobs : ∀ offset data expectedLen,
    Keeps G (StorageEngine.writeLargeBlobs offset data expectedLen)

/-- The writes of the PIN and its retries stay within `G`. -/
def PinCalls (G : Prog.Frame (StorageEngine β)) : Prop :=
  ∀ key ∈ [pinStorageKey, pinRetriesKey], ∀ v, PlainValue v → Keeps G (StorageEngine.store key v)

theorem CommonCalls.pin {build : Build} {G : Prog.Frame (StorageEngine β)}
    (hG : CommonCalls build G) : PinCalls G := by
  intro key hkey v hv
  have hsub : ∀ key ∈ [pinStorageKey, pinRetriesKey], key ∈ settingKeys := by decide
  exact hG.store key (hsub key hkey) v (.plain hv)

/-- So do those of MakeCredential. -/
structure StorageCalls (build : Build) (G : Prog.Frame (StorageEngine β)) : Prop
    extends CommonCalls build G where
  makeRoom : Keeps G StorageEngine.makeRoom
  insertCredential : ∀ crypto credential nonce,
    Keeps G (StorageEngine.insertCredential build.codec crypto credential nonce)

theorem commonCalls_any (build : Build) :
    CommonCalls build (.any : Prog.Frame (StorageEngine β)) :=
  ⟨fun _ _ _ _ _ => trivial, fun _ _ _ => trivial, fun _ _ _ => trivial, fun _ _ _ _ => trivial,
    fun _ _ => trivial, fun _ _ _ _ => trivial⟩

theorem storageCalls_any (build : Build) :
    StorageCalls build (.any : Prog.Frame (StorageEngine β)) :=
  ⟨commonCalls_any build, fun _ => trivial, fun _ _ _ _ => trivial⟩

/-- The moves that stay within `G` on the storage. -/
def Touching (G : Prog.Frame (StorageEngine β)) : Prog.Frame (Auth β) where
  rel a b := G.rel a.storage b.storage ∧ b.crypto = a.crypto
  refl _ := ⟨G.refl _, rfl⟩
  trans h₁ h₂ := ⟨G.trans h₁.1 h₂.1, h₂.2.trans h₁.2⟩

/-- The moves that also leave the state of GetNextAssertion and the hmac-secret session alone. -/
def Within (G : Prog.Frame (StorageEngine β)) : Prog.Frame (Auth β) where
  rel a b := (Touching G).rel a b ∧ b.getNextAssertionState = a.getNextAssertionState ∧
    b.hmacSecretSession = a.hmacSecretSession
  refl a := ⟨(Touching G).refl a, rfl, rfl⟩
  trans h₁ h₂ := ⟨(Touching G).trans h₁.1 h₂.1, h₂.2.1.trans h₁.2.1, h₂.2.2.trans h₁.2.2⟩

end

namespace Auth

variable {β α : Type} [StorageBackend β] {G : Prog.Frame (StorageEngine β)}

omit [StorageBackend β] in
theorem touching_of_core {a b : Auth β} (h : b.core = a.core) : (Touching G).rel a b := by
  refine ⟨?_, congrArg Core.crypto h⟩
  rw [show b.storage = a.storage from congrArg Core.storage h]
  exact G.refl _

instance : Inert (Within G) where
  allow h hsession := ⟨touching_of_core h, congrArg Core.next h, hsession⟩

instance : Inert (Touching G) := ⟨fun h _ => touching_of_core h⟩

/-- A frame that allows whatever stays within `G` on the storage and leaves enumerations and the
hmac-secret session alone. -/
class Storing (F : Prog.Frame (Auth β)) (G : outParam (Prog.Frame (StorageEngine β))) : Prop where
  storing : ∀ {a b : Auth β}, G.rel a.storage b.storage → b.crypto = a.crypto →
    b.getNextAssertionState = a.getNextAssertionState →
    b.hmacSecretSession = a.hmacSecretSession →
    b.credMgmtCredsState = a.credMgmtCredsState → F.rel a b

/-- A frame that asks of the enumerations only that enumerateCredentials stays where it is. -/
class Asserting (F : Prog.Frame (Auth β)) (G : outParam (Prog.Frame (StorageEngine β))) : Prop
    extends Storing F G where
  asserting : ∀ {a b : Auth β}, G.rel a.storage b.storage → b.crypto = a.crypto →
    b.credMgmtCredsState = a.credMgmtCredsState → F.rel a b

instance : Storing (Within G) G :=
  ⟨fun hs hcrypto hnext hsession _ => ⟨⟨hs, hcrypto⟩, hnext, hsession⟩⟩

instance : Asserting (Touching G) G where
  storing hs hcrypto _ _ _ := ⟨hs, hcrypto⟩
  asserting hs hcrypto _ := ⟨hs, hcrypto⟩

variable {F : Prog.Frame (Auth β)}

instance [Storing F G] : Aloof F where
  aloof h hsession hcreds := Storing.storing (touching_of_core h).1 (touching_of_core (G := G) h).2
    (congrArg Core.next h) hsession hcreds

instance [Asserting F G] : Sessionless F where
  sessionless h hcreds :=
    Asserting.asserting (touching_of_core h).1 (touching_of_core (G := G) h).2 hcreds

variable [hF : Storing F G]

/-! ## Storage calls -/

omit [StorageBackend β] in
theorem within_onStorage {ε : Type} {f : EngineError → ε} {mark : Mark}
    {m : Prog (StorageEngine β) EngineError α} (h : Keeps G m) :
    Keeps F (Prog.mapError f (onStorage mark m)) :=
  fun a => Storing.storing (h a.storage) rfl rfl rfl rfl

omit [StorageBackend β] in
theorem within_persist {mark : Mark} {m : Prog (StorageEngine β) EngineError α} (h : Keeps G m) :
    Keeps F (persist mark m) := within_onStorage h

omit [StorageBackend β] in
theorem within_persistIgnored {mark : Mark} {m : Prog (StorageEngine β) EngineError α}
    (h : Keeps G m) : Keeps F (persistIgnored mark m) :=
  fun a => Storing.storing (h a.storage) rfl rfl rfl rfl

/-! ## The PIN -/

section Pin

include hF

theorem within_failPin : Keeps F (failPin : Ctap β α) :=
  Keeps.bind (.update fun _ => Storing.storing (G.refl _) rfl rfl rfl rfl) fun _ => .check _

theorem within_comparePinHash (path : PinPath) (submitted : Bytes) :
    Keeps F (comparePinHash path submitted) := by
  intro a
  obtain hrun | ⟨matched, hrun⟩ := run_comparePinHash path submitted a
  · rw [hrun]
    exact F.refl a
  · rw [hrun]
    exact Storing.storing (G.refl _) rfl rfl rfl rfl

omit [StorageBackend β] in
theorem within_invalidatePinUvAuthToken : Keeps F (invalidatePinUvAuthToken : Ctap β Unit) :=
  .update fun _ => Storing.storing (G.refl _) rfl rfl rfl rfl

variable (hpin : PinCalls G)

include hpin

theorem within_resetPinRetries (mark : Mark) : Keeps F (resetPinRetries mark) :=
  Keeps.bind (.update fun _ => Storing.storing (G.refl _) rfl rfl rfl rfl) fun _ =>
    within_persistIgnored (hpin _ (by decide) _ (.decimal _))

theorem within_decrementPinRetries (mark : Mark) : Keeps F (decrementPinRetries mark) :=
  (Keeps.read _).bind fun _ => within_persistIgnored (hpin _ (by decide) _ (.decimal _))

theorem within_storePinHash (mark : Mark) (pin : Bytes) : Keeps F (storePinHash mark pin) :=
  fun a => Prog.KeepsAt.read_bind
    (within_persist (hpin _ (by decide) _ (.short (List.length_take_le _ _))) a)

theorem within_checkPinHash (path : PinPath) (protocol : PinUvProtocol)
    (secret pinHashEnc : Bytes) :
    Keeps F (checkPinHash path protocol secret pinHashEnc) := by
  refine (within_decrementPinRetries hpin _).bind fun _ => (Keeps.read _).bind fun submitted => ?_
  cases submitted with
  | error error => exact within_failPin
  | ok hash =>
      exact (within_comparePinHash _ _).bind fun _ =>
        .ite (fun _ => within_resetPinRetries hpin _) fun _ => within_failPin

theorem within_setPin (pin : Bytes) : Keeps F (setPin pin) :=
  (Keeps.ensure _ _).bind fun _ => (within_storePinHash hpin _ _).bind fun _ =>
    (within_resetPinRetries hpin _).bind fun _ => within_invalidatePinUvAuthToken

theorem within_changePin (oldPin newPin : Bytes) : Keeps F (changePin oldPin newPin) :=
  (Keeps.ensure _ _).bind fun _ => (Keeps.ensure _ _).bind fun _ => (Keeps.read _).bind fun _ =>
    (within_comparePinHash _ _).bind fun _ => .ite
      (fun _ => (within_resetPinRetries hpin _).bind fun _ =>
        (within_storePinHash hpin _ _).bind fun _ =>
        within_invalidatePinUvAuthToken)
      fun _ => (within_decrementPinRetries hpin _).bind fun _ => within_failPin

theorem within_verifyPin (pin : Bytes) : Keeps F (verifyPin pin) :=
  (Keeps.ensure _ _).bind fun _ => (Keeps.ensure _ _).bind fun _ => (Keeps.read _).bind fun _ =>
    (within_comparePinHash _ _).bind fun _ => .ite (fun _ => within_resetPinRetries hpin _)
      fun _ => (within_decrementPinRetries hpin _).bind fun _ => within_failPin

end Pin

section Commands

variable {build : Build} (hG : CommonCalls build G)

include hG

theorem within_setFlag {key : String} (hkey : key ∈ settingKeys) :
    Keeps F (setFlag key) := within_persist (hG.store key hkey _ (.plain (.short (by decide))))

theorem within_clearFlag {key : String} (hkey : key ∈ settingKeys) :
    Keeps F (clearFlag key) := within_persistIgnored (hG.delete key hkey)

theorem within_toggleFlag {key : String} (hkey : key ∈ settingKeys) :
    Keeps F (toggleFlag key) :=
  (Keeps.read _).bind fun _ =>
    .ite (fun _ => within_clearFlag hG hkey) fun _ => within_setFlag hG hkey

/-! ## ClientPIN -/

omit hG in
include hF in
omit [StorageBackend β] in
theorem within_issuePinUvAuthToken (protocol : PinUvProtocol) (secret : Bytes) (permissions : UInt8)
    (rpId : Option String) :
    Keeps F (issuePinUvAuthToken protocol secret permissions rpId) :=
  (quiet_randomBytes _).bind fun _ => (quiet_encryptWith _ _ _).bind fun _ =>
    Keeps.bind (.update fun _ => Storing.storing (G.refl _) rfl rfl rfl rfl) fun _ => .pure _

theorem within_handleSetPin (request : ClientPinRequest) :
    Keeps F (handleSetPin request) :=
  (quiet_validateProtocol _).bind fun _ => (Keeps.ensure _ _).bind fun _ =>
    (quiet_required _).bind fun _ => (quiet_required _).bind fun _ =>
      (quiet_required _).bind fun _ =>
      (quiet_performKeyAgreement _ _).bind fun _ => (quiet_verifyWith _ _ _ _).bind fun _ =>
        (quiet_decryptNewPin _ _ _).bind fun _ => (within_setPin hG.pin _).bind fun _ => .pure _

theorem within_handleChangePin (request : ClientPinRequest) :
    Keeps F (handleChangePin request) :=
  (quiet_validateProtocol _).bind fun _ => (Keeps.ensure _ _).bind fun _ =>
    (Keeps.ensure _ _).bind fun _ => (Keeps.ensure _ _).bind fun _ =>
      (quiet_required _).bind fun _ => (quiet_required _).bind fun _ =>
        (quiet_required _).bind fun _ => (quiet_required _).bind fun _ =>
          (quiet_performKeyAgreement _ _).bind fun _ => (quiet_verifyWith _ _ _ _).bind fun _ =>
            (within_checkPinHash hG.pin _ _ _ _).bind fun _ =>
              (quiet_decryptNewPin _ _ _).bind fun _ =>
              within_invalidatePinUvAuthToken.bind fun _ =>
                (within_storePinHash hG.pin _ _).bind fun _ => .pure _

theorem within_handleGetPinTokenCommon (request : ClientPinRequest) (protocol : PinUvProtocol)
    (permissions : UInt8) (rpId : Option String) :
    Keeps F (handleGetPinTokenCommon request protocol permissions rpId) :=
  (Keeps.ensure _ _).bind fun _ => (Keeps.ensure _ _).bind fun _ => (Keeps.ensure _ _).bind fun _ =>
    (Keeps.ensure _ _).bind fun _ => (quiet_required _).bind fun _ =>
      (quiet_required _).bind fun _ =>
      (quiet_performKeyAgreement _ _).bind fun _ =>
        (within_checkPinHash hG.pin _ _ _ _).bind fun _ =>
        (within_issuePinUvAuthToken _ _ _ _).bind fun _ => .pure _

theorem within_performBuiltinUv : Keeps F (performBuiltinUv : Ctap β Unit) := by
  refine (Keeps.ensure _ _).bind fun _ => (Keeps.ensure _ _).bind fun _ =>
    quiet_askVerifier.bind fun result => ?_
  cases result with
  | ok u => exact within_persistIgnored (hG.store _ (by decide) _ (.plain (.decimal _)))
  | error error =>
      exact (Keeps.read _).bind fun _ =>
        (within_persistIgnored (hG.store _ (by decide) _ (.plain (.decimal _)))).bind
          fun _ => .fail _

theorem within_handleGetUvToken (request : ClientPinRequest) :
    Keeps F (handleGetUvToken request) :=
  (quiet_validateProtocol _).bind fun _ => (quiet_required _).bind fun _ =>
    (quiet_validatePermissions _).bind fun _ => (within_performBuiltinUv hG).bind fun _ =>
      (quiet_requireRpId _ _).bind fun _ => (quiet_required _).bind fun _ =>
        (quiet_performKeyAgreement _ _).bind fun _ =>
          (within_issuePinUvAuthToken _ _ _ _).bind fun _ => .pure _

theorem within_handleClientPin (data : Bytes) : Keeps F (handleClientPin build data) := by
  refine (Keeps.check _).bind fun request => ?_
  unfold clientPinSubCommand
  split
  · exact quiet_handleGetRetries
  · exact quiet_handleGetKeyAgreement _
  · exact within_handleSetPin hG _
  · exact within_handleChangePin hG _
  · exact (quiet_validateProtocol _).bind fun _ => (Keeps.ensure _ _).bind fun _ =>
      within_handleGetPinTokenCommon hG _ _ _ _
  · exact within_handleGetUvToken hG _
  · exact quiet_handleGetUvRetries
  · exact (quiet_validateProtocol _).bind fun _ => (quiet_required _).bind fun _ =>
      (quiet_validatePermissions _).bind fun _ => (quiet_requireRpId _ _).bind fun _ =>
        within_handleGetPinTokenCommon hG _ _ _ _
  · exact .fail _

/-! ## AuthenticatorConfig -/

theorem within_storeRpids (rpids : List String) : Keeps F (storeRpids build rpids) :=
  within_persist (hG.store _ (by decide) _ (.rpids rpids))

theorem within_handleSetMinPinLength (params : Option Value) :
    Keeps F (handleSetMinPinLength build params) := by
  have hverify : ∀ encrypted, Keeps F (verifyCurrentPin encrypted) := fun _ =>
    quiet_takePinSharedSecret.bind fun _ => (Keeps.check _).bind fun _ =>
      (Keeps.ensure _ _).bind fun _ => (Keeps.read _).bind fun _ =>
        (within_comparePinHash _ _).bind fun _ => .ensure _ _
  refine (Keeps.check _).bind fun params => Keeps.bind ?_ fun _ =>
    (within_persist (hG.store _ (by decide) _ (.plain (.short (Nat.le_of_ble_eq_true rfl))))).bind
      fun _ => Keeps.bind ?_ fun _ =>
      .ite (fun _ => within_setFlag hG (by decide)) fun _ => within_clearFlag hG (by decide)
  · cases params.currentPin with
    | none => exact .pure ()
    | some encrypted => exact hverify encrypted
  · cases params.rpids with
    | none => exact .pure ()
    | some rpids => exact within_storeRpids hG rpids

theorem within_handleAuthnrConfig (data : Bytes) :
    Keeps F (handleAuthnrConfig build data) := by
  refine (Keeps.check _).bind fun request => (Keeps.ensure _ _).bind fun _ =>
    (quiet_required _).bind fun _ => (quiet_required _).bind fun _ =>
      (Keeps.check _).bind fun _ => (Keeps.check _).bind fun _ => ?_
  unfold authnrConfigSubCommand
  split
  · exact within_setFlag hG (by decide)
  · exact within_toggleFlag hG (by decide)
  · exact within_handleSetMinPinLength hG _
  · exact within_toggleFlag hG (by decide)
  · exact (Keeps.check _).bind fun _ => within_storeRpids hG _
  · exact .fail _

/-! ## Credentials -/

omit hG in
theorem within_storeCredential (hG : StorageCalls build G) (credential : Credential) :
    Keeps F (storeCredential build credential) :=
  (within_persist hG.makeRoom).bind fun _ => (quiet_randomBytes _).bind fun _ =>
    (Keeps.read _).bind fun _ => within_persist (hG.insertCredential _ _ _)

theorem within_makeCredentialResponse (request : MakeCredentialRequest) (credential : Credential)
    (pinAuthenticated : Bool) :
    Keeps F (makeCredentialResponse build request credential pinAuthenticated) := by
  have hconsume : Keeps F consumeEpPending := (Keeps.read _).bind fun _ =>
    (Keeps.when fun _ => within_clearFlag hG (by decide)).bind fun _ => .pure _
  exact (Keeps.check _).bind fun _ => (Keeps.check _).bind fun _ => hconsume.bind fun _ =>
    (Keeps.read _).bind fun _ => (quiet_attest build _ _ _ _).bind fun _ => .pure _

omit hG in
theorem within_makeCredential (hG : StorageCalls build G) (request : MakeCredentialRequest) :
    Keeps F (makeCredential build request) :=
  (quiet_authenticateOperation _ _ _ _ _ _).bind fun _ =>
    (Keeps.when fun _ => quiet_checkPresence).bind fun _ => (Keeps.read _).bind fun _ =>
      (Keeps.check _).bind fun _ => (Keeps.check _).bind fun _ => (Keeps.check _).bind fun _ =>
        (quiet_newCredential build _ _ _ _).bind fun _ =>
          (within_storeCredential hG _).bind fun _ =>
            within_makeCredentialResponse hG.toCommonCalls _ _ _

theorem within_signCounted (credential : Credential) (rpIdHash : Bytes) (flags : UInt8)
    (clientDataHash : Bytes) :
    Keeps F (signCounted build credential rpIdHash flags clientDataHash) := by
  have hcount : Keeps F nextSignCount := (Keeps.read _).bind fun _ =>
    (Keeps.ensure _ _).bind fun _ =>
      (within_persist (hG.store _ (by decide) _ (.plain (.decimal _)))).bind fun _ => .pure _
  exact hcount.bind fun _ => (within_persist (hG.updateSignCount _ _)).bind fun _ =>
    (quiet_signAssertion build _ _ _).bind fun _ => .pure _

section

variable [Asserting F G]

omit [Storing F G]

theorem touching_getAssertion (request : GetAssertionRequest) :
    Keeps F (getAssertion build request) := by
  have hopen : ∀ flags uvSatisfied credential,
      Keeps F (openEnumeration request flags uvSatisfied credential) := fun _ _ _ =>
    (Keeps.read _).bind fun _ => .ite
      (fun _ => Keeps.bind (.update fun _ => Asserting.asserting (G.refl _) rfl rfl)
        fun _ => .pure _)
      fun _ => (quiet_endHmacSession).bind fun _ => .pure _
  exact (quiet_authenticateOperation _ _ _ _ _ _).bind fun _ =>
    (Keeps.when fun _ => quiet_checkPresence).bind fun _ =>
      (Keeps.read _).bind fun _ => (Keeps.check _).bind fun _ => (Keeps.read _).bind fun _ =>
        (within_signCounted hG _ _ _ _).bind fun _ =>
          (quiet_firstExtensions _ _ _).bind fun _ =>
            (hopen _ _ _).bind fun _ => .pure _

theorem touching_handleGetNextAssertion :
    Keeps F (handleGetNextAssertion build) := by
  have htake : Keeps F takeNextState :=
    Keeps.bind (.act fun _ => Asserting.asserting (G.refl _) rfl rfl) fun _ => .check _
  have hmatch : ∀ state found, Keeps F (nextMatch state found) := by
    intro state found
    unfold nextMatch
    split
    · exact .pure _
    · exact (quiet_endHmacSession).bind fun _ => .fail _
  exact htake.bind fun _ => (Keeps.read _).bind fun _ => (hmatch _ _).bind fun _ =>
    (Keeps.check _).bind fun _ => (quiet_chainedHmacSecret _ _).bind fun _ =>
      (Keeps.when fun _ => quiet_endHmacSession).bind fun _ =>
        Keeps.bind (.update fun _ => Asserting.asserting (G.refl _) rfl rfl) fun _ =>
          (Keeps.read _).bind fun _ =>
          (within_signCounted hG _ _ _ _).bind fun _ => .pure _

end

/-! ## Management -/

theorem within_handleLargeBlobs (data : Bytes) : Keeps F (handleLargeBlobs build data) := by
  refine (Keeps.check _).bind fun request => ?_
  cases request.set with
  | none => exact quiet_readLargeBlobs _
  | some blob =>
      exact (Keeps.check _).bind fun write =>
        (within_onStorage (hG.writeLargeBlobs _ _ _)).bind fun _ => .pure _

theorem within_handleCredentialManagement [Inert F] (data : Bytes) :
    Keeps F (handleCredentialManagement build data) := by
  refine (Keeps.check _).bind fun request => (Keeps.check _).bind fun _ =>
    (Keeps.check _).bind fun _ => (Keeps.ensure _ _).bind fun _ =>
      (Keeps.ensure _ _).bind fun _ => ?_
  unfold credMgmtSubCommand
  split
  · exact .read _
  · exact quiet_handleCredMgmtEnumerateRpsBegin
  · exact quiet_handleCredMgmtEnumerateRpsNext
  · exact (quiet_demanded _).bind fun _ => (quiet_demanded _).bind fun _ =>
      quiet_handleCredMgmtEnumerateCredsBegin _
  · exact quiet_handleCredMgmtEnumerateCredsNext
  · exact (quiet_demanded _).bind fun _ => (quiet_demanded _).bind fun _ =>
      (within_onStorage (hG.deleteCredential _)).bind fun _ => .pure _
  · exact (quiet_demanded _).bind fun _ => (quiet_demanded _).bind fun _ =>
      (quiet_demanded _).bind fun _ => (within_persist (hG.updateUserInfo _ _ _)).bind fun _ =>
        (Keeps.ensure _ _).bind fun _ => .pure _
  · exact .fail _

/-! ## Commands -/

/-- The commands that do not reach the state of GetNextAssertion or the hmac-secret session. -/
theorem keeps_dispatch (command : Ctap2Command) (data : Bytes) (hreset : command ≠ .reset)
    (hga : command ≠ .getAssertion) (hgna : command ≠ .getNextAssertion)
    (hmake : command = .makeCredential → Keeps F (handleMakeCredential build data))
    (hcm : command = .credentialManagement → Keeps F (handleCredentialManagement build data)) :
    Keeps F (dispatch build command data) := by
  cases command with
  | makeCredential => exact (hmake rfl).map
  | getAssertion => exact absurd rfl hga
  | getInfo => exact (Keeps.check _).map
  | clientPin => exact (within_handleClientPin hG data).map
  | reset => exact absurd rfl hreset
  | getNextAssertion => exact absurd rfl hgna
  | bioEnroll => exact (quiet_handleBioEnroll build data).map
  | credentialManagement => exact hcm rfl
  | selection | getVersion => exact .pure _
  | largeBlobs => exact (within_handleLargeBlobs hG data).map
  | authenticatorConfig => exact (within_handleAuthnrConfig hG data).map
  | enumerateRpsInitial => exact quiet_handleEnumerateRpsInitial.map
  | enumerateRpsNext => exact quiet_handleEnumerateRpsNext.map
  | unknown value => exact .fail _

omit hG in
theorem within_handleMakeCredential (hG : StorageCalls build G) (data : Bytes) :
    Keeps F (handleMakeCredential build data) :=
  (Keeps.check _).bind fun _ => within_makeCredential hG _

omit hF hG in
/-- Only three commands reach the state of GetNextAssertion or the hmac-secret session. -/
theorem within_dispatch (hG : StorageCalls build G) (command : Ctap2Command) (data : Bytes)
    (hreset : command ≠ .reset) (hga : command ≠ .getAssertion)
    (hgna : command ≠ .getNextAssertion) : Keeps (Within G) (dispatch build command data) :=
  keeps_dispatch hG.toCommonCalls command data hreset hga hgna
    (fun _ => within_handleMakeCredential hG data)
    fun _ => within_handleCredentialManagement hG.toCommonCalls data

omit hF in
/-- Every command but Reset stays within what its storage calls stay within, if MakeCredential and
CredentialManagement do. -/
theorem keeps_processCommand [Asserting F G] (cmd : UInt8) (data : Bytes)
    (hreset : Ctap2Command.fromU8 cmd ≠ .reset)
    (hmake : Ctap2Command.fromU8 cmd = .makeCredential →
      Keeps F (handleMakeCredential build data))
    (hcm : Ctap2Command.fromU8 cmd = .credentialManagement →
      Keeps F (handleCredentialManagement build data)) :
    Keeps F (processCommand build cmd data) := by
  refine (Keeps.when fun _ => quiet_endHmacSession).bind fun _ => ?_
  by_cases hga : Ctap2Command.fromU8 cmd = .getAssertion
  · rw [hga]
    exact ((Keeps.check _).bind fun _ => touching_getAssertion hG _).map
  by_cases hgna : Ctap2Command.fromU8 cmd = .getNextAssertion
  · rw [hgna]
    exact (touching_handleGetNextAssertion hG).map
  exact keeps_dispatch hG _ data hreset hga hgna hmake hcm

omit hF hG in
theorem touching_processCommand (hG : StorageCalls build G) (cmd : UInt8) (data : Bytes)
    (hreset : Ctap2Command.fromU8 cmd ≠ .reset) :
    Keeps (Touching G) (processCommand build cmd data) :=
  keeps_processCommand hG.toCommonCalls cmd data hreset
    (fun _ => within_handleMakeCredential hG data)
    fun _ => within_handleCredentialManagement hG.toCommonCalls data

omit hF hG in
/-- So does Reset, if clearing does. -/
theorem touching_handleReset (hclear : Keeps G StorageEngine.clear)
    (hblobs : Keeps G StorageEngine.clearLargeBlobs) : Keeps (Touching G) handleReset :=
  quiet_checkPresence.bind fun _ => (within_persistIgnored hclear).bind fun _ =>
    (within_persistIgnored hblobs).bind fun _ => .update fun _ => ⟨G.refl _, rfl⟩

omit hF hG in
/-- A call that is no power cycle stays within what its storage calls stay within. -/
theorem touching_call (hG : StorageCalls build G) (hclear : Keeps G StorageEngine.clear)
    (hblobs : Keeps G StorageEngine.clearLargeBlobs) (a : Auth β) {call : Call}
    (hcall : call ≠ .input .powerCycle) : (Touching G).rel a (a.call build call) := by
  rcases call with input | pin | ⟨oldPin, newPin⟩ | pin
  · rcases input with ⟨cmd, data⟩ | _
    · by_cases hreset : Ctap2Command.fromU8 cmd = .reset
      · have hrun : (Touching G).rel a ((processCommand build cmd data).run a).2 := by
          refine (Keeps.when fun _ => quiet_endHmacSession).bind (fun _ => ?_) a
          rw [hreset]
          exact (touching_handleReset hclear hblobs).map
        exact hrun
      · exact touching_processCommand hG cmd data hreset a
    · exact absurd rfl hcall
  · exact within_setPin hG.toCommonCalls.pin pin a
  · exact within_changePin hG.toCommonCalls.pin oldPin newPin a
  · exact within_verifyPin hG.toCommonCalls.pin pin a

end Commands

end Auth

end OpenKey
