import OpenKey.Ctap2.Runs

/-!
# Statuses of the gates

MakeCredential and GetAssertion read two settings before anything else: a PIN asks for a verified
user where the request does, and alwaysUv asks for a request that does (`demands`). Only these two
gates answer with PIN_REQUIRED, and only the selection of a credential with NO_CREDENTIALS.

**The gates (`makeCredential_pinRequired_iff`, `getAssertion_pinRequired_iff`).** A request whose
token is checked fails with PIN_REQUIRED if and only if the settings demand more than it brings. The
programs after the gates are followed to their ends, and fail with other statuses.
-/

namespace OpenKey

open Prog (Avoids)

set_option autoImplicit false

/-- The statuses that only the gates and the selection answer with. -/
def Ctap2Error.gate : Ctap2Error → Bool
  | .noCredentials | .pinRequired => true
  | _ => false

section

variable {e e' : Ctap2Error}

theorem ne_of_gate (he : e.gate = true) (h : e'.gate = false) : e' ≠ e := by
  rintro rfl
  rw [h] at he
  cases he

theorem error_ne_gate {α : Type} (he : e.gate = true) (h : e'.gate = false) :
    (.error e' : Except Ctap2Error α) ≠ .error e :=
  fun heq => ne_of_gate he h (Except.error.inj heq)

theorem ok_ne_gate {α : Type} {x : α} : (.ok x : Except Ctap2Error α) ≠ .error e :=
  fun heq => by cases heq

theorem elim_error_ne {α : Type} {o : Option α} (he : e.gate = true) (h : e'.gate = false) :
    o.elim (.error e') Except.ok ≠ .error e := by
  cases o with
  | none => exact error_ne_gate he h
  | some x => exact ok_ne_gate

theorem mapError_ne {ε α : Type} {x : Except ε α} (he : e.gate = true) (h : e'.gate = false) :
    x.mapError (fun _ => e') ≠ .error e := by
  cases x with
  | error error => exact error_ne_gate he h
  | ok x => exact ok_ne_gate

end

variable {e : Ctap2Error}

/-! ## Parameters of hmac-secret -/

namespace HmacSecret

theorem fromCoseValue_ne (he : e.gate = true) {value : Value} :
    CoseEc2Key.fromCoseValue value ≠ .error e := by
  unfold CoseEc2Key.fromCoseValue
  split
  · dsimp only
    split
    · exact error_ne_gate he rfl
    · split
      · split
        · exact error_ne_gate he rfl
        · exact ok_ne_gate
      · exact error_ne_gate he rfl
  · exact error_ne_gate he rfl

theorem Parts.collect_ne (he : e.gate = true) {parts : Parts} {key value : Value} :
    parts.collect key value ≠ .error e := by
  have hbytes : valueToBytes value ≠ .error e := by
    unfold valueToBytes
    split
    · exact ok_ne_gate
    · exact error_ne_gate he rfl
  have hu8 : valueToU8 value ≠ .error e := by
    unfold valueToU8
    split
    · exact elim_error_ne he rfl
    · exact error_ne_gate he rfl
  unfold Parts.collect
  split
  · split
    · exact Except.map_ne_error (fromCoseValue_ne he)
    · exact Except.map_ne_error hbytes
    · exact Except.map_ne_error hbytes
    · exact Except.map_ne_error hu8
    · exact ok_ne_gate
  · exact ok_ne_gate

theorem Parts.collectAll_ne (he : e.gate = true) {parts : Parts} {entries : List (Value × Value)} :
    parts.collectAll entries ≠ .error e := by
  induction entries generalizing parts with
  | nil => exact ok_ne_gate
  | cons entry entries ih => exact Except.bind_ne_error (collect_ne he) fun _ => ih

theorem parseGetAssertion_ne (he : e.gate = true) {raw : Value} :
    parseGetAssertion raw ≠ .error e := by
  unfold parseGetAssertion
  split
  · refine Except.bind_ne_error (Parts.collectAll_ne he) fun parts => ?_
    split
    · exact ok_ne_gate
    · exact error_ne_gate he rfl
  · exact error_ne_gate he rfl

end HmacSecret

namespace Auth

variable {β : Type} [StorageBackend β] (build : Build)

/-! ## GetAssertion after the selection -/

omit [StorageBackend β] in
theorem avoids_persist {α : Type} (he : e.gate = true) (mark : Mark)
    (m : Prog (StorageEngine β) EngineError α) : Avoids e (persist mark m : Ctap β α) :=
  .mapError fun _ => ne_of_gate he rfl

omit [StorageBackend β] in
theorem avoids_signAssertion (he : e.gate = true) (algorithm : Int) (privateKey data : Bytes) :
    Avoids e (signAssertion build algorithm privateKey data : Ctap β Bytes) := by
  have hrandom : ∀ sign, Avoids e (signRandomised sign : Ctap β Bytes) := fun _ =>
    (Avoids.act _).bind fun _ => .check fun _ => mapError_ne he rfl
  exact .ite (hrandom _) (.ite (hrandom _) (.ite (hrandom _) (.ite (hrandom _)
    (.check fun _ => mapError_ne he rfl))))

theorem avoids_signCounted (he : e.gate = true) (credential : Credential) (rpIdHash : Bytes)
    (flags : UInt8) (clientDataHash : Bytes) :
    Avoids e (signCounted build credential rpIdHash flags clientDataHash : Ctap β Assertion) := by
  have hcount : Avoids e (nextSignCount : Ctap β Nat) :=
    (Avoids.read _).bind fun _ => (Avoids.ensure (ne_of_gate he rfl)).bind fun _ =>
      (avoids_persist he _ _).bind fun _ => .pure _
  exact hcount.bind fun _ => (avoids_persist he _ _).bind fun _ =>
    (avoids_signAssertion build he _ _ _).bind fun _ => .pure _

theorem openSession_ne (he : e.gate = true) {prims : Primitives} {protocol : PinUvProtocol}
    {z : Bytes} {request : HmacSecret.GetRequest} :
    openSession prims protocol z request ≠ .error e := by
  refine Except.bind_ne_error (mapError_ne he rfl) fun secret => ?_
  split
  · split
    · split
      · exact ok_ne_gate
      · exact error_ne_gate he rfl
    · exact error_ne_gate he rfl
  · exact error_ne_gate he rfl

omit [StorageBackend β] in
theorem avoids_firstHmacSecret (he : e.gate = true) (credential : Credential) (up verified : Bool)
    (raw : Value) :
    Avoids e (firstHmacSecret credential up verified raw : Ctap β (Option Value)) := by
  refine (Avoids.ensure (ne_of_gate he rfl)).bind fun _ =>
    (Avoids.check fun _ => HmacSecret.parseGetAssertion_ne he).bind fun request => ?_
  cases credRandom credential verified with
  | none => exact .pure _
  | some secret =>
      have hbegin : Avoids e (beginSession request : Ctap β _) := by
        refine (Avoids.check fun _ => elim_error_ne he rfl).bind fun _ =>
          (Avoids.check fun _ => ?_).bind fun _ =>
            Avoids.bind ((Avoids.act _).bind fun _ => .check fun _ => elim_error_ne he rfl)
              fun _ => (Avoids.check fun _ => elim_error_ne he rfl).bind fun _ =>
                .check fun _ => openSession_ne he
        unfold CoseEc2Key.toUncompressed
        split
        · exact error_ne_gate he rfl
        · exact ok_ne_gate
      have houtput : ∀ session, Avoids e (sessionOutput session secret : Ctap β _) := by
        intro session
        refine (Avoids.check fun _ => elim_error_ne he rfl).bind fun protocol =>
          (Avoids.read _).bind fun _ => Avoids.bind ?_ fun _ => .check fun _ => mapError_ne he rfl
        cases protocol with
        | one => exact .pure _
        | two => exact .act _
      exact hbegin.bind fun _ => (houtput _).bind fun _ => (Avoids.update _).bind fun _ => .pure _

omit [StorageBackend β] in
theorem avoids_firstExtensions (he : e.gate = true) (request : GetAssertionRequest)
    (credential : Credential) (verified : Bool) :
    Avoids e (firstExtensions request credential verified : Ctap β (Option ExtensionOutputs)) := by
  unfold firstExtensions
  cases request.extensions.filter Extensions.hasAny with
  | none => exact .pure _
  | some extensions =>
      refine Avoids.bind (Avoids.bind ?_ fun _ => .pure _) fun _ => .pure _
      cases extensions.hmacSecret with
      | none => exact .pure _
      | some raw => exact avoids_firstHmacSecret he _ _ _ _

omit [StorageBackend β] in
theorem avoids_openEnumeration (request : GetAssertionRequest) (flags : UInt8) (uvSatisfied : Bool)
    (credential : Credential) :
    Avoids e (openEnumeration request flags uvSatisfied credential : Ctap β Nat) :=
  (Avoids.read _).bind fun _ => .ite ((Avoids.update _).bind fun _ => .pure _)
    ((Avoids.update _).bind fun _ => .pure _)

/-! ## MakeCredential after the gates -/

omit [StorageBackend β] in
theorem avoids_checkPresence (he : e.gate = true) : Avoids e (checkPresence : Ctap β Unit) :=
  (Avoids.act _).bind fun _ => .ensure (ne_of_gate he rfl)

omit [StorageBackend β] in
theorem avoids_randomBytes (len : Nat) : Avoids e (randomBytes len : Ctap β Bytes) :=
  (Avoids.act _).bind fun _ => .pure _

theorem selectAlgorithm_ne (he : e.gate = true) {params : List PublicKeyCredParams} :
    selectAlgorithm build params ≠ .error e := by
  unfold selectAlgorithm
  split
  · exact ok_ne_gate
  · split
    · exact ok_ne_gate
    · exact error_ne_gate he rfl

omit [StorageBackend β] in
theorem checkExcludeList_ne (he : e.gate = true) {a : Auth β} {rpIdHash : Bytes}
    {descriptors : List CredentialDescriptor} :
    checkExcludeList a rpIdHash descriptors ≠ .error e := by
  induction descriptors with
  | nil => exact ok_ne_gate
  | cons descriptor descriptors ih =>
      unfold checkExcludeList
      split
      · exact error_ne_gate he rfl
      · exact ih
      · split
        · exact error_ne_gate he rfl
        · exact ih

theorem requestedCredBlob_ne (he : e.gate = true) {extensions : Option Extensions} :
    requestedCredBlob extensions ≠ .error e := by
  unfold requestedCredBlob
  split
  · split
    · exact error_ne_gate he rfl
    · exact ok_ne_gate
  · exact ok_ne_gate

theorem requestedHmacSecret_ne (he : e.gate = true) {extensions : Option Extensions} :
    requestedHmacSecret extensions ≠ .error e := by
  unfold requestedHmacSecret HmacSecret.parseMakeCredential
  split
  · split
    · exact ok_ne_gate
    · exact error_ne_gate he rfl
  · exact ok_ne_gate

omit [StorageBackend β] in
theorem avoids_newCredential (he : e.gate = true) (request : MakeCredentialRequest)
    (algorithm : Int) (rpIdHash credBlob : Bytes) :
    Avoids e (newCredential build request algorithm rpIdHash credBlob : Ctap β Credential) := by
  have hpair : ∀ generate, Avoids e (drawKeyPair generate : Ctap β (Bytes × Bytes)) := fun _ =>
    (Avoids.act _).bind fun _ => .check fun _ => mapError_ne he rfl
  have hkeys : Avoids e (newKeyPair build algorithm : Ctap β (Bytes × Bytes)) :=
    .ite (hpair _) (.ite (hpair _) (.ite (hpair _) (hpair _)))
  have hblob : Avoids e (newLargeBlobKey request.extensions : Ctap β (Option Bytes)) :=
    .ite ((avoids_randomBytes 32).bind fun _ => .pure _) (.pure _)
  have hrandoms : Avoids e (newCredRandoms request.extensions :
      Ctap β (Option Bytes × Option Bytes)) :=
    (Avoids.check fun _ => requestedHmacSecret_ne he).bind fun _ => .ite
      ((avoids_randomBytes 32).bind fun _ => (avoids_randomBytes 32).bind fun _ => .pure _)
      (.pure _)
  exact (avoids_randomBytes 16).bind fun _ => hkeys.bind fun _ => hblob.bind fun _ =>
    hrandoms.bind fun _ => (Avoids.act _).bind fun _ => .pure _

theorem avoids_storeCredential (he : e.gate = true) (credential : Credential) :
    Avoids e (storeCredential build credential : Ctap β Unit) :=
  (avoids_persist he _ _).bind fun _ => (avoids_randomBytes 12).bind fun _ =>
    (Avoids.read _).bind fun _ => avoids_persist he _ _

theorem attestedCredentialData_ne (he : e.gate = true) {crypto : CryptoEngine}
    {aaguid credentialId publicKey : Bytes} {algorithm : Int} :
    attestedCredentialData build crypto aaguid credentialId algorithm publicKey ≠ .error e := by
  have hkey : attestedKey build crypto algorithm publicKey ≠ .error e := by
    unfold attestedKey
    dsimp only
    repeat' split
    all_goals first | exact ok_ne_gate | exact error_ne_gate he rfl
  exact Except.bind_ne_error hkey fun _ =>
    Except.bind_ne_error (mapError_ne he rfl) fun _ => ok_ne_gate

theorem extensionOutputs_ne (he : e.gate = true) {a : Auth β} {extensions : Option Extensions}
    {credBlob : Bytes} {largeBlobKey : Option Bytes} :
    extensionOutputs a extensions credBlob largeBlobKey ≠ .error e := by
  unfold extensionOutputs
  split
  · exact Except.map_ne_error
      (Except.bind_ne_error (requestedHmacSecret_ne he) fun _ => ok_ne_gate)
  · exact ok_ne_gate

omit [StorageBackend β] in
theorem avoids_attest (he : e.gate = true) (format : AttestationFormat) (data privateKey : Bytes)
    (algorithm : Int) :
    Avoids e (attest build format data privateKey algorithm : Ctap β (List (Int × Value))) := by
  have hsign : ∀ key, Avoids e (signForAttestation build algorithm key data : Ctap β Bytes) :=
    fun _ => (Avoids.ensure (ne_of_gate he rfl)).bind fun _ => avoids_signAssertion build he _ _ _
  have hself : Avoids e (selfAttestation build data privateKey algorithm : Ctap β _) :=
    (hsign _).bind fun _ => .pure _
  unfold attest
  split
  · exact .pure _
  · exact hself
  · refine (Avoids.read _).bind fun certificate => ?_
    cases certificate with
    | none => exact hself
    | some certificate => exact (hsign _).bind fun _ => .pure _
  · exact .check fun _ => error_ne_gate he rfl

theorem avoids_makeCredentialResponse (he : e.gate = true) (request : MakeCredentialRequest)
    (credential : Credential) (verified : Bool) :
    Avoids e (makeCredentialResponse build request credential verified :
      Ctap β MakeCredentialResponse) := by
  have hclear : Avoids e (clearFlag cfgEpPendingKey : Ctap β Unit) := fun _ h => by cases h
  have hpending : Avoids e (consumeEpPending : Ctap β Bool) :=
    (Avoids.read _).bind fun _ => (Avoids.ite hclear (.pure ())).bind fun _ => .pure _
  exact (Avoids.check fun _ => attestedCredentialData_ne build he).bind fun _ =>
    (Avoids.check fun _ => extensionOutputs_ne he).bind fun _ => hpending.bind fun _ =>
      (Avoids.read _).bind fun _ => (avoids_attest build he _ _ _ _).bind fun _ => .pure _

/-! ## The gates -/

end Auth

/-- The settings demand more than a request brings: a verified user, if a PIN is set and the request
asks for verification, or a request that asks for it, under alwaysUv. -/
def StorageEngine.demands {β : Type} [StorageBackend β] (e : StorageEngine β)
    (uv verified : Bool) : Bool :=
  uv && e.isPinSet && !verified || e.isAlwaysUv && !uv

namespace Auth

variable {β : Type} [StorageBackend β] (build : Build)

/-- The checks of a credential operation, once the token is checked. -/
theorem run_authenticate {pinProtocol : Option Nat} {pinUvAuthParam : Option Bytes}
    {clientDataHash : Bytes} {permission : UInt8} {rpId : String} {uv verified : Bool} {a : Auth β}
    (h : verifyPinUvAuthForOperation a pinProtocol pinUvAuthParam clientDataHash permission
      (some rpId) = .ok verified) :
    (authenticateOperation pinProtocol pinUvAuthParam clientDataHash permission rpId uv).run a =
      (if a.storage.demands uv verified then .error .pinRequired else .ok verified, a) := by
  unfold authenticateOperation StorageEngine.demands
  refine (Prog.run_bind_of_ok (Prod.ext h rfl)).trans ?_
  cases hpin : uv && a.storage.isPinSet && !verified with
  | true => exact Prog.run_ensure_bind_error (congrArg not hpin)
  | false =>
      refine (Prog.run_ensure_bind (s := a) (congrArg not hpin)).trans ?_
      cases halways : a.storage.isAlwaysUv && !uv with
      | true => exact Prog.run_ensure_bind_error (congrArg not halways)
      | false => exact Prog.run_ensure_bind (congrArg not halways)

omit [StorageBackend β] in
theorem verify_ne (he : e.gate = true) {pinProtocol : Option Nat}
    {pinUvAuthParam : Option Bytes} {message : Bytes} {permission : UInt8} {rpId : Option String}
    {a : Auth β} :
    verifyPinUvAuthForOperation a pinProtocol pinUvAuthParam message permission rpId ≠
      .error e := by
  unfold verifyPinUvAuthForOperation
  split
  · exact ok_ne_gate
  · exact error_ne_gate he rfl
  · exact error_ne_gate he rfl
  · refine Except.bind_ne_error ?_ fun _ => Except.bind_ne_error ?_ fun _ => ok_ne_gate
    · unfold verifyPinUvAuthMessage
      repeat' split
      all_goals first | exact ok_ne_gate | exact error_ne_gate he rfl
    · unfold checkTokenScope
      repeat' split
      all_goals first | exact ok_ne_gate | exact error_ne_gate he rfl

/-- What follows the gates does not answer for them. -/
theorem gated_iff {α : Type} {k : Bool → Ctap β α}
    (hk : ∀ verified, Avoids .pinRequired (k verified))
    {pinProtocol : Option Nat} {pinUvAuthParam : Option Bytes} {clientDataHash : Bytes}
    {permission : UInt8} {rpId : String} {uv : Bool} {a : Auth β} :
    ((authenticateOperation pinProtocol pinUvAuthParam clientDataHash permission rpId uv >>=
        k).run a).1 = .error .pinRequired ↔
      ∃ verified, verifyPinUvAuthForOperation a pinProtocol pinUvAuthParam clientDataHash
          permission (some rpId) = .ok verified ∧ a.storage.demands uv verified = true := by
  cases hverify : verifyPinUvAuthForOperation a pinProtocol pinUvAuthParam clientDataHash permission
      (some rpId) with
  | error error =>
      have hrun : (authenticateOperation pinProtocol pinUvAuthParam clientDataHash permission rpId
          uv).run a = (.error error, a) := by
        unfold authenticateOperation
        exact Prog.run_bind_of_error (Prod.ext hverify rfl)
      rw [Prog.run_bind_of_error hrun]
      refine iff_of_false (fun h => ?_) (by rintro ⟨verified, h, -⟩; cases h)
      exact verify_ne (e := .pinRequired) rfl (hverify.trans (congrArg _ (Except.error.inj h)))
  | ok verified =>
      have hrun : (authenticateOperation pinProtocol pinUvAuthParam clientDataHash permission rpId
          uv).run a = (if a.storage.demands uv verified then .error .pinRequired else .ok verified,
            a) := run_authenticate hverify
      cases hdemands : a.storage.demands uv verified with
      | true =>
          rw [hdemands] at hrun
          rw [Prog.run_bind_of_error hrun]
          exact iff_of_true rfl ⟨verified, rfl, hdemands⟩
      | false =>
          rw [hdemands] at hrun
          rw [Prog.run_bind_of_ok hrun]
          refine iff_of_false (hk verified a) ?_
          rintro ⟨verified', heq, htrue⟩
          cases heq
          rw [hdemands] at htrue
          cases htrue

omit [StorageBackend β] in
theorem selectNamed_ne (he : e.gate = true) {a : Auth β} {rpIdHash : Bytes} {uvSatisfied : Bool}
    {descriptors : List CredentialDescriptor} :
    selectNamed a rpIdHash uvSatisfied descriptors ≠ .error e := by
  induction descriptors with
  | nil => exact ok_ne_gate
  | cons descriptor descriptors ih =>
      unfold selectNamed
      split
      · exact error_ne_gate he rfl
      · exact ih
      · split
        · exact ok_ne_gate
        · exact ih

/-- MakeCredential fails with PIN_REQUIRED exactly if the settings demand more than its request
brings. -/
theorem makeCredential_pinRequired_iff (request : MakeCredentialRequest) (a : Auth β) :
    ((makeCredential build request).run a).1 = .error .pinRequired ↔
      ∃ verified, verifyPinUvAuthForOperation a request.pinProtocol request.pinUvAuthParam
          request.clientDataHash permissionMc (some request.rp.id) = .ok verified ∧
        a.storage.demands request.options.uv verified = true := by
  have he : Ctap2Error.gate .pinRequired = true := rfl
  exact gated_iff fun verified =>
    (Avoids.ite (avoids_checkPresence he) (.pure ())).bind fun _ => (Avoids.read _).bind fun _ =>
      (Avoids.check fun _ => selectAlgorithm_ne build he).bind fun _ =>
      (Avoids.check fun _ => checkExcludeList_ne he).bind fun _ =>
      (Avoids.check fun _ => requestedCredBlob_ne he).bind fun _ =>
      (avoids_newCredential build he _ _ _ _).bind fun _ =>
      (avoids_storeCredential build he _).bind fun _ => avoids_makeCredentialResponse build he _ _ _

/-- So does GetAssertion. -/
theorem getAssertion_pinRequired_iff (request : GetAssertionRequest) (a : Auth β) :
    ((getAssertion build request).run a).1 = .error .pinRequired ↔
      ∃ verified, verifyPinUvAuthForOperation a request.pinProtocol request.pinUvAuthParam
          request.clientDataHash permissionGa (some request.rpId) = .ok verified ∧
        a.storage.demands request.options.uv verified = true := by
  have he : Ctap2Error.gate .pinRequired = true := rfl
  have hselect : ∀ (b : Auth β) (uvSatisfied : Bool),
      selectCredential b request uvSatisfied ≠ .error .pinRequired := by
    intro b uvSatisfied
    unfold selectCredential
    split
    · next error hnamed =>
        exact fun heq => selectNamed_ne he (hnamed.trans (congrArg _ (Except.error.inj heq)))
    · exact ok_ne_gate
    · split
      · simp
      · exact ok_ne_gate
  exact gated_iff fun verified =>
    (Avoids.ite (avoids_checkPresence he) (.pure ())).bind fun _ => (Avoids.read _).bind fun _ =>
      (Avoids.check fun b => hselect b _).bind fun _ => (Avoids.read _).bind fun _ =>
      (avoids_signCounted build he _ _ _ _).bind fun _ => (avoids_firstExtensions he _ _ _).bind
        fun _ => (avoids_openEnumeration _ _ _ _).bind fun _ => .pure _

end Auth

end OpenKey
