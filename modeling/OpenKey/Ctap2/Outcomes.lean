import OpenKey.Ctap2.Moves

/-!
# What a successful command has done

For the two operations that use credentials, everything a successful answer tells about the state
it was computed in: the verdict on the token, the credential that was selected, the counter that
was taken, and what is left for GetNextAssertion.
-/

namespace OpenKey

open Prog (Keeps bind_eq_ok check_eq_ok ensure_eq_ok map_eq_ok)
open Std

set_option autoImplicit false

/-! ## Authenticator data -/

/-- The flag UV of authenticator data, in byte 32. -/
def uvFlag (authData : Bytes) : Bool := (authData.getD 32 0) &&& flagUv != 0

theorem uvFlag_header {rpIdHash : Bytes} (flags : UInt8) (n : Nat) (rest : Bytes)
    (hlen : rpIdHash.length = 32) :
    uvFlag (authDataHeader rpIdHash flags n ++ rest) = (flags &&& flagUv != 0) := by
  have hget : (authDataHeader rpIdHash flags n ++ rest)[32]? = some flags := by
    unfold authDataHeader
    rw [List.append_assoc, List.getElem?_append_right (by omega), hlen]
    rfl
  unfold uvFlag
  rw [List.getD_eq_getElem?_getD, hget]
  rfl

theorem uvFlag_assertionFlags (up verified : Bool) :
    (Auth.assertionFlags up verified &&& flagUv != 0) = verified := by
  cases up <;> cases verified <;> decide

/-- The flags of a new credential. -/
def Auth.creationFlags (up verified : Bool) : UInt8 :=
  flagAt ||| flagIf up flagUp ||| flagIf verified flagUv

theorem uvFlag_creationFlags (up verified : Bool) :
    (Auth.creationFlags up verified &&& flagUv != 0) = verified := by
  cases up <;> cases verified <;> decide

theorem length_hashRpId (rpId : String) (crypto : CryptoEngine) :
    (hashRpId rpId crypto).length = 32 := crypto.length_sha256 _

namespace StorageEngine

variable {β : Type} [StorageBackend β] (codec : Codec StoredCredential)

theorem credentials_rewriteCredential (id : Bytes) (s : StoredCredential) (e : StorageEngine β) :
    ((rewriteCredential codec id s).run e).2.credentials = e.credentials.insert id s := by
  unfold rewriteCredential writeCredential
  rw [Prog.run_update_bind]
  obtain ⟨backend, hsnd⟩ := onBackend_snd (StorageBackend.write (credKey id) (codec.encode s))
    { e with credentials := e.credentials.insert id s }
  rw [hsnd]

/-- A sign count is only updated for a stored credential, and nothing else of it changes. -/
theorem updateSignCount_ok {id : Bytes} {n : Nat} {e e' : StorageEngine β}
    (h : (updateSignCount codec id n).run e = (.ok (), e')) :
    ∃ s : StoredCredential, e.credentials[id]? = some s ∧ e'.credentials =
      e.credentials.insert id { s with credential := { s.credential with signCount := n } } := by
  unfold updateSignCount at h
  rw [Prog.run_read_bind] at h
  cases hs : e.credentials[id]? with
  | none =>
      rw [hs] at h
      cases h
  | some s =>
      rw [hs] at h
      refine ⟨s, rfl, ?_⟩
      rw [← credentials_rewriteCredential codec]
      exact (congrArg (fun r => r.2.credentials) h).symm

end StorageEngine

namespace Auth

variable {β : Type} [StorageBackend β] (build : Build)

/-! ## The token -/

/-- A request is authenticated by the token in force, for an operation and a relying party. -/
def Authorised (a : Auth β) (pinProtocol : Option Nat) (pinUvAuthParam : Option Bytes)
    (message : Bytes) (permission : UInt8) (rpId : Option String) : Prop :=
  ∃ version protocol token param, pinProtocol = some version ∧ pinUvAuthParam = some param ∧
    a.pinUvAuthToken = some token ∧ token.protocol = version ∧
    PinUvProtocol.new version = some protocol ∧
    protocol.authenticate a.crypto.prims token.token message = .ok param ∧
    token.permissions &&& permission = permission ∧
    ∀ bound, token.permissionsRpId = some bound → rpId = some bound

omit [StorageBackend β] in
theorem verifyPinUvAuthMessage_ok {a : Auth β} {version : Nat} {param message : Bytes} :
    verifyPinUvAuthMessage a version param message = .ok () ↔
      ∃ token protocol, a.pinUvAuthToken = some token ∧ token.protocol = version ∧
        PinUvProtocol.new version = some protocol ∧
        protocol.authenticate a.crypto.prims token.token message = .ok param := by
  unfold verifyPinUvAuthMessage
  cases htoken : a.pinUvAuthToken with
  | none => simp
  | some token =>
      by_cases hversion : token.protocol = version
      · subst hversion
        cases hnew : PinUvProtocol.new token.protocol with
        | none => simp [hnew]
        | some protocol =>
            cases hmac : protocol.authenticate a.crypto.prims token.token message with
            | error text => simp [hnew, hmac]
            | ok mac =>
                by_cases hparam : mac = param
                · simp [hnew, hmac, hparam]
                · simp [hnew, hmac, hparam]
      · simp [hversion]

omit [StorageBackend β] in
theorem checkTokenScope_ok {a : Auth β} {permission : UInt8} {rpId : Option String} :
    checkTokenScope a permission rpId = .ok () ↔
      ∃ token, a.pinUvAuthToken = some token ∧ token.permissions &&& permission = permission ∧
        ∀ bound, token.permissionsRpId = some bound → rpId = some bound := by
  unfold checkTokenScope
  cases htoken : a.pinUvAuthToken with
  | none => simp
  | some token =>
      by_cases hperm : token.permissions &&& permission = permission
      · cases hbound : token.permissionsRpId with
        | none => simp [hperm, hbound]
        | some bound =>
            by_cases hrp : rpId = some bound
            · simp [hperm, hbound, hrp]
            · simp [hperm, hbound, hrp]
      · simp [hperm]

omit [StorageBackend β] in
/-- The verdict on a request is positive exactly when it is authorised. -/
theorem verifyPinUvAuthForOperation_true {a : Auth β} {pinProtocol : Option Nat}
    {pinUvAuthParam : Option Bytes} {message : Bytes} {permission : UInt8} {rpId : Option String} :
    verifyPinUvAuthForOperation a pinProtocol pinUvAuthParam message permission rpId = .ok true ↔
      Authorised a pinProtocol pinUvAuthParam message permission rpId := by
  unfold verifyPinUvAuthForOperation
  cases pinProtocol with
  | none => cases pinUvAuthParam <;> simp [Authorised]
  | some version =>
      cases pinUvAuthParam with
      | none => simp [Authorised]
      | some param =>
          constructor
          · intro h
            cases hmessage : verifyPinUvAuthMessage a version param message with
            | error error => simp [hmessage, bind, Except.bind] at h
            | ok u =>
                cases hscope : checkTokenScope a permission rpId with
                | error error => simp [hmessage, hscope, bind, Except.bind] at h
                | ok u =>
                    obtain ⟨token, protocol, htoken, hversion, hnew, hmac⟩ :=
                      verifyPinUvAuthMessage_ok.mp hmessage
                    obtain ⟨token', htoken', hperm, hbound⟩ := checkTokenScope_ok.mp hscope
                    obtain rfl : token = token' := Option.some.inj (htoken.symm.trans htoken')
                    exact ⟨version, protocol, token, param, rfl, rfl, htoken, hversion, hnew, hmac,
                      hperm, hbound⟩
          · rintro ⟨version', protocol, token, param', hv, hp, htoken, hversion, hnew, hmac, hperm,
              hbound⟩
            cases hv
            cases hp
            have hmessage : verifyPinUvAuthMessage a version param message = .ok () :=
              verifyPinUvAuthMessage_ok.mpr ⟨token, protocol, htoken, hversion, hnew, hmac⟩
            have hscope : checkTokenScope a permission rpId = .ok () :=
              checkTokenScope_ok.mpr ⟨token, htoken, hperm, hbound⟩
            simp [hmessage, hscope, bind, Except.bind]

omit [StorageBackend β] in
/-- A request that names a protocol and a parameter is refused or authorised. -/
theorem authorised_of_verify {a : Auth β} {version : Nat} {param message : Bytes}
    {permission : UInt8} {rpId : Option String} {verified : Bool}
    (h : verifyPinUvAuthForOperation a (some version) (some param) message permission rpId =
      .ok verified) :
    Authorised a (some version) (some param) message permission rpId := by
  cases verified with
  | true => exact verifyPinUvAuthForOperation_true.mp h
  | false =>
      unfold verifyPinUvAuthForOperation at h
      cases hmessage : verifyPinUvAuthMessage a version param message with
      | error error => simp [hmessage, bind, Except.bind] at h
      | ok u =>
          cases hscope : checkTokenScope a permission rpId with
          | error error => simp [hmessage, hscope, bind, Except.bind] at h
          | ok u => simp [hmessage, hscope, bind, Except.bind] at h

theorem authenticateOperation_ok {pinProtocol : Option Nat} {pinUvAuthParam : Option Bytes}
    {clientDataHash : Bytes} {permission : UInt8} {rpId : String} {uv verified : Bool}
    {a b : Auth β} (h : (authenticateOperation pinProtocol pinUvAuthParam clientDataHash permission
      rpId uv).run a = (.ok verified, b)) :
    a = b ∧ verifyPinUvAuthForOperation a pinProtocol pinUvAuthParam clientDataHash permission
        (some rpId) = .ok verified ∧
      (uv = true → a.storage.isPinSet = true → verified = true) ∧
      (a.storage.isAlwaysUv = true → uv = true) := by
  obtain ⟨v, a₁, h₁, h⟩ := bind_eq_ok.mp h
  obtain ⟨hverify, rfl⟩ := check_eq_ok.mp h₁
  obtain ⟨_, a₂, h₂, h⟩ := bind_eq_ok.mp h
  obtain ⟨hpin, rfl⟩ := ensure_eq_ok.mp h₂
  obtain ⟨_, a₃, h₃, h⟩ := bind_eq_ok.mp h
  obtain ⟨halways, rfl⟩ := ensure_eq_ok.mp h₃
  cases h
  refine ⟨rfl, hverify, fun huv hset => ?_, fun hal => ?_⟩
  · simpa [huv, hset] using hpin
  · simpa [hal] using halways

omit [StorageBackend β] in
theorem verifyPinUvAuthForOperation_congr {a b : Auth β} (hcore : b.core = a.core)
    (pinProtocol : Option Nat) (pinUvAuthParam : Option Bytes) (message : Bytes)
    (permission : UInt8) (rpId : Option String) :
    verifyPinUvAuthForOperation b pinProtocol pinUvAuthParam message permission rpId =
      verifyPinUvAuthForOperation a pinProtocol pinUvAuthParam message permission rpId := by
  have htoken : b.pinUvAuthToken = a.pinUvAuthToken := congrArg Core.token hcore
  have hcrypto : b.crypto = a.crypto := congrArg Core.crypto hcore
  simp only [verifyPinUvAuthForOperation, verifyPinUvAuthMessage, checkTokenScope, htoken, hcrypto]

/-! ## Storage calls -/

omit [StorageBackend β] in
theorem persist_ok {α : Type} {mark : Mark} {m : Prog (StorageEngine β) EngineError α} {x : α}
    {a b : Auth β} (h : (persist mark m).run a = (.ok x, b)) :
    ∃ e, m.run a.storage = (.ok x, e) ∧ b =
      { a with storage := e, log := .stored e mark :: a.log } := by
  refine ⟨(m.run a.storage).2, Prod.ext ?_ rfl, (congrArg Prod.snd h).symm⟩
  have hres : (m.run a.storage).1.mapError (fun _ => Ctap2Error.unknown) = .ok x :=
    congrArg Prod.fst h
  cases hm : (m.run a.storage).1 with
  | error error =>
      rw [hm] at hres
      cases hres
  | ok y =>
      rw [hm] at hres
      cases hres
      rfl

/-! ## Assertions -/

section Lawful

variable [LawfulBackend β]

/-- The counter is taken and saved before it is used. -/
theorem nextSignCount_ok {a b : Auth β} {n : Nat} (h : nextSignCount.run a = (.ok n, b)) :
    n = a.storage.signCounter + 1 ∧ n < 2 ^ 32 ∧ ∃ e : StorageEngine β,
      StorageEngine.Saved signCounterStorageKey (some (utf8 (toString n))) a.storage e ∧
      b = { a with storage := e, log := .stored e .ordinary :: a.log } := by
  unfold nextSignCount at h
  rw [Prog.run_read_bind] at h
  obtain ⟨_, a₁, h₁, h⟩ := bind_eq_ok.mp h
  obtain ⟨hlt, rfl⟩ := ensure_eq_ok.mp h₁
  obtain ⟨_, a₂, h₂, h⟩ := bind_eq_ok.mp h
  cases h
  obtain ⟨e, he, rfl⟩ := persist_ok h₂
  refine ⟨rfl, of_decide_eq_true hlt, e, ?_, rfl⟩
  rw [storeDecimal, StorageEngine.run_store] at he
  cases he
  exact StorageEngine.saved_store _ _ a.storage

/-- A signed assertion: the counter it carries, and the two storage calls it made. -/
theorem signCounted_ok {credential : Credential} {rpIdHash clientDataHash : Bytes} {flags : UInt8}
    {a b : Auth β} {r : Assertion}
    (h : (signCounted build credential rpIdHash flags clientDataHash).run a = (.ok r, b)) :
    a.storage.signCounter + 1 < 2 ^ 32 ∧
      r.authData = authDataHeader rpIdHash flags (a.storage.signCounter + 1) ∧
      ∃ e e' : StorageEngine β,
        StorageEngine.Saved signCounterStorageKey
          (some (utf8 (toString (a.storage.signCounter + 1)))) a.storage e ∧
        (StorageEngine.updateSignCount build.codec credential.credentialId
          (a.storage.signCounter + 1)).run e = (.ok (), e') ∧
        b.core = { a.core with
          storage := e', log := .stored e' .ordinary :: .stored e .ordinary :: a.log } := by
  obtain ⟨n, a₁, h₁, h⟩ := bind_eq_ok.mp h
  obtain ⟨rfl, hlt, e, hsaved, rfl⟩ := nextSignCount_ok h₁
  obtain ⟨_, a₂, h₂, h⟩ := bind_eq_ok.mp h
  obtain ⟨signature, a₃, h₃, h⟩ := bind_eq_ok.mp h
  cases h
  obtain ⟨e', hupdate, rfl⟩ := persist_ok h₂
  exact ⟨hlt, rfl, e, e', hsaved, hupdate, core_of_quiet (quiet_signAssertion build _ _ _) h₃⟩

theorem uvFlag_signed {credential : Credential} {rpIdHash clientDataHash : Bytes} {flags : UInt8}
    {a b : Auth β} {r : Assertion} (hlen : rpIdHash.length = 32)
    (h : (signCounted build credential rpIdHash flags clientDataHash).run a = (.ok r, b)) :
    uvFlag r.authData = (flags &&& flagUv != 0) := by
  obtain ⟨-, hdata, -⟩ := signCounted_ok build h
  rw [hdata, ← List.append_nil (authDataHeader _ _ _), uvFlag_header _ _ _ hlen]

end Lawful

/-- The state a GetAssertion leaves for GetNextAssertion. -/
def leftState (request : GetAssertionRequest) (verified uvSatisfied : Bool) (index : Nat) :
    GetNextAssertionState where
  rpId := request.rpId
  clientDataHash := request.clientDataHash
  allowList := request.named
  flags := assertionFlags request.options.up verified
  extensions := request.extensions
  uvSatisfied := uvSatisfied
  currentIndex := index

omit [StorageBackend β] in
theorem openEnumeration_ok {request : GetAssertionRequest} {verified uvSatisfied : Bool}
    {credential : Credential} {a b : Auth β} {total : Nat}
    (h : (openEnumeration request (assertionFlags request.options.up verified) uvSatisfied
      credential).run a = (.ok total, b)) :
    (1 < total ∧ ∃ index, b.core =
      { a.core with next := some (leftState request verified uvSatisfied index) }) ∨
    (¬1 < total ∧ b.core = a.core) := by
  unfold openEnumeration at h
  rw [Prog.run_read_bind] at h
  split at h
  · next hmany =>
      cases h
      exact .inl ⟨hmany, _, rfl⟩
  · next hfew =>
      cases h
      exact .inr ⟨hfew, rfl⟩

/-- What a successful GetAssertion tells. -/
structure Asserted (request : GetAssertionRequest) (verified : Bool) (credential : Credential)
    (a : Auth β) (r : GetAssertionResponse) (b : Auth β) : Prop where
  verdict : verifyPinUvAuthForOperation a request.pinProtocol request.pinUvAuthParam
    request.clientDataHash permissionGa (some request.rpId) = .ok verified
  pin : request.options.uv = true → a.storage.isPinSet = true → verified = true
  always : a.storage.isAlwaysUv = true → request.options.uv = true
  selected : selectCredential a request (a.credProtectUvSatisfied verified) = .ok credential
  descriptor : r.credential = some (descriptorOf credential)
  signed : ∃ a₁ a₂ assertion, a₁.core = a.core ∧
    (signCounted build credential (hashRpId request.rpId a.crypto)
      (assertionFlags request.options.up verified) request.clientDataHash).run a₁ =
        (.ok assertion, a₂) ∧
    r.authData = assertion.authData ∧
    ((r.numberOfCredentials.isSome = true ∧ ∃ index, b.core = { a₂.core with
        next := some (leftState request verified (a.credProtectUvSatisfied verified) index) }) ∨
      (r.numberOfCredentials = none ∧ b.core = a₂.core))

omit [StorageBackend β] in
/-- Selection reads the storage and the keys only. -/
theorem selectCredential_congr {a b : Auth β} (hcore : b.core = a.core)
    (request : GetAssertionRequest) (uvSatisfied : Bool) :
    selectCredential b request uvSatisfied = selectCredential a request uvSatisfied := by
  have hstorage : b.storage = a.storage := congrArg Core.storage hcore
  have hcrypto : b.crypto = a.crypto := congrArg Core.crypto hcore
  have hnamed : ∀ rpIdHash descriptors, selectNamed b rpIdHash uvSatisfied descriptors =
      selectNamed a rpIdHash uvSatisfied descriptors := by
    intro rpIdHash descriptors
    induction descriptors with
    | nil => rfl
    | cons descriptor rest ih => simp only [selectNamed, hstorage, hcrypto, ih]
  simp only [selectCredential, hnamed, discoverable, hstorage, hcrypto]

/-- The steps of a successful GetAssertion from `a` to `b`: `a₁` is the state after the checks,
`a₂` the state after signing and `a₃` the state after the extensions. -/
structure AssertionSteps (request : GetAssertionRequest) (verified : Bool) (credential : Credential)
    (assertion : Assertion) (extensions : Option ExtensionOutputs) (total : Nat)
    (a a₁ a₂ a₃ : Auth β) (r : GetAssertionResponse) (b : Auth β) : Prop where
  verdict : verifyPinUvAuthForOperation a request.pinProtocol request.pinUvAuthParam
    request.clientDataHash permissionGa (some request.rpId) = .ok verified
  pin : request.options.uv = true → a.storage.isPinSet = true → verified = true
  always : a.storage.isAlwaysUv = true → request.options.uv = true
  checked : a₁.core = a.core
  session : a₁.hmacSecretSession = a.hmacSecretSession
  agreement : a₁.pinAgreementKey = a.pinAgreementKey
  selected : selectCredential a request (a.credProtectUvSatisfied verified) = .ok credential
  signed : (signCounted build credential (hashRpId request.rpId a.crypto)
    (assertionFlags request.options.up verified) request.clientDataHash).run a₁ =
      (.ok assertion, a₂)
  extended : (firstExtensions request credential verified).run a₂ = (.ok extensions, a₃)
  opened : (openEnumeration request (assertionFlags request.options.up verified)
    (a.credProtectUvSatisfied verified) credential).run a₃ = (.ok total, b)
  response : r =
    { credential := some (descriptorOf credential)
      authData := assertion.authData
      signature := assertion.signature
      user := some (userOf credential)
      numberOfCredentials := if total > 1 then some (asU16 total) else none
      extensions := extensions }

/-- The user confirms the next request. -/
def present (a : Auth β) : Bool := a.userPresence.all fun answers => answers 0

omit [StorageBackend β] in
theorem run_checkPresence (a : Auth β) : ∃ b : Auth β, b.core = a.core ∧
    b.hmacSecretSession = a.hmacSecretSession ∧
    checkPresence.run a = (if a.present then .ok () else .error .operationDenied, b) := by
  unfold checkPresence
  rw [Prog.run_act_bind, Prog.run_ensure]
  cases h : a.userPresence with
  | none =>
      refine ⟨a, rfl, rfl, ?_⟩
      simp [present, h]
  | some answers =>
      refine ⟨{ a with userPresence := some fun n => answers (n + 1) }, rfl, rfl, ?_⟩
      simp [present, h]

omit [StorageBackend β] in
/-- The check of the presence button touches neither the session nor the agreement key. -/
theorem presence_ok {c : Bool} {a b : Auth β} {result : Except Ctap2Error Unit}
    (h : (Prog.when c checkPresence).run a = (result, b)) :
    b.hmacSecretSession = a.hmacSecretSession ∧ b.pinAgreementKey = a.pinAgreementKey := by
  let same : Prog.Frame (Auth β) := .constant fun a => (a.hmacSecretSession, a.pinAgreementKey)
  have hkeeps : Keeps same (Prog.when c checkPresence) := by
    refine .when fun _ => Keeps.bind (.act fun a => ?_) fun _ => .ensure _ _
    cases a.userPresence <;> rfl
  exact Prod.mk.inj (hkeeps.of_run h)

theorem getAssertion_steps {request : GetAssertionRequest} {a b : Auth β} {r : GetAssertionResponse}
    (h : (getAssertion build request).run a = (.ok r, b)) :
    ∃ verified credential assertion extensions total a₁ a₂ a₃,
      AssertionSteps build request verified credential assertion extensions total a
        a₁ a₂ a₃ r b := by
  obtain ⟨verified, a₁, h₁, h⟩ := bind_eq_ok.mp h
  obtain ⟨rfl, hverdict, hpin, halways⟩ := authenticateOperation_ok h₁
  obtain ⟨_, a₂, h₂, h⟩ := bind_eq_ok.mp h
  have hcore : a₂.core = a.core := core_of_quiet (.when fun _ => quiet_checkPresence) h₂
  have hstorage : a₂.storage = a.storage := congrArg Core.storage hcore
  have hcrypto : a₂.crypto = a.crypto := congrArg Core.crypto hcore
  rw [Prog.run_read_bind, credProtectUvSatisfied, hstorage] at h
  obtain ⟨credential, a₃, h₃, h⟩ := bind_eq_ok.mp h
  obtain ⟨hselect, rfl⟩ := check_eq_ok.mp h₃
  rw [Prog.run_read_bind, hcrypto] at h
  obtain ⟨assertion, a₄, h₄, h⟩ := bind_eq_ok.mp h
  obtain ⟨extensions, a₅, h₅, h⟩ := bind_eq_ok.mp h
  obtain ⟨total, a₆, h₆, h⟩ := bind_eq_ok.mp h
  cases h
  obtain ⟨hsession, hkey⟩ := presence_ok h₂
  exact ⟨verified, credential, assertion, extensions, total, a₂, a₄, a₅, hverdict, hpin, halways,
    hcore, hsession, hkey, (selectCredential_congr hcore request _) ▸ hselect, h₄, h₅, h₆, rfl⟩

theorem AssertionSteps.asserted {request : GetAssertionRequest} {verified : Bool}
    {credential : Credential} {assertion : Assertion} {extensions : Option ExtensionOutputs}
    {total : Nat} {a a₁ a₂ a₃ b : Auth β} {r : GetAssertionResponse}
    (h : AssertionSteps build request verified credential assertion extensions total
      a a₁ a₂ a₃ r b) :
    Asserted build request verified credential a r b := by
  obtain ⟨hverdict, hpin, halways, hcore, -, -, hselect, hsigned, hextended, hopened, rfl⟩ := h
  have hcore₃ : a₃.core = a₂.core := core_of_quiet (quiet_firstExtensions _ _ _) hextended
  refine ⟨hverdict, hpin, halways, hselect, rfl, a₁, a₂, assertion, hcore, hsigned, rfl, ?_⟩
  obtain ⟨hmany, index, hb⟩ | ⟨hfew, hb⟩ := openEnumeration_ok hopened
  · refine .inl ⟨by simp [hmany], index, ?_⟩
    rw [hb, hcore₃]
  · refine .inr ⟨by simp [hfew], ?_⟩
    rw [hb, hcore₃]

theorem getAssertion_ok {request : GetAssertionRequest} {a b : Auth β} {r : GetAssertionResponse}
    (h : (getAssertion build request).run a = (.ok r, b)) :
    ∃ verified credential, Asserted build request verified credential a r b := by
  obtain ⟨verified, credential, assertion, extensions, total, a₁, a₂, a₃, hsteps⟩ :=
    getAssertion_steps build h
  exact ⟨verified, credential, hsteps.asserted build⟩

theorem Asserted.of_core {request : GetAssertionRequest} {verified : Bool} {credential : Credential}
    {a a' b : Auth β} {r : GetAssertionResponse}
    (h : Asserted build request verified credential a' r b) (hcore : a'.core = a.core) :
    Asserted build request verified credential a r b := by
  have hstorage : a'.storage = a.storage := congrArg Core.storage hcore
  have hcrypto : a'.crypto = a.crypto := congrArg Core.crypto hcore
  obtain ⟨hverdict, hpin, halways, hselected, hdescriptor, hsigned⟩ := h
  rw [verifyPinUvAuthForOperation_congr hcore] at hverdict
  rw [selectCredential_congr hcore, credProtectUvSatisfied, hstorage] at hselected
  rw [credProtectUvSatisfied, hstorage, hcrypto, hcore] at hsigned
  rw [hstorage] at hpin halways
  exact ⟨hverdict, hpin, halways, hselected, hdescriptor, hsigned⟩

/-- What a successful GetNextAssertion tells. -/
structure AssertedNext (state : GetNextAssertionState) (credential : Credential) (a : Auth β)
    (r : GetAssertionResponse) (b : Auth β) : Prop where
  opened : a.getNextAssertionState = some state
  found : ∃ id, (findMatchingCredentials a state.rpId state.allowList
      state.uvSatisfied)[state.currentIndex + 1]? = some id ∧
    a.storage.getCredential id a.crypto = .ok (some credential)
  descriptor : r.credential = some (descriptorOf credential)
  signed : ∃ a₁ assertion, a₁.core =
      { a.core with next := some { state with currentIndex := state.currentIndex + 1 } } ∧
    (signCounted build credential (a.crypto.sha256 (utf8 credential.rpId)) state.flags
      state.clientDataHash).run a₁ = (.ok assertion, b) ∧
    r.authData = assertion.authData

omit [StorageBackend β] in
theorem takeNextState_ok {a b : Auth β} {state : GetNextAssertionState}
    (h : takeNextState.run a = (.ok state, b)) :
    a.getNextAssertionState = some state ∧ b = { a with getNextAssertionState := none } := by
  unfold takeNextState at h
  rw [Prog.run_act_bind] at h
  obtain ⟨hstate, rfl⟩ := check_eq_ok.mp h
  cases hopt : a.getNextAssertionState with
  | none =>
      rw [hopt] at hstate
      cases hstate
  | some state' =>
      rw [hopt] at hstate
      cases hstate
      exact ⟨rfl, rfl⟩

omit [StorageBackend β] in
theorem nextMatch_ok {state : GetNextAssertionState} {found : List Bytes} {id : Bytes}
    {a b : Auth β} (h : (nextMatch state found).run a = (.ok id, b)) :
    found[state.currentIndex + 1]? = some id ∧ b = a := by
  unfold nextMatch at h
  split at h
  · next heq =>
      cases h
      exact ⟨heq, rfl⟩
  · cases h

omit [StorageBackend β] in
theorem loadCredential_ok {id : Bytes} {credential : Credential} {a b : Auth β}
    (h : (loadCredential id).run a = (.ok credential, b)) :
    a.storage.getCredential id a.crypto = .ok (some credential) ∧ b = a := by
  obtain ⟨hload, rfl⟩ := check_eq_ok.mp h
  refine ⟨?_, rfl⟩
  split at hload
  · next heq =>
      cases hload
      exact heq
  · cases hload
  · cases hload

/-- The steps of a successful GetNextAssertion from `a` to `b`: `a₁` is the state after the
hmac-secret output, and `found` are the matches. -/
structure ChainedSteps (state : GetNextAssertionState) (credential : Credential)
    (found : List Bytes) (chained : Option Value) (assertion : Assertion) (a a₁ : Auth β)
    (r : GetAssertionResponse) (b : Auth β) : Prop where
  opened : a.getNextAssertionState = some state
  matches_eq : found = findMatchingCredentials a state.rpId state.allowList state.uvSatisfied
  loaded : ∃ id, found[state.currentIndex + 1]? = some id ∧
    a.storage.getCredential id a.crypto = .ok (some credential)
  hmac : (chainedHmacSecret state credential).run { a with getNextAssertionState := none } =
    (.ok chained, a₁)
  signed : (signCounted build credential (a.crypto.sha256 (utf8 credential.rpId)) state.flags
    state.clientDataHash).run
      { a₁ with
        hmacSecretSession :=
          if found.length ≤ state.currentIndex + 2 then none else a₁.hmacSecretSession
        getNextAssertionState := some { state with currentIndex := state.currentIndex + 1 } } =
    (.ok assertion, b)
  response : r =
    { credential := some (descriptorOf credential)
      authData := assertion.authData
      signature := assertion.signature
      user := some (userOf credential)
      numberOfCredentials := some (asU16 found.length)
      extensions := chained.map fun output =>
        { ExtensionOutputs.default with hmacSecret := some output } }

omit [StorageBackend β] in
theorem run_when_endHmacSession (c : Bool) (a : Auth β) :
    (Prog.when c endHmacSession).run a =
      (.ok (), { a with hmacSecretSession := if c then none else a.hmacSecretSession }) := by
  cases c <;> rfl

theorem handleGetNextAssertion_steps {a b : Auth β} {r : GetAssertionResponse}
    (h : (handleGetNextAssertion build).run a = (.ok r, b)) :
    ∃ state credential found chained assertion a₁,
      ChainedSteps build state credential found chained assertion a a₁ r b := by
  obtain ⟨state, a₁, h₁, h⟩ := bind_eq_ok.mp h
  obtain ⟨hopened, rfl⟩ := takeNextState_ok h₁
  rw [Prog.run_read_bind] at h
  obtain ⟨id, a₂, h₂, h⟩ := bind_eq_ok.mp h
  obtain ⟨hid, rfl⟩ := nextMatch_ok h₂
  obtain ⟨credential, a₃, h₃, h⟩ := bind_eq_ok.mp h
  obtain ⟨hload, rfl⟩ := loadCredential_ok h₃
  obtain ⟨chained, a₄, h₄, h⟩ := bind_eq_ok.mp h
  have hcore₄ := core_of_quiet (quiet_chainedHmacSecret _ _) h₄
  have hcrypto : a₄.crypto = a.crypto := congrArg Core.crypto hcore₄
  rw [Prog.run_bind_of_ok (run_when_endHmacSession _ a₄), Prog.run_update_bind] at h
  unfold buildGetAssertionResponse at h
  rw [Prog.run_read_bind] at h
  obtain ⟨assertion, a₆, h₆, h⟩ := bind_eq_ok.mp h
  cases h
  refine ⟨state, credential, _, chained, assertion, a₄, hopened, rfl, ⟨id, hid, hload⟩, h₄, ?_, rfl⟩
  rw [← hcrypto]
  simp only [decide_eq_true_eq] at h₆
  exact h₆

theorem ChainedSteps.assertedNext {state : GetNextAssertionState} {credential : Credential}
    {found : List Bytes} {chained : Option Value} {assertion : Assertion} {a a₁ b : Auth β}
    {r : GetAssertionResponse}
    (h : ChainedSteps build state credential found chained assertion a a₁ r b) :
    AssertedNext build state credential a r b := by
  obtain ⟨hopened, rfl, ⟨id, hid, hload⟩, hhmac, hsigned, rfl⟩ := h
  have hcore := core_of_quiet (quiet_chainedHmacSecret _ _) hhmac
  refine ⟨hopened, ⟨id, hid, hload⟩, rfl, _, assertion, ?_, hsigned, rfl⟩
  show { a₁.core with next := some { state with currentIndex := state.currentIndex + 1 } } = _
  rw [hcore]
  rfl

theorem handleGetNextAssertion_ok {a b : Auth β} {r : GetAssertionResponse}
    (h : (handleGetNextAssertion build).run a = (.ok r, b)) :
    ∃ state credential, AssertedNext build state credential a r b := by
  obtain ⟨state, credential, found, chained, assertion, a₁, hsteps⟩ :=
    handleGetNextAssertion_steps build h
  exact ⟨state, credential, hsteps.assertedNext build⟩

/-! ## New credentials -/

omit [StorageBackend β] in
theorem newCredential_ok {request : MakeCredentialRequest} {algorithm : Int}
    {rpIdHash credBlob : Bytes} {credential : Credential} {a b : Auth β}
    (h : (newCredential build request algorithm rpIdHash credBlob).run a = (.ok credential, b)) :
    credential.rpIdHash = rpIdHash := by
  obtain ⟨id, a₁, -, h⟩ := bind_eq_ok.mp h
  obtain ⟨keys, a₂, -, h⟩ := bind_eq_ok.mp h
  obtain ⟨largeBlobKey, a₃, -, h⟩ := bind_eq_ok.mp h
  obtain ⟨credRandoms, a₄, -, h⟩ := bind_eq_ok.mp h
  obtain ⟨createdAt, a₅, -, h⟩ := bind_eq_ok.mp h
  cases h
  rfl

theorem makeCredentialResponse_ok {request : MakeCredentialRequest} {credential : Credential}
    {verified : Bool} {r : MakeCredentialResponse} {a b : Auth β}
    (h : (makeCredentialResponse build request credential verified).run a = (.ok r, b)) :
    ∃ attested, r.authData = authDataHeader credential.rpIdHash
      (creationFlags request.options.up verified) 0 ++ attested := by
  obtain ⟨attested, a₁, -, h⟩ := bind_eq_ok.mp h
  obtain ⟨extensions, a₂, -, h⟩ := bind_eq_ok.mp h
  obtain ⟨pending, a₃, -, h⟩ := bind_eq_ok.mp h
  obtain ⟨format, a₄, -, h⟩ := bind_eq_ok.mp h
  obtain ⟨info, a₅, -, h⟩ := bind_eq_ok.mp h
  cases h
  exact ⟨attested, rfl⟩

/-- What a successful MakeCredential tells. -/
structure Created (request : MakeCredentialRequest) (verified : Bool) (a : Auth β)
    (r : MakeCredentialResponse) : Prop where
  verdict : verifyPinUvAuthForOperation a request.pinProtocol request.pinUvAuthParam
    request.clientDataHash permissionMc (some request.rp.id) = .ok verified
  pin : request.options.uv = true → a.storage.isPinSet = true → verified = true
  always : a.storage.isAlwaysUv = true → request.options.uv = true
  header : ∃ attested, r.authData = authDataHeader (hashRpId request.rp.id a.crypto)
    (creationFlags request.options.up verified) 0 ++ attested

theorem makeCredential_ok {request : MakeCredentialRequest} {a b : Auth β}
    {r : MakeCredentialResponse} (h : (makeCredential build request).run a = (.ok r, b)) :
    ∃ verified, Created request verified a r := by
  obtain ⟨verified, a₁, h₁, h⟩ := bind_eq_ok.mp h
  obtain ⟨rfl, hverdict, hpin, halways⟩ := authenticateOperation_ok h₁
  obtain ⟨_, a₂, h₂, h⟩ := bind_eq_ok.mp h
  have hcore : a₂.core = a.core := core_of_quiet (.when fun _ => quiet_checkPresence) h₂
  have hcrypto : a₂.crypto = a.crypto := congrArg Core.crypto hcore
  rw [Prog.run_read_bind, hcrypto] at h
  obtain ⟨algorithm, a₃, -, h⟩ := bind_eq_ok.mp h
  obtain ⟨_, a₄, -, h⟩ := bind_eq_ok.mp h
  obtain ⟨credBlob, a₅, -, h⟩ := bind_eq_ok.mp h
  obtain ⟨credential, a₆, h₆, h⟩ := bind_eq_ok.mp h
  obtain ⟨_, a₇, -, h⟩ := bind_eq_ok.mp h
  obtain ⟨attested, hdata⟩ := makeCredentialResponse_ok build h
  rw [newCredential_ok build h₆] at hdata
  exact ⟨verified, hverdict, hpin, halways, attested, hdata⟩

theorem Created.uvFlag {request : MakeCredentialRequest} {verified : Bool} {a : Auth β}
    {r : MakeCredentialResponse}
      (h : Created request verified a r) : uvFlag r.authData = verified := by
  obtain ⟨attested, hdata⟩ := h.header
  rw [hdata, uvFlag_header _ _ _ (length_hashRpId _ _), uvFlag_creationFlags]

theorem Created.of_core {request : MakeCredentialRequest} {verified : Bool} {a a' : Auth β}
    {r : MakeCredentialResponse} (h : Created request verified a' r) (hcore : a'.core = a.core) :
    Created request verified a r := by
  have hstorage : a'.storage = a.storage := congrArg Core.storage hcore
  have hcrypto : a'.crypto = a.crypto := congrArg Core.crypto hcore
  obtain ⟨hverdict, hpin, halways, hheader⟩ := h
  rw [verifyPinUvAuthForOperation_congr hcore] at hverdict
  rw [hstorage] at hpin halways
  rw [hcrypto] at hheader
  exact ⟨hverdict, hpin, halways, hheader⟩

end Auth

end OpenKey
