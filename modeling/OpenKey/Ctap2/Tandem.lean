import OpenKey.Ctap2.CredProtect

/-!
# Programs that do not look at credentials

Two authenticators that agree on everything but their storages and logs, and whose storages hold
the same settings, are run side by side on a handler that only looks at settings: the answers are
the same and the authenticators stay related. `Tandem` says what a relation needs for that, so
that the handlers are gone through once for every relation of this kind.
-/

namespace OpenKey

open Prog (Coupled CoupledAt)

set_option autoImplicit false

/-! ## The keys of the settings -/

theorem systemKey_uvRetries : SystemKey uvRetriesKey := systemKey_of_take (by decide) (by decide)

theorem systemKey_epPending : SystemKey cfgEpPendingKey :=
  systemKey_of_take (by decide) (by decide)

theorem pinStorageKey_ne_alwaysUv : pinStorageKey ≠ cfgAlwaysUvKey := by decide

theorem pinRetriesKey_ne_alwaysUv : pinRetriesKey ≠ cfgAlwaysUvKey := by decide

theorem uvRetriesKey_ne_alwaysUv : uvRetriesKey ≠ cfgAlwaysUvKey := by decide

theorem signCounterKey_ne_alwaysUv : signCounterStorageKey ≠ cfgAlwaysUvKey := by decide

theorem epPendingKey_ne_alwaysUv : cfgEpPendingKey ≠ cfgAlwaysUvKey := by decide

theorem epPendingKey_ne_pin : cfgEpPendingKey ≠ pinStorageKey := by decide

/-! ## Relations of authenticators -/

namespace Auth

variable {β : Type} [StorageBackend β]

/-- A change of the volatile state: it goes by neither the storage nor the log, and opens no
enumeration after user verification. -/
structure Volatile (g : Auth β → Auth β) : Prop where
  commutes : ∀ a e l, ∃ l', g { a with storage := e, log := l } =
    { g a with storage := e, log := l' }
  storage : ∀ a, (g a).storage = a.storage ∧ (g a).crypto = a.crypto
  next : ∀ a state, (g a).getNextAssertionState = some state →
    a.getNextAssertionState = some state ∨ state.uvSatisfied = false

omit [StorageBackend β] in
/-- A change that leaves the pending enumeration alone. -/
theorem Volatile.of_kept {g : Auth β → Auth β}
    (hg : ∀ a e l, ∃ l', g { a with storage := e, log := l } = { g a with storage := e, log := l' })
    (hkept : ∀ a, ((g a).storage, (g a).crypto, (g a).getNextAssertionState) =
      (a.storage, a.crypto, a.getNextAssertionState)) : Volatile g where
  commutes := hg
  storage a := ⟨congrArg (·.1) (hkept a), congrArg (·.2.1) (hkept a)⟩
  next a _ hs := .inl ((congrArg (·.2.2) (hkept a)).symm.trans hs)

/-- A relation of states that agree up to their storages, which `stores` relates, and their logs.
Related storages hold the same settings and stay related when a setting is written; alwaysUv is
left out, and a PIN is not deleted. -/
class Tandem (R : Auth β → Auth β → Prop) where
  stores : CryptoEngine → StorageEngine β → StorageEngine β → Prop
  same : ∀ {a b}, R a b → b = { a with storage := b.storage, log := b.log }
  storage : ∀ {a b}, R a b → stores a.crypto a.storage b.storage
  stored : ∀ {a b}, R a b → ∀ {e e'}, stores a.crypto e e' → ∀ l l',
    R { a with storage := e, log := l } { b with storage := e', log := l' }
  map : ∀ {g a b}, Volatile g → R a b → R (g a) (g b)
  values : ∀ {crypto e e'}, stores crypto e e' → ∀ key, SystemKey key → e'.value key = e.value key
  store : ∀ {crypto key} (v : Bytes), key ≠ cfgAlwaysUvKey →
    Coupled (stores crypto) (StorageEngine.store key v)
  delete : ∀ {crypto key}, key ≠ cfgAlwaysUvKey → key ≠ pinStorageKey →
    Coupled (stores crypto) (StorageEngine.delete key)

variable {R : Auth β → Auth β → Prop} [Tandem R] {a b : Auth β}

/-! ## Reading -/

section

variable {α : Type}

theorem Tandem.read_eq {f : Auth β → α} (hf : ∀ a e l, f { a with storage := e, log := l } = f a)
    (h : R a b) : f a = f b :=
  (hf a b.storage b.log).symm.trans (congrArg f (Tandem.same h).symm)

theorem Tandem.value (h : R a b) {key : String} (hkey : SystemKey key) :
    b.storage.value key = a.storage.value key :=
  Tandem.values (Tandem.storage h) key hkey

theorem Tandem.readDecimal (h : R a b) {key : String} (hkey : SystemKey key)
    (bound fallback : Nat) :
    a.storage.readDecimal key bound fallback = b.storage.readDecimal key bound fallback :=
  (readDecimal_congr (Tandem.value h hkey) _ _).symm

theorem Tandem.isPinSet (h : R a b) : a.storage.isPinSet = b.storage.isPinSet := by
  unfold StorageEngine.isPinSet
  rw [Tandem.value h systemKey_pin]

theorem Tandem.isAlwaysUv (h : R a b) : a.storage.isAlwaysUv = b.storage.isAlwaysUv := by
  unfold StorageEngine.isAlwaysUv
  rw [Tandem.value h systemKey_alwaysUv]

theorem tandem_read {f : Auth β → α} (hf : ∀ a e l, f { a with storage := e, log := l } = f a) :
    Coupled R (Prog.read f : Ctap β α) := .read fun _ _ h => Tandem.read_eq hf h

theorem tandem_check {f : Auth β → Except Ctap2Error α}
    (hf : ∀ a e l, f { a with storage := e, log := l } = f a) :
    Coupled R (Prog.check f : Ctap β α) := .check fun _ _ h => Tandem.read_eq hf h

theorem tandem_ensure {c : Auth β → Bool} {error : Ctap2Error}
    (hc : ∀ a e l, c { a with storage := e, log := l } = c a) :
    Coupled R (Prog.ensure c error : Ctap β Unit) := .ensure fun _ _ h => Tandem.read_eq hc h

/-- An action on the volatile state. -/
theorem tandem_act {g : Auth β → α × Auth β}
    (hfst : ∀ a e l, (g { a with storage := e, log := l }).1 = (g a).1)
    (hsnd : Volatile fun a => (g a).2) : Coupled R (Prog.act g : Ctap β α) :=
  .act fun _ _ h => ⟨Tandem.read_eq (f := fun a => (g a).1) hfst h, Tandem.map hsnd h⟩

theorem tandem_update {g : Auth β → Auth β} (hg : Volatile g) :
    Coupled R (Prog.update g : Ctap β Unit) :=
  .update fun _ _ h => Tandem.map hg h

theorem tandem_set {g : Auth β → Auth β}
    (hg : ∀ a e l, ∃ l', g { a with storage := e, log := l } = { g a with storage := e, log := l' })
    (hkept : ∀ a, ((g a).storage, (g a).crypto, (g a).getNextAssertionState) =
      (a.storage, a.crypto, a.getNextAssertionState)) :
    Coupled R (Prog.update g : Ctap β Unit) := tandem_update (.of_kept hg hkept)

end

/-! ## Volatile state -/

section Volatile

variable {α : Type}

theorem tandem_draw : Coupled R (draw : Ctap β Entropy) :=
  tandem_act (fun _ _ _ => rfl) (.of_kept (fun _ _ _ => ⟨_, rfl⟩) fun _ => rfl)

theorem tandem_randomBytes (len : Nat) : Coupled R (randomBytes len : Ctap β Bytes) :=
  tandem_draw.bind fun _ => .pure _

theorem tandem_currentTimestamp (build : Build) :
    Coupled R (currentTimestamp build : Ctap β Nat) := by
  unfold currentTimestamp
  cases build.std with
  | true =>
      simp only [if_true]
      exact tandem_act (fun _ _ _ => rfl) (.of_kept (fun _ _ _ => ⟨_, rfl⟩) fun _ => rfl)
  | false =>
      simp only [Bool.false_eq_true, if_false]
      exact tandem_act (fun _ _ _ => rfl) (.of_kept (fun _ _ _ => ⟨_, rfl⟩) fun _ => rfl)

theorem tandem_checkPresence : Coupled R (checkPresence : Ctap β Unit) := by
  refine Coupled.bind (.act fun a b h => ?_) fun _ => tandem_ensure fun _ _ _ => rfl
  have hsame : a.userPresence = b.userPresence :=
    Tandem.read_eq (f := fun a => a.userPresence) (fun _ _ _ => rfl) h
  rw [← hsame]
  cases a.userPresence with
  | none => exact ⟨rfl, h⟩
  | some answers =>
      exact ⟨rfl, Tandem.map
        (g := fun a => { a with userPresence := some fun n => answers (n + 1) })
        (.of_kept (fun _ _ _ => ⟨_, rfl⟩) fun _ => rfl) h⟩

theorem tandem_required (parameter : Option α) : Coupled R (required parameter : Ctap β α) :=
  tandem_check fun _ _ _ => rfl

theorem tandem_demanded (parameter : Option α) : Coupled R (demanded parameter : Ctap β α) :=
  tandem_check fun _ _ _ => rfl

theorem tandem_endHmacSession : Coupled R (endHmacSession : Ctap β Unit) :=
  tandem_set (fun _ _ _ => ⟨_, rfl⟩) fun _ => rfl

theorem tandem_validateProtocol (pinProtocol : Option Nat) :
    Coupled R (validateProtocol pinProtocol : Ctap β PinUvProtocol) :=
  (tandem_required _).bind fun _ => tandem_check fun _ _ _ => rfl

theorem tandem_takeAgreementKey : Coupled R (takeAgreementKey : Ctap β Entropy) := by
  refine Coupled.bind (tandem_read fun _ _ _ => rfl) fun announced => ?_
  cases announced with
  | none => exact tandem_draw
  | some key =>
      exact .bind (tandem_set (fun _ _ _ => ⟨_, rfl⟩) fun _ => rfl)
        fun _ => .pure _

theorem tandem_performKeyAgreement (protocol : PinUvProtocol) (peerCose : CoseEc2Key) :
    Coupled R (performKeyAgreement protocol peerCose : Ctap β Bytes) :=
  (tandem_check fun _ _ _ => rfl).bind fun _ => tandem_takeAgreementKey.bind fun _ =>
    (tandem_check fun _ _ _ => rfl).bind fun _ => tandem_check fun _ _ _ => rfl

theorem tandem_encryptWith (protocol : PinUvProtocol) (secret plaintext : Bytes) :
    Coupled R (encryptWith protocol secret plaintext : Ctap β Bytes) := by
  refine Coupled.bind ?_ fun _ => tandem_check fun _ _ _ => rfl
  cases protocol with
  | one => exact .pure _
  | two => exact tandem_draw

theorem tandem_verifyWith (protocol : PinUvProtocol) (secret message signature : Bytes) :
    Coupled R (verifyWith protocol secret message signature : Ctap β Unit) :=
  tandem_check fun _ _ _ => rfl

theorem tandem_decryptNewPin (protocol : PinUvProtocol) (secret newPinEnc : Bytes) :
    Coupled R (decryptNewPin protocol secret newPinEnc : Ctap β Bytes) :=
  tandem_check fun _ _ _ => rfl

theorem tandem_validatePermissions (permissions : UInt8) :
    Coupled R (validatePermissions permissions : Ctap β Unit) :=
  (tandem_ensure fun _ _ _ => rfl).bind fun _ => tandem_ensure fun _ _ _ => rfl

theorem tandem_requireRpId (permissions : UInt8) (rpId : Option String) :
    Coupled R (requireRpId permissions rpId : Ctap β Unit) := tandem_ensure fun _ _ _ => rfl

theorem tandem_issuePinUvAuthToken (protocol : PinUvProtocol) (secret : Bytes) (permissions : UInt8)
    (rpId : Option String) :
    Coupled R (issuePinUvAuthToken protocol secret permissions rpId : Ctap β Bytes) :=
  (tandem_randomBytes _).bind fun _ => (tandem_encryptWith _ _ _).bind fun _ =>
    .bind (tandem_set (fun _ _ _ => ⟨_, rfl⟩) fun _ => rfl) fun _ =>
      .pure _

theorem tandem_invalidatePinUvAuthToken : Coupled R (invalidatePinUvAuthToken : Ctap β Unit) :=
  tandem_set (fun _ _ _ => ⟨_, rfl⟩) fun _ => rfl

theorem tandem_askVerifier : Coupled R (askVerifier : Ctap β (Except Ctap2Error Unit)) := by
  refine .act fun a b h => ?_
  have hsame : a.userVerification = b.userVerification :=
    Tandem.read_eq (f := fun a => a.userVerification) (fun _ _ _ => rfl) h
  rw [← hsame]
  cases a.userVerification with
  | none => exact ⟨rfl, h⟩
  | some answers =>
      exact ⟨rfl, Tandem.map
        (g := fun a => { a with userVerification := some fun n => answers (n + 1) })
        (.of_kept (fun _ _ _ => ⟨_, rfl⟩) fun _ => rfl) h⟩

theorem tandem_signRandomised (sign : CryptoEngine → Entropy → Except String Bytes) :
    Coupled R (signRandomised sign : Ctap β Bytes) :=
  tandem_draw.bind fun _ => tandem_check fun _ _ _ => rfl

theorem tandem_signAssertion (build : Build) (algorithm : Int) (privateKey data : Bytes) :
    Coupled R (signAssertion build algorithm privateKey data : Ctap β Bytes) :=
  .ite (fun _ => tandem_signRandomised _) fun _ => .ite (fun _ => tandem_signRandomised _)
    fun _ => .ite (fun _ => tandem_signRandomised _) fun _ => .ite
      (fun _ => tandem_signRandomised _) fun _ => tandem_check fun _ _ _ => rfl

theorem tandem_signForAttestation (build : Build) (algorithm : Int) (privateKey data : Bytes) :
    Coupled R (signForAttestation build algorithm privateKey data : Ctap β Bytes) :=
  (tandem_ensure fun _ _ _ => rfl).bind fun _ => tandem_signAssertion build _ _ _

theorem tandem_selfAttestation (build : Build) (data privateKey : Bytes) (algorithm : Int) :
    Coupled R (selfAttestation build data privateKey algorithm : Ctap β _) :=
  (tandem_signForAttestation build _ _ _).bind fun _ => .pure _

theorem tandem_attest (build : Build) (format : AttestationFormat) (data privateKey : Bytes)
    (algorithm : Int) : Coupled R (attest build format data privateKey algorithm : Ctap β _) := by
  cases format with
  | none => exact .pure _
  | self => exact tandem_selfAttestation build _ _ _
  | packed =>
      refine (tandem_read fun _ _ _ => rfl).bind fun certificate => ?_
      cases certificate with
      | none => exact tandem_selfAttestation build _ _ _
      | some certificate => exact (tandem_signForAttestation build _ _ _).bind fun _ => .pure _
  | u2f | androidKey | apple => exact .fail _

theorem tandem_drawKeyPair (generate : CryptoEngine → Entropy → Except String (Bytes × Bytes)) :
    Coupled R (drawKeyPair generate : Ctap β (Bytes × Bytes)) :=
  tandem_draw.bind fun _ => tandem_check fun _ _ _ => rfl

theorem tandem_newCredential (build : Build) (request : MakeCredentialRequest) (algorithm : Int)
    (rpIdHash credBlob : Bytes) :
    Coupled R (newCredential build request algorithm rpIdHash credBlob : Ctap β Credential) := by
  refine (tandem_randomBytes _).bind fun _ => Coupled.bind ?_ fun _ => Coupled.bind ?_ fun _ =>
    Coupled.bind ?_ fun _ => (tandem_currentTimestamp build).bind fun _ => .pure _
  · exact .ite (fun _ => tandem_drawKeyPair _) fun _ => .ite (fun _ => tandem_drawKeyPair _)
      fun _ => .ite (fun _ => tandem_drawKeyPair _) fun _ => tandem_drawKeyPair _
  · exact .ite (fun _ => (tandem_randomBytes _).bind fun _ => .pure _) fun _ => .pure _
  · exact (tandem_check fun _ _ _ => rfl).bind fun _ => .ite
      (fun _ => (tandem_randomBytes _).bind fun _ => (tandem_randomBytes _).bind fun _ => .pure _)
      fun _ => .pure _

theorem tandem_beginSession (request : HmacSecret.GetRequest) :
    Coupled R (beginSession request : Ctap β HmacSecretSession) :=
  (tandem_check fun _ _ _ => rfl).bind fun _ => (tandem_check fun _ _ _ => rfl).bind fun _ =>
    ((tandem_act (fun _ _ _ => rfl) (.of_kept (fun _ _ _ => ⟨_, rfl⟩) fun _ => rfl)).bind
      fun _ => tandem_check fun _ _ _ => rfl).bind fun _ =>
        (tandem_check fun _ _ _ => rfl).bind fun _ => tandem_check fun _ _ _ => rfl

theorem tandem_sessionOutput (session : HmacSecretSession) (secret : Bytes) :
    Coupled R (sessionOutput session secret : Ctap β Bytes) :=
  (tandem_check fun _ _ _ => rfl).bind fun _ => (tandem_read fun _ _ _ => rfl).bind fun _ =>
    tandem_encryptWith _ _ _

theorem tandem_firstHmacSecret (credential : Credential) (up pinAuthenticated : Bool)
    (raw : Value) :
    Coupled R (firstHmacSecret credential up pinAuthenticated raw : Ctap β (Option Value)) := by
  refine (tandem_ensure fun _ _ _ => rfl).bind fun _ => (tandem_check fun _ _ _ => rfl).bind
    fun request => ?_
  cases credRandom credential pinAuthenticated with
  | none => exact .pure _
  | some secret =>
      exact (tandem_beginSession _).bind fun _ => (tandem_sessionOutput _ _).bind fun _ =>
        .bind (tandem_set (fun _ _ _ => ⟨_, rfl⟩) fun _ => rfl)
          fun _ => .pure _

theorem tandem_firstExtensions (request : GetAssertionRequest) (credential : Credential)
    (pinAuthenticated : Bool) : Coupled R (firstExtensions request credential pinAuthenticated :
      Ctap β (Option ExtensionOutputs)) := by
  unfold firstExtensions
  cases request.extensions.filter Extensions.hasAny with
  | none => exact .pure _
  | some extensions =>
      refine Coupled.bind (Coupled.bind ?_ fun _ => .pure _) fun _ => .pure _
      cases extensions.hmacSecret with
      | none => exact .pure _
      | some raw => exact tandem_firstHmacSecret _ _ _ _

theorem tandem_chainedHmacSecret (state : GetNextAssertionState) (credential : Credential) :
    Coupled R (chainedHmacSecret state credential : Ctap β (Option Value)) := by
  refine (tandem_read fun _ _ _ => rfl).bind fun session => ?_
  split
  · exact (tandem_sessionOutput _ _).bind fun _ => .pure _
  · exact .pure _

theorem tandem_nextInEnumeration (get : Auth β → Option (Enumeration α))
    (put : Option (Enumeration α) → Auth β → Auth β)
    (hget : ∀ a e l, get { a with storage := e, log := l } = get a)
    (hput : ∀ state, Coupled R (Prog.update (put state) : Ctap β Unit)) :
    Coupled R (nextInEnumeration get put) := by
  refine (tandem_check fun a e l => by rw [hget]).bind fun state => ?_
  cases state.items[state.currentIndex + 1]? with
  | none => exact (hput none).bind fun _ => .fail _
  | some item => exact (hput _).bind fun _ => .pure _

end Volatile

/-! ## Settings -/

section Settings

variable {α ε : Type}

theorem Tandem.onStorage {m : Prog (StorageEngine β) EngineError α} {mark : Mark} (h : R a b)
    (hm : CoupledAt (Tandem.stores R a.crypto) m a.storage b.storage) :
    CoupledAt R (Auth.onStorage mark m) a b :=
  ⟨hm.1, Tandem.stored h hm.2 _ _⟩

theorem Tandem.persist {m : Prog (StorageEngine β) EngineError α} {mark : Mark}
    {f : EngineError → ε} (h : R a b)
    (hm : CoupledAt (Tandem.stores R a.crypto) m a.storage b.storage) :
    CoupledAt R (Prog.mapError f (Auth.onStorage mark m)) a b :=
  ⟨congrArg (Except.mapError f) hm.1, (Tandem.onStorage h hm).2⟩

theorem tandem_persist {m : Prog (StorageEngine β) EngineError α} {mark : Mark}
    {f : EngineError → ε} (hm : ∀ crypto, Coupled (Tandem.stores R crypto) m) :
    Coupled R (Prog.mapError f (Auth.onStorage mark m)) :=
  fun _ _ h => Tandem.persist h (hm _ _ _ (Tandem.storage h))

theorem tandem_persistIgnored {m : Prog (StorageEngine β) EngineError α} {mark : Mark}
    (hm : ∀ crypto, Coupled (Tandem.stores R crypto) m) :
    Coupled R (persistIgnored mark m : Ctap β Unit) :=
  fun _ _ h => ⟨rfl, (Tandem.onStorage h (hm _ _ _ (Tandem.storage h))).2⟩

theorem tandem_storeDecimal {key : String} (mark : Mark) (n : Nat) (hkey : key ≠ cfgAlwaysUvKey) :
    Coupled R (persistIgnored mark (storeDecimal key n) : Ctap β Unit) :=
  tandem_persistIgnored fun _ => Tandem.store _ hkey

theorem tandem_clearFlag {key : String} (halways : key ≠ cfgAlwaysUvKey)
    (hpin : key ≠ pinStorageKey) : Coupled R (clearFlag key : Ctap β Unit) :=
  tandem_persistIgnored fun _ => Tandem.delete halways hpin

theorem tandem_readRetries : Coupled R (Prog.read getPinRetries : Ctap β Nat) :=
  .read fun _ _ h => Tandem.readDecimal h systemKey_retries _ _

theorem tandem_resetPinRetries (mark : Mark) : Coupled R (resetPinRetries mark : Ctap β Unit) :=
  .bind (tandem_set (fun _ _ _ => ⟨_, rfl⟩) fun _ => rfl) fun _ =>
    tandem_storeDecimal mark _ pinRetriesKey_ne_alwaysUv

theorem tandem_decrementPinRetries (mark : Mark) :
    Coupled R (decrementPinRetries mark : Ctap β Unit) :=
  tandem_readRetries.bind fun _ => tandem_storeDecimal mark _ pinRetriesKey_ne_alwaysUv

theorem tandem_failPin : Coupled R (failPin : Ctap β α) := by
  refine .bind (tandem_set (fun _ _ _ => ⟨_, rfl⟩) fun _ => rfl)
    fun _ => .check fun a b h => ?_
  have hretries : a.storage.readRetries = b.storage.readRetries :=
    Tandem.readDecimal h systemKey_retries _ _
  have hblocked : a.isPinAuthBlocked = b.isPinAuthBlocked :=
    Tandem.read_eq (f := fun a => a.isPinAuthBlocked) (fun _ _ _ => rfl) h
  unfold pinFailureError
  rw [hretries, hblocked]

theorem tandem_comparePinHash (path : PinPath) (submitted : Bytes) :
    Coupled R (comparePinHash path submitted : Ctap β (Option Bool)) := by
  refine .act fun a b h => ?_
  rw [Tandem.value h systemKey_pin]
  cases a.storage.value pinStorageKey with
  | none => exact ⟨rfl, h⟩
  | some stored =>
      exact ⟨rfl, Tandem.map (g := fun a =>
        { a with log := .compared path (decide (submitted = stored)) :: a.log })
          (.of_kept (fun _ _ _ => ⟨_, rfl⟩) fun _ => rfl) h⟩

theorem tandem_storePinHash (mark : Mark) (pin : Bytes) :
    Coupled R (storePinHash mark pin : Ctap β Unit) :=
  .bind (tandem_read fun _ _ _ => rfl) fun _ =>
    tandem_persist fun _ => Tandem.store _ pinStorageKey_ne_alwaysUv

theorem tandem_checkPinHash (path : PinPath) (protocol : PinUvProtocol)
    (secret pinHashEnc : Bytes) :
    Coupled R (checkPinHash path protocol secret pinHashEnc : Ctap β Unit) := by
  refine (tandem_decrementPinRetries _).bind fun _ => .bind (tandem_read fun _ _ _ => rfl)
    fun submitted => ?_
  cases submitted with
  | error error => exact tandem_failPin
  | ok hash =>
      exact (tandem_comparePinHash _ _).bind fun _ => .ite (fun _ => tandem_resetPinRetries _)
        fun _ => tandem_failPin

theorem tandem_performBuiltinUv : Coupled R (performBuiltinUv : Ctap β Unit) := by
  have hretries : ∀ a b : Auth β, R a b → a.storage.readUvRetries = b.storage.readUvRetries :=
    fun a b h => Tandem.readDecimal h systemKey_uvRetries _ _
  refine .bind (tandem_ensure fun _ _ _ => rfl) fun _ => .bind
    (.ensure fun a b h => by rw [hretries a b h]) fun _ => tandem_askVerifier.bind fun result => ?_
  cases result with
  | ok u => exact tandem_storeDecimal _ _ uvRetriesKey_ne_alwaysUv
  | error error =>
      exact (Coupled.read hretries).bind fun _ =>
        (tandem_storeDecimal _ _ uvRetriesKey_ne_alwaysUv).bind fun _ => .fail _

end Settings

/-! ## ClientPIN -/

section ClientPin

theorem tandem_ensurePinSet {c : Bool → Bool} {error : Ctap2Error} :
    Coupled R (Prog.ensure (fun a => c a.storage.isPinSet) error : Ctap β Unit) :=
  .ensure fun _ _ h => by rw [Tandem.isPinSet h]

theorem tandem_ensureRetries {c : Nat → Bool} {error : Ctap2Error} :
    Coupled R (Prog.ensure (fun a => c a.getPinRetries) error : Ctap β Unit) :=
  .ensure fun _ _ h => congrArg c (Tandem.readDecimal h systemKey_retries _ _)

theorem tandem_ensureNotBlocked {error : Ctap2Error} :
    Coupled R (Prog.ensure (fun a => !a.isPinAuthBlocked) error : Ctap β Unit) :=
  tandem_ensure fun _ _ _ => rfl

theorem tandem_setPin (pin : Bytes) : Coupled R (setPin pin : Ctap β Unit) :=
  (tandem_ensure fun _ _ _ => rfl).bind fun _ => (tandem_storePinHash _ _).bind fun _ =>
    (tandem_resetPinRetries _).bind fun _ => tandem_invalidatePinUvAuthToken

theorem tandem_handleGetRetries : Coupled R (handleGetRetries : Ctap β ClientPinResponse) := by
  refine .read fun a b h => ?_
  have hretries : a.getPinRetries = b.getPinRetries :=
    Tandem.readDecimal h systemKey_retries _ _
  have hblocked : a.isPinAuthBlocked = b.isPinAuthBlocked :=
    Tandem.read_eq (f := fun a => a.isPinAuthBlocked) (fun _ _ _ => rfl) h
  rw [hretries, hblocked]

theorem tandem_handleGetKeyAgreement (request : ClientPinRequest) :
    Coupled R (handleGetKeyAgreement request : Ctap β ClientPinResponse) :=
  (tandem_validateProtocol _).bind fun _ => tandem_draw.bind fun _ =>
    (tandem_check fun _ _ _ => rfl).bind fun _ =>
      .bind (tandem_set (fun _ _ _ => ⟨_, rfl⟩) fun _ => rfl)
        fun _ => .pure _

theorem tandem_handleSetPin (request : ClientPinRequest) :
    Coupled R (handleSetPin request : Ctap β ClientPinResponse) :=
  (tandem_validateProtocol _).bind fun _ => (tandem_ensurePinSet (c := not)).bind fun _ =>
    (tandem_required _).bind fun _ => (tandem_required _).bind fun _ =>
      (tandem_required _).bind fun _ => (tandem_performKeyAgreement _ _).bind fun _ =>
        (tandem_verifyWith _ _ _ _).bind fun _ => (tandem_decryptNewPin _ _ _).bind fun _ =>
          (tandem_setPin _).bind fun _ => .pure _

theorem tandem_handleChangePin (request : ClientPinRequest) :
    Coupled R (handleChangePin request : Ctap β ClientPinResponse) :=
  (tandem_validateProtocol _).bind fun _ => (tandem_ensurePinSet (c := id)).bind fun _ =>
    (tandem_ensureRetries (c := (· != 0))).bind fun _ => tandem_ensureNotBlocked.bind fun _ =>
      (tandem_required _).bind fun _ => (tandem_required _).bind fun _ =>
        (tandem_required _).bind fun _ => (tandem_required _).bind fun _ =>
          (tandem_performKeyAgreement _ _).bind fun _ => (tandem_verifyWith _ _ _ _).bind fun _ =>
            (tandem_checkPinHash _ _ _ _).bind fun _ => (tandem_decryptNewPin _ _ _).bind fun _ =>
              tandem_invalidatePinUvAuthToken.bind fun _ => (tandem_storePinHash _ _).bind fun _ =>
                .pure _

theorem tandem_handleGetPinTokenCommon (request : ClientPinRequest) (protocol : PinUvProtocol)
    (permissions : UInt8) (rpId : Option String) :
    Coupled R (handleGetPinTokenCommon request protocol permissions rpId :
      Ctap β ClientPinResponse) := by
  have hforce : Coupled R (Prog.ensure (fun a => !a.storage.isForceChangePin)
      .pinPolicyViolation : Ctap β Unit) := by
    refine .ensure fun a b h => ?_
    unfold StorageEngine.isForceChangePin
    rw [Tandem.value h systemKey_forceChangePin]
  exact (tandem_ensurePinSet (c := id)).bind fun _ => hforce.bind fun _ =>
    (tandem_ensureRetries (c := (· != 0))).bind fun _ => tandem_ensureNotBlocked.bind fun _ =>
      (tandem_required _).bind fun _ => (tandem_required _).bind fun _ =>
        (tandem_performKeyAgreement _ _).bind fun _ => (tandem_checkPinHash _ _ _ _).bind fun _ =>
          (tandem_issuePinUvAuthToken _ _ _ _).bind fun _ => .pure _

theorem tandem_handleGetUvToken (request : ClientPinRequest) :
    Coupled R (handleGetUvToken request : Ctap β ClientPinResponse) :=
  (tandem_validateProtocol _).bind fun _ => (tandem_required _).bind fun _ =>
    (tandem_validatePermissions _).bind fun _ => tandem_performBuiltinUv.bind fun _ =>
      (tandem_requireRpId _ _).bind fun _ => (tandem_required _).bind fun _ =>
        (tandem_performKeyAgreement _ _).bind fun _ =>
          (tandem_issuePinUvAuthToken _ _ _ _).bind fun _ => .pure _

theorem tandem_handleGetUvRetries :
    Coupled R (handleGetUvRetries : Ctap β ClientPinResponse) := by
  refine (tandem_ensure fun _ _ _ => rfl).bind fun _ => .read fun a b h => ?_
  have hretries : a.storage.readUvRetries = b.storage.readUvRetries :=
    Tandem.readDecimal h systemKey_uvRetries _ _
  rw [hretries]

theorem tandem_handleClientPin (build : Build) (data : Bytes) :
    Coupled R (handleClientPin build data : Ctap β ClientPinResponse) := by
  refine (tandem_check fun _ _ _ => rfl).bind fun request => ?_
  unfold clientPinSubCommand
  split
  · exact tandem_handleGetRetries
  · exact tandem_handleGetKeyAgreement _
  · exact tandem_handleSetPin _
  · exact tandem_handleChangePin _
  · exact (tandem_validateProtocol _).bind fun _ => (tandem_ensure fun _ _ _ => rfl).bind fun _ =>
      tandem_handleGetPinTokenCommon _ _ _ _
  · exact tandem_handleGetUvToken _
  · exact tandem_handleGetUvRetries
  · exact (tandem_validateProtocol _).bind fun _ => (tandem_required _).bind fun _ =>
      (tandem_validatePermissions _).bind fun _ => (tandem_requireRpId _ _).bind fun _ =>
        tandem_handleGetPinTokenCommon _ _ _ _
  · exact .fail _

end ClientPin

/-! ## Parts of the other commands -/

section Commands

theorem tandem_authenticateOperation (pinProtocol : Option Nat) (pinUvAuthParam : Option Bytes)
    (clientDataHash : Bytes) (permission : UInt8) (rpId : String) (uv : Bool) :
    Coupled R (authenticateOperation pinProtocol pinUvAuthParam clientDataHash permission rpId
      uv : Ctap β Bool) :=
  (tandem_check fun _ _ _ => rfl).bind fun verified =>
    (Coupled.ensure fun _ _ h => by rw [Tandem.isPinSet h]).bind fun _ =>
      (Coupled.ensure fun _ _ h => by rw [Tandem.isAlwaysUv h]).bind fun _ => .pure _

theorem tandem_nextSignCount : Coupled R (nextSignCount : Ctap β Nat) :=
  (Coupled.read fun _ _ h => Tandem.readDecimal h systemKey_counter _ _).bind fun _ =>
    (tandem_ensure fun _ _ _ => rfl).bind fun _ =>
      (tandem_persist fun _ => Tandem.store _ signCounterKey_ne_alwaysUv).bind fun _ => .pure _

theorem tandem_takeNextState : Coupled R (takeNextState : Ctap β GetNextAssertionState) :=
  .bind (tandem_act (fun _ _ _ => rfl) ⟨fun _ _ _ => ⟨_, rfl⟩, fun _ => ⟨rfl, rfl⟩,
    fun _ _ hstate => by cases hstate⟩) fun _ =>
    tandem_check fun _ _ _ => rfl

theorem tandem_nextMatch (state : GetNextAssertionState) (found : List Bytes) :
    Coupled R (nextMatch state found : Ctap β Bytes) := by
  unfold nextMatch
  split
  · exact .pure _
  · exact tandem_endHmacSession.bind fun _ => .fail _

theorem tandem_consumeEpPending : Coupled R (consumeEpPending : Ctap β Bool) :=
  (Coupled.read fun a b h => by
    rw [Tandem.value h systemKey_epPending]).bind fun _ =>
      (Coupled.when fun _ => tandem_clearFlag epPendingKey_ne_alwaysUv
        epPendingKey_ne_pin).bind fun _ => .pure _

theorem tandem_extensionOutputs (extensions : Option Extensions) (credBlob : Bytes)
    (largeBlobKey : Option Bytes) :
    Coupled R (Prog.check fun a => extensionOutputs a extensions credBlob largeBlobKey :
      Ctap β _) := by
  refine .check fun a b h => ?_
  have hmin : b.storage.getMinPinLength = a.storage.getMinPinLength := by
    unfold StorageEngine.getMinPinLength
    rw [Tandem.value h systemKey_minPinLength]
  have hcapabilities : a.capabilities = b.capabilities :=
    Tandem.read_eq (f := fun a => a.capabilities) (fun _ _ _ => rfl) h
  simp only [extensionOutputs, makeCredentialOutputs, hmin, hcapabilities]

theorem tandem_makeCredentialResponse (build : Build) (request : MakeCredentialRequest)
    (credential : Credential) (verified : Bool) :
    Coupled R (makeCredentialResponse build request credential verified : Ctap β _) :=
  (tandem_check fun _ _ _ => rfl).bind fun _ => (tandem_extensionOutputs _ _ _).bind fun _ =>
    tandem_consumeEpPending.bind fun _ => (tandem_read fun _ _ _ => rfl).bind fun _ =>
      (tandem_attest build _ _ _ _).bind fun _ => .pure _

theorem tandem_getInfo (build : Build) :
    Coupled R (Prog.check fun a => a.getInfo build : Ctap β _) := by
  refine .check fun a b h => ?_
  have hcapabilities : a.capabilities = b.capabilities :=
    Tandem.read_eq (f := fun a => a.capabilities) (fun _ _ _ => rfl) h
  have hverifier : a.userVerification = b.userVerification :=
    Tandem.read_eq (f := fun a => a.userVerification) (fun _ _ _ => rfl) h
  simp only [getInfo, announcedOptions, hcapabilities, hverifier, Tandem.isPinSet h]

theorem tandem_putEnumerateRps (state : Option (Enumeration (String × Bytes))) :
    Coupled R (Prog.update (putEnumerateRps state) : Ctap β Unit) :=
  tandem_set (fun _ _ _ => ⟨_, rfl⟩) fun _ => rfl

theorem tandem_handleEnumerateRpsNext :
    Coupled R (handleEnumerateRpsNext : Ctap β EnumerateRpsResponse) :=
  (tandem_nextInEnumeration _ _ (fun _ _ _ => rfl) tandem_putEnumerateRps).bind fun _ => .pure _

end Commands

end Auth

end OpenKey
