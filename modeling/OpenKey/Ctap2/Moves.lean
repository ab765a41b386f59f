import OpenKey.Ctap2.Commands
import OpenKey.Storage.EngineView

/-!
# What a command can do

The state that matters for runs is small: the storage, the token, the PIN failures, the state of
GetNextAssertion and the log. `Move` lists the ways a handler changes it, each with the checks
that come before it, and every command but Reset is shown to be a sequence of moves. An invariant
of runs is then a fact about single moves.
-/

namespace OpenKey

open Prog (Keeps KeepsAt)

set_option autoImplicit false

/-! ## The core of the state -/

/-- The part of the state that statements about runs are about. -/
structure Core (β : Type) where
  crypto : CryptoEngine
  capabilities : Ctap2Capabilities
  storage : StorageEngine β
  next : Option GetNextAssertionState
  token : Option PinUvAuthTokenState
  failures : Nat
  log : List (Event β)

/-- The core of a state. -/
def Auth.core {β : Type} (a : Auth β) : Core β where
  crypto := a.crypto
  capabilities := a.capabilities
  storage := a.storage
  next := a.getNextAssertionState
  token := a.pinUvAuthToken
  failures := a.pinFailuresSinceReset
  log := a.log

theorem Auth.storage_of_core {β : Type} {a b : Auth β} (h : b.core = a.core) :
    b.storage = a.storage := congrArg Core.storage h

/-- The moves that leave the core alone. -/
def Quiet {β : Type} : Prog.Frame (Auth β) := .constant Auth.core

/-- A frame that allows whatever leaves the core and the hmac-secret session alone. -/
class Inert {β : Type} (F : Prog.Frame (Auth β)) : Prop where
  allow : ∀ {a b : Auth β}, b.core = a.core → b.hmacSecretSession = a.hmacSecretSession → F.rel a b

instance {β : Type} : Inert (Quiet (β := β)) := ⟨fun h _ => h⟩

/-- A frame that may ask, besides, that enumerateCredentials stays where it is. -/
class Aloof {β : Type} (F : Prog.Frame (Auth β)) : Prop where
  aloof : ∀ {a b : Auth β}, b.core = a.core → b.hmacSecretSession = a.hmacSecretSession →
    b.credMgmtCredsState = a.credMgmtCredsState → F.rel a b

instance {β : Type} {F : Prog.Frame (Auth β)} [Inert F] : Aloof F :=
  ⟨fun h hsession _ => Inert.allow h hsession⟩

/-- An aloof frame that does not ask for the hmac-secret session. -/
class Sessionless {β : Type} (F : Prog.Frame (Auth β)) : Prop extends Aloof F where
  sessionless : ∀ {a b : Auth β}, b.core = a.core →
    b.credMgmtCredsState = a.credMgmtCredsState → F.rel a b

instance {β : Type} : Sessionless (Quiet (β := β)) := ⟨fun h _ => h⟩

theorem core_of_quiet {β α : Type} {m : Ctap β α} {a b : Auth β} {r : Except Ctap2Error α}
    (h : Keeps Quiet m) (hrun : m.run a = (r, b)) : b.core = a.core := h.of_run hrun

/-- The kinds of moves. -/
inductive Kind
  /-- Put a token into force. -/
  | issue
  /-- Drop the token. -/
  | dropToken
  /-- Change the state of GetNextAssertion. -/
  | enumerate
  /-- Change credentials or large blobs. -/
  | records
  /-- Change the entry under a key. -/
  | save (key : String)
  /-- Compare a PIN. -/
  | compare (path : PinPath)
  /-- Count a PIN failure. -/
  | fail

section

variable {β : Type} [StorageBackend β] [LawfulBackend β]

/-- The settings whose values no statement here depends on. -/
def plainKeys : List String :=
  [uvRetriesKey, cfgMakeCredUvNotRqdKey, cfgMinPinLengthKey, cfgMinPinLengthRpidsKey,
    cfgForceChangePinKey, cfgEpPendingKey]

/-- The entries that may be saved, with the checks made before. -/
inductive Allowed (c : Core β) : String → Option Bytes → Mark → Prop
  /-- setPIN stores a hash only if there is none. -/
  | initialPin (hash : Bytes) (h : c.storage.isPinSet = false) :
      Allowed c pinStorageKey (some hash) .pinSet
  /-- changePIN replaces a hash. -/
  | newPin (hash : Bytes) (h : c.storage.isPinSet = true) :
      Allowed c pinStorageKey (some hash) .ordinary
  /-- A PIN check takes a retry only if there is one and the session is not blocked. -/
  | takeRetry (hset : c.storage.isPinSet = true) (hleft : c.storage.readRetries ≠ 0)
      (hopen : c.failures < pinBlockThreshold) :
      Allowed c pinRetriesKey (some (utf8 (toString (c.storage.readRetries - 1)))) .checkBegun
  /-- alwaysUv is only turned on while a PIN is set. -/
  | alwaysUv (v : Option Bytes) (h : c.storage.isPinSet = true) :
      Allowed c cfgAlwaysUvKey v .ordinary
  /-- The signature counter goes up by one and never wraps. -/
  | counted (h : c.storage.signCounter + 1 < 2 ^ 32) :
      Allowed c signCounterStorageKey (some (utf8 (toString (c.storage.signCounter + 1))))
        .ordinary
  | plain (key : String) (v : Option Bytes) (h : key ∈ plainKeys) : Allowed c key v .ordinary

/-- The changes a handler makes to the core, one at a time. -/
inductive Move (K : Set Kind) : Core β → Core β → Prop
  | issue {c : Core β} (hK : Kind.issue ∈ K) (state : PinUvAuthTokenState) :
      Move K c { c with token := some state, log := .issued state.token :: c.log }
  | dropToken {c : Core β} (hK : Kind.dropToken ∈ K) : Move K c { c with token := none }
  | enumerate {c : Core β} (hK : Kind.enumerate ∈ K) (state : Option GetNextAssertionState) :
      Move K c { c with next := state }
  | records {c : Core β} (hK : Kind.records ∈ K) {e : StorageEngine β}
      (hs : StorageEngine.Settled.rel c.storage e) (hk : c.storage.Keyed → e.Keyed) :
      Move K c { c with storage := e, log := .stored e .ordinary :: c.log }
  | save {c : Core β} {key : String} (hK : Kind.save key ∈ K) {v : Option Bytes} {mark : Mark}
      {e : StorageEngine β} (hs : StorageEngine.Saved key v c.storage e)
      (ha : Allowed c key v mark) :
      Move K c { c with storage := e, log := .stored e mark :: c.log }
  /-- The retries are given back after a right PIN, and for a new one. -/
  | restore {c : Core β} (hK : Kind.save pinRetriesKey ∈ K) {mark : Mark} {e : StorageEngine β}
      (hs : StorageEngine.Saved pinRetriesKey (some (utf8 (toString pinMaxRetries))) c.storage e)
      (ha : (mark = .checkPassed ∧ ∃ path tail, c.log = .compared path true :: tail) ∨
        (mark = .ordinary ∧ ∃ e' tail, c.log = .stored e' .pinSet :: tail)) :
      Move K c { c with failures := 0, storage := e, log := .stored e mark :: c.log }
  /-- The subcommands compare only right after they have taken a retry. -/
  | compare {c : Core β} {path : PinPath} (hK : Kind.compare path ∈ K) (matched : Bool)
      (ha : path = .changePin ∨ path = .pinToken →
        ∃ e tail, c.log = .stored e .checkBegun :: tail) :
      Move K c { c with log := .compared path matched :: c.log }
  | fail {c : Core β} (hK : Kind.fail ∈ K) (hset : c.storage.isPinSet = true) :
      Move K c { c with failures := min (c.failures + 1) 255, log := .failed :: c.log }

/-- Sequences of moves of the given kinds. -/
def Moves (K : Set Kind) : Prog.Frame (Auth β) where
  rel a b := Relation.ReflTransGen (Move K) a.core b.core
  refl _ := .refl
  trans := .trans

variable {K : Set Kind} {α : Type}

theorem moves_of_core {a b : Auth β} (h : b.core = a.core) : (Moves K).rel a b := by
  show Relation.ReflTransGen _ _ _
  rw [h]

theorem moves_of_move {a b : Auth β} (h : Move K a.core b.core) : (Moves K).rel a b :=
  .single h

theorem moves_of_quiet {m : Ctap β α} (h : Keeps Quiet m) : Keeps (Moves K) m :=
  h.mono fun _ _ hcore => moves_of_core hcore

end

/-! ## Settings under a move -/

theorem systemKey_pin : SystemKey pinStorageKey := systemKey_of_take (by decide) (by decide)

theorem systemKey_retries : SystemKey pinRetriesKey := systemKey_of_take (by decide) (by decide)

theorem systemKey_counter : SystemKey signCounterStorageKey :=
  systemKey_of_take (by decide) (by decide)

theorem systemKey_alwaysUv : SystemKey cfgAlwaysUvKey := systemKey_of_take (by decide) (by decide)

theorem systemKey_minPinLength : SystemKey cfgMinPinLengthKey :=
  systemKey_of_take (by decide) (by decide)

theorem systemKey_forceChangePin : SystemKey cfgForceChangePinKey :=
  systemKey_of_take (by decide) (by decide)

section Settings

variable {β : Type} [StorageBackend β] [LawfulBackend β]

omit [LawfulBackend β] in
theorem readDecimal_congr {e e' : StorageEngine β} {key : String} (h : e'.value key = e.value key)
    (bound fallback : Nat) :
    e'.readDecimal key bound fallback = e.readDecimal key bound fallback := by
  unfold StorageEngine.readDecimal
  rw [h]

/-- A number that was saved is read back. -/
theorem readDecimal_saved {e e' : StorageEngine β} {key : String} {n bound : Nat}
    (h : StorageEngine.Saved key (some (utf8 (toString n))) e e') (hn : n < bound)
    (fallback : Nat) : e'.readDecimal key bound fallback = n := by
  unfold StorageEngine.readDecimal
  rw [h.value_eq, if_pos rfl]
  simp only [Option.bind_some, ofUtf8_utf8, parseUnsigned_toString hn, Option.getD_some]

/-- A move changes a setting only by saving it. -/
theorem Move.value_eq {K : Set Kind} {c c' : Core β} (h : Move K c c') {key : String}
    (hkey : SystemKey key) :
    c'.storage.value key = c.storage.value key ∨
      (key = pinRetriesKey ∧
        StorageEngine.Saved key (some (utf8 (toString pinMaxRetries))) c.storage c'.storage) ∨
      ∃ v mark, Allowed c key v mark ∧ StorageEngine.Saved key v c.storage c'.storage := by
  cases h with
  | issue | dropToken | enumerate | compare | fail => exact .inl rfl
  | records hK hs hk => exact .inl (hs.1 key hkey)
  | @save key' hK v mark e hs ha =>
      by_cases heq : key = key'
      · subst heq
        exact .inr (.inr ⟨v, mark, ha, hs⟩)
      · exact .inl (by rw [hs.value_eq, if_neg heq])
  | restore hK hs ha =>
      by_cases heq : key = pinRetriesKey
      · subst heq
        exact .inr (.inl ⟨rfl, hs⟩)
      · exact .inl (by rw [hs.value_eq, if_neg heq])

/-- A setting that may not be saved stays as it is. -/
theorem Move.value_of_kind {K : Set Kind} {c c' : Core β} (h : Move K c c') {key : String}
    (hkey : SystemKey key) (hK : Kind.save key ∉ K) :
    c'.storage.value key = c.storage.value key := by
  cases h with
  | issue | dropToken | enumerate | compare | fail => rfl
  | records _ hs hk => exact hs.1 key hkey
  | @save key' hmem v mark e hs ha =>
      rw [hs.value_eq, if_neg]
      rintro rfl
      exact hK hmem
  | restore hmem hs ha =>
      rw [hs.value_eq, if_neg]
      rintro rfl
      exact hK hmem

/-- No move removes the PIN. -/
theorem Move.isPinSet {K : Set Kind} {c c' : Core β} (h : Move K c c')
    (hset : c.storage.isPinSet = true) : c'.storage.isPinSet = true := by
  unfold StorageEngine.isPinSet at *
  obtain heq | ⟨heq, -⟩ | ⟨v, mark, ha, hs⟩ := h.value_eq systemKey_pin
  · rw [heq]
    exact hset
  · exact absurd heq (by decide)
  · rw [hs.value_eq, if_pos rfl]
    generalize hkey : pinStorageKey = key at ha
    cases ha with
    | initialPin | newPin => rfl
    | takeRetry => exact absurd hkey (by decide)
    | alwaysUv => exact absurd hkey (by decide)
    | counted => exact absurd hkey (by decide)
    | plain key v hmem =>
        subst hkey
        exact absurd hmem (by decide)

theorem Move.synced {K : Set Kind} {c c' : Core β} (h : Move K c c') (hs : c.storage.Synced) :
    c'.storage.Synced := by
  cases h with
  | issue | dropToken | enumerate | compare | fail => exact hs
  | records hK hsettled hk => exact hsettled.2.1 hs
  | save hK hsaved ha => exact hsaved.synced hs
  | restore hK hsaved ha => exact hsaved.synced hs

theorem Move.backend {K : Set Kind} {c c' : Core β} (h : Move K c c') :
    c'.storage.backend.isSome = c.storage.backend.isSome := by
  cases h with
  | issue | dropToken | enumerate | compare | fail => rfl
  | records hK hsettled hk => exact hsettled.2.2
  | save hK hsaved ha => exact hsaved.backend
  | restore hK hsaved ha => exact hsaved.backend

theorem Move.keyed {K : Set Kind} {c c' : Core β} (h : Move K c c') (hk : c.storage.Keyed) :
    c'.storage.Keyed := by
  cases h with
  | issue | dropToken | enumerate | compare | fail => exact hk
  | records hK hsettled hkeyed => exact hkeyed hk
  | save hK hsaved ha =>
      intro id s hs
      rw [hsaved.credentials] at hs
      exact hk id s hs
  | restore hK hsaved ha =>
      intro id s hs
      rw [hsaved.credentials] at hs
      exact hk id s hs

theorem Move.next {K : Set Kind} {c c' : Core β} (h : Move K c c') (hK : Kind.enumerate ∉ K) :
    c'.next = c.next := by
  cases h with
  | enumerate hmem => exact absurd hmem hK
  | _ => rfl

/-- What every move keeps, a sequence of moves keeps. -/
theorem moves_invariant {K : Set Kind} {P : Core β → Prop}
    (hP : ∀ c c', Move K c c' → P c → P c') {a b : Auth β} (h : (Moves K).rel a b)
    (ha : P a.core) : P b.core := by
  have hpath : ∀ c, Relation.ReflTransGen (Move K) a.core c → P c := by
    intro c hc
    induction hc with
    | refl => exact ha
    | tail _ hmove ih => exact hP _ _ hmove ih
  exact hpath _ h

theorem value_of_moves {K : Set Kind} {key : String} (hkey : SystemKey key)
    (hK : Kind.save key ∉ K) {a b : Auth β} (h : (Moves K).rel a b) :
    b.storage.value key = a.storage.value key :=
  moves_invariant (P := fun c => c.storage.value key = a.storage.value key)
    (fun _ _ hmove heq => (hmove.value_of_kind hkey hK).trans heq) h rfl

theorem isPinSet_of_moves {K : Set Kind} {a b : Auth β} (h : (Moves K).rel a b)
    (hset : a.storage.isPinSet = true) : b.storage.isPinSet = true :=
  moves_invariant (P := fun c => c.storage.isPinSet = true) (fun _ _ hmove => hmove.isPinSet) h hset

end Settings

/-! ## Quiet programs -/

namespace Auth

section Quiet

variable {β α : Type} {F : Prog.Frame (Auth β)} [Aloof F]

theorem quiet_draw : Keeps F (draw : Ctap β Entropy) := .act fun _ => Aloof.aloof rfl rfl rfl

theorem quiet_randomBytes (len : Nat) : Keeps F (randomBytes len : Ctap β Bytes) :=
  quiet_draw.bind fun _ => .pure _

theorem quiet_currentTimestamp (build : Build) : Keeps F (currentTimestamp build : Ctap β Nat) :=
  .act fun a => by
    split
    · exact Aloof.aloof rfl rfl rfl
    · exact F.refl a

theorem quiet_checkPresence : Keeps F (checkPresence : Ctap β Unit) := by
  refine Keeps.bind (.act fun a => ?_) fun _ => .ensure _ _
  cases a.userPresence <;> exact Aloof.aloof rfl rfl rfl

omit [Aloof F] in
theorem quiet_endHmacSession [Sessionless F] : Keeps F (endHmacSession : Ctap β Unit) :=
  .update fun _ => Sessionless.sessionless rfl rfl

omit [Aloof F] in
theorem quiet_required (parameter : Option α) : Keeps F (required parameter : Ctap β α) :=
  .check _

omit [Aloof F] in
theorem quiet_demanded (parameter : Option α) : Keeps F (demanded parameter : Ctap β α) :=
  .check _

omit [Aloof F] in
theorem quiet_validateProtocol (pinProtocol : Option Nat) :
    Keeps F (validateProtocol pinProtocol : Ctap β PinUvProtocol) :=
  (quiet_required _).bind fun _ => .check _

theorem quiet_takeAgreementKey : Keeps F (takeAgreementKey : Ctap β Entropy) :=
  (Keeps.read _).bind fun announced => by
    cases announced with
    | none => exact quiet_draw
    | some key => exact Keeps.bind (.update fun _ => Aloof.aloof rfl rfl rfl) fun _ => .pure _

theorem quiet_performKeyAgreement (protocol : PinUvProtocol) (peerCose : CoseEc2Key) :
    Keeps F (performKeyAgreement protocol peerCose : Ctap β Bytes) :=
  (Keeps.check _).bind fun _ => quiet_takeAgreementKey.bind fun _ =>
    (Keeps.check _).bind fun _ => .check _

theorem quiet_encryptWith (protocol : PinUvProtocol) (secret plaintext : Bytes) :
    Keeps F (encryptWith protocol secret plaintext : Ctap β Bytes) := by
  refine Keeps.bind ?_ fun _ => .check _
  cases protocol with
  | one => exact .pure _
  | two => exact quiet_draw

omit [Aloof F] in
theorem quiet_verifyWith (protocol : PinUvProtocol) (secret message signature : Bytes) :
    Keeps F (verifyWith protocol secret message signature : Ctap β Unit) := .check _

omit [Aloof F] in
theorem quiet_decryptNewPin (protocol : PinUvProtocol) (secret newPinEnc : Bytes) :
    Keeps F (decryptNewPin protocol secret newPinEnc : Ctap β Bytes) := .check _

omit [Aloof F] in
theorem quiet_validatePermissions (permissions : UInt8) :
    Keeps F (validatePermissions permissions : Ctap β Unit) :=
  (Keeps.ensure _ _).bind fun _ => .ensure _ _

omit [Aloof F] in
theorem quiet_requireRpId (permissions : UInt8) (rpId : Option String) :
    Keeps F (requireRpId permissions rpId : Ctap β Unit) := .ensure _ _

omit [Aloof F] in
theorem quiet_handleGetRetries [StorageBackend β] :
    Keeps F (handleGetRetries : Ctap β ClientPinResponse) :=
  .read _

theorem quiet_handleGetKeyAgreement (request : ClientPinRequest) :
    Keeps F (handleGetKeyAgreement request : Ctap β ClientPinResponse) :=
  (quiet_validateProtocol _).bind fun _ => quiet_draw.bind fun _ => (Keeps.check _).bind fun _ =>
    Keeps.bind (.update fun _ => Aloof.aloof rfl rfl rfl) fun _ => .pure _

theorem quiet_askVerifier : Keeps F (askVerifier : Ctap β (Except Ctap2Error Unit)) := by
  refine .act fun a => ?_
  cases a.userVerification <;> exact Aloof.aloof rfl rfl rfl

omit [Aloof F] in
theorem quiet_handleGetUvRetries [StorageBackend β] :
    Keeps F (handleGetUvRetries : Ctap β ClientPinResponse) :=
  (Keeps.ensure _ _).bind fun _ => .read _

theorem quiet_takePinSharedSecret : Keeps F (takePinSharedSecret : Ctap β (Bytes × Nat)) :=
  Keeps.bind (.act fun _ => Aloof.aloof rfl rfl rfl) fun _ => .check _

theorem quiet_beginSession (request : HmacSecret.GetRequest) :
    Keeps F (beginSession request : Ctap β HmacSecretSession) :=
  (Keeps.check _).bind fun _ => (Keeps.check _).bind fun _ =>
    (Keeps.bind (.act fun _ => Aloof.aloof rfl rfl rfl) fun _ => .check _).bind fun _ =>
      (Keeps.check _).bind fun _ => .check _

theorem quiet_sessionOutput (session : HmacSecretSession) (secret : Bytes) :
    Keeps F (sessionOutput session secret : Ctap β Bytes) :=
  (Keeps.check _).bind fun _ => (Keeps.read _).bind fun _ => quiet_encryptWith _ _ _

theorem quiet_signRandomised (sign : CryptoEngine → Entropy → Except String Bytes) :
    Keeps F (signRandomised sign : Ctap β Bytes) :=
  quiet_draw.bind fun _ => .check _

variable (build : Build)

theorem quiet_signAssertion (algorithm : Int) (privateKey data : Bytes) :
    Keeps F (signAssertion build algorithm privateKey data : Ctap β Bytes) :=
  .ite (fun _ => quiet_signRandomised _) fun _ => .ite (fun _ => quiet_signRandomised _) fun _ =>
    .ite (fun _ => quiet_signRandomised _) fun _ => .ite (fun _ => quiet_signRandomised _) fun _ =>
      .check _

theorem quiet_signForAttestation (algorithm : Int) (privateKey data : Bytes) :
    Keeps F (signForAttestation build algorithm privateKey data : Ctap β Bytes) :=
  (Keeps.ensure _ _).bind fun _ => quiet_signAssertion build _ _ _

theorem quiet_selfAttestation (data privateKey : Bytes) (algorithm : Int) :
    Keeps F (selfAttestation build data privateKey algorithm : Ctap β _) :=
  (quiet_signForAttestation build _ _ _).bind fun _ => .pure _

theorem quiet_attest (format : AttestationFormat) (data privateKey : Bytes) (algorithm : Int) :
    Keeps F (attest build format data privateKey algorithm : Ctap β _) := by
  cases format with
  | none => exact .pure _
  | self => exact quiet_selfAttestation build _ _ _
  | packed =>
      refine (Keeps.read _).bind fun certificate => ?_
      cases certificate with
      | none => exact quiet_selfAttestation build _ _ _
      | some certificate => exact (quiet_signForAttestation build _ _ _).bind fun _ => .pure _
  | u2f | androidKey | apple => exact .fail _

theorem quiet_drawKeyPair (generate : CryptoEngine → Entropy → Except String (Bytes × Bytes)) :
    Keeps F (drawKeyPair generate : Ctap β (Bytes × Bytes)) :=
  quiet_draw.bind fun _ => .check _

theorem quiet_newKeyPair (algorithm : Int) :
    Keeps F (newKeyPair build algorithm : Ctap β (Bytes × Bytes)) :=
  .ite (fun _ => quiet_drawKeyPair _) fun _ => .ite (fun _ => quiet_drawKeyPair _) fun _ =>
    .ite (fun _ => quiet_drawKeyPair _) fun _ => quiet_drawKeyPair _

theorem quiet_newLargeBlobKey (extensions : Option Extensions) :
    Keeps F (newLargeBlobKey extensions : Ctap β (Option Bytes)) :=
  .ite (fun _ => (quiet_randomBytes _).bind fun _ => .pure _) fun _ => .pure _

theorem quiet_newCredRandoms (extensions : Option Extensions) :
    Keeps F (newCredRandoms extensions : Ctap β (Option Bytes × Option Bytes)) :=
  (Keeps.check _).bind fun _ => .ite
    (fun _ => (quiet_randomBytes _).bind fun _ => (quiet_randomBytes _).bind fun _ => .pure _)
    fun _ => .pure _

theorem quiet_newCredential (request : MakeCredentialRequest) (algorithm : Int)
    (rpIdHash credBlob : Bytes) :
    Keeps F (newCredential build request algorithm rpIdHash credBlob : Ctap β Credential) :=
  (quiet_randomBytes _).bind fun _ => (quiet_newKeyPair build _).bind fun _ =>
    (quiet_newLargeBlobKey _).bind fun _ => (quiet_newCredRandoms _).bind fun _ =>
      (quiet_currentTimestamp build).bind fun _ => .pure _

omit [Aloof F] in
theorem quiet_authenticateOperation [StorageBackend β] (pinProtocol : Option Nat)
    (pinUvAuthParam : Option Bytes) (clientDataHash : Bytes) (permission : UInt8) (rpId : String)
    (uv : Bool) :
    Keeps F (authenticateOperation pinProtocol pinUvAuthParam clientDataHash permission rpId uv :
      Ctap β Bool) :=
  (Keeps.check _).bind fun _ => (Keeps.ensure _ _).bind fun _ => (Keeps.ensure _ _).bind fun _ =>
    .pure _

omit [Aloof F] in
theorem quiet_firstHmacSecret [Sessionless F] (credential : Credential)
    (up pinAuthenticated : Bool) (raw : Value) :
    Keeps F (firstHmacSecret credential up pinAuthenticated raw : Ctap β (Option Value)) := by
  refine (Keeps.ensure _ _).bind fun _ => (Keeps.check _).bind fun request => ?_
  cases credRandom credential pinAuthenticated with
  | none => exact .pure _
  | some secret =>
      exact (quiet_beginSession _).bind fun _ => (quiet_sessionOutput _ _).bind fun _ =>
        Keeps.bind (.update fun _ => Sessionless.sessionless rfl rfl) fun _ => .pure _

omit [Aloof F] in
theorem quiet_firstExtensions [Sessionless F] (request : GetAssertionRequest)
    (credential : Credential) (pinAuthenticated : Bool) :
    Keeps F (firstExtensions request credential pinAuthenticated :
      Ctap β (Option ExtensionOutputs)) := by
  unfold firstExtensions
  cases request.extensions.filter Extensions.hasAny with
  | none => exact .pure _
  | some extensions =>
      refine Keeps.bind (Keeps.bind ?_ fun _ => .pure _) fun _ => .pure _
      cases extensions.hmacSecret with
      | none => exact .pure _
      | some raw => exact quiet_firstHmacSecret _ _ _ _

theorem quiet_chainedHmacSecret (state : GetNextAssertionState) (credential : Credential) :
    Keeps F (chainedHmacSecret state credential : Ctap β (Option Value)) := by
  refine (Keeps.read _).bind fun session => ?_
  split
  · exact (quiet_sessionOutput _ _).bind fun _ => .pure _
  · exact .pure _

omit [Aloof F] in
theorem quiet_beginEnumeration (put : Option (Enumeration α) → Auth β → Auth β)
    (hput : ∀ state a, F.rel a (put state a)) (items : List α) :
    Keeps F (beginEnumeration put items) := by
  cases items with
  | nil => exact .fail _
  | cons first rest => exact Keeps.bind (.update fun a => hput _ a) fun _ => .pure _

omit [Aloof F] in
theorem quiet_nextInEnumeration (get : Auth β → Option (Enumeration α))
    (put : Option (Enumeration α) → Auth β → Auth β)
    (hput : ∀ state a, F.rel a (put state a)) : Keeps F (nextInEnumeration get put) := by
  refine (Keeps.check _).bind fun state => ?_
  cases state.items[state.currentIndex + 1]? with
  | none => exact Keeps.bind (.update fun a => hput _ a) fun _ => .fail _
  | some item => exact Keeps.bind (.update fun a => hput _ a) fun _ => .pure _

theorem quiet_handleEnumerateRpsInitial :
    Keeps F (handleEnumerateRpsInitial : Ctap β EnumerateRpsResponse) :=
  (Keeps.read _).bind fun rps =>
    (quiet_beginEnumeration putEnumerateRps (fun _ _ => Aloof.aloof rfl rfl rfl) rps).bind
      fun _ => .pure _

theorem quiet_handleEnumerateRpsNext :
    Keeps F (handleEnumerateRpsNext : Ctap β EnumerateRpsResponse) :=
  (quiet_nextInEnumeration _ putEnumerateRps fun _ _ => Aloof.aloof rfl rfl rfl).bind
    fun _ => .pure _

theorem quiet_handleCredMgmtEnumerateRpsBegin :
    Keeps F (handleCredMgmtEnumerateRpsBegin : Ctap β CtapResponse) :=
  (Keeps.read _).bind fun rps =>
    (quiet_beginEnumeration putCredMgmtRps (fun _ _ => Aloof.aloof rfl rfl rfl) rps).bind
      fun _ => .pure _

theorem quiet_handleCredMgmtEnumerateRpsNext :
    Keeps F (handleCredMgmtEnumerateRpsNext : Ctap β CtapResponse) :=
  (quiet_nextInEnumeration _ putCredMgmtRps fun _ _ => Aloof.aloof rfl rfl rfl).bind
    fun _ => .pure _

omit [Aloof F] in
theorem quiet_handleCredMgmtEnumerateCredsBegin [Inert F] (rpHash : Bytes) :
    Keeps F (handleCredMgmtEnumerateCredsBegin rpHash : Ctap β CtapResponse) :=
  (Keeps.read _).bind fun creds =>
    (quiet_beginEnumeration putCredMgmtCreds (fun _ _ => Inert.allow rfl rfl) creds).bind
      fun _ => .pure _

omit [Aloof F] in
theorem quiet_handleCredMgmtEnumerateCredsNext [Inert F] :
    Keeps F (handleCredMgmtEnumerateCredsNext : Ctap β CtapResponse) :=
  (quiet_nextInEnumeration _ putCredMgmtCreds fun _ _ => Inert.allow rfl rfl).bind fun _ => .pure _

omit [Aloof F] in
theorem quiet_handleBioEnroll (data : Bytes) :
    Keeps F (handleBioEnroll build data : Ctap β BioEnrollResponse) :=
  (Keeps.check _).bind fun _ => (Keeps.ensure _ _).bind fun _ => .pure _

omit [Aloof F] in
theorem quiet_readLargeBlobs (request : LargeBlobsRequest) :
    Keeps F (readLargeBlobs request : Ctap β LargeBlobsResponse) :=
  (Keeps.check _).bind fun _ => .read _

end Quiet

end Auth

namespace Auth

/-! ## Storage calls -/

section Storage

variable {β α : Type} [StorageBackend β] [LawfulBackend β] {K : Set Kind}

omit [StorageBackend β] [LawfulBackend β] in
theorem core_onStorage (mark : Mark) (m : Prog (StorageEngine β) EngineError α) (a : Auth β) :
    ((onStorage mark m).run a).2.core =
      { a.core with
        storage := (m.run a.storage).2, log := .stored (m.run a.storage).2 mark :: a.log } := rfl

omit [StorageBackend β] [LawfulBackend β] in
theorem run_onStorage_ok {ε : Type} {f : EngineError → ε} {mark : Mark}
    {m : Prog (StorageEngine β) EngineError α} {a : Auth β} {v : α} {e : StorageEngine β}
    (h : m.run a.storage = (.ok v, e)) : (Prog.mapError f (onStorage mark m)).run a =
      (.ok v, { a with storage := e, log := .stored e mark :: a.log }) := by
  refine Prod.ext ?_ ?_
  · show (m.run a.storage).1.mapError f = _
    rw [h]
    rfl
  · show ({ a with storage := (m.run a.storage).2, log := _ } : Auth β) = _
    rw [h]

/-- A storage call on credentials or large blobs is a move. -/
theorem moves_records {ε : Type} {f : EngineError → ε} {m : Prog (StorageEngine β) EngineError α}
    (hK : Kind.records ∈ K) (hs : Keeps StorageEngine.Settled m)
    (hk : Keeps (.invariant StorageEngine.Keyed) m) :
    Keeps (Moves K) (Prog.mapError f (onStorage .ordinary m)) :=
  fun a => moves_of_move (.records hK (hs a.storage) (hk a.storage))

theorem move_store {key : String} {v : Bytes} {mark : Mark} {a : Auth β}
    (hK : Kind.save key ∈ K) (ha : Allowed a.core key (some v) mark) :
    Move K a.core ((onStorage mark (StorageEngine.store key v)).run a).2.core := by
  rw [core_onStorage]
  exact .save hK (StorageEngine.saved_run_store key v a.storage) ha

theorem move_delete {key : String} {mark : Mark} {a : Auth β}
    (hK : Kind.save key ∈ K) (ha : Allowed a.core key none mark) :
    Move K a.core ((onStorage mark (StorageEngine.delete key)).run a).2.core := by
  rw [core_onStorage]
  exact .save hK (StorageEngine.saved_run_delete key a.storage) ha

theorem moves_persist_store {key : String} {v : Bytes} {mark : Mark} {a : Auth β}
    (hK : Kind.save key ∈ K) (ha : Allowed a.core key (some v) mark) :
    KeepsAt (Moves K) (persist mark (StorageEngine.store key v)) a :=
  moves_of_move (move_store hK ha)

theorem moves_persistIgnored_store {key : String} {v : Bytes} {mark : Mark} {a : Auth β}
    (hK : Kind.save key ∈ K) (ha : Allowed a.core key (some v) mark) :
    KeepsAt (Moves K) (persistIgnored mark (StorageEngine.store key v)) a :=
  moves_of_move (move_store hK ha)

theorem moves_setFlag {key : String} {a : Auth β} (hK : Kind.save key ∈ K)
    (ha : Allowed a.core key (some [0x31]) .ordinary) : KeepsAt (Moves K) (setFlag key) a :=
  moves_persist_store hK ha

theorem moves_clearFlag {key : String} {a : Auth β} (hK : Kind.save key ∈ K)
    (ha : Allowed a.core key none .ordinary) : KeepsAt (Moves K) (clearFlag key) a :=
  moves_of_move (move_delete hK ha)

theorem moves_toggleFlag {key : String} {a : Auth β} (hK : Kind.save key ∈ K)
    (ha : ∀ v, Allowed a.core key v .ordinary) : KeepsAt (Moves K) (toggleFlag key) a := by
  refine .read_bind ?_
  split
  · exact moves_clearFlag hK (ha none)
  · exact moves_setFlag hK (ha _)

/-! ## ClientPIN -/

theorem moves_failPin {a : Auth β} (hK : Kind.fail ∈ K) (hset : a.storage.isPinSet = true) :
    KeepsAt (Moves K) (failPin : Ctap β α) a :=
  .update_bind (moves_of_move (.fail hK hset)) (Keeps.check _ _)

theorem moves_resetPinRetries {mark : Mark} {a : Auth β} (hK : Kind.save pinRetriesKey ∈ K)
    (ha : (mark = .checkPassed ∧ ∃ path tail, a.log = .compared path true :: tail) ∨
      (mark = .ordinary ∧ ∃ e tail, a.log = .stored e .pinSet :: tail)) :
    KeepsAt (Moves K) (resetPinRetries mark) a := by
  refine moves_of_move ?_
  show Move K a.core ((onStorage mark (storeDecimal pinRetriesKey pinMaxRetries)).run
    { a with pinFailuresSinceReset := 0 }).2.core
  rw [core_onStorage, storeDecimal, StorageEngine.run_store]
  exact .restore hK (StorageEngine.saved_store _ _ a.storage) ha

/-- A PIN check of a subcommand may start: there is a PIN, a retry and no block. -/
structure CheckOpen (a : Auth β) : Prop where
  pinSet : a.storage.isPinSet = true
  retryLeft : a.storage.readRetries ≠ 0
  notBlocked : a.pinFailuresSinceReset < pinBlockThreshold

omit [LawfulBackend β] in
/-- The checks in the source, as it writes them. -/
theorem CheckOpen.of_checks {a : Auth β} (hset : a.storage.isPinSet = true)
    (hleft : (a.getPinRetries != 0) = true) (hopen : (!a.isPinAuthBlocked) = true) :
    a.CheckOpen := by
  refine ⟨hset, ?_, ?_⟩
  · simpa [getPinRetries] using hleft
  · simpa [isPinAuthBlocked] using hopen

omit [LawfulBackend β] in
theorem CheckOpen.of_core {a b : Auth β} (h : a.CheckOpen) (hcore : b.core = a.core) :
    b.CheckOpen := by
  have hs : b.storage = a.storage := congrArg Core.storage hcore
  have hf : b.pinFailuresSinceReset = a.pinFailuresSinceReset := congrArg Core.failures hcore
  exact ⟨hs ▸ h.pinSet, hs ▸ h.retryLeft, hf ▸ h.notBlocked⟩

theorem moves_decrementPinRetries {a : Auth β} (hK : Kind.save pinRetriesKey ∈ K)
    (ha : a.CheckOpen) : KeepsAt (Moves K) (decrementPinRetries .checkBegun) a :=
  .read_bind (moves_persistIgnored_store hK
    (.takeRetry ha.pinSet ha.retryLeft ha.notBlocked))

omit [LawfulBackend β] in
theorem log_decrementPinRetries (mark : Mark) (a : Auth β) :
    ∃ e, ((decrementPinRetries mark).run a).2.log = .stored e mark :: a.log := ⟨_, rfl⟩

omit [LawfulBackend β] in
theorem run_comparePinHash (path : PinPath) (submitted : Bytes) (a : Auth β) :
    (comparePinHash path submitted).run a = (.ok none, a) ∨
      ∃ matched, (comparePinHash path submitted).run a =
        (.ok (some matched), { a with log := .compared path matched :: a.log }) := by
  unfold comparePinHash
  rw [Prog.run_act]
  cases a.storage.value pinStorageKey with
  | none => exact .inl rfl
  | some stored => exact .inr ⟨_, rfl⟩

theorem moves_comparePinHash {path : PinPath} {a : Auth β} (submitted : Bytes)
    (hK : Kind.compare path ∈ K) (ha : path = .changePin ∨ path = .pinToken →
      ∃ e tail, a.log = .stored e .checkBegun :: tail) :
    KeepsAt (Moves K) (comparePinHash path submitted) a := by
  unfold KeepsAt
  obtain hrun | ⟨matched, hrun⟩ := run_comparePinHash path submitted a
  · rw [hrun]
    exact .refl
  · rw [hrun]
    exact moves_of_move (.compare hK matched ha)

/-- What a PIN check needs to be allowed to do. -/
structure CheckKinds (path : PinPath) (K : Set Kind) : Prop where
  retries : Kind.save pinRetriesKey ∈ K
  compare : Kind.compare path ∈ K
  fail : Kind.fail ∈ K

theorem moves_checkPinHash {path : PinPath} {a : Auth β} (protocol : PinUvProtocol)
    (secret pinHashEnc : Bytes) (hK : CheckKinds path K) (ha : a.CheckOpen) :
    KeepsAt (Moves K) (checkPinHash path protocol secret pinHashEnc) a := by
  have htake := moves_decrementPinRetries hK.retries ha
  refine .bind htake fun _ b hb => .read_bind ?_
  obtain ⟨e, hlog⟩ := log_decrementPinRetries .checkBegun a
  unfold KeepsAt at htake
  rw [hb] at hlog htake
  have hset : b.storage.isPinSet = true := isPinSet_of_moves htake ha.pinSet
  split
  · exact moves_failPin hK.fail hset
  · next hash _ =>
      refine .bind (moves_comparePinHash hash hK.compare fun _ => ⟨e, a.log, hlog⟩)
        fun matched c hc => ?_
      obtain hrun | ⟨m, hrun⟩ := run_comparePinHash path hash b
      · rw [hrun] at hc
        cases hc
        exact moves_failPin hK.fail hset
      · rw [hrun] at hc
        cases hc
        cases m with
        | false => exact moves_failPin hK.fail hset
        | true => exact moves_resetPinRetries hK.retries (.inl ⟨rfl, path, b.log, rfl⟩)

theorem moves_issuePinUvAuthToken (protocol : PinUvProtocol) (secret : Bytes) (permissions : UInt8)
    (rpId : Option String) (hK : Kind.issue ∈ K) :
    Keeps (Moves K) (issuePinUvAuthToken protocol secret permissions rpId : Ctap β Bytes) :=
  (moves_of_quiet (quiet_randomBytes _)).bind fun _ =>
    (moves_of_quiet (quiet_encryptWith _ _ _)).bind fun _ =>
      Keeps.bind (.update fun _ => moves_of_move (.issue hK ⟨_, _, _, _⟩)) fun _ => .pure _

theorem moves_invalidatePinUvAuthToken (hK : Kind.dropToken ∈ K) :
    Keeps (Moves K) (invalidatePinUvAuthToken : Ctap β Unit) :=
  .update fun _ => moves_of_move (.dropToken hK)

/-! ### The subcommands -/

/-- Run a quiet program first. -/
theorem quiet_bind {m : Ctap β α} {α' : Type} {f : α → Ctap β α'} {a : Auth β}
    (hm : Keeps Quiet m) (hf : ∀ x b, b.core = a.core → KeepsAt (Moves K) (f x) b) :
    KeepsAt (Moves K) (m >>= f) a :=
  (moves_of_quiet hm).bind_at hm hf

theorem moves_handleSetPin (request : ClientPinRequest) (hpin : Kind.save pinStorageKey ∈ K)
    (hretries : Kind.save pinRetriesKey ∈ K) (hdrop : Kind.dropToken ∈ K) :
    Keeps (Moves K) (handleSetPin request : Ctap β ClientPinResponse) := by
  intro a
  refine quiet_bind (quiet_validateProtocol _) fun protocol a₁ h₁ => .ensure_bind fun hset => ?_
  refine quiet_bind (quiet_required _) fun peer a₂ h₂ => quiet_bind (quiet_required _)
    fun newPinEnc a₃ h₃ => quiet_bind (quiet_required _) fun pinAuth a₄ h₄ =>
    quiet_bind (quiet_performKeyAgreement _ _) fun secret a₅ h₅ =>
    quiet_bind (quiet_verifyWith _ _ _ _)
    fun _ a₆ h₆ => quiet_bind (quiet_decryptNewPin _ _ _) fun newPin a₇ h₇ => ?_
  have hcore : a₇.core = a₁.core := by rw [h₇, h₆, h₅, h₄, h₃, h₂]
  have hunset : a₇.storage.isPinSet = false := by
    rw [show a₇.storage = a₁.storage from congrArg Core.storage hcore]
    simpa using hset
  refine .bind (.ensure_bind fun _ => ?_) fun _ _ _ => .pure _
  refine .bind (.read_bind (moves_persist_store hpin (.initialPin _ hunset))) fun _ b hb => ?_
  have hlog : ∃ e tail, b.log = .stored e .pinSet :: tail :=
    ⟨_, _, (congrArg (fun r => r.2.log) hb).symm⟩
  exact .bind (moves_resetPinRetries hretries (.inr ⟨rfl, hlog⟩)) fun _ c _ =>
    moves_invalidatePinUvAuthToken hdrop c

theorem moves_handleChangePin (request : ClientPinRequest) (hK : CheckKinds .changePin K)
    (hpin : Kind.save pinStorageKey ∈ K) (hdrop : Kind.dropToken ∈ K) :
    Keeps (Moves K) (handleChangePin request : Ctap β ClientPinResponse) := by
  intro a
  refine quiet_bind (quiet_validateProtocol _) fun protocol a₁ h₁ => .ensure_bind fun hset =>
    .ensure_bind fun hleft => .ensure_bind fun hopen => ?_
  have hcheck : a₁.CheckOpen := .of_checks hset hleft hopen
  refine quiet_bind (quiet_required _) fun peer a₂ h₂ => quiet_bind (quiet_required _)
    fun pinHashEnc a₃ h₃ => quiet_bind (quiet_required _) fun newPinEnc a₄ h₄ =>
    quiet_bind (quiet_required _) fun pinAuth a₅ h₅ => quiet_bind (quiet_performKeyAgreement _ _)
    fun secret a₆ h₆ => quiet_bind (quiet_verifyWith _ _ _ _) fun _ a₇ h₇ => ?_
  replace hcheck : a₇.CheckOpen := hcheck.of_core (by rw [h₇, h₆, h₅, h₄, h₃, h₂])
  have hmoves := moves_checkPinHash protocol secret pinHashEnc hK hcheck
  refine .bind hmoves fun _ b hb => ?_
  have hset' : b.storage.isPinSet = true := by
    unfold KeepsAt at hmoves
    rw [hb] at hmoves
    exact isPinSet_of_moves hmoves hcheck.pinSet
  refine quiet_bind (quiet_decryptNewPin _ _ _) fun newPin c hc => ?_
  refine .update_bind (moves_of_move (.dropToken hdrop)) ?_
  refine .bind (.read_bind (moves_persist_store hpin (.newPin _ ?_))) fun _ _ _ => .pure _
  show c.storage.isPinSet = true
  rw [show c.storage = b.storage from congrArg Core.storage hc]
  exact hset'

theorem moves_handleGetPinTokenCommon (request : ClientPinRequest) (protocol : PinUvProtocol)
    (permissions : UInt8) (rpId : Option String) (hK : CheckKinds .pinToken K)
    (hissue : Kind.issue ∈ K) :
    Keeps (Moves K) (handleGetPinTokenCommon request protocol permissions rpId :
      Ctap β ClientPinResponse) := by
  intro a
  refine KeepsAt.ensure_bind fun hset => .ensure_bind fun _ => .ensure_bind fun hleft =>
    .ensure_bind fun hopen => ?_
  have hcheck : a.CheckOpen := .of_checks hset hleft hopen
  refine quiet_bind (quiet_required _) fun peer a₁ h₁ => quiet_bind (quiet_required _)
    fun pinHashEnc a₂ h₂ => quiet_bind (quiet_performKeyAgreement _ _) fun secret a₃ h₃ => ?_
  replace hcheck : a₃.CheckOpen := hcheck.of_core (by rw [h₃, h₂, h₁])
  refine .bind (moves_checkPinHash protocol secret pinHashEnc hK hcheck) fun _ b _ => ?_
  exact ((moves_issuePinUvAuthToken _ _ _ _ hissue).bind fun _ => .pure _) b

theorem moves_handleGetPinToken (request : ClientPinRequest) (hK : CheckKinds .pinToken K)
    (hissue : Kind.issue ∈ K) :
    Keeps (Moves K) (handleGetPinToken request : Ctap β ClientPinResponse) :=
  (moves_of_quiet (quiet_validateProtocol _)).bind fun _ => (Keeps.ensure _ _).bind fun _ =>
    moves_handleGetPinTokenCommon _ _ _ _ hK hissue

theorem moves_handleGetPinTokenWithPermissions (request : ClientPinRequest)
    (hK : CheckKinds .pinToken K) (hissue : Kind.issue ∈ K) :
    Keeps (Moves K) (handleGetPinTokenWithPermissions request : Ctap β ClientPinResponse) :=
  (moves_of_quiet (quiet_validateProtocol _)).bind fun _ =>
    (moves_of_quiet (quiet_required _)).bind fun _ =>
      (moves_of_quiet (quiet_validatePermissions _)).bind fun _ =>
        (moves_of_quiet (quiet_requireRpId _ _)).bind fun _ =>
          moves_handleGetPinTokenCommon _ _ _ _ hK hissue

theorem moves_storeUvRetries (n : Nat) (hK : Kind.save uvRetriesKey ∈ K) :
    Keeps (Moves K) (persistIgnored .ordinary (storeDecimal uvRetriesKey n) : Ctap β Unit) :=
  fun _ => moves_persistIgnored_store hK (.plain _ _ (by decide))

theorem moves_performBuiltinUv (hK : Kind.save uvRetriesKey ∈ K) :
    Keeps (Moves K) (performBuiltinUv : Ctap β Unit) := by
  refine (Keeps.ensure _ _).bind fun _ => (Keeps.ensure _ _).bind fun _ =>
    (moves_of_quiet quiet_askVerifier).bind fun result => ?_
  cases result with
  | ok u => exact moves_storeUvRetries _ hK
  | error error =>
      exact (Keeps.read _).bind fun _ => (moves_storeUvRetries _ hK).bind fun _ => .fail _

theorem moves_handleGetUvToken (request : ClientPinRequest) (huv : Kind.save uvRetriesKey ∈ K)
    (hissue : Kind.issue ∈ K) :
    Keeps (Moves K) (handleGetUvToken request : Ctap β ClientPinResponse) :=
  (moves_of_quiet (quiet_validateProtocol _)).bind fun _ =>
    (moves_of_quiet (quiet_required _)).bind fun _ =>
      (moves_of_quiet (quiet_validatePermissions _)).bind fun _ =>
        (moves_performBuiltinUv huv).bind fun _ =>
          (moves_of_quiet (quiet_requireRpId _ _)).bind fun _ =>
            (moves_of_quiet (quiet_required _)).bind fun _ =>
              (moves_of_quiet (quiet_performKeyAgreement _ _)).bind fun _ =>
                (moves_issuePinUvAuthToken _ _ _ _ hissue).bind fun _ => .pure _

/-- The kinds of moves ClientPIN makes. -/
def clientPinKinds : Set Kind :=
  {.save pinStorageKey, .save pinRetriesKey, .save uvRetriesKey, .compare .changePin,
    .compare .pinToken, .fail, .issue, .dropToken}

theorem moves_handleClientPin (build : Build) (data : Bytes) (hK : clientPinKinds ⊆ K) :
    Keeps (Moves K) (handleClientPin build data : Ctap β ClientPinResponse) := by
  have hchange : CheckKinds .changePin K :=
    ⟨hK (by simp [clientPinKinds]), hK (by simp [clientPinKinds]), hK (by simp [clientPinKinds])⟩
  have htoken : CheckKinds .pinToken K :=
    ⟨hK (by simp [clientPinKinds]), hK (by simp [clientPinKinds]), hK (by simp [clientPinKinds])⟩
  have hissue : Kind.issue ∈ K := hK (by simp [clientPinKinds])
  have hdrop : Kind.dropToken ∈ K := hK (by simp [clientPinKinds])
  have hpin : Kind.save pinStorageKey ∈ K := hK (by simp [clientPinKinds])
  have huv : Kind.save uvRetriesKey ∈ K := hK (by simp [clientPinKinds])
  refine (Keeps.check _).bind fun request => ?_
  unfold clientPinSubCommand
  split
  · exact moves_of_quiet quiet_handleGetRetries
  · exact moves_of_quiet (quiet_handleGetKeyAgreement _)
  · exact moves_handleSetPin _ hpin hchange.retries hdrop
  · exact moves_handleChangePin _ hchange hpin hdrop
  · exact moves_handleGetPinToken _ htoken hissue
  · exact moves_handleGetUvToken _ huv hissue
  · exact moves_of_quiet quiet_handleGetUvRetries
  · exact moves_handleGetPinTokenWithPermissions _ htoken hissue
  · exact .fail _

/-! ## AuthenticatorConfig -/

/-- The kinds of moves AuthenticatorConfig makes. -/
def configKinds : Set Kind :=
  {.save cfgAlwaysUvKey, .save cfgMakeCredUvNotRqdKey, .save cfgMinPinLengthKey,
    .save cfgMinPinLengthRpidsKey, .save cfgForceChangePinKey, .save cfgEpPendingKey,
    .compare .currentPin}

theorem moves_verifyCurrentPin (encrypted : Bytes) (hK : Kind.compare .currentPin ∈ K) :
    Keeps (Moves K) (verifyCurrentPin encrypted : Ctap β Unit) :=
  (moves_of_quiet quiet_takePinSharedSecret).bind fun _ => (Keeps.check _).bind fun _ =>
    (Keeps.ensure _ _).bind fun _ => (Keeps.read _).bind fun hash =>
      Keeps.bind (fun _ => moves_comparePinHash hash hK (by simp)) fun _ => .ensure _ _

theorem moves_storePlain {key : String} (v : Bytes) (hplain : key ∈ plainKeys)
    (hK : Kind.save key ∈ K) :
    Keeps (Moves K) (persist .ordinary (StorageEngine.store key v) : Ctap β Unit) :=
  fun _ => moves_persist_store hK (.plain _ _ hplain)

/-- The kinds of moves setMinPINLength makes. -/
def minPinLengthKinds : Set Kind :=
  {.save cfgMinPinLengthKey, .save cfgMinPinLengthRpidsKey, .save cfgForceChangePinKey,
    .compare .currentPin}

theorem minPinLengthKinds_subset : minPinLengthKinds ⊆ configKinds := by
  rintro kind (rfl | rfl | rfl | rfl) <;> simp [configKinds]

theorem moves_handleSetMinPinLength (build : Build) (params : Option Value)
    (hK : minPinLengthKinds ⊆ K) :
    Keeps (Moves K) (handleSetMinPinLength build params : Ctap β Unit) := by
  have hforce : Kind.save cfgForceChangePinKey ∈ K := hK (by simp [minPinLengthKinds])
  refine (Keeps.check _).bind fun params => Keeps.bind ?_ fun _ =>
    (moves_storePlain _ (by decide) (hK (by simp [minPinLengthKinds]))).bind fun _ =>
      Keeps.bind ?_ fun _ => ?_
  · cases params.currentPin with
    | none => exact .pure ()
    | some encrypted => exact moves_verifyCurrentPin _ (hK (by simp [minPinLengthKinds]))
  · cases params.rpids with
    | none => exact .pure ()
    | some rpids => exact moves_storePlain _ (by decide) (hK (by simp [minPinLengthKinds]))
  · split
    · exact fun _ => moves_setFlag hforce (.plain _ _ (by decide))
    · exact fun _ => moves_clearFlag hforce (.plain _ _ (by decide))

theorem moves_handleAuthnrConfig (build : Build) (data : Bytes) (hK : configKinds ⊆ K) :
    Keeps (Moves K) (handleAuthnrConfig build data : Ctap β Unit) := by
  intro a
  refine KeepsAt.check_bind fun request _ => .ensure_bind fun hset => ?_
  refine quiet_bind (quiet_required _) fun protocol a₁ h₁ => quiet_bind (quiet_required _)
    fun pinAuth a₂ h₂ => .check_bind fun message _ => .check_bind fun _ _ => ?_
  have hstorage : a₂.storage = a.storage := congrArg Core.storage (h₂.trans h₁)
  unfold authnrConfigSubCommand
  split
  · exact moves_setFlag (hK (by simp [configKinds])) (.plain _ _ (by decide))
  · next hsub =>
      -- the one setting that is guarded by the PIN
      refine moves_toggleFlag (hK (by simp [configKinds])) fun v => .alwaysUv v ?_
      show a₂.storage.isPinSet = true
      rw [hstorage]
      simpa [hsub] using hset
  · exact moves_handleSetMinPinLength build _ (minPinLengthKinds_subset.trans hK) _
  · exact moves_toggleFlag (hK (by simp [configKinds])) fun v => .plain _ v (by decide)
  · exact ((Keeps.check _).bind fun _ =>
      moves_storePlain _ (by decide) (hK (by simp [configKinds]))) _
  · exact .refl

/-! ## Credentials -/

/-- The kinds of moves MakeCredential makes. -/
def makeCredentialKinds : Set Kind := {.records, .save cfgEpPendingKey}

theorem moves_storeCredential (build : Build) (credential : Credential) (hK : Kind.records ∈ K) :
    Keeps (Moves K) (storeCredential build credential : Ctap β Unit) :=
  (moves_records hK StorageEngine.settled_makeRoom StorageEngine.keyed_makeRoom).bind fun _ =>
    (moves_of_quiet (quiet_randomBytes _)).bind fun _ => (Keeps.read _).bind fun _ =>
      moves_records hK (StorageEngine.settled_insertCredential _ _ _ _)
        (StorageEngine.keyed_insertCredential _ _ _ _)

theorem moves_consumeEpPending (hK : Kind.save cfgEpPendingKey ∈ K) :
    Keeps (Moves K) (consumeEpPending : Ctap β Bool) :=
  (Keeps.read _).bind fun _ => Keeps.bind
    (.when fun _ => fun _ => moves_clearFlag hK (.plain _ _ (by decide))) fun _ => .pure _

theorem moves_makeCredentialResponse (build : Build) (request : MakeCredentialRequest)
    (credential : Credential) (pinAuthenticated : Bool) (hK : Kind.save cfgEpPendingKey ∈ K) :
    Keeps (Moves K) (makeCredentialResponse build request credential pinAuthenticated :
      Ctap β MakeCredentialResponse) :=
  (Keeps.check _).bind fun _ => (Keeps.check _).bind fun _ =>
    (moves_consumeEpPending hK).bind fun _ => (Keeps.read _).bind fun _ =>
      (moves_of_quiet (quiet_attest build _ _ _ _)).bind fun _ => .pure _

theorem moves_makeCredential (build : Build) (request : MakeCredentialRequest)
    (hK : makeCredentialKinds ⊆ K) :
    Keeps (Moves K) (makeCredential build request : Ctap β MakeCredentialResponse) :=
  (moves_of_quiet (quiet_authenticateOperation _ _ _ _ _ _)).bind fun _ =>
    (Keeps.when fun _ => moves_of_quiet quiet_checkPresence).bind fun _ =>
      (Keeps.read _).bind fun _ => (Keeps.check _).bind fun _ => (Keeps.check _).bind fun _ =>
        (Keeps.check _).bind fun _ =>
          (moves_of_quiet (quiet_newCredential build _ _ _ _)).bind fun _ =>
          (moves_storeCredential build _ (hK (by simp [makeCredentialKinds]))).bind fun _ =>
            moves_makeCredentialResponse build _ _ _ (hK (by simp [makeCredentialKinds]))

/-- The kinds of moves GetAssertion and GetNextAssertion make. -/
def assertionKinds : Set Kind := {.records, .save signCounterStorageKey, .enumerate}

theorem moves_nextSignCount (hK : Kind.save signCounterStorageKey ∈ K) :
    Keeps (Moves K) (nextSignCount : Ctap β Nat) := by
  intro a
  refine KeepsAt.read_bind (.ensure_bind fun hlt => .bind ?_ fun _ _ _ => .pure _)
  refine moves_persist_store hK (.counted ?_)
  show a.storage.signCounter + 1 < 2 ^ 32
  exact of_decide_eq_true hlt

theorem moves_signCounted (build : Build) (credential : Credential) (rpIdHash : Bytes)
    (flags : UInt8) (clientDataHash : Bytes) (hsave : Kind.save signCounterStorageKey ∈ K)
    (hrecords : Kind.records ∈ K) :
    Keeps (Moves K) (signCounted build credential rpIdHash flags clientDataHash :
      Ctap β Assertion) :=
  (moves_nextSignCount hsave).bind fun _ =>
    (moves_records hrecords (StorageEngine.settled_updateSignCount _ _ _)
      (StorageEngine.keyed_updateSignCount _ _ _)).bind fun _ =>
        (moves_of_quiet (quiet_signAssertion build _ _ _)).bind fun _ => .pure _

theorem moves_openEnumeration (request : GetAssertionRequest) (flags : UInt8) (uvSatisfied : Bool)
    (credential : Credential) (hK : Kind.enumerate ∈ K) :
    Keeps (Moves K) (openEnumeration request flags uvSatisfied credential : Ctap β Nat) :=
  (Keeps.read _).bind fun _ => .ite
    (fun _ => Keeps.bind (.update fun _ => moves_of_move (.enumerate hK _)) fun _ => .pure _)
    fun _ => (moves_of_quiet quiet_endHmacSession).bind fun _ => .pure _

theorem moves_getAssertion (build : Build) (request : GetAssertionRequest)
    (hK : assertionKinds ⊆ K) :
    Keeps (Moves K) (getAssertion build request : Ctap β GetAssertionResponse) := by
  have hsave : Kind.save signCounterStorageKey ∈ K := hK (by simp [assertionKinds])
  have hrecords : Kind.records ∈ K := hK (by simp [assertionKinds])
  exact (moves_of_quiet (quiet_authenticateOperation _ _ _ _ _ _)).bind fun _ =>
    (Keeps.when fun _ => moves_of_quiet quiet_checkPresence).bind fun _ =>
      (Keeps.read _).bind fun _ => (Keeps.check _).bind fun _ => (Keeps.read _).bind fun _ =>
        (moves_signCounted build _ _ _ _ hsave hrecords).bind fun _ =>
          (moves_of_quiet (quiet_firstExtensions _ _ _)).bind fun _ =>
            (moves_openEnumeration _ _ _ _ (hK (by simp [assertionKinds]))).bind fun _ => .pure _

theorem moves_handleGetNextAssertion (build : Build) (hK : assertionKinds ⊆ K) :
    Keeps (Moves K) (handleGetNextAssertion build : Ctap β GetAssertionResponse) := by
  have henum : Kind.enumerate ∈ K := hK (by simp [assertionKinds])
  have hsave : Kind.save signCounterStorageKey ∈ K := hK (by simp [assertionKinds])
  have hrecords : Kind.records ∈ K := hK (by simp [assertionKinds])
  have htake : Keeps (Moves K) (takeNextState : Ctap β GetNextAssertionState) :=
    Keeps.bind (.act fun _ => moves_of_move (.enumerate henum none)) fun _ => .check _
  refine htake.bind fun state => (Keeps.read _).bind fun found => Keeps.bind ?_ fun _ =>
    (Keeps.check _).bind fun _ => (moves_of_quiet (quiet_chainedHmacSecret _ _)).bind fun _ =>
      (Keeps.when fun _ => moves_of_quiet quiet_endHmacSession).bind fun _ =>
        Keeps.bind (.update fun _ => moves_of_move (.enumerate henum _)) fun _ =>
          (Keeps.read _).bind fun _ =>
            (moves_signCounted build _ _ _ _ hsave hrecords).bind fun _ => .pure _
  unfold nextMatch
  cases found[state.currentIndex + 1]? with
  | none => exact (moves_of_quiet quiet_endHmacSession).bind fun _ => .fail _
  | some id => exact .pure id

/-! ## Management -/

theorem moves_handleLargeBlobs (build : Build) (data : Bytes) (hK : Kind.records ∈ K) :
    Keeps (Moves K) (handleLargeBlobs build data : Ctap β LargeBlobsResponse) := by
  refine (Keeps.check _).bind fun request => ?_
  cases request.set with
  | none => exact moves_of_quiet (quiet_readLargeBlobs _)
  | some blob =>
      exact (Keeps.check _).bind fun write => (moves_records hK
        (StorageEngine.settled_writeLargeBlobs _ _ _)
        (StorageEngine.keyed_writeLargeBlobs _ _ _)).bind fun _ => .pure _

theorem moves_handleCredentialManagement (build : Build) (data : Bytes) (hK : Kind.records ∈ K) :
    Keeps (Moves K) (handleCredentialManagement build data : Ctap β CtapResponse) := by
  refine (Keeps.check _).bind fun request => (Keeps.check _).bind fun _ =>
    (Keeps.check _).bind fun _ => (Keeps.ensure _ _).bind fun _ =>
      (Keeps.ensure _ _).bind fun _ => ?_
  have hdemand : ∀ {α' : Type} (p : Option α'), Keeps (Moves K) (demanded p : Ctap β α') :=
    fun p => moves_of_quiet (quiet_demanded p)
  unfold credMgmtSubCommand
  split
  · exact .read _
  · exact moves_of_quiet quiet_handleCredMgmtEnumerateRpsBegin
  · exact moves_of_quiet quiet_handleCredMgmtEnumerateRpsNext
  · exact (hdemand _).bind fun _ => (hdemand _).bind fun _ =>
      moves_of_quiet (quiet_handleCredMgmtEnumerateCredsBegin _)
  · exact moves_of_quiet quiet_handleCredMgmtEnumerateCredsNext
  · exact (hdemand _).bind fun _ => (hdemand _).bind fun _ =>
      (moves_records hK (StorageEngine.settled_deleteCredential _)
        (StorageEngine.keyed_deleteCredential _)).bind fun _ => .pure _
  · exact (hdemand _).bind fun _ => (hdemand _).bind fun _ => (hdemand _).bind fun _ =>
      (moves_records hK (StorageEngine.settled_updateUserInfo _ _ _ _)
        (StorageEngine.keyed_updateUserInfo _ _ _ _)).bind fun _ => (Keeps.ensure _ _).bind fun _ =>
          .pure _
  · exact .fail _

/-! ## Commands -/

/-- The kinds of moves a command makes; Reset is not a sequence of moves. -/
def commandKinds : Ctap2Command → Set Kind
  | .makeCredential => makeCredentialKinds
  | .getAssertion => assertionKinds
  | .getNextAssertion => assertionKinds
  | .clientPin => clientPinKinds
  | .authenticatorConfig => configKinds
  | .credentialManagement => {.records}
  | .largeBlobs => {.records}
  | _ => ∅

/-- Every command but Reset is a sequence of moves of its kinds. -/
theorem moves_processCommand (build : Build) (cmd : UInt8) (data : Bytes)
    (hcmd : Ctap2Command.fromU8 cmd ≠ .reset) :
    Keeps (Moves (commandKinds (.fromU8 cmd)))
      (processCommand build cmd data : Ctap β CtapResponse) := by
  refine (Keeps.when fun _ => moves_of_quiet quiet_endHmacSession).bind fun _ => ?_
  generalize Ctap2Command.fromU8 cmd = command at hcmd
  cases command with
  | makeCredential =>
      exact ((Keeps.check _).bind fun _ => moves_makeCredential build _ subset_rfl).map
  | getAssertion => exact ((Keeps.check _).bind fun _ => moves_getAssertion build _ subset_rfl).map
  | getInfo => exact (Keeps.check _).map
  | clientPin => exact (moves_handleClientPin build data subset_rfl).map
  | reset => exact absurd rfl hcmd
  | getNextAssertion => exact (moves_handleGetNextAssertion build subset_rfl).map
  | bioEnroll => exact (moves_of_quiet (quiet_handleBioEnroll build data)).map
  | credentialManagement => exact moves_handleCredentialManagement build data rfl
  | selection | getVersion => exact .pure _
  | largeBlobs =>
      have hmoves : Keeps (Moves (commandKinds .largeBlobs))
        (handleLargeBlobs build data : Ctap β LargeBlobsResponse) :=
        moves_handleLargeBlobs build data rfl
      exact hmoves.map
  | authenticatorConfig => exact (moves_handleAuthnrConfig build data subset_rfl).map
  | enumerateRpsInitial => exact (moves_of_quiet quiet_handleEnumerateRpsInitial).map
  | enumerateRpsNext => exact (moves_of_quiet quiet_handleEnumerateRpsNext).map
  | unknown value => exact .fail _

end Storage

end Auth

end OpenKey
