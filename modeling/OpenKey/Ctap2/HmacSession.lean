import OpenKey.Ctap2.Enumeration
import OpenKey.Ctap2.Selection

/-!
# hmac-secret over a run

A GetAssertion with the extension agrees on a secret with the platform and keeps it, with the
salts, for the assertions that follow. The invariant of runs: a session in force was begun by the
last GetAssertion that opened an enumeration, from the request in its own extensions. The secret
of the credential is chosen by the verdict on the token in the first answer and by the gate of
credProtect in the others; the two agree because alwaysUv is only on while a PIN is set.
-/

namespace OpenKey

open Prog (Keeps KeepsOnFail bind_eq_ok check_eq_ok ensure_eq_ok)

set_option autoImplicit false

namespace Auth

variable {β : Type} [StorageBackend β] (build : Build)

/-! ## Sessions and outputs -/

/-- The session a request of the extension leads to: the announced key of the device and the key
of the platform agree on the secret, and the salts are decrypted with it. -/
def SessionOf (a : Auth β) (request : HmacSecret.GetRequest) (session : HmacSecretSession) : Prop :=
  ∃ protocol peer key z, PinUvProtocol.new request.pinProtocol = some protocol ∧
    request.keyAgreement.toUncompressed = .ok peer ∧ a.pinAgreementKey = some key ∧
    a.crypto.prims.ecdhAgree key peer = some z ∧
    openSession a.crypto.prims protocol z request = .ok session

/-- An output of the extension: one HMAC per salt under the secret, encrypted for the platform. -/
def OutputOf (crypto : CryptoEngine) (session : HmacSecretSession) (secret : Bytes)
    (output : Value) : Prop :=
  ∃ protocol entropy encrypted, PinUvProtocol.new session.pinProtocol = some protocol ∧
    protocol.encrypt crypto.prims entropy session.sharedSecret
      ((chunks saltLen session.salts.length session.salts).flatMap fun salt =>
        crypto.computeHmac salt secret) = .ok encrypted ∧
    output = .bytes encrypted

omit [StorageBackend β] in
theorem beginSession_ok {request : HmacSecret.GetRequest} {session : HmacSecretSession}
    {a b : Auth β} (h : (beginSession request).run a = (.ok session, b)) :
    SessionOf a request session ∧ b.crypto = a.crypto := by
  obtain ⟨protocol, a₁, h₁, h⟩ := bind_eq_ok.mp h
  obtain ⟨hprotocol, rfl⟩ := check_eq_ok.mp h₁
  obtain ⟨peer, a₂, h₂, h⟩ := bind_eq_ok.mp h
  obtain ⟨hpeer, rfl⟩ := check_eq_ok.mp h₂
  obtain ⟨key, a₃, h₃, h⟩ := bind_eq_ok.mp h
  unfold takeAnnouncedKey at h₃
  rw [Prog.run_act_bind] at h₃
  obtain ⟨hkey, rfl⟩ := check_eq_ok.mp h₃
  obtain ⟨z, a₄, h₄, h⟩ := bind_eq_ok.mp h
  obtain ⟨hz, rfl⟩ := check_eq_ok.mp h₄
  obtain ⟨hsession, rfl⟩ := check_eq_ok.mp h
  exact ⟨⟨protocol, peer, key, z, Option.elim_error_eq_ok.mp hprotocol, hpeer,
    Option.elim_error_eq_ok.mp hkey, Option.elim_error_eq_ok.mp hz, hsession⟩, rfl⟩

omit [StorageBackend β] in
theorem sessionOutput_ok {session : HmacSecretSession} {secret encrypted : Bytes} {a b : Auth β}
    (h : (sessionOutput session secret).run a = (.ok encrypted, b)) :
    OutputOf a.crypto session secret (.bytes encrypted) := by
  obtain ⟨protocol, a₁, h₁, h⟩ := bind_eq_ok.mp h
  obtain ⟨hprotocol, rfl⟩ := check_eq_ok.mp h₁
  rw [Prog.run_read_bind] at h
  obtain ⟨entropy, a₂, h₂, h⟩ := bind_eq_ok.mp h
  obtain ⟨hencrypt, rfl⟩ := check_eq_ok.mp h
  have hcore : a₂.core = a.core := by
    refine core_of_quiet ?_ h₂
    cases protocol with
    | one => exact .pure _
    | two => exact quiet_draw
  rw [show a₂.crypto = a.crypto from congrArg Core.crypto hcore] at hencrypt
  exact ⟨protocol, entropy, encrypted, Option.elim_error_eq_ok.mp hprotocol,
    Except.mapError_eq_ok.mp hencrypt, rfl⟩

/-- A session that yields an output for every secret: its protocol is known, and the shared secret
has the length of its keys. -/
def Usable (session : HmacSecretSession) : Prop :=
  ∃ protocol, PinUvProtocol.new session.pinProtocol = some protocol ∧
    session.sharedSecret.length = protocol.secretLen

omit [StorageBackend β] in
theorem run_sessionOutput {session : HmacSecretSession} (h : Usable session) (secret : Bytes)
    (a : Auth β) : ∃ encrypted b, (sessionOutput session secret).run a = (.ok encrypted, b) := by
  obtain ⟨protocol, hnew, hsecret⟩ := h
  have hlength : ((chunks saltLen session.salts.length session.salts).flatMap fun salt =>
      a.crypto.computeHmac salt secret).length % aesBlockLen = 0 := by
    induction chunks saltLen session.salts.length session.salts with
    | nil => rfl
    | cons salt salts ih =>
        have hmac : (a.crypto.computeHmac salt secret).length = 32 :=
          a.crypto.prims.length_hmacSha256 _ _
        rw [List.flatMap_cons, List.length_append, hmac]
        unfold aesBlockLen at ih ⊢
        omega
  obtain ⟨entropy, b, hdraw, hcrypto⟩ : ∃ entropy b, (drawIv protocol).run a = (.ok entropy, b) ∧
      b.crypto = a.crypto := by
    cases protocol with
    | one => exact ⟨_, a, rfl, rfl⟩
    | two => exact ⟨_, _, rfl, rfl⟩
  obtain ⟨encrypted, hencrypted⟩ : ∃ encrypted, protocol.encrypt a.crypto.prims entropy
      session.sharedSecret _ = .ok encrypted := PinUvProtocol.encrypt_total entropy hsecret hlength
  refine ⟨encrypted, b, ?_⟩
  unfold sessionOutput encryptWith
  rw [Prog.run_check_bind (by rw [hnew]; rfl), Prog.run_read_bind, Prog.run_bind_of_ok hdraw,
    Prog.run_check, hcrypto, hencrypted]
  rfl

theorem usable_of_output {crypto : CryptoEngine} {session : HmacSecretSession} {secret : Bytes}
    {output : Value} (h : OutputOf crypto session secret output) : Usable session := by
  obtain ⟨protocol, entropy, encrypted, hnew, hencrypt, -⟩ := h
  exact ⟨protocol, hnew, PinUvProtocol.length_of_encrypt hencrypt⟩

/-! ## The chained output -/

/-- The session is usable, if a chained assertion owes an output. -/
def ChainReady (a : Auth β) (state : GetNextAssertionState) (credential : Credential) : Prop :=
  ∀ secret session, (state.extensions.bind (·.hmacSecret)).isSome = true →
    credRandom credential state.uvSatisfied = some secret → a.hmacSecretSession = some session →
      Usable session

omit [StorageBackend β] in
theorem run_chainedHmacSecret {a : Auth β} {state : GetNextAssertionState}
    {credential : Credential} (h : a.ChainReady state credential) :
    ∃ chained b, (chainedHmacSecret state credential).run a = (.ok chained, b) := by
  unfold chainedHmacSecret
  rw [Prog.run_read_bind]
  split
  · next secret session hasked hsecret hsession =>
      obtain ⟨encrypted, b, hrun⟩ :=
        run_sessionOutput (h secret session hasked hsecret hsession) secret a
      rw [Prog.run_bind_of_ok hrun]
      exact ⟨_, _, rfl⟩
  · exact ⟨_, _, rfl⟩

omit [StorageBackend β] in
/-- Only such a state yields the chained output. -/
theorem chainReady_of_ok {a b : Auth β} {state : GetNextAssertionState} {credential : Credential}
    {chained : Option Value}
    (h : (chainedHmacSecret state credential).run a = (.ok chained, b)) :
    a.ChainReady state credential := by
  intro secret session hasked hsecret hsession
  unfold chainedHmacSecret at h
  rw [Prog.run_read_bind, hasked, hsecret, hsession] at h
  obtain ⟨encrypted, a₁, houtput, -⟩ := bind_eq_ok.mp h
  exact usable_of_output (sessionOutput_ok houtput)

/-! ## The first answer -/

omit [StorageBackend β] in
/-- The extension begins a session and yields an output, or does neither. -/
theorem firstHmacSecret_ok {credential : Credential} {up verified : Bool} {raw : Value}
    {output : Option Value} {a b : Auth β}
    (h : (firstHmacSecret credential up verified raw).run a = (.ok output, b)) :
    (output = none ∧ b.hmacSecretSession = a.hmacSecretSession) ∨
      ∃ request session secret v, output = some v ∧
        HmacSecret.parseGetAssertion raw = .ok request ∧ SessionOf a request session ∧
        credRandom credential verified = some secret ∧ OutputOf a.crypto session secret v ∧
        b.hmacSecretSession = some session := by
  obtain ⟨_, a₁, h₁, h⟩ := bind_eq_ok.mp h
  obtain ⟨-, rfl⟩ := ensure_eq_ok.mp h₁
  obtain ⟨request, a₂, h₂, h⟩ := bind_eq_ok.mp h
  obtain ⟨hparse, rfl⟩ := check_eq_ok.mp h₂
  cases hsecret : credRandom credential verified with
  | none =>
      rw [hsecret] at h
      cases h
      exact .inl ⟨rfl, rfl⟩
  | some secret =>
      rw [hsecret] at h
      obtain ⟨session, a₃, h₃, h⟩ := bind_eq_ok.mp h
      obtain ⟨hsession, hcrypto⟩ := beginSession_ok h₃
      obtain ⟨encrypted, a₄, h₄, h⟩ := bind_eq_ok.mp h
      have houtput := sessionOutput_ok h₄
      rw [hcrypto] at houtput
      cases h
      exact .inr ⟨request, session, secret, _, rfl, hparse, hsession, rfl, houtput, rfl⟩

/-- The output of the extension in an answer. -/
def hmacOutput (extensions : Option ExtensionOutputs) : Option Value :=
  extensions.bind (·.hmacSecret)

/-- The request of the extension in a GetAssertion. -/
def HmacRequest (request : GetAssertionRequest) (hmac : HmacSecret.GetRequest) : Prop :=
  ∃ raw, request.extensions.bind (·.hmacSecret) = some raw ∧
    HmacSecret.parseGetAssertion raw = .ok hmac

omit [StorageBackend β] in
theorem firstExtensions_ok {request : GetAssertionRequest} {credential : Credential}
    {verified : Bool} {extensions : Option ExtensionOutputs} {a b : Auth β}
    (h : (firstExtensions request credential verified).run a = (.ok extensions, b)) :
    (hmacOutput extensions = none ∧ b.hmacSecretSession = a.hmacSecretSession) ∨
      ∃ hmac session secret v, hmacOutput extensions = some v ∧ HmacRequest request hmac ∧
        SessionOf a hmac session ∧ credRandom credential verified = some secret ∧
        OutputOf a.crypto session secret v ∧ b.hmacSecretSession = some session := by
  unfold firstExtensions at h
  cases hext : request.extensions.filter Extensions.hasAny with
  | none =>
      rw [hext] at h
      cases h
      exact .inl ⟨rfl, rfl⟩
  | some extensions' =>
      rw [hext] at h
      obtain ⟨outputs, a₁, h₁, h⟩ := bind_eq_ok.mp h
      cases h
      obtain ⟨hmacSecret, a₂, h₂, h₁⟩ := bind_eq_ok.mp h₁
      cases h₁
      have hrequest : request.extensions = some extensions' := (Option.filter_eq_some_iff.mp hext).1
      cases hraw : extensions'.hmacSecret with
      | none =>
          rw [hraw] at h₂
          cases h₂
          exact .inl ⟨rfl, rfl⟩
      | some raw =>
          rw [hraw] at h₂
          obtain ⟨rfl, hsame⟩ | ⟨hmac, session, secret, v, rfl, hparse, hrest⟩ :=
            firstHmacSecret_ok h₂
          · exact .inl ⟨rfl, hsame⟩
          · refine .inr ⟨hmac, session, secret, v, rfl, ⟨raw, ?_, hparse⟩, hrest⟩
            rw [hrequest]
            exact hraw

omit [StorageBackend β] in
theorem openEnumeration_session {request : GetAssertionRequest} {flags : UInt8}
    {uvSatisfied : Bool} {credential : Credential} {a b : Auth β} {total : Nat}
    (h : (openEnumeration request flags uvSatisfied credential).run a = (.ok total, b)) :
    b.hmacSecretSession = if 1 < total then a.hmacSecretSession else none := by
  unfold openEnumeration at h
  rw [Prog.run_read_bind] at h
  split at h
  · next hmany =>
      cases h
      rw [if_pos hmany]
  · next hfew =>
      cases h
      rw [if_neg hfew]

/-- Signing leaves the agreement key alone. -/
theorem agreementKey_signCounted {credential : Credential} {rpIdHash clientDataHash : Bytes}
    {flags : UInt8} {a b : Auth β} {r : Assertion}
    (h : (signCounted build credential rpIdHash flags clientDataHash).run a = (.ok r, b)) :
    b.pinAgreementKey = a.pinAgreementKey := by
  let same : Prog.Frame (Auth β) := .constant fun a => a.pinAgreementKey
  have hdraw : ∀ sign, Keeps same (signRandomised sign) := fun _ =>
    Keeps.bind (.act fun _ => rfl) fun _ => .check _
  have hsign : ∀ algorithm key data, Keeps same (signAssertion build algorithm key data) :=
    fun _ _ _ => .ite (fun _ => hdraw _) fun _ => .ite (fun _ => hdraw _) fun _ =>
      .ite (fun _ => hdraw _) fun _ => .ite (fun _ => hdraw _) fun _ => .check _
  have hkeeps : Keeps same (signCounted build credential rpIdHash flags clientDataHash) :=
    Keeps.bind ((Keeps.read _).bind fun _ => (Keeps.ensure _ _).bind fun _ =>
      Keeps.bind (fun _ => rfl) fun _ => .pure _) fun _ => Keeps.bind (fun _ => rfl) fun _ =>
        (hsign _ _ _).bind fun _ => .pure _
  exact hkeeps.of_run h

/-- The session begun by a GetAssertion, for the extension in its own request. -/
def BegunBy (g : Exchange β) (session : HmacSecretSession) : Prop :=
  ∃ request hmac, build.cbor.decodeGetAssertion g.data = .ok request ∧ HmacRequest request hmac ∧
    SessionOf g.before hmac session

/-- The steps of a GetAssertion that started without a session. -/
theorem AssertionSteps.hmac {request : GetAssertionRequest} {verified : Bool}
    {credential : Credential} {assertion : Assertion} {extensions : Option ExtensionOutputs}
    {total : Nat} {a a₁ a₂ a₃ b : Auth β} {r : GetAssertionResponse}
    (h : AssertionSteps build request verified credential assertion extensions total a a₁ a₂ a₃ r b)
    (hnone : a.hmacSecretSession = none) :
    (hmacOutput r.extensions = none ∧ b.hmacSecretSession = none) ∨
      ∃ hmac session secret v, hmacOutput r.extensions = some v ∧ HmacRequest request hmac ∧
        SessionOf a hmac session ∧ credRandom credential verified = some secret ∧
        OutputOf a.crypto session secret v ∧
        b.hmacSecretSession = if 1 < total then some session else none := by
  have hwithin :=
    (within_signCounted (F := Within .any) (commonCalls_any build) _ _ _ _).of_run h.signed
  have hsession : a₂.hmacSecretSession = none := hwithin.2.2.trans (h.session.trans hnone)
  have hcrypto : a₂.crypto = a.crypto := hwithin.1.2.trans (congrArg Core.crypto h.checked)
  have hkey : a₂.pinAgreementKey = a.pinAgreementKey :=
    (agreementKey_signCounted build h.signed).trans h.agreement
  have hclosed := openEnumeration_session h.opened
  obtain ⟨hout, hsame⟩ |
    ⟨hmac, session, secret, v, hout, hrequest, hof, hsecret, houtput, hbegun⟩ :=
    firstExtensions_ok h.extended
  · rw [hsame, hsession, ite_self] at hclosed
    rw [h.response]
    exact .inl ⟨hout, hclosed⟩
  · rw [hbegun] at hclosed
    rw [hcrypto] at houtput
    unfold SessionOf at hof
    rw [hkey, hcrypto] at hof
    rw [h.response]
    exact .inr ⟨hmac, session, secret, v, hout, hrequest, hof, hsecret, houtput, hclosed⟩

/-! ## The session over a run -/

/-- The moves that leave the session alone. -/
def SameSession : Prog.Frame (Auth β) := .constant Auth.hmacSecretSession

instance : Inert (SameSession (β := β)) := ⟨fun _ h => h⟩

omit [StorageBackend β] in
theorem sameSession_firstHmacSecret (credential : Credential) (up verified : Bool) (raw : Value) :
    KeepsOnFail SameSession (firstHmacSecret credential up verified raw : Ctap β _) := by
  refine .bind (.ensure _ _) fun _ => .bind (.check _) fun request => ?_
  cases credRandom credential verified with
  | none => exact (Keeps.pure _).onFail
  | some secret =>
      exact .bind (quiet_beginSession _) fun _ => .bind (quiet_sessionOutput _ _) fun _ =>
        .of_total fun s => ⟨_, _, rfl⟩

omit [StorageBackend β] in
theorem sameSession_firstExtensions (request : GetAssertionRequest) (credential : Credential)
    (verified : Bool) :
    KeepsOnFail SameSession (firstExtensions request credential verified : Ctap β _) := by
  unfold firstExtensions
  cases request.extensions.filter Extensions.hasAny with
  | none => exact (Keeps.pure _).onFail
  | some extensions =>
      refine .bind_total (.bind_total ?_ fun _ s => ⟨_, _, rfl⟩) fun _ s => ⟨_, _, rfl⟩
      cases extensions.hmacSecret with
      | none => exact (Keeps.pure _).onFail
      | some raw => exact sameSession_firstHmacSecret _ _ _ _

/-- A GetAssertion that fails leaves no session behind. -/
theorem sameSession_getAssertion (request : GetAssertionRequest) :
    KeepsOnFail SameSession (getAssertion build request : Ctap β _) := by
  have hsigned : ∀ credential rpIdHash flags clientDataHash, Keeps SameSession
      (signCounted build credential rpIdHash flags clientDataHash : Ctap β _) := fun _ _ _ _ =>
    (within_signCounted (F := Within .any) (commonCalls_any build) _ _ _ _).mono fun _ _ h => h.2.2
  refine .bind (quiet_authenticateOperation _ _ _ _ _ _) fun _ =>
    .bind (.when fun _ => quiet_checkPresence) fun _ => .bind (.read _) fun _ =>
      .bind (.check _) fun _ => .bind (.read _) fun _ => .bind (hsigned _ _ _ _) fun _ =>
        .bind_total (sameSession_firstExtensions _ _ _) fun _ s => ?_
  obtain ⟨total, b, hopen⟩ := openEnumeration_total _ _ _ _ s
  rw [Prog.run_bind_of_ok hopen]
  exact ⟨_, _, rfl⟩

/-- The session in force, if there is one, satisfies `P`. -/
def SessionIs (P : HmacSecretSession → Prop) (a : Auth β) : Prop :=
  ∀ session, a.hmacSecretSession = some session → P session

instance {P : HmacSecretSession → Prop} : Inert (.invariant (SessionIs (β := β) P)) where
  allow _ hsame h session hsession := h session (hsame ▸ hsession)

omit [StorageBackend β] in
theorem SessionIs.of_none {P : HmacSecretSession → Prop} {a : Auth β}
    (h : a.hmacSecretSession = none) : a.SessionIs P := fun session hsession => by
  rw [h] at hsession
  cases hsession

/-- GetNextAssertion keeps the session or ends it. -/
theorem sessionIs_handleGetNextAssertion {P : HmacSecretSession → Prop} :
    Keeps (.invariant (SessionIs P)) (handleGetNextAssertion build : Ctap β _) := by
  have hend : Keeps (.invariant (SessionIs P)) (endHmacSession : Ctap β Unit) :=
    .update fun _ _ => .of_none rfl
  have hsigned : ∀ credential rpIdHash flags clientDataHash, Keeps (.invariant (SessionIs P))
      (signCounted build credential rpIdHash flags clientDataHash : Ctap β _) := fun _ _ _ _ =>
    (within_signCounted (F := Within .any) (commonCalls_any build) _ _ _ _).mono
      fun _ _ hw h session hsession => h session (hw.2.2 ▸ hsession)
  have htake : Keeps (.invariant (SessionIs P)) (takeNextState : Ctap β _) :=
    Keeps.bind (.act fun _ h => h) fun _ => .check _
  have hmatch : ∀ state found,
    Keeps (.invariant (SessionIs P)) (nextMatch state found : Ctap β _) := by
    intro state found
    unfold nextMatch
    split
    · exact .pure _
    · exact hend.bind fun _ => .fail _
  exact htake.bind fun _ => (Keeps.read _).bind fun _ => (hmatch _ _).bind fun _ =>
    (Keeps.check _).bind fun _ => (quiet_chainedHmacSecret _ _).bind fun _ =>
      (Keeps.when fun _ => hend).bind fun _ => Keeps.bind (.update fun _ h => h) fun _ =>
        (Keeps.read _).bind fun _ => (hsigned _ _ _ _).bind fun _ => .pure _

/-- The session was begun by the last GetAssertion that opened an enumeration. -/
def Begun (past : List (Exchange β)) (session : HmacSecretSession) : Prop :=
  ∃ g, (past.filter Exchange.opens).getLast? = some g ∧ BegunBy build g session

theorem begun_command {past : List (Exchange β)} {a : Auth β} (h : a.SessionIs (Begun build past))
    (cmd : UInt8) (data : Bytes) : (a.step build (.command cmd data)).SessionIs
      (Begun build (past ++ [a.exchange build cmd data])) := by
  have hcommand : (a.exchange build cmd data).command = Ctap2Command.fromU8 cmd := rfl
  by_cases hgna : Ctap2Command.fromU8 cmd = .getNextAssertion
  · have hkeeps : Keeps (.invariant (SessionIs (Begun build past)))
        (processCommand build cmd data : Ctap β _) := by
      unfold processCommand
      simp only [hgna, ne_eq, not_true, decide_false]
      exact (Keeps.when fun h => by cases h).bind fun _ =>
        (sessionIs_handleGetNextAssertion build).map
    intro session hsession
    obtain ⟨g, hlast, hbegun⟩ := hkeeps a h session hsession
    refine ⟨g, ?_, hbegun⟩
    rw [Exchange.filter_opens (Exchange.opens_eq_false (by rw [hcommand, hgna]; decide))]
    exact hlast
  by_cases hga : Ctap2Command.fromU8 cmd = .getAssertion
  · obtain ⟨r, hx⟩ | ⟨error, hfail⟩ := assertion_or_error build a data (.inl hga)
    · obtain ⟨-, request, verified, credential, assertion, extensions, total, a₁, a₂, a₃, hdecode,
        hsteps⟩ | ⟨hgna', -⟩ := assertion_steps build hx
      · obtain ⟨-, hnone⟩ | ⟨hmac, session, secret, v, -, hrequest, hof, -, -, hsession⟩ :=
          hsteps.hmac build rfl
        · exact .of_none hnone
        · by_cases htotal : 1 < total
          · rw [if_pos htotal] at hsession
            intro session' hsession'
            rw [hsession] at hsession'
            cases hsession'
            refine ⟨_, Exchange.getLast?_opens ?_, request, hmac, hdecode, hrequest, hof⟩
            unfold Exchange.opens
            rw [hx, hcommand, hga, hsteps.response]
            simp [htotal]
          · rw [if_neg htotal] at hsession
            exact .of_none hsession
      · exact absurd hgna' hgna
    · refine .of_none ?_
      have hrun := run_processCommand_of_ne build data a hgna
      rw [hga] at hrun
      have hkeeps : KeepsOnFail SameSession (dispatch build .getAssertion data : Ctap β _) :=
        (KeepsOnFail.bind (.check _) fun request => sameSession_getAssertion build request).map
      exact hkeeps _ _ error (hrun.symm.trans (Prod.ext hfail rfl))
  by_cases hreset : Ctap2Command.fromU8 cmd = .reset
  · exact .of_none (next_reset build data hreset a).1
  · exact .of_none (next_other build data hreset hga hgna a).1

/-! ## Answers -/

omit [StorageBackend β] in
/-- The output of a chained assertion is computed in the session in force. -/
theorem chainedHmacSecret_ok {state : GetNextAssertionState} {credential : Credential} {v : Value}
    {a b : Auth β} (h : (chainedHmacSecret state credential).run a = (.ok (some v), b)) :
    ∃ session secret, a.hmacSecretSession = some session ∧
      credRandom credential state.uvSatisfied = some secret ∧
      OutputOf a.crypto session secret v := by
  unfold chainedHmacSecret at h
  rw [Prog.run_read_bind] at h
  split at h
  · next secret session _ hsecret hsession =>
      obtain ⟨encrypted, a₁, h₁, h⟩ := bind_eq_ok.mp h
      cases h
      exact ⟨session, secret, hsession, hsecret, sessionOutput_ok h₁⟩
  · cases h

/-- The secrets of an unlocked credential are those of its record. -/
theorem credRandom_of_unlock {crypto : CryptoEngine} {s : StoredCredential} {c : Credential}
    (h : StorageEngine.unlock crypto s = .ok c) (uv : Bool) :
    credRandom c uv = credRandom s.credential uv := by
  obtain ⟨key, rfl⟩ := StorageEngine.unlock_ok h
  rfl

section Lawful

variable [LawfulBackend β]

/-- The invariant of runs, after the exchanges `past`. -/
structure Paired (past : List (Exchange β)) (a : Auth β) : Prop where
  guarded : Guarded build past a
  left : a.NextIs (Left build past)
  session : a.SessionIs (Begun build past)

/-- The gate of an enumeration is open exactly if its flags say that the user was verified. -/
theorem Paired.uvSatisfied_eq {past : List (Exchange β)} {a : Auth β} (h : Paired build past a)
    {state : GetNextAssertionState} (hstate : a.getNextAssertionState = some state) :
    state.uvSatisfied = (state.flags &&& flagUv != 0) := by
  have hflag := (h.guarded.next state hstate).uv
  obtain ⟨g, request, verified, index, -, -, rfl⟩ := h.left state hstate
  change (g.before.credProtectUvSatisfied verified = true →
    (assertionFlags request.options.up verified &&& flagUv != 0) = true) at hflag
  show g.before.credProtectUvSatisfied verified =
    (assertionFlags request.options.up verified &&& flagUv != 0)
  rw [uvFlag_assertionFlags] at hflag ⊢
  unfold credProtectUvSatisfied at hflag ⊢
  cases verified with
  | true => rfl
  | false =>
      cases halways : g.before.storage.isAlwaysUv with
      | false => rfl
      | true =>
          rw [halways] at hflag
          exact absurd (hflag rfl) Bool.false_ne_true

/-- In every run from an empty store, an hmac-secret output is computed with the secret of the
asserted credential that the flag UV of the same answer selects, in the session that the
GetAssertion it belongs to began; and a chained answer continues the enumeration which that
GetAssertion opened. -/
theorem hmac_secret_selects_secret (a : Auth β) (hblank : a.Blank) (inputs : List Input)
    (past future : List (Exchange β)) (x : Exchange β) (r : GetAssertionResponse) (v : Value)
    (hrun : a.trace build inputs = past ++ x :: future) (hx : x.assertion = some r)
    (hv : hmacOutput r.extensions = some v) :
    ∃ g session d s secret, x.opening past = some g ∧ BegunBy build g session ∧
      r.credential = some d ∧ x.before.storage.credentials[d.id]? = some s ∧
      (if uvFlag r.authData then s.credential.credRandomWithUv
        else s.credential.credRandomWithoutUv) = some secret ∧
      OutputOf x.before.crypto session secret v ∧
      (x.command = .getNextAssertion → ∃ request verified index,
        build.cbor.decodeGetAssertion g.data = .ok request ∧
        x.before.getNextAssertionState =
          some (leftState request verified (g.before.credProtectUvSatisfied verified) index)) := by
  have hnone : a.getNextAssertionState = none ∧ a.hmacSecretSession = none := by
    rw [hblank.opened]
    exact ⟨rfl, rfl⟩
  have hstart : Paired build [] a :=
    ⟨guarded_blank build hblank, (followed_of_none build hnone.1).left, .of_none hnone.2⟩
  obtain ⟨b, cmd, data, hpaired, rfl⟩ := trace_invariant build (P := Paired build)
    (C := fun _ => True)
    (fun _ _ cmd data h _ => ⟨h.guarded.command build cmd data, left_command build h.left cmd data,
      begun_command build h.session cmd data⟩)
    (fun _ _ h => ⟨h.guarded.powerCycle build, (followed_of_none build rfl).left, .of_none rfl⟩)
    hstart hrun fun _ _ => trivial
  have hcommand : (b.exchange build cmd data).command = Ctap2Command.fromU8 cmd := rfl
  obtain ⟨hga, request, verified, credential, assertion, extensions, total, a₁, a₂, a₃, hdecode,
    hsteps⟩ | ⟨hgna, state, credential, found, chained, assertion, a₁, hsteps⟩ :=
      assertion_steps build hx
  · obtain ⟨hout, -⟩ | ⟨hmac, session, secret, v', hout, hrequest, hof, hsecret, houtput, -⟩ :=
      hsteps.hmac build rfl
    · rw [hout] at hv
      cases hv
    · rw [hout] at hv
      cases hv
      obtain ⟨-, id, s, hs, hu⟩ := selectCredential_stored hsteps.selected
      obtain ⟨hid, -⟩ := stored_of_unlock hpaired.guarded.keyed hs hu
      refine ⟨b.exchange build cmd data, session, descriptorOf credential, s, secret, ?_,
        ⟨request, hmac, hdecode, hrequest, hof⟩, by rw [hsteps.response], ?_, ?_, houtput, ?_⟩
      · rw [Exchange.opening, hcommand, if_pos hga]
      · show b.storage.credentials[credential.credentialId]? = some s
        rw [hid]
        exact hs
      · rw [hsteps.response, uvFlag_signed build (length_hashRpId _ _) hsteps.signed,
          uvFlag_assertionFlags, ← hsecret, credRandom_of_unlock hu]
        rfl
      · intro hgna
        rw [hcommand, hga] at hgna
        cases hgna
  · have hchained : chained = some v := by
      rw [hsteps.response] at hv
      cases chained with
      | none => cases hv
      | some w => exact hv
    rw [hchained] at hsteps
    obtain ⟨session, secret, hsession, hsecret, houtput⟩ := chainedHmacSecret_ok hsteps.hmac
    obtain ⟨g, hlast, hbegun⟩ := hpaired.session session hsession
    obtain ⟨id, -, hload⟩ := hsteps.loaded
    obtain ⟨s, hs, hu⟩ := StorageEngine.getCredential_ok hload
    obtain ⟨hid, -⟩ := stored_of_unlock hpaired.guarded.keyed hs hu
    refine ⟨g, session, descriptorOf credential, s, secret, ?_, hbegun, by rw [hsteps.response], ?_,
      ?_, houtput, fun _ => ?_⟩
    · rw [Exchange.opening, hcommand, if_neg (by rw [hgna]; decide)]
      exact hlast
    · show b.storage.credentials[credential.credentialId]? = some s
      rw [hid]
      exact hs
    · rw [hsteps.response, uvFlag_signed build (CryptoEngine.length_sha256 _ _) hsteps.signed,
        ← hpaired.uvSatisfied_eq build hsteps.opened, ← hsecret, credRandom_of_unlock hu]
      rfl
    · obtain ⟨g', request, verified, index, hlast', hdecode, hstate⟩ :=
        hpaired.left state hsteps.opened
      obtain rfl : g' = g := Option.some.inj (hlast'.symm.trans hlast)
      exact ⟨request, verified, index, hdecode, hstate ▸ hsteps.opened⟩

end Lawful

set_option maxRecDepth 100000 in
/-- The sample device chains an hmac-secret output. -/
theorem hmac_secret_selects_secret_sample :
    ∃ r v, ((memoryDevice.run sampleBuild (sampleSetup 1 ++ [getKeyAgreementCommand,
        getAssertionCommand [hmacSecretEntry]])).exchange sampleBuild 0x08 []).assertion = some r ∧
      hmacOutput r.extensions = some v ∧ ∃ (g : Exchange KvMap) (session : HmacSecretSession),
        BegunBy sampleBuild g session ∧
        ∃ secret, OutputOf (memoryDevice.run sampleBuild (sampleSetup 1 ++ [getKeyAgreementCommand,
          getAssertionCommand [hmacSecretEntry]])).crypto session secret v := by
  have hsome : ((memoryDevice.run sampleBuild (sampleSetup 1 ++ [getKeyAgreementCommand,
      getAssertionCommand [hmacSecretEntry]])).exchange sampleBuild 0x08 []).assertion.any
        (fun r => (hmacOutput r.extensions).isSome) = true := by decide +kernel
  obtain ⟨r, hr, hout⟩ := (Option.any_eq_true _ _).mp hsome
  obtain ⟨v, hv⟩ := Option.isSome_iff_exists.mp hout
  obtain ⟨g, session, d, s, secret, -, hbegun, -, -, -, houtput, -⟩ :=
    hmac_secret_selects_secret sampleBuild memoryDevice blank_memoryDevice
      ((sampleSetup 1 ++ [getKeyAgreementCommand, getAssertionCommand [hmacSecretEntry]]) ++
        [getNextAssertionCommand]) _ [] _ r v
      (trace_append sampleBuild memoryDevice (sampleSetup 1 ++ [getKeyAgreementCommand,
        getAssertionCommand [hmacSecretEntry]]) _) hr hv
  generalize memoryDevice.run sampleBuild (sampleSetup 1 ++ [getKeyAgreementCommand,
    getAssertionCommand [hmacSecretEntry]]) = a at *
  exact ⟨r, v, hr, hv, g, session, hbegun, secret, houtput⟩

end Auth

end OpenKey
