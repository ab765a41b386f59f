import Mathlib.Data.List.Nodup
import Mathlib.Data.List.Perm.Subperm
import OpenKey.Ctap2.HmacSession
import OpenKey.Ctap2.Matches

/-!
# Complete enumerations

**Theorem (`enumeration_complete_iff`).** Where the records that a request names or finds are in
order, the keys of its matches sign and the storage takes their counters, a GetAssertion and the
GetNextAssertion commands that follow it return every eligible credential once exactly if the
eligible credentials decrypt, none is named twice, their number fits the field that announces it,
those after the first carry the text of the relying party, and a request with one eligible
credential finds no older enumeration to continue.

Each GetNextAssertion searches again and takes the match after its position. The proof follows
the part of the matches that is still to come: counting an assertion changes a record in its
counter only, so the search finds the same matches, and the position moves by one. What the
records of other relying parties hold plays no part.
-/

namespace OpenKey

open Prog (Keeps bind_eq_ok check_eq_ok ensure_eq_ok)
open Std

set_option autoImplicit false

/-! ## Counting -/

namespace StorageEngine

variable {β : Type} [StorageBackend β] (codec : Codec StoredCredential)

/-- What an assertion with a credential does to the storage: the next value of the signature
counter is saved, and filed with the record. -/
def countFor (id : Bytes) : Prog (StorageEngine β) EngineError Unit := do
  let current ← Prog.read signCounter
  Prog.ensure (fun _ => decide (current + 1 < 2 ^ 32)) (.message "Signature counter overflow")
  storeDecimal signCounterStorageKey (current + 1)
  updateSignCount codec id (current + 1)

/-- An assertion with each of these credentials, one after the other. -/
def countAll : List Bytes → Prog (StorageEngine β) EngineError Unit
  | [] => pure ()
  | id :: ids => do
      countFor codec id
      countAll ids

theorem credentials_store (key : String) (v : Bytes) (e : StorageEngine β) :
    ((store key v).run e).2.credentials = e.credentials := by
  have hkeeps : Keeps (.constant StorageEngine.credentials)
      (store key v : Prog (StorageEngine β) EngineError Unit) := by
    refine Keeps.bind (.update fun _ => rfl) fun _ => Keeps.bind (fun e => ?_) fun _ =>
      .update fun _ => rfl
    obtain ⟨backend, hsnd⟩ := onBackend_snd (StorageBackend.write key v) e
    show ((onBackend (StorageBackend.write key v)).run e).2.credentials = e.credentials
    rw [hsnd]
  exact hkeeps e

theorem countFor_ok {id : Bytes} {e e' : StorageEngine β}
    (h : (countFor codec id).run e = (.ok (), e')) :
    e.signCounter + 1 < 2 ^ 32 ∧ ∃ e₁,
      (storeDecimal signCounterStorageKey (e.signCounter + 1)).run e = (.ok (), e₁) ∧
      (updateSignCount codec id (e.signCounter + 1)).run e₁ = (.ok (), e') := by
  unfold countFor at h
  rw [Prog.run_read_bind] at h
  obtain ⟨_, e₀, h₀, h⟩ := bind_eq_ok.mp h
  obtain ⟨hlt, rfl⟩ := ensure_eq_ok.mp h₀
  obtain ⟨_, e₁, h₁, h⟩ := bind_eq_ok.mp h
  exact ⟨of_decide_eq_true hlt, e₁, h₁, h⟩

/-- Counting changes the records in their counters only. -/
theorem sameRecords_countFor {id : Bytes} {e e' : StorageEngine β}
    (h : (countFor codec id).run e = (.ok (), e')) : SameRecords e e' := by
  obtain ⟨-, e₁, h₁, h₂⟩ := countFor_ok codec h
  obtain ⟨s, hs, hinsert⟩ := updateSignCount_ok codec h₂
  have hstored : e₁.credentials = e.credentials := by
    have hcredentials := credentials_store signCounterStorageKey
      (utf8 (toString (e.signCounter + 1))) e
    rw [show (store _ _).run e = (.ok (), e₁) from h₁] at hcredentials
    exact hcredentials
  refine (SameRecords.of_credentials hstored).trans (.of_insert hs ?_ hinsert)
  rfl

theorem countAll_cons {id : Bytes} {ids : List Bytes} {e : StorageEngine β}
    (h : ((countAll codec (id :: ids)).run e).1 = .ok ()) :
    ∃ e', (countFor codec id).run e = (.ok (), e') ∧ ((countAll codec ids).run e').1 = .ok () := by
  obtain ⟨_, e', hcount, hrest⟩ := bind_eq_ok.mp (Prod.ext h rfl)
  exact ⟨e', hcount, congrArg Prod.fst hrest⟩

/-- A medium that never fails takes the counters while they fit. -/
theorem countAll_lawful [LawfulBackend β] {ids : List Bytes} {e : StorageEngine β}
    (hids : ∀ id ∈ ids, (e.credentials[id]?).isSome = true)
    (hroom : e.signCounter + ids.length < 2 ^ 32) : ((countAll codec ids).run e).1 = .ok () := by
  induction ids generalizing e with
  | nil => rfl
  | cons id ids ih =>
      rw [List.length_cons] at hroom
      obtain ⟨s, hs⟩ := Option.isSome_iff_exists.mp (hids id List.mem_cons_self)
      have hcount : ∃ e', (countFor codec id).run e = (.ok (), e') ∧
          e'.signCounter = e.signCounter + 1 := by
        have hsaved := saved_store signCounterStorageKey (utf8 (toString (e.signCounter + 1))) e
        obtain ⟨e', hrewrite⟩ : ∃ e', (updateSignCount codec id (e.signCounter + 1)).run
            (afterStore signCounterStorageKey (utf8 (toString (e.signCounter + 1))) e) =
              (.ok (), e') := by
          unfold updateSignCount
          rw [Prog.run_read_bind, show (afterStore _ _ e).credentials[id]? = some s from hs]
          exact ⟨_, run_onBackend_write _ _ _⟩
        refine ⟨e', ?_, ?_⟩
        · unfold countFor
          rw [Prog.run_read_bind, Prog.run_ensure_bind (by simpa using by omega), storeDecimal,
            Prog.run_bind_of_ok (run_store _ _ e)]
          exact hrewrite
        · have hsettled := (settled_updateSignCount codec _ _).of_run hrewrite
          have hlt : e.signCounter + 1 < 2 ^ 32 := by omega
          rw [signCounter, readDecimal_congr (hsettled.1 _ systemKey_counter)]
          exact readDecimal_saved hsaved hlt 0
      obtain ⟨e', hcount, hnext⟩ := hcount
      unfold countAll
      rw [Prog.run_bind_of_ok hcount]
      refine ih (fun id' hid' => ?_) (by omega)
      have hlookup := (sameRecords_countFor codec hcount).lookup id'
      have hsome := hids id' (List.mem_cons_of_mem _ hid')
      rw [← Option.isSome_map, hlookup, Option.isSome_map]
      exact hsome

end StorageEngine

/-! ## Keys that sign -/

/-- The signature of a message, with the draw that randomises it. -/
def CryptoEngine.signature (crypto : CryptoEngine) (build : Build) (algorithm : Int)
    (privateKey data : Bytes) (entropy : Entropy) : Except String Bytes :=
  if algorithm = -7 then crypto.signP256 entropy privateKey data
  else if algorithm = -35 then crypto.signP384 entropy privateKey data
  else if build.rs256 ∧ algorithm = -37 then crypto.signRsaPss entropy privateKey data
  else if build.rs256 ∧ algorithm = -257 then crypto.signRsa entropy privateKey data
  else crypto.sign data privateKey

/-- The key signs every message. -/
def CryptoEngine.Signs (crypto : CryptoEngine) (build : Build) (algorithm : Int)
    (privateKey : Bytes) : Prop :=
  ∀ data entropy, ∃ signature,
    crypto.signature build algorithm privateKey data entropy = .ok signature

namespace Auth

variable {β : Type} [StorageBackend β] (build : Build)

omit [StorageBackend β] in
theorem run_signAssertion {algorithm : Int} {privateKey : Bytes} {a : Auth β}
    (h : a.crypto.Signs build algorithm privateKey) (data : Bytes) :
    ∃ signature b, (signAssertion build algorithm privateKey data).run a = (.ok signature, b) := by
  obtain ⟨signature, hsignature⟩ := h data (a.rng 0)
  have hrandom : ∀ sign : CryptoEngine → Entropy → Except String Bytes,
      sign a.crypto (a.rng 0) = .ok signature →
        ∃ signature b, (signRandomised sign).run a = (.ok signature, b) := by
    intro sign hsign
    refine ⟨signature, { a with rng := fun n => a.rng (n + 1) }, ?_⟩
    show (Except.mapError _ (sign a.crypto (a.rng 0)), _) = _
    rw [hsign]
    rfl
  unfold CryptoEngine.signature at hsignature
  unfold signAssertion
  split
  · rw [if_pos (by assumption)] at hsignature
    exact hrandom _ hsignature
  · rw [if_neg (by assumption)] at hsignature
    split
    · rw [if_pos (by assumption)] at hsignature
      exact hrandom _ hsignature
    · rw [if_neg (by assumption)] at hsignature
      split
      · rw [if_pos (by assumption)] at hsignature
        exact hrandom _ hsignature
      · rw [if_neg (by assumption)] at hsignature
        split
        · rw [if_pos (by assumption)] at hsignature
          exact hrandom _ hsignature
        · rw [if_neg (by assumption)] at hsignature
          refine ⟨signature, a, ?_⟩
          rw [Prog.run_check, hsignature]
          rfl

/-- Signing counts on the storage, and leaves everything GetNextAssertion reads alone. -/
theorem run_signCounted {credential : Credential} {a : Auth β} {e : StorageEngine β}
    (hcount : (StorageEngine.countFor build.codec credential.credentialId).run
      a.storage = (.ok (), e))
    (hsigns : a.crypto.Signs build credential.algorithm credential.privateKey)
    (rpIdHash : Bytes) (flags : UInt8) (clientDataHash : Bytes) :
    ∃ r b, (signCounted build credential rpIdHash flags clientDataHash).run a = (.ok r, b) ∧
      r.authData = authDataHeader rpIdHash flags (a.storage.signCounter + 1) ∧ b.storage = e := by
  obtain ⟨hlt, e₁, hstore, hupdate⟩ := StorageEngine.countFor_ok build.codec hcount
  have hpersist : ∀ {c : Auth β} {m : Prog (StorageEngine β) EngineError Unit} {e'},
      m.run c.storage = (.ok (), e') → (persist .ordinary m).run c =
        (.ok (), { c with storage := e', log := .stored e' .ordinary :: c.log }) := by
    intro c m e' hm
    unfold persist onStorage
    rw [Prog.run_mapError]
    dsimp only
    rw [hm]
    rfl
  let a₁ : Auth β := { a with storage := e₁, log := .stored e₁ .ordinary :: a.log }
  let a₂ : Auth β := { a₁ with storage := e, log := .stored e .ordinary :: a₁.log }
  have hnext : nextSignCount.run a = (.ok (a.storage.signCounter + 1), a₁) := by
    unfold nextSignCount
    rw [Prog.run_read_bind, Prog.run_ensure_bind (by simpa using hlt),
      Prog.run_bind_of_ok (hpersist hstore)]
    rfl
  have hfiled : (persist .ordinary (StorageEngine.updateSignCount build.codec
      credential.credentialId (a.storage.signCounter + 1))).run a₁ = (.ok (), a₂) :=
    hpersist (c := a₁) hupdate
  obtain ⟨signature, b, hsign⟩ := run_signAssertion build (a := a₂) hsigns
    (authDataHeader rpIdHash flags (a.storage.signCounter + 1) ++ clientDataHash)
  refine ⟨⟨authDataHeader rpIdHash flags (a.storage.signCounter + 1), signature⟩, b, ?_, rfl, ?_⟩
  · unfold signCounted
    rw [Prog.run_bind_of_ok hnext, Prog.run_bind_of_ok hfiled, Prog.run_bind_of_ok hsign]
    rfl
  · exact congrArg Core.storage (core_of_quiet (quiet_signAssertion build _ _ _) hsign)

/-- A signed assertion was counted on the storage. -/
theorem countFor_of_signCounted {credential : Credential} {rpIdHash clientDataHash : Bytes}
    {flags : UInt8} {a b : Auth β} {r : Assertion}
    (h : (signCounted build credential rpIdHash flags clientDataHash).run a = (.ok r, b)) :
    (StorageEngine.countFor build.codec credential.credentialId).run a.storage =
        (.ok (), b.storage) ∧
      r.authData = authDataHeader rpIdHash flags (a.storage.signCounter + 1) := by
  obtain ⟨n, a₁, hnext, h⟩ := bind_eq_ok.mp h
  obtain ⟨_, a₂, hfiled, h⟩ := bind_eq_ok.mp h
  obtain ⟨signature, a₃, hsign, h⟩ := bind_eq_ok.mp h
  cases h
  unfold nextSignCount at hnext
  rw [Prog.run_read_bind] at hnext
  obtain ⟨_, a₀, hroom, hnext⟩ := bind_eq_ok.mp hnext
  obtain ⟨hlt, rfl⟩ := ensure_eq_ok.mp hroom
  obtain ⟨_, a₁', hstore, hnext⟩ := bind_eq_ok.mp hnext
  cases hnext
  obtain ⟨e₁, hsaved, rfl⟩ := persist_ok hstore
  obtain ⟨e₂, hupdate, rfl⟩ := persist_ok hfiled
  refine ⟨?_, rfl⟩
  have hstorage : b.storage = e₂ :=
    congrArg Core.storage (core_of_quiet (quiet_signAssertion build _ _ _) hsign)
  rw [hstorage]
  unfold StorageEngine.countFor
  rw [Prog.run_read_bind, Prog.run_ensure_bind (by simpa using hlt), Prog.run_bind_of_ok hsaved]
  exact hupdate

/-! ## The session of hmac-secret -/

omit [StorageBackend β] in
/-- The sessions requests lead to are of this kind. -/
theorem usable_of_sessionOf {a : Auth β} {request : HmacSecret.GetRequest}
    {session : HmacSecretSession} (h : SessionOf a request session) : Usable session := by
  obtain ⟨protocol, peer, key, z, hnew, -, -, -, hopen⟩ := h
  unfold openSession at hopen
  obtain ⟨secret, -, hopen⟩ := Except.bind_eq_ok.mp hopen
  split at hopen
  · split at hopen
    · next salts hdecrypt =>
        split at hopen
        · cases hopen
          exact ⟨protocol, hnew, PinUvProtocol.length_of_decrypt hdecrypt⟩
        · cases hopen
    · cases hopen
  · cases hopen

/-! ## One GetNextAssertion -/

/-- GetNextAssertion answers with the match after its position. -/
theorem run_handleGetNextAssertion {a : Auth β} {state : GetNextAssertionState} {id : Bytes}
    {credential : Credential} {e : StorageEngine β} (hstate : a.getNextAssertionState = some state)
    (hnext : (findMatchingCredentials a state.rpId state.allowList
      state.uvSatisfied)[state.currentIndex + 1]? = some id)
    (hget : a.storage.getCredential id a.crypto = .ok (some credential))
    (hcount : (StorageEngine.countFor build.codec credential.credentialId).run a.storage =
      (.ok (), e))
    (hsigns : a.crypto.Signs build credential.algorithm credential.privateKey)
    (hsession : a.SessionIs Usable) :
    ∃ r b, (handleGetNextAssertion build).run a = (.ok r, b) ∧
      r.credential = some (descriptorOf credential) ∧
      hashRpId credential.rpId a.crypto <+: r.authData ∧ b.storage = e ∧ b.crypto = a.crypto ∧
      b.getNextAssertionState = some { state with currentIndex := state.currentIndex + 1 } ∧
      b.SessionIs Usable := by
  let a₀ : Auth β := { a with getNextAssertionState := none }
  have htake : takeNextState.run a = (.ok state, a₀) := by
    unfold takeNextState
    rw [Prog.run_act_bind, hstate]
    rfl
  have hfound : (nextMatch state (findMatchingCredentials a₀ state.rpId state.allowList
      state.uvSatisfied)).run a₀ = (.ok id, a₀) := by
    unfold nextMatch
    rw [show (findMatchingCredentials a₀ state.rpId state.allowList state.uvSatisfied)[
      state.currentIndex + 1]? = some id from hnext]
    rfl
  have hload : (loadCredential id).run a₀ = (.ok credential, a₀) := by
    unfold loadCredential
    rw [Prog.run_check, show a₀.storage.getCredential id a₀.crypto =
      .ok (some credential) from hget]
  obtain ⟨chained, a₁, hchained⟩ := run_chainedHmacSecret (a := a₀)
    fun _ session _ _ hsome => hsession session hsome
  have hcore := core_of_quiet (quiet_chainedHmacSecret _ _) hchained
  have hstorage : a₁.storage = a.storage := congrArg Core.storage hcore
  have hcrypto : a₁.crypto = a.crypto := congrArg Core.crypto hcore
  have hsession₁ : a₁.SessionIs Usable :=
    (quiet_chainedHmacSecret _ _ : Keeps (.invariant (SessionIs Usable)) _).of_run hchained hsession
  let a₂ : Auth β :=
    { a₁ with
      hmacSecretSession :=
        if decide ((findMatchingCredentials a₀ state.rpId state.allowList
          state.uvSatisfied).length ≤ state.currentIndex + 2) then none else a₁.hmacSecretSession
      getNextAssertionState := some { state with currentIndex := state.currentIndex + 1 } }
  obtain ⟨assertion, b, hsigned, hdata, hb⟩ := run_signCounted build (a := a₂)
    (by rw [← hstorage] at hcount; exact hcount) (by rw [← hcrypto] at hsigns; exact hsigns)
    (hashRpId credential.rpId a.crypto) state.flags state.clientDataHash
  have hwithin :=
    (within_signCounted (F := Within .any) (commonCalls_any build) _ _ _ _).of_run hsigned
  refine ⟨{
      credential := some (descriptorOf credential)
      authData := assertion.authData
      signature := assertion.signature
      user := some (userOf credential)
      numberOfCredentials := some (asU16 (findMatchingCredentials a₀ state.rpId state.allowList
        state.uvSatisfied).length)
      extensions := chained.map fun output =>
        { ExtensionOutputs.default with hmacSecret := some output } }, b, ?_, ?_⟩
  · unfold handleGetNextAssertion
    rw [Prog.run_bind_of_ok htake, Prog.run_read_bind, Prog.run_bind_of_ok hfound,
      Prog.run_bind_of_ok hload, Prog.run_bind_of_ok hchained,
      Prog.run_bind_of_ok (run_when_endHmacSession _ a₁), Prog.run_update_bind]
    unfold buildGetAssertionResponse
    rw [Prog.run_read_bind]
    show ((signCounted build credential (hashRpId credential.rpId a₁.crypto) state.flags
      state.clientDataHash >>= _).run a₂) = _
    rw [hcrypto, Prog.run_bind_of_ok hsigned]
    rfl
  · refine ⟨rfl, ?_, hb, hwithin.1.2.trans hcrypto, hwithin.2.1, ?_⟩
    · show _ <+: assertion.authData
      rw [hdata]
      exact List.prefix_append _ _
    · intro session hsome
      rw [hwithin.2.2] at hsome
      change (if _ then _ else _) = _ at hsome
      split at hsome
      · cases hsome
      · exact hsession₁ session hsome

/-- GetNextAssertion fails behind the last match. -/
theorem handleGetNextAssertion_last {a : Auth β} (h : a.NextIs fun state =>
    (findMatchingCredentials a state.rpId state.allowList
      state.uvSatisfied)[state.currentIndex + 1]? = none) (r : GetAssertionResponse) (b : Auth β) :
    (handleGetNextAssertion build).run a ≠ (.ok r, b) := by
  intro hrun
  obtain ⟨state, credential, hnext⟩ := handleGetNextAssertion_ok build hrun
  obtain ⟨id, hid, -⟩ := hnext.found
  rw [h state hnext.opened] at hid
  cases hid

/-! ## GetNextAssertion after GetNextAssertion -/

/-- GetNextAssertion commands, one after the other, answer `rs` until one fails. -/
inductive Answers : Auth β → List GetAssertionResponse → Prop
  | last {a : Auth β} (h : (a.exchange build 0x08 []).assertion = none) : Answers a []
  | next {a : Auth β} {r : GetAssertionResponse} {rs : List GetAssertionResponse}
      (h : (a.exchange build 0x08 []).assertion = some r)
      (hrest : Answers (a.step build (.command 0x08 [])) rs) : Answers a (r :: rs)

theorem Answers.unique {a : Auth β} {rs rs' : List GetAssertionResponse}
    (h : Answers build a rs) (h' : Answers build a rs') : rs' = rs := by
  induction h generalizing rs' with
  | last hlast =>
      cases h' with
      | last => rfl
      | next hnext =>
          rw [hlast] at hnext
          cases hnext
  | next hnext _ ih =>
      cases h' with
      | last hlast =>
          rw [hlast] at hnext
          cases hnext
      | next hnext' hrest' =>
          obtain rfl := Option.some.inj (hnext.symm.trans hnext')
          rw [ih hrest']

/-- The command is its handler. -/
theorem run_getNextAssertion (a : Auth β) :
    (processCommand build 0x08 []).run a =
      (CtapResponse.getAssertion <$> handleGetNextAssertion build).run a := rfl

theorem exchange_next {a b : Auth β} {r : GetAssertionResponse}
    (h : (handleGetNextAssertion build).run a = (.ok r, b)) :
    (a.exchange build 0x08 []).assertion = some r ∧ a.step build (.command 0x08 []) = b := by
  have hrun : (processCommand build 0x08 []).run a = (.ok (.getAssertion r), b) := by
    rw [run_getNextAssertion, Prog.run_map, h]
    rfl
  exact ⟨Exchange.assertion_eq_some.mpr ⟨.inr rfl, congrArg Prod.fst hrun⟩, congrArg Prod.snd hrun⟩

theorem exchange_last {a : Auth β} (h : a.NextIs fun state =>
    (findMatchingCredentials a state.rpId state.allowList
      state.uvSatisfied)[state.currentIndex + 1]? = none) :
    (a.exchange build 0x08 []).assertion = none := by
  cases hx : (a.exchange build 0x08 []).assertion with
  | none => rfl
  | some r =>
      obtain ⟨-, hresult⟩ := Exchange.assertion_eq_some.mp hx
      have hrun : (CtapResponse.getAssertion <$> handleGetNextAssertion build).run a =
          (.ok (.getAssertion r), a.step build (.command 0x08 [])) := Prod.ext hresult rfl
      obtain ⟨r', hrun, hr⟩ := Prog.map_eq_ok.mp hrun
      exact absurd hrun (handleGetNextAssertion_last build h _ _)

/-- An assertion can be made with a stored credential: it is filed under its id, it decrypts, and
its key signs. -/
def Assertable (a : Auth β) (id : Bytes) : Prop :=
  ∃ s c, a.storage.credentials[id]? = some s ∧ StorageEngine.unlock a.crypto s = .ok c ∧
    c.credentialId = id ∧ a.crypto.Signs build c.algorithm c.privateKey

/-- The key and its algorithm are read from what the counter is not part of. -/
theorem unlock_uncounted {crypto : CryptoEngine} {s s' : StoredCredential} {c : Credential}
    (h : s'.uncounted = s.uncounted) (hu : StorageEngine.unlock crypto s = .ok c) :
    ∃ c', StorageEngine.unlock crypto s' = .ok c' ∧ c'.credentialId = c.credentialId ∧
      c'.algorithm = c.algorithm ∧ c'.privateKey = c.privateKey := by
  have hfields := congrArg (fun s => (crypto.decrypt s.encryptedPrivateKey s.nonce,
    s.credential.credentialId, s.credential.algorithm)) h
  change (crypto.decrypt s'.encryptedPrivateKey s'.nonce, _, _) =
    (crypto.decrypt s.encryptedPrivateKey s.nonce, _, _) at hfields
  obtain ⟨hdecrypt, hrest⟩ := Prod.mk.inj hfields
  obtain ⟨hid, halgorithm⟩ := Prod.mk.inj hrest
  unfold StorageEngine.unlock at hu ⊢
  rw [hdecrypt]
  cases hkey : crypto.decrypt s.encryptedPrivateKey s.nonce with
  | error text =>
      rw [hkey] at hu
      cases hu
  | ok key =>
      rw [hkey] at hu
      cases hu
      exact ⟨_, rfl, hid, halgorithm, rfl⟩

omit [StorageBackend β] in
/-- It stays so while assertions are counted. -/
theorem Assertable.of_same {a b : Auth β} {id : Bytes} (h : Assertable build a id)
    (hcrypto : b.crypto = a.crypto) (hsame : StorageEngine.SameRecords a.storage b.storage) :
    Assertable build b id := by
  obtain ⟨s, c, hs, hu, hid, hsigns⟩ := h
  have hlookup := hsame.lookup id
  rw [hs] at hlookup
  obtain ⟨s', hs', huncounted⟩ := Option.map_eq_some_iff.mp hlookup
  obtain ⟨c', hu', hid', halgorithm, hkey⟩ := unlock_uncounted huncounted hu
  refine ⟨s', c', hs', ?_, hid'.trans hid, ?_⟩
  · rw [hcrypto]
    exact hu'
  · rw [hcrypto, halgorithm, hkey]
    exact hsigns

/-- An answer with a stored credential, under the hash of the text in its record. -/
def AnswersWith (a : Auth β) (id : Bytes) (r : GetAssertionResponse) : Prop :=
  r.credential.map (·.id) = some id ∧
    ∀ s, a.storage.credentials[id]? = some s →
      hashRpId s.credential.rpId a.crypto <+: r.authData

omit [StorageBackend β] in
theorem AnswersWith.of_same {a b : Auth β} {id : Bytes} {r : GetAssertionResponse}
    (h : AnswersWith b id r) (hcrypto : b.crypto = a.crypto)
    (hsame : StorageEngine.SameRecords a.storage b.storage) : AnswersWith a id r := by
  refine ⟨h.1, fun s hs => ?_⟩
  have hlookup := hsame.lookup id
  rw [hs] at hlookup
  obtain ⟨s', hs', huncounted⟩ := Option.map_eq_some_iff.mp hlookup
  have htext : s'.credential.rpId = s.credential.rpId :=
    congrArg (·.credential.rpId) huncounted
  have hprefix := h.2 s' hs'
  rw [hcrypto, htext] at hprefix
  exact hprefix

omit [StorageBackend β] in
theorem ids_of_answers {a : Auth β} {ids : List Bytes} {rs : List GetAssertionResponse}
    (h : List.Forall₂ (AnswersWith a) ids rs) :
    rs.map (fun r => r.credential.map (·.id)) = ids.map some := by
  induction h with
  | nil => rfl
  | cons hanswer _ ih => rw [List.map_cons, hanswer.1, ih, List.map_cons]

/-- GetNextAssertion with a match that an assertion can be made with. -/
theorem exchange_match {a : Auth β} {state : GetNextAssertionState} {id : Bytes}
    {e : StorageEngine β} (hstate : a.getNextAssertionState = some state)
    (hnext : (findMatchingCredentials a state.rpId state.allowList
      state.uvSatisfied)[state.currentIndex + 1]? = some id)
    (hassertable : Assertable build a id)
    (hcount : (StorageEngine.countFor build.codec id).run a.storage = (.ok (), e))
    (hsession : a.SessionIs Usable) :
    ∃ r b, (a.exchange build 0x08 []).assertion = some r ∧ a.step build (.command 0x08 []) = b ∧
      AnswersWith a id r ∧ b.storage = e ∧ b.crypto = a.crypto ∧
      b.getNextAssertionState = some { state with currentIndex := state.currentIndex + 1 } ∧
      b.SessionIs Usable := by
  obtain ⟨s, c, hs, hu, rfl, hsigns⟩ := hassertable
  obtain ⟨r, b, hrun, hcredential, hprefix, hrest⟩ :=
    run_handleGetNextAssertion build hstate hnext (getCredential_of_unlock hs hu) hcount hsigns
      hsession
  obtain ⟨hx, hstep⟩ := exchange_next build hrun
  refine ⟨r, b, hx, hstep, ⟨by rw [hcredential]; rfl, fun s' hs' => ?_⟩, hrest⟩
  obtain rfl : s = s' := Option.some.inj (hs.symm.trans hs')
  obtain ⟨key, rfl⟩ := StorageEngine.unlock_ok hu
  exact hprefix

/-- From a pending state on, GetNextAssertion answers with the matches after its position, and then
fails. -/
theorem answers_rest {ids : List Bytes} : ∀ {a : Auth β} {state : GetNextAssertionState},
    a.getNextAssertionState = some state →
    (findMatchingCredentials a state.rpId state.allowList state.uvSatisfied).drop
      (state.currentIndex + 1) = ids →
    (∀ id ∈ ids, Assertable build a id) →
    ((StorageEngine.countAll build.codec ids).run a.storage).1 = .ok () →
    a.SessionIs Usable →
    ∃ rs, Answers build a rs ∧ List.Forall₂ (AnswersWith a) ids rs := by
  induction ids with
  | nil =>
      intro a state hstate hrest _ hcount hsession
      refine ⟨[], .last (exchange_last build fun state' hstate' => ?_), .nil⟩
      obtain rfl : state = state' := Option.some.inj (hstate.symm.trans hstate')
      exact List.getElem?_eq_none_iff.mpr (List.drop_eq_nil_iff.mp hrest)
  | cons id ids ih =>
      intro a state hstate hrest hassertable hcount hsession
      have hnext : (findMatchingCredentials a state.rpId state.allowList
          state.uvSatisfied)[state.currentIndex + 1]? = some id := by
        rw [← List.head?_drop, hrest]
        rfl
      obtain ⟨e, hcount₁, hcount⟩ := StorageEngine.countAll_cons build.codec hcount
      obtain ⟨r, b, hx, hstep, hanswer, rfl, hcrypto, hstate', hsession'⟩ :=
        exchange_match build hstate hnext (hassertable id List.mem_cons_self) hcount₁ hsession
      have hsame := StorageEngine.sameRecords_countFor build.codec hcount₁
      have hrest' : (findMatchingCredentials b state.rpId state.allowList state.uvSatisfied).drop
          (state.currentIndex + 1 + 1) = ids := by
        rw [findMatchingCredentials_congr hcrypto hsame, ← List.drop_drop, hrest]
        rfl
      obtain ⟨rs, hanswers, hall⟩ := ih hstate' hrest'
        (fun id' hid' =>
          (hassertable id' (List.mem_cons_of_mem _ hid')).of_same build hcrypto hsame)
        hcount hsession'
      exact ⟨r :: rs, .next hx (by rw [hstep]; exact hanswers),
        .cons hanswer (hall.imp fun _ _ h => h.of_same hcrypto hsame)⟩

/-! ## The first answer -/

/-- A first answer where the matches are `id :: rest`: it is the first of them, it announces their
number if there are several, and then leaves a state at the first of them; with one match it leaves
the state it found. -/
structure FirstAnswer (a b : Auth β) (request : GetAssertionRequest) (verified : Bool)
    (r : GetAssertionResponse) (id : Bytes) (rest : List Bytes) : Prop where
  credential : r.credential.map (·.id) = some id
  rpId : hashRpId request.rpId a.crypto <+: r.authData
  number : r.numberOfCredentials =
    if (id :: rest).length > 1 then some (asU16 (id :: rest).length) else none
  count : (StorageEngine.countFor build.codec id).run a.storage = (.ok (), b.storage)
  crypto : b.crypto = a.crypto
  session : b.SessionIs Usable
  state : b.getNextAssertionState =
    if (id :: rest).length > 1 then
      some (leftState request verified (a.credProtectUvSatisfied verified) 0)
    else a.getNextAssertionState

omit [StorageBackend β] in
/-- An enumeration is opened at the first match, which is the credential of the first answer. -/
theorem openEnumeration_first {request : GetAssertionRequest} {verified uvSatisfied : Bool}
    {credential : Credential} {rest : List Bytes} {total : Nat} {a b : Auth β}
    (hmatches : findMatchingCredentials a request.rpId request.named uvSatisfied =
      credential.credentialId :: rest)
    (h : (openEnumeration request (assertionFlags request.options.up verified) uvSatisfied
      credential).run a = (.ok total, b)) :
    total = (credential.credentialId :: rest).length ∧
      b.core = { a.core with
        next := if (credential.credentialId :: rest).length > 1 then
          some (leftState request verified uvSatisfied 0) else a.getNextAssertionState } := by
  have hfirst : (credential.credentialId :: rest).findIdx? (· = credential.credentialId) =
      some 0 := by
    rw [List.findIdx?_cons, if_pos (decide_eq_true rfl)]
  unfold openEnumeration at h
  rw [Prog.run_read_bind, hmatches, hfirst] at h
  by_cases hmany : (credential.credentialId :: rest).length > 1
  · rw [if_pos hmany] at h ⊢
    obtain ⟨htotal, rfl⟩ := Prod.mk.inj h
    exact ⟨(Except.ok.inj htotal).symm, rfl⟩
  · rw [if_neg hmany] at h ⊢
    obtain ⟨htotal, rfl⟩ := Prod.mk.inj h
    exact ⟨(Except.ok.inj htotal).symm, rfl⟩

/-- The session that an assertion leaves was agreed on in it. -/
theorem AssertionSteps.usable {request : GetAssertionRequest} {verified : Bool}
    {credential : Credential} {assertion : Assertion} {extensions : Option ExtensionOutputs}
    {total : Nat} {a a₁ a₂ a₃ b : Auth β} {r : GetAssertionResponse}
    (h : AssertionSteps build request verified credential assertion extensions total a a₁ a₂ a₃ r b)
    (hnone : a.hmacSecretSession = none) : b.SessionIs Usable := by
  obtain ⟨-, hclosed⟩ | ⟨hmac, session, secret, v, -, -, hof, -, -, hsession⟩ := h.hmac build hnone
  · exact .of_none hclosed
  · intro session' hsession'
    rw [hsession] at hsession'
    split at hsession'
    · cases hsession'
      exact usable_of_sessionOf hof
    · cases hsession'

/-- GetAssertion answers with the first match. -/
theorem first_answer {a : Auth β} {cmd : UInt8} {data : Bytes} {request : GetAssertionRequest}
    {verified : Bool} {r : GetAssertionResponse}
    (hcmd : Ctap2Command.fromU8 cmd = .getAssertion)
    (hdecode : build.cbor.decodeGetAssertion data = .ok request)
    (hr : (a.exchange build cmd data).assertion = some r)
    (hverdict : verifyPinUvAuthForOperation a request.pinProtocol request.pinUvAuthParam
      request.clientDataHash permissionGa (some request.rpId) = .ok verified)
    (hnames : request.named = [] ∨
      ∃ id, Eligible a request (a.credProtectUvSatisfied verified) id)
    (horder : InOrder a request) :
    ∃ id rest, findMatchingCredentials a request.rpId request.named
        (a.credProtectUvSatisfied verified) = id :: rest ∧
      FirstAnswer build a (a.step build (.command cmd data)) request verified r id rest := by
  obtain ⟨-, request', verified', credential, assertion, extensions, total, a₁, a₂, a₃, hdecode',
    hsteps⟩ | ⟨hgna, -⟩ := assertion_steps build hr
  · obtain rfl : request = request' := Except.ok.inj (hdecode.symm.trans hdecode')
    obtain rfl : verified = verified' := Except.ok.inj (hverdict.symm.trans hsteps.verdict)
    have hhead : (findMatchingCredentials a request.rpId request.named
        (a.credProtectUvSatisfied verified)).head? = some credential.credentialId := by
      have hcore : ({ a with hmacSecretSession := none } : Auth β).core = a.core := rfl
      exact selectCredential_head horder hnames
        ((selectCredential_congr hcore request _).symm.trans hsteps.selected)
    obtain ⟨rest, hfound⟩ := List.head?_eq_some_iff.mp hhead
    -- the counter of the first match, and nothing else of the records, changes on the way
    obtain ⟨hcount, hdata⟩ := countFor_of_signCounted build hsteps.signed
    rw [storage_of_core hsteps.checked] at hcount
    have hwithin :=
      (within_signCounted (F := Within .any) (commonCalls_any build) _ _ _ _).of_run hsteps.signed
    have hcore₃ := core_of_quiet (quiet_firstExtensions _ _ _) hsteps.extended
    have hcrypto : a₃.crypto = a.crypto := (congrArg Core.crypto hcore₃).trans
      (hwithin.1.2.trans (congrArg Core.crypto hsteps.checked))
    have hsame : StorageEngine.SameRecords a.storage a₃.storage := by
      rw [storage_of_core hcore₃]
      exact StorageEngine.sameRecords_countFor build.codec hcount
    have hstate : a₃.getNextAssertionState = a.getNextAssertionState :=
      (congrArg Core.next hcore₃).trans (hwithin.2.1.trans (congrArg Core.next hsteps.checked))
    have hmatches := (findMatchingCredentials_congr hcrypto hsame request.rpId request.named
      (a.credProtectUvSatisfied verified)).trans hfound
    obtain ⟨rfl, hcore⟩ := openEnumeration_first hmatches hsteps.opened
    refine ⟨credential.credentialId, rest, hfound, ?_⟩
    constructor
    case credential =>
      rw [hsteps.response]
      rfl
    case rpId =>
      rw [hsteps.response]
      show _ <+: assertion.authData
      rw [hdata]
      exact List.prefix_append _ _
    case number => rw [hsteps.response]
    case count =>
      have hstorage : (a.step build (.command cmd data)).storage = a₂.storage :=
        (congrArg Core.storage hcore).trans (storage_of_core hcore₃)
      rw [hstorage]
      exact hcount
    case crypto => exact (congrArg Core.crypto hcore).trans hcrypto
    case session => exact hsteps.usable build rfl
    case state =>
      rw [← hstate]
      exact congrArg Core.next hcore
  · rw [hcmd] at hgna
    cases hgna

/-! ## The enumeration -/

/-- The enumeration of a GetAssertion answered with `r` is complete: it and the GetNextAssertion
commands after it return the eligible credentials, each of them once, as many as it announces, and
the next GetNextAssertion fails; every answer is for the relying party. -/
def EnumerationComplete (a : Auth β) (cmd : UInt8) (data : Bytes) (request : GetAssertionRequest)
    (uvSatisfied : Bool) (r : GetAssertionResponse) : Prop :=
  ∃ (rs : List GetAssertionResponse) (ids : List Bytes),
    Answers build (a.step build (.command cmd data)) rs ∧
    (r :: rs).map (fun r => r.credential.map (·.id)) = ids.map some ∧ ids.Nodup ∧
    (∀ id, id ∈ ids ↔ Eligible a request uvSatisfied id) ∧
    r.numberOfCredentials.getD 1 = ids.length ∧
    ∀ r' ∈ r :: rs, hashRpId request.rpId a.crypto <+: r'.authData

/-- The request can be enumerated: the eligible credentials decrypt, none of them is named twice,
their number fits in sixteen bits, the matches after the first carry a text with the hash of the
relying party, and if there is only one, no older enumeration has a match left. -/
structure Enumerable (a : Auth β) (request : GetAssertionRequest) (uvSatisfied : Bool) : Prop where
  decrypts : ∀ id, Eligible a request uvSatisfied id → Decrypts a id
  once : NamedOnce a request uvSatisfied
  few : ∀ ids : List Bytes, ids.Nodup → (∀ id ∈ ids, Eligible a request uvSatisfied id) →
    ids.length < 2 ^ 16
  hashed : ∀ id ∈ (findMatchingCredentials a request.rpId request.named uvSatisfied).tail,
    ∀ s, a.storage.credentials[id]? = some s →
      hashRpId s.credential.rpId a.crypto = hashRpId request.rpId a.crypto
  idle : (∀ id id', Eligible a request uvSatisfied id → Eligible a request uvSatisfied id' →
      id = id') →
    a.NextIs fun state => (findMatchingCredentials a state.rpId state.allowList
      state.uvSatisfied)[state.currentIndex + 1]? = none

/-- The store is ready for a request: the records it is about are in order, the keys of its matches
sign, and the storage takes their counters. If one credential is eligible and an older enumeration
has a match left, the same goes for that match. -/
structure Ready (a : Auth β) (request : GetAssertionRequest) (uvSatisfied : Bool) : Prop
    extends InOrder a request where
  signs : ∀ id ∈ findMatchingCredentials a request.rpId request.named uvSatisfied,
    Assertable build a id
  takes : ((StorageEngine.countAll build.codec (findMatchingCredentials a request.rpId
    request.named uvSatisfied)).run a.storage).1 = .ok ()
  pending : ∀ id, findMatchingCredentials a request.rpId request.named uvSatisfied = [id] →
    a.NextIs fun state => ∀ id', (findMatchingCredentials a state.rpId state.allowList
      state.uvSatisfied)[state.currentIndex + 1]? = some id' →
        Assertable build a id' ∧
          ((StorageEngine.countAll build.codec [id, id']).run a.storage).1 = .ok ()

/-- Two hashes in front of one text are the same. -/
theorem hashRpId_eq_of_prefix {crypto : CryptoEngine} {rpId rpId' : String} {data : Bytes}
    (h : hashRpId rpId crypto <+: data) (h' : hashRpId rpId' crypto <+: data) :
    hashRpId rpId crypto = hashRpId rpId' crypto := by
  refine List.IsPrefix.eq_of_length (List.prefix_of_prefix_length_le h h' ?_) ?_ <;>
    simp [hashRpId]

section

variable {a : Auth β} {cmd : UInt8} {data : Bytes} {request : GetAssertionRequest}
  {verified : Bool} {r : GetAssertionResponse}

/-- With one match an older enumeration stays, and is answered if it has a match left. -/
theorem older_answers {id id' : Bytes} {state : GetNextAssertionState}
    (hready : Ready build a request (a.credProtectUvSatisfied verified))
    (hfound : findMatchingCredentials a request.rpId request.named
      (a.credProtectUvSatisfied verified) = [id])
    (h : FirstAnswer build a (a.step build (.command cmd data)) request verified r id [])
    (hpending : a.getNextAssertionState = some state)
    (hnext : (findMatchingCredentials a state.rpId state.allowList
      state.uvSatisfied)[state.currentIndex + 1]? = some id') :
    ∃ r', ((a.step build (.command cmd data)).exchange build 0x08 []).assertion = some r' := by
  have hstate := h.state
  rw [if_neg (by simp)] at hstate
  have hsame := StorageEngine.sameRecords_countFor build.codec h.count
  obtain ⟨hassertable, htakes⟩ := hready.pending id hfound state hpending id' hnext
  obtain ⟨e, hcount, htakes⟩ := StorageEngine.countAll_cons build.codec htakes
  obtain rfl := congrArg Prod.snd (h.count.symm.trans hcount)
  obtain ⟨e', hcount', -⟩ := StorageEngine.countAll_cons build.codec htakes
  rw [← findMatchingCredentials_congr h.crypto hsame] at hnext
  obtain ⟨r', -, hr', -⟩ := exchange_match build (hstate.trans hpending) hnext
    (hassertable.of_same build h.crypto hsame) hcount' h.session
  exact ⟨r', hr'⟩

/-- With one match the enumeration is complete unless an older one, whose state stays, goes on. -/
theorem enumeration_of_one {id : Bytes}
    (hready : Ready build a request (a.credProtectUvSatisfied verified))
    (hfound : findMatchingCredentials a request.rpId request.named
      (a.credProtectUvSatisfied verified) = [id])
    (h : FirstAnswer build a (a.step build (.command cmd data)) request verified r id []) :
    EnumerationComplete build a cmd data request (a.credProtectUvSatisfied verified) r ↔
      Enumerable a request (a.credProtectUvSatisfied verified) := by
  have hmem : ∀ id', id' ∈ [id] ↔
      Eligible a request (a.credProtectUvSatisfied verified) id' ∧ Decrypts a id' := by
    rw [← hfound]
    exact fun id' => mem_matches_iff hready.toInOrder
  have hfew : ¬[id].length > 1 := by simp
  have hnumber := h.number
  have hstate := h.state
  rw [if_neg hfew] at hnumber hstate
  have hsame := StorageEngine.sameRecords_countFor build.codec h.count
  constructor
  · rintro ⟨rs, ids, hanswers, hids, -, helements, hlength, -⟩
    rw [hnumber, Option.getD_none] at hlength
    obtain ⟨id₁, rfl⟩ := List.length_eq_one_iff.mp hlength.symm
    obtain rfl : rs = [] := by
      have hcounted := congrArg List.length hids
      simpa using hcounted
    obtain rfl : id = id₁ := by
      rw [List.map_singleton, List.map_singleton, h.credential] at hids
      exact Option.some.inj (List.singleton_inj.mp hids)
    have hdecrypts : ∀ id', Eligible a request (a.credProtectUvSatisfied verified) id' →
        Decrypts a id' := fun id' hid' => ((hmem id').mp ((helements id').mpr hid')).2
    constructor
    case decrypts => exact hdecrypts
    case once =>
      rw [← nodup_matches_iff hready.toInOrder hdecrypts, hfound]
      exact List.nodup_singleton id
    case few =>
      intro ids' hnodup heligible
      have hle := (List.subperm_of_subset hnodup fun id' hid' =>
        (helements id').mpr (heligible id' hid')).length_le
      rw [List.length_singleton] at hle
      omega
    case hashed =>
      rw [hfound]
      exact fun _ hid => absurd hid List.not_mem_nil
    case idle =>
      intro _ state hpending
      cases hanswers with
      | last hlast =>
          cases hnext : (findMatchingCredentials a state.rpId state.allowList
              state.uvSatisfied)[state.currentIndex + 1]? with
          | none => rfl
          | some id' =>
              obtain ⟨r', hr'⟩ := older_answers build hready hfound h hpending hnext
              rw [hlast] at hr'
              cases hr'
  · intro hok
    have heligible : ∀ id', id' ∈ [id] ↔
        Eligible a request (a.credProtectUvSatisfied verified) id' := fun id' =>
      (hmem id').trans (and_iff_left_of_imp (hok.decrypts id'))
    refine ⟨[], [id], .last (exchange_last build ?_), ?_, List.nodup_singleton id, heligible, ?_,
      ?_⟩
    · intro state hpending
      rw [findMatchingCredentials_congr h.crypto hsame]
      refine hok.idle (fun id₁ id₂ h₁ h₂ => ?_) state (hstate.symm.trans hpending)
      rw [List.mem_singleton.mp ((heligible id₁).mpr h₁),
        List.mem_singleton.mp ((heligible id₂).mpr h₂)]
    · rw [List.map_singleton, List.map_singleton, h.credential]
    · rw [hnumber]
      rfl
    · intro r' hr'
      rw [List.mem_singleton.mp hr']
      exact h.rpId

/-- With several matches the GetNextAssertion commands answer with the others in turn. -/
theorem enumeration_of_several {id id₂ : Bytes} {rest : List Bytes}
    (hready : Ready build a request (a.credProtectUvSatisfied verified))
    (hfound : findMatchingCredentials a request.rpId request.named
      (a.credProtectUvSatisfied verified) = id :: id₂ :: rest)
    (h : FirstAnswer build a (a.step build (.command cmd data)) request verified r id
      (id₂ :: rest)) :
    EnumerationComplete build a cmd data request (a.credProtectUvSatisfied verified) r ↔
      Enumerable a request (a.credProtectUvSatisfied verified) := by
  have hmem : ∀ id', id' ∈ id :: id₂ :: rest ↔
      Eligible a request (a.credProtectUvSatisfied verified) id' ∧ Decrypts a id' := by
    rw [← hfound]
    exact fun id' => mem_matches_iff hready.toInOrder
  have hmany : (id :: id₂ :: rest).length > 1 := by simp
  have hnumber := h.number
  have hstate := h.state
  rw [if_pos hmany] at hnumber hstate
  have hsame := StorageEngine.sameRecords_countFor build.codec h.count
  have htakes := hready.takes
  have hsigns := hready.signs
  rw [hfound] at htakes hsigns
  obtain ⟨e, hcount, htakes⟩ := StorageEngine.countAll_cons build.codec htakes
  obtain rfl := congrArg Prod.snd (h.count.symm.trans hcount)
  have hrest : (findMatchingCredentials (a.step build (.command cmd data)) request.rpId
      request.named (a.credProtectUvSatisfied verified)).drop 1 = id₂ :: rest := by
    rw [findMatchingCredentials_congr h.crypto hsame, hfound]
    rfl
  obtain ⟨rs, hanswers, hall⟩ := answers_rest build hstate hrest
    (fun id' hid' => (hsigns id' (List.mem_cons_of_mem _ hid')).of_same build h.crypto hsame)
    htakes h.session
  replace hall := hall.imp fun _ _ hanswer => hanswer.of_same h.crypto hsame
  have hids : (r :: rs).map (fun r => r.credential.map (·.id)) =
      (id :: id₂ :: rest).map some := by
    rw [List.map_cons, h.credential, List.map_cons, ids_of_answers hall]
  constructor
  · rintro ⟨rs', ids', hanswers', hids', hnodup, helements, hlength, hprefixes⟩
    obtain rfl : rs' = rs := hanswers.unique build hanswers'
    obtain rfl : ids' = id :: id₂ :: rest :=
      List.map_injective_iff.mpr (Option.some_injective _) (hids'.symm.trans hids)
    have hdecrypts : ∀ id', Eligible a request (a.credProtectUvSatisfied verified) id' →
        Decrypts a id' := fun id' hid' => ((hmem id').mp ((helements id').mpr hid')).2
    constructor
    case decrypts => exact hdecrypts
    case once =>
      rw [← nodup_matches_iff hready.toInOrder hdecrypts, hfound]
      exact hnodup
    case few =>
      intro ids hnodup' heligible
      have hle := (List.subperm_of_subset hnodup' fun id' hid' =>
        (helements id').mpr (heligible id' hid')).length_le
      rw [hnumber, Option.getD_some] at hlength
      have hlt : asU16 (id :: id₂ :: rest).length < 2 ^ 16 := Nat.mod_lt _ (by decide)
      omega
    case hashed =>
      rw [hfound]
      intro id' hid' s hs
      obtain ⟨i, rfl⟩ := List.mem_iff_get.mp hid'
      have hi : i.1 < rs'.length := Nat.lt_of_lt_of_eq i.2 hall.length_eq
      exact hashRpId_eq_of_prefix ((hall.get i.2 hi).2 s hs)
        (hprefixes _ (List.mem_cons_of_mem _ (List.get_mem rs' ⟨i.1, hi⟩)))
    case idle =>
      intro hunique
      have heq := hunique id id₂ ((helements id).mp List.mem_cons_self)
        ((helements id₂).mp (List.mem_cons_of_mem _ List.mem_cons_self))
      rw [heq] at hnodup
      exact absurd List.mem_cons_self (List.nodup_cons.mp hnodup).1
  · intro hok
    have heligible : ∀ id', id' ∈ id :: id₂ :: rest ↔
        Eligible a request (a.credProtectUvSatisfied verified) id' := fun id' =>
      (hmem id').trans (and_iff_left_of_imp (hok.decrypts id'))
    have hnodup := (nodup_matches_iff hready.toInOrder hok.decrypts).mpr hok.once
    have hhashed := hok.hashed
    rw [hfound] at hnodup hhashed
    refine ⟨rs, id :: id₂ :: rest, hanswers, hids, hnodup, heligible, ?_, ?_⟩
    · rw [hnumber, Option.getD_some]
      exact Nat.mod_eq_of_lt (hok.few _ hnodup fun id' hid' => (heligible id').mp hid')
    · intro r' hr'
      rcases List.mem_cons.mp hr' with rfl | hr'
      · exact h.rpId
      · obtain ⟨i, rfl⟩ := List.mem_iff_get.mp hr'
        have hi : i.1 < (id₂ :: rest).length := Nat.lt_of_lt_of_eq i.2 hall.length_eq.symm
        have hmatch := List.get_mem (id₂ :: rest) ⟨i.1, hi⟩
        obtain ⟨s, -, hs, -⟩ := hsigns _ (List.mem_cons_of_mem _ hmatch)
        rw [← hhashed _ hmatch s hs]
        exact (hall.get hi i.2).2 s hs

end

/-- Over a store that is ready for the request, the enumeration of a GetAssertion that names no
credential or an eligible one is complete exactly if the eligible credentials decrypt, none of them
is named twice, their number fits in sixteen bits, those after the first carry the text of the
relying party, and with one of them no older enumeration has a match left. -/
theorem enumeration_complete_iff {a : Auth β} {cmd : UInt8} {data : Bytes}
    {request : GetAssertionRequest} {verified : Bool} {r : GetAssertionResponse}
    (hcmd : Ctap2Command.fromU8 cmd = .getAssertion)
    (hdecode : build.cbor.decodeGetAssertion data = .ok request)
    (hr : (a.exchange build cmd data).assertion = some r)
    (hverdict : verifyPinUvAuthForOperation a request.pinProtocol request.pinUvAuthParam
      request.clientDataHash permissionGa (some request.rpId) = .ok verified)
    (hnames : request.named = [] ∨
      ∃ id, Eligible a request (a.credProtectUvSatisfied verified) id)
    (hready : Ready build a request (a.credProtectUvSatisfied verified)) :
    EnumerationComplete build a cmd data request (a.credProtectUvSatisfied verified) r ↔
      Enumerable a request (a.credProtectUvSatisfied verified) := by
  obtain ⟨id, rest, hfound, hfirst⟩ :=
    first_answer build hcmd hdecode hr hverdict hnames hready.toInOrder
  cases rest with
  | nil => exact enumeration_of_one build hready hfound hfirst
  | cons id₂ rest => exact enumeration_of_several build hready hfound hfirst

/-! ## The sample device -/

/-- The keys of a device stay as they are. -/
theorem crypto_run {inputs : List Input} (h : ∀ input ∈ inputs, input.isReset = false)
    (a : Auth β) : (a.run build inputs).crypto = a.crypto := by
  induction inputs generalizing a with
  | nil => rfl
  | cons input inputs ih =>
      refine (ih (fun input' hinput' => h input' (List.mem_cons_of_mem _ hinput')) _).trans ?_
      cases input with
      | powerCycle => rfl
      | command cmd data =>
          have hreset : Ctap2Command.fromU8 cmd ≠ .reset :=
            of_decide_eq_false (h _ List.mem_cons_self)
          exact (touching_processCommand (storageCalls_any (β := β) build) cmd data hreset a).2

/-- The engine of the sample device, with a signature for every message. -/
def signingCrypto : CryptoEngine :=
  { sampleCrypto with
    prims := { sampleCrypto.prims with
      ed25519Sign := fun seed data =>
        some ((tableEntry sampleSignatures (seed, data)).getD (drawn 64 0)) } }

theorem signs_signingCrypto {algorithm : Int} {privateKey : Bytes} (halgorithm : algorithm = -8)
    (hlength : privateKey.length = 32) :
    signingCrypto.Signs sampleBuild algorithm privateKey := by
  intro data entropy
  subst halgorithm
  refine ⟨(tableEntry sampleSignatures (privateKey, data)).getD (drawn 64 0), ?_⟩
  show signingCrypto.sign data privateKey = _
  unfold CryptoEngine.sign
  rw [if_neg (not_not.mpr hlength)]
  rfl

/-- The sample device over it, before it has any credentials. -/
def signingDevice : Auth KvMap := { memoryDevice with crypto := signingCrypto }

theorem blank_signingDevice : signingDevice.Blank where
  storage := ⟨rfl, rfl, rfl, fun _ h => nomatch h⟩
  opened := rfl

/-- A record of the sample device: it decrypts, its hash and its text are those of example.com, and
its key signs. -/
def sampleRecord (s : StoredCredential) : Bool :=
  s.readable signingCrypto &&
    decide (s.credential.rpIdHash = hashRpId "example.com" signingCrypto) &&
    decide (s.credential.rpId = "example.com") &&
    match StorageEngine.unlock signingCrypto s with
    | .ok c => decide (c.algorithm = -8 ∧ c.privateKey.length = 32)
    | .error _ => false

theorem sampleRecord_of_stored {a : Auth KvMap} {id : Bytes} {s : StoredCredential}
    (hrecords : a.storage.records.all sampleRecord = true)
    (hs : a.storage.credentials[id]? = some s) :
    s.readable signingCrypto = true ∧
      s.credential.rpIdHash = hashRpId "example.com" signingCrypto ∧
      s.credential.rpId = "example.com" ∧ ∃ c, StorageEngine.unlock signingCrypto s = .ok c ∧
        c.algorithm = -8 ∧ c.privateKey.length = 32 := by
  have hrecord := List.all_eq_true.mp hrecords s (StorageEngine.mem_records_iff.mpr ⟨id, hs⟩)
  unfold sampleRecord at hrecord
  simp only [Bool.and_eq_true, decide_eq_true_eq] at hrecord
  obtain ⟨⟨⟨hread, hhash⟩, htext⟩, hkey⟩ := hrecord
  obtain ⟨c, hu⟩ := StoredCredential.readable_iff.mp hread
  rw [hu] at hkey
  exact ⟨hread, hhash, htext, c, hu, of_decide_eq_true hkey⟩

section

variable {a : Auth KvMap} {request : GetAssertionRequest} {uvSatisfied : Bool}

theorem ready_of_sampleRecords (hcrypto : a.crypto = signingCrypto) (hkeyed : a.storage.Keyed)
    (hrecords : a.storage.records.all sampleRecord = true) (hrpId : request.rpId = "example.com")
    (hidle : a.getNextAssertionState = none)
    (hroom : a.storage.signCounter + (findMatchingCredentials a request.rpId request.named
      uvSatisfied).length < 2 ^ 32) : Ready sampleBuild a request uvSatisfied := by
  have horder : InOrder a request := by
    refine ⟨fun id s hs _ => hkeyed id s hs, fun d _ s hs => hkeyed d.id s hs, fun d _ s hs => ?_⟩
    obtain ⟨-, hhash, htext, -⟩ := sampleRecord_of_stored hrecords hs
    rw [hcrypto, hrpId]
    exact iff_of_true hhash htext
  constructor
  case toInOrder => exact horder
  case signs =>
    intro id hid
    obtain ⟨-, s, hs, -⟩ := (mem_matches_iff horder).mp hid
    obtain ⟨-, -, -, c, hu, halgorithm, hlength⟩ := sampleRecord_of_stored hrecords hs
    have hfiled := hkeyed id s hs
    unfold Assertable
    rw [hcrypto]
    refine ⟨s, c, hs, hu, ?_, signs_signingCrypto halgorithm hlength⟩
    obtain ⟨key, rfl⟩ := StorageEngine.unlock_ok hu
    exact hfiled
  case takes =>
    refine StorageEngine.countAll_lawful _ (fun id hid => ?_) hroom
    obtain ⟨-, s, hs, -⟩ := (mem_matches_iff horder).mp hid
    rw [hs]
    rfl
  case pending =>
    intro id _ state hstate
    rw [hidle] at hstate
    cases hstate

theorem enumerable_of_sampleRecords (hcrypto : a.crypto = signingCrypto)
    (hrecords : a.storage.records.all sampleRecord = true) (hrpId : request.rpId = "example.com")
    (hnamed : request.named = []) (hidle : a.getNextAssertionState = none)
    (hready : Ready sampleBuild a request uvSatisfied)
    (hfew : (findMatchingCredentials a request.rpId request.named uvSatisfied).length < 2 ^ 16) :
    Enumerable a request uvSatisfied := by
  have hdecrypts : ∀ id, Eligible a request uvSatisfied id → Decrypts a id := by
    rintro id ⟨-, s, hs, -⟩
    obtain ⟨hread, -⟩ := sampleRecord_of_stored hrecords hs
    rw [← hcrypto] at hread
    exact ⟨s, hs, hread⟩
  constructor
  case decrypts => exact hdecrypts
  case once =>
    unfold NamedOnce
    rw [hnamed]
    exact .nil
  case few =>
    intro ids hnodup heligible
    refine Nat.lt_of_le_of_lt (List.subperm_of_subset hnodup fun id hid => ?_).length_le hfew
    exact (mem_matches_iff hready.toInOrder).mpr
      ⟨heligible id hid, hdecrypts id (heligible id hid)⟩
  case hashed =>
    intro id _ s hs
    obtain ⟨-, -, htext, -⟩ := sampleRecord_of_stored hrecords hs
    rw [htext, hrpId]
  case idle =>
    intro _ state hstate
    rw [hidle] at hstate
    cases hstate

end

set_option maxRecDepth 100000 in
/-- On the sample device a request that names no credential returns both of them. -/
theorem enumeration_complete_iff_two :
    ∃ request r, sampleBuild.cbor.decodeGetAssertion (getAssertionData []) = .ok request ∧
      ((signingDevice.run sampleBuild (sampleSetup 1)).exchange sampleBuild 0x02
        (getAssertionData [])).assertion = some r ∧ r.numberOfCredentials = some 2 ∧
      EnumerationComplete sampleBuild (signingDevice.run sampleBuild (sampleSetup 1)) 0x02
        (getAssertionData []) request false r := by
  have hdecoded : (match sampleBuild.cbor.decodeGetAssertion (getAssertionData []) with
      | .ok request => decide (request.rpId = "example.com" ∧ request.named = [] ∧
          request.pinProtocol = none ∧ request.pinUvAuthParam = none)
      | .error _ => false) = true := by decide +kernel
  have hdevice : ∀ a, a = signingDevice.run sampleBuild (sampleSetup 1) →
      (a.exchange sampleBuild 0x02 (getAssertionData [])).assertion.any (fun r =>
        decide (r.numberOfCredentials = some 2)) = true ∧
      (findMatchingCredentials a "example.com" [] false).length = 2 ∧
      a.storage.records.all sampleRecord = true ∧ a.storage.signCounter = 0 ∧
      a.getNextAssertionState.isNone = true ∧ a.credProtectUvSatisfied false = false := by
    intro a ha
    rw [ha]
    decide +kernel
  obtain ⟨hanswer, hmatches, hrecords, hcounter, hidle, huv⟩ := hdevice _ rfl
  have hquiet : ∀ input ∈ sampleSetup 1, input.isReset = false := by decide
  have hcrypto := crypto_run sampleBuild hquiet signingDevice
  obtain ⟨past, hguarded⟩ := guarded_run sampleBuild blank_signingDevice (sampleSetup 1)
  have hkeyed := hguarded.keyed
  generalize signingDevice.run sampleBuild (sampleSetup 1) = a at *
  cases hdecode : sampleBuild.cbor.decodeGetAssertion (getAssertionData []) with
  | error error =>
      rw [hdecode] at hdecoded
      cases hdecoded
  | ok request =>
      rw [hdecode] at hdecoded
      obtain ⟨hrpId, hnamed, hprotocol, hparam⟩ := of_decide_eq_true hdecoded
      obtain ⟨r, hr, hnumber⟩ := (Option.any_eq_true _ _).mp hanswer
      have hverdict : verifyPinUvAuthForOperation a request.pinProtocol request.pinUvAuthParam
          request.clientDataHash permissionGa (some request.rpId) = .ok false := by
        rw [hprotocol, hparam]
        rfl
      rw [← hrpId, ← hnamed] at hmatches
      have hnone := Option.isNone_iff_eq_none.mp hidle
      have hready : Ready sampleBuild a request false :=
        ready_of_sampleRecords hcrypto hkeyed hrecords hrpId hnone (by omega)
      have hcomplete := enumeration_complete_iff sampleBuild rfl hdecode hr hverdict (.inl hnamed)
        (by rw [huv]; exact hready)
      rw [huv] at hcomplete
      exact ⟨request, r, rfl, hr, of_decide_eq_true hnumber, hcomplete.mpr
        (enumerable_of_sampleRecords hcrypto hrecords hrpId hnamed hnone hready (by omega))⟩

set_option maxRecDepth 100000 in
/-- A request that names a credential of the sample device twice returns it twice. -/
theorem enumeration_repeats :
    ∃ request r, sampleBuild.cbor.decodeGetAssertion
        (getAssertionData [allowListEntry [firstId, firstId]]) = .ok request ∧
      ((memoryDevice.run sampleBuild (sampleSetup 1)).exchange sampleBuild 0x02
        (getAssertionData [allowListEntry [firstId, firstId]])).assertion = some r ∧
      verifyPinUvAuthForOperation (memoryDevice.run sampleBuild (sampleSetup 1))
        request.pinProtocol request.pinUvAuthParam request.clientDataHash permissionGa
        (some request.rpId) = .ok false ∧
      Eligible (memoryDevice.run sampleBuild (sampleSetup 1)) request false firstId ∧
      ¬EnumerationComplete sampleBuild (memoryDevice.run sampleBuild (sampleSetup 1)) 0x02
        (getAssertionData [allowListEntry [firstId, firstId]]) request false r := by
  have hdecoded : (match sampleBuild.cbor.decodeGetAssertion
        (getAssertionData [allowListEntry [firstId, firstId]]) with
      | .ok request => decide (request.rpId = "example.com" ∧
          request.named.map (·.id) = [firstId, firstId] ∧
          request.pinProtocol = none ∧ request.pinUvAuthParam = none)
      | .error _ => false) = true := by decide +kernel
  have hdevice : ∀ a, a = memoryDevice.run sampleBuild (sampleSetup 1) →
      (a.exchange sampleBuild 0x02
        (getAssertionData [allowListEntry [firstId, firstId]])).assertion.any (fun r =>
          decide (r.credential.map (·.id) = some firstId)) = true ∧
      ((a.step sampleBuild (.command 0x02
        (getAssertionData [allowListEntry [firstId, firstId]]))).exchange sampleBuild
          0x08 []).assertion.any (fun r => decide (r.credential.map (·.id) = some firstId)) = true ∧
      (a.storage.credentials[firstId]?).any (fun s =>
        decide (s.credential.rpIdHash = hashRpId "example.com" a.crypto) &&
          isCredProtectAllowed s.credential false true) = true := by
    intro a ha
    rw [ha]
    decide +kernel
  obtain ⟨hanswer, hnext, hstored⟩ := hdevice _ rfl
  generalize memoryDevice.run sampleBuild (sampleSetup 1) = a at *
  cases hdecode : sampleBuild.cbor.decodeGetAssertion
      (getAssertionData [allowListEntry [firstId, firstId]]) with
  | error error =>
      rw [hdecode] at hdecoded
      cases hdecoded
  | ok request =>
      rw [hdecode] at hdecoded
      obtain ⟨hrpId, hnamed, hprotocol, hparam⟩ := of_decide_eq_true hdecoded
      obtain ⟨r, hr, hid⟩ := (Option.any_eq_true _ _).mp hanswer
      obtain ⟨r', hr', hid'⟩ := (Option.any_eq_true _ _).mp hnext
      obtain ⟨s, hs, hok⟩ := (Option.any_eq_true _ _).mp hstored
      obtain ⟨hhash, hallowed⟩ := (Bool.and_eq_true _ _).mp hok
      refine ⟨request, r, rfl, hr, ?_, ⟨fun _ => ?_, s, hs, ?_, ?_⟩, ?_⟩
      · rw [hprotocol, hparam]
        rfl
      · have hmem : firstId ∈ request.named.map (·.id) := by
          rw [hnamed]
          exact List.mem_cons_self
        exact List.mem_map.mp hmem
      · rw [hrpId]
        exact of_decide_eq_true hhash
      · have hne : request.named ≠ [] := fun hnil => by
          rw [hnil] at hnamed
          cases hnamed
        rw [decide_eq_true hne]
        exact hallowed
      · rintro ⟨rs, ids, hanswers, hids, hnodup, -⟩
        cases hanswers with
        | last hlast =>
            rw [hlast] at hr'
            cases hr'
        | @next _ r₂ rs hr₂ _ =>
            obtain rfl : r₂ = r' := Option.some.inj (hr₂.symm.trans hr')
            rw [List.map_cons, List.map_cons, of_decide_eq_true hid, of_decide_eq_true hid'] at hids
            match ids, hids with
            | id₁ :: id₂ :: rest, hids =>
                rw [List.map_cons, List.map_cons] at hids
                obtain ⟨h₁, htail⟩ := List.cons.inj hids
                obtain ⟨h₂, -⟩ := List.cons.inj htail
                have heq : id₁ = id₂ := Option.some.inj (h₁.symm.trans h₂)
                rw [heq] at hnodup
                exact (List.nodup_cons.mp hnodup).1 List.mem_cons_self

end Auth

end OpenKey
