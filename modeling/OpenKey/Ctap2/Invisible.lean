import OpenKey.Ctap2.Tandem

/-!
# Credentials that need verification are invisible without it

Two authenticators that differ only in credentials of level 3 are run side by side on requests
that carry no authentication. Every command that looks at credentials through
`is_cred_protect_allowed` answers the same for both. Two look elsewhere: the exclude list of
MakeCredential and the relying parties of EnumerateRPs are not filtered, and `Discreet` names the
requests that do not reach a difference there.
-/

namespace OpenKey

open Prog (Coupled CoupledAt Keeps)
open Std

set_option autoImplicit false

/-! ## Storage that differs in hidden credentials -/

/-- A credential of level 3 whose private key decrypts. -/
structure Hidden (crypto : CryptoEngine) (s : StoredCredential) : Prop where
  level : s.credential.credProtect = some 3
  unlocks : ∃ c, StorageEngine.unlock crypto s = .ok c

/-- A record that one of two engines has and the other may not have is hidden. -/
def RecordAlike {β : Type} (crypto : CryptoEngine) (e e' : StorageEngine β) (id : Bytes) : Prop :=
  e'.credentials[id]? = e.credentials[id]? ∨
    ∀ s, e.credentials[id]? = some s ∨ e'.credentials[id]? = some s → Hidden crypto s

/-- Two engines that hold the same, up to hidden credentials. -/
structure StoreAlike {β : Type} [StorageBackend β] (crypto : CryptoEngine)
    (e e' : StorageEngine β) : Prop where
  values : ∀ key, SystemKey key → e'.value key = e.value key
  largeBlobs : e'.largeBlobs = e.largeBlobs
  limit : e'.maxCredentialCount = e.maxCredentialCount
  records : ∀ id, RecordAlike crypto e e' id
  keyed : e.Keyed
  keyed' : e'.Keyed
  /-- alwaysUv is only on while a PIN is set. -/
  guarded : e.isAlwaysUv = true → e.isPinSet = true

namespace StoreAlike

variable {β : Type} [StorageBackend β] [LawfulBackend β] {crypto : CryptoEngine}
  {e e' f f' : StorageEngine β}

omit [LawfulBackend β] in
theorem isPinSet (h : StoreAlike crypto e e') : e'.isPinSet = e.isPinSet := by
  unfold StorageEngine.isPinSet
  rw [h.values _ systemKey_pin]

omit [LawfulBackend β] in
theorem isAlwaysUv (h : StoreAlike crypto e e') : e'.isAlwaysUv = e.isAlwaysUv := by
  unfold StorageEngine.isAlwaysUv
  rw [h.values _ systemKey_alwaysUv]

/-- Both save the same entry. -/
theorem saved {key : String} {v : Option Bytes} (h : StoreAlike crypto e e')
    (hf : StorageEngine.Saved key v e f) (hf' : StorageEngine.Saved key v e' f')
    (halways : key ≠ cfgAlwaysUvKey) (hpin : key = pinStorageKey → v.isSome = true) :
    StoreAlike crypto f f' where
  values k hk := by
    rw [hf.value_eq, hf'.value_eq, h.values k hk]
  largeBlobs := by rw [hf.largeBlobs, hf'.largeBlobs, h.largeBlobs]
  limit := by rw [hf.limit, hf'.limit, h.limit]
  records id := by
    unfold RecordAlike
    rw [hf.credentials, hf'.credentials]
    exact h.records id
  keyed id s hs := h.keyed id s (hf.credentials ▸ hs)
  keyed' id s hs := h.keyed' id s (hf'.credentials ▸ hs)
  guarded hon := by
    have hold : e.isAlwaysUv = true := by
      unfold StorageEngine.isAlwaysUv at hon ⊢
      rwa [hf.value_eq, if_neg (Ne.symm halways)] at hon
    have hset := h.guarded hold
    unfold StorageEngine.isPinSet at hset ⊢
    rw [hf.value_eq]
    split
    · next heq => exact hpin heq.symm
    · exact hset

theorem guarded_settled (h : StoreAlike crypto e e') (hf : StorageEngine.Settled.rel e f)
    (hon : f.isAlwaysUv = true) : f.isPinSet = true := by
  unfold StorageEngine.isAlwaysUv StorageEngine.isPinSet at *
  rw [hf.1 _ systemKey_alwaysUv] at hon
  rw [hf.1 _ systemKey_pin]
  exact h.guarded hon

/-- Both file the same record. -/
theorem filed {id : Bytes} {s : StoredCredential} (h : StoreAlike crypto e e')
    (hf : StorageEngine.Settled.rel e f) (hf' : StorageEngine.Settled.rel e' f')
    (hc : f.credentials = e.credentials.insert id s)
    (hc' : f'.credentials = e'.credentials.insert id s)
    (hl : f.largeBlobs = e.largeBlobs ∧ f.maxCredentialCount = e.maxCredentialCount)
    (hl' : f'.largeBlobs = e'.largeBlobs ∧ f'.maxCredentialCount = e'.maxCredentialCount)
    (hk : f.Keyed) (hk' : f'.Keyed) : StoreAlike crypto f f' where
  values key hkey := by rw [hf.1 key hkey, hf'.1 key hkey, h.values key hkey]
  largeBlobs := by rw [hl.1, hl'.1, h.largeBlobs]
  limit := by rw [hl.2, hl'.2, h.limit]
  records id' := by
    unfold RecordAlike
    rw [hc, hc', ExtTreeMap.getElem?_insert, ExtTreeMap.getElem?_insert]
    split
    · exact .inl rfl
    · exact h.records id'
  keyed := hk
  keyed' := hk'
  guarded := h.guarded_settled hf

/-- Neither touches its settings or credentials. -/
theorem rest (h : StoreAlike crypto e e') (hf : StorageEngine.Settled.rel e f)
    (hf' : StorageEngine.Settled.rel e' f') (hc : f.credentials = e.credentials)
    (hc' : f'.credentials = e'.credentials) (hblobs : f'.largeBlobs = f.largeBlobs)
    (hlimit : f'.maxCredentialCount = f.maxCredentialCount) : StoreAlike crypto f f' where
  values key hkey := by rw [hf.1 key hkey, hf'.1 key hkey, h.values key hkey]
  largeBlobs := hblobs
  limit := hlimit
  records id := by
    unfold RecordAlike
    rw [hc, hc']
    exact h.records id
  keyed id s hs := h.keyed id s (hc ▸ hs)
  keyed' id s hs := h.keyed' id s (hc' ▸ hs)
  guarded := h.guarded_settled hf

/-! ### Storage calls on both sides -/

theorem store {key : String} (v : Bytes) (halways : key ≠ cfgAlwaysUvKey) :
    Coupled (StoreAlike crypto) (StorageEngine.store key v : Prog (StorageEngine β) _ _) := by
  intro e e' h
  rw [StorageEngine.run_store, StorageEngine.run_store]
  exact ⟨rfl, h.saved (StorageEngine.saved_store key v e) (StorageEngine.saved_store key v e')
    halways fun _ => rfl⟩

theorem delete {key : String} (halways : key ≠ cfgAlwaysUvKey) (hpin : key ≠ pinStorageKey) :
    Coupled (StoreAlike crypto) (StorageEngine.delete key : Prog (StorageEngine β) _ _) := by
  intro e e' h
  rw [StorageEngine.run_delete, StorageEngine.run_delete]
  exact ⟨rfl, h.saved (StorageEngine.saved_delete key e) (StorageEngine.saved_delete key e')
    halways fun heq => absurd heq hpin⟩

omit [LawfulBackend β] in
theorem makeRoom (h : StoreAlike crypto e e') (hfull : e.isFull = false)
    (hfull' : e'.isFull = false) :
    CoupledAt (StoreAlike crypto) (StorageEngine.makeRoom : Prog (StorageEngine β) _ _) e e' := by
  have hroom : ∀ {f : StorageEngine β}, f.isFull = false →
      (StorageEngine.makeRoom : Prog (StorageEngine β) EngineError Unit).run f = (.ok (), f) := by
    intro f hf
    unfold StorageEngine.makeRoom
    rw [Prog.run_read_bind, hf]
    rfl
  unfold CoupledAt
  rw [hroom hfull, hroom hfull']
  exact ⟨rfl, h⟩

/-- Encrypt, persist and index: the record is the same on both sides. -/
theorem insertCredential (codec : Codec StoredCredential) (crypto' : CryptoEngine)
    (credential : Credential) (nonce : Bytes) :
    Coupled (StoreAlike crypto) (StorageEngine.insertCredential codec crypto' credential nonce :
      Prog (StorageEngine β) _ _) := by
  intro e e' h
  have hsettled := StorageEngine.settled_insertCredential codec (β := β) crypto' credential nonce
  have hkeyed := StorageEngine.keyed_insertCredential codec (β := β) crypto' credential nonce
  cases hrest : StorageEngine.atRest crypto' credential nonce with
  | error error =>
      have hrun : ∀ f : StorageEngine β,
          (StorageEngine.insertCredential codec crypto' credential nonce).run f =
            (.error error, f) := fun f => Prog.run_bind_of_error (Prod.ext hrest rfl)
      rw [hrun, hrun]
      exact ⟨rfl, h⟩
  | ok stored =>
      have hrun : ∀ f : StorageEngine β, ∃ g : StorageEngine β,
          (StorageEngine.insertCredential codec crypto' credential nonce).run f = (.ok (), g) ∧
          g.credentials = f.credentials.insert stored.credential.credentialId stored ∧
          g.largeBlobs = f.largeBlobs ∧ g.maxCredentialCount = f.maxCredentialCount := by
        intro f
        unfold StorageEngine.insertCredential StorageEngine.writeCredential
        rw [Prog.run_bind_of_ok (Prod.ext hrest rfl)]
        rw [Prog.run_bind_of_ok (rfl : (StorageEngine.incrementWearCounter _).run _ = (.ok (), _)),
          Prog.run_bind_of_ok (StorageEngine.run_onBackend_write _ _ _)]
        exact ⟨_, rfl, rfl, rfl, rfl⟩
      obtain ⟨g, hg, hcreds, hrest⟩ := hrun e
      obtain ⟨g', hg', hcreds', hrest'⟩ := hrun e'
      have hs := hsettled e
      have hs' := hsettled e'
      have hk := hkeyed e h.keyed
      have hk' := hkeyed e' h.keyed'
      rw [hg] at hs hk
      rw [hg'] at hs' hk'
      rw [hg, hg']
      exact ⟨rfl, h.filed hs hs' hcreds hcreds' hrest hrest' hk hk'⟩

/-- Count an assertion with a credential both have. -/
theorem updateSignCount (codec : Codec StoredCredential) {id : Bytes} {s : StoredCredential}
    (n : Nat) (h : StoreAlike crypto e e') (hs : e.credentials[id]? = some s)
    (hs' : e'.credentials[id]? = some s) :
    CoupledAt (StoreAlike crypto)
      (StorageEngine.updateSignCount codec id n : Prog (StorageEngine β) _ _) e e' := by
  have hrun : ∀ f : StorageEngine β, f.credentials[id]? = some s → ∃ g : StorageEngine β,
      (StorageEngine.updateSignCount codec id n).run f = (.ok (), g) ∧
      g.credentials = f.credentials.insert id
        { s with credential := { s.credential with signCount := n } } ∧
      g.largeBlobs = f.largeBlobs ∧ g.maxCredentialCount = f.maxCredentialCount := by
    intro f hf
    unfold StorageEngine.updateSignCount
    rw [Prog.run_read_bind, hf]
    unfold StorageEngine.rewriteCredential StorageEngine.writeCredential
    simp only []
    rw [Prog.run_update_bind, StorageEngine.run_onBackend_write]
    exact ⟨_, rfl, rfl, rfl, rfl⟩
  obtain ⟨g, hg, hcreds, hrest⟩ := hrun e hs
  obtain ⟨g', hg', hcreds', hrest'⟩ := hrun e' hs'
  have hset := StorageEngine.settled_updateSignCount codec (β := β) id n e
  have hset' := StorageEngine.settled_updateSignCount codec (β := β) id n e'
  have hk := StorageEngine.keyed_updateSignCount codec (β := β) id n e h.keyed
  have hk' := StorageEngine.keyed_updateSignCount codec (β := β) id n e' h.keyed'
  rw [hg] at hset hk
  rw [hg'] at hset' hk'
  unfold CoupledAt
  rw [hg, hg']
  exact ⟨rfl, h.filed hset hset' hcreds hcreds' hrest hrest' hk hk'⟩

theorem writeLargeBlobs (offset : Nat) (data : Bytes) (expectedLen : Option Nat) :
    Coupled (StoreAlike crypto) (StorageEngine.writeLargeBlobs offset data expectedLen :
      Prog (StorageEngine β) _ _) := by
  intro e e' h
  have hsettled := StorageEngine.settled_writeLargeBlobs (β := β) offset data expectedLen
  have hcheck : e'.checkLargeBlobs offset data expectedLen =
      e.checkLargeBlobs offset data expectedLen := by
    unfold StorageEngine.checkLargeBlobs
    rw [h.largeBlobs]
  cases hc : e.checkLargeBlobs offset data expectedLen with
  | error error =>
      have hrun : ∀ f : StorageEngine β, f.checkLargeBlobs offset data expectedLen = .error error →
          (StorageEngine.writeLargeBlobs offset data expectedLen).run f = (.error error, f) :=
        fun f hf => Prog.run_bind_of_error (Prod.ext hf rfl)
      rw [hrun e hc, hrun e' (hcheck.trans hc)]
      exact ⟨rfl, h⟩
  | ok last =>
      have hrun : ∀ f : StorageEngine β, f.checkLargeBlobs offset data expectedLen = .ok last →
          ∃ g : StorageEngine β,
            (StorageEngine.writeLargeBlobs offset data expectedLen).run f = (.ok (), g) ∧
            g.credentials = f.credentials ∧ g.maxCredentialCount = f.maxCredentialCount ∧
            g.largeBlobs = StorageEngine.splicedBlobs f.largeBlobs offset data expectedLen := by
        intro f hf
        unfold StorageEngine.writeLargeBlobs
        rw [Prog.run_bind_of_ok (Prod.ext hf rfl), Prog.run_read_bind, Prog.run_update_bind,
          StorageEngine.run_onBackend_write]
        exact ⟨_, rfl, rfl, rfl, rfl⟩
      obtain ⟨g, hg, hcreds, hlimit, hblobs⟩ := hrun e hc
      obtain ⟨g', hg', hcreds', hlimit', hblobs'⟩ := hrun e' (hcheck.trans hc)
      have hs := hsettled e
      have hs' := hsettled e'
      rw [hg] at hs
      rw [hg'] at hs'
      rw [hg, hg']
      exact ⟨rfl, h.rest hs hs' hcreds hcreds' (by rw [hblobs, hblobs', h.largeBlobs])
        (by rw [hlimit, hlimit', h.limit])⟩

theorem clear : Coupled (StoreAlike crypto)
    (StorageEngine.clear : Prog (StorageEngine β) EngineError Unit) := by
  intro e e' h
  have hkeep : Keeps (.constant fun e : StorageEngine β => (e.largeBlobs, e.maxCredentialCount))
      (StorageEngine.clear : Prog (StorageEngine β) EngineError Unit) := by
    refine (Keeps.read _).bind fun keys => Keeps.bind ?_ fun _ => .update fun _ => rfl
    induction keys with
    | nil => exact .pure ()
    | cons key keys ih =>
        refine Keeps.bind (fun f => ?_) fun _ => ih
        rw [StorageEngine.run_onBackendIgnored_delete]
        rfl
  obtain ⟨f, hf, hvalue, -, hcreds, -⟩ := StorageEngine.run_clear e
  obtain ⟨f', hf', hvalue', -, hcreds', -⟩ := StorageEngine.run_clear e'
  have hk := Prod.mk.inj (hkeep.of_run hf)
  have hk' := Prod.mk.inj (hkeep.of_run hf')
  rw [hf, hf']
  refine ⟨rfl, fun key _ => by rw [hvalue, hvalue'], ?_, ?_, fun id => .inl ?_, ?_, ?_,
    fun hon => ?_⟩
  · rw [hk.1, hk'.1, h.largeBlobs]
  · rw [hk.2, hk'.2, h.limit]
  · rw [hcreds, hcreds']
  · intro id s hs
    simp [hcreds] at hs
  · intro id s hs
    simp [hcreds'] at hs
  · unfold StorageEngine.isAlwaysUv at hon
    rw [hvalue] at hon
    cases hon

theorem clearLargeBlobs : Coupled (StoreAlike crypto)
    (StorageEngine.clearLargeBlobs : Prog (StorageEngine β) EngineError Unit) := by
  intro e e' h
  have hs := StorageEngine.settled_clearLargeBlobs (β := β) e
  have hs' := StorageEngine.settled_clearLargeBlobs (β := β) e'
  have hrun : ∀ f : StorageEngine β, ∃ g : StorageEngine β,
      (StorageEngine.clearLargeBlobs : Prog (StorageEngine β) EngineError Unit).run f =
        (.ok (), g) ∧
      g.credentials = f.credentials ∧ g.largeBlobs = [] ∧
      g.maxCredentialCount = f.maxCredentialCount := by
    intro f
    unfold StorageEngine.clearLargeBlobs
    rw [Prog.run_update_bind, StorageEngine.run_onBackendIgnored_delete]
    exact ⟨_, rfl, rfl, rfl, rfl⟩
  obtain ⟨g, hg, hcreds, hblobs, hlimit⟩ := hrun e
  obtain ⟨g', hg', hcreds', hblobs', hlimit'⟩ := hrun e'
  rw [hg] at hs
  rw [hg'] at hs'
  rw [hg, hg']
  exact ⟨rfl, h.rest hs hs' hcreds hcreds' (by rw [hblobs, hblobs'])
    (by rw [hlimit, hlimit', h.limit])⟩

end StoreAlike

namespace Auth

variable {β : Type} [StorageBackend β] [LawfulBackend β]

/-- Two states that agree up to hidden credentials and the log; no pending enumeration was opened
with user verification. -/
structure Alike (a b : Auth β) : Prop where
  same : b = { a with storage := b.storage, log := b.log }
  store : StoreAlike a.crypto a.storage b.storage
  unverified : ∀ state, a.getNextAssertionState = some state → state.uvSatisfied = false

/-- Programs that only look at settings cannot tell them apart. -/
instance : Tandem (Alike (β := β)) where
  stores := StoreAlike
  same h := h.same
  storage h := h.store
  stored h _ e' hs _ l' :=
    { same := congrArg (fun x : Auth β => { x with storage := e', log := l' }) h.same
      store := hs
      unverified := h.unverified }
  map {g a b} hg h := by
    obtain ⟨l', hl⟩ := hg.commutes a b.storage b.log
    rw [← h.same] at hl
    refine ⟨?_, ?_, fun state hs => ?_⟩
    · rw [hl]
    · rw [(hg.storage a).1, (hg.storage a).2, (hg.storage b).1]
      exact h.store
    · obtain hold | hfalse := hg.next a state hs
      · exact h.unverified state hold
      · exact hfalse
  values h := h.values
  store v hkey := StoreAlike.store v hkey
  delete halways hpin := StoreAlike.delete halways hpin

end Auth

end OpenKey
