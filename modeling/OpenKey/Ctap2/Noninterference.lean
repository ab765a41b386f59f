import OpenKey.Ctap2.Invisible

/-!
# Requests without authentication, side by side

Every command, run on two authenticators that differ in hidden credentials only, gives the same
answer to a request without `pinUvAuthParam`; MakeCredential and EnumerateRPs do so where their
unfiltered lookups agree.
-/

namespace OpenKey

open Prog (Coupled CoupledAt Keeps)
open Std

set_option autoImplicit false

namespace Auth

variable {β : Type} [StorageBackend β] [LawfulBackend β]

end Auth

/-! ## Looking at credentials without verification -/

namespace StoreAlike

variable {β : Type} [StorageBackend β] [LawfulBackend β] {crypto : CryptoEngine}
  {e e' : StorageEngine β}

omit [LawfulBackend β] in
/-- A lookup finds the same record in both engines, or only hidden ones. -/
theorem getCredential (h : StoreAlike crypto e e') (id : Bytes) :
    e'.getCredential id crypto = e.getCredential id crypto ∨
      ∀ f, f = e ∨ f = e' → f.getCredential id crypto = .ok none ∨
        ∃ c, f.getCredential id crypto = .ok (some c) ∧ c.credProtect = some 3 := by
  obtain hsame | hhidden := h.records id
  · left
    unfold StorageEngine.getCredential
    rw [hsame]
  · right
    intro f hf
    cases hs : f.credentials[id]? with
    | none => exact .inl (by simp only [StorageEngine.getCredential, hs])
    | some s =>
        have hs' : Hidden crypto s := hhidden s (by
          obtain rfl | rfl := hf
          · exact .inl hs
          · exact .inr hs)
        obtain ⟨c, hc⟩ := hs'.unlocks
        refine .inr ⟨c, ?_, ?_⟩
        · simp only [StorageEngine.getCredential, hs, hc]
          rfl
        · obtain ⟨key, rfl⟩ := StorageEngine.unlock_ok hc
          exact hs'.level

omit [LawfulBackend β] in
/-- The credentials that are not hidden, in the order of their ids. -/
theorem visible (h : StoreAlike crypto e e') :
    e'.records.filter (fun s => s.credential.credProtect ≠ some 3) =
      e.records.filter fun s => s.credential.credProtect ≠ some 3 := by
  have hmap : e'.credentials.filter (fun _ s => s.credential.credProtect ≠ some 3) =
      e.credentials.filter fun _ s => s.credential.credProtect ≠ some 3 := by
    refine ExtTreeMap.ext_getElem? fun id => ?_
    rw [ExtTreeMap.getElem?_filter', ExtTreeMap.getElem?_filter']
    obtain hsame | hhidden := h.records id
    · rw [hsame]
    · have hnone : ∀ f : StorageEngine β, f = e ∨ f = e' →
          Option.filter (fun s : StoredCredential => decide (s.credential.credProtect ≠ some 3))
            f.credentials[id]? = none := by
        intro f hf
        cases hs : f.credentials[id]? with
        | none => rfl
        | some s =>
            have hlevel : s.credential.credProtect = some 3 := (hhidden s (by
              obtain rfl | rfl := hf
              · exact .inl hs
              · exact .inr hs)).level
            simp [hlevel]
      rw [hnone e' (.inr rfl), hnone e (.inl rfl)]
  have hlist : ∀ f : StorageEngine β,
      f.records.filter (fun s => s.credential.credProtect ≠ some 3) =
        (f.credentials.filter fun _ s => s.credential.credProtect ≠ some 3).toList.map (·.2) := by
    intro f
    unfold StorageEngine.records
    rw [ExtTreeMap.toList_filter, List.filter_map]
    rfl
  rw [hlist, hlist, hmap]

end StoreAlike

theorem isCredProtectAllowed_hidden {c : Credential} (h : c.credProtect = some 3) (named : Bool) :
    isCredProtectAllowed c false named = false := by
  cases hallowed : isCredProtectAllowed c false named with
  | false => rfl
  | true => exact (isCredProtectAllowed_level3 hallowed h).symm

namespace Auth

variable {β : Type} [StorageBackend β] [LawfulBackend β]

omit [StorageBackend β] [LawfulBackend β] in
/-- Discovery only goes through the credentials that are not hidden. -/
theorem discoverable_eq_visible (a : Auth β) (rpId : String) :
    discoverable a rpId false =
      (((a.storage.records.filter fun s => s.credential.credProtect ≠ some 3).filter fun s =>
        s.credential.rpIdHash = a.crypto.sha256 (utf8 rpId)).filterMap fun s =>
          (StorageEngine.unlock a.crypto s).toOption).filter
            fun c => isCredProtectAllowed c false false := by
  unfold discoverable StorageEngine.findByRpId StorageEngine.findCredentialsByRpHash
  generalize a.storage.records = records
  induction records with
  | nil => rfl
  | cons s rest ih =>
      by_cases hlevel : s.credential.credProtect = some 3
      · rw [List.filter_cons_of_neg (l := rest) (a := s) (p := fun s : StoredCredential =>
          decide (s.credential.credProtect ≠ some 3)) (by simp [hlevel]), ← ih]
        by_cases hrp : s.credential.rpIdHash = a.crypto.sha256 (utf8 rpId)
        · rw [List.filter_cons_of_pos (by simpa using hrp)]
          cases hu : StorageEngine.unlock a.crypto s with
          | error error => rw [List.filterMap_cons_none (by rw [hu]; rfl)]
          | ok c =>
              have hc : c.credProtect = some 3 := by
                obtain ⟨key, rfl⟩ := StorageEngine.unlock_ok hu
                exact hlevel
              rw [List.filterMap_cons_some (by rw [hu]; rfl), List.filter_cons_of_neg
                (by rw [isCredProtectAllowed_hidden hc]; exact Bool.false_ne_true)]
        · rw [List.filter_cons_of_neg (by simpa using hrp)]
      · rw [List.filter_cons_of_pos (l := rest) (a := s) (p := fun s : StoredCredential =>
          decide (s.credential.credProtect ≠ some 3)) (by simpa using hlevel)]
        by_cases hrp : s.credential.rpIdHash = a.crypto.sha256 (utf8 rpId)
        · rw [List.filter_cons_of_pos (by simpa using hrp),
            List.filter_cons_of_pos (by simpa using hrp)]
          simp only [List.filterMap_cons]
          cases (StorageEngine.unlock a.crypto s).toOption with
          | none => exact ih
          | some c =>
              simp only [List.filter_cons]
              rw [ih]
        · rw [List.filter_cons_of_neg (by simpa using hrp),
            List.filter_cons_of_neg (by simpa using hrp)]
          exact ih

namespace Alike

variable {a b : Auth β}

theorem crypto (h : Alike a b) : b.crypto = a.crypto :=
  (Tandem.read_eq (f := fun a => a.crypto) (fun _ _ _ => rfl) h).symm

theorem discoverable (h : Alike a b) (rpId : String) :
    b.discoverable rpId false = a.discoverable rpId false := by
  rw [discoverable_eq_visible, discoverable_eq_visible, h.crypto, h.store.visible]

theorem selectNamed (h : Alike a b) (rpIdHash : Bytes) (descriptors : List CredentialDescriptor) :
    b.selectNamed rpIdHash false descriptors = a.selectNamed rpIdHash false descriptors := by
  induction descriptors with
  | nil => rfl
  | cons descriptor rest ih =>
      obtain hsame | hhidden := h.store.getCredential descriptor.id
      · simp only [Auth.selectNamed, h.crypto, hsame, ih]
      · have hskip : ∀ f : Auth β, f.crypto = a.crypto →
            f.storage = a.storage ∨ f.storage = b.storage →
            f.selectNamed rpIdHash false (descriptor :: rest) =
              f.selectNamed rpIdHash false rest := by
          intro f hcrypto hf
          obtain hnone | ⟨c, hc, hlevel⟩ := hhidden f.storage hf
          · simp only [Auth.selectNamed, hcrypto, hnone]
          · simp only [Auth.selectNamed, hcrypto, hc, isCredProtectAllowed_hidden hlevel]
            simp
        rw [hskip b h.crypto (.inr rfl), hskip a rfl (.inl rfl), ih]

theorem selectCredential (h : Alike a b) (request : GetAssertionRequest) :
    b.selectCredential request false = a.selectCredential request false := by
  unfold Auth.selectCredential
  rw [h.selectNamed, h.discoverable, h.crypto]

theorem matchingId (h : Alike a b) (rpId : String) (descriptor : CredentialDescriptor) :
    b.matchingId rpId false descriptor = a.matchingId rpId false descriptor := by
  obtain hsame | hhidden := h.store.getCredential descriptor.id
  · simp only [Auth.matchingId, h.crypto, hsame]
  · have hskip : ∀ f : Auth β, f.crypto = a.crypto →
        f.storage = a.storage ∨ f.storage = b.storage →
          f.matchingId rpId false descriptor = none := by
      intro f hcrypto hf
      obtain hnone | ⟨c, hc, hlevel⟩ := hhidden f.storage hf
      · simp only [Auth.matchingId, hcrypto, hnone]
      · simp only [Auth.matchingId, hcrypto, hc, isCredProtectAllowed_hidden hlevel]
        simp
    rw [hskip b h.crypto (.inr rfl), hskip a rfl (.inl rfl)]

theorem findMatchingCredentials (h : Alike a b) (rpId : String)
    (allowList : List CredentialDescriptor) :
    b.findMatchingCredentials rpId allowList false =
      a.findMatchingCredentials rpId allowList false := by
  unfold Auth.findMatchingCredentials
  rw [h.discoverable, funext (h.matchingId rpId)]

/-- Both have the same record under this id. -/
def Shares (a b : Auth β) (id : Bytes) : Prop :=
  ∃ s, a.storage.credentials[id]? = some s ∧ b.storage.credentials[id]? = some s

omit [LawfulBackend β] in
/-- What passes the gate without verification is shared. -/
theorem shares (h : Alike a b) {c : Credential} {named : Bool} (hc : Passed a c false named) :
    Shares a b c.credentialId := by
  obtain ⟨s, hs, hlevel⟩ := hc.stored
  obtain hsame | hhidden := h.store.records c.credentialId
  · exact ⟨s, hs, hsame ▸ hs⟩
  · have h3 : c.credProtect = some 3 := hlevel ▸ (hhidden s (.inl hs)).level
    exact absurd (isCredProtectAllowed_level3 hc.allowed h3) Bool.false_ne_true

omit [StorageBackend β] [LawfulBackend β] in
theorem Shares.of_storage {u v : Auth β} {id : Bytes} (hs : Shares a b id)
    (hu : u.storage.credentials = a.storage.credentials)
    (hv : v.storage.credentials = b.storage.credentials) : Shares u v id := by
  obtain ⟨s, hsa, hsb⟩ := hs
  exact ⟨s, hu ▸ hsa, hv ▸ hsb⟩

end Alike

/-! ## Assertions -/

section Assertions

variable {α γ : Type} {a b : Auth β}

omit [LawfulBackend β] in
/-- A program that leaves the core alone, and one that starts from the same cores. -/
theorem Alike.quiet_bind {m : Ctap β α} {f : α → Ctap β γ} (h : Alike a b)
    (hm : Coupled Alike m) (hquiet : Keeps Quiet m)
    (hf : ∀ x u v, u.core = a.core → v.core = b.core → Alike u v → CoupledAt Alike (f x) u v) :
    CoupledAt Alike (m >>= f) a b :=
  CoupledAt.bind (hm a b h) fun x u v hu hv huv =>
    hf x u v (hquiet.of_run hu) (hquiet.of_run hv) huv

omit [LawfulBackend β] in
/-- Without a parameter the user is not verified, and then alwaysUv is off. -/
theorem authenticateOperation_unverified {pinProtocol : Option Nat} {clientDataHash : Bytes}
    {permission : UInt8} {rpId : String} {uv verified : Bool} {a b : Auth β}
    (h : (authenticateOperation pinProtocol none clientDataHash permission rpId uv).run a =
      (.ok verified, b))
    (hguard : a.storage.isAlwaysUv = true → a.storage.isPinSet = true) :
    a = b ∧ verified = false ∧ a.storage.isAlwaysUv = false := by
  obtain ⟨hab, hverdict, hpin, halways⟩ := authenticateOperation_ok h
  have hverified : verified = false := by
    cases pinProtocol with
    | none =>
        cases hverdict
        rfl
    | some version => cases hverdict
  refine ⟨hab, hverified, ?_⟩
  cases hon : a.storage.isAlwaysUv with
  | false => rfl
  | true =>
      have htrue := hpin (halways hon) (hguard hon)
      rw [hverified] at htrue
      cases htrue

theorem Alike.signCounted (build : Build) {credential : Credential} (rpIdHash : Bytes)
    (flags : UInt8) (clientDataHash : Bytes) (h : Alike a b)
    (hs : Alike.Shares a b credential.credentialId) :
    CoupledAt Alike (signCounted build credential rpIdHash flags clientDataHash) a b := by
  refine CoupledAt.bind (tandem_nextSignCount a b h) fun n u v hu hv huv => ?_
  obtain ⟨-, -, e, hsaved, rfl⟩ := nextSignCount_ok hu
  obtain ⟨-, -, e', hsaved', rfl⟩ := nextSignCount_ok hv
  obtain ⟨s, hsu, hsv⟩ := hs.of_storage (u := { a with storage := e, log := _ })
    (v := { b with storage := e', log := _ }) hsaved.credentials hsaved'.credentials
  exact CoupledAt.bind (Tandem.persist huv (huv.store.updateSignCount build.codec n hsu hsv))
    fun _ u v _ _ huv => ((tandem_signAssertion build _ _ _).bind fun _ => .pure _) u v huv

theorem alike_putNext {state : GetNextAssertionState} (hstate : state.uvSatisfied = false) :
    Coupled Alike
      (Prog.update fun a => { a with getNextAssertionState := some state } : Ctap β Unit) :=
  tandem_update ⟨fun _ _ _ => ⟨_, rfl⟩, fun _ => ⟨rfl, rfl⟩, fun _ state hsome => by
    cases hsome
    exact .inr hstate⟩

theorem alike_openEnumeration (request : GetAssertionRequest) (flags : UInt8)
    (credential : Credential) :
    Coupled Alike (openEnumeration request flags false credential : Ctap β Nat) := by
  refine (Coupled.read fun a b h => (h.findMatchingCredentials _ _).symm).bind fun found => ?_
  refine .ite (fun _ => ?_) fun _ => tandem_endHmacSession.bind fun _ => .pure _
  exact (alike_putNext rfl).bind fun _ => .pure _

theorem alike_getAssertion (build : Build) {request : GetAssertionRequest}
    (hparam : request.pinUvAuthParam = none) :
    Coupled Alike (getAssertion build request : Ctap β GetAssertionResponse) := by
  intro a b h
  refine CoupledAt.bind (tandem_authenticateOperation _ _ _ _ _ _ a b h)
    fun verified u v hu hv _ => ?_
  rw [hparam] at hu hv
  obtain ⟨rfl, rfl, hoff⟩ := authenticateOperation_unverified hu h.store.guarded
  obtain ⟨rfl, -, -⟩ := authenticateOperation_ok hv
  refine h.quiet_bind (.when fun _ => tandem_checkPresence) (.when fun _ => quiet_checkPresence)
    fun _ u v hu hv huv => ?_
  have hsat : u.credProtectUvSatisfied false = false := by
    rw [credProtectUvSatisfied, storage_of_core hu, hoff]
    rfl
  have hsat' : v.credProtectUvSatisfied false = false := by
    rw [credProtectUvSatisfied, storage_of_core hv,
      h.store.isAlwaysUv, hoff]
    rfl
  refine .read_bind (hsat.trans hsat'.symm) ?_
  rw [hsat]
  refine .check_bind (huv.selectCredential request).symm huv fun credential hselected => ?_
  obtain ⟨named, hpassed, -⟩ := selectCredential_ok huv.store.keyed hselected
  refine .read_bind (by rw [huv.crypto]) ?_
  refine CoupledAt.bind (huv.signCounted build _ _ _ (huv.shares hpassed)) fun _ u v _ _ huv => ?_
  exact ((tandem_firstExtensions _ _ _).bind fun _ => (alike_openEnumeration _ _ _).bind fun _ =>
    .pure _) u v huv

theorem alike_handleGetNextAssertion (build : Build) :
    Coupled Alike (handleGetNextAssertion build : Ctap β GetAssertionResponse) := by
  intro a b h
  refine CoupledAt.bind (tandem_takeNextState a b h) fun state u v hu hv huv => ?_
  obtain ⟨hstate, rfl⟩ := takeNextState_ok hu
  obtain ⟨-, rfl⟩ := takeNextState_ok hv
  have hunverified : state.uvSatisfied = false := h.unverified state hstate
  rw [hunverified]
  refine .read_bind (huv.findMatchingCredentials _ _).symm ?_
  refine CoupledAt.bind (tandem_nextMatch _ _ _ _ huv) fun id _ _ hnext hnext' _ => ?_
  obtain ⟨hid, rfl⟩ := nextMatch_ok hnext
  obtain ⟨-, rfl⟩ := nextMatch_ok hnext'
  obtain ⟨c, named, rfl, hpassed, -⟩ :=
    mem_findMatchingCredentials huv.store.keyed (List.mem_of_getElem? hid)
  have hshares := huv.shares hpassed
  refine CoupledAt.bind ⟨?_, huv⟩ fun credential _ _ hrun hrun' _ => ?_
  · obtain ⟨s, hs, hs'⟩ := hshares
    simp only [loadCredential, Prog.run_check, StorageEngine.getCredential]
    rw [show b.storage.credentials[c.credentialId]? = some s from hs',
      show a.storage.credentials[c.credentialId]? = some s from hs, h.crypto]
  obtain ⟨hload, rfl⟩ := loadCredential_ok hrun
  obtain ⟨-, rfl⟩ := loadCredential_ok hrun'
  have hcredential : credential.credentialId = c.credentialId := by
    obtain ⟨s, hs, hu⟩ := StorageEngine.getCredential_ok hload
    exact (stored_of_unlock huv.store.keyed hs hu).1
  rw [← hcredential] at hshares
  refine huv.quiet_bind (tandem_chainedHmacSecret _ _) (quiet_chainedHmacSecret _ _)
    fun chained u v hu hv huv => huv.quiet_bind (.when fun _ => tandem_endHmacSession)
      (.when fun _ => quiet_endHmacSession) fun _ u' v' hu' hv' huv => ?_
  refine CoupledAt.bind (alike_putNext rfl _ _ huv) fun _ w z hw hz huv => ?_
  cases hw
  cases hz
  refine .read_bind (by rw [huv.crypto]) ?_
  refine CoupledAt.bind (huv.signCounted build _ _ _ (hshares.of_storage ?_ ?_))
    fun _ u v _ _ huv => (Coupled.pure _) u v huv
  · exact congrArg (fun c : Core β => c.storage.credentials) (hu'.trans hu)
  · exact congrArg (fun c : Core β => c.storage.credentials) (hv'.trans hv)

end Assertions

/-! ## MakeCredential -/

section MakeCredential

variable {a b : Auth β}

/-- The record of this id belongs to the relying party. -/
def Names (a : Auth β) (rpIdHash id : Bytes) : Prop :=
  ∃ s, a.storage.credentials[id]? = some s ∧ s.credential.rpIdHash = rpIdHash

/-- Each entry of the exclude list names a record of the relying party in both or in neither, up to
the entry that ends the check. -/
def SameExclusions (a b : Auth β) (rpIdHash : Bytes) : List CredentialDescriptor → Prop
  | [] => True
  | d :: rest => (a.Names rpIdHash d.id ↔ b.Names rpIdHash d.id) ∧
      (a.checkExcludeList rpIdHash [d] = .ok () → SameExclusions a b rpIdHash rest)

/-- A MakeCredential without a parameter gets as far as its exclude list. -/
structure Excludes (build : Build) (a : Auth β) (request : MakeCredentialRequest) : Prop where
  protocol : request.pinProtocol = none
  pin : request.options.uv = true → a.storage.isPinSet = false
  alwaysUv : a.storage.isAlwaysUv = true → request.options.uv = true
  present : request.options.up = true → a.present = true
  algorithm : ∃ algorithm, selectAlgorithm build request.pubKeyCredParams = .ok algorithm

omit [LawfulBackend β] [StorageBackend β] in
theorem checkExcludeList_cons (a : Auth β) (rpIdHash : Bytes) (d : CredentialDescriptor)
    (rest : List CredentialDescriptor) :
    a.checkExcludeList rpIdHash (d :: rest) = (do
      a.checkExcludeList rpIdHash [d]
      a.checkExcludeList rpIdHash rest) := by
  simp only [checkExcludeList]
  cases a.storage.getCredential d.id a.crypto with
  | error => rfl
  | ok found =>
      cases found with
      | none => rfl
      | some credential =>
          simp only
          split <;> rfl

omit [LawfulBackend β] [StorageBackend β] in
/-- A hidden record ends the check of an exclude list if it is of the relying party. -/
theorem checkExcludeList_hidden (rpIdHash : Bytes) {d : CredentialDescriptor}
    (h : ∀ s, a.storage.credentials[d.id]? = some s → Hidden a.crypto s) :
    (a.Names rpIdHash d.id → a.checkExcludeList rpIdHash [d] = .error .credentialExists) ∧
      (¬a.Names rpIdHash d.id → a.checkExcludeList rpIdHash [d] = .ok ()) := by
  cases hs : a.storage.credentials[d.id]? with
  | none =>
      refine ⟨fun ⟨s, hsome, _⟩ => ?_, fun _ => ?_⟩
      · rw [hs] at hsome
        cases hsome
      · simp only [checkExcludeList, StorageEngine.getCredential, hs]
  | some s =>
      obtain ⟨c, hc⟩ := (h s hs).unlocks
      have hrp : c.rpIdHash = s.credential.rpIdHash := by
        obtain ⟨key, rfl⟩ := StorageEngine.unlock_ok hc
        rfl
      have hget : a.storage.getCredential d.id a.crypto = .ok (some c) := by
        simp only [StorageEngine.getCredential, hs, hc]
        rfl
      simp only [checkExcludeList, hget, hrp]
      refine ⟨fun ⟨s', hs', hnamed⟩ => ?_, fun hother => ?_⟩
      · obtain rfl := Option.some.inj (hs.symm.trans hs')
        exact if_pos hnamed
      · exact if_neg fun hnamed => hother ⟨s, hs, hnamed⟩

theorem Alike.checkExcludeList (h : Alike a b) {rpIdHash : Bytes}
    {excludeList : List CredentialDescriptor} (hsame : SameExclusions a b rpIdHash excludeList) :
    b.checkExcludeList rpIdHash excludeList = a.checkExcludeList rpIdHash excludeList := by
  induction excludeList with
  | nil => rfl
  | cons d rest ih =>
      obtain ⟨hnames, hrest⟩ := hsame
      have hentry : b.checkExcludeList rpIdHash [d] = a.checkExcludeList rpIdHash [d] := by
        obtain heq | hhidden := h.store.records d.id
        · simp only [Auth.checkExcludeList, StorageEngine.getCredential, heq, h.crypto]
        · have ha := checkExcludeList_hidden (a := a) rpIdHash fun s hs => hhidden s (.inl hs)
          have hb := checkExcludeList_hidden (a := b) rpIdHash fun s hs =>
            h.crypto ▸ hhidden s (.inr hs)
          by_cases hnamed : a.Names rpIdHash d.id
          · rw [ha.1 hnamed, hb.1 (hnames.mp hnamed)]
          · rw [ha.2 hnamed, hb.2 fun hb => hnamed (hnames.mpr hb)]
      rw [checkExcludeList_cons, checkExcludeList_cons a, hentry]
      cases hcheck : a.checkExcludeList rpIdHash [d] with
      | error => rfl
      | ok => exact ih (hrest hcheck)

omit [LawfulBackend β] [StorageBackend β] in
theorem checkExcludeList_congr {u : Auth β} (hu : u.core = a.core) (rpIdHash : Bytes)
    (excludeList : List CredentialDescriptor) :
    u.checkExcludeList rpIdHash excludeList = a.checkExcludeList rpIdHash excludeList := by
  have hcrypto : u.crypto = a.crypto := congrArg Core.crypto hu
  induction excludeList with
  | nil => rfl
  | cons d rest ih => simp only [checkExcludeList, storage_of_core hu, hcrypto, ih]

omit [LawfulBackend β] [StorageBackend β] in
theorem SameExclusions.congr {u v : Auth β} (hu : u.core = a.core) (hv : v.core = b.core)
    {rpIdHash : Bytes} {excludeList : List CredentialDescriptor}
    (h : SameExclusions a b rpIdHash excludeList) : SameExclusions u v rpIdHash excludeList := by
  induction excludeList with
  | nil => trivial
  | cons d rest ih =>
      obtain ⟨hnames, hrest⟩ := h
      refine ⟨?_, fun hentry => ih (hrest ?_)⟩
      · unfold Names
        rw [storage_of_core hu, storage_of_core hv]
        exact hnames
      · rw [← checkExcludeList_congr hu]
        exact hentry

omit [LawfulBackend β] in
/-- What a MakeCredential without a parameter has passed before it reads its exclude list. -/
theorem excludes_of_run (build : Build) {request : MakeCredentialRequest} {u : Auth β}
    {verified : Bool} {algorithm : Int} (hparam : request.pinUvAuthParam = none)
    (hverify : (authenticateOperation request.pinProtocol request.pinUvAuthParam
      request.clientDataHash permissionMc request.rp.id request.options.uv).run a =
        (.ok verified, a))
    (hpresent : (Prog.when request.options.up checkPresence).run a = (.ok (), u))
    (halgorithm : selectAlgorithm build request.pubKeyCredParams = .ok algorithm) :
    Excludes build a request := by
  obtain ⟨-, hverdict, hpin, halways⟩ := authenticateOperation_ok hverify
  rw [hparam] at hverdict
  cases hprotocol : request.pinProtocol with
  | some version =>
      rw [hprotocol] at hverdict
      cases hverdict
  | none =>
      rw [hprotocol] at hverdict
      cases hverdict
      refine ⟨hprotocol, fun huv => ?_, halways, fun hup => ?_, algorithm, halgorithm⟩
      · cases hset : a.storage.isPinSet with
        | false => rfl
        | true => exact absurd (hpin huv hset) Bool.false_ne_true
      · obtain ⟨c, -, -, hrun⟩ := run_checkPresence a
        rw [hup] at hpresent
        have hresult := congrArg Prod.fst (hrun.symm.trans hpresent)
        by_contra hne
        rw [if_neg hne] at hresult
        cases hresult

theorem Alike.storeCredential (build : Build) (credential : Credential) (h : Alike a b)
    (hfull : a.storage.isFull = false) (hfull' : b.storage.isFull = false) :
    CoupledAt Alike (storeCredential build credential) a b :=
  CoupledAt.bind (Tandem.persist h (h.store.makeRoom hfull hfull')) fun _ u v _ _ huv =>
    ((tandem_randomBytes _).bind fun _ => (tandem_read fun _ _ _ => rfl).bind fun _ =>
      tandem_persist fun _ => StoreAlike.insertCredential _ _ _ _) u v huv

theorem Alike.makeCredential (build : Build) {request : MakeCredentialRequest} (h : Alike a b)
    (hparam : request.pinUvAuthParam = none)
    (hfull : a.storage.isFull = false) (hfull' : b.storage.isFull = false)
    (hexclude : Excludes build a request →
      SameExclusions a b (hashRpId request.rp.id a.crypto) request.excludeList) :
    CoupledAt Alike (makeCredential build request) a b := by
  refine CoupledAt.bind (tandem_authenticateOperation _ _ _ _ _ _ a b h)
    fun verified u v hu hv _ => ?_
  obtain ⟨rfl, -, -⟩ := authenticateOperation_ok hu
  obtain ⟨rfl, -, -⟩ := authenticateOperation_ok hv
  refine CoupledAt.bind (Coupled.when (fun _ => tandem_checkPresence) a b h)
    fun _ u' v' hpresent hpresent' huv' => ?_
  have hquiet : Keeps Quiet (Prog.when request.options.up checkPresence : Ctap β Unit) :=
    .when fun _ => quiet_checkPresence
  have hrun : u'.core = a.core := hquiet.of_run hpresent
  have hrun' : v'.core = b.core := hquiet.of_run hpresent'
  refine .read_bind (by rw [huv'.crypto]) ?_
  refine .check_bind rfl huv' fun algorithm halgorithm => ?_
  have hexclusions : SameExclusions u' v' (hashRpId request.rp.id u'.crypto)
      request.excludeList := by
    rw [show u'.crypto = a.crypto from congrArg Core.crypto hrun]
    exact (hexclude (excludes_of_run build hparam hu hpresent halgorithm)).congr hrun hrun'
  refine .check_bind (huv'.checkExcludeList hexclusions).symm huv' fun _ _ => ?_
  refine .check_bind rfl huv' fun credBlob _ => ?_
  refine huv'.quiet_bind (tandem_newCredential build _ _ _ _) (quiet_newCredential build _ _ _ _)
    fun credential u v hu hv huv => ?_
  have hroom : u.storage.isFull = false := by
    rwa [storage_of_core (hu.trans hrun)]
  have hroom' : v.storage.isFull = false := by
    rwa [storage_of_core (hv.trans hrun')]
  exact CoupledAt.bind (huv.storeCredential build _ hroom hroom') fun _ u v _ _ huv =>
    tandem_makeCredentialResponse build _ _ _ u v huv

end MakeCredential

/-! ## The other commands -/

section Others

variable (build : Build)

/-- CredentialManagement refuses a request without a parameter. -/
theorem alike_handleCredentialManagement {data : Bytes}
    (hnone : ∀ request, build.cbor.decodeCredentialManagement data = .ok request →
      request.pinUvAuthParam = none) :
    Coupled Alike (handleCredentialManagement build data : Ctap β CtapResponse) := by
  intro a b h
  refine CoupledAt.check_bind rfl h fun request hrequest =>
    CoupledAt.check_bind rfl h fun message _ => ?_
  have hparam : request.pinUvAuthParam = none := by
    cases hdecode : build.cbor.decodeCredentialManagement data with
    | error text => simp [hdecode, Except.mapError] at hrequest
    | ok request' =>
        rw [hdecode] at hrequest
        cases hrequest
        exact hnone request hdecode
  rw [hparam]
  refine .check_bind (Tandem.read_eq (f := fun a : Auth β => verifyPinUvAuthForOperation a
    request.pinUvAuthProtocol none message permissionCm none) (fun _ _ _ => rfl) h) h
      fun verified hverified => ?_
  have hfalse : verified = false := by
    cases hprotocol : request.pinUvAuthProtocol with
    | none =>
        rw [hprotocol] at hverified
        cases hverified
        rfl
    | some version =>
        rw [hprotocol] at hverified
        cases hverified
  subst hfalse
  refine CoupledAt.bind (Coupled.ensure (fun a b h => by rw [h.store.isPinSet]) a b h)
    fun _ u v _ _ huv => ⟨rfl, huv⟩

/-- AuthenticatorConfig refuses it too. -/
theorem alike_handleAuthnrConfig {data : Bytes}
    (hnone : ∀ request, AuthnrConfigRequest.decode build.cbor data = .ok request →
      request.pinUvAuthParam = none) :
    Coupled Alike (handleAuthnrConfig build data : Ctap β Unit) := by
  intro a b h
  refine CoupledAt.check_bind rfl h fun request hrequest => ?_
  refine CoupledAt.bind (Coupled.ensure (fun a b h => by rw [h.store.isPinSet]) a b h)
    fun _ u v _ _ huv => CoupledAt.bind (tandem_required _ u v huv) fun _ u v _ _ huv => ?_
  rw [hnone request hrequest]
  exact ⟨rfl, huv⟩

theorem alike_handleLargeBlobs (data : Bytes) :
    Coupled Alike (handleLargeBlobs build data : Ctap β LargeBlobsResponse) := by
  refine (tandem_check fun _ _ _ => rfl).bind fun request => ?_
  cases request.set with
  | none =>
      refine (tandem_check fun _ _ _ => rfl).bind fun _ => .read fun a b h => ?_
      simp only [StorageEngine.readLargeBlobs, h.store.largeBlobs]
  | some blob =>
      exact (tandem_check fun _ _ _ => rfl).bind fun _ =>
        (tandem_persist fun _ => StoreAlike.writeLargeBlobs _ _ _).bind fun _ => .pure _

theorem alike_handleReset : Coupled Alike (handleReset : Ctap β Unit) :=
  tandem_checkPresence.bind fun _ => (tandem_persistIgnored fun _ => StoreAlike.clear).bind fun _ =>
    (tandem_persistIgnored fun _ => StoreAlike.clearLargeBlobs).bind fun _ =>
      tandem_update ⟨fun _ _ _ => ⟨_, rfl⟩, fun _ => ⟨rfl, rfl⟩, fun _ _ hstate => by cases hstate⟩

theorem Alike.handleEnumerateRpsInitial {a b : Auth β} (h : Alike a b)
    (hsame : b.storage.enumerateRps = a.storage.enumerateRps) :
    CoupledAt Alike handleEnumerateRpsInitial a b := by
  refine .read_bind hsame.symm ?_
  cases a.storage.enumerateRps with
  | nil => exact ⟨rfl, h⟩
  | cons first rest =>
      exact ((tandem_putEnumerateRps _).bind fun _ => .pure _ : Coupled Alike _).bind
        (fun _ => .pure _) a b h

end Others

end Auth

/-! ## Runs -/

/-- The request of a command carries no `pinUvAuthParam`. -/
def CarriesNoAuth (build : Build) (cmd : UInt8) (data : Bytes) : Prop :=
  match Ctap2Command.fromU8 cmd with
  | .makeCredential => ∀ request, build.cbor.decodeMakeCredential data = .ok request →
      request.pinUvAuthParam = none
  | .getAssertion => ∀ request, build.cbor.decodeGetAssertion data = .ok request →
      request.pinUvAuthParam = none
  | .credentialManagement => ∀ request, build.cbor.decodeCredentialManagement data = .ok request →
      request.pinUvAuthParam = none
  | .authenticatorConfig => ∀ request, AuthnrConfigRequest.decode build.cbor data = .ok request →
      request.pinUvAuthParam = none
  | _ => True

namespace Auth

variable {β : Type} [StorageBackend β] [LawfulBackend β] (build : Build)

/-- A MakeCredential does not reach the limit of credentials. -/
def HasRoom (a : Auth β) (cmd : UInt8) : Prop :=
  Ctap2Command.fromU8 cmd = .makeCredential → a.storage.isFull = false

/-- The lookups that pass by `is_cred_protect_allowed` find the same in both, if they are made. -/
def Discreet (a b : Auth β) (cmd : UInt8) (data : Bytes) : Prop :=
  match Ctap2Command.fromU8 cmd with
  | .makeCredential => ∀ request, build.cbor.decodeMakeCredential data = .ok request →
      Excludes build a request →
      SameExclusions a b (hashRpId request.rp.id a.crypto) request.excludeList
  | .enumerateRpsInitial => b.storage.enumerateRps = a.storage.enumerateRps
  | _ => True

omit [LawfulBackend β] in
/-- Whether an hmac-secret session is open does not matter to them. -/
theorem Discreet.endSession {a b : Auth β} {cmd : UInt8} {data : Bytes}
    (h : Discreet build a b cmd data) :
    Discreet build { a with hmacSecretSession := none } { b with hmacSecretSession := none } cmd
      data := by
  unfold Discreet at h ⊢
  generalize Ctap2Command.fromU8 cmd = command at *
  cases command with
  | makeCredential =>
      intro request hrequest hexcludes
      have hsame := h request hrequest ⟨hexcludes.protocol, hexcludes.pin, hexcludes.alwaysUv,
        hexcludes.present, hexcludes.algorithm⟩
      have hended : ∀ c : Auth β, ({ c with hmacSecretSession := none } : Auth β).core = c.core :=
        fun _ => rfl
      exact hsame.congr (hended a) (hended b)
  | enumerateRpsInitial => exact h
  | _ => trivial

theorem Alike.dispatch {a b : Auth β} {cmd : UInt8} {data : Bytes} (h : Alike a b)
    (hnone : CarriesNoAuth build cmd data) (hroom : a.HasRoom cmd) (hroom' : b.HasRoom cmd)
    (hdiscreet : Discreet build a b cmd data) :
    CoupledAt Alike (dispatch build (.fromU8 cmd) data) a b := by
  unfold CarriesNoAuth at hnone
  unfold HasRoom at hroom hroom'
  unfold Discreet at hdiscreet
  generalize Ctap2Command.fromU8 cmd = command at *
  cases command with
  | makeCredential =>
      refine CoupledAt.map (.check_bind rfl h fun request hrequest => ?_)
      exact h.makeCredential build (hnone request hrequest) (hroom rfl) (hroom' rfl)
        (hdiscreet request hrequest)
  | getAssertion =>
      refine CoupledAt.map (.check_bind rfl h fun request hrequest => ?_)
      exact alike_getAssertion build (hnone request hrequest) a b h
  | getInfo => exact (tandem_getInfo build).map a b h
  | selection => exact ⟨rfl, h⟩
  | getVersion => exact ⟨rfl, h⟩
  | clientPin => exact (tandem_handleClientPin build data).map a b h
  | reset => exact alike_handleReset.map a b h
  | getNextAssertion => exact (alike_handleGetNextAssertion build).map a b h
  | bioEnroll =>
      exact ((tandem_check fun _ _ _ => rfl).bind fun _ => (tandem_ensure fun _ _ _ => rfl).bind
        fun _ => .pure _ : Coupled Alike _).map a b h
  | credentialManagement => exact alike_handleCredentialManagement build hnone a b h
  | largeBlobs => exact (alike_handleLargeBlobs build data).map a b h
  | authenticatorConfig => exact (alike_handleAuthnrConfig build hnone).map a b h
  | enumerateRpsInitial => exact (h.handleEnumerateRpsInitial hdiscreet).map
  | enumerateRpsNext => exact tandem_handleEnumerateRpsNext.map a b h
  | unknown code => exact ⟨rfl, h⟩

/-- One command on both sides. -/
theorem Alike.processCommand {a b : Auth β} {cmd : UInt8} {data : Bytes} (h : Alike a b)
    (hnone : CarriesNoAuth build cmd data) (hroom : a.HasRoom cmd) (hroom' : b.HasRoom cmd)
    (hdiscreet : Discreet build a b cmd data) :
    CoupledAt Alike (processCommand build cmd data) a b := by
  by_cases hcmd : Ctap2Command.fromU8 cmd = .getNextAssertion
  · have hrun : ∀ c : Auth β, (Auth.processCommand build cmd data).run c =
        (Auth.dispatch build (.fromU8 cmd) data).run c := by
      intro c
      unfold Auth.processCommand
      simp only [hcmd, ne_eq, not_true, decide_false]
      rfl
    unfold CoupledAt
    rw [hrun, hrun]
    exact h.dispatch build hnone hroom hroom' hdiscreet
  · have hended : Alike { a with hmacSecretSession := none } { b with hmacSecretSession := none } :=
      (tandem_endHmacSession a b h).2
    unfold CoupledAt
    rw [run_processCommand_of_ne build data a hcmd, run_processCommand_of_ne build data b hcmd]
    exact hended.dispatch build hnone hroom hroom' (hdiscreet.endSession build)

/-- The answers to a sequence of commands. -/
def responses (a : Auth β) (commands : List (UInt8 × Bytes)) :
    List (Except Ctap2Error CtapResponse) :=
  (a.trace build (commands.map fun c => .command c.1 c.2)).map (·.result)

/-- A condition on the two states at every command of a run. -/
def AlongBoth (P : Auth β → Auth β → UInt8 → Bytes → Prop) :
    Auth β → Auth β → List (UInt8 × Bytes) → Prop
  | _, _, [] => True
  | a, b, (cmd, data) :: commands =>
      P a b cmd data ∧ AlongBoth P (a.step build (.command cmd data))
        (b.step build (.command cmd data)) commands

/-- Hidden credentials change no answer to requests without authentication, as long as the lookups
that are not filtered agree. -/
theorem responses_independent_of_hidden {commands : List (UInt8 × Bytes)} {a b : Auth β}
    (h : Alike a b) (hnone : ∀ c ∈ commands, CarriesNoAuth build c.1 c.2)
    (hroom : AlongBoth build (fun a b cmd _ => a.HasRoom cmd ∧ b.HasRoom cmd) a b commands)
    (hdiscreet : AlongBoth build (Discreet build) a b commands) :
    responses build a commands = responses build b commands := by
  induction commands generalizing a b with
  | nil => rfl
  | cons c commands ih =>
      obtain ⟨cmd, data⟩ := c
      obtain ⟨hroom₁, hroom⟩ := hroom
      obtain ⟨hdiscreet₁, hdiscreet⟩ := hdiscreet
      obtain ⟨hresult, hnext⟩ := h.processCommand build (hnone _ List.mem_cons_self) hroom₁.1
        hroom₁.2 hdiscreet₁
      have hrest := ih hnext (fun c hc => hnone c (List.mem_cons_of_mem _ hc)) hroom hdiscreet
      exact congrArg₂ List.cons hresult hrest

/-- A credential of level 3, as MakeCredential stores it. -/
def hiddenRecord : StoredCredential where
  credential :=
    { credentialId := firstId
      publicKey := word32 0x6e7a1cdd29b0b78fd13af4c5598feff4ef2a97166e3ca6f2e4fbfccd80505bf1
      privateKey := []
      signCount := 0
      rpIdHash := sampleCrypto.sha256 (utf8 "example.com")
      userHandle := some [1]
      credBlob := []
      createdAt := 0
      algorithm := -8
      rpId := "example.com"
      largeBlobKey := none
      userName := none
      userDisplayName := none
      credProtect := some 3
      credRandomWithUv := none
      credRandomWithoutUv := none }
  encryptedPrivateKey := Bytes.beBytes 48
    0x19ec6261fbf552003b8e7b5cfa3c4587fabb1d68770ca21230dd71e1037f03a92562efa6134bcedbdaaecd7738214909
  nonce := drawn 12 8

/-- The device with a hidden credential. -/
def hiddenDevice : Auth KvMap :=
  { memoryDevice with storage :=
      { memoryDevice.storage with credentials :=
          (∅ : ExtTreeMap Bytes StoredCredential).insert firstId hiddenRecord } }

theorem hidden_hiddenRecord : Hidden sampleCrypto hiddenRecord := by
  refine ⟨rfl, { hiddenRecord.credential with privateKey := drawn 32 5 }, ?_⟩
  decide +kernel

theorem alike_hiddenDevice : Alike memoryDevice hiddenDevice where
  same := rfl
  store :=
    { values := fun _ _ => rfl
      largeBlobs := rfl
      limit := rfl
      records := by
        intro id
        right
        rintro s (hs | hs)
        · simp [memoryDevice, sampleDevice, new, StorageEngine.new, StorageEngine.empty] at hs
        · have hget : hiddenDevice.storage.credentials[id]? =
              if compare firstId id = .eq then some hiddenRecord else none := by
            simp [hiddenDevice, ExtTreeMap.getElem?_insert]
          rw [hget] at hs
          split at hs
          · cases hs
            exact hidden_hiddenRecord
          · cases hs
      keyed := blank_memoryDevice.storage.keyed
      keyed' := (blank_memoryDevice.storage.keyed).insert hiddenRecord
      guarded := by decide }
  unverified := by
    intro state hstate
    cases hstate

theorem responses_independent_of_hidden_sample :
    responses sampleBuild memoryDevice [(0x02, getAssertionData []), (0x04, [])] =
      responses sampleBuild hiddenDevice [(0x02, getAssertionData []), (0x04, [])] := by
  refine responses_independent_of_hidden sampleBuild alike_hiddenDevice ?_ ?_ ?_
  · intro c hc
    obtain rfl | hc := List.mem_cons.mp hc
    · intro request hrequest
      have hparam : (sampleBuild.cbor.decodeGetAssertion (getAssertionData [])).map
          (·.pinUvAuthParam) = .ok none := by decide +kernel
      rw [hrequest] at hparam
      exact Except.ok.inj hparam
    · obtain rfl := List.mem_singleton.mp hc
      trivial
  · exact ⟨⟨fun h => absurd h (by decide), fun h => absurd h (by decide)⟩,
      ⟨fun h => absurd h (by decide), fun h => absurd h (by decide)⟩, trivial⟩
  · exact ⟨trivial, trivial, trivial⟩

/-- EnumerateRPs lists the relying party of a hidden credential. -/
theorem hidden_rp_enumerated :
    Alike memoryDevice hiddenDevice ∧ memoryDevice.pinUvAuthToken = none ∧
      hiddenDevice.pinUvAuthToken = none ∧ memoryDevice.storage.isFull = false ∧
      hiddenDevice.storage.isFull = false ∧ CarriesNoAuth sampleBuild 0x3B [] ∧
      responses sampleBuild memoryDevice [(0x3B, [])] ≠
        responses sampleBuild hiddenDevice [(0x3B, [])] := by
  refine ⟨alike_hiddenDevice, rfl, rfl, by decide, by decide, trivial, fun heq => ?_⟩
  have hok := congrArg (List.map Except.isOk) heq
  revert hok
  decide +kernel

end Auth

end OpenKey
