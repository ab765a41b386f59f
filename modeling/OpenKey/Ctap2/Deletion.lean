import OpenKey.Ctap2.Listing
import OpenKey.Storage.Reload

/-!
# Deleting and updating credentials

**Theorem (`managed_exactly_iff`).** An authenticated updateUserInformation succeeds exactly if the
credential is stored, and changes its record and nothing else. An authenticated deleteCredential
does the same and is final (`Forgotten`) exactly if the credential is stored and no enumeration in
progress is still to deliver it.

Where the credential is not stored deleteCredential succeeds all the same. Where an enumeration is
in progress, its snapshot still holds what was deleted.

That a deletion is final is an invariant of runs, `Absent`: the credential is neither in memory, nor
on the medium, nor in the rest of the snapshot. Only MakeCredential can bring it back.
-/

namespace OpenKey

open Std
open Prog (Keeps bind_eq_ok check_eq_ok ensure_eq_ok)

set_option autoImplicit false

namespace StorageEngine

variable {β : Type} [StorageBackend β] [LawfulBackend β]

/-! ## No trace of a credential -/

/-- A credential that memory does not hold has left nothing on the medium. -/
structure Untraced (id : Bytes) (e : StorageEngine β) : Prop where
  keyed : e.Keyed
  medium : id ∉ e.credentials → e.persisted (credKey id) = none

variable {id : Bytes} {codec : Codec StoredCredential}

theorem Untraced.deleted {e e' : StorageEngine β} (he : e.Untraced id) {key : String}
    (hcreds : e'.credentials = e.credentials)
    (hpers : e'.persisted (credKey id) = if credKey id = key then none
      else e.persisted (credKey id)) : e'.Untraced id := by
  refine ⟨fun id' s' hs' => he.keyed id' s' (hcreds ▸ hs'), fun hid => ?_⟩
  rw [hpers]
  split
  · rfl
  · exact he.medium (hcreds ▸ hid)

/-- A write under another key leaves no trace. -/
theorem Untraced.written {e e' : StorageEngine β} (he : e.Untraced id) {key : String}
    {v : Option Bytes} (hcreds : e'.credentials = e.credentials) (hne : credKey id ≠ key)
    (hpers : e'.persisted (credKey id) = if credKey id = key then v
      else e.persisted (credKey id)) : e'.Untraced id := by
  have hdeleted : e'.persisted (credKey id) = if credKey id = key then none
      else e.persisted (credKey id) := by
    rw [hpers, if_neg hne, if_neg hne]
  exact he.deleted hcreds hdeleted

/-- A record written under its id, in memory and on the medium, leaves no trace of another. -/
theorem Untraced.inserted {e e' : StorageEngine β} (he : e.Untraced id) {s : StoredCredential}
    {v : Bytes} (hcreds : e'.credentials = e.credentials.insert s.credential.credentialId s)
    (hpers : ∀ key, e'.persisted key =
      (StorageEngine.written (credKey s.credential.credentialId) v e).persisted key) :
    e'.Untraced id := by
  constructor
  · intro id' s' hs'
    rw [hcreds] at hs'
    exact he.keyed.insert s id' s' hs'
  · intro hid
    have hne : id ≠ s.credential.credentialId := by
      rintro rfl
      exact hid (by simp [hcreds])
    rw [hpers, persisted_written, if_neg fun hkey => hne (credKey_inj.mp hkey)]
    refine he.medium fun hmem => hid ?_
    rw [hcreds]
    exact ExtTreeMap.mem_insert.mpr (.inr hmem)

theorem stable_untraced : Stable codec (Untraced id : StorageEngine β → Prop) where
  store hkey v he := he.written rfl (hkey.2 id).symm (persisted_afterStore _ _ v _)
  delete hkey he := he.deleted rfl (persisted_afterDelete _ _ _)
  erase := by
    intro e id' he
    refine ⟨he.keyed.erase id', fun hid => ?_⟩
    rw [afterDeleteCredential, persisted_deleted]
    by_cases heq : id = id'
    · rw [if_pos (credKey_inj.mpr heq)]
    · rw [if_neg fun hkey => heq (credKey_inj.mp hkey)]
      refine he.medium fun hmem => hid ?_
      exact ExtTreeMap.mem_erase.mpr ⟨fun h => heq (LawfulEqCmp.eq_of_compare h).symm, hmem⟩
  rewrite := by
    intro e id' s s' hs hid he
    obtain rfl : s'.credential.credentialId = id' := hid.trans (he.keyed id' s hs)
    exact he.inserted rfl fun _ => rfl
  blobs v he := he.written rfl (credKey_ne_largeBlobs id) (persisted_written _ _ v _)
  clearBlobs he := he.deleted rfl (persisted_deleted _ _ _)
  insert s he := he.inserted rfl fun _ => rfl

omit [LawfulBackend β] in
theorem stable_keyed : Stable codec (Keyed : StorageEngine β → Prop) where
  store _ _ he := he
  delete _ he := he
  erase id he := he.erase id
  rewrite hs hid he := by
    obtain rfl := hid.trans (he _ _ hs)
    exact he.insert _
  blobs _ he := he
  clearBlobs he := he
  insert s he := he.insert s

theorem keyed_clear :
    Keeps (.invariant Keyed) (clear : Prog (StorageEngine β) EngineError Unit) := by
  intro e he
  obtain ⟨e', hrun, -, -, hcreds, -⟩ := run_clear e
  rw [hrun]
  intro id s hs
  rw [hcreds] at hs
  simp at hs

omit [LawfulBackend β] in
/-- Only the addition of its record brings a credential into memory. -/
theorem steady_absent : Steady codec fun e : StorageEngine β => id ∉ e.credentials where
  store _ _ he := he
  delete _ he := he
  erase id' he hmem := he (ExtTreeMap.mem_of_mem_erase hmem)
  rewrite := by
    intro e id' s s' hs _ he hmem
    rcases ExtTreeMap.mem_insert.mp hmem with heq | hmem
    · obtain rfl := LawfulEqCmp.eq_of_compare heq
      exact he (ExtTreeMap.mem_iff_isSome_getElem?.mpr (by rw [hs]; rfl))
    · exact he hmem
  blobs _ he := he
  clearBlobs he := he

theorem untraced_clear :
    Keeps (.invariant (Untraced id)) (clear : Prog (StorageEngine β) EngineError Unit) := by
  intro e he
  obtain ⟨e', hrun, hvalue, -, hcreds, -⟩ := run_clear e
  rw [hrun]
  refine ⟨fun id s hs => ?_, fun _ => ?_⟩
  · rw [hcreds] at hs
    simp at hs
  · have hnone := hvalue (credKey id)
    rw [value_eq, Option.or_eq_none_iff] at hnone
    exact hnone.1

/-- What is opened from a medium where each credential lies under its own key. -/
theorem untraced_withBackend {b : β} (hfiled : Filed codec (contents b))
    (hnone : (contents b)[credKey id]? = none) :
    id ∉ (withBackend codec b).credentials ∧ (withBackend codec b).Untraced id := by
  refine ⟨fun hmem => ?_, keyed_withBackend codec b, fun _ => ?_⟩
  · rw [ExtTreeMap.mem_iff_isSome_getElem?, (withBackend_loads hfiled).1, hnone] at hmem
    cases hmem
  · rw [persisted, (withBackend_eq codec b).1]
    exact hnone

end StorageEngine

namespace Auth

variable {β : Type} [StorageBackend β]

/-! ## Requests and what they are for -/

/-- An authenticated request of CredentialManagement. -/
structure Authentic (build : Build) (a : Auth β) (data : Bytes)
    (request : CredentialManagementRequest) : Prop where
  decoded : build.cbor.decodeCredentialManagement data = .ok request
  verified : ∃ message, credentialManagementAuthMessage build.cbor data = .ok message ∧
    verifyPinUvAuthForOperation a request.pinUvAuthProtocol request.pinUvAuthParam message
      permissionCm none = .ok true

/-- A request of deleteCredential. -/
def Deletes (request : CredentialManagementRequest) (id : Bytes) : Prop :=
  request.subCommand = 0x06 ∧ ∃ params descriptor, request.subCommandParams = some params ∧
    params.credentialId = some descriptor ∧ descriptor.id = id

/-- A request of updateUserInformation. -/
def Updates (request : CredentialManagementRequest) (id : Bytes) (user : User) : Prop :=
  request.subCommand = 0x07 ∧ ∃ params descriptor, request.subCommandParams = some params ∧
    params.credentialId = some descriptor ∧ descriptor.id = id ∧ params.user = some user

/-- Nothing changes but one record, and that the hmac-secret session ends as with every command. -/
structure ChangesOnly (id : Bytes) (a b : Auth β) : Prop where
  records : ∀ id', id' ≠ id → b.storage.credentials[id']? = a.storage.credentials[id']?
  entries : ∀ key, SystemKey key → b.storage.value key = a.storage.value key
  largeBlobs : b.storage.largeBlobs = a.storage.largeBlobs
  limit : b.storage.maxCredentialCount = a.storage.maxCredentialCount
  rest : b = { a with hmacSecretSession := none, storage := b.storage, log := b.log }

/-- What deleteCredential is for. -/
structure DeletesExactly (id : Bytes) (x : Exchange β) : Prop where
  succeeds : x.result.isOk = true ↔ id ∈ x.before.storage.credentials
  gone : id ∉ x.after.storage.credentials
  only : ChangesOnly id x.before x.after

/-- What updateUserInformation is for. -/
structure UpdatesExactly (id : Bytes) (user : User) (x : Exchange β) : Prop where
  succeeds : x.result.isOk = true ↔ id ∈ x.before.storage.credentials
  updated : x.after.storage.credentials[id]? = x.before.storage.credentials[id]?.map
    (StorageEngine.renamed user.name user.displayName)
  only : ChangesOnly id x.before x.after

/-- An answer returns a credential. -/
def Returns (id : Bytes) (x : Exchange β) : Prop :=
  (∃ r, x.assertion = some r ∧ r.credential.map (·.id) = some id) ∨
    x.command = .credentialManagement ∧
      ∃ r, x.result = .ok (.enumerateCredentialsEntry r) ∧ r.credentialId.id = id

/-- A call of MakeCredential after which a credential is stored. -/
def Recreates (build : Build) (id : Bytes) (a : Auth β) (call : Call) : Prop :=
  ∃ cmd data, call = .input (.command cmd data) ∧ Ctap2Command.fromU8 cmd = .makeCredential ∧
    id ∈ (a.call build call).storage.credentials

/-- The states that calls lead to while a credential is not created anew. What a power cycle opens
again holds every credential under its own key. -/
inductive Continues [LawfulBackend β] (build : Build) (id : Bytes) (a : Auth β) : Auth β → Prop
  | here : Continues build id a a
  | call {b : Auth β} (call : Call) (before : Continues build id a b)
      (hnew : ¬Recreates build id b call)
      (hfiled : call = .input .powerCycle → ∀ medium, b.storage.backend = some medium →
        StorageEngine.Filed build.codec (contents medium)) :
      Continues build id a (b.call build call)

/-- A credential is not heard of any more. -/
structure Forgotten [LawfulBackend β] (build : Build) (id : Bytes) (a : Auth β) : Prop where
  /-- The enumeration in progress does not deliver it. -/
  sequence : ∀ entries, Delivers handleCredMgmtEnumerateCredsNext (fun a : Auth β =>
    a.credMgmtCredsState) CtapResponse.enumerateCredentialsEntry entries a.credMgmtCredsState →
      ∀ entry ∈ entries, entry.credentialId.id ≠ id
  /-- Until it is created anew it is not stored, and no answer returns it. -/
  never : ∀ b, Continues build id a b →
    id ∉ b.storage.credentials ∧ ∀ cmd data, ¬Returns id (b.exchange build cmd data)

/-- The enumeration in progress is still to deliver a credential. -/
def Pending (id : Bytes) (a : Auth β) : Prop :=
  ∃ state, a.credMgmtCredsState = some state ∧
    ∃ credential ∈ state.items.drop (state.currentIndex + 1), credential.credentialId = id

/-! ## The two commands -/

section Commands

variable {build : Build} {a : Auth β} {cmd : UInt8} {data : Bytes}
  {request : CredentialManagementRequest}

/-- An authenticated request reaches its subcommand. -/
theorem run_authentic (h : Authentic build a data request)
    (hcmd : Ctap2Command.fromU8 cmd = .credentialManagement) :
    (processCommand build cmd data).run a =
      (credMgmtSubCommand build request).run { a with hmacSecretSession := none } := by
  obtain ⟨message, hmessage, hverified⟩ := h.verified
  rw [run_processCommand_of_ne build data a (by rw [hcmd]; decide), hcmd]
  generalize hb : ({ a with hmacSecretSession := none } : Auth β) = b
  have hverdict : verifyPinUvAuthForOperation b request.pinUvAuthProtocol request.pinUvAuthParam
      message permissionCm none = .ok true := by
    rw [← hb]
    exact hverified
  have hdecoded : (Prog.check fun _ : Auth β =>
      (build.cbor.decodeCredentialManagement data).mapError fun _ =>
        Ctap2Error.invalidParameter).run b = (.ok request, b) := by
    rw [Prog.run_check, h.decoded]
    rfl
  show (handleCredentialManagement build data).run b = _
  rw [handleCredentialManagement, Prog.run_bind_of_ok hdecoded,
    Prog.run_bind_of_ok (show _ = (Except.ok message, b) from Prod.ext hmessage rfl),
    Prog.run_bind_of_ok (show _ = (Except.ok true, b) from Prod.ext hverdict rfl)]
  rfl

variable [LawfulBackend β]

/-- The state after a call on the storage by a command. -/
def afterStorage (a : Auth β) (e : StorageEngine β) : Auth β :=
  { a with hmacSecretSession := none, storage := e, log := .stored e .ordinary :: a.log }

theorem changesOnly_afterStorage {e : StorageEngine β} {id : Bytes}
    (hrecords : ∀ id' : Bytes, id' ≠ id → e.credentials[id']? = a.storage.credentials[id']?)
    (hsettled : StorageEngine.Settled.rel a.storage e)
    (hblobs : e.largeBlobs = a.storage.largeBlobs)
    (hlimit : e.maxCredentialCount = a.storage.maxCredentialCount) :
    ChangesOnly id a (a.afterStorage e) where
  records := hrecords
  entries := hsettled.1
  largeBlobs := hblobs
  limit := hlimit
  rest := rfl

/-- deleteCredential always succeeds. -/
theorem run_deletes {id : Bytes} (h : Authentic build a data request)
    (hcmd : Ctap2Command.fromU8 cmd = .credentialManagement) (hid : Deletes request id) :
    (processCommand build cmd data).run a = (.ok .empty,
      a.afterStorage ((StorageEngine.deleteCredential id).run a.storage).2) := by
  obtain ⟨hsub, params, descriptor, hparams, hdescriptor, rfl⟩ := hid
  have hdeleted : (StorageEngine.deleteCredential descriptor.id).run a.storage =
      (.ok (decide (descriptor.id ∈ a.storage.credentials)),
        ((StorageEngine.deleteCredential descriptor.id).run a.storage).2) := by
    refine Prod.ext ?_ rfl
    rw [StorageEngine.run_deleteCredential]
    by_cases hmem : descriptor.id ∈ a.storage.credentials <;> simp [hmem]
  rw [run_authentic h hcmd, credMgmtSubCommand, hsub]
  simp only [hparams, demanded]
  rw [Prog.run_bind_of_ok (rfl : _ = (Except.ok params, _))]
  simp only [hdescriptor]
  rw [Prog.run_bind_of_ok (rfl : _ = (Except.ok descriptor, _)), handleCredMgmtDeleteCredential]
  exact Prog.run_bind_of_ok (run_onStorage_ok hdeleted)

theorem deletesExactly_iff {id : Bytes} (h : Authentic build a data request)
    (hcmd : Ctap2Command.fromU8 cmd = .credentialManagement) (hid : Deletes request id) :
    DeletesExactly id (a.exchange build cmd data) ↔ id ∈ a.storage.credentials := by
  have hrun := run_deletes h hcmd hid
  have hresult : (a.exchange build cmd data).result = .ok .empty := congrArg Prod.fst hrun
  have hafter : (a.exchange build cmd data).after = _ := congrArg Prod.snd hrun
  constructor
  · intro hexact
    refine hexact.succeeds.mp ?_
    rw [hresult]
    rfl
  · intro hmem
    rw [StorageEngine.run_deleteCredential, if_pos hmem] at hafter
    refine ⟨iff_of_true (by rw [hresult]; rfl) hmem, ?_, ?_⟩
    · rw [hafter]
      show id ∉ a.storage.credentials.erase id
      simp
    · rw [hafter]
      refine changesOnly_afterStorage (fun id' hne => ?_) ?_ rfl rfl
      · show (a.storage.credentials.erase id)[id']? = a.storage.credentials[id']?
        rw [getElem?_erase_ite, if_neg hne]
      · have hsettled := StorageEngine.settled_deleteCredential (β := β) id a.storage
        rwa [StorageEngine.run_deleteCredential, if_pos hmem] at hsettled

/-- updateUserInformation succeeds if the credential is stored, and rewrites its record. -/
theorem updatesExactly {id : Bytes} {user : User} (h : Authentic build a data request)
    (hcmd : Ctap2Command.fromU8 cmd = .credentialManagement) (hid : Updates request id user) :
    UpdatesExactly id user (a.exchange build cmd data) := by
  obtain ⟨hsub, params, descriptor, hparams, hdescriptor, rfl, huser⟩ := hid
  have hrun : (processCommand build cmd data).run a =
      (handleCredMgmtUpdateUser build descriptor.id user).run
        { a with hmacSecretSession := none } := by
    rw [run_authentic h hcmd, credMgmtSubCommand, hsub]
    simp only [hparams, demanded]
    rw [Prog.run_bind_of_ok (rfl : _ = (Except.ok params, _))]
    simp only [hdescriptor]
    rw [Prog.run_bind_of_ok (rfl : _ = (Except.ok descriptor, _))]
    simp only [huser]
    rw [Prog.run_bind_of_ok (rfl : _ = (Except.ok user, _))]
  have hupdate := StorageEngine.run_updateUserInfo build.codec descriptor.id user.name
    user.displayName a.storage
  have hsettled := StorageEngine.settled_updateUserInfo (β := β) build.codec descriptor.id user.name
    user.displayName a.storage
  cases hs : a.storage.credentials[descriptor.id]? with
  | none =>
      rw [hs, Option.elim_none] at hupdate
      have hfail : (processCommand build cmd data).run a =
          (.error .noCredentials, a.afterStorage a.storage) := by
        rw [hrun, handleCredMgmtUpdateUser]
        exact (Prog.run_bind_of_ok (run_onStorage_ok (a := { a with hmacSecretSession := none })
          hupdate)).trans (Prog.run_ensure_bind_error rfl)
      have hafter : (a.exchange build cmd data).after = _ := congrArg Prod.snd hfail
      refine ⟨iff_of_false ?_ ?_, ?_, ?_⟩
      · rw [show (a.exchange build cmd data).result = .error .noCredentials from
          congrArg Prod.fst hfail]
        exact Bool.false_ne_true
      · intro hmem
        rw [ExtTreeMap.mem_iff_isSome_getElem?] at hmem
        exact absurd hmem (by simp [exchange, hs])
      · rw [hafter]
        show a.storage.credentials[descriptor.id]? = a.storage.credentials[descriptor.id]?.map _
        rw [hs]
        rfl
      · rw [hafter]
        exact changesOnly_afterStorage (fun _ _ => rfl) (StorageEngine.Settled.refl _) rfl rfl
  | some record =>
      rw [hs, Option.elim_some] at hupdate
      rw [hupdate] at hsettled
      have hok : (processCommand build cmd data).run a = (.ok .empty,
          a.afterStorage (StorageEngine.afterRewrite build.codec descriptor.id
            (StorageEngine.renamed user.name user.displayName record) a.storage)) := by
        rw [hrun, handleCredMgmtUpdateUser]
        exact (Prog.run_bind_of_ok (run_onStorage_ok (a := { a with hmacSecretSession := none })
          hupdate)).trans (Prog.run_ensure_bind rfl)
      have hafter : (a.exchange build cmd data).after = _ := congrArg Prod.snd hok
      refine ⟨iff_of_true ?_ ?_, ?_, ?_⟩
      · rw [show (a.exchange build cmd data).result = .ok .empty from congrArg Prod.fst hok]
        rfl
      · refine ExtTreeMap.mem_iff_isSome_getElem?.mpr ?_
        show (a.storage.credentials[descriptor.id]?).isSome = true
        rw [hs]
        rfl
      · rw [hafter]
        show (a.storage.credentials.insert descriptor.id _)[descriptor.id]? =
          a.storage.credentials[descriptor.id]?.map _
        rw [getElem?_insert_ite, if_pos rfl, hs]
        rfl
      · rw [hafter]
        refine changesOnly_afterStorage (fun id' hne => ?_) hsettled rfl rfl
        show (a.storage.credentials.insert descriptor.id _)[id']? = a.storage.credentials[id']?
        rw [getElem?_insert_ite, if_neg hne]

end Commands

/-! ## Storage calls -/

section Calls

variable [LawfulBackend β] {build : Build} {P : StorageEngine β → Prop}

theorem commonCalls_of_steady (h : StorageEngine.Steady build.codec P) :
    CommonCalls build (.invariant P) where
  store _ hkey v _ := h.keeps_store (systemKey_of_setting hkey) v
  delete _ hkey := h.keeps_delete (systemKey_of_setting hkey)
  updateSignCount := h.keeps_updateSignCount
  updateUserInfo := h.keeps_updateUserInfo
  deleteCredential := h.keeps_deleteCredential
  writeLargeBlobs := h.keeps_writeLargeBlobs

theorem storageCalls_of_stable (h : StorageEngine.Stable build.codec P) :
    StorageCalls build (.invariant P) where
  toCommonCalls := commonCalls_of_steady h.toSteady
  makeRoom := h.keeps_makeRoom
  insertCredential := h.keeps_insertCredential

end Calls

/-! ## The snapshot -/

/-- The moves that do not make an enumeration deliver a credential. -/
def Unlisted (id : Bytes) : Prog.Frame (Auth β) := .invariant fun a => ¬Pending id a

omit [StorageBackend β] in
theorem unlisted_of_creds {id : Bytes} {a b : Auth β}
    (h : b.credMgmtCredsState = a.credMgmtCredsState) : (Unlisted id).rel a b := by
  rintro hseq ⟨state, hstate, hmem⟩
  exact hseq ⟨state, h ▸ hstate, hmem⟩

instance {id : Bytes} : Asserting (Unlisted id : Prog.Frame (Auth β)) .any where
  storing _ _ _ _ h := unlisted_of_creds h
  asserting _ _ h := unlisted_of_creds h

omit [StorageBackend β] in
/-- What is read of a record is stored under its id. -/
theorem mem_of_unlock {e : StorageEngine β} (hk : e.Keyed) {crypto : CryptoEngine} {id : Bytes}
    {s : StoredCredential} {c : Credential} (hs : e.credentials[id]? = some s)
    (hopen : StorageEngine.unlock crypto s = .ok c) : c.credentialId ∈ e.credentials := by
  obtain ⟨key, rfl⟩ := StorageEngine.unlock_ok hopen
  refine ExtTreeMap.mem_iff_isSome_getElem?.mpr ?_
  rw [show s.credential.credentialId = id from hk id s hs, hs]
  rfl

omit [StorageBackend β] in
theorem mem_of_found {e : StorageEngine β} (hk : e.Keyed) {rpHash : Bytes} {crypto : CryptoEngine}
    {c : Credential} (hc : c ∈ e.findCredentialsByRpHash rpHash crypto) :
    c.credentialId ∈ e.credentials := by
  obtain ⟨s, hs, -, hopen⟩ := StorageEngine.mem_findCredentialsByRpHash.mp hc
  obtain ⟨id, hid⟩ := StorageEngine.mem_records_iff.mp hs
  exact mem_of_unlock hk hid hopen

section Sequence

variable {id : Bytes} {a b : Auth β} {response : CtapResponse}

/-- An answer of an enumeration shows another credential. -/
def ShowsOther (id : Bytes) (response : CtapResponse) : Prop :=
  ∀ r, response = .enumerateCredentialsEntry r → r.credentialId.id ≠ id

omit [StorageBackend β] in
theorem credsBegin_unlisted (hk : a.storage.Keyed) (hid : id ∉ a.storage.credentials)
    (rpHash : Bytes) :
    (Unlisted id).rel a ((handleCredMgmtEnumerateCredsBegin rpHash).run a).2 ∧
      ∀ response, ((handleCredMgmtEnumerateCredsBegin rpHash).run a).1 = .ok response →
        ShowsOther id response := by
  have hother : ∀ c ∈ a.storage.findCredentialsByRpHash rpHash a.crypto, c.credentialId ≠ id := by
    rintro c hc rfl
    exact hid (mem_of_found hk hc)
  rw [handleCredMgmtEnumerateCredsBegin, Prog.run_read_bind]
  cases hcreds : a.storage.findCredentialsByRpHash rpHash a.crypto with
  | nil => exact ⟨(Unlisted id).refl a, fun _ h => nomatch h⟩
  | cons first rest =>
      rw [hcreds] at hother
      refine ⟨?_, ?_⟩
      · rintro - ⟨state, hstate, c, hc, hcid⟩
        obtain rfl := Option.some.inj hstate
        exact hother c (List.mem_of_mem_drop hc) hcid
      · rintro response h r rfl
        cases h
        exact hother first List.mem_cons_self

omit [StorageBackend β] in
theorem credsNext_unlisted (hseq : ¬Pending id a) :
    ¬Pending id (handleCredMgmtEnumerateCredsNext.run a).2 ∧
      ∀ response, (handleCredMgmtEnumerateCredsNext.run a).1 = .ok response →
        ShowsOther id response := by
  rw [handleCredMgmtEnumerateCredsNext, nextInEnumeration]
  cases hstate : a.credMgmtCredsState with
  | none =>
      have hcheck : (Prog.check fun a : Auth β => a.credMgmtCredsState.elim
          (.error Ctap2Error.invalidState) .ok).run a = (.error .invalidState, a) :=
        Prod.ext (by rw [Prog.run_check, hstate]; rfl) rfl
      rw [Prog.bind_bind, Prog.run_bind_of_error hcheck]
      exact ⟨hseq, fun _ h => by cases h⟩
  | some state =>
      have hcheck : (Prog.check fun a : Auth β => a.credMgmtCredsState.elim
          (.error Ctap2Error.invalidState) .ok).run a = (.ok state, a) :=
        Prod.ext (by rw [Prog.run_check, hstate]; rfl) rfl
      rw [Prog.bind_bind, Prog.run_bind_of_ok hcheck]
      cases hitem : state.items[state.currentIndex + 1]? with
      | none =>
          refine ⟨?_, fun _ h => by cases h⟩
          rintro ⟨state', hnone, -⟩
          cases hnone
      | some c =>
          obtain ⟨hlt, rfl⟩ := List.getElem?_eq_some_iff.mp hitem
          have hdrop := List.drop_eq_getElem_cons hlt
          refine ⟨?_, ?_⟩
          · rintro ⟨state', hstate', c, hc, hcid⟩
            obtain rfl := Option.some.inj hstate'
            refine hseq ⟨state, hstate, c, ?_, hcid⟩
            rw [hdrop]
            exact List.mem_cons_of_mem _ hc
          · rintro response h r rfl
            cases h
            intro hcid
            refine hseq ⟨state, hstate, _, ?_, hcid⟩
            rw [hdrop]
            exact List.mem_cons_self

end Sequence

/-! ## States without the credential -/

/-- The credential is neither in memory, nor on the medium, nor in the rest of the snapshot. -/
structure Absent [LawfulBackend β] (id : Bytes) (a : Auth β) : Prop where
  untraced : a.storage.Untraced id
  missing : id ∉ a.storage.credentials
  unlisted : ¬Pending id a

/-- No answer of a program shows the credential. -/
def Silent (id : Bytes) (m : Ctap β CtapResponse) : Prop :=
  ∀ a response, (m.run a).1 = .ok response → ShowsOther id response

section Silent

variable {id : Bytes} {α : Type}

omit [StorageBackend β] in
theorem Silent.pure {response : CtapResponse} (h : ShowsOther id response) :
    Silent id (pure response : Ctap β CtapResponse) := by
  rintro a response' ⟨⟩
  exact h

omit [StorageBackend β] in
theorem Silent.bind {m : Ctap β α} {f : α → Ctap β CtapResponse} (h : ∀ x, Silent id (f x)) :
    Silent id (m >>= f) := by
  intro a response hok
  obtain ⟨x, b, -, hrun⟩ := bind_eq_ok.mp (show (m >>= f).run a = (.ok response, _) from
    Prod.ext hok rfl)
  exact h x b response (congrArg Prod.fst hrun)

variable (id) in
/-- A run keeps the credential absent, and its answer shows another one. -/
def Conceals (m : Ctap β CtapResponse) (a : Auth β) : Prop :=
  (Unlisted id).rel a (m.run a).2 ∧
    ∀ response, (m.run a).1 = .ok response → ShowsOther id response

omit [StorageBackend β] in
theorem Conceals.of_keeps {m : Ctap β CtapResponse} {a : Auth β} (hkeeps : Keeps (Unlisted id) m)
    (hsilent : Silent id m) : Conceals id m a := ⟨hkeeps a, hsilent a⟩

omit [StorageBackend β] in
theorem Conceals.check_bind {f : Auth β → Except Ctap2Error α} {k : α → Ctap β CtapResponse}
    {a : Auth β} (h : ∀ x, f a = .ok x → Conceals id (k x) a) :
    Conceals id (Prog.check f >>= k) a := by
  cases hf : f a with
  | error error =>
      have hrun : (Prog.check f).run a = (.error error, a) := Prod.ext hf rfl
      rw [Conceals, Prog.run_bind_of_error hrun]
      exact ⟨(Unlisted id).refl a, fun _ hok => nomatch hok⟩
  | ok x =>
      have hrun : (Prog.check f).run a = (.ok x, a) := Prod.ext hf rfl
      rw [Conceals, Prog.run_bind_of_ok hrun]
      exact h x hf

omit [StorageBackend β] in
theorem Conceals.ensure_bind {c : Auth β → Bool} {error : Ctap2Error}
    {k : Unit → Ctap β CtapResponse} {a : Auth β} (h : c a = true → Conceals id (k ()) a) :
    Conceals id (Prog.ensure c error >>= k) a := by
  cases hc : c a with
  | false =>
      rw [Conceals, Prog.run_ensure_bind_error hc]
      exact ⟨(Unlisted id).refl a, fun _ hok => nomatch hok⟩
  | true =>
      rw [Conceals, Prog.run_ensure_bind hc]
      exact h hc

end Silent

section Absent

variable [LawfulBackend β] {build : Build} {id : Bytes} {a : Auth β}

omit [StorageBackend β] [LawfulBackend β] in
theorem conceals_read {f : Auth β → CtapResponse} (h : ∀ b, ShowsOther id (f b)) :
    Conceals id (Prog.read f) a := by
  refine ⟨(Unlisted id).refl a, ?_⟩
  rintro response ⟨⟩
  exact h a

/-- The handler of CredentialManagement does not show the credential, nor take it up. -/
theorem conceals_credMgmtSubCommand (h : Absent id a) (request : CredentialManagementRequest) :
    Conceals id (credMgmtSubCommand build request) a := by
  have hcalls := commonCalls_any (β := β) build
  have hseq : (Unlisted id).rel a a := (Unlisted id).refl a
  unfold credMgmtSubCommand
  split
  · exact conceals_read fun _ _ => nofun
  · exact .of_keeps quiet_handleCredMgmtEnumerateRpsBegin
      (.bind fun _ => .bind fun _ => .pure fun _ => nofun)
  · exact .of_keeps quiet_handleCredMgmtEnumerateRpsNext (.bind fun _ => .pure fun _ => nofun)
  · refine .check_bind fun params _ => .check_bind fun rpHash _ => ?_
    exact credsBegin_unlisted h.untraced.keyed h.missing rpHash
  · obtain ⟨hkept, hother⟩ := credsNext_unlisted h.unlisted
    exact ⟨fun _ => hkept, hother⟩
  · refine .check_bind fun params _ => .check_bind fun descriptor _ => ?_
    exact .of_keeps ((within_onStorage (hcalls.deleteCredential _)).bind fun _ => .pure _)
      (.bind fun _ => .pure fun _ => nofun)
  · refine .check_bind fun params _ => .check_bind fun descriptor _ => .check_bind fun user _ => ?_
    exact .of_keeps ((within_persist (hcalls.updateUserInfo _ _ _)).bind fun _ =>
      (Keeps.ensure _ _).bind fun _ => .pure _) (.bind fun _ => .bind fun _ => .pure fun _ => nofun)
  · exact ⟨hseq, fun _ hok => nomatch hok⟩

theorem conceals_handleCredentialManagement (h : Absent id a) (data : Bytes) :
    Conceals id (handleCredentialManagement build data) a := by
  exact .check_bind fun request _ => .check_bind fun _ _ => .check_bind fun _ _ =>
    .ensure_bind fun _ => .ensure_bind fun _ => conceals_credMgmtSubCommand h request

/-- The storage holds no trace of the credential. -/
def Without (id : Bytes) (e : StorageEngine β) : Prop := e.Untraced id ∧ id ∉ e.credentials

instance : Asserting (.invariant (Absent id) : Prog.Frame (Auth β)) (.invariant (Without id)) where
  storing hs _ _ _ hcreds ha :=
    ⟨(hs ⟨ha.untraced, ha.missing⟩).1, (hs ⟨ha.untraced, ha.missing⟩).2,
      unlisted_of_creds hcreds ha.unlisted⟩
  asserting hs _ hcreds ha :=
    ⟨(hs ⟨ha.untraced, ha.missing⟩).1, (hs ⟨ha.untraced, ha.missing⟩).2,
      unlisted_of_creds hcreds ha.unlisted⟩

theorem commonCalls_without :
    CommonCalls build (.invariant (Without id : StorageEngine β → Prop)) :=
  commonCalls_of_steady (StorageEngine.stable_untraced.toSteady.and StorageEngine.steady_absent)

/-- Every command but MakeCredential and Reset keeps the credential absent. -/
theorem absent_processCommand (h : Absent id a) {cmd : UInt8} (data : Bytes)
    (hreset : Ctap2Command.fromU8 cmd ≠ .reset)
    (hmake : Ctap2Command.fromU8 cmd ≠ .makeCredential) :
    Absent id (a.step build (.command cmd data)) := by
  have hcm : Keeps (.invariant (Absent id)) (handleCredentialManagement build data : Ctap β _) := by
    intro b hb
    have hwithin : Keeps (Touching (.invariant (Without id)))
        (handleCredentialManagement build data : Ctap β _) :=
      within_handleCredentialManagement commonCalls_without data
    obtain ⟨huntraced, hmissing⟩ := (hwithin b).1 ⟨hb.untraced, hb.missing⟩
    exact ⟨huntraced, hmissing, (conceals_handleCredentialManagement hb data).1 hb.unlisted⟩
  exact keeps_processCommand commonCalls_without cmd data hreset (fun heq => absurd heq hmake)
    (fun _ => hcm) a h

omit [LawfulBackend β] in
/-- Only CredentialManagement makes an enumeration deliver it. -/
theorem unlisted_processCommand (cmd : UInt8) (data : Bytes)
    (hcm : Ctap2Command.fromU8 cmd ≠ .credentialManagement) :
    (Unlisted id).rel a (a.step build (.command cmd data)) := by
  have hcalls := storageCalls_any (β := β) build
  by_cases hreset : Ctap2Command.fromU8 cmd = .reset
  · refine (Keeps.when fun _ => quiet_endHmacSession).bind (fun _ => ?_) a
    rw [hreset]
    refine Keeps.map (quiet_checkPresence.bind fun _ =>
      (within_persistIgnored fun _ => trivial).bind fun _ =>
        (within_persistIgnored fun _ => trivial).bind fun _ => .update fun _ _ => ?_)
    rintro ⟨state, hstate, -⟩
    cases hstate
  · exact keeps_processCommand hcalls.toCommonCalls cmd data hreset
      (fun _ => within_handleMakeCredential hcalls data) (fun heq => absurd heq hcm) a

theorem untraced_call (h : a.storage.Untraced id) {call : Call}
    (hcall : call ≠ .input .powerCycle) :
    (a.call build call).storage.Untraced id :=
  have hstable : StorageEngine.Stable build.codec (StorageEngine.Untraced id) :=
    StorageEngine.stable_untraced
  (touching_call (storageCalls_of_stable hstable) StorageEngine.untraced_clear
    hstable.keeps_clearLargeBlobs a hcall).1 h

theorem absent_powerCycle (h : Absent id a)
    (hfiled : ∀ medium, a.storage.backend = some medium →
      StorageEngine.Filed build.codec (contents medium)) : Absent id (a.powerCycle build) := by
  have hreopen : id ∉ (reopen build a.storage).credentials ∧
      (reopen build a.storage).Untraced id := by
    unfold reopen
    cases hb : a.storage.backend with
    | none =>
        have hempty : (StorageEngine.new : StorageEngine β).Keyed :=
          StorageEngine.keyed_empty (none : Option β)
        refine ⟨fun hmem => ?_, hempty, fun _ => rfl⟩
        simp [StorageEngine.new, StorageEngine.empty] at hmem
    | some medium =>
        have hnone := h.untraced.medium h.missing
        rw [StorageEngine.persisted, hb, Option.bind_some] at hnone
        obtain ⟨hmissing, huntraced⟩ := StorageEngine.untraced_withBackend (hfiled medium hb) hnone
        exact ⟨hmissing, huntraced.keyed, huntraced.medium⟩
  refine ⟨hreopen.2, hreopen.1, ?_⟩
  rintro ⟨state, hstate, -⟩
  cases hstate

theorem absent_call (h : Absent id a) {call : Call} (hnew : ¬Recreates build id a call)
    (hfiled : call = .input .powerCycle → ∀ medium, a.storage.backend = some medium →
      StorageEngine.Filed build.codec (contents medium)) : Absent id (a.call build call) := by
  have hwithout : CommonCalls build (.invariant (Without id : StorageEngine β → Prop)) :=
    commonCalls_without
  rcases call with input | pin | ⟨oldPin, newPin⟩ | pin
  · rcases input with ⟨cmd, data⟩ | _
    · have huntraced : (a.step build (.command cmd data)).storage.Untraced id :=
        untraced_call h.untraced
          (show Call.input (.command cmd data) ≠ .input .powerCycle from nofun)
      by_cases hreset : Ctap2Command.fromU8 cmd = .reset
      · refine ⟨huntraced, ?_, unlisted_processCommand cmd data (by rw [hreset]; decide) h.unlisted⟩
        obtain ⟨-, hcore⟩ | ⟨-, hcleared⟩ := reset_step build data hreset a
        · have hstorage : (a.step build (.command cmd data)).storage = a.storage :=
            storage_of_core hcore
          exact fun hmem => h.missing (hstorage ▸ hmem)
        · show id ∉ (a.step build (.command cmd data)).storage.credentials
          rw [hcleared.credentials]
          simp
      by_cases hmake : Ctap2Command.fromU8 cmd = .makeCredential
      · exact ⟨huntraced, fun hmem => hnew ⟨cmd, data, rfl, hmake, hmem⟩,
          unlisted_processCommand cmd data (by rw [hmake]; decide) h.unlisted⟩
      · exact absent_processCommand h data hreset hmake
    · exact absent_powerCycle h (hfiled rfl)
  · exact within_setPin (F := .invariant (Absent id)) hwithout.pin pin a h
  · exact within_changePin (F := .invariant (Absent id)) hwithout.pin oldPin newPin a h
  · exact within_verifyPin (F := .invariant (Absent id)) hwithout.pin pin a h

/-- A state without the credential returns it in no answer. -/
theorem not_returns (h : Absent id a) (cmd : UInt8) (data : Bytes) :
    ¬Returns id (a.exchange build cmd data) := by
  rintro (⟨r, hassertion, hcredential⟩ | ⟨hcmd, r, hresult, hid⟩)
  · have hstored : ∀ (c : Credential) (id' : Bytes), r.credential = some (descriptorOf c) → ∀ s,
        a.storage.credentials[id']? = some s → StorageEngine.unlock a.crypto s = .ok c → False := by
      intro c id' hdescriptor s hs hopen
      rw [hdescriptor] at hcredential
      obtain rfl : c.credentialId = id := Option.some.inj hcredential
      exact h.missing (mem_of_unlock h.untraced.keyed hs hopen)
    obtain ⟨-, request, verified, c, -, hasserted⟩ | ⟨-, state, c, hnext⟩ :=
      assertion_cases build hassertion
    · obtain ⟨-, id', s, hs, hopen⟩ := selectCredential_stored hasserted.selected
      exact hstored c id' hasserted.descriptor s hs hopen
    · obtain ⟨id', -, hget⟩ := hnext.found
      obtain ⟨s, hs, hopen⟩ := StorageEngine.getCredential_ok hget
      exact hstored c id' hnext.descriptor s hs hopen
  · have hcm : Ctap2Command.fromU8 cmd = .credentialManagement := hcmd
    have hrun : (a.exchange build cmd data).result =
        ((handleCredentialManagement build data).run { a with hmacSecretSession := none }).1 := by
      show ((processCommand build cmd data).run a).1 = _
      rw [run_processCommand_of_ne build data a (by rw [hcm]; decide), hcm]
      rfl
    have habsent : Absent id { a with hmacSecretSession := none } :=
      ⟨h.untraced, h.missing, h.unlisted⟩
    exact (conceals_handleCredentialManagement habsent data).2 _ (hrun ▸ hresult) r rfl hid

theorem Absent.continues {b : Auth β} (h : Absent id a) (hb : Continues build id a b) :
    Absent id b := by
  induction hb with
  | here => exact h
  | call call before hnew hfiled ih => exact absent_call ih hnew hfiled

omit [StorageBackend β] [LawfulBackend β] in
/-- What an enumeration in progress delivers is what is pending. -/
theorem sequence_iff : (∀ entries, Delivers handleCredMgmtEnumerateCredsNext (fun a : Auth β =>
    a.credMgmtCredsState) CtapResponse.enumerateCredentialsEntry entries a.credMgmtCredsState →
      ∀ entry ∈ entries, entry.credentialId.id ≠ id) ↔ ¬Pending id a := by
  have hwrap : Function.Injective CtapResponse.enumerateCredentialsEntry :=
    fun _ _ => CtapResponse.enumerateCredentialsEntry.inj
  cases hstate : a.credMgmtCredsState with
  | none =>
      refine iff_of_true (fun entries hdelivers => ?_) ?_
      · have hrun : (handleCredMgmtEnumerateCredsNext.run a).1 = .error .invalidState := by
          rw [handleCredMgmtEnumerateCredsNext, nextInEnumeration, Prog.bind_bind,
            Prog.run_bind_of_error (show _ = (Except.error Ctap2Error.invalidState, a) from
              Prod.ext (by rw [Prog.run_check, hstate]; rfl) rfl)]
        rcases entries with _ | ⟨entry, entries⟩
        · cases (hdelivers a hstate).symm.trans hrun
        · obtain ⟨state', hstep, -⟩ := hdelivers
          cases (hstep a hstate).1.symm.trans hrun
      · rintro ⟨state, hsome, -⟩
        rw [hstate] at hsome
        cases hsome
  | some state =>
      have hput : ∀ (state : Option (Enumeration Credential)) (b : Auth β),
          (putCredMgmtCreds state b).credMgmtCredsState = state := fun _ _ => rfl
      have hiff : ∀ entries, Delivers handleCredMgmtEnumerateCredsNext (fun a : Auth β =>
          a.credMgmtCredsState) CtapResponse.enumerateCredentialsEntry entries (some state) ↔
          entries = (state.items.drop (state.currentIndex + 1)).map fun c =>
            buildEnumerateCredEntry c state.items.length := fun entries =>
        delivers_iff hput _ buildEnumerateCredEntry a hwrap rfl
      constructor
      · rintro h ⟨state', hsome, c, hc, hcid⟩
        obtain rfl := Option.some.inj (hstate.symm.trans hsome)
        exact h _ ((hiff _).mpr rfl) _ (List.mem_map_of_mem hc) hcid
      · intro hseq entries hdelivers entry hentry hid
        rw [(hiff entries).mp hdelivers] at hentry
        obtain ⟨c, hc, rfl⟩ := List.mem_map.mp hentry
        exact hseq ⟨state, hstate, c, hc, hid⟩

/-- A credential that is gone is forgotten unless an enumeration is still to deliver it. -/
theorem forgotten_iff (hk : a.storage.Untraced id) (hmissing : id ∉ a.storage.credentials) :
    Forgotten build id a ↔ ¬Pending id a := by
  constructor
  · intro h
    exact sequence_iff.mp h.sequence
  · intro hseq
    have habsent : Absent id a := ⟨hk, hmissing, hseq⟩
    exact ⟨sequence_iff.mpr hseq, fun b hb =>
      ⟨(habsent.continues hb).missing, not_returns (habsent.continues hb)⟩⟩

/-! ## Every reachable state -/

theorem keyed_call (h : a.storage.Keyed) (call : Call) : (a.call build call).storage.Keyed := by
  by_cases hcall : call = .input .powerCycle
  · rw [hcall]
    exact keyed_reopen build a.storage
  · have hstable : StorageEngine.Stable build.codec
        (StorageEngine.Keyed : StorageEngine β → Prop) := StorageEngine.stable_keyed
    exact (touching_call (storageCalls_of_stable hstable) StorageEngine.keyed_clear
      hstable.keeps_clearLargeBlobs a hcall).1 h

theorem Reachable.keyed (h : Reachable build a) : a.storage.Keyed := by
  obtain ⟨start, cs, hblank, rfl⟩ := h
  have hstart : start.storage.Keyed := hblank.storage.keyed
  clear hblank
  induction cs generalizing start with
  | nil => exact hstart
  | cons call cs ih => exact ih _ (keyed_call hstart call)

variable {cmd : UInt8} {data : Bytes} {request : CredentialManagementRequest}

/-- What is deleted is forgotten unless an enumeration is still to deliver it. -/
theorem forgotten_after_delete_iff (hk : a.storage.Keyed) (h : Authentic build a data request)
    (hcmd : Ctap2Command.fromU8 cmd = .credentialManagement) (hid : Deletes request id)
    (hmem : id ∈ a.storage.credentials) :
    Forgotten build id (a.exchange build cmd data).after ↔ ¬Pending id a := by
  have hafter : (a.exchange build cmd data).after =
      a.afterStorage (StorageEngine.afterDeleteCredential id a.storage) := by
    have hrun := congrArg Prod.snd (run_deletes h hcmd hid)
    rwa [StorageEngine.run_deleteCredential, if_pos hmem] at hrun
  have huntraced : (StorageEngine.afterDeleteCredential id a.storage).Untraced id := by
    refine ⟨hk.erase id, fun _ => ?_⟩
    rw [StorageEngine.afterDeleteCredential, StorageEngine.persisted_deleted, if_pos rfl]
  have hmissing : id ∉ (StorageEngine.afterDeleteCredential id a.storage).credentials := by
    show id ∉ a.storage.credentials.erase id
    simp
  rw [hafter]
  exact forgotten_iff huntraced hmissing

/-- Updates are exact; deletions are exact, and final, if the credential is stored and no
enumeration in progress is still to deliver it. -/
theorem managed_exactly_iff (ha : Reachable build a)
    (hcmd : Ctap2Command.fromU8 cmd = .credentialManagement)
    (hauth : Authentic build a data request) :
    (∀ id, Deletes request id →
      (DeletesExactly id (a.exchange build cmd data) ∧
          Forgotten build id (a.exchange build cmd data).after ↔
        id ∈ a.storage.credentials ∧ ¬Pending id a)) ∧
      ∀ id user, Updates request id user → UpdatesExactly id user (a.exchange build cmd data) := by
  refine ⟨fun id hid => ?_, fun id user hid => updatesExactly hauth hcmd hid⟩
  rw [deletesExactly_iff hauth hcmd hid]
  exact and_congr_right fun hmem => forgotten_after_delete_iff ha.keyed hauth hcmd hid hmem

end Absent

/-! ## A credential that is stored, and one that is not -/

/-- The device after a PIN is set, a token with the permission cm is issued and a credential is
made. -/
def managingDevice : Auth KvMap :=
  (managedDevice { macs := [
    ((drawn 32 3, 0x06 :: encodeValue (intMap [credentialParam firstId])),
      0xa822bfa1fafa6833966e5a471524f67372daa4ee111e692e003219b89c4e13f2),
    ((drawn 32 3, 0x06 :: encodeValue (intMap [credentialParam [9]])),
      0x41266f21b930b10a86d61e7656ec12dfd9d4c1331eb8cedacabfd89c1bd436f9)] }).calls managedBuild
    [.input setPinCommand, .input (getTokenFor 0x04), .input (makeCredentialCommand 1 1)]

theorem reachable_managingDevice : Reachable managedBuild managingDevice :=
  ⟨managedDevice _, _, ⟨blank_memoryDevice.storage, rfl⟩, rfl⟩

/-- deleteCredential, with the first half of a MAC. -/
def deleteData (id : Bytes) (mac : Nat) : Bytes := manageData 0x06 [credentialParam id] mac

/-- What it decodes to. -/
def deleteRequest (id : Bytes) (mac : Nat) : CredentialManagementRequest :=
  ⟨0x06, some ⟨none, some ⟨"public-key", id, none⟩, none⟩, some 1, some (word16 mac)⟩

theorem deletes_deleteRequest (id : Bytes) (mac : Nat) : Deletes (deleteRequest id mac) id :=
  ⟨rfl, _, _, rfl, rfl, rfl⟩

set_option maxRecDepth 100000 in
theorem authentic_stored : Authentic managedBuild managingDevice
    (deleteData firstId 0xa822bfa1fafa6833966e5a471524f673)
    (deleteRequest firstId 0xa822bfa1fafa6833966e5a471524f673) where
  decoded := rfl
  verified := ⟨_, rfl, by decide +kernel⟩

set_option maxRecDepth 100000 in
theorem authentic_unknown : Authentic managedBuild managingDevice
    (deleteData [9] 0x41266f21b930b10a86d61e7656ec12df)
    (deleteRequest [9] 0x41266f21b930b10a86d61e7656ec12df) where
  decoded := rfl
  verified := ⟨_, rfl, by decide +kernel⟩

/-- The stored credential is deleted for good. -/
theorem managed_exactly_iff_stored :
    DeletesExactly firstId (managingDevice.exchange managedBuild 0x0A
        (deleteData firstId 0xa822bfa1fafa6833966e5a471524f673)) ∧
      Forgotten managedBuild firstId (managingDevice.exchange managedBuild 0x0A
        (deleteData firstId 0xa822bfa1fafa6833966e5a471524f673)).after := by
  have hidle : managingDevice.credMgmtCredsState.isNone = true := by decide +kernel
  refine ((managed_exactly_iff reachable_managingDevice rfl authentic_stored).1 firstId
    (deletes_deleteRequest _ _)).mpr ⟨by decide +kernel, ?_⟩
  rintro ⟨state, hstate, -⟩
  rw [hstate] at hidle
  cases hidle

/-- One that was never there is deleted with success. -/
theorem unknown_deleted : ¬∀ (a : Auth KvMap) data request, Reachable managedBuild a →
    Authentic managedBuild a data request → ∀ id, Deletes request id →
      DeletesExactly id (a.exchange managedBuild 0x0A data) := by
  intro hall
  have hexact := hall managingDevice _ _ reachable_managingDevice authentic_unknown [9]
    (deletes_deleteRequest _ _)
  exact absurd ((deletesExactly_iff authentic_unknown rfl (deletes_deleteRequest _ _)).mp hexact)
    (by decide +kernel)

end Auth

end OpenKey
