import OpenKey.Ctap2.Registration

/-!
# What enumerateCredentials lists

**Listed credentials (`listed_credentials`).** In every run from an empty store, a credential that
enumerateCredentials lists was made by an earlier MakeCredential of the run: it drew the id, and it
left a record under it, for its relying party and for the user listed with it. The key it is listed
with has the entries of the key that is attested for the record exactly where the algorithm is ES256
or EdDSA. Keys of the other algorithms are listed as Ed25519 keys.

The list is a snapshot: enumerateCredentialsGetNextCredential reads no record. So the invariant says
of the snapshot what `Traceable` says of the records (`Enrolled`), and a credential that was deleted
in between is listed with the registration it had.
-/

namespace OpenKey

open Prog (Keeps)

set_option autoImplicit false

namespace Auth

variable {β : Type} [StorageBackend β] (build : Build)

/-! ## The answers of CredentialManagement -/

/-- Every credential in the snapshot, and the one that is answered with, has `P`. -/
structure Presents (P : Credential → Prop) (result : Except Ctap2Error CtapResponse × Auth β) :
    Prop where
  snapshot : ∀ state, result.2.credMgmtCredsState = some state → ∀ c ∈ state.items, P c
  entry : ∀ entry, result.1 = .ok (.enumerateCredentialsEntry entry) →
    ∃ c total, P c ∧ entry = buildEnumerateCredEntry c total

section

variable {P : Credential → Prop} {a : Auth β}

omit [StorageBackend β] in
/-- A failure that leaves the snapshot alone. -/
theorem presents_error (h : ∀ state, a.credMgmtCredsState = some state → ∀ c ∈ state.items, P c)
    (error : Ctap2Error) : Presents P (.error error, a) :=
  ⟨h, nofun⟩

omit [StorageBackend β] in
theorem presents_enumerateRpsBegin
    (h : ∀ state, a.credMgmtCredsState = some state → ∀ c ∈ state.items, P c) :
    Presents P ((handleCredMgmtEnumerateRpsBegin : Ctap β CtapResponse).run a) := by
  unfold handleCredMgmtEnumerateRpsBegin
  rw [Prog.run_read_bind]
  rcases a.storage.enumerateRps with _ | ⟨rp, rps⟩
  · exact presents_error h _
  · exact ⟨h, nofun⟩

omit [StorageBackend β] in
theorem presents_enumerateRpsNext
    (h : ∀ state, a.credMgmtCredsState = some state → ∀ c ∈ state.items, P c) :
    Presents P ((handleCredMgmtEnumerateRpsNext : Ctap β CtapResponse).run a) := by
  unfold handleCredMgmtEnumerateRpsNext nextInEnumeration
  rw [Prog.bind_bind]
  refine Prog.check_bind_elim (presents_error h) fun state _ => ?_
  rcases state.items[state.currentIndex + 1]? with _ | item
  · exact ⟨h, nofun⟩
  · exact ⟨h, nofun⟩

omit [StorageBackend β] in
/-- The snapshot is what is stored when it is taken. -/
theorem presents_enumerateCredsBegin (rpHash : Bytes)
    (h : ∀ state, a.credMgmtCredsState = some state → ∀ c ∈ state.items, P c)
    (hstored : ∀ c ∈ a.storage.findCredentialsByRpHash rpHash a.crypto, P c) :
    Presents P ((handleCredMgmtEnumerateCredsBegin rpHash : Ctap β CtapResponse).run a) := by
  unfold handleCredMgmtEnumerateCredsBegin
  rw [Prog.run_read_bind]
  generalize a.storage.findCredentialsByRpHash rpHash a.crypto = found at hstored
  rcases found with _ | ⟨first, rest⟩
  · exact presents_error h _
  · refine ⟨?_, ?_⟩
    · rintro state ⟨⟩ c hc
      exact hstored c hc
    · rintro entry ⟨⟩
      exact ⟨first, _, hstored first List.mem_cons_self, rfl⟩

omit [StorageBackend β] in
theorem presents_enumerateCredsNext
    (h : ∀ state, a.credMgmtCredsState = some state → ∀ c ∈ state.items, P c) :
    Presents P ((handleCredMgmtEnumerateCredsNext : Ctap β CtapResponse).run a) := by
  unfold handleCredMgmtEnumerateCredsNext nextInEnumeration
  rw [Prog.bind_bind]
  refine Prog.check_bind_elim (presents_error h) fun state hstate => ?_
  have hitems := h state (Option.elim_error_eq_ok.mp hstate)
  cases hitem : state.items[state.currentIndex + 1]? with
  | none => exact ⟨nofun, nofun⟩
  | some item =>
      refine ⟨?_, ?_⟩
      · rintro _ ⟨⟩ c hc
        exact hitems c hc
      · rintro entry ⟨⟩
        exact ⟨item, _, hitems item (List.mem_of_getElem? hitem), rfl⟩

omit [StorageBackend β] in
/-- A storage call is no answer with a credential. -/
theorem presents_onStorage {α : Type} {f : EngineError → Ctap2Error}
    {m : Prog (StorageEngine β) EngineError α}
    (h : ∀ state, a.credMgmtCredsState = some state → ∀ c ∈ state.items, P c)
    {k : α → Ctap β CtapResponse} (hk : ∀ x b, b.credMgmtCredsState = a.credMgmtCredsState →
      Presents P ((k x).run b)) :
    Presents P (((Prog.mapError f (onStorage .ordinary m)) >>= k).run a) := by
  rcases hrun : (Prog.mapError f (onStorage .ordinary m)).run a with ⟨error | x, b⟩
  · have hsame : b.credMgmtCredsState = a.credMgmtCredsState := by
      rw [← show ((Prog.mapError f (onStorage .ordinary m)).run a).2 = b by rw [hrun]]
      rfl
    rw [Prog.run_bind_of_error hrun]
    exact presents_error (hsame ▸ h) _
  · rw [Prog.run_bind_of_ok hrun]
    refine hk x b ?_
    rw [← show ((Prog.mapError f (onStorage .ordinary m)).run a).2 = b by rw [hrun]]
    rfl

theorem presents_handleCredentialManagement (data : Bytes)
    (h : ∀ state, a.credMgmtCredsState = some state → ∀ c ∈ state.items, P c)
    (hstored : ∀ rpHash, ∀ c ∈ a.storage.findCredentialsByRpHash rpHash a.crypto, P c) :
    Presents P ((handleCredentialManagement build data).run a) := by
  have herror : ∀ error, Presents P (.error error, a) := presents_error h
  refine Prog.check_bind_elim herror fun request _ => ?_
  refine Prog.check_bind_elim herror fun _ _ => Prog.check_bind_elim herror fun _ _ => ?_
  refine Prog.ensure_bind_elim herror fun _ => Prog.ensure_bind_elim herror fun _ => ?_
  unfold credMgmtSubCommand
  split
  · exact ⟨h, nofun⟩
  · exact presents_enumerateRpsBegin h
  · exact presents_enumerateRpsNext h
  · refine Prog.check_bind_elim herror fun _ _ => Prog.check_bind_elim herror fun rpHash _ => ?_
    exact presents_enumerateCredsBegin rpHash h (hstored rpHash)
  · exact presents_enumerateCredsNext h
  · refine Prog.check_bind_elim herror fun _ _ => Prog.check_bind_elim herror fun _ _ => ?_
    exact presents_onStorage h fun _ b hsame => ⟨hsame ▸ h, nofun⟩
  · refine Prog.check_bind_elim herror fun _ _ => Prog.check_bind_elim herror fun _ _ => ?_
    refine Prog.check_bind_elim herror fun _ _ => presents_onStorage h fun updated b hsame => ?_
    exact Prog.ensure_bind_elim (presents_error (hsame ▸ h)) fun _ => ⟨hsame ▸ h, nofun⟩
  · exact herror _

end

/-! ## Runs -/

/-- The moves that drop the snapshot or leave it alone. -/
def Dropping : Prog.Frame (Auth β) where
  rel a b := b.credMgmtCredsState = none ∨ b.credMgmtCredsState = a.credMgmtCredsState
  refl _ := .inr rfl
  trans := by
    rintro a b c h (h' | h')
    · exact .inl h'
    · rw [h']
      exact h

instance : Asserting (Dropping (β := β)) .any where
  storing _ _ _ _ h := .inr h
  asserting _ _ h := .inr h

theorem dropping_processCommand {cmd : UInt8} (data : Bytes)
    (h : Ctap2Command.fromU8 cmd ≠ .credentialManagement) :
    Keeps Dropping (processCommand build cmd data : Ctap β CtapResponse) := by
  by_cases hreset : Ctap2Command.fromU8 cmd = .reset
  · refine (Keeps.when fun _ => quiet_endHmacSession).bind fun _ => ?_
    rw [hreset]
    have hkeeps : Keeps Dropping (handleReset : Ctap β Unit) :=
      quiet_checkPresence.bind fun _ => (within_persistIgnored fun _ => trivial).bind fun _ =>
        (within_persistIgnored fun _ => trivial).bind fun _ => .update fun _ => .inl rfl
    exact hkeeps.map
  · exact keeps_processCommand (commonCalls_any build) cmd data hreset
      (fun _ => within_handleMakeCredential (storageCalls_any build) data) fun heq => absurd heq h

/-- A credential of a registered record. -/
def Enrolled (crypto : CryptoEngine) (past : List (Exchange β)) (c : Credential) : Prop :=
  ∃ y ∈ past, ∃ request s, Registered build crypto y request s ∧
    StorageEngine.unlock crypto s = .ok c

omit [StorageBackend β] in
theorem Enrolled.append {crypto : CryptoEngine} {past : List (Exchange β)} {c : Credential}
    (h : Enrolled build crypto past c) (more : List (Exchange β)) :
    Enrolled build crypto (past ++ more) c := by
  obtain ⟨y, hy, hrest⟩ := h
  exact ⟨y, List.mem_append_left _ hy, hrest⟩

section Lawful

variable [LawfulBackend β] {crypto : CryptoEngine} {past : List (Exchange β)} {a : Auth β}

/-- After the exchanges `past`, records and snapshot are registered by them. -/
structure Enrolling (crypto : CryptoEngine) (past : List (Exchange β)) (a : Auth β) : Prop where
  traceable : Traceable build crypto past a
  snapshot : ∀ state, a.credMgmtCredsState = some state → ∀ c ∈ state.items,
    Enrolled build crypto past c

variable {build}

theorem Traceable.enrolled (h : Traceable build crypto past a) (rpHash : Bytes) :
    ∀ c ∈ a.storage.findCredentialsByRpHash rpHash a.crypto, Enrolled build crypto past c := by
  intro c hc
  unfold StorageEngine.findCredentialsByRpHash at hc
  obtain ⟨s, hs, hunlock⟩ := List.mem_filterMap.mp hc
  obtain ⟨id, hrecord⟩ := StorageEngine.mem_records (List.mem_filter.mp hs).1
  obtain ⟨y, hy, request, hregistered⟩ := h.records id s hrecord
  refine ⟨y, hy, request, s, hregistered, ?_⟩
  rw [h.engine] at hunlock
  cases hu : StorageEngine.unlock crypto s with
  | error error => simp [hu, Except.toOption] at hunlock
  | ok c' =>
      rw [hu] at hunlock
      cases hunlock
      rfl

/-- What an exchange leaves, and what it lists, is registered before it. -/
theorem Enrolling.exchange (h : Enrolling build crypto past a) (cmd : UInt8) (data : Bytes) :
    (∀ state, (a.step build (.command cmd data)).credMgmtCredsState = some state →
        ∀ c ∈ state.items, Enrolled build crypto past c) ∧
      (Ctap2Command.fromU8 cmd = .credentialManagement → ∀ entry,
        (a.exchange build cmd data).result = .ok (.enumerateCredentialsEntry entry) →
          ∃ c total, Enrolled build crypto past c ∧ entry = buildEnumerateCredEntry c total) := by
  by_cases hcm : Ctap2Command.fromU8 cmd = .credentialManagement
  · have hrun : (processCommand build cmd data).run a =
        (handleCredentialManagement build data).run { a with hmacSecretSession := none } := by
      rw [run_processCommand_of_ne build data a (by rw [hcm]; decide), hcm]
      rfl
    have hpresents := presents_handleCredentialManagement build (P := Enrolled build crypto past)
      (a := { a with hmacSecretSession := none }) data h.snapshot h.traceable.enrolled
    rw [← hrun] at hpresents
    exact ⟨hpresents.snapshot, fun _ => hpresents.entry⟩
  · refine ⟨fun state hstate => ?_, fun heq => absurd heq hcm⟩
    rcases dropping_processCommand build data hcm a with hnone | hsame
    · rw [show (a.step build (.command cmd data)).credMgmtCredsState = none from hnone] at hstate
      cases hstate
    · exact h.snapshot state (hsame ▸ hstate)

theorem Enrolling.command (h : Enrolling build crypto past a) (cmd : UInt8) (data : Bytes) :
    Enrolling build crypto (past ++ [a.exchange build cmd data])
      (a.step build (.command cmd data)) where
  traceable := h.traceable.command build cmd data
  snapshot state hstate c hc := ((h.exchange cmd data).1 state hstate c hc).append build _

theorem Enrolling.powerCycle (h : Enrolling build crypto past a) (hread : a.Readable build) :
    Enrolling build crypto past (a.powerCycle build) where
  traceable := h.traceable.powerCycle build hread
  snapshot state hstate := by cases hstate

theorem enrolling_blank (h : a.Blank) : Enrolling build a.crypto [] a where
  traceable := traceable_blank build h
  snapshot state hstate := by
    rw [h.opened] at hstate
    cases hstate

variable (build)

/-- In every run from an empty store, a credential that is listed is one that an earlier
MakeCredential drew the id of and left a record of, for the relying party of its request and the
user listed; and it is listed with the key that is attested for the record exactly where the
algorithm is ES256 or EdDSA. If that MakeCredential was answered, its answer attested this key. -/
theorem listed_credentials (a : Auth β) (hblank : a.Blank)
    (hpoint : ∀ {entropy pkcs8 point}, a.crypto.prims.p256Generate entropy = some (pkcs8, point) →
      point.head? = some 0x04)
    (inputs : List Input) (hread : a.Rereads build inputs) (past future : List (Exchange β))
    (x : Exchange β) (entry : EnumerateCredentialsEntryResponse)
    (hrun : a.trace build inputs = past ++ x :: future) (hcm : x.command = .credentialManagement)
    (hx : x.result = .ok (.enumerateCredentialsEntry entry)) :
    ∃ y ∈ past, ∃ request s, y.command = .makeCredential ∧
      build.cbor.decodeMakeCredential y.data = .ok request ∧
      entry.credentialId.id = (y.before.rng 0).bytes 16 ∧
      y.after.storage.credentials[entry.credentialId.id]? = some s ∧
      s.credential.rpId = request.rp.id ∧ s.credential.userHandle = some request.user.id ∧
      entry.user.id = request.user.id ∧
      selectAlgorithm build request.pubKeyCredParams = .ok s.credential.algorithm ∧
      (∀ key, attestedKey build a.crypto s.credential.algorithm s.credential.publicKey = .ok key →
        (SameKey entry.publicKey key ↔
          s.credential.algorithm = -7 ∨ s.credential.algorithm = -8)) ∧
      ∀ mc, y.result = .ok (.makeCredential mc) → ∃ key,
        attestedKey build a.crypto s.credential.algorithm s.credential.publicKey = .ok key ∧
          Attests build mc entry.credentialId.id key := by
  obtain ⟨b, cmd, data, henrolling, rfl⟩ := reread_invariant build (P := Enrolling build a.crypto)
    (fun _ _ cmd data h => h.command cmd data) (fun _ _ h => h.powerCycle)
    (enrolling_blank hblank) hread hrun
  rw [List.nil_append] at henrolling
  obtain ⟨c, total, ⟨y, hy, request, s, hregistered, hunlock⟩, rfl⟩ :=
    (henrolling.exchange cmd data).2 hcm entry hx
  obtain ⟨privateKey, rfl⟩ := StorageEngine.unlock_ok hunlock
  -- what the registration left has since changed in the counter and the names only
  obtain ⟨left, hleft, horigin⟩ := Option.map_eq_some_iff.mp hregistered.left
  have halgorithm : left.credential.algorithm = s.credential.algorithm :=
    congrArg (·.credential.algorithm) horigin
  have hpublic : left.credential.publicKey = s.credential.publicKey :=
    congrArg (·.credential.publicKey) horigin
  refine ⟨y, hy, request, left, hregistered.command, hregistered.decoded, hregistered.drawn, hleft,
    (congrArg (·.credential.rpId) horigin).trans hregistered.rpId,
    (congrArg (·.credential.userHandle) horigin).trans hregistered.user, ?_, ?_, ?_, ?_⟩
  · simp [buildEnumerateCredEntry, hregistered.user]
  · rw [halgorithm]
    exact hregistered.algorithm
  · intro key hkey
    rw [halgorithm, hpublic] at hkey
    rw [halgorithm]
    refine coseKeyValue_attested_iff (selectAlgorithm_supported build hregistered.algorithm) ?_ hkey
    intro h7
    obtain ⟨entropy, drawn, hpair, -⟩ := hregistered.keys
    unfold CryptoEngine.keyPair at hpair
    rw [if_pos h7] at hpair
    exact hpoint (Option.elim_error_eq_ok.mp hpair)
  · intro mc hmc
    rw [halgorithm, hpublic]
    exact hregistered.attests build hmc

end Lawful

/-! ## The sample device -/

/-- The parameter of enumerateCredentials for example.com. -/
def exampleParam : Int × Value :=
  (1, .bytes (word32 0xa379a6f6eeafb9a55e378c118034e2751e682fab9f2d30ab13d2125586ce1947))

/-- The build with the decoder of CredentialManagement, that reads and writes one record. -/
def listingBuild : Build :=
  { managedBuild with codec := StorageEngine.oneRecordCodec oneRecord }

/-- The device over a medium, with the key agreement of the ninth draw, the token of the tenth and
the MAC of enumerateCredentials under it. -/
def listingDevice : Auth KvMap :=
  { sampleDevice (.withBackend listingBuild.codec ∅) with
    crypto := managedCrypto {
      agreements := [(9, 0x7135fa4fd93a09dce98bbf681b4bfcf50e7c0d6354e62afb0bff2a3429617865,
        0xcd3ed27eb7591e7b4f22df9ddf8dfd544c6486b498f863296dfc5b8c696ceec5)]
      blocks := [
        (word16 0x03ac674216f3e15c761ee1a5e255f067, word16 0xc0f657d5894e2880612dbaee867cd77e),
        (word16 0x0a0a0a0a0a0a0a0a0a0a0a0a0a0a0a0a, word16 0x3f65b7d1d44b552a45aa9ad67812c4a1),
        (word16 0x356fbddbde415f204fa090dc7218ceab, word16 0x2db67cda440c35645cf522909dc29b24)]
      macs := [((drawn 32 10, 0x04 :: encodeValue (intMap [exampleParam])),
        0xc03ccd2ecc483531b79687f49c8e44c41488248a99da99db389c9d06da363ec8)] } }

theorem blank_listingDevice : listingDevice.Blank where
  storage := by
    refine ⟨rfl, rfl, rfl, ?_⟩
    rintro b ⟨⟩
    rfl
  opened := rfl

/-- getPinUvAuthTokenUsingPinWithPermissions, with the permission cm, under the key agreement of the
ninth draw. -/
def listingTokenCommand : Input :=
  .command 0x06 (encodeValue (intMap [(1, .integer 1), (2, .integer 9), (3, samplePlatformKey),
    (6, .bytes (word16 0xc0f657d5894e2880612dbaee867cd77e)), (9, .integer 4)]))

/-- enumerateCredentials, under the token the tenth draw yields. -/
def listingData : Bytes := manageData 0x04 [exampleParam] 0xc03ccd2ecc483531b79687f49c8e44c4

/-- The credential that is listed. -/
def listedEntry (x : Exchange KvMap) : Option EnumerateCredentialsEntryResponse :=
  match x.result with
  | .ok (.enumerateCredentialsEntry entry) => some entry
  | _ => none

theorem result_of_listedEntry {x : Exchange KvMap} {entry : EnumerateCredentialsEntryResponse}
    (h : listedEntry x = some entry) : x.result = .ok (.enumerateCredentialsEntry entry) := by
  unfold listedEntry at h
  split at h
  · next hresult =>
      cases h
      exact hresult
  · cases h

/-- A credential that is made, a power cycle, and a token. -/
def listingRun : List Input := oneSetup ++ [.powerCycle, listingTokenCommand]

set_option maxRecDepth 100000 in
theorem readable_listingDevice :
    (listingDevice.run listingBuild oneSetup).Readable listingBuild := by
  refine fun _ => ⟨StorageEngine.plain_of_entries [firstId] ?_, ?_⟩
  · decide +kernel
  · unfold StorageEngine.Decodes
    decide +kernel

set_option maxRecDepth 100000 in
theorem rereads_listingDevice : listingDevice.Rereads listingBuild
    (listingRun ++ [.command 0x0A listingData]) := by
  rw [listingRun, List.append_assoc, rereads_append]
  exact ⟨trivial, readable_listingDevice, trivial⟩

set_option maxRecDepth 100000 in
/-- After a power cycle the device lists the credential it made before, for its user and as an EdDSA
key. -/
theorem listed_credentials_reopened :
    ∃ entry, ((listingDevice.run listingBuild listingRun).exchange listingBuild 0x0A
        listingData).result = .ok (.enumerateCredentialsEntry entry) ∧
      ∃ y ∈ listingDevice.trace listingBuild listingRun, ∃ request s mc key,
        listingBuild.cbor.decodeMakeCredential y.data = .ok request ∧
        y.after.storage.credentials[entry.credentialId.id]? = some s ∧
        s.credential.rpId = request.rp.id ∧ entry.user.id = request.user.id ∧
        y.result = .ok (.makeCredential mc) ∧
        Attests listingBuild mc entry.credentialId.id key ∧
        (SameKey entry.publicKey key ↔
          s.credential.algorithm = -7 ∨ s.credential.algorithm = -8) := by
  have hlisted : (listedEntry ((listingDevice.run listingBuild listingRun).exchange listingBuild
      0x0A listingData)).isSome = true := by decide +kernel
  have hanswered : (listingDevice.trace listingBuild listingRun).all
      (fun y => decide (y.command = .makeCredential → answered y = true)) = true := by
    decide +kernel
  obtain ⟨entry, hentry⟩ := Option.isSome_iff_exists.mp hlisted
  have hresult := result_of_listedEntry hentry
  have hmade := listed_credentials listingBuild listingDevice blank_listingDevice
    (fun h => by cases h) _ rereads_listingDevice
  obtain ⟨y, hy, request, s, hcommand, hdecode, -, hleft, hrpId, -, huser, -, hsame, hattested⟩ :=
    hmade _ [] _ entry (trace_snoc listingBuild listingDevice listingRun 0x0A listingData) rfl
      hresult
  have hdone := of_decide_eq_true (List.all_eq_true.mp hanswered y hy) hcommand
  unfold answered at hdone
  split at hdone
  · next mc hmc =>
      obtain ⟨key, hkey, hattests⟩ := hattested mc hmc
      exact ⟨entry, hresult, y, hy, request, s, mc, key, hdecode, hleft, hrpId, huser, hmc,
        hattests, hsame key hkey⟩
  · cases hdone

end Auth

end OpenKey
