import OpenKey.Ctap2.PinRetry

/-!
# Every path that compares a PIN

Besides the three subcommands of ClientPIN, setMinPINLength of AuthenticatorConfig and the methods
`verify_pin` and `change_pin` of the trait `ClientPin` compare a submitted PIN with the stored
hash, each with checks of its own. Some are missing: `verify_current_pin` has none and takes no
retry, `change_pin` has none, `verify_pin` does not look at the counter, and `set_pin` replaces a
PIN that is set. `Compliant` names the calls that do not reach one of these gaps; in runs of such
calls all paths obey the same rules.
-/

namespace OpenKey

open Prog (Keeps KeepsAt bind_eq_ok check_eq_ok ensure_eq_ok map_eq_ok)

set_option autoImplicit false

/-- The results of the comparisons in a log, the latest first. -/
def comparisons {β : Type} (log : List (Event β)) : List Bool :=
  log.filterMap fun
    | .compared _ matched => some matched
    | _ => none

/-- A call that is decoded as Reset. -/
def Call.isReset : Call → Bool
  | .input i => i.isReset
  | _ => false

theorem readDecimal_lt {β : Type} [StorageBackend β] (e : StorageEngine β) (key : String)
    {bound fallback : Nat} (hfallback : fallback < bound) :
    e.readDecimal key bound fallback < bound := by
  unfold StorageEngine.readDecimal
  cases h : ((e.value key).bind ofUtf8).bind (parseUnsigned bound) with
  | none => exact hfallback
  | some n =>
      obtain ⟨text, -, hn⟩ := Option.bind_eq_some_iff.mp h
      exact parseUnsigned_lt hn

theorem readRetries_lt {β : Type} [StorageBackend β] (e : StorageEngine β) :
    e.readRetries < 256 := readDecimal_lt e _ (by decide)

namespace Auth

variable {β : Type} [StorageBackend β] [LawfulBackend β] (build : Build)

/-! ## What a call may do to the counter -/

/-- The moves that compare nothing and leave the counter alone. -/
def Still : Prog.Frame (Auth β) :=
  .constant fun a => (a.storage.readRetries, comparisons a.log)

/-- What the rules allow: no comparison, or one that was open, and then a mismatch costs a retry. -/
def Fair (a b : Auth β) : Prop :=
  (comparisons b.log = comparisons a.log ∧ b.storage.readRetries ≤ a.storage.readRetries) ∨
    (a.CheckOpen ∧ comparisons b.log = false :: comparisons a.log ∧
      b.storage.readRetries + 1 = a.storage.readRetries) ∨
    (a.CheckOpen ∧ comparisons b.log = true :: comparisons a.log)

omit [LawfulBackend β] in
theorem Fair.of_still {a b : Auth β} (h : Still.rel a b) : Fair a b :=
  .inl ⟨congrArg Prod.snd h, Nat.le_of_eq (congrArg Prod.fst h)⟩

omit [LawfulBackend β] in
theorem Fair.still_right {a b c : Auth β} (h : Fair a b) (hbc : Still.rel b c) : Fair a c := by
  have hretries : c.storage.readRetries = b.storage.readRetries := congrArg Prod.fst hbc
  have hcompared : comparisons c.log = comparisons b.log := congrArg Prod.snd hbc
  unfold Fair at h ⊢
  rwa [hretries, hcompared]

omit [LawfulBackend β] in
theorem Fair.core_left {a b c : Auth β} (h : Fair b c) (hcore : b.core = a.core) : Fair a c := by
  have hstorage : b.storage = a.storage := congrArg Core.storage hcore
  have hlog : b.log = a.log := congrArg Core.log hcore
  unfold Fair at h
  rw [hstorage, hlog] at h
  exact h.imp_right (.imp (.imp_left (·.of_core hcore.symm)) (.imp_left (·.of_core hcore.symm)))

omit [LawfulBackend β] in
theorem still_of_quiet {α : Type} {m : Ctap β α} (h : Keeps Quiet m) : Keeps Still m :=
  h.mono fun _ _ hcore =>
    congrArg (fun c : Core β => (c.storage.readRetries, comparisons c.log)) hcore

theorem still_of_moves {K : Set Kind} (hsave : Kind.save pinRetriesKey ∉ K)
    (hcompare : ∀ path, Kind.compare path ∉ K) {a b : Auth β} (h : (Moves K).rel a b) :
    Still.rel a b := by
  refine moves_invariant (P := fun c => (c.storage.readRetries, comparisons c.log) =
    (a.storage.readRetries, comparisons a.log)) (fun c c' hmove heq => ?_) h rfl
  rw [← heq]
  cases hmove with
  | issue | dropToken | enumerate => rfl
  | fail => rfl
  | compare hmem => exact absurd hmem (hcompare _)
  | restore hmem => exact absurd hmem hsave
  | records _ hs _ =>
      refine Prod.ext ?_ rfl
      exact readDecimal_congr (hs.1 _ systemKey_retries) _ _
  | save hmem hs _ =>
      refine Prod.ext (readDecimal_congr ?_ _ _) rfl
      rw [hs.value_eq, if_neg]
      rintro rfl
      exact hsave hmem

/-- The run of a program from a state is fair. -/
def FairAt {α : Type} (m : Ctap β α) (a : Auth β) : Prop := Fair a (m.run a).2

section FairAt

variable {α α' : Type}

omit [LawfulBackend β] in
theorem FairAt.of_keeps {m : Ctap β α} (h : Keeps Still m) (a : Auth β) : FairAt m a :=
  .of_still (h a)

omit [LawfulBackend β] in
theorem FairAt.quiet_bind {m : Ctap β α} {f : α → Ctap β α'} {a : Auth β} (hm : Keeps Quiet m)
    (hf : ∀ x b, b.core = a.core → FairAt (f x) b) : FairAt (m >>= f) a := by
  unfold FairAt
  cases hrun : m.run a with
  | mk result b =>
      have hcore : b.core = a.core := hm.of_run hrun
      cases result with
      | error error =>
          rw [Prog.run_bind_of_error hrun]
          exact .of_still
            (congrArg (fun c : Core β => (c.storage.readRetries, comparisons c.log)) hcore)
      | ok x =>
          rw [Prog.run_bind_of_ok hrun]
          exact (hf x b hcore).core_left hcore

omit [LawfulBackend β] in
theorem FairAt.bind_still {m : Ctap β α} {f : α → Ctap β α'} {a : Auth β} (hm : FairAt m a)
    (hf : ∀ x, Keeps Still (f x)) : FairAt (m >>= f) a := by
  unfold FairAt at hm ⊢
  cases hrun : m.run a with
  | mk result b =>
      rw [hrun] at hm
      cases result with
      | error error =>
          rw [Prog.run_bind_of_error hrun]
          exact hm
      | ok x =>
          rw [Prog.run_bind_of_ok hrun]
          exact hm.still_right (hf x b)

omit [LawfulBackend β] in
theorem FairAt.ensure_bind {c : Auth β → Bool} {error : Ctap2Error} {k : Unit → Ctap β α}
    {a : Auth β} (h : c a = true → FairAt (k ()) a) : FairAt (Prog.ensure c error >>= k) a := by
  unfold FairAt at h ⊢
  cases hc : c a with
  | true =>
      rw [Prog.run_ensure_bind hc]
      exact h hc
  | false =>
      rw [Prog.run_ensure_bind_error hc]
      exact .of_still rfl

omit [LawfulBackend β] in
theorem FairAt.check_bind {f : Auth β → Except Ctap2Error α} {k : α → Ctap β α'} {a : Auth β}
    (h : ∀ x, f a = .ok x → FairAt (k x) a) : FairAt (Prog.check f >>= k) a := by
  unfold FairAt at h ⊢
  cases hf : f a with
  | error error =>
      rw [Prog.run_bind_of_error (Prod.ext hf rfl)]
      exact .of_still rfl
  | ok x =>
      rw [Prog.run_bind_of_ok (Prod.ext hf rfl)]
      exact h x hf

omit [LawfulBackend β] in
theorem FairAt.read_bind {f : Auth β → α} {k : α → Ctap β α'} {a : Auth β}
    (h : FairAt (k (f a)) a) : FairAt (Prog.read f >>= k) a := h

end FairAt

/-! ## One comparison -/

theorem readRetries_decrement (mark : Mark) (a : Auth β) :
    ((decrementPinRetries mark).run a).2.storage.readRetries = a.storage.readRetries - 1 := by
  have hlt : a.storage.readRetries - 1 < 256 :=
    Nat.lt_of_le_of_lt (Nat.sub_le _ _) (readRetries_lt a.storage)
  exact readDecimal_saved (StorageEngine.saved_run_store _ _ a.storage) hlt _

omit [LawfulBackend β] in
theorem comparisons_decrement (mark : Mark) (a : Auth β) :
    comparisons ((decrementPinRetries mark).run a).2.log = comparisons a.log := rfl

omit [LawfulBackend β] in
theorem still_failPin {α : Type} : Keeps Still (failPin : Ctap β α) :=
  Keeps.bind (.update fun _ => rfl) fun _ => .check _

/-- The moves that compare nothing. -/
def Uncompared : Prog.Frame (Auth β) := .constant fun a => comparisons a.log

omit [LawfulBackend β] in
theorem uncompared_resetPinRetries (mark : Mark) :
    Keeps Uncompared (resetPinRetries mark : Ctap β Unit) := fun _ => rfl

omit [LawfulBackend β] in
theorem uncompared_storePinHash (mark : Mark) (pin : Bytes) :
    Keeps Uncompared (storePinHash mark pin : Ctap β Unit) := fun _ => rfl

/-- A check that takes its retry first. -/
theorem fairAt_checkPinHash {path : PinPath} {protocol : PinUvProtocol} {secret pinHashEnc : Bytes}
    {a : Auth β} (h : a.CheckOpen) : FairAt (checkPinHash path protocol secret pinHashEnc) a := by
  have hretries := readRetries_decrement (β := β) .checkBegun a
  have hcompared := comparisons_decrement (β := β) .checkBegun a
  have hleft := h.retryLeft
  unfold FairAt checkPinHash
  have htake : (decrementPinRetries .checkBegun).run a =
      (.ok (), ((decrementPinRetries .checkBegun).run a).2) := rfl
  rw [Prog.run_bind_of_ok htake]
  clear htake
  generalize ((decrementPinRetries .checkBegun).run a).2 = b at hretries hcompared
  have htaken : Fair a b := .inl ⟨hcompared, by omega⟩
  rw [Prog.run_read_bind]
  split
  · exact htaken.still_right (still_failPin b)
  · next hash _ =>
      obtain hrun | ⟨matched, hrun⟩ := run_comparePinHash path hash b
      · rw [Prog.run_bind_of_ok hrun]
        exact htaken.still_right (still_failPin b)
      · rw [Prog.run_bind_of_ok hrun]
        cases matched with
        | true =>
            refine .inr (.inr ⟨h, ?_⟩)
            exact (uncompared_resetPinRetries .checkPassed _).trans (congrArg (true :: ·) hcompared)
        | false =>
            have hmiss : Fair a { b with log := .compared path false :: b.log } := by
              refine .inr (.inl ⟨h, congrArg (false :: ·) hcompared, ?_⟩)
              show b.storage.readRetries + 1 = _
              omega
            exact hmiss.still_right (still_failPin _)

/-- A check of the trait: it compares first, and a mismatch takes the retry. -/
theorem fairAt_compareFirst {path : PinPath} {submitted : Bytes} {k : Ctap β Unit} {a : Auth β}
    (h : a.CheckOpen) (hk : Keeps Uncompared k) :
    FairAt (do
      let matched ← comparePinHash path submitted
      if matched = some true then k
      else do
        decrementPinRetries .ordinary
        failPin) a := by
  have hleft := h.retryLeft
  unfold FairAt
  have hfail : ∀ b : Auth β, b.storage = a.storage →
      ((decrementPinRetries .ordinary >>= fun _ => failPin : Ctap β Unit).run
        b).2.storage.readRetries
          + 1 = a.storage.readRetries ∧
        comparisons
          ((decrementPinRetries .ordinary >>= fun _ => failPin : Ctap β Unit).run b).2.log =
          comparisons b.log := by
    intro b hb
    have hretries := readRetries_decrement (β := β) .ordinary b
    rw [hb] at hretries
    refine ⟨?_, rfl⟩
    show ((decrementPinRetries .ordinary).run b).2.storage.readRetries + 1 = _
    omega
  obtain hrun | ⟨matched, hrun⟩ := run_comparePinHash path submitted a
  · rw [Prog.run_bind_of_ok hrun]
    obtain ⟨hretries, hcompared⟩ := hfail a rfl
    exact .inl ⟨hcompared, Nat.le_of_succ_le (Nat.le_of_eq hretries)⟩
  · rw [Prog.run_bind_of_ok hrun]
    cases matched with
    | true => exact .inr (.inr ⟨h, hk _⟩)
    | false =>
        obtain ⟨hretries, hcompared⟩ := hfail { a with log := .compared path false :: a.log } rfl
        exact .inr (.inl ⟨h, hcompared, hretries⟩)

/-! ## ClientPIN -/

omit [LawfulBackend β] in
theorem still_issuePinUvAuthToken (protocol : PinUvProtocol) (secret : Bytes) (permissions : UInt8)
    (rpId : Option String) :
    Keeps Still (issuePinUvAuthToken protocol secret permissions rpId : Ctap β Bytes) :=
  (still_of_quiet (quiet_randomBytes _)).bind fun _ =>
    (still_of_quiet (quiet_encryptWith _ _ _)).bind fun _ =>
      Keeps.bind (.update fun _ => rfl) fun _ => .pure _

theorem still_storePinHash (mark : Mark) (pin : Bytes) :
    Keeps Still (storePinHash mark pin : Ctap β Unit) := by
  intro a
  have hstorage : ((storePinHash mark pin).run a).2.storage =
      StorageEngine.afterStore pinStorageKey (pinHash a.crypto pin) a.storage :=
    congrArg Prod.snd (StorageEngine.run_store pinStorageKey (pinHash a.crypto pin) a.storage)
  refine Prod.ext ?_ (uncompared_storePinHash mark pin a)
  show ((storePinHash mark pin).run a).2.storage.readRetries = _
  rw [hstorage]
  refine readDecimal_congr ?_ _ _
  rw [(StorageEngine.saved_store pinStorageKey (pinHash a.crypto pin) a.storage).value_eq,
    if_neg (by decide)]

theorem fairAt_handleChangePin (request : ClientPinRequest) (a : Auth β) :
    FairAt (handleChangePin request) a := by
  refine .quiet_bind (quiet_validateProtocol _) fun protocol a₁ h₁ => .ensure_bind fun hset =>
    .ensure_bind fun hleft => .ensure_bind fun hopen => ?_
  have hcheck : a₁.CheckOpen := .of_checks hset hleft hopen
  refine .quiet_bind (quiet_required _) fun peer a₂ h₂ => .quiet_bind (quiet_required _)
    fun pinHashEnc a₃ h₃ => .quiet_bind (quiet_required _) fun newPinEnc a₄ h₄ =>
    .quiet_bind (quiet_required _) fun pinAuth a₅ h₅ => .quiet_bind (quiet_performKeyAgreement _ _)
    fun secret a₆ h₆ => .quiet_bind (quiet_verifyWith _ _ _ _) fun _ a₇ h₇ => ?_
  replace hcheck : a₇.CheckOpen := hcheck.of_core (by rw [h₇, h₆, h₅, h₄, h₃, h₂])
  refine .bind_still (fairAt_checkPinHash hcheck) fun _ =>
    (still_of_quiet (quiet_decryptNewPin _ _ _)).bind fun newPin => ?_
  exact Keeps.bind (.update fun _ => rfl) fun _ =>
    (still_storePinHash .ordinary newPin).bind fun _ => .pure _

theorem fairAt_handleGetPinTokenCommon (request : ClientPinRequest) (protocol : PinUvProtocol)
    (permissions : UInt8) (rpId : Option String) (a : Auth β) :
    FairAt (handleGetPinTokenCommon request protocol permissions rpId) a := by
  refine .ensure_bind fun hset => .ensure_bind fun _ => .ensure_bind fun hleft =>
    .ensure_bind fun hopen => ?_
  have hcheck : a.CheckOpen := .of_checks hset hleft hopen
  refine .quiet_bind (quiet_required _) fun peer a₁ h₁ => .quiet_bind (quiet_required _)
    fun pinHashEnc a₂ h₂ => .quiet_bind (quiet_performKeyAgreement _ _) fun secret a₃ h₃ => ?_
  replace hcheck : a₃.CheckOpen := hcheck.of_core (by rw [h₃, h₂, h₁])
  exact .bind_still (fairAt_checkPinHash hcheck) fun _ =>
    (still_issuePinUvAuthToken _ _ _ _).bind fun _ => .pure _

/-- With a PIN set, every subcommand of ClientPIN is fair. -/
theorem fairAt_handleClientPin (data : Bytes) {a : Auth β} (hset : a.storage.isPinSet = true) :
    FairAt (handleClientPin build data) a := by
  refine .check_bind fun request _ => ?_
  unfold clientPinSubCommand
  split
  · exact .of_keeps (still_of_quiet quiet_handleGetRetries) a
  · exact .of_keeps (still_of_quiet (quiet_handleGetKeyAgreement request)) a
  · refine .quiet_bind (quiet_validateProtocol _) fun _ b hcore => .ensure_bind fun hunset => ?_
    rw [show b.storage = a.storage from congrArg Core.storage hcore, hset] at hunset
    cases hunset
  · exact fairAt_handleChangePin request a
  · exact .quiet_bind (quiet_validateProtocol _) fun _ _ _ => .ensure_bind fun _ =>
      fairAt_handleGetPinTokenCommon _ _ _ _ _
  · refine .of_still (still_of_moves (K := {.save uvRetriesKey, .issue}) ?_ ?_
      (moves_handleGetUvToken request (by simp) (by simp) a))
    · simp [pinRetriesKey, uvRetriesKey]
    · simp
  · exact .of_keeps (still_of_quiet quiet_handleGetUvRetries) a
  · exact .quiet_bind (quiet_validateProtocol _) fun _ _ _ => .quiet_bind (quiet_required _)
      fun _ _ _ => .quiet_bind (quiet_validatePermissions _) fun _ _ _ =>
        .quiet_bind (quiet_requireRpId _ _) fun _ _ _ => fairAt_handleGetPinTokenCommon _ _ _ _ _
  · exact .of_keeps (.fail _) a

/-! ## AuthenticatorConfig -/

/-- The hash that setMinPINLength compares, if the request gets that far. -/
def currentPinHash (a : Auth β) (data : Bytes) : Option Bytes := do
  let request ← (AuthnrConfigRequest.decode build.cbor data).toOption
  let protocol ← request.pinUvAuthProtocol
  let pinAuth ← request.pinUvAuthParam
  let message ← (authnrConfigAuthMessage build.cbor data).toOption
  let _ ← (verifyPinUvAuthForOperation a (some protocol) (some pinAuth) message permissionAcfg
    none).toOption
  let params ← if request.subCommand = 0x03 then (setMinPinLengthParams request.params).toOption
    else none
  let encrypted ← params.currentPin
  let secret ← a.pinSharedSecret
  let pin ← (decryptCurrentPin a.crypto secret encrypted).toOption
  some (pinHash a.crypto pin)

/-- The kinds of moves of AuthenticatorConfig, without the comparison. -/
def settingKinds : Set Kind := configKinds \ {.compare .currentPin}

theorem settingKinds_still :
    Kind.save pinRetriesKey ∉ settingKinds ∧ ∀ path, Kind.compare path ∉ settingKinds := by
  refine ⟨?_, fun path => ?_⟩
  · simp [settingKinds, configKinds, pinRetriesKey, cfgAlwaysUvKey, cfgMakeCredUvNotRqdKey,
      cfgMinPinLengthKey, cfgMinPinLengthRpidsKey, cfgForceChangePinKey, cfgEpPendingKey]
  · simp only [settingKinds, configKinds, Set.mem_sdiff, Set.mem_insert_iff, Set.mem_singleton_iff,
      reduceCtorEq, false_or, not_and, not_not, imp_self]

theorem still_of_settings {α : Type} {m : Ctap β α} (h : Keeps (Moves settingKinds) m) :
    Keeps Still m :=
  h.mono fun _ _ => still_of_moves settingKinds_still.1 settingKinds_still.2

/-- What follows the comparison in setMinPINLength leaves the counter alone. -/
theorem still_storeMinPinLength (params : SetMinPinLengthParams) :
    Keeps Still (do
      persist .ordinary (StorageEngine.store cfgMinPinLengthKey [UInt8.ofNat params.newMin])
      params.rpids.elim (pure ()) (storeRpids build)
      if params.forceChange then setFlag cfgForceChangePinKey
      else clearFlag cfgForceChangePinKey : Ctap β Unit) := by
  refine still_of_settings ?_
  refine (moves_storePlain _ (by decide) (by simp [settingKinds, configKinds])).bind fun _ =>
    Keeps.bind ?_ fun _ => ?_
  · cases params.rpids with
    | none => exact .pure ()
    | some rpids => exact moves_storePlain _ (by decide) (by simp [settingKinds, configKinds])
  · have hforce : Kind.save cfgForceChangePinKey ∈ settingKinds := by
      simp [settingKinds, configKinds]
    split
    · exact fun _ => moves_setFlag hforce (.plain _ _ (by decide))
    · exact fun _ => moves_clearFlag hforce (.plain _ _ (by decide))

omit [LawfulBackend β] in
/-- A comparison of `currentPIN` that matches while a check is open is fair. -/
theorem fairAt_verifyCurrentPin {encrypted : Bytes} {a : Auth β}
    (h : ∀ secret pin, a.pinSharedSecret = some secret →
      decryptCurrentPin a.crypto secret encrypted = .ok pin →
      a.CheckOpen ∧ a.storage.value pinStorageKey = some (pinHash a.crypto pin)) :
    FairAt (verifyCurrentPin encrypted) a := by
  unfold FairAt verifyCurrentPin
  have hcore : ({ a with pinSharedSecret := none } : Auth β).core = a.core := rfl
  cases hsecret : a.pinSharedSecret with
  | none =>
      have hrun : (takePinSharedSecret : Ctap β _).run a =
          (.error .pinAuthInvalid, { a with pinSharedSecret := none }) := by
        simp only [takePinSharedSecret, Prog.run_act_bind, hsecret, Prog.run_check]
        rfl
      rw [Prog.run_bind_of_error hrun]
      exact .of_still rfl
  | some secret =>
      have hrun : (takePinSharedSecret : Ctap β _).run a =
          (.ok secret, { a with pinSharedSecret := none }) := by
        simp only [takePinSharedSecret, Prog.run_act_bind, hsecret, Prog.run_check]
        rfl
      rw [Prog.run_bind_of_ok hrun]
      refine Fair.core_left (b := { a with pinSharedSecret := none }) ?_ hcore
      refine FairAt.check_bind fun pin hpin => .ensure_bind fun _ => .read_bind ?_
      obtain ⟨hopen, hstored⟩ := h secret pin hsecret hpin
      have hcompare : (comparePinHash .currentPin (pinHash a.crypto pin)).run
          { a with pinSharedSecret := none } = (.ok (some true),
            { a with pinSharedSecret := none, log := .compared .currentPin true :: a.log }) := by
        unfold comparePinHash
        rw [Prog.run_act]
        simp only [hstored, decide_true]
      unfold FairAt
      rw [Prog.run_bind_of_ok hcompare]
      exact .inr (.inr ⟨hopen.of_core hcore, rfl⟩)

/-- AuthenticatorConfig is fair if the PIN it compares, if any, matches while a check is open. -/
theorem fairAt_handleAuthnrConfig (data : Bytes) {a : Auth β}
    (h : ∀ hash, currentPinHash build a data = some hash →
      a.CheckOpen ∧ a.storage.value pinStorageKey = some hash) :
    FairAt (handleAuthnrConfig build data) a := by
  refine .check_bind fun request hrequest => .ensure_bind fun hset => .check_bind fun protocol
    hprotocol => .check_bind fun pinAuth hpinAuth => .check_bind fun message hmessage =>
    .check_bind fun verified hverified => ?_
  unfold authnrConfigSubCommand
  split
  · exact .of_keeps (still_of_settings fun _ => moves_setFlag (by simp [settingKinds, configKinds])
      (.plain _ _ (by decide))) a
  · next hsub =>
      obtain ⟨hretries, hcompare⟩ := settingKinds_still
      refine .of_still (still_of_moves hretries hcompare (moves_toggleFlag
        (K := settingKinds) (by simp [settingKinds, configKinds]) fun v => .alwaysUv v ?_))
      show a.storage.isPinSet = true
      simpa [hsub] using hset
  · next hsub =>
      refine .check_bind fun params hparams => .bind_still ?_ fun _ =>
        still_storeMinPinLength build params
      cases hcurrent : params.currentPin with
      | none => exact .of_keeps (.pure ()) a
      | some encrypted =>
          refine fairAt_verifyCurrentPin fun secret pin hsecret hpin => h _ ?_
          rw [Option.elim_error_eq_ok] at hprotocol hpinAuth
          simp only [currentPinHash, hrequest, hprotocol, hpinAuth, hmessage, hverified, hsub,
            hparams, hcurrent, hsecret, hpin, Except.toOption, Option.bind_eq_bind,
            Option.bind_some, if_true]
  · exact .of_keeps
      (still_of_settings fun _ => moves_toggleFlag (by simp [settingKinds, configKinds])
      fun v => .plain _ v (by decide)) a
  · exact .of_keeps (still_of_settings ((Keeps.check _).bind fun _ =>
      moves_storePlain _ (by decide) (by simp [settingKinds, configKinds]))) a
  · exact .of_keeps (.fail _) a

/-! ## Calls -/

/-- The call does not reach a path that lacks a check. -/
def Compliant (a : Auth β) : Call → Prop
  | .input (.command cmd data) => Ctap2Command.fromU8 cmd = .authenticatorConfig →
      ∀ hash, currentPinHash build a data = some hash → a.CheckOpen ∧ a.storedPin = some hash
  | .input .powerCycle => True
  | .setPin pin => pinLengthOk pin = false
  | .changePin _ newPin => pinLengthOk newPin = false ∨ ¬a.CheckClosed
  | .verifyPin _ => a.isPinAuthBlocked = true ∨ a.storage.readRetries ≠ 0

omit [LawfulBackend β] in
theorem CheckOpen.of_not_closed {a : Auth β} (hset : a.storage.isPinSet = true)
    (h : ¬a.CheckClosed) : a.CheckOpen := by
  unfold CheckClosed isPinAuthBlocked at h
  simp only [not_or, decide_eq_true_eq, Nat.not_le] at h
  exact ⟨hset, h.1, h.2⟩

omit [LawfulBackend β] in
theorem setPin_refused {pin : Bytes} (a : Auth β) (h : pinLengthOk pin = false) :
    ((setPin pin).run a).2 = a := by
  unfold setPin
  rw [Prog.run_bind_of_error (Prod.ext (by rw [h]; rfl) rfl)]
  rfl

theorem fair_changePin {oldPin newPin : Bytes} {a : Auth β} (hset : a.storage.isPinSet = true)
    (h : pinLengthOk newPin = false ∨ ¬a.CheckClosed) : FairAt (changePin oldPin newPin) a := by
  refine .ensure_bind fun hlength => .ensure_bind fun _ => .read_bind ?_
  rcases h with hshort | hclosed
  · rw [hshort] at hlength
    cases hlength
  · exact fairAt_compareFirst (.of_not_closed hset hclosed)
      ((uncompared_resetPinRetries _).bind fun _ => (uncompared_storePinHash _ _).bind fun _ =>
        .update fun _ => rfl)

theorem fair_verifyPin {pin : Bytes} {a : Auth β} (hset : a.storage.isPinSet = true)
    (h : a.isPinAuthBlocked = true ∨ a.storage.readRetries ≠ 0) : FairAt (verifyPin pin) a := by
  refine .ensure_bind fun _ => .ensure_bind fun hopen => .read_bind ?_
  rcases h with hblocked | hleft
  · rw [hblocked] at hopen
    cases hopen
  · refine fairAt_compareFirst (.of_checks hset ?_ hopen) (uncompared_resetPinRetries _)
    simpa [getPinRetries] using hleft

/-- A command other than Reset that complies is fair. -/
theorem fair_command {a : Auth β} {cmd : UInt8} {data : Bytes} (hset : a.storage.isPinSet = true)
    (hcmd : Ctap2Command.fromU8 cmd ≠ .reset)
    (h : Compliant build a (.input (.command cmd data))) :
    Fair a (a.step build (.command cmd data)) := by
  by_cases hpin : Ctap2Command.fromU8 cmd = .clientPin
  · obtain ⟨a', hcore, hrun⟩ := run_processCommand build cmd data a
    have hstep : a.step build (.command cmd data) = ((handleClientPin build data).run a').2 := by
      show ((processCommand build cmd data).run a).2 = _
      rw [hrun, hpin, dispatch, Prog.run_map]
    have hstorage : a'.storage = a.storage := congrArg Core.storage hcore
    rw [hstep]
    exact (fairAt_handleClientPin build data (hstorage ▸ hset)).core_left hcore
  by_cases hconfig : Ctap2Command.fromU8 cmd = .authenticatorConfig
  · have hrun := run_processCommand_of_ne build data a (by rw [hconfig]; decide)
    have hstep : a.step build (.command cmd data) =
        ((handleAuthnrConfig build data).run { a with hmacSecretSession := none }).2 := by
      show ((processCommand build cmd data).run a).2 = _
      rw [hrun, hconfig, dispatch, Prog.run_map]
    rw [hstep]
    exact Fair.core_left (fairAt_handleAuthnrConfig build data
      (a := { a with hmacSecretSession := none })
      fun hash hhash => (h hconfig hash hhash).imp_left (·.of_core rfl)) rfl
  · refine .of_still (still_of_moves ?_ ?_ (moves_step build data hcmd a))
    · generalize Ctap2Command.fromU8 cmd = command at hpin hconfig
      cases command with
      | clientPin => exact absurd rfl hpin
      | authenticatorConfig => exact absurd rfl hconfig
      | _ => simp [commandKinds, makeCredentialKinds, assertionKinds, pinRetriesKey,
          cfgEpPendingKey, signCounterStorageKey]
    · generalize Ctap2Command.fromU8 cmd = command at hpin hconfig
      cases command with
      | clientPin => exact absurd rfl hpin
      | authenticatorConfig => exact absurd rfl hconfig
      | _ => simp [commandKinds, makeCredentialKinds, assertionKinds]

/-! ## What every call keeps -/

/-- The moves that keep the storage in step with its backend, and the PIN set. -/
def Kept : Prog.Frame (Auth β) where
  rel a b := (a.storage.Synced → b.storage.Synced) ∧
    (a.storage.isPinSet = true → b.storage.isPinSet = true) ∧
    b.storage.backend.isSome = a.storage.backend.isSome
  refl _ := ⟨id, id, rfl⟩
  trans h₁ h₂ := ⟨h₂.1 ∘ h₁.1, h₂.2.1 ∘ h₁.2.1, h₂.2.2.trans h₁.2.2⟩

theorem kept_of_moves {K : Set Kind} {a b : Auth β} (h : (Moves K).rel a b) : Kept.rel a b := by
  refine ⟨fun hs => ?_, isPinSet_of_moves h, ?_⟩
  · exact moves_invariant (P := fun c => c.storage.Synced) (fun _ _ hmove => hmove.synced) h hs
  · exact moves_invariant (P := fun c => c.storage.backend.isSome = a.storage.backend.isSome)
      (fun _ _ hmove heq => hmove.backend.trans heq) h rfl

theorem kept_of_saved {a b : Auth β} {key : String} {v : Bytes}
    (h : StorageEngine.Saved key (some v) a.storage b.storage) : Kept.rel a b := by
  refine ⟨h.synced, fun hset => ?_, h.backend⟩
  unfold StorageEngine.isPinSet at hset ⊢
  rw [h.value_eq]
  split
  · rfl
  · exact hset

theorem kept_onStorage_store {ε : Type} {f : EngineError → ε} (mark : Mark) (key : String)
    (v : Bytes) : Keeps Kept (Prog.mapError f (onStorage mark (StorageEngine.store key v)) :
      Prog (Auth β) ε Unit) := by
  intro a
  exact kept_of_saved (StorageEngine.saved_run_store key v a.storage)

theorem kept_storePinHash (mark : Mark) (pin : Bytes) :
    Keeps Kept (storePinHash mark pin : Ctap β Unit) :=
  (Keeps.read _).bind fun _ => kept_onStorage_store mark _ _

theorem kept_persistIgnored (mark : Mark) (key : String) (v : Bytes) :
    Keeps Kept (persistIgnored mark (StorageEngine.store key v) : Ctap β Unit) :=
  fun a => kept_onStorage_store (f := fun _ => Ctap2Error.unknown) mark key v a

theorem kept_resetPinRetries (mark : Mark) : Keeps Kept (resetPinRetries mark : Ctap β Unit) :=
  Keeps.bind (.update fun a => Kept.refl a) fun _ => kept_persistIgnored mark _ _

theorem kept_missed : Keeps Kept (do decrementPinRetries .ordinary; failPin : Ctap β Unit) :=
  ((Keeps.read _).bind fun _ => kept_persistIgnored _ _ _).bind fun _ =>
    Keeps.bind (.update fun a => Kept.refl a) fun _ => .check _

theorem kept_comparePinHash (path : PinPath) (submitted : Bytes) :
    Keeps Kept (comparePinHash path submitted : Ctap β (Option Bool)) := by
  refine .act fun a => ?_
  split
  · exact Kept.refl a
  · exact Kept.refl a

theorem kept_setPin (pin : Bytes) : Keeps Kept (setPin pin : Ctap β Unit) :=
  (Keeps.ensure _ _).bind fun _ => (kept_storePinHash _ _).bind fun _ =>
    (kept_resetPinRetries _).bind fun _ => .update fun a => Kept.refl a

theorem kept_changePin (oldPin newPin : Bytes) :
    Keeps Kept (changePin oldPin newPin : Ctap β Unit) :=
  (Keeps.ensure _ _).bind fun _ => (Keeps.ensure _ _).bind fun _ => (Keeps.read _).bind fun _ =>
    (kept_comparePinHash _ _).bind fun _ => .ite
      (fun _ => (kept_resetPinRetries _).bind fun _ => (kept_storePinHash _ _).bind fun _ =>
        .update fun a => Kept.refl a)
      fun _ => kept_missed

theorem kept_verifyPin (pin : Bytes) : Keeps Kept (verifyPin pin : Ctap β Unit) :=
  (Keeps.ensure _ _).bind fun _ => (Keeps.ensure _ _).bind fun _ => (Keeps.read _).bind fun _ =>
    (kept_comparePinHash _ _).bind fun _ => .ite (fun _ => kept_resetPinRetries _)
      fun _ => kept_missed

/-- Every call keeps the storage in step with its backend. -/
theorem synced_call {a : Auth β} (h : a.storage.Synced) (call : Call) :
    (a.call build call).storage.Synced := by
  cases call with
  | input input =>
      cases input with
      | powerCycle => exact synced_reopen build a.storage
      | command cmd data =>
          by_cases hcmd : Ctap2Command.fromU8 cmd = .reset
          · obtain ⟨-, hsame⟩ | ⟨-, hcleared⟩ := reset_step build data hcmd a
            · have hstorage : (a.step build (.command cmd data)).storage = a.storage :=
                congrArg Core.storage hsame
              exact hstorage ▸ h
            · exact hcleared.synced
          · exact (kept_of_moves (moves_step build data hcmd a)).1 h
  | setPin pin => exact (kept_setPin pin a).1 h
  | changePin oldPin newPin => exact (kept_changePin oldPin newPin a).1 h
  | verifyPin pin => exact (kept_verifyPin pin a).1 h

theorem Reachable.synced {a : Auth β} (h : Reachable build a) : a.storage.Synced := by
  obtain ⟨start, cs, hblank, rfl⟩ := h
  have hstart := hblank.storage.synced
  clear hblank
  induction cs generalizing start with
  | nil => exact hstart
  | cons call cs ih => exact ih (start.call build call) (synced_call build hstart call)

/-! ## The rules -/

/-- The call asks for a PIN to be compared. -/
def AsksForCheck (a : Auth β) : Call → Prop
  | .input (.command cmd data) =>
      (Ctap2Command.fromU8 cmd = .clientPin ∧ ∃ request,
        ClientPinRequest.decode build.cbor data = .ok request ∧ ChecksPin request) ∨
      (Ctap2Command.fromU8 cmd = .authenticatorConfig ∧
        (currentPinHash build a data).isSome = true)
  | .input .powerCycle => False
  | .setPin _ => False
  | .changePin _ _ => True
  | .verifyPin _ => True

/-- The call fails. -/
def Fails (a : Auth β) : Call → Prop
  | .input (.command cmd data) => ∃ error, (a.exchange build cmd data).result = .error error
  | .input .powerCycle => False
  | .setPin pin => ∃ error, ((setPin pin).run a).1 = .error error
  | .changePin oldPin newPin => ∃ error, ((changePin oldPin newPin).run a).1 = .error error
  | .verifyPin pin => ∃ error, ((verifyPin pin).run a).1 = .error error

/-- The retry rules, for one call. -/
structure ObeysRetryRules (a : Auth β) (call : Call) : Prop where
  /-- Without a retry, or blocked, a check is refused before anything is compared. -/
  refused : a.CheckClosed → (AsksForCheck build a call → Fails build a call) ∧
    comparisons (a.call build call).log = comparisons a.log
  /-- A call compares at most once. -/
  once : ∃ new, comparisons (a.call build call).log = new ++ comparisons a.log ∧ new.length ≤ 1
  /-- A mismatch costs a retry. -/
  mismatch : comparisons (a.call build call).log = false :: comparisons a.log →
    (a.call build call).storage.readRetries + 1 = a.storage.readRetries
  /-- `set_pin` does not replace the PIN. -/
  keepsPin : ∀ pin, call = .setPin pin → (a.call build call).storedPin = a.storedPin

/-- A property of every step of a run. -/
def Along (P : Auth β → Call → Prop) : Auth β → List Call → Prop
  | _, [] => True
  | a, call :: cs => P a call ∧ Along P (a.call build call) cs

section Steps

variable {a : Auth β} {call : Call}

/-- The storage outlives a power cycle, if the call is one. -/
def Lasting (a : Auth β) (call : Call) : Prop :=
  a.storage.backend.isSome = true ∨ call ≠ .input .powerCycle

theorem fair_call (hset : a.storage.isPinSet = true) (hsynced : a.storage.Synced)
    (hlasting : Lasting a call) (hreset : call.isReset = false) (h : Compliant build a call) :
    Fair a (a.call build call) := by
  cases call with
  | input input =>
      cases input with
      | powerCycle =>
          have hbackend : a.storage.backend.isSome = true := hlasting.resolve_right (· rfl)
          refine .inl ⟨rfl, Nat.le_of_eq ?_⟩
          exact readDecimal_congr (value_reopen build hbackend hsynced systemKey_retries) _ _
      | command cmd data => exact fair_command build hset (of_decide_eq_false hreset) h
  | setPin pin =>
      show Fair a ((setPin pin).run a).2
      rw [setPin_refused a h]
      exact .of_still rfl
  | changePin oldPin newPin => exact fair_changePin hset h
  | verifyPin pin => exact fair_verifyPin hset h

theorem isPinSet_call (hset : a.storage.isPinSet = true) (hsynced : a.storage.Synced)
    (hlasting : Lasting a call) (hreset : call.isReset = false) :
    (a.call build call).storage.isPinSet = true ∧
      (a.call build call).storage.backend.isSome = a.storage.backend.isSome := by
  cases call with
  | input input =>
      cases input with
      | powerCycle =>
          have hbackend : a.storage.backend.isSome = true := hlasting.resolve_right (· rfl)
          refine ⟨?_, congrArg Option.isSome (backend_reopen build a.storage)⟩
          show ((reopen build a.storage).value pinStorageKey).isSome = true
          rw [value_reopen build hbackend hsynced systemKey_pin]
          exact hset
      | command cmd data =>
          have hkept := kept_of_moves (moves_step build data (of_decide_eq_false hreset) a)
          exact ⟨hkept.2.1 hset, hkept.2.2⟩
  | setPin pin => exact ⟨(kept_setPin pin a).2.1 hset, (kept_setPin pin a).2.2⟩
  | changePin oldPin newPin =>
      exact ⟨(kept_changePin oldPin newPin a).2.1 hset, (kept_changePin oldPin newPin a).2.2⟩
  | verifyPin pin => exact ⟨(kept_verifyPin pin a).2.1 hset, (kept_verifyPin pin a).2.2⟩

omit [LawfulBackend β] in
/-- A call that complies is refused when no check may start. -/
theorem fails_of_closed (hclosed : a.CheckClosed) (h : Compliant build a call)
    (hasks : AsksForCheck build a call) : Fails build a call := by
  cases call with
  | input input =>
      cases input with
      | powerCycle => exact hasks.elim
      | command cmd data =>
          obtain ⟨hcmd, request, hdecode, hsub⟩ | ⟨hcmd, hsome⟩ := hasks
          · exact (refused_command build hclosed hcmd hdecode hsub).1
          · obtain ⟨hash, hhash⟩ := Option.isSome_iff_exists.mp hsome
            have hopen := (h hcmd hash hhash).1
            refine (hclosed.elim ?_ ?_).elim
            · simpa [getPinRetries] using hopen.retryLeft
            · simpa [isPinAuthBlocked] using hopen.notBlocked
  | setPin pin => exact hasks.elim
  | changePin oldPin newPin =>
      have hshort : pinLengthOk newPin = false := h.resolve_right (· hclosed)
      have hrefuses : Refuses (changePin oldPin newPin) a := .ensure_bind fun hlength => by
        rw [hshort] at hlength
        cases hlength
      obtain ⟨error, b, hrun, -⟩ := hrefuses
      exact ⟨error, congrArg Prod.fst hrun⟩
  | verifyPin pin =>
      have hblocked : a.isPinAuthBlocked = true := by
        rcases h with hblocked | hleft
        · exact hblocked
        · exact hclosed.resolve_left hleft
      have hrefuses : Refuses (verifyPin pin) a := .ensure_bind fun _ =>
        .ensure_bind fun hopen => by
        rw [hblocked] at hopen
        cases hopen
      obtain ⟨error, b, hrun, -⟩ := hrefuses
      exact ⟨error, congrArg Prod.fst hrun⟩

omit [LawfulBackend β] in
theorem Fair.once {a b : Auth β} (h : Fair a b) :
    ∃ new, comparisons b.log = new ++ comparisons a.log ∧ new.length ≤ 1 := by
  obtain ⟨hsame, -⟩ | ⟨-, hfalse, -⟩ | ⟨-, htrue⟩ := h
  · exact ⟨[], hsame, Nat.zero_le 1⟩
  · exact ⟨[false], hfalse, Nat.le_refl 1⟩
  · exact ⟨[true], htrue, Nat.le_refl 1⟩

omit [LawfulBackend β] in
theorem Fair.mismatch {a b : Auth β} (h : Fair a b)
    (hnew : comparisons b.log = false :: comparisons a.log) :
    b.storage.readRetries + 1 = a.storage.readRetries := by
  obtain ⟨hsame, -⟩ | ⟨-, -, hretries⟩ | ⟨-, htrue⟩ := h
  · rw [hsame] at hnew
    exact absurd (congrArg List.length hnew) (by simp)
  · exact hretries
  · rw [htrue] at hnew
    cases hnew

omit [LawfulBackend β] in
theorem CheckOpen.not_closed {a : Auth β} (h : a.CheckOpen) : ¬a.CheckClosed := by
  rintro (hzero | hblocked)
  · exact h.retryLeft hzero
  · exact absurd (of_decide_eq_true hblocked) (Nat.not_le.mpr h.notBlocked)

omit [LawfulBackend β] in
theorem Fair.closed {a b : Auth β} (h : Fair a b) (hclosed : a.CheckClosed) :
    comparisons b.log = comparisons a.log := by
  obtain ⟨hsame, -⟩ | ⟨hopen, -⟩ | ⟨hopen, -⟩ := h
  · exact hsame
  · exact absurd hclosed hopen.not_closed
  · exact absurd hclosed hopen.not_closed

theorem obeys_call (hset : a.storage.isPinSet = true) (hsynced : a.storage.Synced)
    (hlasting : Lasting a call) (hreset : call.isReset = false) (h : Compliant build a call) :
    ObeysRetryRules build a call := by
  have hfair := fair_call build hset hsynced hlasting hreset h
  refine ⟨fun hclosed => ⟨fails_of_closed build hclosed h, hfair.closed hclosed⟩, hfair.once,
    hfair.mismatch, ?_⟩
  rintro pin rfl
  show storedPin ((setPin pin).run a).2 = _
  rw [setPin_refused a h]

end Steps

/-- In a run whose calls all comply, every call obeys the rules, and without the right PIN there
are at most as many comparisons as there were retries. -/
theorem retry_rules_everywhere (a : Auth β) (hreachable : Reachable build a)
    (hset : a.storage.isPinSet = true) (cs : List Call) (hreset : ∀ call ∈ cs, call.isReset = false)
    (hlasting : a.storage.backend.isSome = true ∨ Call.input .powerCycle ∉ cs)
    (hcompliant : Along build (Compliant build) a cs) :
    Along build (ObeysRetryRules build) a cs ∧
      ∃ new, comparisons (a.calls build cs).log = new ++ comparisons a.log ∧
        (true ∉ new → new.length ≤ a.storage.readRetries) := by
  have hsynced := hreachable.synced
  clear hreachable
  induction cs generalizing a with
  | nil => exact ⟨trivial, [], rfl, fun _ => Nat.zero_le _⟩
  | cons call cs ih =>
      obtain ⟨hfirst, hrest⟩ := hcompliant
      have hcall : call.isReset = false := hreset call List.mem_cons_self
      have hlast : Lasting a call := hlasting.imp_right fun hmem heq =>
        hmem (heq ▸ List.mem_cons_self)
      obtain ⟨hset', hbackend⟩ := isPinSet_call build hset hsynced hlast hcall
      have hfair := fair_call build hset hsynced hlast hcall hfirst
      obtain ⟨hobeys, new, hnew, hbound⟩ := ih (a.call build call) hset'
        (fun c hc => hreset c (List.mem_cons_of_mem _ hc))
        (hlasting.imp (fun h => hbackend.trans h) fun h hc => h (List.mem_cons_of_mem _ hc)) hrest
        (synced_call build hsynced call)
      refine ⟨⟨obeys_call build hset hsynced hlast hcall hfirst, hobeys⟩, ?_⟩
      show ∃ new, comparisons ((a.call build call).calls build cs).log = _ ∧ _
      rw [hnew]
      obtain ⟨hsame, hle⟩ | ⟨-, hfalse, hretries⟩ | ⟨-, htrue⟩ := hfair
      · exact ⟨new, by rw [hsame], fun hmem => (hbound hmem).trans hle⟩
      · refine ⟨new ++ [false], by rw [hfalse, List.append_assoc]; rfl, fun hmem => ?_⟩
        have hnew' := hbound fun h => hmem (List.mem_append_left _ h)
        rw [List.length_append, List.length_singleton]
        omega
      · refine ⟨new ++ [true], by rw [htrue, List.append_assoc]; rfl, fun hmem => ?_⟩
        exact absurd (List.mem_append_right _ (List.mem_singleton_self true)) hmem

/-- The sample device with the PIN 1234. -/
def pinDevice : Auth KvMap := memoryDevice.calls sampleBuild [.setPin (utf8 "1234")]

theorem reachable_pinDevice : Reachable sampleBuild pinDevice :=
  ⟨memoryDevice, [.setPin (utf8 "1234")], blank_memoryDevice, rfl⟩

set_option maxRecDepth 100000 in
/-- A wrong PIN and the right one, through the trait. -/
theorem retry_rules_everywhere_sample :
    Along sampleBuild (ObeysRetryRules sampleBuild) pinDevice
      [.verifyPin (utf8 "5678"), .verifyPin (utf8 "1234")] :=
  (retry_rules_everywhere sampleBuild pinDevice reachable_pinDevice (by decide +kernel)
    [.verifyPin (utf8 "5678"), .verifyPin (utf8 "1234")] (by decide) (.inr (by decide))
    ⟨.inr (by decide +kernel), .inr (by decide +kernel), trivial⟩).1

set_option maxRecDepth 100000 in
/-- `set_pin` replaces a PIN that is set. -/
theorem set_pin_replaces_pin :
    ¬∀ a : Auth KvMap, Reachable sampleBuild a → a.storage.isPinSet = true →
      ∀ call : Call, call.isReset = false → ObeysRetryRules sampleBuild a call := by
  intro h
  have hkeeps := (h pinDevice reachable_pinDevice (by decide +kernel) (.setPin (utf8 "5678"))
    rfl).keepsPin _ rfl
  exact absurd hkeeps (by decide +kernel)

end Auth

end OpenKey
