import OpenKey.Ctap2.Enumeration

/-!
# alwaysUv

With the setting alwaysUv on, MakeCredential and GetAssertion insist on user verification: the
option `uv` must be asked for, a PIN is set, and so the token must verify. GetNextAssertion takes
its flags from the GetAssertion that opened the enumeration, whatever the setting was then. The
setting is therefore respected as long as it is not turned on while an enumeration that was opened
without user verification has a match left, and no MakeCredential gives such an enumeration another
match while the setting is on.
-/

namespace OpenKey

open Prog (Keeps KeepsAt)

set_option autoImplicit false

namespace Auth

variable {β : Type} [StorageBackend β] (build : Build)

/-! ## Turning the setting on -/

/-- The data is a request to toggle alwaysUv that the token in force authorises. -/
def TogglesAlwaysUv (a : Auth β) (data : Bytes) : Prop :=
  ∃ request protocol pinAuth message verified,
    AuthnrConfigRequest.decode build.cbor data = .ok request ∧ request.subCommand = 0x02 ∧
    a.storage.isPinSet = true ∧ request.pinUvAuthProtocol = some protocol ∧
    request.pinUvAuthParam = some pinAuth ∧
    authnrConfigAuthMessage build.cbor data = .ok message ∧
    verifyPinUvAuthForOperation a (some protocol) (some pinAuth) message permissionAcfg none =
      .ok verified

variable [LawfulBackend β]

/-- The moves that leave alwaysUv alone. -/
def SameAlwaysUv : Prog.Frame (Auth β) := .constant fun a => a.storage.isAlwaysUv

theorem sameAlwaysUv_of_moves {K : Set Kind} (hK : Kind.save cfgAlwaysUvKey ∉ K) {a b : Auth β}
    (h : (Moves K).rel a b) : b.storage.isAlwaysUv = a.storage.isAlwaysUv := by
  unfold StorageEngine.isAlwaysUv
  rw [value_of_moves systemKey_alwaysUv hK h]

theorem keepsAlwaysUv_of_moves {α : Type} {K : Set Kind} (hK : Kind.save cfgAlwaysUvKey ∉ K)
    {m : Ctap β α} (h : Keeps (Moves K) m) : Keeps SameAlwaysUv m :=
  h.mono fun _ _ => sameAlwaysUv_of_moves hK

/-- AuthenticatorConfig leaves alwaysUv alone unless it is asked to toggle it. -/
theorem sameAlwaysUv_handleAuthnrConfig {data : Bytes} {a : Auth β}
    (h : ¬TogglesAlwaysUv build a data) :
    KeepsAt SameAlwaysUv (handleAuthnrConfig build data) a := by
  refine KeepsAt.check_bind fun request hrequest => .ensure_bind fun hset => ?_
  refine .check_bind fun protocol hprotocol => .check_bind fun pinAuth hpinAuth =>
    .check_bind fun message hmessage => .check_bind fun verified hverified => ?_
  have hflag : ∀ key ∈ plainKeys, key ≠ cfgAlwaysUvKey →
      Keeps SameAlwaysUv (setFlag key : Ctap β Unit) ∧
        Keeps SameAlwaysUv (clearFlag key : Ctap β Unit) := by
    intro key hplain hne
    have hK : Kind.save cfgAlwaysUvKey ∉ ({.save key} : Set Kind) := by
      intro hmem
      exact hne (Kind.save.inj hmem).symm
    exact ⟨keepsAlwaysUv_of_moves hK fun _ => moves_setFlag rfl (.plain _ _ hplain),
      keepsAlwaysUv_of_moves hK fun _ => moves_clearFlag rfl (.plain _ _ hplain)⟩
  have hrpids : ∀ rpids, Keeps SameAlwaysUv (storeRpids build rpids : Ctap β Unit) := fun rpids =>
    keepsAlwaysUv_of_moves (K := {.save cfgMinPinLengthRpidsKey}) (by simp; decide)
      (moves_storePlain _ (by decide) rfl)
  unfold authnrConfigSubCommand
  split
  · exact (hflag cfgEpPendingKey (by decide) (by decide)).1 a
  · next hsub =>
      refine absurd ⟨request, protocol, pinAuth, message, verified, hrequest, hsub, ?_,
        Option.elim_error_eq_ok.mp hprotocol, Option.elim_error_eq_ok.mp hpinAuth, hmessage,
        hverified⟩ h
      simpa [hsub] using hset
  · have hK : Kind.save cfgAlwaysUvKey ∉ minPinLengthKinds := by
      simp only [minPinLengthKinds, Set.mem_insert_iff, Set.mem_singleton_iff, Kind.save.injEq,
        reduceCtorEq, or_false]
      decide
    exact keepsAlwaysUv_of_moves hK (moves_handleSetMinPinLength build _ subset_rfl) a
  · obtain ⟨hon, hoff⟩ := hflag cfgMakeCredUvNotRqdKey (by decide) (by decide)
    exact ((Keeps.read _).bind fun _ => .ite (fun _ => hoff) fun _ => hon) a
  · exact ((Keeps.check _).bind fun rpids => hrpids rpids) a
  · exact SameAlwaysUv.refl a

/-- A command turns alwaysUv on only if it is asked to. -/
theorem alwaysUv_of_command {cmd : UInt8} {data : Bytes} {a : Auth β}
    (h : (a.step build (.command cmd data)).storage.isAlwaysUv = true) :
    a.storage.isAlwaysUv = true ∨
      (Ctap2Command.fromU8 cmd = .authenticatorConfig ∧ TogglesAlwaysUv build a data) := by
  by_cases hreset : Ctap2Command.fromU8 cmd = .reset
  · obtain ⟨-, hcore⟩ | ⟨-, hcleared⟩ := reset_step build data hreset a
    · rw [show (a.step build (.command cmd data)).storage = a.storage from
        congrArg Core.storage hcore] at h
      exact .inl h
    · rw [StorageEngine.isAlwaysUv, hcleared.value _ systemKey_alwaysUv] at h
      cases h
  by_cases hconfig : Ctap2Command.fromU8 cmd = .authenticatorConfig
  · by_cases htoggles : TogglesAlwaysUv build a data
    · exact .inr ⟨hconfig, htoggles⟩
    · have hkeeps : KeepsAt SameAlwaysUv (handleAuthnrConfig build data)
          { a with hmacSecretSession := none } := sameAlwaysUv_handleAuthnrConfig build htoggles
      have hstep : a.step build (.command cmd data) =
          ((handleAuthnrConfig build data).run { a with hmacSecretSession := none }).2 := by
        rw [step, run_processCommand_of_ne build data a (by rw [hconfig]; decide), hconfig]
        exact congrArg Prod.snd (Prog.run_map _ _ _)
      rw [hstep] at h
      exact .inl (hkeeps.symm.trans h)
  · refine .inl ?_
    rw [← sameAlwaysUv_of_moves ?_ (moves_step build data hreset a)]
    · exact h
    · generalize Ctap2Command.fromU8 cmd = command at hconfig
      cases command with
      | authenticatorConfig => exact absurd rfl hconfig
      | _ =>
          simp [commandKinds, makeCredentialKinds, assertionKinds, clientPinKinds, cfgAlwaysUvKey,
            cfgEpPendingKey, signCounterStorageKey, pinStorageKey, pinRetriesKey, uvRetriesKey]

/-! ## The invariant -/

/-- The flags of an enumeration say that the user was verified. -/
def Flagged (state : GetNextAssertionState) : Prop := (state.flags &&& flagUv != 0) = true

/-- The exchange respects an enumeration that was opened without user verification. -/
structure TogglesSafely (x : Exchange β) : Prop where
  /-- It does not turn alwaysUv on while a match is left. -/
  toggles : x.command = .authenticatorConfig → TogglesAlwaysUv build x.before x.data →
    x.before.storage.isAlwaysUv = false → x.before.NextIs Flagged ∨ x.before.Spent
  /-- It is no MakeCredential while alwaysUv is on. -/
  creates : x.command = .makeCredential → x.before.storage.isAlwaysUv = true →
    x.before.NextIs Flagged

/-- The invariant of runs that toggle safely. -/
structure Insisting (past : List (Exchange β)) (a : Auth β) : Prop where
  guarded : Guarded build past a
  flagged : a.storage.isAlwaysUv = true → a.NextIs Flagged ∨ a.Spent

theorem insisting_of_none {past : List (Exchange β)} {a : Auth β} (h : Guarded build past a)
    (hnone : a.getNextAssertionState = none) : Insisting build past a :=
  ⟨h, fun _ => .inr (spent_of_none hnone)⟩

theorem Insisting.command {past : List (Exchange β)} {a : Auth β} (h : Insisting build past a)
    {cmd : UInt8} {data : Bytes} (hx : TogglesSafely build (a.exchange build cmd data)) :
    Insisting build (past ++ [a.exchange build cmd data]) (a.step build (.command cmd data)) := by
  have hguarded := h.guarded.command build cmd data
  refine ⟨hguarded, fun hon => ?_⟩
  -- what was pending before is flagged or spent, in one of two ways
  have hbefore : a.NextIs Flagged ∨ a.Spent := by
    by_cases hold : a.storage.isAlwaysUv = true
    · exact h.flagged hold
    · obtain hon' | ⟨hconfig, htoggles⟩ := alwaysUv_of_command build hon
      · exact absurd hon' hold
      · exact hx.toggles hconfig htoggles (Bool.not_eq_true _ ▸ hold)
  by_cases hgna : Ctap2Command.fromU8 cmd = .getNextAssertion
  · rcases hbefore with hflagged | hspent
    · exact .inl (next_getNextAssertion build (fun _ _ hs => hs) data hgna hflagged)
    · exact .inr (spent_of_none (next_of_spent build data hgna hspent))
  by_cases hopens : (a.exchange build cmd data).opens = true
  · -- the new enumeration was opened with the setting on
    have hga : Ctap2Command.fromU8 cmd = .getAssertion := Exchange.command_of_opens hopens
    obtain ⟨hopens', -⟩ | ⟨-, request, verified, index, -, hnext⟩ :=
      next_getAssertion build data hga a
    · rw [hopens] at hopens'
      cases hopens'
    obtain hold | ⟨hconfig, -⟩ := alwaysUv_of_command build hon
    · refine .inl fun state hstate => (hguarded.next state hstate).uv ?_
      rw [hnext] at hstate
      cases hstate
      show a.credProtectUvSatisfied verified = true
      rw [credProtectUvSatisfied, hold, Bool.or_true]
    · rw [hga] at hconfig
      cases hconfig
  rw [Bool.not_eq_true] at hopens
  by_cases hmake : Ctap2Command.fromU8 cmd = .makeCredential
  · -- MakeCredential does not turn the setting on
    obtain hold | ⟨hconfig, -⟩ := alwaysUv_of_command build hon
    · have hnext := (next_other build data (by rw [hmake]; decide) (by rw [hmake]; decide) hgna a).2
      exact .inl ((hx.creates hmake hold).of_same hnext)
    · rw [hmake] at hconfig
      cases hconfig
  rcases hbefore with hflagged | hspent
  · refine .inl ?_
    by_cases hga : Ctap2Command.fromU8 cmd = .getAssertion
    · obtain ⟨-, hnext⟩ | ⟨hopens', -⟩ := next_getAssertion build data hga a
      · exact hflagged.of_same hnext
      · rw [hopens] at hopens'
        cases hopens'
    by_cases hreset : Ctap2Command.fromU8 cmd = .reset
    · intro state hstate
      rw [(next_reset build data hreset a).2] at hstate
      split at hstate
      · cases hstate
      · exact hflagged state hstate
    · exact hflagged.of_same (next_other build data hreset hga hgna a).2
  · exact .inr (spent_step build data hmake hgna hopens hspent)

/-! ## Answers -/

theorem Insisting.asserts {past : List (Exchange β)} {a : Auth β} (h : Insisting build past a)
    (hon : a.storage.isAlwaysUv = true) {cmd : UInt8} {data : Bytes} {r : GetAssertionResponse}
    (hx : (a.exchange build cmd data).assertion = some r) : uvFlag r.authData = true := by
  obtain ⟨-, request, verified, credential, -, hasserted⟩ | ⟨hgna, state, credential, hnext⟩ :=
    assertion_cases build hx
  · obtain ⟨a₁, a₂, assertion, -, hsigned, hdata, -⟩ := hasserted.signed
    rw [hdata, uvFlag_signed build (length_hashRpId _ _) hsigned, uvFlag_assertionFlags]
    refine hasserted.verified_of_satisfied build h.guarded.always ?_
    rw [credProtectUvSatisfied, hon, Bool.or_true]
  · obtain ⟨a₁, assertion, -, hsigned, hdata⟩ := hnext.signed
    rw [hdata, uvFlag_signed build (CryptoEngine.length_sha256 _ _) hsigned]
    exact (h.flagged hon).resolve_right (not_spent build hx hgna) state hnext.opened

theorem Insisting.creates {past : List (Exchange β)} {a : Auth β} (h : Insisting build past a)
    (hon : a.storage.isAlwaysUv = true) {cmd : UInt8} {data : Bytes} {r : MakeCredentialResponse}
    (hcmd : Ctap2Command.fromU8 cmd = .makeCredential)
    (hresult : (a.exchange build cmd data).result = .ok (.makeCredential r)) :
    uvFlag r.authData = true := by
  obtain ⟨request, verified, -, hcreated⟩ := created_of_result build hcmd hresult
  rw [hcreated.uvFlag]
  exact hcreated.pin (hcreated.always hon) (h.guarded.always hon)

/-- In every run from an empty store that does not turn alwaysUv on while an enumeration without
user verification has a match left, and processes no MakeCredential with the setting on while any
such enumeration is pending, a MakeCredential, GetAssertion or GetNextAssertion that succeeds
while alwaysUv is on has the flag UV. -/
theorem always_uv_holds (a : Auth β) (hblank : a.Blank) (inputs : List Input)
    (past future : List (Exchange β)) (x : Exchange β)
    (hrun : a.trace build inputs = past ++ x :: future)
    (hsafe : ∀ y ∈ past, TogglesSafely build y) (hon : x.before.storage.isAlwaysUv = true) :
    (∀ r, x.assertion = some r → uvFlag r.authData = true) ∧
      ∀ r, x.command = .makeCredential → x.result = .ok (.makeCredential r) →
        uvFlag r.authData = true := by
  have hstart : Insisting build [] a :=
    insisting_of_none build (guarded_blank build hblank) (by rw [hblank.opened]; rfl)
  obtain ⟨b, cmd, data, hinsisting, rfl⟩ := trace_invariant build (P := Insisting build)
    (fun _ _ _ _ h hC => h.command build hC)
    (fun _ _ h => insisting_of_none build (h.guarded.powerCycle build) rfl) hstart hrun hsafe
  exact ⟨fun r hx => hinsisting.asserts build hon hx,
    fun r hcmd hres => hinsisting.creates build hon hcmd hres⟩

set_option maxRecDepth 100000 in
/-- The sample device, with alwaysUv on, asserts under a token. -/
theorem always_uv_holds_sample :
    ∃ r, ((memoryDevice.run sampleBuild (sampleSetup 1 ++ [toggleAlwaysUvCommand,
        getPinTokenCommand])).exchange sampleBuild 0x02
          (getAssertionData verifiedEntries)).assertion =
          some r ∧ uvFlag r.authData = true := by
  have hsome : ((memoryDevice.run sampleBuild (sampleSetup 1 ++ [toggleAlwaysUvCommand,
      getPinTokenCommand])).exchange sampleBuild 0x02
        (getAssertionData verifiedEntries)).assertion.isSome = true := by decide +kernel
  have hon : (memoryDevice.run sampleBuild (sampleSetup 1 ++ [toggleAlwaysUvCommand,
      getPinTokenCommand])).storage.isAlwaysUv = true := by decide +kernel
  have hquiet : (memoryDevice.trace sampleBuild (sampleSetup 1 ++ [toggleAlwaysUvCommand,
      getPinTokenCommand])).all (fun y => y.before.getNextAssertionState.isNone) = true := by
    decide +kernel
  obtain ⟨r, hr⟩ := Option.isSome_iff_exists.mp hsome
  refine ⟨r, hr, (always_uv_holds sampleBuild memoryDevice blank_memoryDevice
    ((sampleSetup 1 ++ [toggleAlwaysUvCommand, getPinTokenCommand]) ++
      [getAssertionCommand verifiedEntries]) _ [] _
    (trace_append sampleBuild memoryDevice (sampleSetup 1 ++ [toggleAlwaysUvCommand,
      getPinTokenCommand]) _) (fun y hy => ?_) hon).1 r hr⟩
  have hnone : y.before.NextIs Flagged := fun state hstate => by
    rw [Option.isNone_iff_eq_none.mp (List.all_eq_true.mp hquiet y hy)] at hstate
    cases hstate
  exact ⟨fun _ _ _ => .inl hnone, fun _ _ => hnone⟩

set_option maxRecDepth 100000 in
/-- On the sample device alwaysUv is turned on between GetAssertion and GetNextAssertion, and the
second assertion comes without user verification. -/
theorem always_uv_missed_by_next_assertion :
    ∃ past x r, memoryDevice.trace sampleBuild
        (sampleSetup 1 ++ [getAssertionCommand [], toggleAlwaysUvCommand] ++
          [getNextAssertionCommand]) = past ++ [x] ∧ x.before.storage.isAlwaysUv = true ∧
      x.assertion = some r ∧ uvFlag r.authData = false := by
  have hon : (memoryDevice.run sampleBuild (sampleSetup 1 ++ [getAssertionCommand [],
      toggleAlwaysUvCommand])).storage.isAlwaysUv = true := by decide +kernel
  have hsome : ((memoryDevice.run sampleBuild (sampleSetup 1 ++ [getAssertionCommand [],
      toggleAlwaysUvCommand])).exchange sampleBuild 0x08 []).assertion.any
        (fun r => !uvFlag r.authData) = true := by decide +kernel
  obtain ⟨r, hr, huv⟩ := (Option.any_eq_true _ _).mp hsome
  exact ⟨_, _, r, trace_snoc sampleBuild memoryDevice _ 0x08 [], hon, hr, by simpa using huv⟩

end Auth

end OpenKey
