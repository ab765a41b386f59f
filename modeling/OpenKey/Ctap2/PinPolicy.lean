import OpenKey.Ctap2.PinPaths
import OpenKey.Ctap2.Within

/-!
# The PIN policy

setMinPINLength stores the minimum length of a PIN and whether the PIN has to be changed. Nothing
but an accepted setMinPINLength writes these two settings, and nothing but Reset, or a power cycle
without a medium, removes them (`policy_call`). setPIN and changePIN, over the wire or by the
methods of `ClientPin`, store the hash of the PIN they are asked to set (`newPin_of_succeeds`).
-/

namespace OpenKey

open Prog (Keeps KeepsAt bind_eq_ok check_eq_ok ensure_eq_ok map_eq_ok)

set_option autoImplicit false

/-! ## The two settings -/

/-- The settings of the policy: the minimum length, and whether a change is forced. -/
def StorageEngine.policy {β : Type} [StorageBackend β] (e : StorageEngine β) :
    Option Bytes × Option Bytes := (e.value cfgMinPinLengthKey, e.value cfgForceChangePinKey)

/-- What setMinPINLength makes of them. -/
def SetMinPinLengthParams.policy (params : SetMinPinLengthParams) : Option Bytes × Option Bytes :=
  (some [UInt8.ofNat params.newMin], if params.forceChange then some [0x31] else none)

namespace Auth

variable {β : Type} [StorageBackend β] (build : Build)

/-- The parameters of a request of setMinPINLength. -/
def setMinPinParams (data : Bytes) : Option SetMinPinLengthParams :=
  match AuthnrConfigRequest.decode build.cbor data with
  | .ok request =>
      if request.subCommand = 0x03 then (setMinPinLengthParams request.params).toOption else none
  | .error _ => none

/-- A call is answered with success. -/
def succeeds (a : Auth β) : Call → Bool
  | .input (.command cmd data) => (a.exchange build cmd data).result.isOk
  | .input .powerCycle => true
  | .setPin pin => ((setPin pin).run a).1.isOk
  | .changePin oldPin newPin => ((changePin oldPin newPin).run a).1.isOk
  | .verifyPin pin => ((verifyPin pin).run a).1.isOk

/-- The parameters of an accepted setMinPINLength. -/
def acceptedParams (a : Auth β) : Call → Option SetMinPinLengthParams
  | .input (.command cmd data) =>
      if Ctap2Command.fromU8 cmd = .authenticatorConfig ∧
        a.succeeds build (.input (.command cmd data)) = true then setMinPinParams build data
      else none
  | _ => none

/-- An accepted Reset, or a power cycle without a medium. -/
def erases (a : Auth β) : Call → Bool
  | .input (.command cmd data) => decide (Ctap2Command.fromU8 cmd = .reset) &&
      a.succeeds build (.input (.command cmd data))
  | .input .powerCycle => a.storage.backend.isNone
  | _ => false

variable [LawfulBackend β]

/-- The moves that leave the policy alone. -/
def SamePolicy : Prog.Frame (Auth β) := .constant fun a => a.storage.policy

theorem policy_of_saved {e e' : StorageEngine β} {key : String} {v : Option Bytes}
    (h : StorageEngine.Saved key v e e') (hmin : key ≠ cfgMinPinLengthKey)
    (hforce : key ≠ cfgForceChangePinKey) : e'.policy = e.policy := by
  unfold StorageEngine.policy
  rw [h.value_eq, h.value_eq, if_neg hmin.symm, if_neg hforce.symm]

theorem policy_of_moves {K : Set Kind} {a b : Auth β} (h : (Moves K).rel a b)
    (hmin : Kind.save cfgMinPinLengthKey ∉ K) (hforce : Kind.save cfgForceChangePinKey ∉ K) :
    b.storage.policy = a.storage.policy := by
  unfold StorageEngine.policy
  rw [value_of_moves systemKey_minPinLength hmin h,
    value_of_moves systemKey_forceChangePin hforce h]

section Store

variable {key : String} (hmin : key ≠ cfgMinPinLengthKey) (hforce : key ≠ cfgForceChangePinKey)

include hmin hforce

theorem samePolicy_onStorage_store {ε : Type} {f : EngineError → ε} (mark : Mark) (v : Bytes) :
    Keeps SamePolicy (Prog.mapError f (onStorage mark (StorageEngine.store key v)) :
      Prog (Auth β) ε Unit) := by
  intro a
  exact policy_of_saved (StorageEngine.saved_run_store key v a.storage) hmin hforce

theorem samePolicy_persist (mark : Mark) (v : Bytes) :
    Keeps SamePolicy (persist mark (StorageEngine.store key v) : Ctap β Unit) :=
  samePolicy_onStorage_store hmin hforce mark v

theorem samePolicy_toggleFlag : Keeps SamePolicy (toggleFlag key : Ctap β Unit) := by
  have hdelete : Keeps SamePolicy (clearFlag key : Ctap β Unit) := by
    intro a
    exact policy_of_saved (StorageEngine.saved_run_delete key a.storage) hmin hforce
  exact (Keeps.read _).bind fun _ => .ite (fun _ => hdelete) fun _ =>
    samePolicy_persist hmin hforce _ _

end Store

omit [LawfulBackend β] in
theorem samePolicy_comparePinHash (path : PinPath) (submitted : Bytes) :
    Keeps SamePolicy (comparePinHash path submitted : Ctap β (Option Bool)) := by
  refine .act fun a => ?_
  split
  · rfl
  · rfl

omit [LawfulBackend β] in
theorem samePolicy_verifyCurrentPin (encrypted : Bytes) :
    Keeps SamePolicy (verifyCurrentPin encrypted : Ctap β Unit) :=
  Keeps.bind ((Keeps.act fun _ => rfl).bind fun _ => .check _) fun _ =>
    (Keeps.check _).bind fun _ => (Keeps.ensure _ _).bind fun _ => (Keeps.read _).bind fun _ =>
      (samePolicy_comparePinHash _ _).bind fun _ => .ensure _ _

/-- The state after an entry is stored. -/
def afterPersist (a : Auth β) (key : String) (v : Bytes) : Auth β :=
  { a with
    storage := StorageEngine.afterStore key v a.storage
    log := .stored (StorageEngine.afterStore key v a.storage) .ordinary :: a.log }

theorem run_persist_store (key : String) (v : Bytes) (a : Auth β) :
    (persist .ordinary (StorageEngine.store key v)).run a = (.ok (), a.afterPersist key v) :=
  run_onStorage_ok (StorageEngine.run_store key v a.storage)

theorem value_afterPersist (a : Auth β) (key key' : String) (v : Bytes) :
    (a.afterPersist key v).storage.value key' =
      if key' = key then some v else a.storage.value key' :=
  (StorageEngine.saved_store key v a.storage).value_eq key'

/-! ## setMinPINLength -/

/-- The list of relying parties leaves the minimum alone. -/
theorem run_storeRpids (rpids : Option (List String)) (a : Auth β) :
    ∃ b, (rpids.elim (pure ()) (storeRpids build) : Ctap β Unit).run a = (.ok (), b) ∧
      b.storage.value cfgMinPinLengthKey = a.storage.value cfgMinPinLengthKey := by
  cases rpids with
  | none => exact ⟨a, rfl, rfl⟩
  | some rpids =>
      refine ⟨_, run_persist_store _ _ a, ?_⟩
      rw [value_afterPersist, if_neg (by decide)]

/-- setMinPINLength fails and leaves the policy alone, or succeeds and sets it. -/
theorem handleSetMinPinLength_cases (params : Option Value) (a : Auth β) :
    ((∃ error, ((handleSetMinPinLength build params).run a).1 = .error error) ∧
        ((handleSetMinPinLength build params).run a).2.storage.policy = a.storage.policy) ∨
      ∃ p, setMinPinLengthParams params = .ok p ∧
        ((handleSetMinPinLength build params).run a).1 = .ok () ∧
        ((handleSetMinPinLength build params).run a).2.storage.policy = p.policy := by
  unfold handleSetMinPinLength
  cases hparams : setMinPinLengthParams params with
  | error error =>
      exact .inl ⟨⟨error, rfl⟩, rfl⟩
  | ok p =>
      have hcheck : (Prog.check fun _ : Auth β => (.ok p : Except Ctap2Error _)).run a =
          (.ok p, a) := rfl
      rw [Prog.run_bind_of_ok hcheck]
      have hverify : Keeps SamePolicy
          (p.currentPin.elim (pure ()) verifyCurrentPin : Ctap β Unit) := by
        cases p.currentPin with
        | none => exact .pure ()
        | some encrypted => exact samePolicy_verifyCurrentPin encrypted
      cases hrun : (p.currentPin.elim (pure ()) verifyCurrentPin : Ctap β Unit).run a with
      | mk result b =>
          have hsame : b.storage.policy = a.storage.policy := hverify.of_run hrun
          cases result with
          | error error =>
              rw [Prog.run_bind_of_error hrun]
              exact .inl ⟨⟨error, rfl⟩, hsame⟩
          | ok _ =>
              -- from here on nothing fails
              rw [Prog.run_bind_of_ok hrun, Prog.run_bind_of_ok (run_persist_store _ _ b)]
              obtain ⟨c, hrpids, hmin⟩ := run_storeRpids build p.rpids
                (b.afterPersist cfgMinPinLengthKey [UInt8.ofNat p.newMin])
              rw [Prog.run_bind_of_ok hrpids]
              rw [value_afterPersist, if_pos rfl] at hmin
              refine .inr ⟨p, rfl, ?_⟩
              by_cases hforce : p.forceChange = true
              · rw [if_pos hforce, setFlag, run_persist_store]
                refine ⟨rfl, ?_⟩
                rw [StorageEngine.policy, value_afterPersist, value_afterPersist, if_pos rfl,
                  if_neg (by decide), hmin, SetMinPinLengthParams.policy, if_pos hforce]
              · rw [if_neg hforce]
                have hsaved : StorageEngine.Saved cfgForceChangePinKey none c.storage
                    ((clearFlag cfgForceChangePinKey : Ctap β Unit).run c).2.storage :=
                  StorageEngine.saved_run_delete _ c.storage
                refine ⟨rfl, ?_⟩
                rw [StorageEngine.policy, hsaved.value_eq, hsaved.value_eq, if_pos rfl,
                  if_neg (by decide), hmin, SetMinPinLengthParams.policy, if_neg hforce]

/-- The policy after a program that sets it only by succeeding. -/
def Sets (params : Option SetMinPinLengthParams) (a : Auth β)
    (run : Except Ctap2Error Unit × Auth β) : Prop :=
  run.2.storage.policy =
    if run.1.isOk = true then params.elim a.storage.policy SetMinPinLengthParams.policy
    else a.storage.policy

omit [LawfulBackend β] in
theorem Sets.of_keeps {m : Ctap β Unit} {a : Auth β} (h : Keeps SamePolicy m) :
    Sets none a (m.run a) := by
  show (m.run a).2.storage.policy = _
  rw [Option.elim_none, ite_self]
  exact h a

theorem sets_handleAuthnrConfig (data : Bytes) (a : Auth β) :
    Sets (setMinPinParams build data) a ((handleAuthnrConfig build data).run a) := by
  have herror : ∀ error, Sets (setMinPinParams build data) a (.error error, a) := fun _ => rfl
  refine Prog.check_bind_elim herror fun request hrequest => ?_
  refine Prog.ensure_bind_elim herror fun _ => ?_
  refine Prog.check_bind_elim herror fun _ _ => Prog.check_bind_elim herror fun _ _ => ?_
  refine Prog.check_bind_elim herror fun _ _ => Prog.check_bind_elim herror fun _ _ => ?_
  have hother : request.subCommand ≠ 0x03 → setMinPinParams build data = none := by
    intro hne
    simp only [setMinPinParams, hrequest, if_neg hne]
  unfold authnrConfigSubCommand
  split
  · next hsub =>
      rw [hother (by rw [hsub]; decide)]
      exact .of_keeps (samePolicy_persist (by decide) (by decide) _ _)
  · next hsub =>
      rw [hother (by rw [hsub]; decide)]
      exact .of_keeps (samePolicy_toggleFlag (by decide) (by decide))
  · next hsub =>
      simp only [setMinPinParams, hrequest, if_pos hsub]
      obtain ⟨⟨error, hresult⟩, hsame⟩ | ⟨p, hp, hresult, hset⟩ :=
        handleSetMinPinLength_cases build request.params a
      · show _ = _
        rw [hresult]
        exact hsame
      · show _ = _
        rw [hresult, hp]
        exact hset
  · next hsub =>
      rw [hother (by rw [hsub]; decide)]
      exact .of_keeps (samePolicy_toggleFlag (by decide) (by decide))
  · next hsub =>
      rw [hother (by rw [hsub]; decide)]
      exact .of_keeps ((Keeps.check _).bind fun _ =>
        samePolicy_persist (by decide) (by decide) _ _)
  · next h₁ h₂ h₃ h₄ h₅ =>
      rw [hother h₃]
      exact .of_keeps (.fail _)

/-! ## Calls -/

theorem samePolicy_pinCalls :
    PinCalls (.constant StorageEngine.policy : Prog.Frame (StorageEngine β)) := by
  intro key hkey v _ e
  have hne : ∀ key ∈ [pinStorageKey, pinRetriesKey],
      key ≠ cfgMinPinLengthKey ∧ key ≠ cfgForceChangePinKey := by decide
  exact policy_of_saved (StorageEngine.saved_run_store key v e) (hne key hkey).1 (hne key hkey).2

/-- Reset removes the policy, unless it fails. -/
theorem policy_reset {cmd : UInt8} (data : Bytes) (hreset : Ctap2Command.fromU8 cmd = .reset)
    (a : Auth β) : (a.step build (.command cmd data)).storage.policy =
      if a.erases build (.input (.command cmd data)) = true then (none, none)
      else a.storage.policy := by
  obtain ⟨⟨error, herror⟩, hcore⟩ | ⟨hok, hcleared⟩ := reset_step build data hreset a
  · rw [if_neg (by simp [erases, succeeds, herror, Except.isOk, Except.toBool]),
      storage_of_core hcore]
  · rw [if_pos (by simp [erases, succeeds, hok, hreset, Except.isOk, Except.toBool])]
    exact Prod.ext (hcleared.value _ systemKey_minPinLength)
      (hcleared.value _ systemKey_forceChangePin)

/-- AuthenticatorConfig sets the policy if it is an accepted setMinPINLength. -/
theorem policy_authnrConfig {cmd : UInt8} (data : Bytes)
    (hconfig : Ctap2Command.fromU8 cmd = .authenticatorConfig) (a : Auth β) :
    (a.step build (.command cmd data)).storage.policy =
      (a.acceptedParams build (.input (.command cmd data))).elim a.storage.policy
        SetMinPinLengthParams.policy := by
  have hrun := run_processCommand_of_ne build data a (by rw [hconfig]; decide)
  rw [hconfig, dispatch, Prog.run_map] at hrun
  have hsets := sets_handleAuthnrConfig build data { a with hmacSecretSession := none }
  cases hresult : ((handleAuthnrConfig build data).run { a with hmacSecretSession := none }).1 with
  | error error =>
      have hfails : a.succeeds build (.input (.command cmd data)) = false := by
        rw [succeeds, exchange, hrun, hresult]
        rfl
      rw [Sets, hresult] at hsets
      rw [acceptedParams, if_neg (by simp [hfails]), step, hrun]
      exact hsets
  | ok _ =>
      have hsucceeds : a.succeeds build (.input (.command cmd data)) = true := by
        rw [succeeds, exchange, hrun, hresult]
        rfl
      rw [Sets, hresult] at hsets
      rw [acceptedParams, if_pos ⟨hconfig, hsucceeds⟩, step, hrun]
      exact hsets

/-- No other command changes the policy. -/
theorem policy_otherCommand {cmd : UInt8} (data : Bytes)
    (hreset : Ctap2Command.fromU8 cmd ≠ .reset)
    (hconfig : Ctap2Command.fromU8 cmd ≠ .authenticatorConfig) (a : Auth β) :
    (a.step build (.command cmd data)).storage.policy = a.storage.policy := by
  refine policy_of_moves (moves_step build data hreset a) ?_ ?_
  all_goals
    generalize Ctap2Command.fromU8 cmd = command at hconfig
    cases command with
    | authenticatorConfig => exact absurd rfl hconfig
    | _ =>
        simp [commandKinds, makeCredentialKinds, assertionKinds, clientPinKinds,
          cfgMinPinLengthKey, cfgForceChangePinKey, cfgEpPendingKey, signCounterStorageKey,
          pinStorageKey, pinRetriesKey, uvRetriesKey]

/-- A power cycle removes the policy if there is no medium. -/
theorem policy_powerCycle {a : Auth β} (hsynced : a.storage.Synced) :
    (a.step build .powerCycle).storage.policy =
      if a.erases build (.input .powerCycle) = true then (none, none) else a.storage.policy := by
  cases hb : a.storage.backend with
  | none =>
      rw [if_pos (by rw [erases, hb]; rfl)]
      exact Prod.ext (value_reopen_none build hb _) (value_reopen_none build hb _)
  | some b =>
      have hsome : a.storage.backend.isSome = true := by
        rw [hb]
        rfl
      rw [if_neg (by rw [erases, hb]; exact Bool.false_ne_true)]
      exact Prod.ext (value_reopen build hsome hsynced systemKey_minPinLength)
        (value_reopen build hsome hsynced systemKey_forceChangePin)

/-- What a call makes of the policy. -/
theorem policy_call {a : Auth β} (hsynced : a.storage.Synced) (call : Call) :
    (a.call build call).storage.policy =
      (a.acceptedParams build call).elim
        (if a.erases build call = true then (none, none) else a.storage.policy)
        SetMinPinLengthParams.policy := by
  rcases call with input | pin | ⟨oldPin, newPin⟩ | pin
  · rcases input with ⟨cmd, data⟩ | _
    · by_cases hreset : Ctap2Command.fromU8 cmd = .reset
      · have hparams : a.acceptedParams build (.input (.command cmd data)) = none := by
          simp [acceptedParams, hreset]
        rw [hparams, Option.elim_none]
        exact policy_reset build data hreset a
      have herases : a.erases build (.input (.command cmd data)) = false := by
        simp [erases, hreset]
      rw [herases, if_neg Bool.false_ne_true]
      by_cases hconfig : Ctap2Command.fromU8 cmd = .authenticatorConfig
      · exact policy_authnrConfig build data hconfig a
      · have hparams : a.acceptedParams build (.input (.command cmd data)) = none := by
          simp [acceptedParams, hconfig]
        rw [hparams, Option.elim_none]
        exact policy_otherCommand build data hreset hconfig a
    · exact policy_powerCycle build hsynced
  · exact (within_setPin (F := Touching (.constant StorageEngine.policy)) samePolicy_pinCalls
      pin a).1
  · exact (within_changePin (F := Touching (.constant StorageEngine.policy)) samePolicy_pinCalls
      oldPin newPin a).1
  · exact (within_verifyPin (F := Touching (.constant StorageEngine.policy)) samePolicy_pinCalls
      pin a).1

/-! ## The PIN a call sets -/

/-- The ClientPIN request in a call. -/
def clientPinRequest : Call → Option ClientPinRequest
  | .input (.command cmd data) =>
      if Ctap2Command.fromU8 cmd = .clientPin then
        (ClientPinRequest.decode build.cbor data).toOption
      else none
  | _ => none

/-- A request of setPIN, or the method `set_pin`. -/
def setsPin : Call → Bool
  | .setPin _ => true
  | call => (clientPinRequest build call).any fun request => request.subCommand = 0x03

/-- A request of changePIN, or the method `change_pin`. -/
def changesPin : Call → Bool
  | .changePin _ _ => true
  | call => (clientPinRequest build call).any fun request => request.subCommand = 0x04

/-- The new PIN in a request of setPIN or changePIN. -/
def requestedPin (a : Auth β) (request : ClientPinRequest) : Option Bytes := do
  let protocol ← PinUvProtocol.new (← request.pinProtocol)
  let peerCose ← request.keyAgreement
  let newPinEnc ← request.newPinEnc
  let secret ← a.agreedSecret protocol peerCose
  let padded ← (protocol.decrypt a.crypto.prims secret newPinEnc).toOption
  (stripZeroPadding padded).toOption

/-- The new PIN a call carries. -/
def newPin (a : Auth β) : Call → Option Bytes
  | .setPin pin => some pin
  | .changePin _ pin => some pin
  | call => (clientPinRequest build call).bind a.requestedPin

omit [StorageBackend β] [LawfulBackend β] in
theorem decryptNewPin_ok {protocol : PinUvProtocol} {secret newPinEnc pin : Bytes} {a b : Auth β}
    (h : (decryptNewPin protocol secret newPinEnc).run a = (.ok pin, b)) :
    (∃ padded, protocol.decrypt a.crypto.prims secret newPinEnc = .ok padded ∧
      stripZeroPadding padded = .ok pin) ∧ pinLengthOk pin = true ∧ a = b := by
  obtain ⟨hpin, rfl⟩ := check_eq_ok.mp h
  split at hpin
  · cases hpin
  · next padded hpadded =>
      split at hpin
      · cases hpin
      · split at hpin
        · cases hpin
        · next pin' hstrip =>
            split at hpin
            · next hlength =>
                cases hpin
                exact ⟨⟨padded, hpadded, hstrip⟩, hlength, rfl⟩
            · cases hpin

theorem storePinHash_ok {mark : Mark} {pin : Bytes} {a b : Auth β}
    (h : (storePinHash mark pin).run a = (.ok (), b)) :
    b.storedPin = some (pinHash a.crypto pin) := by
  rw [storePinHash, Prog.run_read_bind] at h
  obtain ⟨-, rfl⟩ := Prod.mk.inj ((run_onStorage_ok (StorageEngine.run_store _ _ _)).symm.trans h)
  exact ((StorageEngine.saved_store pinStorageKey _ a.storage).value_eq _).trans (if_pos rfl)

/-- A successful `set_pin`. -/
theorem setPin_ok {pin : Bytes} {a b : Auth β} (h : (setPin pin).run a = (.ok (), b)) :
    pinLengthOk pin = true ∧ b.storedPin = some (pinHash a.crypto pin) := by
  obtain ⟨_, a₁, hensure, h⟩ := bind_eq_ok.mp h
  obtain ⟨hlength, rfl⟩ := ensure_eq_ok.mp hensure
  obtain ⟨_, a₂, hstore, h⟩ := bind_eq_ok.mp h
  have hstored := storePinHash_ok hstore
  obtain ⟨_, a₃, hreset, h⟩ := bind_eq_ok.mp h
  cases h
  refine ⟨hlength, ?_⟩
  rw [← hstored, ← storedPin_resetPinRetries .ordinary a₂, hreset]
  rfl

/-- A successful `change_pin`. -/
theorem changePin_ok {oldPin newPin : Bytes} {a b : Auth β}
    (h : (changePin oldPin newPin).run a = (.ok (), b)) :
    pinLengthOk newPin = true ∧ b.storedPin = some (pinHash a.crypto newPin) := by
  obtain ⟨_, a₁, hensure, h⟩ := bind_eq_ok.mp h
  obtain ⟨hlength, rfl⟩ := ensure_eq_ok.mp hensure
  refine ⟨hlength, ?_⟩
  obtain ⟨_, a₂, hset, h⟩ := bind_eq_ok.mp h
  obtain ⟨-, rfl⟩ := ensure_eq_ok.mp hset
  rw [Prog.run_read_bind] at h
  obtain ⟨matched, a₃, hcompare, h⟩ := bind_eq_ok.mp h
  have hcrypto : a₃.crypto = a.crypto :=
    ((within_comparePinHash (F := Touching .any) .traitChangePin _).of_run hcompare).2
  split at h
  · obtain ⟨_, a₄, hreset, h⟩ := bind_eq_ok.mp h
    obtain ⟨_, a₅, hstore, h⟩ := bind_eq_ok.mp h
    have hstored := storePinHash_ok hstore
    have hkept : a₄.crypto = a₃.crypto :=
      ((within_resetPinRetries (F := Touching .any) (fun _ _ _ _ _ => trivial) _).of_run hreset).2
    cases h
    rw [hkept, hcrypto] at hstored
    exact hstored
  · obtain ⟨_, a₄, -, h⟩ := bind_eq_ok.mp h
    cases h

/-- A successful request of setPIN. -/
theorem handleSetPin_ok {request : ClientPinRequest} {a b : Auth β} {r : ClientPinResponse}
    (h : (handleSetPin request).run a = (.ok r, b)) :
    ∃ pin, a.requestedPin request = some pin ∧ pinLengthOk pin = true ∧
      b.storedPin = some (pinHash a.crypto pin) := by
  obtain ⟨protocol, a₁, hprotocol, h⟩ := bind_eq_ok.mp h
  obtain ⟨⟨n, hversion, hnew⟩, rfl⟩ := validateProtocol_ok hprotocol
  obtain ⟨_, a₂, hunset, h⟩ := bind_eq_ok.mp h
  obtain ⟨-, rfl⟩ := ensure_eq_ok.mp hunset
  obtain ⟨peer, a₃, hneeded, h⟩ := bind_eq_ok.mp h
  obtain ⟨hpeer, rfl⟩ := required_ok hneeded
  obtain ⟨newPinEnc, a₄, hneeded, h⟩ := bind_eq_ok.mp h
  obtain ⟨henc, rfl⟩ := required_ok hneeded
  obtain ⟨pinAuth, a₅, hauth, h⟩ := bind_eq_ok.mp h
  obtain ⟨-, rfl⟩ := required_ok hauth
  obtain ⟨secret, a₆, hsecret, h⟩ := bind_eq_ok.mp h
  obtain ⟨hagreed, hcrypto⟩ := performKeyAgreement_ok hsecret
  obtain ⟨_, a₇, hverify, h⟩ := bind_eq_ok.mp h
  obtain ⟨-, rfl⟩ := check_eq_ok.mp hverify
  obtain ⟨pin, a₈, hpin, h⟩ := bind_eq_ok.mp h
  obtain ⟨⟨padded, hpadded, hstrip⟩, hlength, rfl⟩ := decryptNewPin_ok hpin
  obtain ⟨_, a₉, hset, h⟩ := bind_eq_ok.mp h
  cases h
  obtain ⟨-, hstored⟩ := setPin_ok hset
  rw [hcrypto] at hpadded hstored
  refine ⟨pin, ?_, hlength, hstored⟩
  simp only [requestedPin, hversion, hnew, hpeer, henc, hagreed, hpadded, hstrip, Except.toOption,
    Option.bind_eq_bind, Option.bind_some]

/-- A successful request of changePIN. -/
theorem handleChangePin_ok {request : ClientPinRequest} {a b : Auth β} {r : ClientPinResponse}
    (h : (handleChangePin request).run a = (.ok r, b)) :
    ∃ pin, a.requestedPin request = some pin ∧ pinLengthOk pin = true ∧
      b.storedPin = some (pinHash a.crypto pin) := by
  obtain ⟨protocol, a₁, hprotocol, h⟩ := bind_eq_ok.mp h
  obtain ⟨⟨n, hversion, hnew⟩, rfl⟩ := validateProtocol_ok hprotocol
  obtain ⟨_, a₂, hset, h⟩ := bind_eq_ok.mp h
  obtain ⟨-, rfl⟩ := ensure_eq_ok.mp hset
  obtain ⟨_, a₃, hleft, h⟩ := bind_eq_ok.mp h
  obtain ⟨-, rfl⟩ := ensure_eq_ok.mp hleft
  obtain ⟨_, a₄, hopen, h⟩ := bind_eq_ok.mp h
  obtain ⟨-, rfl⟩ := ensure_eq_ok.mp hopen
  obtain ⟨peer, a₅, hneeded, h⟩ := bind_eq_ok.mp h
  obtain ⟨hpeer, rfl⟩ := required_ok hneeded
  obtain ⟨pinHashEnc, a₆, hhash, h⟩ := bind_eq_ok.mp h
  obtain ⟨-, rfl⟩ := required_ok hhash
  obtain ⟨newPinEnc, a₇, hneeded, h⟩ := bind_eq_ok.mp h
  obtain ⟨henc, rfl⟩ := required_ok hneeded
  obtain ⟨pinAuth, a₈, hauth, h⟩ := bind_eq_ok.mp h
  obtain ⟨-, rfl⟩ := required_ok hauth
  obtain ⟨secret, a₉, hsecret, h⟩ := bind_eq_ok.mp h
  obtain ⟨hagreed, hsame⟩ := performKeyAgreement_ok hsecret
  obtain ⟨_, a₁₀, hverify, h⟩ := bind_eq_ok.mp h
  obtain ⟨-, rfl⟩ := check_eq_ok.mp hverify
  obtain ⟨_, a₁₁, hchecked, h⟩ := bind_eq_ok.mp h
  have hcrypto : a₁₁.crypto = a₉.crypto :=
    ((within_checkPinHash (F := Touching .any) (fun _ _ _ _ _ => trivial) _ _ _ _).of_run
      hchecked).2
  obtain ⟨pin, a₁₂, hpin, h⟩ := bind_eq_ok.mp h
  obtain ⟨⟨padded, hpadded, hstrip⟩, hlength, rfl⟩ := decryptNewPin_ok hpin
  obtain ⟨_, a₁₃, hdrop, h⟩ := bind_eq_ok.mp h
  cases hdrop
  obtain ⟨_, a₁₄, hstore, h⟩ := bind_eq_ok.mp h
  cases h
  have hstored := storePinHash_ok hstore
  rw [hcrypto, hsame] at hpadded
  refine ⟨pin, ?_, hlength, ?_⟩
  · simp only [requestedPin, hversion, hnew, hpeer, henc, hagreed, hpadded, hstrip,
      Except.toOption, Option.bind_eq_bind, Option.bind_some]
  · rw [hstored, ← hsame, ← hcrypto]

omit [LawfulBackend β] in
/-- A ClientPIN command runs the handler of its subcommand. -/
theorem run_clientPin {a : Auth β} {cmd : UInt8} {data : Bytes} {request : ClientPinRequest}
    (h : clientPinRequest build (.input (.command cmd data)) = some request) :
    (processCommand build cmd data).run a =
      (CtapResponse.clientPin <$> clientPinSubCommand request).run
        { a with hmacSecretSession := none } := by
  rw [clientPinRequest] at h
  by_cases hcmd : Ctap2Command.fromU8 cmd = .clientPin
  · rw [if_pos hcmd] at h
    have hdecode : ClientPinRequest.decode build.cbor data = .ok request := by
      cases hdecode : ClientPinRequest.decode build.cbor data with
      | error error =>
          rw [hdecode] at h
          cases h
      | ok request' =>
          rw [hdecode] at h
          cases h
          rfl
    have hrun : (handleClientPin build data).run { a with hmacSecretSession := none } =
        (clientPinSubCommand request).run { a with hmacSecretSession := none } :=
      Prog.run_bind_of_ok (Prod.ext hdecode rfl)
    rw [run_processCommand_of_ne build data a (by rw [hcmd]; decide), hcmd, dispatch, Prog.run_map,
      Prog.run_map, hrun]
  · rw [if_neg hcmd] at h
    cases h

theorem newPin_of_command {a : Auth β} {cmd : UInt8} {data : Bytes}
    (hok : a.succeeds build (.input (.command cmd data)) = true)
    (hkind : setsPin build (.input (.command cmd data)) = true ∨
      changesPin build (.input (.command cmd data)) = true) :
    ∃ pin, a.newPin build (.input (.command cmd data)) = some pin ∧ pinLengthOk pin = true ∧
      (a.step build (.command cmd data)).storedPin = some (pinHash a.crypto pin) := by
  cases hrequest : clientPinRequest build (.input (.command cmd data)) with
  | none => simp [setsPin, changesPin, hrequest] at hkind
  | some request =>
      have hrun := run_clientPin build (a := a) hrequest
      have hresult : ∃ r b, (clientPinSubCommand request).run
          { a with hmacSecretSession := none } = (.ok r, b) ∧
            a.step build (.command cmd data) = b := by
        rw [succeeds, exchange, hrun, Prog.run_map] at hok
        rw [step, hrun, Prog.run_map]
        cases hsub : (clientPinSubCommand request).run { a with hmacSecretSession := none } with
        | mk result b =>
            rw [hsub] at hok
            rcases result with error | r
            · cases hok
            · exact ⟨r, b, rfl, rfl⟩
      obtain ⟨r, b, hsub, hafter⟩ := hresult
      have hnew : a.newPin build (.input (.command cmd data)) =
          (clientPinRequest build (.input (.command cmd data))).bind a.requestedPin := rfl
      rw [hafter, hnew, hrequest, Option.bind_some]
      simp only [setsPin, changesPin, hrequest, Option.any_some, decide_eq_true_eq] at hkind
      rw [clientPinSubCommand] at hsub
      rcases hkind with hkind | hkind
      · rw [hkind] at hsub
        exact handleSetPin_ok (a := { a with hmacSecretSession := none }) hsub
      · rw [hkind] at hsub
        exact handleChangePin_ok (a := { a with hmacSecretSession := none }) hsub

/-- A successful setPIN or changePIN carries a PIN of a length that is allowed, and stores its
hash. -/
theorem newPin_of_succeeds {a : Auth β} {call : Call} (hok : a.succeeds build call = true)
    (hkind : setsPin build call = true ∨ changesPin build call = true) :
    ∃ pin, a.newPin build call = some pin ∧ pinLengthOk pin = true ∧
      (a.call build call).storedPin = some (pinHash a.crypto pin) := by
  rcases call with input | pin | ⟨oldPin, newPin⟩ | pin
  · rcases input with ⟨cmd, data⟩ | _
    · exact newPin_of_command build hok hkind
    · simp [setsPin, changesPin, clientPinRequest] at hkind
  · cases hrun : (setPin pin).run a with
    | mk result b =>
        rw [succeeds, hrun] at hok
        rcases result with error | _
        · cases hok
        · obtain ⟨hlength, hstored⟩ := setPin_ok hrun
          refine ⟨pin, rfl, hlength, ?_⟩
          rw [call, hrun]
          exact hstored
  · cases hrun : (changePin oldPin newPin).run a with
    | mk result b =>
        rw [succeeds, hrun] at hok
        rcases result with error | _
        · cases hok
        · obtain ⟨hlength, hstored⟩ := changePin_ok hrun
          refine ⟨newPin, rfl, hlength, ?_⟩
          rw [call, hrun]
          exact hstored
  · simp [setsPin, changesPin, clientPinRequest] at hkind

end Auth

end OpenKey
