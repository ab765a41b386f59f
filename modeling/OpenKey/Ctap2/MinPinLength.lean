import OpenKey.Ctap2.PinPolicy
import OpenKey.Ctap2.Sample

/-!
# The minimum length of a PIN

**Theorem (`enforced_along`).** In a run over storage that lasts, in which no setMinPINLength asks
for less than the minimum in force and no new PIN is shorter than it, the minimum only goes up until
a Reset, and every PIN that is accepted has at least the minimum in force.

Nothing in the source checks either: setMinPINLength compares with the constants 4 and 63, and the
four ways to set a PIN do the same. So an accepted call enforces the minimum only if it asks for
nothing shorter.
-/

namespace OpenKey

set_option autoImplicit false

/-- setMinPINLength takes a minimum between the constants. -/
theorem newMin_bounds {params : Option Value} {p : SetMinPinLengthParams}
    (h : setMinPinLengthParams params = .ok p) : pinMinLength ≤ p.newMin ∧
      p.newMin ≤ pinMaxLength := by
  obtain ⟨map, -, h⟩ := Except.bind_eq_ok.mp h
  obtain ⟨newMin, -, h⟩ := Except.bind_eq_ok.mp h
  cases newMin with
  | none => cases h
  | some newMin =>
      by_cases hbounds : newMin < pinMinLength ∨ newMin > pinMaxLength
      · simp only [if_pos hbounds] at h
        cases h
      · simp only [if_neg hbounds] at h
        obtain ⟨forceChange, -, h⟩ := Except.bind_eq_ok.mp h
        obtain ⟨rpids, -, h⟩ := Except.bind_eq_ok.mp h
        obtain ⟨currentPin, -, h⟩ := Except.bind_eq_ok.mp h
        split at h
        · cases h
        · cases h
          simp only [not_or, not_lt] at hbounds
          exact hbounds

namespace Auth

variable {β : Type} [StorageBackend β] [LawfulBackend β] (build : Build) (fallback : Nat)

/-- The parameters of a request of setMinPINLength. -/
def requestedParams : Call → Option SetMinPinLengthParams
  | .input (.command cmd data) =>
      if Ctap2Command.fromU8 cmd = .authenticatorConfig then setMinPinParams build data else none
  | _ => none

/-- An accepted Reset. -/
def resets (a : Auth β) : Call → Bool
  | .input (.command cmd data) => decide (Ctap2Command.fromU8 cmd = .reset) &&
      a.succeeds build (.input (.command cmd data))
  | _ => false

/-- What one call has to do with the minimum that `get_min_pin_length` reports. -/
structure Enforces (a : Auth β) (call : Call) : Prop where
  /-- The minimum does not go down, except by Reset. -/
  kept : a.resets build call = false →
    a.storage.getMinPinLength fallback ≤ (a.call build call).storage.getMinPinLength fallback
  /-- The new PIN of an accepted setPIN or changePIN, whose hash is stored, is not too short. -/
  bounded : a.succeeds build call = true → setsPin build call = true ∨
    changesPin build call = true →
    ∃ pin, a.newPin build call = some pin ∧
      (a.call build call).storedPin = some (pinHash a.crypto pin) ∧
      a.storage.getMinPinLength fallback ≤ pin.length ∧ pin.length ≤ pinMaxLength

/-- A call asks for nothing shorter than the minimum in force. -/
structure Respects (a : Auth β) (call : Call) : Prop where
  minimum : ∀ params ∈ requestedParams build call,
    a.storage.getMinPinLength fallback ≤ params.newMin
  pin : setsPin build call = true ∨ changesPin build call = true →
    ∀ pin ∈ a.newPin build call, pinLengthOk pin = true →
      a.storage.getMinPinLength fallback ≤ pin.length

variable {build fallback}

omit [LawfulBackend β] in
theorem acceptedParams_eq (a : Auth β) (call : Call) :
    a.acceptedParams build call =
      if a.succeeds build call = true then requestedParams build call else none := by
  rcases call with (⟨cmd, data⟩ | _) | pin | ⟨oldPin, newPin⟩ | pin
  · rw [acceptedParams, requestedParams]
    by_cases hcmd : Ctap2Command.fromU8 cmd = .authenticatorConfig
    · simp [hcmd]
    · simp [hcmd]
  all_goals simp [acceptedParams, requestedParams]

theorem newMin_of_requested {call : Call} {params : SetMinPinLengthParams}
    (h : requestedParams build call = some params) : params.newMin ≤ pinMaxLength := by
  rcases call with (⟨cmd, data⟩ | _) | pin | ⟨oldPin, newPin⟩ | pin
  · rw [requestedParams] at h
    split at h
    · rw [setMinPinParams] at h
      split at h
      · next request _ =>
          split at h
          · cases hparams : setMinPinLengthParams request.params with
            | error error =>
                rw [hparams] at h
                cases h
            | ok p =>
                rw [hparams] at h
                cases h
                exact (newMin_bounds hparams).2
          · cases h
      · cases h
    · cases h
  all_goals cases h

omit [LawfulBackend β] in
/-- A minimum is read back as it was stored. -/
theorem getMinPinLength_of_policy {e : StorageEngine β} {params : SetMinPinLengthParams}
    (h : e.policy = params.policy) (hmax : params.newMin ≤ pinMaxLength) :
    e.getMinPinLength fallback = params.newMin := by
  have hvalue : e.value cfgMinPinLengthKey = some [UInt8.ofNat params.newMin] := congrArg Prod.fst h
  have hsmall : params.newMin < 256 := Nat.lt_of_le_of_lt hmax (by decide)
  rw [StorageEngine.getMinPinLength, hvalue]
  simp [hsmall]

omit [LawfulBackend β] in
theorem getMinPinLength_congr {e e' : StorageEngine β} (h : e'.policy = e.policy) :
    e'.getMinPinLength fallback = e.getMinPinLength fallback := by
  have hvalue : e'.value cfgMinPinLengthKey = e.value cfgMinPinLengthKey := congrArg Prod.fst h
  rw [StorageEngine.getMinPinLength, hvalue]
  rfl

omit [LawfulBackend β] in
/-- Over storage that lasts only Reset erases. -/
theorem erases_eq_resets {a : Auth β} {call : Call} (hlasting : Lasting a call) :
    a.erases build call = a.resets build call := by
  rcases call with (⟨cmd, data⟩ | _) | pin | ⟨oldPin, newPin⟩ | pin
  · rfl
  · have hsome : a.storage.backend.isSome = true := hlasting.resolve_right fun hne => hne rfl
    show a.storage.backend.isNone = false
    simpa using hsome
  all_goals rfl

section Step

variable {a : Auth β} {call : Call} (hsynced : a.storage.Synced) (hlasting : Lasting a call)

include hsynced hlasting

omit hlasting in
/-- An accepted setMinPINLength sets the minimum. -/
theorem minimum_of_accepted {params : SetMinPinLengthParams}
    (h : a.acceptedParams build call = some params) :
    (a.call build call).storage.getMinPinLength fallback = params.newMin := by
  have hpolicy := policy_call build hsynced call
  rw [h] at hpolicy
  rw [acceptedParams_eq] at h
  split at h
  · exact getMinPinLength_of_policy hpolicy (newMin_of_requested h)
  · cases h

/-- Nothing else but Reset changes it. -/
theorem minimum_of_other (h : a.acceptedParams build call = none)
    (hreset : a.resets build call = false) :
    (a.call build call).storage.getMinPinLength fallback = a.storage.getMinPinLength fallback := by
  have hpolicy := policy_call build hsynced call
  rw [h, Option.elim_none, erases_eq_resets hlasting, hreset] at hpolicy
  exact getMinPinLength_congr hpolicy

/-- A call that asks for nothing shorter than the minimum enforces it. -/
theorem enforces_of_respects (h : Respects build fallback a call) :
    Enforces build fallback a call where
  kept hreset := by
    cases haccepted : a.acceptedParams build call with
    | none => exact (minimum_of_other hsynced hlasting haccepted hreset).ge
    | some params =>
        rw [minimum_of_accepted hsynced haccepted]
        rw [acceptedParams_eq] at haccepted
        split at haccepted
        · exact h.minimum params haccepted
        · cases haccepted
  bounded hok hkind := by
    obtain ⟨pin, hnew, hlength, hstored⟩ := newPin_of_succeeds build hok hkind
    refine ⟨pin, hnew, hstored, h.pin hkind pin hnew hlength, ?_⟩
    simp only [pinLengthOk, Bool.and_eq_true, decide_eq_true_eq] at hlength
    exact hlength.2

/-- An accepted call that enforces the minimum asks for nothing shorter. -/
theorem respects_of_enforces (hok : a.succeeds build call = true)
    (h : Enforces build fallback a call) : Respects build fallback a call where
  minimum params hparams := by
    have haccepted : a.acceptedParams build call = some params := by
      rw [acceptedParams_eq, if_pos hok]
      exact hparams
    have hreset : a.resets build call = false := by
      rcases call with (⟨cmd, data⟩ | _) | pin | ⟨oldPin, newPin⟩ | pin
      · rw [requestedParams] at hparams
        split at hparams
        · next hcmd => simp [resets, hcmd]
        · cases hparams
      all_goals cases hparams
    rw [← minimum_of_accepted hsynced haccepted]
    exact h.kept hreset
  pin hkind pin hnew _ := by
    obtain ⟨pin', hnew', -, hmin, -⟩ := h.bounded hok hkind
    obtain rfl := Option.some.inj (hnew.symm.trans hnew')
    exact hmin

end Step

/-- A run that asks for nothing shorter than the minimum enforces it in every step. -/
theorem enforced_of_respected {start : Auth β} (hsynced : start.storage.Synced) {cs : List Call}
    (hlasting : Along build Lasting start cs)
    (hrespects : Along build (Respects build fallback) start cs) :
    Along build (Enforces build fallback) start cs := by
  induction cs generalizing start with
  | nil => trivial
  | cons call cs ih =>
      exact ⟨enforces_of_respects hsynced hlasting.1 hrespects.1,
        ih (synced_call build hsynced call) hlasting.2 hrespects.2⟩

theorem respected_of_enforced {start : Auth β} (hsynced : start.storage.Synced) {cs : List Call}
    (hlasting : Along build Lasting start cs)
    (henforces : Along build (Enforces build fallback) start cs) :
    Along build (fun a call => a.succeeds build call = true → Respects build fallback a call)
      start cs := by
  induction cs generalizing start with
  | nil => trivial
  | cons call cs ih =>
      exact ⟨fun hok => respects_of_enforces hsynced hlasting.1 hok henforces.1,
        ih (synced_call build hsynced call) hlasting.2 henforces.2⟩

/-- The minimum is enforced in every run that asks for nothing shorter, and only in runs whose
accepted calls ask for nothing shorter. -/
theorem enforced_along {start : Auth β} (hblank : start.Blank) {cs : List Call}
    (hlasting : Along build Lasting start cs) :
    (Along build (Respects build fallback) start cs →
        Along build (Enforces build fallback) start cs) ∧
      (Along build (Enforces build fallback) start cs →
        Along build (fun a call => a.succeeds build call = true → Respects build fallback a call)
          start cs) :=
  ⟨enforced_of_respected hblank.storage.synced hlasting,
    respected_of_enforced hblank.storage.synced hlasting⟩

/-! ## A PIN that is too short -/

/-- setMinPINLength, to 8. -/
def raiseMinimumCommand : Input :=
  .command 0x0D (encodeValue (intMap [(1, .integer 3), (2, intMap [(2, .integer 8)]),
    (3, .integer 1), (4, .bytes (word16 0x1f7c0b546a2fdce987ce0f06b7788cd9))]))

/-- The device, with the MAC of that request. -/
def raisedDevice : Auth KvMap :=
  managedDevice { macs := [((drawn 32 3, 0x0D :: 0x03 :: encodeValue (intMap [(2, .integer 8)])),
    0x1f7c0b546a2fdce987ce0f06b7788cd9b0d464078e1f09b4411265c9eeced7de)] }

/-- A PIN is set and the minimum raised to 8. -/
def raisedRun : List Call :=
  [.input setPinCommand, .input (getTokenFor 0x20), .input raiseMinimumCommand]

theorem lasting_raised :
    Along managedBuild Lasting raisedDevice
      (raisedRun ++ [.changePin (utf8 "1234") (utf8 "5678")]) :=
  ⟨.inr nofun, .inr nofun, .inr nofun, .inr nofun, trivial⟩

set_option maxRecDepth 100000 in
/-- A PIN of four bytes is accepted under a minimum of 8. -/
theorem short_pin_accepted : ¬∀ (start : Auth KvMap) cs, start.Blank →
    Along managedBuild Lasting start cs →
      Along managedBuild (Enforces managedBuild 4) start cs := by
  intro hall
  have hrun := hall raisedDevice _ ⟨blank_memoryDevice.storage, rfl⟩ lasting_raised
  obtain ⟨pin, hnew, -, hmin, -⟩ := hrun.2.2.2.1.bounded (by decide +kernel) (.inr rfl)
  cases hnew
  exact absurd hmin (by decide +kernel)

/-- PINs of four and of five bytes, under a minimum of 4. -/
def respectfulRun : List Call :=
  [.setPin (utf8 "1234"), .changePin (utf8 "1234") (utf8 "56789")]

theorem respected_respectful :
    Along sampleBuild (Respects sampleBuild 4) memoryDevice respectfulRun := by
  refine ⟨⟨fun _ => nofun, ?_⟩, ⟨fun _ => nofun, ?_⟩, trivial⟩
  · rintro - pin hpin -
    cases hpin
    decide +kernel
  · rintro - pin hpin -
    cases hpin
    decide +kernel

theorem lasting_respectful : Along sampleBuild Lasting memoryDevice respectfulRun :=
  ⟨.inr nofun, .inr nofun, trivial⟩

theorem enforced_along_respectful :
    Along sampleBuild (Enforces sampleBuild 4) memoryDevice respectfulRun :=
  (enforced_along blank_memoryDevice lasting_respectful).1 respected_respectful

end Auth

end OpenKey
