import OpenKey.Device.AppletRuns
import OpenKey.Device.KnownAead

/-!
# The lock of the configuration

WRITE CONFIG and SET MODE set one state or none. `requested` is that state, from the state in memory
and the request (`ends_managementProcess`).

**The lock (`lock_holds_iff`).** WRITE CONFIG compares the unlock tag with the lock code where there
is such a tag, and SET MODE does not look at the lock. So a configuration with a lock code stays as
it is without the code exactly when the command is not one of these (`Overrides`).
-/

namespace OpenKey

open Command
open AppletName (Machine)

set_option autoImplicit false

namespace Management

/-! ## What a command sets -/

/-- The configuration that SET MODE makes. -/
def modeConfig (state : ManagementState) (caps : UInt16) (chalrespTimeout lo hi : UInt8) :
    ManagementState :=
  { state with
    usbEnabled := caps &&& supportedCapabilities
    chalrespTimeout := chalrespTimeout
    autoEjectTimeout := UInt16.ofNat (Bytes.beNat [hi, lo]) }

/-- The configuration that WRITE CONFIG makes, if it passes the checks. -/
def writtenConfig (state : ManagementState) (tlvs : List (UInt8 × Bytes)) :
    Option ManagementState :=
  match checkConfig state tlvs, applyConfig state tlvs with
  | .ok (), .ok new => some new
  | _, _ => none

/-- The state that a command sets. -/
def requested (state : ManagementState) (apdu : Apdu) : Option ManagementState :=
  if apdu.cla ≠ 0 then none
  else if apdu.ins = 0x1C then
    if apdu.p1 = 0 ∧ apdu.p2 = 0 then
      match parseConfigPayload apdu.data with
      | .ok tlvs => writtenConfig state tlvs
      | .error _ => none
    else none
  else if apdu.ins = 0x16 then
    if apdu.p1 = 0x11 then
      match apdu.data with
      | [mode, chalrespTimeout, lo, hi] =>
          modeCaps[(mode &&& 0x07).toNat]?.map fun caps =>
            modeConfig state caps chalrespTimeout lo hi
      | _ => none
    else none
  else none

/-- The applet after a command that sets this, with the state before it. -/
inductive Configures {β : Type} [StorageBackend β] [FallibleBackend β] (crypto : AppletCrypto)
    (patience : Nat) (state : ManagementState) (h g : Host β ManagementState Unit) :
    Option ManagementState → Prop
  | stays (memory : g.memory.state = some state) (storage : g.storage = h.storage) :
      Configures crypto patience state h g none
  | written (new : ManagementState) (memory : g.memory.state = some new)
      (backend : g.storage.backend.isSome)
      (held : ∃ blob entropy,
        g.storage.heldEntry (managementFormat patience).storageKey = some blob ∧
          Host.sealState crypto (managementFormat patience) new entropy = .ok blob) :
      Configures crypto patience state h g (some new)
  | failed (new : ManagementState) (memory : g.memory.state = some new)
      (backend : g.storage.backend.isSome)
      (held : g.storage.heldEntry (managementFormat patience).storageKey =
        h.storage.heldEntry (managementFormat patience).storageKey) :
      Configures crypto patience state h g (some new)

section

variable {β : Type} [StorageBackend β] [FallibleBackend β] {crypto : AppletCrypto} {patience : Nat}
  {state : ManagementState} {h : Host β ManagementState Unit}
  (hmem : h.memory.state = some state)

include hmem

omit [FallibleBackend β] in
theorem ends_cmdReadConfig (page : UInt8) :
    Host.Ends crypto (managementFormat patience) (cmdReadConfig page) h fun _ g => g = h :=
  .require (fun _ =>
    .ensureLoaded hmem (.loadedState hmem (.orFault (fun _ _ => rfl) fun _ _ => rfl)))
    fun _ => rfl

variable (hb : h.storage.backend.isSome)

include hb

omit hmem in
/-- The end of a command that persists the configuration it has made. -/
theorem ends_persisted (new : ManagementState) {response : ResponseData} :
    Host.Ends crypto (managementFormat patience)
      (do setState new; persistState; pure response : ManagementCommand ResponseData) h fun _ g =>
        Configures crypto patience state h g (some new) := by
  refine .setState (.persistState rfl ?_ (fun g hg => ?_) fun g hg => ?_)
  · exact hb
  · obtain ⟨blob, hheld, hseal⟩ := hg.held
    exact .written new (congrArg Memory.state hg.memory) hg.backend ⟨blob, _, hheld, hseal⟩
  · exact .failed new (congrArg Memory.state hg.memory) hg.backend hg.held

theorem ends_cmdWriteConfig (data : Bytes) :
    Host.Ends crypto (managementFormat patience) (cmdWriteConfig data) h fun _ g =>
      Configures crypto patience state h g (match parseConfigPayload data with
        | .ok tlvs => writtenConfig state tlvs
        | .error _ => none) := by
  refine .orStatus (fun tlvs htlvs => ?_) fun sw hsw => ?_
  · rw [htlvs]
    refine .ensureLoaded hmem (.loadedState hmem (.orFault (fun _ hcheck => ?_) fun e hcheck => ?_))
    · refine .orFault (fun new happly => ?_) fun e happly => ?_
      · simp only [writtenConfig, hcheck, happly]
        exact ends_persisted hb new
      · simp only [writtenConfig, hcheck, happly]
        exact .stays hmem rfl
    · simp only [writtenConfig, hcheck]
      exact .stays hmem rfl
  · rw [hsw]
    exact .stays hmem rfl

theorem ends_cmdSetMode (p1 : UInt8) (data : Bytes) :
    Host.Ends crypto (managementFormat patience) (cmdSetMode p1 data) h fun _ g =>
      Configures crypto patience state h g (if p1 = 0x11 then
        match data with
        | [mode, chalrespTimeout, lo, hi] =>
            modeCaps[(mode &&& 0x07).toNat]?.map fun caps =>
              modeConfig state caps chalrespTimeout lo hi
        | _ => none
      else none) := by
  refine .require (fun hp1 => ?_) fun hp1 => ?_
  · rw [if_pos (of_decide_eq_true hp1)]
    rcases data with _ | ⟨mode, _ | ⟨chalrespTimeout, _ | ⟨lo, _ | ⟨hi, _ | ⟨_, _⟩⟩⟩⟩⟩
    · exact .refuse (.stays hmem rfl)
    · exact .refuse (.stays hmem rfl)
    · exact .refuse (.stays hmem rfl)
    · exact .refuse (.stays hmem rfl)
    · refine .orFault (fun caps hcaps => ?_) fun e hcaps => ?_
      · dsimp only
        rw [Option.elim_error_eq_ok.mp hcaps]
        exact .ensureLoaded hmem (.loadedState hmem (ends_persisted hb _))
      · dsimp only
        rcases hmode : modeCaps[(mode &&& 0x07).toNat]? with _ | caps
        · exact .stays hmem rfl
        · rw [hmode] at hcaps
          cases hcaps
    · exact .refuse (.stays hmem rfl)
  · rw [if_neg (of_decide_eq_false hp1)]
    exact .stays hmem rfl

/-- How a command of the Management applet ends. -/
theorem ends_managementProcess (apdu : Apdu) :
    Host.Ends crypto (managementFormat patience) (managementProcess apdu) h fun _ g =>
      Configures crypto patience state h g (requested state apdu) := by
  unfold requested
  refine .require (fun hcla => ?_) fun hcla => ?_
  · rw [if_neg (not_not.mpr (of_decide_eq_true hcla))]
    refine .ite (fun hread => ?_) fun hread => .ite (fun hwrite => ?_) fun hwrite =>
      .ite (fun hmode => ?_) fun hmode => ?_
    · refine (ends_cmdReadConfig hmem apdu.p1).mono fun _ g hg => ?_
      rw [hg, if_neg (by rw [hread]; decide), if_neg (by rw [hread]; decide)]
      exact .stays hmem rfl
    · rw [if_pos hwrite]
      refine .require (fun hp => ?_) fun hp => ?_
      · rw [if_pos (of_decide_eq_true hp)]
        exact ends_cmdWriteConfig hmem hb apdu.data
      · rw [if_neg (of_decide_eq_false hp)]
        exact .stays hmem rfl
    · rw [if_neg hwrite, if_pos hmode]
      exact ends_cmdSetMode hmem hb apdu.p1 apdu.data
    · rw [if_neg hwrite, if_neg hmode]
      exact .refuse (.stays hmem rfl)
  · rw [if_pos (of_decide_eq_false hcla)]
    exact .stays hmem rfl

end

/-! ## Settings -/

/-- What READ CONFIG shows of a configuration, and its lock code, under the tags of WRITE CONFIG. -/
def settings (state : ManagementState) (lock : LockCode) : List (UInt8 × Bytes) := [
  (0x03, Bytes.beBytes 2 state.usbEnabled.toNat),
  (0x0E, Bytes.beBytes 2 state.nfcEnabled.toNat),
  (0x06, Bytes.beBytes 2 state.autoEjectTimeout.toNat),
  (0x07, [state.chalrespTimeout]),
  (0x08, [state.deviceFlags]),
  (0x0A, lock.1)]

/-- The request carries another value than a setting has, or removes the lock code. -/
def Alters (state : ManagementState) (lock : LockCode) (tlvs : List (UInt8 × Bytes)) : Prop :=
  (∃ now ∈ settings state lock, ∃ value ∈ tlvGet tlvs now.1, value ≠ now.2) ∨
    tlvGet tlvs 0x0A = some (List.replicate 16 0)

theorem mem_of_tlvGet {tlvs : List (UInt8 × Bytes)} {tag : UInt8} {value : Bytes}
    (h : tlvGet tlvs tag = some value) : (tag, value) ∈ tlvs := by
  obtain ⟨tlv, hfind, rfl⟩ := Option.map_eq_some_iff.mp h
  have htag := List.find?_some hfind
  rw [← of_decide_eq_true htag]
  exact List.mem_of_find?_eq_some hfind

section

variable {c : Prop} [Decidable c] {e : Fault}

theorem throw_eq_ok : (if c then throw e else pure () : Except Fault Unit) = .ok () ↔ ¬c := by
  by_cases hc : c
  · rw [if_pos hc]
    exact iff_of_false (fun h => nomatch h) (not_not.mpr hc)
  · rw [if_neg hc]
    exact iff_of_true rfl hc

theorem throw_else_eq_ok {m : Except Fault Unit} :
    (if c then (throw e >>= fun _ : Unit => m) else m) = .ok () ↔ ¬c ∧ m = .ok () := by
  by_cases hc : c
  · rw [if_pos hc]
    exact iff_of_false (fun h => nomatch h) fun h => h.1 hc
  · rw [if_neg hc]
    exact (and_iff_right hc).symm

end

/-- The values of WRITE CONFIG are well formed: each has the length of its tag, and only supported
interfaces are enabled. -/
structure WellFormed (tlvs : List (UInt8 × Bytes)) : Prop where
  usb : ∀ value ∈ tlvGet tlvs 0x03, value.length = 2 ∧
    UInt16.ofNat (Bytes.beNat value) &&& ~~~supportedCapabilities = 0
  nfc : ∀ value ∈ tlvGet tlvs 0x0E, value.length = 2
  lengths : ∀ tlv ∈ tlvs, ∀ n ∈ configLength tlv.1, tlv.2.length = n

/-- The tag that unlocks, if the request has it, carries the lock code, if there is one. -/
def Passes (state : ManagementState) (tlvs : List (UInt8 × Bytes)) : Prop :=
  ∀ cur ∈ tlvGet tlvs 0x0B, cur.length = 16 ∧ ∀ lock ∈ state.lockCode, cur = lock.1

theorem u16OfBe_eq_ok {value : Bytes} {n : UInt16} :
    u16OfBe value = .ok n ↔ value.length = 2 ∧ n = UInt16.ofNat (Bytes.beNat value) := by
  match value with
  | [] => exact iff_of_false (fun h => nomatch h) fun h => nomatch h.1
  | [_] => exact iff_of_false (fun h => nomatch h) fun h => nomatch h.1
  | [hi, lo] => exact ⟨fun h => ⟨rfl, by cases h; rfl⟩, fun h => congrArg Except.ok h.2.symm⟩
  | _ :: _ :: _ :: _ => exact iff_of_false (fun h => nomatch h) fun h => nomatch h.1

/-- The checks pass exactly on a well formed request that may alter the configuration. -/
theorem checkConfig_eq_ok {state : ManagementState} {tlvs : List (UInt8 × Bytes)} :
    checkConfig state tlvs = .ok () ↔ Passes state tlvs ∧ WellFormed tlvs := by
  have hlengths : ¬(tlvs.any fun tlv => (configLength tlv.1).any (· ≠ tlv.2.length)) = true ↔
      ∀ tlv ∈ tlvs, ∀ n ∈ configLength tlv.1, tlv.2.length = n := by
    simp only [Bool.not_eq_true, List.any_eq_false, Option.any_eq_true, not_exists, Option.mem_def]
    grind
  have hform : WellFormed tlvs ↔ (∀ value ∈ tlvGet tlvs 0x03, value.length = 2 ∧
      UInt16.ofNat (Bytes.beNat value) &&& ~~~supportedCapabilities = 0) ∧
      (∀ value ∈ tlvGet tlvs 0x0E, value.length = 2) ∧
      ∀ tlv ∈ tlvs, ∀ n ∈ configLength tlv.1, tlv.2.length = n :=
    ⟨fun h => ⟨h.usb, h.nfc, h.lengths⟩, fun h => ⟨h.1, h.2.1, h.2.2⟩⟩
  rw [hform, ← hlengths, Passes]
  unfold checkConfig
  rcases h0B : tlvGet tlvs 0x0B with _ | cur
  all_goals rcases h03 : tlvGet tlvs 0x03 with _ | usb
  all_goals rcases h0E : tlvGet tlvs 0x0E with _ | nfc
  all_goals rcases hlock : state.lockCode with _ | lock
  all_goals simp only [throw_else_eq_ok, throw_eq_ok, Except.bind_eq_ok]
  all_goals simp only [u16OfBe_eq_ok, Option.mem_def, Option.some.injEq, reduceCtorEq]
  all_goals grind

section

variable {o : Option Bytes}

/-- A setting of two bytes is taken from its value, and is as before where the value is. -/
theorem u16Setting (x : UInt16) (hlen : ∀ value ∈ o, value.length = 2) :
    ∃ y, o.elim (pure x) u16OfBe = .ok y ∧
      (y = x ↔ ∀ value ∈ o, value = Bytes.beBytes 2 x.toNat) := by
  cases o with
  | none => exact ⟨x, rfl, iff_of_true rfl fun _ h => nomatch h⟩
  | some value =>
      have hvalue := hlen value rfl
      refine ⟨_, u16OfBe_eq_ok.mpr ⟨hvalue, rfl⟩, ?_⟩
      simp only [Option.mem_def, Option.some.injEq, forall_eq']
      constructor
      · rintro rfl
        have hlt : value.beNat < 2 ^ 16 := by
          have hlt := Bytes.beNat_lt value
          rwa [hvalue] at hlt
        rw [UInt16.toNat_ofNat', Nat.mod_eq_of_lt hlt, ← hvalue, Bytes.beBytes_beNat]
      · rintro rfl
        rw [Bytes.beNat_beBytes_of_lt x.toNat_lt, UInt16.ofNat_toNat]

theorem byteSetting (x : UInt8) (hlen : ∀ value ∈ o, value.length = 1) :
    ∃ y, o.elim (pure x) firstByte = .ok y ∧ (y = x ↔ ∀ value ∈ o, value = [x]) := by
  cases o with
  | none => exact ⟨x, rfl, iff_of_true rfl fun _ h => nomatch h⟩
  | some value =>
      match value, hlen value rfl with
      | [b], _ => exact ⟨b, rfl, by simp⟩

theorem lockSetting (lock : LockCode) (hlen : ∀ value ∈ o, value.length = 16) :
    ∃ y, o.elim (pure (some lock)) newLockCode = .ok y ∧
      (y = some lock ↔ (∀ value ∈ o, value = lock.1) ∧ o ≠ some (List.replicate 16 0)) := by
  cases o with
  | none => exact ⟨_, rfl, iff_of_true rfl ⟨(fun _ h => nomatch h), fun h => nomatch h⟩⟩
  | some value =>
      refine ⟨_, dif_pos (hlen value rfl), ?_⟩
      simp only [Option.mem_def, Option.some.injEq, forall_eq', ne_eq]
      by_cases hzero : value = List.replicate 16 0
      · rw [if_pos hzero]
        exact iff_of_false (fun h => nomatch h) fun h => h.2 hzero
      · rw [if_neg hzero]
        exact ⟨fun h => ⟨congrArg Subtype.val (Option.some.inj h), hzero⟩,
          fun h => congrArg some (Subtype.ext h.1)⟩

end

/-- A well formed request is applied, and leaves the configuration as it is exactly when it alters
no setting. -/
theorem applyConfig_eq_ok {state : ManagementState} {lock : LockCode}
    (hlock : state.lockCode = some lock) {tlvs : List (UInt8 × Bytes)} (hform : WellFormed tlvs) :
    ∃ new, applyConfig state tlvs = .ok new ∧ (new = state ↔ ¬Alters state lock tlvs) := by
  have hlength : ∀ (tag : UInt8) {n : Nat}, configLength tag = some n →
      ∀ value ∈ tlvGet tlvs tag, value.length = n :=
    fun tag n hn value hvalue => hform.lengths _ (mem_of_tlvGet hvalue) _ hn
  obtain ⟨usb, husb, husb'⟩ := u16Setting state.usbEnabled fun v hv => (hform.usb v hv).1
  obtain ⟨nfc, hnfc, hnfc'⟩ := u16Setting state.nfcEnabled hform.nfc
  obtain ⟨eject, heject, heject'⟩ := u16Setting state.autoEjectTimeout
    (hlength 0x06 (by decide))
  obtain ⟨resp, hresp, hresp'⟩ := byteSetting state.chalrespTimeout
    (hlength 0x07 (by decide))
  obtain ⟨flags, hflags, hflags'⟩ := byteSetting state.deviceFlags
    (hlength 0x08 (by decide))
  obtain ⟨code, hcode, hcode'⟩ := lockSetting lock
    (hlength 0x0A (by decide))
  refine ⟨{ state with
    usbEnabled := usb, nfcEnabled := nfc, autoEjectTimeout := eject, chalrespTimeout := resp,
    deviceFlags := flags, lockCode := code }, ?_, ?_⟩
  · unfold applyConfig
    rw [husb, hnfc, heject, hresp, hflags, hlock, hcode]
    rfl
  · have hall : ¬Alters state lock tlvs ↔ (∀ now ∈ settings state lock,
        ∀ value ∈ tlvGet tlvs now.1, value = now.2) ∧
          tlvGet tlvs 0x0A ≠ some (List.replicate 16 0) := by
      unfold Alters
      push Not
      rfl
    rw [hall]
    simp only [settings, List.forall_mem_cons, List.not_mem_nil, false_imp_iff, implies_true,
      and_true, ← husb', ← hnfc', ← heject', ← hresp', ← hflags', and_assoc, ← hcode', ← hlock]
    cases state
    simp only [ManagementState.mk.injEq, true_and]

/-! ## The lock -/

/-- A WRITE CONFIG with these values under their tags. -/
structure WritesConfig (apdu : Apdu) (tlvs : List (UInt8 × Bytes)) : Prop where
  cla : apdu.cla = 0
  ins : apdu.ins = 0x1C
  p1 : apdu.p1 = 0
  p2 : apdu.p2 = 0
  parsed : parseConfigPayload apdu.data = .ok tlvs

/-- A SET MODE with these values. -/
structure SetsMode (apdu : Apdu) (caps : UInt16) (chalrespTimeout lo hi : UInt8) : Prop where
  cla : apdu.cla = 0
  ins : apdu.ins = 0x16
  p1 : apdu.p1 = 0x11
  data : ∃ mode, apdu.data = [mode, chalrespTimeout, lo, hi] ∧
    modeCaps[(mode &&& 0x07).toNat]? = some caps

/-- The command carries the lock code under the tag that unlocks. -/
def Unlocks (lock : LockCode) (apdu : Apdu) : Prop :=
  ∃ tlvs, WritesConfig apdu tlvs ∧ tlvGet tlvs 0x0B = some lock.1

/-- The commands that change a locked configuration without the code: a WRITE CONFIG that alters a
setting and has no tag that unlocks, and a SET MODE with other values than the settings have. -/
inductive Overrides (state : ManagementState) (lock : LockCode) (apdu : Apdu) : Prop
  | config (tlvs : List (UInt8 × Bytes)) (writes : WritesConfig apdu tlvs)
      (silent : tlvGet tlvs 0x0B = none) (form : WellFormed tlvs)
      (alters : Alters state lock tlvs)
  | mode (caps : UInt16) (chalrespTimeout lo hi : UInt8)
      (sets : SetsMode apdu caps chalrespTimeout lo hi)
      (alters : caps &&& supportedCapabilities ≠ state.usbEnabled ∨
        chalrespTimeout ≠ state.chalrespTimeout ∨
        UInt16.ofNat (Bytes.beNat [hi, lo]) ≠ state.autoEjectTimeout)

theorem writtenConfig_eq_some {state new : ManagementState} {tlvs : List (UInt8 × Bytes)} :
    writtenConfig state tlvs = some new ↔
      checkConfig state tlvs = .ok () ∧ applyConfig state tlvs = .ok new := by
  unfold writtenConfig
  rcases checkConfig state tlvs with e | _
  · exact iff_of_false (fun h => nomatch h) fun h => nomatch h.1
  · rcases applyConfig state tlvs with e | made
    · exact iff_of_false (fun h => nomatch h) fun h => nomatch h.2
    · exact ⟨fun h => ⟨rfl, congrArg Except.ok (Option.some.inj h)⟩,
        fun h => congrArg some (Except.ok.inj h.2)⟩

theorem requested_writesConfig {state : ManagementState} {apdu : Apdu}
    {tlvs : List (UInt8 × Bytes)} (h : WritesConfig apdu tlvs) :
    requested state apdu = writtenConfig state tlvs := by
  unfold requested
  rw [if_neg (not_not.mpr h.cla), if_pos h.ins, if_pos ⟨h.p1, h.p2⟩, h.parsed]

theorem requested_setsMode {state : ManagementState} {apdu : Apdu} {caps : UInt16}
    {chalrespTimeout lo hi : UInt8} (h : SetsMode apdu caps chalrespTimeout lo hi) :
    requested state apdu = some (modeConfig state caps chalrespTimeout lo hi) := by
  obtain ⟨mode, hdata, hcaps⟩ := h.data
  unfold requested
  rw [if_neg (not_not.mpr h.cla), if_neg (by rw [h.ins]; decide), if_pos h.ins, if_pos h.p1, hdata]
  simp only [hcaps, Option.map_some]

/-- Only these two commands set a state. -/
theorem requested_cases {state new : ManagementState} {apdu : Apdu}
    (h : requested state apdu = some new) :
    (∃ tlvs, WritesConfig apdu tlvs) ∨
      ∃ caps chalrespTimeout lo hi, SetsMode apdu caps chalrespTimeout lo hi := by
  unfold requested at h
  split at h
  · cases h
  · next hcla =>
      split at h
      · next hins =>
          split at h
          · next hp =>
              split at h
              · next tlvs hparsed => exact .inl ⟨tlvs, not_not.mp hcla, hins, hp.1, hp.2, hparsed⟩
              · cases h
          · cases h
      · split at h
        · next hins =>
            split at h
            · next hp =>
                split at h
                · next mode chalrespTimeout lo hi hdata =>
                    obtain ⟨caps, hcaps, -⟩ := Option.map_eq_some_iff.mp h
                    exact .inr ⟨caps, chalrespTimeout, lo, hi, not_not.mp hcla, hins, hp,
                      mode, hdata, hcaps⟩
                · cases h
            · cases h
        · cases h

theorem modeConfig_eq {state : ManagementState} {caps : UInt16} {chalrespTimeout lo hi : UInt8} :
    modeConfig state caps chalrespTimeout lo hi = state ↔
      caps &&& supportedCapabilities = state.usbEnabled ∧
        chalrespTimeout = state.chalrespTimeout ∧
        UInt16.ofNat (Bytes.beNat [hi, lo]) = state.autoEjectTimeout := by
  cases state
  simp only [modeConfig, ManagementState.mk.injEq, true_and, and_true]
  exact ⟨fun ⟨h1, h2, h3⟩ => ⟨h1, h3, h2⟩, fun ⟨h1, h2, h3⟩ => ⟨h1, h3, h2⟩⟩

/-- Without the code, these commands are the ones that set another state. -/
theorem overrides_iff {state : ManagementState} {lock : LockCode}
    (hlock : state.lockCode = some lock) {apdu : Apdu} (hlocked : ¬Unlocks lock apdu) :
    Overrides state lock apdu ↔ ∃ new, requested state apdu = some new ∧ new ≠ state := by
  constructor
  · rintro (⟨tlvs, hwrites, hsilent, hform, halters⟩ | ⟨caps, resp, lo, hi, hsets, halters⟩)
    · obtain ⟨new, happly, hsame⟩ := applyConfig_eq_ok hlock hform
      refine ⟨new, ?_, fun h => hsame.mp h halters⟩
      have hpasses : Passes state tlvs := fun cur hcur => by
        rw [hsilent] at hcur
        cases hcur
      rw [requested_writesConfig hwrites]
      exact writtenConfig_eq_some.mpr ⟨checkConfig_eq_ok.mpr ⟨hpasses, hform⟩, happly⟩
    · refine ⟨_, requested_setsMode hsets, fun h => ?_⟩
      obtain ⟨husb, hresp, heject⟩ := modeConfig_eq.mp h
      rcases halters with hne | hne | hne
      · exact hne husb
      · exact hne hresp
      · exact hne heject
  · rintro ⟨new, hnew, hne⟩
    obtain ⟨tlvs, hwrites⟩ | ⟨caps, resp, lo, hi, hsets⟩ := requested_cases hnew
    · rw [requested_writesConfig hwrites] at hnew
      obtain ⟨hcheck, happly⟩ := writtenConfig_eq_some.mp hnew
      obtain ⟨hpasses, hform⟩ := checkConfig_eq_ok.mp hcheck
      have hsilent : tlvGet tlvs 0x0B = none := by
        refine Option.eq_none_iff_forall_ne_some.mpr fun cur hcur => hlocked ⟨tlvs, hwrites, ?_⟩
        rw [hcur, (hpasses cur hcur).2 lock hlock]
      obtain ⟨new', happly', hsame⟩ := applyConfig_eq_ok hlock hform
      obtain rfl : new = new' := Except.ok.inj (happly.symm.trans happly')
      exact .config tlvs hwrites hsilent hform (not_not.mp fun h => hne (hsame.mpr h))
    · refine .mode caps resp lo hi hsets ?_
      rw [requested_setsMode hsets] at hnew
      obtain rfl := Option.some.inj hnew
      rw [ne_eq, modeConfig_eq] at hne
      tauto

theorem Overrides.not_unlocks {state : ManagementState} {lock : LockCode} {apdu : Apdu}
    (h : Overrides state lock apdu) : ¬Unlocks lock apdu := by
  rintro ⟨tlvs, hwrites, hcode⟩
  cases h with
  | config tlvs' hwrites' hsilent =>
      obtain rfl : tlvs' = tlvs := Except.ok.inj (hwrites'.parsed.symm.trans hwrites.parsed)
      rw [hsilent] at hcode
      cases hcode
  | mode caps resp lo hi hsets => exact absurd (hsets.ins.symm.trans hwrites.ins) (by decide)

/-- The configuration is as before, in memory and on the medium. -/
structure KeepsConfig {β : Type} [StorageBackend β] [FallibleBackend β] (crypto : AppletCrypto)
    (patience : Nat) (state : ManagementState) (h g : Host β ManagementState Unit) : Prop where
  memory : g.memory.state = some state
  held : g.storage.heldEntry (managementFormat patience).storageKey =
      h.storage.heldEntry (managementFormat patience).storageKey ∨
    ∃ blob entropy, g.storage.heldEntry (managementFormat patience).storageKey = some blob ∧
      Host.sealState crypto (managementFormat patience) state entropy = .ok blob

/-- The event is a SELECT, or a command that neither carries the code nor changes the configuration
without it. -/
def Spares (state : ManagementState) (lock : LockCode) : AppletName.Event → Prop
  | .select => True
  | .command apdu => ¬Unlocks lock apdu ∧ ¬Overrides state lock apdu
  | .reboot _ _ => False

section

variable {β : Type} [StorageBackend β] [FallibleBackend β] {crypto : AppletCrypto} {patience : Nat}
  {state : ManagementState} {h g : Host β ManagementState Unit}

theorem Configures.backend {target : Option ManagementState}
    (hout : Configures crypto patience state h g target) (hb : h.storage.backend.isSome) :
    g.storage.backend.isSome := by
  cases hout with
  | stays _ storage =>
      rw [storage]
      exact hb
  | written _ _ backend _ => exact backend
  | failed _ _ backend _ => exact backend

/-- The configuration is kept exactly where the command sets none, or the one there is. -/
theorem Configures.keepsConfig_iff {target : Option ManagementState}
    (hout : Configures crypto patience state h g target) :
    KeepsConfig crypto patience state h g ↔ ∀ new ∈ target, new = state := by
  cases hout with
  | stays memory storage =>
      exact iff_of_true ⟨memory, .inl (by rw [storage])⟩ fun _ hnew => nomatch hnew
  | written made memory backend held =>
      constructor
      · rintro hkeeps new ⟨⟩
        exact Option.some.inj (memory.symm.trans hkeeps.memory)
      · intro hsame
        obtain rfl := hsame made rfl
        exact ⟨memory, .inr held⟩
  | failed made memory backend held =>
      constructor
      · rintro hkeeps new ⟨⟩
        exact Option.some.inj (memory.symm.trans hkeeps.memory)
      · intro hsame
        obtain rfl := hsame made rfl
        exact ⟨memory, .inl held⟩

/-- **The lock.** With a lock code set, a command without the code leaves the configuration and the
code as they are exactly when it does not override them; and so does a run of such commands. -/
theorem lock_holds_iff (patience : Nat) (codec : Codec StoredCredential) {m : Machine β .management}
    {lock : LockCode} (hb : m.host.storage.backend.isSome)
    (hmem : m.host.memory.state = some state) (hlock : state.lockCode = some lock) :
    (∀ apdu, (¬Unlocks lock apdu →
      KeepsConfig m.crypto patience state m.host (m.respond patience apdu).2) ↔
        ¬Overrides state lock apdu) ∧
    ∀ events : List AppletName.Event, (∀ e ∈ events, Spares state lock e) →
      (m.run patience codec events).host.memory.state = some state ∧
        ∀ p ∈ m.trace patience codec events, KeepsConfig p.1.crypto patience state p.1.host
          (p.1.step patience codec p.2).host := by
  have hrespond : ∀ {m : Machine β .management}, m.host.storage.backend.isSome →
      m.host.memory.state = some state → ∀ apdu,
      Configures m.crypto patience state m.host (m.respond patience apdu).2
        (requested state apdu) := fun hb hmem apdu => ends_managementProcess hmem hb apdu
  have hkeeps : ∀ {m : Machine β .management}, m.host.storage.backend.isSome →
      m.host.memory.state = some state → ∀ {apdu}, ¬Unlocks lock apdu →
      (KeepsConfig m.crypto patience state m.host (m.respond patience apdu).2 ↔
        ¬Overrides state lock apdu) := by
    intro m hb hmem apdu hlocked
    rw [(hrespond hb hmem apdu).keepsConfig_iff, overrides_iff hlock hlocked]
    push Not
    rfl
  refine ⟨fun apdu => ⟨fun h hover => ?_, fun h hlocked => (hkeeps hb hmem hlocked).mpr h⟩, ?_⟩
  · exact (hkeeps hb hmem hover.not_unlocks).mp (h hover.not_unlocks) hover
  · intro events
    induction events generalizing m with
    | nil => exact fun _ => ⟨hmem, fun _ hp => nomatch hp⟩
    | cons e events ih =>
        intro hspares
        have hstep : KeepsConfig m.crypto patience state m.host (m.step patience codec e).host ∧
            (m.step patience codec e).host.storage.backend.isSome := by
          have he := hspares e List.mem_cons_self
          cases e with
          | select =>
              have hselect : Host.Ends m.crypto (managementFormat patience)
                  (ensureLoaded >>= fun _ => pure [0x35, 0x2E, 0x34, 0x2E, 0x30]) m.host
                    fun (_ : Except Fault Bytes) g => g = m.host :=
                .ensureLoaded hmem (.pure rfl)
              have hselect : (m.step patience codec .select).host = m.host := hselect
              rw [hselect]
              exact ⟨⟨hmem, .inl rfl⟩, hb⟩
          | command apdu =>
              exact ⟨(hkeeps hb hmem he.1).mpr he.2, (hrespond hb hmem apdu).backend hb⟩
          | reboot key rng => exact he.elim
        obtain ⟨hlast, htrace⟩ := ih hstep.2 hstep.1.memory fun e he =>
          hspares e (List.mem_cons_of_mem _ he)
        exact ⟨hlast, List.forall_mem_cons.mpr ⟨hstep.1, htrace⟩⟩

end

/-! ## A code that anyone removes -/

/-- What ChaCha20-Poly1305 makes of a factory state without and with the lock code `A5..A5`. -/
def lockAead : KnownAead where
  rows := [
    .of 0x02 0x09
      (Bytes.beBytes 30 0x0209090909062e0000000000000000000000000000000000000000000000)
      (Bytes.beBytes 46
        0x107e19c4c0fb3fe7acb9cb6a5b51d159d5607cc0bd1ba07e3a1fcc19097574d9d69c44499c5f370ac4f6c38df63b),
    .of 0x02 0x09
      (Bytes.beBytes 30 0x0209090909062e00000000000001a5a5a5a5a5a5a5a5a5a5a5a5a5a5a5a5)
      (Bytes.beBytes 46
        0x107e19c4c0fb3fe7acb9cb6a5b5074fc70c5d96518be05db9fba69bcacd022b09bba9538b26a195b07238f363314)]
  opens := by decide +kernel
  one_key := by decide +kernel
  apart := by decide +kernel
  ne_nil := by decide +kernel

/-- The code `A5..A5`. -/
def sampleLock : LockCode := ⟨List.replicate 16 0xA5, List.length_replicate⟩

/-- A WRITE CONFIG of some bytes under their tags. -/
def writeConfig (body : Bytes) : Apdu :=
  ⟨0, 0x1C, 0, 0, UInt8.ofNat body.length :: body, none⟩

/-- An applet with this code: after a boot over an empty medium, a WRITE CONFIG has set it. -/
def lockedApplet : Machine KvMap .management :=
  (Machine.boot 1 (lockAead.crypto (List.replicate 32 0x02) KnownAead.length_masterKey)
    (.withBackend unusedCodec ∅) (KnownAead.constantDraws 0x09)).run 1 unusedCodec
      [.command (writeConfig (0x0A :: 0x10 :: sampleLock.1))]

/-- The configuration of this applet. -/
def lockedConfig : ManagementState :=
  { ManagementState.factory 0x09090909 (by decide) with lockCode := some sampleLock }

theorem memory_lockedApplet : lockedApplet.host.memory.state = some lockedConfig := by
  have hsame : ∀ h : Host KvMap ManagementState Unit,
      decide (h.memory.state = some lockedConfig) = true → h.memory.state = some lockedConfig :=
    fun _ => of_decide_eq_true
  exact hsame lockedApplet.host (by decide +kernel)

/-- WRITE CONFIG of 16 zeros for the code, without the code that is set. -/
def removeLock : Apdu := writeConfig (0x0A :: 0x10 :: List.replicate 16 0)

/-- A WRITE CONFIG without the code removes it. -/
theorem lock_removed : ¬∀ (apdu : Apdu) (state : ManagementState) (lock : LockCode),
    lockedApplet.host.memory.state = some state → state.lockCode = some lock →
    ¬Unlocks lock apdu → (lockedApplet.respond 1 apdu).2.memory.state = some state := by
  intro hholds
  have hlocked : ¬Unlocks sampleLock removeLock := by
    rintro ⟨tlvs, hwrites, hcode⟩
    have hparsed : parseConfigPayload removeLock.data = .ok [(0x0A, List.replicate 16 0)] := by
      decide +kernel
    obtain rfl := Except.ok.inj (hparsed.symm.trans hwrites.parsed)
    exact absurd hcode (by decide)
  have hsame := hholds removeLock lockedConfig sampleLock memory_lockedApplet rfl hlocked
  have hremoved : ((lockedApplet.respond 1 removeLock).2.memory.state.bind
      ManagementState.lockCode) = none := by
    decide +kernel
  rw [hsame] at hremoved
  cases hremoved

/-- A WRITE CONFIG with another code, which is refused. -/
def wrongCode : Apdu :=
  writeConfig (0x0B :: 0x10 :: List.replicate 16 0x5A ++ 0x03 :: 0x02 :: [0x00, 0x02])

theorem lock_holds_wrong_code :
    (lockedApplet.run 1 unusedCodec [.select, .command wrongCode]).host.memory.state =
      some lockedConfig := by
  have hparsed : parseConfigPayload wrongCode.data =
      .ok [(0x0B, List.replicate 16 0x5A), (0x03, [0x00, 0x02])] := by
    decide +kernel
  have hspares : Spares lockedConfig sampleLock (.command wrongCode) := by
    constructor
    · rintro ⟨tlvs, hwrites, hcode⟩
      obtain rfl := Except.ok.inj (hparsed.symm.trans hwrites.parsed)
      exact absurd hcode (by decide)
    · rintro (⟨tlvs, hwrites, hsilent⟩ | ⟨caps, resp, lo, hi, hsets⟩)
      · obtain rfl := Except.ok.inj (hparsed.symm.trans hwrites.parsed)
        exact absurd hsilent (by decide)
      · exact absurd hsets.ins (by decide)
  refine ((lock_holds_iff 1 unusedCodec (by decide +kernel) memory_lockedApplet rfl).2 _ ?_).1
  exact List.forall_mem_cons.mpr ⟨trivial, List.forall_mem_cons.mpr ⟨hspares, fun _ h => nomatch h⟩⟩

end Management

end OpenKey
