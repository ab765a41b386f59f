import OpenKey.Device.ManagementLock

/-!
# Failures of the Management applet

**Theorem (`sound_iff`).** In a run of commands that are each proper, over a storage that may fail,
the interfaces that are enabled are supported ones, and memory holds what is persisted. There a
command is sound if and only if it is proper:

- *sound* is to end without a panic, to leave only supported interfaces enabled, to leave the
  configuration as it is and persisted where it ends in a status word, and to answer READ CONFIG
  with the length of what follows;
- *proper* is not to be SET MODE with the code 7, and not to set another configuration that the
  storage refuses.

A mode code has three bits and `MODE_CAPS` seven entries. WRITE CONFIG and SET MODE change the
configuration in memory before they persist it, and leave it changed where that fails.
-/

namespace OpenKey

open Command
open AppletName (Machine)

set_option autoImplicit false

namespace Management

/-! ## What a command may do -/

/-- The code that no mode has. -/
def UnknownCode (p1 : UInt8) (data : Bytes) : Prop :=
  p1 = 0x11 ∧ ∃ mode chalrespTimeout lo hi, data = [mode, chalrespTimeout, lo, hi] ∧
    (mode &&& 0x07).toNat = 7

/-- A SET MODE with this code. -/
def UnknownMode (apdu : Apdu) : Prop :=
  apdu.cla = 0 ∧ apdu.ins = 0x16 ∧ UnknownCode apdu.p1 apdu.data

/-- Only supported interfaces are enabled. -/
def Supported (state : ManagementState) : Prop :=
  state.usbEnabled &&& ~~~supportedCapabilities = 0

/-- The first byte is the number of bytes that follow. -/
def LengthPrefixed (data : Bytes) : Prop :=
  ∃ len rest, data = len :: rest ∧ len.toNat = rest.length

/-- How a command ends: it panics on an unknown mode only. -/
def Answers (apdu : Apdu) : Except Fault ResponseData → Prop
  | .ok response => ¬UnknownMode apdu ∧ (apdu.ins = 0x1D → LengthPrefixed response.data)
  | .error (.status _) => ¬UnknownMode apdu
  | .error .panic => UnknownMode apdu
  | .error .hang => False

/-- The change of a command that sets a configuration, and leaves it set where the storage refuses
it. -/
def configChange (new : ManagementState) : Change ManagementState Unit :=
  ⟨new, 0, (), .ok (.ok []), new, ()⟩

/-! ## READ CONFIG -/

/-- A payload behind its length. -/
def Framed (r : Except Fault Bytes) : Prop := ∃ payload, r = .ok payload ∧ LengthPrefixed payload

section

variable {out value : Bytes} {n : Nat} {f : Bytes → Except Fault Bytes} (tag : UInt8)
  (hout : out.length ≤ n) (h : value.length ≤ 4)
  (hf : ∀ out' : Bytes, out'.length ≤ n + 6 → Framed (f out'))

include hout h hf

theorem framed_pushTlv : Framed (pushTlv out tag value >>= f) := by
  rw [pushTlv, if_pos (by omega)]
  refine hf _ ?_
  simp only [List.length_append, List.length_cons]
  omega

theorem framed_optional {c : Prop} [Decidable c] :
    Framed (if c then pushTlv out tag value >>= f else pure out >>= f) := by
  by_cases hc : c
  · rw [if_pos hc]
    exact framed_pushTlv tag hout h hf
  · rw [if_neg hc]
    exact hf out (by omega)

end

/-- The configuration fits behind one byte of length. -/
theorem framed_readConfigPayload (state : ManagementState) : Framed (readConfigPayload state) := by
  have hnumber : ∀ w n : Nat, w ≤ 4 → (Bytes.beBytes w n).length ≤ 4 := fun w n hw => by
    rw [Bytes.length_beBytes]
    exact hw
  refine framed_pushTlv (n := 0) 0x01 (by simp) (hnumber _ _ (by decide)) fun _ hout => ?_
  refine framed_pushTlv 0x02 hout (hnumber _ _ (by decide)) fun _ hout => ?_
  refine framed_pushTlv 0x03 hout (hnumber _ _ (by decide)) fun _ hout => ?_
  refine framed_pushTlv 0x04 hout (by simp) fun _ hout => ?_
  refine framed_pushTlv 0x05 hout (by simp) fun _ hout => ?_
  refine framed_optional 0x06 hout (hnumber _ _ (by decide)) fun _ hout => ?_
  refine framed_optional 0x07 hout (by simp) fun _ hout => ?_
  refine framed_optional 0x08 hout (by simp) fun _ hout => ?_
  refine framed_optional 0x0E hout (hnumber _ _ (by decide)) fun out hout => ?_
  refine ⟨_, rfl, _, _, rfl, ?_⟩
  rw [UInt8.toNat_ofNat', Nat.mod_eq_of_lt (by omega)]

/-! ## WRITE CONFIG -/

/-- A check fails with a status word only. -/
def FailsWithStatus {α : Type} (m : Except Fault α) : Prop :=
  ∀ e, m = .error e → ∃ sw, e = .status sw

section

variable {α γ : Type} {sw : UInt16}

theorem failsWithStatus_throw : FailsWithStatus (throw (.status sw) : Except Fault α) :=
  fun _ h => ⟨sw, (Except.error.inj h).symm⟩

theorem failsWithStatus_throw_bind {f : γ → Except Fault α} :
    FailsWithStatus (throw (.status sw) >>= f) :=
  fun _ h => ⟨sw, (Except.error.inj h).symm⟩

theorem failsWithStatus_pure (a : α) : FailsWithStatus (pure a) := fun _ h => absurd h nofun

theorem failsWithStatus_ite {c : Prop} [Decidable c] {m m' : Except Fault α}
    (hm : c → FailsWithStatus m) (hm' : ¬c → FailsWithStatus m') :
    FailsWithStatus (if c then m else m') := by
  by_cases hc : c
  · rw [if_pos hc]
    exact hm hc
  · rw [if_neg hc]
    exact hm' hc

theorem failsWithStatus_u16OfBe {value : Bytes} {f : UInt16 → Except Fault α}
    (h : ¬value.length ≠ 2) (hf : ∀ n, FailsWithStatus (f n)) :
    FailsWithStatus (u16OfBe value >>= f) := by
  rw [u16OfBe_eq_ok.mpr ⟨not_not.mp h, rfl⟩]
  exact hf _

end

/-- The lengths are checked before the bytes are read. -/
theorem failsWithStatus_checkConfig (state : ManagementState) (tlvs : List (UInt8 × Bytes)) :
    FailsWithStatus (checkConfig state tlvs) := by
  unfold checkConfig
  rcases tlvGet tlvs 0x0B with _ | cur
  all_goals rcases tlvGet tlvs 0x03 with _ | usb
  all_goals rcases tlvGet tlvs 0x0E with _ | nfc
  all_goals rcases state.lockCode with _ | lock
  all_goals
    repeat' first
      | exact failsWithStatus_throw
      | exact failsWithStatus_throw_bind
      | exact failsWithStatus_pure _
      | refine failsWithStatus_ite (fun _ => ?_) fun _ => ?_
      | refine failsWithStatus_u16OfBe (by assumption) fun _ => ?_

/-- What passes the checks can be applied, and enables what it says. -/
theorem applyConfig_usb {state : ManagementState} {tlvs : List (UInt8 × Bytes)} {usb : UInt16}
    (hform : WellFormed tlvs)
    (husb : (tlvGet tlvs 0x03).elim (pure state.usbEnabled) u16OfBe = .ok usb) :
    ∃ new, applyConfig state tlvs = .ok new ∧ new.usbEnabled = usb := by
  have hlength : ∀ (tag : UInt8) {n : Nat}, configLength tag = some n →
      ∀ value ∈ tlvGet tlvs tag, value.length = n :=
    fun tag n hn value hvalue => hform.lengths _ (mem_of_tlvGet hvalue) _ hn
  obtain ⟨nfc, hnfc, -⟩ := u16Setting state.nfcEnabled hform.nfc
  obtain ⟨eject, heject, -⟩ := u16Setting state.autoEjectTimeout (hlength 0x06 (by decide))
  obtain ⟨resp, hresp, -⟩ := byteSetting state.chalrespTimeout (hlength 0x07 (by decide))
  obtain ⟨flags, hflags, -⟩ := byteSetting state.deviceFlags (hlength 0x08 (by decide))
  obtain ⟨code, hcode⟩ : ∃ code,
      (tlvGet tlvs 0x0A).elim (pure state.lockCode) newLockCode = .ok code := by
    cases hvalue : tlvGet tlvs 0x0A with
    | none => exact ⟨_, rfl⟩
    | some value => exact ⟨_, dif_pos (hlength 0x0A (by decide) value hvalue)⟩
  exact ⟨_, Except.bind_eq_ok.mpr ⟨usb, husb, Except.bind_eq_ok.mpr ⟨nfc, hnfc,
    Except.bind_eq_ok.mpr ⟨eject, heject, Except.bind_eq_ok.mpr ⟨resp, hresp,
      Except.bind_eq_ok.mpr ⟨flags, hflags, Except.bind_eq_ok.mpr ⟨code, hcode, rfl⟩⟩⟩⟩⟩⟩, rfl⟩

/-- What is enabled stays among what is supported. -/
theorem applyConfig_ok {state : ManagementState} {tlvs : List (UInt8 × Bytes)}
    (hform : WellFormed tlvs) (hstate : Supported state) :
    ∃ new, applyConfig state tlvs = .ok new ∧ Supported new := by
  obtain ⟨usb, husb, hsupported⟩ : ∃ usb,
      (tlvGet tlvs 0x03).elim (pure state.usbEnabled) u16OfBe = .ok usb ∧
        usb &&& ~~~supportedCapabilities = 0 := by
    cases hvalue : tlvGet tlvs 0x03 with
    | none => exact ⟨_, rfl, hstate⟩
    | some value =>
        obtain ⟨hlen, hsupported⟩ := hform.usb value hvalue
        exact ⟨_, u16OfBe_eq_ok.mpr ⟨hlen, rfl⟩, hsupported⟩
  obtain ⟨new, hnew, rfl⟩ := applyConfig_usb hform husb
  exact ⟨new, hnew, hsupported⟩

/-! ## SET MODE -/

/-- The modes have the codes below 7. -/
theorem modeCaps_eq_none {mode : UInt8} :
    modeCaps[(mode &&& 0x07).toNat]? = none ↔ (mode &&& 0x07).toNat = 7 := by
  have hle : (mode &&& 0x07).toNat ≤ 7 := by
    rw [UInt8.toNat_and]
    exact Nat.and_le_right
  rw [List.getElem?_eq_none_iff]
  show 7 ≤ _ ↔ _
  omega

theorem supported_modeConfig (state : ManagementState) (caps : UInt16)
    (chalrespTimeout lo hi : UInt8) : Supported (modeConfig state caps chalrespTimeout lo hi) := by
  show caps &&& supportedCapabilities &&& ~~~supportedCapabilities = 0
  rw [UInt16.and_assoc, UInt16.and_not_self, UInt16.and_zero]

/-- Whatever is set enables supported interfaces only. -/
theorem supported_requested {state new : ManagementState} {apdu : Apdu} (hstate : Supported state)
    (h : requested state apdu = some new) : Supported new := by
  obtain ⟨tlvs, hwrites⟩ | ⟨caps, resp, lo, hi, hsets⟩ := requested_cases h
  · rw [requested_writesConfig hwrites] at h
    obtain ⟨hcheck, happly⟩ := writtenConfig_eq_some.mp h
    obtain ⟨new', happly', hnew'⟩ := applyConfig_ok (checkConfig_eq_ok.mp hcheck).2 hstate
    obtain rfl := Except.ok.inj (happly.symm.trans happly')
    exact hnew'
  · rw [requested_setsMode hsets] at h
    obtain rfl := Option.some.inj h
    exact supported_modeConfig state caps resp lo hi

/-! ## How a command ends -/

/-- A command that sets a configuration ends in a status word or without data. -/
def Done (r : Except Fault ResponseData) : Prop :=
  (∃ sw, r = .error (.status sw)) ∨ r = .ok (.ok [])

theorem Done.answers {apdu : Apdu} {r : Except Fault ResponseData} (hdone : Done r)
    (hmode : ¬UnknownMode apdu) (hins : apdu.ins ≠ 0x1D) : Answers apdu r := by
  obtain ⟨sw, rfl⟩ | rfl := hdone
  · exact hmode
  · exact ⟨hmode, fun hread => absurd hread hins⟩

section

variable {β : Type} [StorageBackend β] [FallibleBackend β] {crypto : AppletCrypto} {patience : Nat}
  {state : ManagementState} {h : Host β ManagementState Unit}

/-- The command makes the change of this configuration, if there is one. -/
def Settles (crypto : AppletCrypto) (patience : Nat) (h g : Host β ManagementState Unit)
    (target : Option ManagementState) (r : Except Fault ResponseData) : Prop :=
  Change.Outcome crypto (managementFormat patience) h g (target.map configChange) r

theorem settles_none {r : Except Fault ResponseData} : Settles crypto patience h h none r :=
  .stays r rfl rfl rfl

variable (hmem : h.memory.state = some state)

include hmem

omit [FallibleBackend β] in
theorem ends_readConfig (page : UInt8) :
    Host.Ends crypto (managementFormat patience) (cmdReadConfig page) h fun r g => g = h ∧
      ((∃ sw, r = .error (.status sw)) ∨
        ∃ payload, r = .ok (.ok payload) ∧ LengthPrefixed payload) := by
  refine .require (fun _ => ?_) fun _ => ⟨rfl, .inl ⟨_, rfl⟩⟩
  refine .ensureLoaded hmem (.loadedState hmem
    (.orFault (fun payload hpayload => ?_) fun e he => ?_))
  · obtain ⟨framed, hframed, hprefix⟩ := framed_readConfigPayload state
    obtain rfl := Except.ok.inj (hframed.symm.trans hpayload)
    exact ⟨rfl, .inr ⟨_, rfl, hprefix⟩⟩
  · obtain ⟨framed, hframed, -⟩ := framed_readConfigPayload state
    exact absurd (hframed.symm.trans he) nofun

variable (hb : h.storage.backend.isSome)

include hb

omit hmem in
theorem ends_setPersisted (new : ManagementState) :
    Host.Ends crypto (managementFormat patience)
      (do setState new; persistState; pure (.ok []) : ManagementCommand ResponseData) h fun r g =>
        Settles crypto patience h g (some new) r ∧ Done r := by
  have hpoised : Change.Poised (configChange new) h
      { h with memory := { h.memory with state := some new } } := ⟨rfl, rfl, rfl, rfl⟩
  refine .setState (.persistState rfl ?_ (fun g hg => ?_) fun g hg => ?_)
  · exact hb
  · exact ⟨hpoised.written hg hg.memory rfl rfl, .inr rfl⟩
  · exact ⟨hpoised.unwritten hg hg.memory rfl rfl, .inl ⟨_, rfl⟩⟩

theorem ends_writeConfig (data : Bytes) (hstate : Supported state)
    {target : Option ManagementState} (htarget : target = match parseConfigPayload data with
      | .ok tlvs => writtenConfig state tlvs
      | .error _ => none) :
    Host.Ends crypto (managementFormat patience) (cmdWriteConfig data) h fun r g =>
      Settles crypto patience h g target r ∧ Done r := by
  refine .orStatus (fun tlvs htlvs => ?_) fun sw hsw => ?_
  · rw [htlvs] at htarget
    refine .ensureLoaded hmem (.loadedState hmem (.orFault (fun _ hcheck => ?_) fun e hcheck => ?_))
    · obtain ⟨new, hnew, -⟩ := applyConfig_ok (checkConfig_eq_ok.mp hcheck).2 hstate
      refine .orFault (fun new' happly => ?_) fun e happly => absurd (hnew.symm.trans happly) nofun
      obtain rfl : target = some new' :=
        htarget.trans (writtenConfig_eq_some.mpr ⟨hcheck, happly⟩)
      exact ends_setPersisted hb new'
    · obtain ⟨sw, rfl⟩ := failsWithStatus_checkConfig state tlvs e hcheck
      have hnone : writtenConfig state tlvs = none := by
        unfold writtenConfig
        simp only [hcheck]
      obtain rfl : target = none := htarget.trans hnone
      exact ⟨settles_none, .inl ⟨sw, rfl⟩⟩
  · rw [hsw] at htarget
    obtain rfl := htarget
    exact ⟨settles_none, .inl ⟨sw, rfl⟩⟩

theorem ends_setMode (p1 : UInt8) (data : Bytes) {target : Option ManagementState}
    (htarget : target = if p1 = 0x11 then
        match data with
        | [mode, chalrespTimeout, lo, hi] =>
            modeCaps[(mode &&& 0x07).toNat]?.map fun caps =>
              modeConfig state caps chalrespTimeout lo hi
        | _ => none
      else none) :
    Host.Ends crypto (managementFormat patience) (cmdSetMode p1 data) h fun r g =>
      Settles crypto patience h g target r ∧
        (UnknownCode p1 data ∧ r = .error .panic ∨ ¬UnknownCode p1 data ∧ Done r) := by
  refine .require (fun hp1 => ?_) fun hp1 => ?_
  · rw [if_pos (of_decide_eq_true hp1)] at htarget
    have hlength : ∀ {r}, data.length ≠ 4 → (∃ sw, r = .error (.status sw)) →
        UnknownCode p1 data ∧ r = .error .panic ∨ ¬UnknownCode p1 data ∧ Done r := by
      rintro r hne hr
      refine .inr ⟨?_, .inl hr⟩
      rintro ⟨-, mode, resp, lo, hi, rfl, -⟩
      exact hne rfl
    rcases data with _ | ⟨mode, _ | ⟨chalrespTimeout, _ | ⟨lo, _ | ⟨hi, _ | ⟨b, rest⟩⟩⟩⟩⟩
    · obtain rfl := htarget
      exact .refuse ⟨settles_none, hlength (by simp) ⟨_, rfl⟩⟩
    · obtain rfl := htarget
      exact .refuse ⟨settles_none, hlength (by simp) ⟨_, rfl⟩⟩
    · obtain rfl := htarget
      exact .refuse ⟨settles_none, hlength (by simp) ⟨_, rfl⟩⟩
    · obtain rfl := htarget
      exact .refuse ⟨settles_none, hlength (by simp) ⟨_, rfl⟩⟩
    · have hunknown : UnknownCode p1 [mode, chalrespTimeout, lo, hi] ↔
          modeCaps[(mode &&& 0x07).toNat]? = none := by
        rw [modeCaps_eq_none]
        constructor
        · rintro ⟨-, mode', resp', lo', hi', hdata, hmode⟩
          obtain rfl := (List.cons.inj hdata).1
          exact hmode
        · exact fun hmode => ⟨of_decide_eq_true hp1, mode, _, _, _, rfl, hmode⟩
      refine .orFault (fun caps hcaps => ?_) fun e hcaps => ?_
      · have hcaps := Option.elim_error_eq_ok.mp hcaps
        obtain rfl : target = some (modeConfig state caps chalrespTimeout lo hi) :=
          htarget.trans (by simp only [hcaps, Option.map_some])
        refine .ensureLoaded hmem (.loadedState hmem ((ends_setPersisted hb _).mono ?_))
        refine fun r g hend => ⟨hend.1, .inr ⟨fun hcode => ?_, hend.2⟩⟩
        exact absurd (hcaps.symm.trans (hunknown.mp hcode)) nofun
      · rcases hmode : modeCaps[(mode &&& 0x07).toNat]? with _ | caps
        · rw [hmode] at hcaps
          obtain rfl := Except.error.inj hcaps
          obtain rfl : target = none := htarget.trans (by simp only [hmode, Option.map_none])
          exact ⟨settles_none, .inl ⟨hunknown.mpr hmode, rfl⟩⟩
        · rw [hmode] at hcaps
          exact absurd hcaps nofun
    · obtain rfl := htarget
      exact .refuse ⟨settles_none, hlength (by simp) ⟨_, rfl⟩⟩
  · rw [if_neg (of_decide_eq_false hp1)] at htarget
    obtain rfl := htarget
    exact ⟨settles_none, .inr ⟨fun hcode => of_decide_eq_false hp1 hcode.1, .inl ⟨_, rfl⟩⟩⟩

/-- How a command of the Management applet ends, with its answer. -/
theorem ends_process (apdu : Apdu) (hstate : Supported state) :
    Host.Ends crypto (managementFormat patience) (managementProcess apdu) h fun r g =>
      Settles crypto patience h g (requested state apdu) r ∧ Answers apdu r := by
  generalize htarget : requested state apdu = target
  unfold requested at htarget
  refine .require (fun hcla => ?_) fun hcla => ?_
  · have hcla := of_decide_eq_true hcla
    rw [if_neg (not_not.mpr hcla)] at htarget
    refine .ite (fun hread => ?_) fun hread => .ite (fun hwrite => ?_) fun hwrite =>
      .ite (fun hmode => ?_) fun hmode => ?_
    · rw [if_neg (by rw [hread]; decide), if_neg (by rw [hread]; decide)] at htarget
      obtain rfl := htarget
      have hother : ¬UnknownMode apdu := fun hunknown =>
        absurd (hunknown.2.1.symm.trans hread) (by decide)
      refine (ends_readConfig hmem apdu.p1).mono ?_
      rintro r g ⟨rfl, ⟨sw, rfl⟩ | ⟨payload, rfl, hprefix⟩⟩
      · exact ⟨settles_none, hother⟩
      · exact ⟨settles_none, hother, fun _ => hprefix⟩
    · have hother : ¬UnknownMode apdu := fun hunknown =>
        absurd (hunknown.2.1.symm.trans hwrite) (by decide)
      rw [if_pos hwrite] at htarget
      refine .require (fun hp => ?_) fun hp => ?_
      · rw [if_pos (of_decide_eq_true hp)] at htarget
        exact (ends_writeConfig hmem hb apdu.data hstate htarget.symm).mono
          fun r g hend => ⟨hend.1, hend.2.answers hother hread⟩
      · rw [if_neg (of_decide_eq_false hp)] at htarget
        obtain rfl := htarget
        exact ⟨settles_none, hother⟩
    · rw [if_neg hwrite, if_pos hmode] at htarget
      refine (ends_setMode hmem hb apdu.p1 apdu.data htarget.symm).mono ?_
      rintro r g ⟨hsettles, ⟨hcode, rfl⟩ | ⟨hcode, hdone⟩⟩
      · exact ⟨hsettles, hcla, hmode, hcode⟩
      · exact ⟨hsettles, hdone.answers (fun hunknown => hcode hunknown.2.2) hread⟩
    · rw [if_neg hwrite, if_neg hmode] at htarget
      obtain rfl := htarget
      exact .refuse ⟨settles_none, fun hunknown => hmode hunknown.2.1⟩
  · rw [if_pos (of_decide_eq_false hcla)] at htarget
    obtain rfl := htarget
    exact ⟨settles_none, fun hunknown => of_decide_eq_false hcla hunknown.1⟩

end

/-! ## Runs -/

section

variable {β : Type} [StorageBackend β] [FallibleBackend β] (patience : Nat)

/-- The configuration that is persisted, whether it can be read or not. -/
def heldState (crypto : AppletCrypto) (e : StorageEngine β) : Option ManagementState :=
  ((e.heldEntry (managementFormat patience).storageKey).bind
    (Host.openBlob crypto (managementFormat patience))).map Prod.fst

/-- What a command of the applet is to do, in every state and whatever the storage does. -/
structure Sound (m : Machine β .management) (apdu : Apdu) : Prop where
  /-- There is no panic. -/
  in_range : ∀ fault, (m.respond patience apdu).1 = .error fault → ∃ sw, fault = .status sw
  supported : ∀ state, (m.respond patience apdu).2.memory.state = some state → Supported state
  /-- A failure leaves the configuration, in memory and persisted. -/
  atomic : ∀ sw, (m.respond patience apdu).1 = .error (.status sw) →
    (m.respond patience apdu).2.memory.state = m.host.memory.state ∧
      heldState patience m.crypto (m.respond patience apdu).2.storage = m.host.memory.state
  length : apdu.ins = 0x1D → ∀ response, (m.respond patience apdu).1 = .ok response →
    LengthPrefixed response.data

/-- The command has no unknown mode, and what it sets is there already or taken by the storage. -/
def Proper (m : Machine β .management) (apdu : Apdu) : Prop :=
  ¬UnknownMode apdu ∧ ∀ state new, m.host.memory.state = some state →
    requested state apdu = some new →
      new = state ∨ Host.accepts m.crypto (managementFormat patience) m.host new = true

/-- `new` of the applet succeeds. -/
def Built (crypto : AppletCrypto) (e : StorageEngine β) (rng : Nat → Entropy) : Prop :=
  ((Host.ensureLoaded crypto (managementFormat patience)).run ⟨e, rng, ⟨none, ()⟩, none⟩).1 = .ok ()

/-- The applets after a boot over a medium without a configuration, proper commands, and boots over
what the medium then holds. -/
inductive Reached (codec : Codec StoredCredential) (prims : Primitives) :
    Machine β .management → Prop
  | boot (crypto : AppletCrypto) (b : β) (rng : Nat → Entropy) (hprims : crypto.prims = prims)
      (blank : (FallibleBackend.held b)[(managementFormat patience).storageKey]? = none)
      (built : Built patience crypto (.withBackend codec b) rng) :
      Reached codec prims (.boot patience crypto (.withBackend codec b) rng)
  | select {m : Machine β .management} (before : Reached codec prims m) :
      Reached codec prims (m.step patience codec .select)
  | command {m : Machine β .management} (before : Reached codec prims m) (apdu : Apdu)
      (proper : Proper patience m apdu) :
      Reached codec prims (m.step patience codec (.command apdu))
  | reboot {m : Machine β .management} (before : Reached codec prims m)
      (key : AppletName.MasterKey) (rng : Nat → Entropy)
      (built : Built patience (AppletName.rekeyed m.crypto key) (m.reopened codec) rng) :
      Reached codec prims (m.step patience codec (.reboot key rng))

/-- Every configuration that is persisted, under any key, enables supported interfaces only. -/
def Clean (prims : Primitives) (e : StorageEngine β) : Prop :=
  ∀ crypto : AppletCrypto, crypto.prims = prims →
    ∀ state, heldState patience crypto e = some state → Supported state

/-- Memory holds what is persisted, and enables supported interfaces only. -/
structure Agrees (prims : Primitives) (m : Machine β .management) (state : ManagementState) :
    Prop where
  prims_eq : m.crypto.prims = prims
  memory : m.host.memory.state = some state
  held : heldState patience m.crypto m.host.storage = some state
  supported : Supported state
  clean : Clean patience prims m.host.storage

variable {patience} {prims : Primitives} (haead : AeadSound prims)

theorem heldState_congr {crypto : AppletCrypto} {e e' : StorageEngine β}
    (h : e'.heldEntry (managementFormat patience).storageKey =
      e.heldEntry (managementFormat patience).storageKey) :
    heldState patience crypto e' = heldState patience crypto e := by
  rw [heldState, h, heldState]

theorem Agrees.backend {m : Machine β .management} {state : ManagementState}
    (h : Agrees patience prims m state) : m.host.storage.backend.isSome := by
  obtain ⟨found, hfound, -⟩ := Option.map_eq_some_iff.mp h.held
  obtain ⟨blob, hblob, -⟩ := Option.bind_eq_some_iff.mp hfound
  obtain ⟨b, hb, -⟩ := Option.bind_eq_some_iff.mp hblob
  exact Option.isSome_of_mem hb

theorem Clean.congr {e e' : StorageEngine β} (hclean : Clean patience prims e)
    (h : e'.heldEntry (managementFormat patience).storageKey =
      e.heldEntry (managementFormat patience).storageKey) : Clean patience prims e' := by
  intro crypto hprims state hstate
  rw [heldState_congr h] at hstate
  exact hclean crypto hprims state hstate

include haead

/-- What is sealed and written is the configuration that is persisted. -/
theorem held_of_sealed {crypto : AppletCrypto} (hprims : crypto.prims = prims)
    {e : StorageEngine β} {blob : Bytes} {state : ManagementState} {entropy : Entropy}
    (hheld : e.heldEntry (managementFormat patience).storageKey = some blob)
    (hseal : Host.sealState crypto (managementFormat patience) state entropy = .ok blob)
    (hstate : Supported state) :
    heldState patience crypto e = some state ∧ Clean patience prims e := by
  have haead' : AeadSound crypto.prims := hprims ▸ haead
  constructor
  · rw [heldState, hheld, Option.bind_some, Host.openBlob_sealState haead' hseal]
    rfl
  · intro crypto' hprims' found hfound
    rw [heldState, hheld, Option.bind_some] at hfound
    obtain ⟨pair, hopen, rfl⟩ := Option.map_eq_some_iff.mp hfound
    rw [Host.eq_of_openBlob haead' (hprims'.trans hprims.symm) hseal hopen]
    exact hstate

omit [StorageBackend β] [FallibleBackend β] haead in
theorem supported_drawSerial {state : ManagementState} (patience : Nat) {rng rng' : Nat → Entropy}
    (h : (drawSerial patience).run rng = (.ok state, rng')) : Supported state := by
  induction patience generalizing rng with
  | zero => exact absurd (congrArg Prod.fst h) nofun
  | succ patience ih =>
      rw [drawSerial, Prog.run_act_bind] at h
      by_cases hserial : UInt32.ofNat (Bytes.beNat ((rng 0).bytes 4)) ≠ 0
      · simp only [dif_pos hserial] at h
        obtain rfl := Except.ok.inj (congrArg Prod.fst h)
        exact UInt16.and_not_self
      · simp only [dif_neg hserial] at h
        exact ih h

/-- An applet that is built holds what is persisted. -/
theorem agrees_boot {crypto : AppletCrypto} (hprims : crypto.prims = prims)
    {codec : Codec StoredCredential} {b : β} {rng : Nat → Entropy}
    (hclean : Clean patience prims (.withBackend codec b))
    (hbuilt : Built patience crypto (.withBackend codec b) rng) :
    ∃ state, Agrees patience prims (.boot patience crypto (.withBackend codec b) rng) state := by
  have hbackend : (StorageEngine.withBackend codec b).backend = some b :=
    (StorageEngine.withBackend_eq codec b).1
  obtain ⟨g, hrun⟩ : ∃ g, (Host.ensureLoaded crypto (managementFormat patience)).run
      ⟨.withBackend codec b, rng, ⟨none, ()⟩, none⟩ = (.ok (), g) := ⟨_, Prod.ext hbuilt rfl⟩
  have hboot : (Machine.boot patience crypto (.withBackend codec b) rng :
      Machine β .management) = ⟨crypto, g⟩ := congrArg (Machine.mk crypto) (congrArg Prod.snd hrun)
  rw [hboot]
  rw [Host.ensureLoaded, Prog.run_read_bind, Option.isSome_none, if_neg Bool.false_ne_true,
    Prog.run_read_bind] at hrun
  cases hfound : Host.storedState crypto (managementFormat patience)
      (StorageEngine.withBackend codec b) with
  | some found =>
      -- what is read is on the medium, and of no older version
      obtain ⟨state, migrated⟩ := found
      obtain rfl := Host.migrated_eq_false (fun _ => rfl) hfound
      simp only [hfound] at hrun
      rw [Prog.run_update_bind] at hrun
      obtain rfl : _ = g := congrArg Prod.snd hrun
      obtain ⟨blob, hread, hopen⟩ := Option.bind_eq_some_iff.mp hfound
      have hread' : (StorageEngine.withBackend codec b).retrieve
          (managementFormat patience).storageKey = .ok blob := by
        generalize (StorageEngine.withBackend codec b).retrieve _ = r at hread
        cases r with
        | error error => exact absurd hread nofun
        | ok found => exact congrArg Except.ok (Option.some.inj hread)
      have hheld := StorageEngine.heldEntry_of_retrieve codec hread'
      have hstate : heldState patience crypto (StorageEngine.withBackend codec b) = some state := by
        rw [heldState, hheld, Option.bind_some, hopen]
        rfl
      exact ⟨state, hprims, rfl, hstate, hclean crypto hprims state hstate, hclean⟩
  | none =>
      -- a factory state is made and persisted
      simp only [hfound] at hrun
      obtain ⟨state, t, hzoom, hrun⟩ := Prog.bind_eq_ok.mp hrun
      rw [Prog.run_update_bind] at hrun
      rw [Prog.run_zoom] at hzoom
      have hfactory : ((drawSerial patience).run rng).1 = .ok state := congrArg Prod.fst hzoom
      have hsupported := supported_drawSerial patience (Prod.ext hfactory rfl)
      have ht : t.storage = .withBackend codec b := by
        rw [show t = _ from (congrArg Prod.snd hzoom).symm]
      generalize hmade : ({ t with memory := { t.memory with state := some state } } :
        Host β ManagementState Unit) = made at hrun
      have hmemory : made.memory.state = some state := hmade ▸ rfl
      have hsome : made.storage.backend.isSome := by
        rw [← hmade, ht, hbackend]
        rfl
      obtain ⟨u, ⟨hdone, hwritten⟩ | ⟨hfailed, -⟩⟩ := Host.persistState_ends hsome hmemory
      · obtain rfl : u = g := congrArg Prod.snd (hdone.symm.trans hrun)
        obtain ⟨blob, hheld, hseal⟩ := hwritten.held
        obtain ⟨hstate, hclean'⟩ := held_of_sealed haead hprims hheld hseal hsupported
        exact ⟨state, hprims, (congrArg Memory.state hwritten.memory).trans hmemory, hstate,
          hsupported, hclean'⟩
      · exact absurd (congrArg Prod.fst (hfailed.symm.trans hrun)) nofun

omit haead in
/-- How a command ends over an applet that agrees with its storage. -/
theorem respond_ends {m : Machine β .management} {state : ManagementState}
    (h : Agrees patience prims m state) (apdu : Apdu) :
    Settles m.crypto patience m.host (m.respond patience apdu).2 (requested state apdu)
        (m.respond patience apdu).1 ∧ Answers apdu (m.respond patience apdu).1 :=
  ends_process h.memory h.backend apdu h.supported

omit haead in
/-- A command ends as it should on its own, unless it has an unknown mode. -/
theorem in_range_iff {m : Machine β .management} {state : ManagementState}
    (h : Agrees patience prims m state) (apdu : Apdu) :
    (∀ fault, (m.respond patience apdu).1 = .error fault → ∃ sw, fault = .status sw) ↔
      ¬UnknownMode apdu := by
  have hanswers := (respond_ends h apdu).2
  generalize (m.respond patience apdu).1 = r at hanswers
  cases r with
  | ok response => exact iff_of_true nofun hanswers.1
  | error fault =>
      cases fault with
      | status sw => exact iff_of_true (fun _ hsw => ⟨sw, (Except.error.inj hsw).symm⟩) hanswers
      | panic => exact iff_of_false (fun hrange => nomatch hrange _ rfl) (not_not.mpr hanswers)
      | hang => exact absurd hanswers id

omit haead in
theorem Agrees.proper_iff {m : Machine β .management} {state : ManagementState}
    (h : Agrees patience prims m state) (apdu : Apdu) :
    Proper patience m apdu ↔ ¬UnknownMode apdu ∧ ∀ new, requested state apdu = some new →
      new = state ∨ Host.accepts m.crypto (managementFormat patience) m.host new = true := by
  refine and_congr_right fun _ => ⟨fun hall new => hall state new h.memory, ?_⟩
  intro hall state' new hmem
  obtain rfl := Option.some.inj (h.memory.symm.trans hmem)
  exact hall new

/-- What a proper command leaves. -/
theorem agrees_command {m : Machine β .management} {state : ManagementState}
    (h : Agrees patience prims m state) {apdu : Apdu} (hproper : Proper patience m apdu) :
    ∃ new, Agrees patience prims ⟨m.crypto, (m.respond patience apdu).2⟩ new := by
  have hsettles := (respond_ends h apdu).1
  have haccepted := ((h.proper_iff apdu).mp hproper).2
  generalize m.respond patience apdu = out at hsettles
  obtain ⟨r, g⟩ := out
  cases htarget : requested state apdu with
  | none =>
      rw [htarget] at hsettles
      obtain ⟨-, hmemory, -, hstorage⟩ := hsettles
      refine ⟨state, h.prims_eq, by rw [hmemory, h.memory], ?_, h.supported, ?_⟩
      · rw [hstorage]
        exact h.held
      · rw [hstorage]
        exact h.clean
  | some new =>
      have hnew := supported_requested h.supported htarget
      rw [htarget] at hsettles
      cases hsettles with
      | written _ taken memory saved held =>
          obtain ⟨blob, entropy, hheld, hseal⟩ := held
          obtain ⟨hstate, hclean⟩ := held_of_sealed haead h.prims_eq hheld hseal hnew
          exact ⟨new, h.prims_eq, congrArg Memory.state memory, hstate, hnew, hclean⟩
      | failed _ refused memory saved held =>
          obtain rfl | haccepts := haccepted new htarget
          · exact ⟨new, h.prims_eq, congrArg Memory.state memory,
              (heldState_congr held).trans h.held, hnew, h.clean.congr held⟩
          · exact absurd (refused.symm.trans haccepts) nofun

/-- A command is sound exactly if it is proper. -/
theorem Agrees.sound_iff_proper {m : Machine β .management} {state : ManagementState}
    (h : Agrees patience prims m state) (apdu : Apdu) :
    Sound patience m apdu ↔ Proper patience m apdu := by
  have hrange := in_range_iff h apdu
  obtain ⟨hsettles, hanswers⟩ := respond_ends h apdu
  rw [h.proper_iff]
  constructor
  · intro hsound
    refine ⟨hrange.mp hsound.in_range, fun new htarget => ?_⟩
    rw [htarget] at hsettles
    have hatomic := hsound.atomic
    generalize m.respond patience apdu = out at hsettles hatomic
    obtain ⟨r, g⟩ := out
    cases hsettles with
    | written _ taken memory saved held => exact .inr taken
    | failed _ refused memory saved held =>
        obtain ⟨hsame, -⟩ := hatomic _ rfl
        rw [memory, h.memory] at hsame
        exact .inl (Option.some.inj hsame)
  · rintro ⟨hmode, haccepted⟩
    refine ⟨hrange.mpr hmode, ?_, ?_, ?_⟩
    · intro found hfound
      obtain ⟨new, hnew⟩ := agrees_command haead h ((h.proper_iff apdu).mpr ⟨hmode, haccepted⟩)
      obtain rfl := Option.some.inj (hnew.memory.symm.trans hfound)
      exact hnew.supported
    · intro sw hfailed
      generalize m.respond patience apdu = out at hsettles hfailed
      obtain ⟨r, g⟩ := out
      cases htarget : requested state apdu with
      | none =>
          rw [htarget] at hsettles
          obtain ⟨-, hmemory, -, hstorage⟩ := hsettles
          refine ⟨congrArg Memory.state hmemory, ?_⟩
          rw [hstorage, h.memory]
          exact h.held
      | some new =>
          rw [htarget] at hsettles
          cases hsettles with
          | written _ taken memory saved held => exact absurd hfailed nofun
          | failed _ refused memory saved held =>
              obtain rfl | haccepts := haccepted new htarget
              · exact ⟨(congrArg Memory.state memory).trans h.memory.symm,
                  (heldState_congr held).trans (h.held.trans h.memory.symm)⟩
              · exact absurd (refused.symm.trans haccepts) nofun
    · intro hread response hresponse
      rw [hresponse] at hanswers
      exact hanswers.2 hread

/-- A reachable applet agrees with its storage. -/
theorem Reached.agrees {codec : Codec StoredCredential} {m : Machine β .management}
    (hreached : Reached patience codec prims m) : ∃ state, Agrees patience prims m state := by
  have hheld : ∀ b : β, (StorageEngine.withBackend codec b).heldEntry
      (managementFormat patience).storageKey =
        (FallibleBackend.held b)[(managementFormat patience).storageKey]? := by
    intro b
    rw [StorageEngine.heldEntry, (StorageEngine.withBackend_eq codec b).1, Option.bind_some]
  induction hreached with
  | boot crypto b rng hprims blank built =>
      refine agrees_boot haead hprims (fun crypto' _ state hstate => ?_) built
      rw [heldState, hheld, blank] at hstate
      exact absurd hstate nofun
  | @select m before ih =>
      obtain ⟨state, h⟩ := ih
      have hselect : Host.Ends m.crypto (managementFormat patience)
          (ensureLoaded >>= fun _ => pure [0x35, 0x2E, 0x34, 0x2E, 0x30]) m.host
            fun (_ : Except Fault Bytes) g => g = m.host :=
        .ensureLoaded h.memory (.pure rfl)
      have hsame : m.step patience codec .select = m := congrArg (Machine.mk m.crypto) hselect
      exact ⟨state, hsame.symm ▸ h⟩
  | command before apdu proper ih =>
      obtain ⟨state, h⟩ := ih
      exact agrees_command haead h proper
  | @reboot m before key rng built ih =>
      obtain ⟨state, h⟩ := ih
      obtain ⟨b, hb⟩ := Option.isSome_iff_exists.mp h.backend
      have hreopened : m.reopened codec = .withBackend codec b := by
        rw [Machine.reopened, hb, Option.elim_some]
      rw [hreopened] at built
      have hboot : m.step patience codec (.reboot key rng) =
          .boot patience (AppletName.rekeyed m.crypto key) (.withBackend codec b) rng :=
        congrArg (Machine.boot patience _ · rng) hreopened
      rw [hboot]
      have hprims : (AppletName.rekeyed m.crypto key).prims = prims := h.prims_eq
      refine agrees_boot haead hprims (h.clean.congr ?_) built
      rw [hheld, StorageEngine.heldEntry, hb, Option.bind_some]

/-- **Failures.** In a reachable state only supported interfaces are enabled, memory holds what is
persisted, and a command is sound exactly if it is proper. -/
theorem sound_iff {codec : Codec StoredCredential} {m : Machine β .management}
    (hreached : Reached patience codec prims m) :
    (∃ state, m.host.memory.state = some state ∧ Supported state ∧
      heldState patience m.crypto m.host.storage = some state) ∧
    ∀ apdu, Sound patience m apdu ↔ Proper patience m apdu := by
  obtain ⟨state, h⟩ := hreached.agrees haead
  exact ⟨⟨state, h.memory, h.supported, h.held⟩, h.sound_iff_proper haead⟩

end

/-! ## A code that no mode has -/

/-- The applet after a boot over an empty medium. -/
def freshApplet : Machine KvMap .management :=
  .boot 1 (lockAead.crypto (List.replicate 32 0x02) KnownAead.length_masterKey)
    (.withBackend unusedCodec ∅) (KnownAead.constantDraws 0x09)

theorem reached_freshApplet : Reached 1 unusedCodec
    (lockAead.crypto (List.replicate 32 0x02) List.length_replicate).prims freshApplet :=
  .boot _ ∅ _ rfl (by decide +kernel) (by unfold Built; decide +kernel)

/-- A SET MODE with this code. -/
def setMode (mode : UInt8) : Apdu := ⟨0, 0x16, 0x11, 0, [mode, 0, 0, 0], none⟩

/-- SET MODE with the code 7 panics. -/
theorem unknown_mode_panics : ¬∀ (m : Machine KvMap .management) (apdu : Apdu),
    Reached 1 unusedCodec
      (lockAead.crypto (List.replicate 32 0x02) List.length_replicate).prims m →
    Sound 1 m apdu := by
  intro hall
  obtain ⟨sw, hsw⟩ := (hall freshApplet (setMode 7) reached_freshApplet).in_range .panic
    (by decide +kernel)
  exact absurd hsw nofun

theorem memory_freshApplet :
    freshApplet.host.memory.state = some (.factory 0x09090909 (by decide)) := by
  have hsame : ∀ h : Host KvMap ManagementState Unit,
      decide (h.memory.state = some (.factory 0x09090909 (by decide))) = true →
        h.memory.state = some (.factory 0x09090909 (by decide)) := fun _ => of_decide_eq_true
  exact hsame freshApplet.host (by decide +kernel)

/-- SET MODE with the code of FIDO and CCID is sound on the fresh applet. -/
theorem sound_iff_known_mode : Sound 1 freshApplet (setMode 5) := by
  refine ((sound_iff (lockAead.sound _ List.length_replicate) reached_freshApplet).2 _).mpr ?_
  constructor
  · rintro ⟨-, -, -, mode, resp, lo, hi, hdata, hmode⟩
    obtain rfl := (List.cons.inj hdata).1
    exact absurd hmode (by decide)
  · intro state new hmem hnew
    obtain rfl := Option.some.inj (memory_freshApplet.symm.trans hmem)
    obtain rfl := Option.some.inj hnew
    exact .inr (by decide +kernel)

end Management

end OpenKey
