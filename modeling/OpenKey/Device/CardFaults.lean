import OpenKey.Device.CardHolder
import OpenKey.Device.ManagementFaults

/-!
# When the card does not answer

**Theorem (`card_fails_iff`).** Over a storage that does not fail, after any bytes and reboots, the
card answers whatever comes next, unless the Management applet is selected and the next bytes are a
SET MODE with the code that no mode has, which panics.

What an applet answers can be read off its transcript: the transcripts of OATH, PIV and OpenPGP have
no failure but a status word, and the one of Management has this one.
-/

namespace OpenKey

set_option autoImplicit false

/-! ## Each applet -/

namespace Management

/-- What passes the checks can be applied, whatever is enabled. -/
theorem applyConfig_isOk (state : ManagementState) {tlvs : List (UInt8 × Bytes)}
    (hform : WellFormed tlvs) : ∃ new, applyConfig state tlvs = .ok new := by
  obtain ⟨usb, husb, -⟩ := u16Setting state.usbEnabled fun value h => (hform.usb value h).1
  obtain ⟨new, hnew, -⟩ := applyConfig_usb hform husb
  exact ⟨new, hnew⟩

/-- A command panics on an unknown mode, and never else. -/
def FailsOn (apdu : Apdu) {α : Type} (result : Except Fault α) : Prop :=
  ∀ fault, Fault.status? result = .error fault ↔ fault = .panic ∧ UnknownMode apdu

section

variable {α : Type} {apdu : Apdu}

theorem failsOn_ok (h : ¬UnknownMode apdu) (a : α) : FailsOn apdu (.ok a) := by
  refine fun fault => iff_of_false (fun hfault => ?_) fun hfault => h hfault.2
  cases hfault

theorem failsOn_status (h : ¬UnknownMode apdu) (sw : UInt16) :
    FailsOn apdu (.error (.status sw) : Except Fault α) := by
  refine fun fault => iff_of_false (fun hfault => ?_) fun hfault => h hfault.2
  cases hfault

theorem failsOn_panic (h : UnknownMode apdu) : FailsOn apdu (.error .panic : Except Fault α) := by
  refine fun fault => ⟨fun hfault => ⟨?_, h⟩, fun hfault => ?_⟩
  · cases hfault
    rfl
  · obtain ⟨rfl, -⟩ := hfault
    rfl

/-- What is made of a result does not fail otherwise. -/
theorem FailsOn.map {γ : Type} {result : Except Fault α} (h : FailsOn apdu result) (f : α → γ) :
    FailsOn apdu (result.map f) := by
  intro fault
  rw [← h fault]
  cases result with
  | ok a =>
    refine iff_of_false (fun hfault => ?_) fun hfault => ?_
    · cases hfault
    · cases hfault
  | error fault' =>
    cases fault' with
    | status sw =>
      refine iff_of_false (fun hfault => ?_) fun hfault => ?_
      · cases hfault
      · cases hfault
    | panic => exact ⟨fun hfault => by cases hfault; rfl, fun hfault => by cases hfault; rfl⟩
    | hang => exact ⟨fun hfault => by cases hfault; rfl, fun hfault => by cases hfault; rfl⟩

end

theorem failsOn_writeConfig {apdu : Apdu} (h : ¬UnknownMode apdu) (state : ManagementState) :
    FailsOn apdu (do
      let tlvs ← (parseConfigPayload apdu.data).mapError .status
      checkConfig state tlvs
      let new ← applyConfig state tlvs
      pure (([] : Bytes), new)) := by
  cases parseConfigPayload apdu.data with
  | error sw => exact failsOn_status h sw
  | ok tlvs =>
    show FailsOn apdu (checkConfig state tlvs >>= _)
    cases hcheck : checkConfig state tlvs with
    | error fault =>
      obtain ⟨sw, rfl⟩ := failsWithStatus_checkConfig state tlvs fault hcheck
      exact failsOn_status h sw
    | ok u =>
      obtain ⟨new, happly⟩ := applyConfig_isOk state (checkConfig_eq_ok.mp hcheck).2
      show FailsOn apdu (applyConfig state tlvs >>= _)
      rw [happly]
      exact failsOn_ok h _

theorem failsOn_setMode {apdu : Apdu} (hcla : apdu.cla = 0) (hins : apdu.ins = 0x16)
    (hp1 : apdu.p1 = 0x11) (state : ManagementState) :
    FailsOn apdu (match apdu.data with
      | [mode, chalrespTimeout, lo, hi] =>
          modeCaps[(mode &&& 0x07).toNat]?.elim (.error .panic) fun caps =>
            .ok (([] : Bytes), modeConfig state caps chalrespTimeout lo hi)
      | _ => .error (.status swWrongLength)) := by
  have hshort (hlength : apdu.data.length ≠ 4) : ¬UnknownMode apdu := by
    rintro ⟨-, -, -, mode, chalrespTimeout, lo, hi, hdata, -⟩
    rw [hdata] at hlength
    exact hlength rfl
  rcases hdata : apdu.data with _ | ⟨mode, _ | ⟨resp, _ | ⟨lo, _ | ⟨hi, _ | ⟨_, rest⟩⟩⟩⟩⟩
  · exact failsOn_status (hshort (by rw [hdata]; decide)) _
  · exact failsOn_status (hshort (by rw [hdata, List.length_singleton]; decide)) _
  · exact failsOn_status (hshort (by rw [hdata]; simp)) _
  · exact failsOn_status (hshort (by rw [hdata]; simp)) _
  · simp only
    cases hcaps : modeCaps[(mode &&& 0x07).toNat]? with
    | none =>
      exact failsOn_panic ⟨hcla, hins, hp1, mode, resp, lo, hi, hdata, modeCaps_eq_none.mp hcaps⟩
    | some caps =>
      refine failsOn_ok ?_ _
      rintro ⟨-, -, -, mode', resp', lo', hi', hdata', hmode⟩
      rw [hdata] at hdata'
      cases hdata'
      rw [modeCaps_eq_none.mpr hmode] at hcaps
      cases hcaps
  · exact failsOn_status (hshort (by rw [hdata]; simp)) _

theorem failsOn_serve (state : ManagementState) (apdu : Apdu) :
    FailsOn apdu (serve state apdu) := by
  unfold serve
  by_cases hcla : apdu.cla = 0
  · rw [if_neg (not_not.mpr hcla)]
    have hother (hins : apdu.ins ≠ 0x16) : ¬UnknownMode apdu := fun h => hins h.2.1
    by_cases hread : apdu.ins = 0x1D
    · have hmode := hother (by rw [hread]; decide)
      rw [if_pos hread]
      by_cases hp1 : apdu.p1 = 0
      · obtain ⟨payload, hpayload, -⟩ := framed_readConfigPayload state
        rw [if_pos hp1, hpayload]
        exact failsOn_ok hmode _
      · rw [if_neg hp1]
        exact failsOn_status hmode _
    · rw [if_neg hread]
      by_cases hwrite : apdu.ins = 0x1C
      · have hmode := hother (by rw [hwrite]; decide)
        rw [if_pos hwrite]
        by_cases hp : apdu.p1 = 0 ∧ apdu.p2 = 0
        · rw [if_pos hp]
          exact failsOn_writeConfig hmode state
        · rw [if_neg hp]
          exact failsOn_status hmode _
      · rw [if_neg hwrite]
        by_cases hins : apdu.ins = 0x16
        · rw [if_pos hins]
          by_cases hp1 : apdu.p1 = 0x11
          · rw [if_pos hp1]
            exact failsOn_setMode hcla hins hp1 state
          · rw [if_neg hp1]
            exact failsOn_status (fun h => hp1 h.2.2.1) _
        · rw [if_neg hins]
          exact failsOn_status (hother hins) _
  · rw [if_pos hcla]
    exact failsOn_status (fun h => hcla h.1) _

end Management

namespace AppletName

open Management (FailsOn UnknownMode failsOn_serve)

/-- A result that is no failure, or a status word. -/
theorem not_fails_mapError {α : Type} (result : Except UInt16 α) (fault : Fault) :
    Fault.status? (result.mapError .status) ≠ .error fault := by
  intro h
  cases result with
  | error sw => cases h
  | ok a => cases h

variable {crypto : AppletCrypto} {verifiers : Verifiers} {n : AppletName} {v w : n.View}

/-- What the transcripts say about failures. -/
theorem Explains.fails_iff {apdu : Apdu} {answer : Except Fault ResponseData}
    (h : n.Explains crypto verifiers v (.command apdu, answer) w) (fault : Fault) :
    Fault.status? answer = .error fault ↔
      fault = .panic ∧ n = .management ∧ UnknownMode apdu := by
  cases n with
  | management =>
    have hfails : FailsOn apdu answer := by
      have hserve := (failsOn_serve v apdu).map fun served => ResponseData.ok served.1
      cases h with
      | served h =>
        rw [h] at hserve
        exact hserve
      | failed h =>
        rw [h] at hserve
        exact hserve
    rw [hfails fault]
    exact and_congr_right fun _ => (and_iff_right rfl).symm
  | oath =>
    refine iff_of_false (fun hfault => ?_) fun hfault => by cases hfault.2.1
    cases h with
    | foreign _ => cases hfault
    | fetched _ _ _ => cases hfault
    | unfetched _ _ _ => cases hfault
    | answered _ _ _ => cases hfault
    | refused _ _ _ => cases hfault
  | piv =>
    refine iff_of_false (fun hfault => ?_) fun hfault => by cases hfault.2.1
    cases h with
    | foreign _ => cases hfault
    | served _ _ => exact not_fails_mapError _ _ hfault
    | generated _ _ _ => cases hfault
    | ungenerated _ _ _ => cases hfault
    | signed _ _ _ hanswer =>
      cases hanswer with
      | signed _ => cases hfault
      | failed _ _ _ => cases hfault
    | unsigned _ _ _ => cases hfault
  | openPgp =>
    refine iff_of_false (fun hfault => ?_) fun hfault => by cases hfault.2.1
    cases h with
    | foreign _ => cases hfault
    | served _ _ => exact not_fails_mapError _ _ hfault
    | generated _ _ _ => cases hfault
    | ungenerated _ _ _ => cases hfault
    | signed _ _ _ hanswer =>
      cases hanswer with
      | signed _ => cases hfault
      | failed _ _ _ => cases hfault
    | unsigned _ _ _ => cases hfault

end AppletName

/-! ## The card -/

namespace CardView

open Card (HostEvent)

variable {crypto : AppletCrypto} {verifiers : Verifiers} {v w : CardView}

/-- A SET MODE with the code that no mode has, in bytes. -/
def SetsUnknownMode : HostEvent → Prop
  | .apdu raw => ∃ apdu, Apdu.parse raw = .ok apdu ∧ Management.UnknownMode apdu
  | .reboot _ => False

/-- What a transcript of the card says about failures. -/
theorem Explains.fails_iff {e : HostEvent} {answer : Except Fault (Option ResponseData)}
    (h : Explains crypto verifiers v (e, answer) w) (fault : Fault) :
    answer = .error fault ↔
      fault = .panic ∧ v.selected = some .management ∧ SetsUnknownMode e := by
  have hanswered {raw : Bytes} {apdu : Apdu} (hparse : Apdu.parse raw = .ok apdu)
      (hins : apdu.ins ≠ 0x16) : ¬SetsUnknownMode (.apdu raw) := by
    rintro ⟨apdu', hparse', hmode⟩
    cases hparse.symm.trans hparse'
    exact hins hmode.2.1
  cases h with
  | malformed hparse =>
    refine iff_of_false (fun hfault => ?_) ?_
    · cases hfault
    · rintro ⟨-, -, apdu, hparse', -⟩
      cases hparse.symm.trans hparse'
  | fetched hparse hins _ =>
    refine iff_of_false (fun hfault => ?_) fun hfault =>
      hanswered hparse (by rw [hins]; decide) hfault.2.2
    cases hfault
  | unfetched hparse hins _ =>
    refine iff_of_false (fun hfault => ?_) fun hfault =>
      hanswered hparse (by rw [hins]; decide) hfault.2.2
    cases hfault
  | selected hparse hins _ _ =>
    refine iff_of_false (fun hfault => ?_) fun hfault =>
      hanswered hparse (by rw [hins]; decide) hfault.2.2
    cases hfault
  | absent hparse hins _ =>
    refine iff_of_false (fun hfault => ?_) fun hfault =>
      hanswered hparse (by rw [hins]; decide) hfault.2.2
    cases hfault
  | served hparse hins hselected h hreply =>
    refine iff_of_false (fun hfault => ?_) ?_
    · cases hfault
    · rintro ⟨-, hmanagement, apdu, hparse', hmode⟩
      cases hparse.symm.trans hparse'
      cases hselected.symm.trans hmanagement
      have hfails := (h.fails_iff .panic).mpr ⟨rfl, rfl, hmode⟩
      cases hreply.symm.trans hfails
  | failed hparse hins hselected h hfault =>
    obtain ⟨rfl, rfl, hmode⟩ := (h.fails_iff _).mp hfault
    constructor
    · intro hanswer
      cases hanswer
      exact ⟨rfl, hselected, _, hparse, hmode⟩
    · rintro ⟨rfl, -, -⟩
      rfl
  | unserved hparse hins hselected =>
    refine iff_of_false (fun hfault => ?_) ?_
    · cases hfault
    · rintro ⟨-, hmanagement, -⟩
      cases hselected.symm.trans hmanagement
  | rebooted _ =>
    refine iff_of_false (fun hfault => ?_) fun hfault => hfault.2.2
    cases hfault

end CardView

namespace Card

variable {β : Type} [StorageBackend β] [LawfulBackend β]

/-- Over a storage that does not fail, whatever the reader has sent and however often the card was
built again, the next event is answered, unless it is a SET MODE with the code that no mode has and
Management is selected, which panics. -/
theorem card_fails_iff (codec : Codec StoredCredential) {crypto : AppletCrypto}
    (haead : AeadSound crypto.prims) (htotal : AeadTotal crypto.prims) {verifiers : Verifiers}
    (hsound : verifiers.Sound crypto.prims) {patience : Nat} {names : List AppletName}
    (hnodup : names.Nodup) (hall : ∀ n, n ∈ names) {b : β} {rng : Nat → Entropy} {c : Card β}
    (hgenuine : ∀ (n : AppletName) (state : n.State), Host.Opens crypto (n.format patience)
      (StorageEngine.withBackend codec b) state → n.Genuine crypto state)
    (hboot : (build crypto patience names).run (blank (.withBackend codec b) rng) = (.ok (), c))
    (events : List HostEvent) (e : HostEvent) (fault : Fault) :
    ((serve codec crypto patience names e).run
        (Prog.results (serve codec crypto patience names) events ⟨c, none, none⟩).2).1 =
          .error fault ↔
      fault = .panic ∧
        (Prog.results (serve codec crypto patience names) events ⟨c, none, none⟩).2.selected =
          some (place .management) ∧ CardView.SetsUnknownMode e := by
  obtain ⟨a, hopened, halike⟩ := build_alike codec haead hnodup hall b rng hboot
  have hserve := simulates_serve (β := β) codec haead htotal patience hnodup hall
  obtain ⟨-, hreached⟩ := Prog.Simulates.results hserve events halike
  obtain ⟨v, -, hshows⟩ := Transcript.of_results (R := CardView.Shows crypto)
    (fun e _ _ hshows => CardView.explains_serve hsound hshows e) events
    (shows_opened hopened hgenuine)
  obtain ⟨w, hexplains, -⟩ := CardView.explains_serve hsound hshows e
  have hselected : v.selected = some .management ↔
      (Prog.results (serve codec crypto patience names) events ⟨c, none, none⟩).2.selected =
        some (place .management) := by
    rw [hreached.selected, hshows.selected]
    cases v.selected with
    | none => exact iff_of_false (fun h => by cases h) fun h => by cases h
    | some n => cases n <;> decide
  rw [(hserve e _ _ hreached).1, hexplains.fails_iff fault, hselected]

/-! ## The code that no mode has -/

/-- SELECT of Management. -/
def selectManagement : HostEvent :=
  .apdu [0x00, 0xA4, 0x04, 0x00, 0x08, 0xA0, 0x00, 0x00, 0x05, 0x27, 0x47, 0x11, 0x17]

/-- SET MODE with the code 7. -/
def setModeSeven : HostEvent := .apdu [0x00, 0x16, 0x11, 0x00, 0x04, 0x07, 0x00, 0x00, 0x00]

theorem card_fails_iff_seven :
    ((serve unusedCodec cellAead.signing 1 [.management, .oath, .piv, .openPgp] setModeSeven).run
      (Prog.results (serve unusedCodec cellAead.signing 1 [.management, .oath, .piv, .openPgp])
        [selectManagement] ⟨readerBoot.2, none, none⟩).2).1 = .error .panic :=
  (card_fails_iff unusedCodec cellAead.sound_signing cellAead.total_signing cellAead.sound_verifiers
    (by decide) (fun n => by cases n <;> decide) genuine_empty readerBoot_ok [selectManagement]
    setModeSeven .panic).mpr ⟨rfl, by decide +kernel,
      ⟨0x00, 0x16, 0x11, 0x00, [0x07, 0, 0, 0], none⟩, rfl, rfl, rfl, rfl, 0x07, 0, 0, 0, rfl,
      by decide⟩

end Card

end OpenKey
