import OpenKey.Device.KeyPairs
import Mathlib.Logic.Function.Basic

/-!
# The PIV applet as its holder sees it

What a holder of the applet knows that has seen everything that went to it and came back: the PIN
with its retries, and for each slot the public key that was told, and the certificate.

**Transcripts (`piv_transcript`).** Over a storage that does not fail, this explains every answer in
every sequence of commands, SELECTs and reboots. Two things are not known before they are seen: the
public key that GENERATE tells, and a signature, of which it is known that it checks under the
public key of its slot.
-/

namespace OpenKey

open Command

set_option autoImplicit false

/-! ## Slots -/

section

variable {α : Type} {slotOf : α → PivSlot}

theorem find?_putInSlot (new : α) (things : List α) (slot : PivSlot) :
    (putInSlot slotOf new things).find? (fun thing => slotOf thing = slot) =
      if slot = slotOf new then some new else things.find? fun thing => slotOf thing = slot := by
  induction things with
  | nil =>
    by_cases h : slot = slotOf new
    · simp [putInSlot, h]
    · simp [putInSlot, h, Ne.symm h]
  | cons old rest ih =>
    by_cases hold : slotOf old = slotOf new
    · by_cases h : slot = slotOf new
      · simp [putInSlot, hold, h]
      · simp [putInSlot, hold, h, Ne.symm h]
    · by_cases hslot : slotOf old = slot
      · have hne : ¬slot = slotOf new := hslot ▸ hold
        simp [putInSlot, hslot, hne]
      · rw [putInSlot, if_neg hold, List.find?_cons_of_neg (by simpa using hslot), ih,
          List.find?_cons_of_neg (by simpa using hslot)]

theorem mem_putInSlot {new thing : α} {things : List α} (h : thing ∈ putInSlot slotOf new things) :
    thing = new ∨ thing ∈ things := by
  induction things with
  | nil => exact .inl (List.mem_singleton.mp h)
  | cons old rest ih =>
    rw [putInSlot] at h
    by_cases hold : slotOf old = slotOf new
    · rw [if_pos hold] at h
      exact (List.mem_cons.mp h).imp_right (List.mem_cons_of_mem old)
    · rw [if_neg hold] at h
      rcases List.mem_cons.mp h with rfl | hrest
      · exact .inr List.mem_cons_self
      · exact (ih hrest).imp_right (List.mem_cons_of_mem old)

theorem find?_clearSlot (cleared : PivSlot) (things : List α) (slot : PivSlot) :
    (clearSlot slotOf cleared things).find? (fun thing => slotOf thing = slot) =
      if slot = cleared then none else things.find? fun thing => slotOf thing = slot := by
  rw [clearSlot, List.find?_filter]
  by_cases h : slot = cleared
  · rw [if_pos h, List.find?_eq_none]
    intro thing _
    simp [h]
  · rw [if_neg h]
    congr 1
    funext thing
    by_cases hthing : slotOf thing = slot
    · simp [hthing, h]
    · simp [hthing]

end

/-! ## What a holder knows -/

/-- What a holder knows of the PIV applet. -/
structure PivView where
  pin : Bytes
  retries : UInt8
  verified : Bool
  /-- The public keys that were told. -/
  keys : PivSlot → Option PublicKey
  certs : PivSlot → Option Bytes

namespace PivView

/-- Of an applet that is built around a state. -/
def ofState (state : PivState) : PivView where
  pin := state.pin
  retries := state.retries
  verified := false
  keys slot := (state.keys.find? fun key => key.slot = slot).map fun key => key.key.publicKey
  certs slot := (state.certs.find? fun cert => cert.slot = slot).map PivCert.der

section

variable (v : PivView)

/-- A wrong PIN. The last one ends the session. -/
def missed : Except UInt16 ResponseData × PivView :=
  let left := v.retries - 1
  if left = 0 then (.error swSecurityStatus, { v with retries := left, verified := false })
  else (.error (swRetries left), { v with retries := left })

/-- The right PIN. -/
def presented (pin : Bytes) : Except UInt16 ResponseData × PivView :=
  (.ok (.ok []), { v with pin := pin, retries := 3, verified := true })

/-- VERIFY; without a PIN it tells the retries. -/
def verify (apdu : Apdu) : Except UInt16 ResponseData × PivView :=
  if apdu.p1 = 0x00 ∧ apdu.p2 = 0x80 then
    if v.retries ≠ 0 then
      if apdu.data = [] then (.ok (.withSw [] (swRetries v.retries)), v)
      else if stripPinPadding apdu.data = v.pin then v.presented v.pin
      else v.missed
    else (.error swSecurityStatus, v)
  else (.error swWrongP1P2, v)

/-- CHANGE REFERENCE DATA: the old PIN and the new one, eight bytes each. -/
def changePin (apdu : Apdu) : Except UInt16 ResponseData × PivView :=
  if apdu.p1 = 0x00 ∧ apdu.p2 = 0x80 then
    if v.retries ≠ 0 then
      if apdu.data.length = 16 then
        let pin := stripPinPadding (apdu.data.drop 8)
        if 6 ≤ pin.length ∧ pin.length ≤ 8 then
          if stripPinPadding (apdu.data.take 8) = v.pin then v.presented pin
          else v.missed
        else (.error swWrongSyntax, v)
      else (.error swWrongSyntax, v)
    else (.error swSecurityStatus, v)
  else (.error swWrongP1P2, v)

/-- The objects that are always there. -/
def fixedObject (tag : Bytes) : Option Bytes :=
  if tag = [0x7E] then discoveryObject.toOption
  else if tag = [0x5F, 0xC1, 0x02] then chuidObject.toOption
  else none

/-- The object of a slot: its certificate, or else its public key. -/
def slotObject (slot : PivSlot) : Option Bytes :=
  (v.certs slot).or ((v.keys slot).map PublicKey.object)

/-- GET DATA. -/
def getData (apdu : Apdu) : Except UInt16 ResponseData × PivView :=
  if apdu.p1 = 0x3F ∧ apdu.p2 = 0xFF then
    match fixedObject apdu.data, PivSlot.fromTag apdu.data with
    | some object, _ => (.ok (.ok object), v)
    | none, some slot => (v.slotObject slot).elim (.error swSecurityStatus, v) fun object =>
        (.ok (.ok object), v)
    | none, none => (.error swFileNotFound, v)
  else (.error swWrongP1P2, v)

/-- Slot `9A` is for a verified session. -/
def admits (slot : PivSlot) : Bool := slot ≠ .pivAuth || v.verified

/-- PUT DATA. -/
def putData (apdu : Apdu) : Except UInt16 ResponseData × PivView :=
  if apdu.p1 = 0x3F ∧ apdu.p2 = 0xFF then
    match parsePutData apdu.data with
    | none => (.error (if (PivSlot.fromTag (apdu.data.take 3)).isSome then swWrongSyntax
        else swFileNotFound), v)
    | some cert =>
        if v.admits cert.slot then
          (.ok (.ok []), { v with certs := Function.update v.certs cert.slot (some cert.der) })
        else (.error swSecurityStatus, v)
  else (.error swWrongP1P2, v)

/-- What GENERATE is to make. -/
def asksFor (apdu : Apdu) : Except UInt16 (PivSlot × KeyAlg) :=
  if apdu.p1 = 0x00 then
    match PivSlot.ofId apdu.p2, pivGenerateAlg apdu.data with
    | none, _ => .error swFileNotFound
    | some _, none => .error swWrongSyntax
    | some slot, some alg => .ok (slot, alg)
  else .error swWrongP1P2

/-- A slot with a new key, and no certificate. -/
def withKey (slot : PivSlot) (key : PublicKey) : PivView :=
  { v with
    keys := Function.update v.keys slot (some key)
    certs := Function.update v.certs slot none }

/-- What AUTHENTICATE is to sign, and under which public key. -/
def challenged (apdu : Apdu) : Except UInt16 (PublicKey × Bytes) :=
  match PivSlot.ofId apdu.p2 with
  | none => .error swFileNotFound
  | some slot =>
      if v.admits slot then
        match extractChallenge apdu.data, v.keys slot with
        | none, _ => .error swWrongSyntax
        | some _, none => .error swSecurityStatus
        | some challenge, some key =>
            if apdu.p1 = 0x00 ∨ apdu.p1 = key.alg.id then .ok (key, challenge)
            else .error swWrongSyntax
      else .error swSecurityStatus

/-- The answer to a request other than GENERATE and AUTHENTICATE, and what is known after it. -/
def serve (apdu : Apdu) : Except UInt16 ResponseData × PivView :=
  if apdu.ins = 0x20 then v.verify apdu
  else if apdu.ins = 0x24 then v.changePin apdu
  else if apdu.ins = 0xCB then v.getData apdu
  else if apdu.ins = 0xDB then v.putData apdu
  else (.error swInsNotSupported, v)

end

/-! ## Transcripts -/

/-- What a holder that knows `v` may see, and what it then knows. -/
inductive Explains (crypto : AppletCrypto) (verifiers : Verifiers) :
    PivView → AppletUse × Except Fault ResponseData → PivView → Prop
  | foreign {v : PivView} {apdu : Apdu} (hcla : apdu.cla ≠ 0) :
      Explains crypto verifiers v (.command apdu, .error (.status swClassNotSupported)) v
  | served {v : PivView} {apdu : Apdu} (hcla : apdu.cla = 0)
      (hins : apdu.ins ≠ 0x47 ∧ apdu.ins ≠ 0x87) : Explains crypto verifiers v
        (.command apdu, (v.serve apdu).1.mapError .status) (v.serve apdu).2
  | generated {v : PivView} {apdu : Apdu} {slot : PivSlot} {key : PublicKey}
      (hcla : apdu.cla = 0) (hins : apdu.ins = 0x47)
      (h : asksFor apdu = .ok (slot, key.alg)) :
      Explains crypto verifiers v (.command apdu, .ok (.ok key.object)) (v.withKey slot key)
  | ungenerated {v : PivView} {apdu : Apdu} {sw : UInt16} (hcla : apdu.cla = 0)
      (hins : apdu.ins = 0x47)
      (h : asksFor apdu = .error sw ∨ sw = swConditionsNotSatisfied ∧ ∃ slot alg entropy,
        asksFor apdu = .ok (slot, alg) ∧ generatedKey crypto entropy alg = none) :
      Explains crypto verifiers v (.command apdu, .error (.status sw)) v
  | signed {v : PivView} {apdu : Apdu} {key : PublicKey} {challenge : Bytes}
      {answer : Except Fault ResponseData} (hcla : apdu.cla = 0) (hins : apdu.ins = 0x87)
      (h : v.challenged apdu = .ok (key, challenge))
      (hanswer : SignatureAnswer crypto verifiers key challenge answer) :
      Explains crypto verifiers v (.command apdu, answer) v
  | unsigned {v : PivView} {apdu : Apdu} {sw : UInt16} (hcla : apdu.cla = 0)
      (hins : apdu.ins = 0x87) (h : v.challenged apdu = .error sw) :
      Explains crypto verifiers v (.command apdu, .error (.status sw)) v
  | selected {v : PivView} : Explains crypto verifiers v (.select, .ok (.ok [])) v
  | rebooted {v : PivView} {rng : Nat → Entropy} :
      Explains crypto verifiers v (.reboot rng, .ok (.ok [])) { v with verified := false }

section

variable {crypto : AppletCrypto} {verifiers : Verifiers} {v : PivView}

/-- What a holder notes down on an answer: it reads the public key off the answer to GENERATE. -/
def noted (v : PivView) : AppletUse × Except Fault ResponseData → PivView
  | (.select, _) => v
  | (.reboot _, _) => { v with verified := false }
  | (.command apdu, answer) =>
      if apdu.cla ≠ 0 ∨ apdu.ins = 0x87 then v
      else if apdu.ins = 0x47 then
        match asksFor apdu, answer with
        | .ok (slot, alg), .ok response => v.withKey slot ⟨alg, response.data.drop 8⟩
        | _, _ => v
      else (v.serve apdu).2

/-- What is seen decides what is then known. -/
theorem Explains.eq_noted {x : AppletUse × Except Fault ResponseData} {w : PivView}
    (h : Explains crypto verifiers v x w) : w = v.noted x := by
  cases h with
  | foreign hcla => exact (if_pos (.inl hcla)).symm
  | @served apdu hcla hins =>
    have hother : ¬(apdu.cla ≠ 0 ∨ apdu.ins = 0x87) := not_or.mpr ⟨not_not.mpr hcla, hins.2⟩
    simp only [noted]
    rw [if_neg hother, if_neg hins.1]
  | @generated apdu slot key hcla hins h =>
    have hother : ¬(apdu.cla ≠ 0 ∨ apdu.ins = 0x87) := by
      rw [hins]
      exact not_or.mpr ⟨not_not.mpr hcla, by decide⟩
    simp only [noted]
    rw [if_neg hother, if_pos hins, h]
    simp only [ResponseData.ok, PublicKey.drop_object]
  | @ungenerated apdu _ hcla hins h =>
    have hother : ¬(apdu.cla ≠ 0 ∨ apdu.ins = 0x87) := by
      rw [hins]
      exact not_or.mpr ⟨not_not.mpr hcla, by decide⟩
    simp only [noted]
    rw [if_neg hother, if_pos hins]
    cases asksFor apdu with
    | error _ => rfl
    | ok _ => rfl
  | signed hcla hins => exact (if_pos (.inr hins)).symm
  | unsigned hcla hins => exact (if_pos (.inr hins)).symm
  | selected => rfl
  | rebooted => rfl

end

/-! ## What is known of a cell -/

/-- The state is as the holder knows, and put away, and its keys came from the generator. -/
structure Shows (crypto : AppletCrypto) (c : Cell PivState PivSession) (v : PivView) : Prop where
  pin : c.state.pin = v.pin
  retries : c.state.retries = v.retries
  verified : c.session.verified = v.verified
  keys : ∀ slot, ((c.state.keys.find? fun key => key.slot = slot).map fun key =>
    key.key.publicKey) = v.keys slot
  certs : ∀ slot, (c.state.certs.find? fun cert => cert.slot = slot).map PivCert.der = v.certs slot
  generated : ∀ key ∈ c.state.keys, key.key.Generated crypto
  kept : c.kept = c.state

section

variable {crypto : AppletCrypto} {c : Cell PivState PivSession} {v : PivView}
  (h : Shows crypto c v)

include h

/-! ## The PIN -/

theorem foretold_missed (hleft : v.retries ≠ 0) : Foretold (Shows crypto) v.missed
    (Cell.run (do let sw ← pivConsumeRetry; refuse sw) c) := by
  have hfewer : c.state.consumed.retries = v.retries - 1 := by
    show oneFewer c.state.retries = _
    rw [h.retries, oneFewer, if_neg hleft]
  have hshows : ∀ verified rng, Shows crypto
      ⟨⟨c.state.consumed, c.state.consumed, ⟨verified⟩⟩, rng⟩
      { v with retries := v.retries - 1, verified := verified } := fun _ _ =>
    ⟨h.pin, hfewer, rfl, h.keys, h.certs, h.generated, rfl⟩
  unfold pivConsumeRetry PivView.missed
  rw [Cell.run_bind, Cell.run_stateMut_bind, Cell.run_setState_bind]
  simp only [hfewer]
  by_cases hzero : v.retries - 1 = 0
  · rw [if_pos hzero, if_pos hzero, if_pos rfl, Cell.run_modifySession_bind,
      Cell.run_persistState_bind]
    exact ⟨rfl, hshows false _⟩
  · rw [if_neg hzero, if_neg hzero, if_neg (swRetries_ne _), Cell.run_persistState_bind]
    refine ⟨rfl, ?_⟩
    rw [← h.verified]
    exact hshows c.session.verified _

theorem foretold_presented {state : PivState} {pin : Bytes} (hpin : state.pin = pin)
    (hretries : state.retries = 3) (hkeys : state.keys = c.state.keys)
    (hcerts : state.certs = c.state.certs) : Foretold (Shows crypto) (v.presented pin)
      (Cell.run (do
        setState state
        persistState
        modifySession fun _ => ⟨true⟩
        pure (.ok [])) c) := by
  rw [Cell.run_setState_bind, Cell.run_persistState_bind, Cell.run_modifySession_bind,
    Cell.run_pure]
  refine ⟨rfl, hpin, hretries, rfl, fun slot => ?_, fun slot => ?_, fun key hkey => ?_, rfl⟩
  · show (state.keys.find? _).map _ = _
    rw [hkeys]
    exact h.keys slot
  · show (state.certs.find? _).map _ = _
    rw [hcerts]
    exact h.certs slot
  · exact h.generated key (hkeys ▸ hkey)

theorem foretold_verify (apdu : Apdu) :
    Foretold (Shows crypto) (v.verify apdu) (Cell.run (pivVerify apdu) c) := by
  refine foretold_require (by simp) h fun _ => ?_
  rw [Cell.run_stateMut_bind]
  refine foretold_require (by simp [h.retries]) h fun hleft => ?_
  refine foretold_ite (fun _ => ?_) fun _ => ?_
  · rw [← h.retries]
    exact foretold_pure h _
  · rw [← h.pin]
    refine foretold_ite (fun _ => ?_) fun _ => ?_
    · exact foretold_presented h rfl rfl rfl rfl
    · exact foretold_missed h hleft

theorem foretold_changePin (apdu : Apdu) : Foretold (Shows crypto) (v.changePin apdu)
    (Cell.run (pivChangeReferenceData apdu) c) := by
  refine foretold_require (by simp) h fun _ => ?_
  rw [Cell.run_stateMut_bind]
  refine foretold_require (by simp [h.retries]) h fun hleft => ?_
  refine foretold_require (by simp) h fun _ => ?_
  simp only
  by_cases hpin : 6 ≤ (stripPinPadding (apdu.data.drop 8)).length ∧
      (stripPinPadding (apdu.data.drop 8)).length ≤ 8
  · rw [if_pos hpin, dif_pos hpin, ← h.pin]
    refine foretold_ite (fun _ => ?_) fun _ => ?_
    · exact foretold_presented h rfl rfl rfl rfl
    · exact foretold_missed h hleft
  · rw [if_neg hpin, dif_neg hpin]
    exact foretold_refuse h _

theorem Shows.slotObject (slot : PivSlot) :
    OpenKey.slotObject c.state slot = v.slotObject slot := by
  rw [PivView.slotObject, OpenKey.slotObject, ← h.certs slot, ← h.keys slot]
  cases c.state.certs.find? fun cert => cert.slot = slot with
  | some cert => rfl
  | none =>
    simp only [Option.map_none, Option.none_or, Option.map_map]
    rfl

theorem run_requireForSlot_bind {α : Type} (slot : PivSlot) (f : Unit → PivCommand α) :
    Cell.run (requireForSlot slot >>= f) c =
      if v.admits slot then Cell.run (f ()) c else (.error (.status swSecurityStatus), c) := by
  rw [PivView.admits, ← h.verified]
  exact Cell.run_require_bind c _ _ f

/-! ## Objects -/

theorem foretold_getData (apdu : Apdu) :
    Foretold (Shows crypto) (v.getData apdu) (Cell.run (pivGetData apdu) c) := by
  refine foretold_require (by simp) h fun _ => ?_
  by_cases hdiscovery : apdu.data = [0x7E]
  · obtain ⟨object, hobject⟩ : ∃ object, discoveryObject = .ok object := ⟨_, rfl⟩
    have hfixed : fixedObject apdu.data = some object := by
      rw [fixedObject, if_pos hdiscovery, hobject]
      rfl
    rw [if_pos hdiscovery, hfixed, Cell.run_orFault_bind, hobject]
    exact foretold_pure h _
  · rw [if_neg hdiscovery]
    by_cases hchuid : apdu.data = [0x5F, 0xC1, 0x02]
    · obtain ⟨object, hobject⟩ : ∃ object, chuidObject = .ok object := ⟨_, rfl⟩
      have hfixed : fixedObject apdu.data = some object := by
        rw [fixedObject, if_neg hdiscovery, if_pos hchuid, hobject]
        rfl
      rw [if_pos hchuid, hfixed, Cell.run_orFault_bind, hobject]
      exact foretold_pure h _
    · have hfixed : fixedObject apdu.data = none := by
        rw [fixedObject, if_neg hdiscovery, if_neg hchuid]
      rw [if_neg hchuid, hfixed]
      cases PivSlot.fromTag apdu.data with
      | none => exact foretold_refuse h _
      | some slot =>
        simp only
        rw [Cell.run_stateMut_bind, h.slotObject]
        exact foretold_orRefuse h fun object _ => foretold_pure h _

theorem foretold_putData (apdu : Apdu) :
    Foretold (Shows crypto) (v.putData apdu) (Cell.run (pivPutData apdu) c) := by
  refine foretold_require (by simp) h fun _ => ?_
  simp only
  rw [Cell.run_orRefuse_bind]
  cases parsePutData apdu.data with
  | none => exact foretold_refuse h _
  | some cert =>
    simp only
    rw [run_requireForSlot_bind h]
    by_cases hadmits : v.admits cert.slot = true
    · rw [if_pos hadmits, if_pos hadmits, Cell.run_stateMut_bind, Cell.run_setState_bind,
        Cell.run_persistOr_bind]
      refine ⟨rfl, h.pin, h.retries, h.verified, h.keys, fun slot => ?_, h.generated, rfl⟩
      show ((putInSlot PivCert.slot cert c.state.certs).find? _).map _ =
        Function.update v.certs cert.slot (some cert.der) slot
      rw [find?_putInSlot, Function.update_apply]
      by_cases hslot : slot = cert.slot
      · rw [if_pos hslot, if_pos hslot]
        rfl
      · rw [if_neg hslot, if_neg hslot]
        exact h.certs slot
    · rw [if_neg hadmits, if_neg hadmits]
      exact foretold_refuse h _

/-! ## Keys -/

theorem Shows.withKey {slot : PivSlot} {key : ResidentKey} (hkey : key.Generated crypto)
    (rng : Nat → Entropy) : Shows crypto ⟨⟨c.state.withKey ⟨slot, key⟩, c.state.withKey ⟨slot, key⟩,
      c.session⟩, rng⟩ (v.withKey slot key.publicKey) := by
  refine ⟨h.pin, h.retries, h.verified, fun other => ?_, fun other => ?_, fun found hfound => ?_,
    rfl⟩
  · show ((putInSlot PivKey.slot ⟨slot, key⟩ c.state.keys).find? _).map _ =
      Function.update v.keys slot (some key.publicKey) other
    rw [find?_putInSlot, Function.update_apply]
    by_cases hother : other = slot
    · rw [if_pos hother, if_pos hother]
      rfl
    · rw [if_neg hother, if_neg hother]
      exact h.keys other
  · show ((clearSlot PivCert.slot slot c.state.certs).find? _).map _ =
      Function.update v.certs slot none other
    rw [find?_clearSlot, Function.update_apply]
    by_cases hother : other = slot
    · rw [if_pos hother, if_pos hother]
      rfl
    · rw [if_neg hother, if_neg hother]
      exact h.certs other
  · rcases mem_putInSlot hfound with rfl | hold
    · exact hkey
    · exact h.generated found hold

omit h in
theorem run_pivGenerate (apdu : Apdu) : Cell.run (pivGenerate crypto apdu) c =
    match asksFor apdu with
    | .error sw => (.error (.status sw), c)
    | .ok (slot, alg) => match generatedKey crypto (c.rng 0) alg with
      | some key => (.ok (.ok key.publicKey.object), ⟨⟨c.state.withKey ⟨slot, key⟩,
          c.state.withKey ⟨slot, key⟩, c.session⟩, fun n => c.rng (n + 2)⟩)
      | none => (.error (.status swConditionsNotSatisfied),
          { c with rng := fun n => c.rng (n + 1) }) := by
  unfold pivGenerate asksFor
  rw [Cell.run_require_bind]
  by_cases hp1 : apdu.p1 = 0x00
  · rw [if_pos (decide_eq_true hp1), if_pos hp1, Cell.run_orRefuse_bind]
    cases PivSlot.ofId apdu.p2 with
    | none => rfl
    | some slot =>
      simp only
      rw [Cell.run_orRefuse_bind]
      cases pivGenerateAlg apdu.data with
      | none => rfl
      | some alg =>
        exact Cell.run_generate crypto alg (fun state key => state.withKey ⟨slot, key⟩) _ c
  · rw [if_neg (mt of_decide_eq_true hp1), if_neg hp1]

theorem explains_generate {verifiers : Verifiers} {apdu : Apdu} (hcla : apdu.cla = 0)
    (hins : apdu.ins = 0x47) : ∃ w,
    Explains crypto verifiers v (.command apdu, (Cell.run (pivGenerate crypto apdu) c).1) w ∧
      Shows crypto (Cell.run (pivGenerate crypto apdu) c).2 w := by
  rw [run_pivGenerate]
  cases hasks : asksFor apdu with
  | error sw => exact ⟨v, .ungenerated hcla hins (.inl hasks), h⟩
  | ok asked =>
    obtain ⟨slot, alg⟩ := asked
    simp only
    cases hmade : generatedKey crypto (c.rng 0) alg with
    | none =>
      exact ⟨v, .ungenerated hcla hins (.inr ⟨rfl, slot, alg, c.rng 0, hasks, hmade⟩),
        ⟨h.pin, h.retries, h.verified, h.keys, h.certs, h.generated, h.kept⟩⟩
    | some key =>
      obtain rfl := (ResidentKey.of_generatedKey hmade).1
      have hexplains : Explains crypto verifiers v
          (.command apdu, .ok (.ok key.publicKey.object)) (v.withKey slot key.publicKey) :=
        .generated hcla hins hasks
      exact ⟨_, hexplains, h.withKey (ResidentKey.generated_of_generatedKey hmade) _⟩

/-- AUTHENTICATE, to a request that it takes and to others. -/
theorem run_authenticate (apdu : Apdu) :
    (∃ sw, v.challenged apdu = .error sw ∧
      Cell.run (pivAuthenticate crypto apdu) c = (.error (.status sw), c)) ∨
    ∃ (key : ResidentKey) (challenge : Bytes), v.challenged apdu = .ok (key.publicKey, challenge) ∧
      key.Generated crypto ∧ Cell.run (pivAuthenticate crypto apdu) c =
        Cell.run (do
          let signature ← signWith crypto key challenge
          pure (.ok signature)) c := by
  unfold pivAuthenticate PivView.challenged
  rw [Cell.run_orRefuse_bind]
  cases PivSlot.ofId apdu.p2 with
  | none => exact .inl ⟨_, rfl, rfl⟩
  | some slot =>
    simp only
    rw [run_requireForSlot_bind h]
    by_cases hadmits : v.admits slot = true
    · rw [if_pos hadmits, if_pos hadmits, Cell.run_orRefuse_bind]
      cases extractChallenge apdu.data with
      | none => exact .inl ⟨_, rfl, rfl⟩
      | some challenge =>
        simp only
        rw [Cell.run_stateMut_bind, Cell.run_orRefuse_bind, ← h.keys slot]
        cases hfound : c.state.keys.find? fun key => key.slot = slot with
        | none => exact .inl ⟨_, rfl, rfl⟩
        | some found =>
          simp only [Option.map_some]
          rw [Cell.run_require_bind]
          by_cases halg : apdu.p1 = 0x00 ∨ apdu.p1 = found.key.alg.id
          · have hp1 : (apdu.p1 = 0x00 || apdu.p1 = found.key.alg.id : Bool) = true := by
              simpa using halg
            rw [if_pos hp1]
            exact .inr ⟨found.key, challenge, if_pos halg,
              h.generated found (List.mem_of_find?_eq_some hfound), rfl⟩
          · have hp1 : ¬(apdu.p1 = 0x00 || apdu.p1 = found.key.alg.id : Bool) = true := by
              simpa using halg
            rw [if_neg hp1]
            exact .inl ⟨_, if_neg halg, rfl⟩
    · rw [if_neg hadmits, if_neg hadmits]
      exact .inl ⟨_, rfl, rfl⟩

theorem explains_authenticate {verifiers : Verifiers} (hsound : verifiers.Sound crypto.prims)
    {apdu : Apdu} (hcla : apdu.cla = 0) (hins : apdu.ins = 0x87) : ∃ w,
    Explains crypto verifiers v (.command apdu, (Cell.run (pivAuthenticate crypto apdu) c).1) w ∧
      Shows crypto (Cell.run (pivAuthenticate crypto apdu) c).2 w := by
  refine ⟨v, ?_⟩
  rcases run_authenticate h apdu with ⟨sw, hchallenged, hrun⟩ |
    ⟨key, challenge, hchallenged, hkey, hrun⟩
  · rw [hrun]
    exact ⟨.unsigned hcla hins hchallenged, h⟩
  · obtain ⟨answer, rng, hsign, hanswer⟩ := Cell.run_signWith crypto hsound hkey challenge c
    rw [hrun, hsign]
    exact ⟨.signed hcla hins hchallenged hanswer,
      ⟨h.pin, h.retries, h.verified, h.keys, h.certs, h.generated, h.kept⟩⟩

/-! ## The uses of the applet -/

theorem foretold_serve {apdu : Apdu} (hgenerate : apdu.ins ≠ 0x47) (hauth : apdu.ins ≠ 0x87)
    (hcla : apdu.cla = 0) :
    Foretold (Shows crypto) (v.serve apdu) (Cell.run (pivProcess crypto apdu) c) := by
  unfold pivProcess PivView.serve
  rw [Cell.run_require_bind, if_pos (decide_eq_true hcla), if_neg hgenerate, if_neg hauth]
  exact foretold_ite (fun _ => foretold_verify h apdu) fun _ =>
    foretold_ite (fun _ => foretold_changePin h apdu) fun _ =>
    foretold_ite (fun _ => foretold_getData h apdu) fun _ =>
    foretold_ite (fun _ => foretold_putData h apdu) fun _ => foretold_refuse h _

theorem explains_command {verifiers : Verifiers} (hsound : verifiers.Sound crypto.prims)
    (apdu : Apdu) : ∃ w,
    Explains crypto verifiers v (.command apdu, (Cell.run (pivProcess crypto apdu) c).1) w ∧
      Shows crypto (Cell.run (pivProcess crypto apdu) c).2 w := by
  by_cases hcla : apdu.cla = 0
  · by_cases hgenerate : apdu.ins = 0x47
    · have hprocess : Cell.run (pivProcess crypto apdu) c =
          Cell.run (pivGenerate crypto apdu) c := by
        unfold pivProcess
        rw [Cell.run_require_bind, if_pos (decide_eq_true hcla), hgenerate]
        rfl
      rw [hprocess]
      exact explains_generate h hcla hgenerate
    · by_cases hauth : apdu.ins = 0x87
      · have hprocess : Cell.run (pivProcess crypto apdu) c =
            Cell.run (pivAuthenticate crypto apdu) c := by
          unfold pivProcess
          rw [Cell.run_require_bind, if_pos (decide_eq_true hcla), hauth]
          rfl
        rw [hprocess]
        exact explains_authenticate h hsound hcla hauth
      · obtain ⟨hanswer, hshows⟩ := foretold_serve h hgenerate hauth hcla
        rw [hanswer]
        exact ⟨_, .served hcla ⟨hgenerate, hauth⟩, hshows⟩
  · unfold pivProcess
    rw [Cell.run_require_bind, if_neg (mt of_decide_eq_true hcla)]
    exact ⟨v, .foreign hcla, h⟩

/-- Every use of a cell is explained by what was known. -/
theorem explains_use {verifiers : Verifiers} (hsound : verifiers.Sound crypto.prims)
    (e : AppletUse) : ∃ w,
    Explains crypto verifiers v (e, ((Cell.use crypto .piv e).run c).1) w ∧
      Shows crypto ((Cell.use crypto .piv e).run c).2 w := by
  cases e with
  | select => exact ⟨v, .selected, h⟩
  | command apdu => exact explains_command h hsound apdu
  | reboot rng =>
    refine ⟨_, .rebooted, ?_⟩
    show Shows crypto ⟨⟨c.kept, c.kept, ⟨false⟩⟩, rng⟩ _
    rw [h.kept]
    exact ⟨h.pin, h.retries, rfl, h.keys, h.certs, h.generated, rfl⟩

end

/-- Over a storage that does not fail, all that the applet answers is explained by what a holder
knows that has seen all of it, and knew the state at the beginning. -/
theorem piv_transcript {β : Type} [StorageBackend β] [LawfulBackend β]
    (codec : Codec StoredCredential) {crypto : AppletCrypto} (haead : AeadSound crypto.prims)
    (htotal : AeadTotal crypto.prims) {verifiers : Verifiers}
    (hsound : verifiers.Sound crypto.prims) {patience : Nat} {b : β} {rng : Nat → Entropy}
    {h : Host β PivState PivSession}
    (hkeys : ∀ state, Host.Opens crypto pivFormat (StorageEngine.withBackend codec b) state →
      ∀ key ∈ state.keys, key.key.Generated crypto)
    (hbuilt : Host.built codec crypto patience .piv b rng = (.ok (), h)) : ∃ state,
    Host.Opens crypto pivFormat (StorageEngine.withBackend codec b) state ∧
      ∀ uses : List AppletUse, ∃! w, Transcript (Explains crypto verifiers) (ofState state)
        (uses.zip (Prog.results (Host.use codec crypto patience .piv) uses h).1) w :=
  Host.transcript_of_built (n := .piv) (R := Shows crypto) codec haead htotal
    (fun _ _ _ _ h h' => h.eq_noted.trans h'.eq_noted.symm)
    (fun e _ _ hshows => explains_use hshows hsound e)
    (fun state _ hopens => ⟨rfl, rfl, rfl, fun _ => rfl, fun _ => rfl, hkeys state hopens, rfl⟩)
    hbuilt

/-! ## A key that signs before a reboot and after it -/

/-- What ChaCha20-Poly1305 makes of the factory state, and of the states with a key in slot `9C`. -/
def holderAead : KnownAead where
  rows := [
    .of 0x02 0x09 (Bytes.beBytes 11 0x0306313233343536030000)
      (Bytes.beBytes 27 0x117121fffac924d1afb9cb47d462655d8efc79c04a4c51cebddddd),
    .of 0x02 0x09
      (Bytes.beBytes 16 0x030631323334353603019ce000200909 ++
        Bytes.beBytes 32 0x0909090909090909090909090909090909090909090909090909090909090020 ++
        Bytes.beBytes 33 0xfd1724385aa0c75b64fb78cd602fa1d991fdebf76b13c58ed702eac835e9f61800)
      (Bytes.beBytes 16 0x117121fffac924d1afb8578a5b71d850 ++
        Bytes.beBytes 32 0xdc6975c9b412a9773316c510007ccb6b8e0da3d0185a04dd0ea9c9ff3abcbff4 ++
        Bytes.beBytes 33 0x6e8385e8a4ade833d934d277626d99d40a503697f52b61e93c4672b233cbb9e8f1 ++
        Bytes.beBytes 16 0xbfa0aa90eb7d8aaf9b9574f1ad3371f5),
    .of 0x02 0x09
      (Bytes.beBytes 16 0x030631323334353602019ce000200909 ++
        Bytes.beBytes 32 0x0909090909090909090909090909090909090909090909090909090909090020 ++
        Bytes.beBytes 33 0xfd1724385aa0c75b64fb78cd602fa1d991fdebf76b13c58ed702eac835e9f61800)
      (Bytes.beBytes 16 0x117121fffac924d1aeb8578a5b71d850 ++
        Bytes.beBytes 32 0xdc6975c9b412a9773316c510007ccb6b8e0da3d0185a04dd0ea9c9ff3abcbff4 ++
        Bytes.beBytes 33 0x6e8385e8a4ade833d934d277626d99d40a503697f52b61e93c4672b233cbb9e8f1 ++
        Bytes.beBytes 16 0xe533a5a88ef7bb30ecdcb52ca111a037)]
  opens := by decide +kernel
  one_key := by decide +kernel
  apart := by decide +kernel
  ne_nil := by decide +kernel

/-- GENERATE in slot `9C` and a signature, then a reboot, a wrong PIN and the signature again. -/
def holderUses : List AppletUse :=
  let sign := .command ⟨0x00, 0x87, 0x00, 0x9C, [1, 2, 3], none⟩
  [.command ⟨0x00, 0x47, 0x00, 0x9C, [0xE0], none⟩, sign, .reboot (KnownAead.constantDraws 0x09),
    .command ⟨0x00, 0x20, 0x00, 0x80, List.replicate 6 0x31, none⟩, sign]

def holderAnswers : List (Except Fault ResponseData) :=
  [.ok (.ok (PublicKey.object ⟨.ed25519, ninesPublic⟩)), .ok (.ok ninesSignature), .ok (.ok []),
    .error (.status (swRetries 2)), .ok (.ok ninesSignature)]

/-- The applet that is built over an empty medium. -/
def holderHost : Except Fault Unit × Host KvMap PivState PivSession :=
  Host.built unusedCodec holderAead.signing 1 .piv ∅ (KnownAead.constantDraws 0x09)

theorem piv_transcript_signed : ∃ state w,
    Transcript (Explains holderAead.signing holderAead.verifiers) (ofState state)
      (holderUses.zip holderAnswers) w := by
  have hbuilt : Host.built unusedCodec holderAead.signing 1 .piv (∅ : KvMap)
      (KnownAead.constantDraws 0x09) = (.ok (), holderHost.2) :=
    Prod.ext (by decide +kernel) rfl
  have hkeys : ∀ state, Host.Opens holderAead.signing pivFormat
      (StorageEngine.withBackend unusedCodec (∅ : KvMap)) state →
        ∀ key ∈ state.keys, key.key.Generated holderAead.signing := by
    intro state hopens
    have hnone : Host.storedState holderAead.signing pivFormat
        (StorageEngine.withBackend unusedCodec (∅ : KvMap)) = none := by decide +kernel
    rcases hopens with ⟨migrated, hstored⟩ | ⟨-, rng, rng', hfactory⟩
    · rw [hnone] at hstored
      cases hstored
    · obtain rfl := Except.ok.inj (congrArg Prod.fst hfactory)
      intro key hkey
      cases hkey
  have hanswers : (Prog.results (Host.use unusedCodec holderAead.signing 1 .piv) holderUses
      holderHost.2).1 = holderAnswers := by decide +kernel
  obtain ⟨state, -, hexplained⟩ := piv_transcript unusedCodec holderAead.sound_signing
    holderAead.total_signing holderAead.sound_verifiers hkeys hbuilt
  obtain ⟨w, hlog, -⟩ := hexplained holderUses
  rw [hanswers] at hlog
  exact ⟨state, w, hlog⟩

end PivView

end OpenKey
