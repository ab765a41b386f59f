import OpenKey.Device.KnownAead
import OpenKey.Device.OpenPgpChanges
import OpenKey.Device.PivChanges

/-!
# Writes that fail

PUT DATA and GENERATE ASYMMETRIC KEY PAIR answer a failed write by emptying the slot in memory, and
VERIFY and CHANGE REFERENCE DATA do nothing about it.

**Rollbacks (`rollback_iff`).** So memory is again what the storage holds exactly where the slot was
empty before, or where the command has given the right password with all retries left and no new
password.
-/

namespace OpenKey

open Change (Synced RollsBack)

set_option autoImplicit false

/-! ## PIV -/

namespace Piv

section

variable {α : Type} {slotOf : α → PivSlot} {slot : PivSlot}

theorem clearSlot_put (new : α) (things : List α) :
    clearSlot slotOf (slotOf new) (putInSlot slotOf new things) =
      clearSlot slotOf (slotOf new) things := by
  induction things with
  | nil => simp [putInSlot, clearSlot]
  | cons old rest ih =>
      unfold putInSlot
      split
      · next hsame => simp [clearSlot, hsame]
      · next hother =>
          unfold clearSlot at ih ⊢
          rw [List.filter_cons, List.filter_cons, ih]

theorem clearSlot_eq_self {things : List α} :
    clearSlot slotOf slot things = things ↔ ∀ thing ∈ things, slotOf thing ≠ slot := by
  unfold clearSlot
  rw [List.filter_eq_self]
  simp only [decide_eq_true_eq]

end

variable {state : PivState}

theorem withoutKey_withKey {key : PivKey} :
    (state.withKey key).withoutKey key.slot = state ↔
      (∀ old ∈ state.keys, old.slot ≠ key.slot) ∧ ∀ cert ∈ state.certs, cert.slot ≠ key.slot := by
  rw [← clearSlot_eq_self, ← clearSlot_eq_self, ← clearSlot_put]
  cases state
  simp only [PivState.withKey, PivState.withoutKey, PivState.mk.injEq, true_and]

theorem withoutCert_withCert {cert : PivCert} :
    (state.withCert cert).withoutCert cert.slot = state ↔
      ∀ old ∈ state.certs, old.slot ≠ cert.slot := by
  rw [← clearSlot_eq_self, ← clearSlot_put]
  cases state
  simp only [PivState.withCert, PivState.withoutCert, PivState.mk.injEq, true_and]

theorem restored_eq : state.restored = state ↔ state.retries = 3 := by
  cases state
  simp only [PivState.restored, PivState.mk.injEq, true_and, and_true, eq_comm]

theorem withPin_eq {pin : Bytes} {h : 6 ≤ pin.length ∧ pin.length ≤ 8} :
    state.withPin pin h = state ↔ pin = state.pin ∧ state.retries = 3 := by
  cases state
  simp only [PivState.withPin, PivState.restored, PivState.mk.injEq, and_true]
  rw [eq_comm (a := (3 : UInt8))]

theorem consumed_ne (h : state.retries ≠ 0) : state.consumed ≠ state := fun heq =>
  oneFewer_ne h (congrArg PivState.retries heq)

/-- What a failed write would lose is not there: the slot of the command is empty, or it presents
the PIN with all retries left and keeps it. -/
def Restorable (state : PivState) (apdu : Apdu) : Prop :=
  if apdu.ins = 0x20 then stripPinPadding apdu.data = state.pin ∧ state.retries = 3
  else if apdu.ins = 0x24 then
    stripPinPadding (apdu.data.take 8) = state.pin ∧
      stripPinPadding (apdu.data.drop 8) = state.pin ∧ state.retries = 3
  else if apdu.ins = 0x47 then
    ∀ slot ∈ PivSlot.ofId apdu.p2,
      (∀ key ∈ state.keys, key.slot ≠ slot) ∧ ∀ cert ∈ state.certs, cert.slot ≠ slot
  else
    ∀ new ∈ parsePutData apdu.data, ∀ cert ∈ state.certs, cert.slot ≠ new.slot

theorem kept_iff {crypto : AppletCrypto} {session : PivSession} {entropy : Entropy} {apdu : Apdu}
    {change : Change PivState PivSession}
    (h : pivChange crypto state session entropy apdu = some change) :
    change.kept = state ↔ Restorable state apdu := by
  unfold pivChange at h
  unfold Restorable
  split at h
  · cases h
  split at h
  · next hins =>
      rw [if_pos hins]
      unfold verifyChange at h
      split at h
      · next hcompared =>
          split at h
          · next hpin =>
              cases h
              exact restored_eq.trans (and_iff_right hpin).symm
          · next hpin =>
              cases h
              exact iff_of_false (consumed_ne hcompared.2.1) fun h => hpin h.1
      · cases h
  split at h
  · next hverify hins =>
      rw [if_neg hverify, if_pos hins]
      unfold changePinChange at h
      simp only at h
      split at h
      · next hcompared =>
          split at h
          · split at h
            · next hpin =>
                cases h
                exact withPin_eq.trans (and_iff_right hpin).symm
            · next hpin =>
                cases h
                exact iff_of_false (consumed_ne hcompared.2.1) fun h => hpin h.1
          · cases h
      · cases h
  split at h
  · next hverify hchange hins =>
      rw [if_neg hverify, if_neg hchange, if_pos hins]
      unfold generateChange at h
      split at h
      · obtain ⟨slot, hslot, h⟩ := Option.bind_eq_some_iff.mp h
        obtain ⟨alg, -, h⟩ := Option.bind_eq_some_iff.mp h
        obtain ⟨key, -, h⟩ := Option.bind_eq_some_iff.mp h
        cases h
        rw [hslot]
        simp only [Option.mem_def, Option.some.injEq, forall_eq']
        exact withoutKey_withKey
      · cases h
  split at h
  · next hverify hchange hgenerate hins =>
      rw [if_neg hverify, if_neg hchange, if_neg hgenerate]
      unfold putDataChange at h
      split at h
      · obtain ⟨cert, hcert, h⟩ := Option.bind_eq_some_iff.mp h
        split at h
        · cases h
          rw [hcert]
          simp only [Option.mem_def, Option.some.injEq, forall_eq']
          exact withoutCert_withCert
        · cases h
      · cases h
  · cases h

end Piv

/-! ## OpenPGP -/

namespace OpenPgp

variable {state : OpenPgpState} {admin : Bool}

theorem withPassword_eq {pw : Password} :
    state.withPassword admin pw = state ↔ pw = state.password admin := by
  obtain ⟨pw1, pw3, sigKey⟩ := state
  cases admin with
  | false => simp [OpenPgpState.withPassword, OpenPgpState.password]
  | true => simp [OpenPgpState.withPassword, OpenPgpState.password]

theorem restored_eq {pw : Password} : pw.restored = pw ↔ pw.retries = 3 := by
  cases pw
  simp only [Password.restored, Password.mk.injEq, true_and, eq_comm]

/-- What a failed write would lose is not there: there is no key, or VERIFY presents the password
with all retries left. -/
def Restorable (state : OpenPgpState) (apdu : Apdu) : Prop :=
  if apdu.ins = 0x20 then
    ∀ admin ∈ verifies apdu,
      apdu.data = (state.password admin).bytes ∧ (state.password admin).retries = 3
  else state.sigKey = none

theorem kept_iff {crypto : AppletCrypto} {session : OpenPgpSession} {entropy : Entropy}
    {apdu : Apdu} {change : Change OpenPgpState OpenPgpSession}
    (h : openPgpChange crypto state session entropy apdu = some change) :
    change.kept = state ↔ Restorable state apdu := by
  unfold openPgpChange at h
  unfold Restorable
  split at h
  · cases h
  split at h
  · next hins =>
      rw [if_pos hins]
      obtain ⟨admin, hadmin, h⟩ := Option.bind_eq_some_iff.mp h
      rw [hadmin]
      simp only [Option.mem_def, Option.some.injEq, forall_eq']
      split at h
      · next hcompared =>
          split at h
          · next hpw =>
              cases h
              exact (withPassword_eq.trans restored_eq).trans (and_iff_right hpw).symm
          · next hpw =>
              cases h
              refine iff_of_false (fun hsame => ?_) fun h => hpw h.1
              exact oneFewer_ne hcompared.1 (congrArg Password.retries (withPassword_eq.mp hsame))
      · cases h
  split at h
  · next hverify hins =>
      rw [if_neg hverify]
      unfold generateChange at h
      split at h
      · obtain ⟨alg, -, h⟩ := Option.bind_eq_some_iff.mp h
        obtain ⟨key, -, h⟩ := Option.bind_eq_some_iff.mp h
        cases h
        cases state
        simp only [OpenPgpState.mk.injEq, true_and, eq_comm]
      · cases h
  · cases h

end OpenPgp

/-! ## The rollbacks -/

/-- **Rollbacks.** Over a state that is persisted, a command whose write fails leaves memory and
storage as they were exactly where the write does not fail or what it would lose is not there. -/
theorem rollback_iff {β : Type} [StorageBackend β] [AtomicBackend β] (crypto : AppletCrypto)
    (apdu : Apdu) :
    (∀ (state : PivState) (h : Host β PivState PivSession), Synced crypto pivFormat state h →
      (Host.Ends crypto pivFormat (pivProcess crypto apdu) h (fun r g =>
          RollsBack crypto pivFormat state h g
            (pivChange crypto state h.memory.session (h.rng 0) apdu) r) ↔
        ∀ change ∈ pivChange crypto state h.memory.session (h.rng 0) apdu,
          change.taken crypto pivFormat h = true ∨ Piv.Restorable state apdu)) ∧
    ∀ (state : OpenPgpState) (h : Host β OpenPgpState OpenPgpSession),
      Synced crypto openPgpFormat state h →
      (Host.Ends crypto openPgpFormat (openPgpProcess crypto apdu) h (fun r g =>
          RollsBack crypto openPgpFormat state h g
            (openPgpChange crypto state h.memory.session (h.rng 0) apdu) r) ↔
        ∀ change ∈ openPgpChange crypto state h.memory.session (h.rng 0) apdu,
          change.taken crypto openPgpFormat h = true ∨ OpenPgp.Restorable state apdu) := by
  constructor
  · intro state h hsync
    have hd : ((Host.perform crypto pivFormat (pivProcess crypto apdu)).run h).2.storage.Durable :=
      (Host.keeps_command (StorageEngine.confined_store _) (pivProcess crypto apdu) h
        hsync.durable).1
    have hout : Host.Ends crypto pivFormat (pivProcess crypto apdu) h _ :=
      Piv.ends_pivProcess hsync.memory hsync.durable.backend apdu
    refine (Change.Outcome.rollsBack_iff hsync hd hout).trans ?_
    exact forall₂_congr fun change hchange => or_congr_right (Piv.kept_iff hchange)
  · intro state h hsync
    have hd : ((Host.perform crypto openPgpFormat
        (openPgpProcess crypto apdu)).run h).2.storage.Durable :=
      (Host.keeps_command (StorageEngine.confined_store _) (openPgpProcess crypto apdu) h
        hsync.durable).1
    have hout : Host.Ends crypto openPgpFormat (openPgpProcess crypto apdu) h _ :=
      OpenPgp.ends_openPgpProcess hsync.memory hsync.durable.backend apdu
    refine (Change.Outcome.rollsBack_iff hsync hd hout).trans ?_
    exact forall₂_congr fun change hchange => or_congr_right (OpenPgp.kept_iff hchange)

namespace Piv

/-! ## A PUT DATA that is refused -/

/-- What ChaCha20-Poly1305 makes of a factory state, and of states with a certificate of one byte in
slot `9C`. -/
def slotAead : KnownAead where
  rows := [
    .of 0x02 0x04 (Bytes.beBytes 11 0x0306313233343536030000)
      (Bytes.beBytes 27 0x1f54e5feefd3058f4252d61f403dfa14c85cbb0a8ebc2d107b1fe4),
    .of 0x02 0x04 (Bytes.beBytes 15 0x03063132333435360300019c000130)
      (Bytes.beBytes 31 0x1f54e5feefd3058f4252d74ff51dbfaf3afd0840d543c9a8e99dec6b8f5785),
    .of 0x02 0x09 (Bytes.beBytes 15 0x03063132333435360300019c000131)
      (Bytes.beBytes 31 0x117121fffac924d1afb9caf65b50e05c84e460135d9935c4b8915c773d56b8)]
  opens := by decide +kernel
  one_key := by decide +kernel
  apart := by decide +kernel
  ne_nil := by decide +kernel

/-- The engine of a card with the master key `02..02`. -/
def slotCrypto : AppletCrypto := slotAead.crypto (List.replicate 32 0x02) KnownAead.length_masterKey

theorem sound_slotCrypto : AeadSound slotCrypto.prims := KnownAead.sound _ _

/-- The factory state with a certificate of one byte in slot `9C`. -/
def occupied : PivState := PivState.factory.withCert ⟨.digSig, [0x30], by decide⟩

/-- A medium with the blob of a state, which refuses the next write. -/
def refusing (blob : Bytes) : StorageEngine FaultyBackend :=
  .withBackend unusedCodec ⟨(∅ : KvMap).insert "sys:piv" blob, [true]⟩

/-- The applet with a state in memory, over such a medium. -/
def refusingHost (state : PivState) (blob : Bytes) : Host FaultyBackend PivState PivSession :=
  ⟨refusing blob, KnownAead.constantDraws 0x09, ⟨some state, ⟨false⟩⟩, some state⟩

theorem synced_refusingHost {state : PivState} {blob : Bytes}
    (hseal : Host.sealState slotCrypto pivFormat state (fun _ => 0x04) = .ok blob) :
    Synced slotCrypto pivFormat state (refusingHost state blob) := by
  have hd : (refusing blob).Durable := StorageEngine.durable_withBackend _ _
  have hheld : (refusing blob).heldEntry pivFormat.storageKey = some blob := by
    unfold refusing StorageEngine.heldEntry
    rw [(StorageEngine.withBackend_eq _ _).1]
    exact Std.ExtTreeMap.getElem?_insert_self
  exact ⟨hd, rfl, Host.storedState_of_held sound_slotCrypto hd hheld hseal⟩

/-- The blobs of the factory state and of the one with the certificate. -/
def factoryBlob : Bytes :=
  List.replicate 12 0x04 ++ Bytes.beBytes 27
    0x1f54e5feefd3058f4252d61f403dfa14c85cbb0a8ebc2d107b1fe4

def occupiedBlob : Bytes :=
  List.replicate 12 0x04 ++
    Bytes.beBytes 31 0x1f54e5feefd3058f4252d74ff51dbfaf3afd0840d543c9a8e99dec6b8f5785

/-- PUT DATA of the certificate `31` for slot `9C`. -/
def putApdu : Apdu := ⟨0, 0xDB, 0x3F, 0xFF, [0x5F, 0xC1, 0x0A, 0x01, 0x31], none⟩

/-- The refused certificate takes the one before it along: storage still has it, memory has none. -/
theorem refused_cert_lost :
    Synced slotCrypto pivFormat occupied (refusingHost occupied occupiedBlob) ∧
    ¬Host.Ends slotCrypto pivFormat (pivProcess slotCrypto putApdu)
      (refusingHost occupied occupiedBlob) (fun r g =>
        RollsBack slotCrypto pivFormat occupied (refusingHost occupied occupiedBlob) g
          (pivChange slotCrypto occupied ⟨false⟩ (fun _ => 0x09) putApdu) r) := by
  refine ⟨synced_refusingHost (by decide +kernel), fun hback => ?_⟩
  have hrun : Host.Ends slotCrypto pivFormat (pivProcess slotCrypto putApdu)
      (refusingHost occupied occupiedBlob) fun _ g =>
        (g.memory.state.map fun state => state.certs.length) = some 0 := by
    unfold Host.Ends
    decide +kernel
  have hrefused : ((pivChange slotCrypto occupied ⟨false⟩ (fun _ => 0x09) putApdu).map fun change =>
      change.taken slotCrypto pivFormat (refusingHost occupied occupiedBlob)) = some false := by
    decide +kernel
  obtain ⟨change, hchange, htaken⟩ := Option.map_eq_some_iff.mp hrefused
  obtain ⟨-, -, hmem, -⟩ := hback change hchange htaken
  have hnone : (some occupied).map (fun state => state.certs.length) = some 0 := hmem ▸ hrun
  exact absurd hnone (by decide)

/-- A refused certificate for an empty slot leaves it empty. -/
theorem rollback_iff_empty : Host.Ends slotCrypto pivFormat (pivProcess slotCrypto putApdu)
    (refusingHost .factory factoryBlob) (fun r g =>
      RollsBack slotCrypto pivFormat .factory (refusingHost .factory factoryBlob) g
        (pivChange slotCrypto .factory ⟨false⟩ (fun _ => 0x09) putApdu) r) := by
  have hsync : Synced slotCrypto pivFormat .factory (refusingHost .factory factoryBlob) :=
    synced_refusingHost (by decide +kernel)
  refine ((rollback_iff slotCrypto putApdu).1 _ _ hsync).mpr fun change _ => .inr ?_
  intro new _ cert hcert
  cases hcert

end Piv

end OpenKey
