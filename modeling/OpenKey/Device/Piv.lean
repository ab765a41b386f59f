import OpenKey.Device.ResidentKey
import Mathlib.Data.List.Nodup
import Mathlib.Data.List.Perm.Subperm

/-!
# The PIV applet

`crates/openkey-device/src/firmware/yubico_piv.rs`: the PIN with its retries, a key and a
certificate in each of four slots, and the commands on them.

A `PivState` carries what `parse_state` checks, so that every state that a command makes is read
back as it was written (`PivState.parse_serialize`).
-/

namespace OpenKey

open Command

set_option autoImplicit false

/-- `AID_PIV`. -/
def aidPiv : Bytes := [0xA0, 0x00, 0x00, 0x03, 0x08, 0x00, 0x00, 0x10, 0x00, 0x01, 0x00]

/-! ## Slots -/

/-- The slots `9A`, `9C`, `9D` and `9E`. -/
inductive PivSlot
  | pivAuth
  | digSig
  | keyMgmt
  | cardAuth
  deriving DecidableEq, Repr

namespace PivSlot

/-- The number of a slot. -/
def id : PivSlot → UInt8
  | .pivAuth => 0x9A
  | .digSig => 0x9C
  | .keyMgmt => 0x9D
  | .cardAuth => 0x9E

/-- `is_valid_slot`, with the slot. -/
def ofId (b : UInt8) : Option PivSlot :=
  if b = 0x9A then some .pivAuth
  else if b = 0x9C then some .digSig
  else if b = 0x9D then some .keyMgmt
  else if b = 0x9E then some .cardAuth
  else none

@[simp] theorem ofId_id (slot : PivSlot) : ofId slot.id = some slot := by
  cases slot <;> decide

/-- `slot_tag`. -/
def tag : PivSlot → Bytes
  | .pivAuth => [0x5F, 0xC1, 0x05]
  | .digSig => [0x5F, 0xC1, 0x0A]
  | .keyMgmt => [0x5F, 0xC1, 0x0B]
  | .cardAuth => [0x5F, 0xC1, 0x0C]

/-- `slot_from_tag`. -/
def fromTag (bytes : Bytes) : Option PivSlot :=
  [.pivAuth, .digSig, .keyMgmt, .cardAuth].find? fun slot => slot.tag = bytes

end PivSlot

/-! ## Things in slots -/

/-- Put a thing in its slot: in place of the first one there, else at the end. -/
def putInSlot {α : Type} (slotOf : α → PivSlot) (new : α) : List α → List α
  | [] => [new]
  | old :: rest =>
      if slotOf old = slotOf new then new :: rest else old :: putInSlot slotOf new rest

/-- What is in other slots. -/
def clearSlot {α : Type} (slotOf : α → PivSlot) (slot : PivSlot) (things : List α) : List α :=
  things.filter fun thing => slotOf thing ≠ slot

section

variable {α : Type} {slotOf : α → PivSlot}

theorem mem_slots_put {slot : PivSlot} {new : α} {things : List α}
    (h : slot ∈ (putInSlot slotOf new things).map slotOf) :
    slot = slotOf new ∨ slot ∈ things.map slotOf := by
  induction things with
  | nil => exact .inl (by simpa [putInSlot] using h)
  | cons old rest ih =>
      unfold putInSlot at h
      split at h
      · obtain h | h := List.mem_cons.mp h
        · exact .inl h
        · exact .inr (List.mem_cons_of_mem _ h)
      · obtain h | h := List.mem_cons.mp h
        · exact .inr (h ▸ List.mem_cons_self ..)
        · exact (ih h).imp_right (List.mem_cons_of_mem _)

theorem nodup_put {new : α} {things : List α} (h : (things.map slotOf).Nodup) :
    ((putInSlot slotOf new things).map slotOf).Nodup := by
  induction things with
  | nil => exact List.nodup_singleton _
  | cons old rest ih =>
      obtain ⟨hold, hrest⟩ := List.nodup_cons.mp h
      unfold putInSlot
      split
      · next heq =>
          rw [heq] at hold
          exact List.nodup_cons.mpr ⟨hold, hrest⟩
      · next hne =>
          refine List.nodup_cons.mpr ⟨fun hmem => ?_, ih hrest⟩
          exact (mem_slots_put hmem).elim hne hold

theorem nodup_clear {slot : PivSlot} {things : List α} (h : (things.map slotOf).Nodup) :
    ((clearSlot slotOf slot things).map slotOf).Nodup :=
  h.sublist (List.filter_sublist.map slotOf)

/-- There are no more things than slots. -/
theorem length_le_slots {things : List α} (h : (things.map slotOf).Nodup) : things.length ≤ 4 := by
  have hall : things.map slotOf ⊆ [.pivAuth, .digSig, .keyMgmt, .cardAuth] := by
    intro slot _
    cases slot <;> decide
  have hlen := (List.subperm_of_subset h hall).length_le
  rw [List.length_map] at hlen
  exact hlen

end

/-! ## States -/

/-- `PivKey`. -/
structure PivKey where
  slot : PivSlot
  key : ResidentKey
  deriving DecidableEq

/-- `PivCert`; the certificate has at most `MAX_CERT_LEN` bytes. -/
structure PivCert where
  slot : PivSlot
  der : Bytes
  der_ok : 0 < der.length ∧ der.length ≤ 2048
  deriving DecidableEq

/-- `PivState`. -/
structure PivState where
  pin : Bytes
  retries : UInt8
  keys : List PivKey
  certs : List PivCert
  pin_ok : 6 ≤ pin.length ∧ pin.length ≤ 8
  retries_ok : retries ≤ 3
  keys_ok : (keys.map PivKey.slot).Nodup
  certs_ok : (certs.map PivCert.slot).Nodup
  deriving DecidableEq

namespace PivState

theorem full_retries_ok : (3 : UInt8) ≤ 3 := by decide

/-- The state of `ensure_loaded` where there is none: the PIN `123456`, and `MAX_RETRIES`. -/
def factory : PivState where
  pin := [0x31, 0x32, 0x33, 0x34, 0x35, 0x36]
  retries := 3
  keys := []
  certs := []
  pin_ok := by decide
  retries_ok := full_retries_ok
  keys_ok := List.nodup_nil
  certs_ok := List.nodup_nil

/-- A key behind its slot. -/
def serializeKey (key : PivKey) : Bytes := [key.slot.id] ++ key.key.serialize

/-- A certificate behind its slot. -/
def serializeCert (cert : PivCert) : Bytes :=
  [cert.slot.id] ++ (Bytes.beBytes 2 cert.der.length ++ cert.der)

/-- `serialize_state`. -/
def serialize (state : PivState) : Bytes :=
  3 :: (Bytes.beBytes 1 state.pin.length ++ state.pin ++ ([state.retries] ++
    (Bytes.beBytes 1 state.keys.length ++ (state.keys.flatMap serializeKey ++
    (Bytes.beBytes 1 state.certs.length ++ state.certs.flatMap serializeCert)))))

/-- A slot. -/
def readSlot : Blob.Reader PivSlot := do
  let b ← Blob.byte
  (PivSlot.ofId b).elim failure pure

/-- A key behind its slot. -/
def readKey : Blob.Reader PivKey := do
  let slot ← readSlot
  let key ← ResidentKey.read
  pure ⟨slot, key⟩

/-- A certificate around its parts. -/
def buildCert (slot : PivSlot) (der : Bytes) : Blob.Reader PivCert :=
  if h : 0 < der.length ∧ der.length ≤ 2048 then pure ⟨slot, der, h⟩ else failure

/-- A certificate behind its slot. -/
def readCert : Blob.Reader PivCert := do
  let slot ← readSlot
  let der ← Blob.prefixed 2
  buildCert slot der

/-- A state around its parts. -/
def ofParts (pin : Bytes) (retries : UInt8) (keys : List PivKey) (certs : List PivCert)
    (h : (6 ≤ pin.length ∧ pin.length ≤ 8) ∧ retries ≤ 3 ∧ (keys.map PivKey.slot).Nodup ∧
      (certs.map PivCert.slot).Nodup) : PivState :=
  ⟨pin, retries, keys, certs, h.1, h.2.1, h.2.2.1, h.2.2.2⟩

/-- A state around its parts: the checks of `parse_state` that are not about one item. -/
def build (pin : Bytes) (retries : UInt8) (keys : List PivKey) (certs : List PivCert) :
    Blob.Reader PivState :=
  if h : (6 ≤ pin.length ∧ pin.length ≤ 8) ∧ retries ≤ 3 ∧ (keys.map PivKey.slot).Nodup ∧
      (certs.map PivCert.slot).Nodup then
    pure (ofParts pin retries keys certs h)
  else failure

/-- `parse_state_v1`, behind the version: the PIN only. -/
def readV1 : Blob.Reader PivState := do
  let pin ← Blob.prefixed 1
  let retries ← Blob.byte
  build pin retries [] []

/-- `parse_state_v2`, behind the version: no certificates. -/
def readV2 : Blob.Reader PivState := do
  let pin ← Blob.prefixed 1
  let retries ← Blob.byte
  let numKeys ← Blob.number 1
  let keys ← Blob.many readKey numKeys
  build pin retries keys []

/-- `parse_state_v3`, behind the version. -/
def readV3 : Blob.Reader PivState := do
  let pin ← Blob.prefixed 1
  let retries ← Blob.byte
  let numKeys ← Blob.number 1
  let keys ← Blob.many readKey numKeys
  let numCerts ← Blob.number 1
  let certs ← Blob.many readCert numCerts
  build pin retries keys certs

/-- `parse_state`. -/
def parse : Bytes → Option PivState
  | [] => none
  | version :: body =>
      if version = 1 then Blob.whole readV1 body
      else if version = 2 then Blob.whole readV2 body
      else if version = 3 then Blob.whole readV3 body
      else none

theorem reads_slot (slot : PivSlot) : Blob.Reads readSlot [slot.id] slot := by
  refine Blob.reads_bind_last (Blob.reads_byte _) ?_
  rw [PivSlot.ofId_id]
  exact Blob.reads_pure slot

theorem reads_key (key : PivKey) : Blob.Reads readKey (serializeKey key) key :=
  Blob.reads_bind (reads_slot key.slot)
    (Blob.reads_bind_last key.key.reads_serialize (Blob.reads_pure key))

theorem reads_cert (cert : PivCert) : Blob.Reads readCert (serializeCert cert) cert := by
  have hlen := cert.der_ok
  refine Blob.reads_bind (reads_slot cert.slot)
    (Blob.reads_bind_last (Blob.reads_prefixed (by omega)) ?_)
  intro rest
  rw [buildCert, dif_pos cert.der_ok]
  rfl

theorem reads_build (state : PivState) :
    Blob.Reads (build state.pin state.retries state.keys state.certs) [] state := by
  intro rest
  rw [build, dif_pos ⟨state.pin_ok, state.retries_ok, state.keys_ok, state.certs_ok⟩]
  rfl

theorem reads_v3 (state : PivState) : Blob.Reads readV3 state.serialize.tail state := by
  have hpin := state.pin_ok
  have hkeys := length_le_slots state.keys_ok
  have hcerts := length_le_slots state.certs_ok
  refine Blob.reads_bind (Blob.reads_prefixed (by omega)) ?_
  refine Blob.reads_bind (Blob.reads_byte _) ?_
  refine Blob.reads_bind (Blob.reads_number (by omega)) ?_
  refine Blob.reads_bind (Blob.reads_many fun key _ => reads_key key) ?_
  refine Blob.reads_bind (Blob.reads_number (by omega)) ?_
  exact Blob.reads_bind_last (Blob.reads_many fun cert _ => reads_cert cert) (reads_build state)

/-- A state is read back as it was written. -/
theorem parse_serialize (state : PivState) : parse state.serialize = some state :=
  Blob.whole_of_reads (reads_v3 state)

/-- The state with a key in its slot, and no certificate there. -/
def withKey (state : PivState) (key : PivKey) : PivState :=
  { state with
    keys := putInSlot PivKey.slot key state.keys
    certs := clearSlot PivCert.slot key.slot state.certs
    keys_ok := nodup_put state.keys_ok
    certs_ok := nodup_clear state.certs_ok }

/-- The state without a key in a slot. -/
def withoutKey (slot : PivSlot) (state : PivState) : PivState :=
  { state with
    keys := clearSlot PivKey.slot slot state.keys, keys_ok := nodup_clear state.keys_ok }

/-- The state with a certificate in its slot. -/
def withCert (state : PivState) (cert : PivCert) : PivState :=
  { state with
    certs := putInSlot PivCert.slot cert state.certs, certs_ok := nodup_put state.certs_ok }

/-- The state without a certificate in a slot. -/
def withoutCert (slot : PivSlot) (state : PivState) : PivState :=
  { state with
    certs := clearSlot PivCert.slot slot state.certs, certs_ok := nodup_clear state.certs_ok }

/-- One retry fewer. -/
def consumed (state : PivState) : PivState :=
  { state with
    retries := oneFewer state.retries
    retries_ok := UInt8.le_trans (oneFewer_le _) state.retries_ok }

/-- All retries again. -/
def restored (state : PivState) : PivState :=
  { state with retries := 3, retries_ok := full_retries_ok }

end PivState

/-- The state of the PIV applet in storage; versions 1 and 2 are written again. -/
def pivFormat : AppletFormat PivState where
  storageKey := "sys:piv"
  failure := swConditionsNotSatisfied
  serialize := PivState.serialize
  parse := PivState.parse
  migrates text := text.head? = some 1 || text.head? = some 2
  factory := pure .factory
  parse_serialize := PivState.parse_serialize
  migrates_serialize _ := rfl

/-! ## Requests -/

/-- `strip_pin_padding`. -/
def stripPinPadding (padded : Bytes) : Bytes :=
  (padded.reverse.dropWhile fun b => b = 0xFF).reverse

/-- `parse_generate_alg`: one byte, or `AC 03 80 01 alg`. -/
def pivGenerateAlg : Bytes → Option KeyAlg
  | [b] => KeyAlg.ofId b
  | [0xAC, 0x03, 0x80, 0x01, b] => KeyAlg.ofId b
  | _ => none

/-- `extract_challenge`: the data, or what is in `7C len 81 len`. -/
def extractChallenge (data : Bytes) : Option Bytes :=
  if data = [] ∨ data.length > 512 then none
  else
    match data with
    | 0x7C :: len :: inner =>
        if len.toNat + 2 ≠ data.length then none
        else
          match inner with
          | 0x81 :: n :: rest =>
              if rest.length < n.toNat ∨ n = 0 then none else some (rest.take n.toNat)
          | _ => none
    | [0x7C] => none
    | _ => some data

/-- The length of a value and of the header before it: `len`, `81 len` or `82 lenHi lenLo`. -/
def putDataLength : Bytes → Option (Nat × Nat)
  | len :: rest =>
      if len < 0x80 then some (len.toNat, 4)
      else if len = 0x81 then rest.head?.map fun n => (n.toNat, 5)
      else if len = 0x82 then
        match rest with
        | hi :: lo :: _ => some (Bytes.beNat [hi, lo], 6)
        | _ => none
      else none
  | [] => none

/-- `parse_put_data`: a certificate behind its tag and length. -/
def parsePutData (data : Bytes) : Option PivCert := do
  let slot ← PivSlot.fromTag (data.take 3)
  let (valueLen, headerLen) ← putDataLength (data.drop 3)
  if h : (0 < valueLen ∧ valueLen ≤ 2048) ∧ data.length = headerLen + valueLen then
    some ⟨slot, data.drop headerLen, by
      rw [List.length_drop, h.2, Nat.add_sub_cancel_left]
      exact h.1⟩
  else none

example : (parsePutData [0x5F, 0xC1, 0x0A, 0x02, 7, 8]).map PivCert.der = some [7, 8] := by decide

/-! ## Commands -/

/-- What the applet forgets when it is built again: whether VERIFY has succeeded. -/
structure PivSession where
  verified : Bool
  deriving DecidableEq

abbrev PivCommand := Command PivState PivSession

/-- `consume_retry`. -/
def pivConsumeRetry : PivCommand UInt16 := do
  let state ← stateMut
  setState state.consumed
  let sw := if state.consumed.retries = 0 then swSecurityStatus
    else swRetries state.consumed.retries
  if sw = swSecurityStatus then modifySession fun _ => ⟨false⟩
  persistState
  pure sw

/-- `discovery_object`. -/
def discoveryObject : Except Fault Bytes := do
  let inner ← pushTlv [] 0x4F aidPiv
  pushTlv [] 0x7E inner

/-- `chuid_object`: the label `OpenKey-PIV-F1`. -/
def chuidObject : Except Fault Bytes := do
  let content ← pushTlv [] 0x30
    [0x4F, 0x70, 0x65, 0x6E, 0x4B, 0x65, 0x79, 0x2D, 0x50, 0x49, 0x56, 0x2D, 0x46, 0x31]
  pure ([0x5F, 0xC1, 0x02, UInt8.ofNat content.length] ++ content)

/-- What GET DATA finds in a slot: a certificate wins over the public key. -/
def slotObject (state : PivState) (slot : PivSlot) : Option Bytes :=
  match state.certs.find? fun cert => cert.slot = slot with
  | some cert => some cert.der
  | none => (state.keys.find? fun key => key.slot = slot).map fun key => key.key.pubkeyObject

/-- `cmd_get_data`. -/
def pivGetData (apdu : Apdu) : PivCommand ResponseData := do
  require (apdu.p1 = 0x3F && apdu.p2 = 0xFF) swWrongP1P2
  if apdu.data = [0x7E] then do
    let object ← orFault discoveryObject
    pure (.ok object)
  else if apdu.data = [0x5F, 0xC1, 0x02] then do
    let object ← orFault chuidObject
    pure (.ok object)
  else
    match PivSlot.fromTag apdu.data with
    | some slot => do
        let state ← stateMut
        let object ← orRefuse (slotObject state slot) swSecurityStatus
        pure (.ok object)
    | none => refuse swFileNotFound

/-- Slot `9A` is for a verified session. -/
def requireForSlot (slot : PivSlot) : PivCommand Unit := do
  let session ← session
  require (slot ≠ .pivAuth || session.verified) swSecurityStatus

/-- `cmd_put_data`. -/
def pivPutData (apdu : Apdu) : PivCommand ResponseData := do
  require (apdu.p1 = 0x3F && apdu.p2 = 0xFF) swWrongP1P2
  let known := (PivSlot.fromTag (apdu.data.take 3)).isSome
  let cert ← orRefuse (parsePutData apdu.data) (if known then swWrongSyntax else swFileNotFound)
  requireForSlot cert.slot
  let state ← stateMut
  setState (state.withCert cert)
  persistOr (PivState.withoutCert cert.slot)
  pure (.ok [])

/-- `cmd_generate`. -/
def pivGenerate (crypto : AppletCrypto) (apdu : Apdu) : PivCommand ResponseData := do
  require (apdu.p1 = 0x00) swWrongP1P2
  let slot ← orRefuse (PivSlot.ofId apdu.p2) swFileNotFound
  let alg ← orRefuse (pivGenerateAlg apdu.data) swWrongSyntax
  let key ← generateKey crypto alg
  let state ← stateMut
  setState (state.withKey ⟨slot, key⟩)
  persistOr (PivState.withoutKey slot)
  pure (.ok key.pubkeyObject)

/-- `cmd_authenticate`. -/
def pivAuthenticate (crypto : AppletCrypto) (apdu : Apdu) : PivCommand ResponseData := do
  let slot ← orRefuse (PivSlot.ofId apdu.p2) swFileNotFound
  requireForSlot slot
  let challenge ← orRefuse (extractChallenge apdu.data) swWrongSyntax
  let state ← stateMut
  let found ← orRefuse (state.keys.find? fun key => key.slot = slot) swSecurityStatus
  require (apdu.p1 = 0x00 || apdu.p1 = found.key.alg.id) swWrongSyntax
  let signature ← signWith crypto found.key challenge
  pure (.ok signature)

/-- `cmd_verify`. -/
def pivVerify (apdu : Apdu) : PivCommand ResponseData := do
  require (apdu.p1 = 0x00 && apdu.p2 = 0x80) swWrongP1P2
  let state ← stateMut
  require (state.retries ≠ 0) swSecurityStatus
  if apdu.data = [] then pure (.withSw [] (swRetries state.retries))
  else if stripPinPadding apdu.data = state.pin then do
    setState state.restored
    persistState
    modifySession fun _ => ⟨true⟩
    pure (.ok [])
  else do
    let sw ← pivConsumeRetry
    refuse sw

/-- The state with a new PIN. -/
def PivState.withPin (state : PivState) (pin : Bytes) (h : 6 ≤ pin.length ∧ pin.length ≤ 8) :
    PivState :=
  { state.restored with pin := pin, pin_ok := h }

/-- `cmd_change_reference_data`. -/
def pivChangeReferenceData (apdu : Apdu) : PivCommand ResponseData := do
  require (apdu.p1 = 0x00 && apdu.p2 = 0x80) swWrongP1P2
  let state ← stateMut
  require (state.retries ≠ 0) swSecurityStatus
  require (apdu.data.length = 16) swWrongSyntax
  let newPin := stripPinPadding (apdu.data.drop 8)
  if h : 6 ≤ newPin.length ∧ newPin.length ≤ 8 then
    if stripPinPadding (apdu.data.take 8) = state.pin then do
      setState (state.withPin newPin h)
      persistState
      modifySession fun _ => ⟨true⟩
      pure (.ok [])
    else do
      let sw ← pivConsumeRetry
      refuse sw
  else refuse swWrongSyntax

/-- `process`. -/
def pivProcess (crypto : AppletCrypto) (apdu : Apdu) : PivCommand ResponseData := do
  require (apdu.cla = 0) swClassNotSupported
  if apdu.ins = 0x20 then pivVerify apdu
  else if apdu.ins = 0x24 then pivChangeReferenceData apdu
  else if apdu.ins = 0xCB then pivGetData apdu
  else if apdu.ins = 0x47 then pivGenerate crypto apdu
  else if apdu.ins = 0x87 then pivAuthenticate crypto apdu
  else if apdu.ins = 0xDB then pivPutData apdu
  else refuse swInsNotSupported

end OpenKey
