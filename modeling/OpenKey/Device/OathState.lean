import OpenKey.Device.Applet
import OpenKey.Library.Blob

/-!
# The state of the OATH applet

`OathState` of `crates/openkey-device/src/firmware/yubico_oath.rs` and its persisted form. The
bounds that the commands check before they store anything are fields of the types, and with them
`parse_state` reads every state back as `serialize_state` wrote it.
-/

namespace OpenKey

open Std

set_option autoImplicit false

/-! ## Credentials -/

/-- `OathAlgorithm`. -/
inductive OathAlgorithm
  | sha1
  | sha256
  | sha512
  deriving DecidableEq, Repr

namespace OathAlgorithm

/-- `from_wire`. -/
def fromWire (byte : UInt8) : Option OathAlgorithm :=
  if byte = 0x01 then some sha1
  else if byte = 0x02 then some sha256
  else if byte = 0x03 then some sha512
  else none

/-- `wire_byte`. -/
def wireByte : OathAlgorithm → UInt8
  | sha1 => 0x01
  | sha256 => 0x02
  | sha512 => 0x03

/-- `digest_len`. -/
def digestLen : OathAlgorithm → Nat
  | sha1 => 20
  | sha256 => 32
  | sha512 => 64

theorem fromWire_wireByte (a : OathAlgorithm) : fromWire a.wireByte = some a := by
  cases a <;> rfl

end OathAlgorithm

/-- `OathType`. -/
inductive OathType
  | hotp
  | totp
  deriving DecidableEq, Repr

namespace OathType

/-- `from_wire`, of the high half of a byte. -/
def fromWire (highNibble : UInt8) : Option OathType :=
  if highNibble = 0x10 then some hotp
  else if highNibble = 0x20 then some totp
  else none

/-- `wire_nibble`. -/
def wireNibble : OathType → UInt8
  | hotp => 0x10
  | totp => 0x20

end OathType

/-- The lengths of a secret: `1..=MAX_SECRET_LEN`. -/
def SecretOk (secret : Bytes) : Prop := secret ≠ [] ∧ secret.length ≤ 64

instance (secret : Bytes) : Decidable (SecretOk secret) := inferInstanceAs (Decidable (_ ∧ _))

/-- The lengths of a name: `1..=MAX_NAME_LEN`. -/
def NameOk (name : Bytes) : Prop := name ≠ [] ∧ name.length ≤ 64

instance (name : Bytes) : Decidable (NameOk name) := inferInstanceAs (Decidable (_ ∧ _))

/-- The numbers of digits of a code. -/
def DigitsOk (digits : UInt8) : Prop := digits = 6 ∨ digits = 7 ∨ digits = 8

instance (digits : UInt8) : Decidable (DigitsOk digits) := inferInstanceAs (Decidable (_ ∨ _ ∨ _))

/-- `OathCredential`. -/
structure OathCredential where
  secret : Bytes
  oathType : OathType
  algorithm : OathAlgorithm
  digits : UInt8
  touchRequired : Bool
  onlyIncreasing : Bool
  /-- The moving factor of the next code. -/
  hotpCounter : UInt64
  secret_ok : SecretOk secret
  digits_ok : DigitsOk digits
  deriving DecidableEq

/-- The type and the algorithm in one byte. -/
def OathCredential.wire (cred : OathCredential) : UInt8 :=
  cred.oathType.wireNibble ||| cred.algorithm.wireByte

/-- The credentials by name, `MAX_CREDENTIALS` at most. -/
structure OathCredentials where
  map : ExtTreeMap Bytes OathCredential
  names_ok : ∀ name ∈ map, NameOk name
  size_ok : map.size ≤ 32

namespace OathCredentials

/-- No credential. -/
def empty : OathCredentials := ⟨∅, fun _ h => absurd h ExtTreeMap.not_mem_empty, by simp⟩

/-- A credential under a name, where there is one already or there is room. -/
def insert (c : OathCredentials) (name : Bytes) (cred : OathCredential) (hname : NameOk name)
    (hroom : name ∈ c.map ∨ c.map.size < 32) : OathCredentials where
  map := c.map.insert name cred
  names_ok := by
    intro other hother
    obtain heq | hother := ExtTreeMap.mem_insert.mp hother
    · rw [← LawfulEqCmp.compare_eq_iff_eq.mp heq]
      exact hname
    · exact c.names_ok other hother
  size_ok := by
    rw [ExtTreeMap.size_insert]
    have hsize := c.size_ok
    obtain hmem | hlt := hroom
    · rw [ExtTreeMap.contains_iff_mem.mpr hmem, if_pos rfl]
      exact hsize
    · split <;> omega

/-- Without a name. -/
def erase (c : OathCredentials) (name : Bytes) : OathCredentials where
  map := c.map.erase name
  names_ok other hother := c.names_ok other (ExtTreeMap.mem_of_mem_erase hother)
  size_ok := Nat.le_trans ExtTreeMap.size_erase_le c.size_ok

theorem size_erase_lt (c : OathCredentials) {name : Bytes} (h : name ∈ c.map) :
    (c.erase name).map.size < 32 := by
  have hle := c.size_ok
  show (c.map.erase name).size < 32
  rw [ExtTreeMap.size_erase, ExtTreeMap.contains_iff_mem.mpr h, if_pos rfl]
  omega

/-- Set the counter of a credential, if it is there. -/
def setCounter (c : OathCredentials) (name : Bytes) (counter : UInt64) : OathCredentials :=
  if h : name ∈ c.map then
    c.insert name { c.map[name] with hotpCounter := counter } (c.names_ok name h) (.inl h)
  else c

/-- The credentials read from a blob; a later one of the same name wins. -/
def ofEntries (entries : List (Bytes × OathCredential)) (h : ∀ entry ∈ entries, NameOk entry.1)
    (hcount : entries.length ≤ 32) : OathCredentials where
  map := ExtTreeMap.ofList entries
  names_ok := by
    intro name hname
    rw [ExtTreeMap.mem_ofList, List.contains_iff_mem] at hname
    obtain ⟨entry, hentry, rfl⟩ := List.mem_map.mp hname
    exact h entry hentry
  size_ok := Nat.le_trans ExtTreeMap.size_ofList_le hcount

section

variable (c : OathCredentials) (name other : Bytes)

theorem getElem?_insert (cred : OathCredential) (hname : NameOk name)
    (hroom : name ∈ c.map ∨ c.map.size < 32) :
    (c.insert name cred hname hroom).map[other]? =
      if other = name then some cred else c.map[other]? :=
  getElem?_insert_ite c.map name other cred

theorem getElem?_erase :
    (c.erase name).map[other]? = if other = name then none else c.map[other]? :=
  getElem?_erase_ite c.map name other

theorem getElem?_setCounter (counter : UInt64) : (c.setCounter name counter).map[other]? =
    if other = name then c.map[name]?.map fun cred => { cred with hotpCounter := counter }
    else c.map[other]? := by
  unfold setCounter
  split
  · next hmem => rw [getElem?_insert, ExtTreeMap.getElem?_eq_some_getElem hmem]; rfl
  · next hmem =>
      rw [ExtTreeMap.getElem?_eq_none hmem, Option.map_none]
      split
      · next h => rw [h, ExtTreeMap.getElem?_eq_none hmem]
      · rfl

theorem ext_getElem? {c c' : OathCredentials} (h : ∀ name : Bytes, c.map[name]? = c'.map[name]?) :
    c = c' := by
  obtain ⟨map, names_ok, size_ok⟩ := c
  obtain ⟨map', names_ok', size_ok'⟩ := c'
  obtain rfl : map = map' := ExtTreeMap.ext_getElem? h
  rfl

/-- A counter can be set back. -/
theorem setCounter_setCounter {cred : OathCredential} (hcred : c.map[name]? = some cred)
    (counter : UInt64) : (c.setCounter name counter).setCounter name cred.hotpCounter = c := by
  refine ext_getElem? fun other => ?_
  rw [getElem?_setCounter, getElem?_setCounter, getElem?_setCounter, hcred, if_pos rfl]
  split
  · next h => rw [h, hcred]; rfl
  · rfl

end

end OathCredentials

/-- `OathAccess`. -/
structure OathAccess where
  algorithm : OathAlgorithm
  key : Bytes
  key_ok : key ≠ [] ∧ key.length < 256

/-- The lengths of a challenge. -/
def ChallengeOk (challenge : Bytes) : Prop := challenge ≠ [] ∧ challenge.length < 256

instance (challenge : Bytes) : Decidable (ChallengeOk challenge) :=
  inferInstanceAs (Decidable (_ ∧ _))

/-- `OathState`. A challenge is pending only where an access code is set. -/
structure OathState where
  /-- The device id, from which hosts derive the access key. -/
  salt : Bytes
  access : Option OathAccess
  pendingChallenge : Option Bytes
  credentials : OathCredentials
  salt_ok : salt ≠ [] ∧ salt.length ≤ 64
  pending_ok : ∀ challenge ∈ pendingChallenge, ChallengeOk challenge ∧ access.isSome = true

namespace OathState

/-! ## The persisted form -/

/-- Bytes behind their length in one byte. -/
def prefixed (bytes : Bytes) : Bytes := Bytes.beBytes 1 bytes.length ++ bytes

/-- The access code and the pending challenge. -/
def serializeAccess (access : Option OathAccess) (pending : Option Bytes) : Bytes :=
  match access with
  | none => [0]
  | some access =>
      [1] ++ ([access.algorithm.wireByte] ++ (prefixed access.key ++ prefixed (pending.getD [])))

/-- The flags of a credential. -/
def flagsOf (touchRequired onlyIncreasing : Bool) : UInt8 :=
  (if touchRequired then 1 else 0) ||| (if onlyIncreasing then 2 else 0)

/-- One credential. -/
def serializeCredential (entry : Bytes × OathCredential) : Bytes :=
  prefixed entry.1 ++ ([entry.2.wire] ++ ([entry.2.digits] ++
    ([flagsOf entry.2.touchRequired entry.2.onlyIncreasing] ++
    (Bytes.beBytes 8 entry.2.hotpCounter.toNat ++ prefixed entry.2.secret))))

/-- `serialize_state`. -/
def serialize (state : OathState) : Bytes :=
  1 :: (prefixed state.salt ++ (serializeAccess state.access state.pendingChallenge ++
    (Bytes.beBytes 2 state.credentials.map.size ++
      state.credentials.map.toList.flatMap serializeCredential)))

/-- An access code with the challenge that is pending. -/
def readAccess : Blob.Reader (Option OathAccess × Option Bytes) := do
  let flag ← Blob.byte
  if flag = 0 then pure (none, none)
  else do
    let wire ← Blob.byte
    let key ← Blob.prefixed 1
    let pending ← Blob.prefixed 1
    match OathAlgorithm.fromWire wire with
    | none => failure
    | some algorithm =>
        if h : key ≠ [] ∧ key.length < 256 then
          pure (some ⟨algorithm, key, h⟩, if pending = [] then none else some pending)
        else failure

/-- One credential. -/
def readCredential : Blob.Reader (Bytes × OathCredential) := do
  let name ← Blob.prefixed 1
  let wire ← Blob.byte
  let digits ← Blob.byte
  let flags ← Blob.byte
  let counter ← Blob.number 8
  let secret ← Blob.prefixed 1
  match OathType.fromWire (wire &&& 0xF0), OathAlgorithm.fromWire (wire &&& 0x0F) with
  | some oathType, some algorithm =>
      if h : SecretOk secret ∧ DigitsOk digits then
        pure (name, ⟨secret, oathType, algorithm, digits, flags &&& 0x01 ≠ 0, flags &&& 0x02 ≠ 0,
          UInt64.ofNat counter, h.1, h.2⟩)
      else failure
  | _, _ => failure

/-- The state around its parts, if they are in bounds. -/
def build (salt : Bytes) (access : Option OathAccess × Option Bytes)
    (entries : List (Bytes × OathCredential)) : Blob.Reader OathState :=
  if h : (salt ≠ [] ∧ salt.length ≤ 64) ∧
      (∀ challenge ∈ access.2, ChallengeOk challenge ∧ access.1.isSome = true) ∧
      (∀ entry ∈ entries, NameOk entry.1) ∧ entries.length ≤ 32 then
    pure ⟨salt, access.1, access.2, .ofEntries entries h.2.2.1 h.2.2.2, h.1, h.2.1⟩
  else failure

/-- The body of the only version. -/
def readBody : Blob.Reader OathState := do
  let salt ← Blob.prefixed 1
  let access ← readAccess
  let count ← Blob.number 2
  Blob.require (count ≤ 32)
  let entries ← Blob.many readCredential count
  build salt access entries

/-- `parse_state`. -/
def parse : Bytes → Option OathState
  | [] => none
  | version :: body => if version = 1 then Blob.whole readBody body else none

/-! ## The round trip -/

theorem reads_prefixed {bytes : Bytes} (h : bytes.length < 256) :
    Blob.Reads (Blob.prefixed 1) (prefixed bytes) bytes := Blob.reads_prefixed h

theorem reads_access (access : Option OathAccess) (pending : Option Bytes)
    (h : ∀ challenge ∈ pending, ChallengeOk challenge ∧ access.isSome = true) :
    Blob.Reads readAccess (serializeAccess access pending) (access, pending) := by
  cases access with
  | none =>
      cases pending with
      | none => exact fun _ => rfl
      | some challenge => exact absurd (h challenge rfl).2 (by decide)
  | some access =>
      have hpending : (pending.getD []).length < 256 := by
        cases pending with
        | none => decide
        | some challenge => exact (h challenge rfl).1.2
      refine Blob.reads_bind (Blob.reads_byte 1) ?_
      rw [if_neg (by decide)]
      refine Blob.reads_bind (Blob.reads_byte _)
        (Blob.reads_bind (reads_prefixed access.key_ok.2) ?_)
      refine Blob.reads_bind_last (reads_prefixed hpending) ?_
      simp only [OathAlgorithm.fromWire_wireByte]
      rw [dif_pos access.key_ok]
      cases pending with
      | none => exact Blob.reads_pure _
      | some challenge =>
          rw [Option.getD_some, if_neg (h challenge rfl).1.1]
          exact Blob.reads_pure _

theorem fromWire_wire (cred : OathCredential) :
    OathType.fromWire (cred.wire &&& 0xF0) = some cred.oathType ∧
      OathAlgorithm.fromWire (cred.wire &&& 0x0F) = some cred.algorithm := by
  rw [OathCredential.wire]
  cases cred.oathType <;> cases cred.algorithm <;> decide

theorem flags_flagsOf (touch only : Bool) :
    decide (flagsOf touch only &&& 0x01 ≠ 0) = touch ∧
      decide (flagsOf touch only &&& 0x02 ≠ 0) = only := by
  cases touch <;> cases only <;> decide

theorem reads_credential {entry : Bytes × OathCredential} (hname : NameOk entry.1) :
    Blob.Reads readCredential (serializeCredential entry) entry := by
  obtain ⟨name, cred⟩ := entry
  have hlen : ∀ {bytes : Bytes}, bytes.length ≤ 64 → bytes.length < 256 := by
    intro bytes h
    omega
  obtain ⟨htype, halg⟩ := fromWire_wire cred
  obtain ⟨htouch, honly⟩ := flags_flagsOf cred.touchRequired cred.onlyIncreasing
  refine Blob.reads_bind (reads_prefixed (hlen hname.2)) ?_
  refine Blob.reads_bind (Blob.reads_byte _) (Blob.reads_bind (Blob.reads_byte _) ?_)
  refine Blob.reads_bind (Blob.reads_byte _)
    (Blob.reads_bind (Blob.reads_number cred.hotpCounter.toNat_lt) ?_)
  refine Blob.reads_bind_last (reads_prefixed (hlen cred.secret_ok.2)) ?_
  simp only [htype, halg, htouch, honly, UInt64.ofNat_toNat]
  rw [dif_pos ⟨cred.secret_ok, cred.digits_ok⟩]
  exact Blob.reads_pure _

theorem ofEntries_toList (c : OathCredentials) (h : ∀ entry ∈ c.map.toList, NameOk entry.1)
    (hcount : c.map.toList.length ≤ 32) : OathCredentials.ofEntries c.map.toList h hcount = c := by
  obtain ⟨map, names_ok, size_ok⟩ := c
  simp only [OathCredentials.ofEntries, ofList_toList]

theorem names_toList (c : OathCredentials) : ∀ entry ∈ c.map.toList, NameOk entry.1 := by
  rintro ⟨name, cred⟩ hentry
  have hget := ExtTreeMap.mem_toList_iff_getElem?_eq_some.mp hentry
  exact c.names_ok name (ExtTreeMap.isSome_getElem?_iff_mem.mp (by rw [hget]; rfl))

theorem reads_build (state : OathState) : Blob.Reads (build state.salt
    (state.access, state.pendingChallenge) state.credentials.map.toList) [] state := by
  have hcount : state.credentials.map.toList.length ≤ 32 := by
    rw [ExtTreeMap.length_toList]
    exact state.credentials.size_ok
  intro rest
  rw [build, dif_pos ⟨state.salt_ok, state.pending_ok, names_toList state.credentials, hcount⟩]
  simp only [ofEntries_toList]
  rfl

theorem reads_body (state : OathState) : Blob.Reads readBody state.serialize.tail state := by
  have hsize := state.credentials.size_ok
  have hsalt : state.salt.length < 256 := by
    have := state.salt_ok.2
    omega
  refine Blob.reads_bind (reads_prefixed hsalt) ?_
  refine Blob.reads_bind (reads_access _ _ state.pending_ok) ?_
  refine Blob.reads_bind (Blob.reads_number (by omega)) ?_
  refine Blob.reads_require_bind (by simpa using hsize) ?_
  have hmany : Blob.Reads _ _ _ := Blob.reads_many fun entry hentry =>
    reads_credential (names_toList state.credentials entry hentry)
  rw [ExtTreeMap.length_toList] at hmany
  exact Blob.reads_bind_last hmany (reads_build state)

/-- A state is read back as it was written. -/
theorem parse_serialize (state : OathState) : parse state.serialize = some state :=
  Blob.whole_of_reads (reads_body state)

end OathState

end OpenKey
