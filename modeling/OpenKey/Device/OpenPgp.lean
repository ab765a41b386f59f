import OpenKey.Device.ResidentKey

/-!
# The OpenPGP applet

`crates/openkey-device/src/firmware/yubico_openpgp.rs`: the passwords PW1 and PW3 with their
retries, and the signature key.
-/

namespace OpenKey

open Command

set_option autoImplicit false

/-- `AID_OPENPGP_FULL`. -/
def aidOpenPgpFull : Bytes :=
  [0xD2, 0x76, 0x00, 0x01, 0x24, 0x01, 0x03, 0x00, 0x00, 0x00, 0x00, 0x00, 0x00, 0x00, 0x00, 0x00]

/-! ## States -/

/-- A password of one to `MAX_PW_LEN` bytes, with at most `MAX_RETRIES` retries. -/
@[ext] structure Password where
  bytes : Bytes
  retries : UInt8
  bytes_ok : 0 < bytes.length ∧ bytes.length ≤ 32
  retries_ok : retries ≤ 3

instance : DecidableEq Password := fun a b =>
  decidable_of_iff (a.bytes = b.bytes ∧ a.retries = b.retries) Password.ext_iff.symm

namespace Password

/-- One retry fewer. -/
def consumed (pw : Password) : Password :=
  { pw with
    retries := oneFewer pw.retries
    retries_ok := UInt8.le_trans (oneFewer_le _) pw.retries_ok }

/-- All retries again. -/
def restored (pw : Password) : Password := { pw with retries := 3, retries_ok := by decide }

/-- The password in storage. -/
def serialize (pw : Password) : Bytes :=
  Bytes.beBytes 1 pw.bytes.length ++ pw.bytes ++ [pw.retries]

/-- A password around its parts. -/
def build (bytes : Bytes) (retries : UInt8) : Blob.Reader Password :=
  if h : (0 < bytes.length ∧ bytes.length ≤ 32) ∧ retries ≤ 3 then
    pure ⟨bytes, retries, h.1, h.2⟩
  else failure

/-- The password in storage, read back. -/
def read : Blob.Reader Password := do
  let bytes ← Blob.prefixed 1
  let retries ← Blob.byte
  build bytes retries

theorem reads_serialize (pw : Password) : Blob.Reads read pw.serialize pw := by
  have hlen := pw.bytes_ok
  refine Blob.reads_bind (Blob.reads_prefixed (by omega))
    (Blob.reads_bind_last (Blob.reads_byte _) ?_)
  intro rest
  rw [build, dif_pos ⟨pw.bytes_ok, pw.retries_ok⟩]
  rfl

end Password

/-- `OpenPgpState`. -/
structure OpenPgpState where
  pw1 : Password
  pw3 : Password
  sigKey : Option ResidentKey
  deriving DecidableEq

namespace OpenPgpState

/-- The state of `ensure_loaded` where there is none: `123456`, `12345678` and no key. -/
def factory : OpenPgpState where
  pw1 := ⟨[0x31, 0x32, 0x33, 0x34, 0x35, 0x36], 3, by decide, by decide⟩
  pw3 := ⟨[0x31, 0x32, 0x33, 0x34, 0x35, 0x36, 0x37, 0x38], 3, by decide, by decide⟩
  sigKey := none

/-- The key behind its flag. -/
def serializeSigKey : Option ResidentKey → Bytes
  | none => [0]
  | some key => [1] ++ key.serialize

/-- `serialize_state`. -/
def serialize (state : OpenPgpState) : Bytes :=
  2 :: (state.pw1.serialize ++ (state.pw3.serialize ++ serializeSigKey state.sigKey))

/-- The key behind its flag, read back. -/
def readSigKey : Blob.Reader (Option ResidentKey) := do
  let hasKey ← Blob.byte
  if hasKey = 0 then pure none
  else if hasKey = 1 then do
    let key ← ResidentKey.read
    pure (some key)
  else failure

/-- `parse_state_v1`, behind the version: the passwords only. -/
def readV1 : Blob.Reader OpenPgpState := do
  let pw1 ← Password.read
  let pw3 ← Password.read
  pure ⟨pw1, pw3, none⟩

/-- `parse_state_v2`, behind the version. -/
def readV2 : Blob.Reader OpenPgpState := do
  let pw1 ← Password.read
  let pw3 ← Password.read
  let sigKey ← readSigKey
  pure ⟨pw1, pw3, sigKey⟩

/-- `parse_state`. -/
def parse : Bytes → Option OpenPgpState
  | [] => none
  | version :: body =>
      if version = 1 then Blob.whole readV1 body
      else if version = 2 then Blob.whole readV2 body
      else none

theorem reads_sigKey (key : Option ResidentKey) :
    Blob.Reads readSigKey (serializeSigKey key) key := by
  cases key with
  | none => exact Blob.reads_bind_last (Blob.reads_byte _) (Blob.reads_pure none)
  | some key =>
      exact Blob.reads_bind (Blob.reads_byte _)
        (Blob.reads_bind_last key.reads_serialize (Blob.reads_pure (some key)))

theorem reads_v2 (state : OpenPgpState) : Blob.Reads readV2 state.serialize.tail state := by
  refine Blob.reads_bind state.pw1.reads_serialize ?_
  refine Blob.reads_bind state.pw3.reads_serialize ?_
  exact Blob.reads_bind_last (reads_sigKey state.sigKey) (Blob.reads_pure state)

/-- A state is read back as it was written. -/
theorem parse_serialize (state : OpenPgpState) : parse state.serialize = some state :=
  Blob.whole_of_reads (reads_v2 state)

end OpenPgpState

/-- The state of the OpenPGP applet in storage; version 1 is written again. -/
def openPgpFormat : AppletFormat OpenPgpState where
  storageKey := "sys:openpgp"
  failure := swConditionsNotSatisfied
  serialize := OpenPgpState.serialize
  parse := OpenPgpState.parse
  migrates text := text.head? = some 1
  factory := pure .factory
  parse_serialize := OpenPgpState.parse_serialize
  migrates_serialize _ := rfl

/-! ## Commands -/

/-- What the applet forgets when it is built again: whether VERIFY of PW1 has succeeded. -/
structure OpenPgpSession where
  pw1Verified : Bool
  deriving DecidableEq

abbrev OpenPgpCommand := Command OpenPgpState OpenPgpSession

/-- `HISTORICAL_BYTES`. -/
def historicalBytes : Bytes := [0x00, 0x73, 0x00, 0x00]

/-- `application_data`. -/
def applicationData : Except Fault Bytes := do
  let inner ← pushTlv [] 0x4F aidOpenPgpFull
  pushTlv [] 0x6F
    (inner ++ [0x5F, 0x52, UInt8.ofNat historicalBytes.length] ++ historicalBytes)

/-- `sig_algo_attributes`. -/
def sigAlgoAttributes : Option KeyAlg → Bytes
  | some .ed25519 => [0x16, 0x20, 0x00, 0x00]
  | some .p256 => [0x13, 0x2A, 0x00, 0x00]
  | none => [0x01, 0x08, 0x00, 0x00]

/-- `parse_generate_alg`, with the status word of its failure: one byte, or `B6 03 80 01 alg`. -/
def openPgpGenerateAlg (data : Bytes) : Except UInt16 KeyAlg :=
  -- the slots for decryption and authentication are unknown
  let other : UInt16 :=
    if data.head? = some 0xB8 ∨ data.head? = some 0xA4 then swFileNotFound else swWrongSyntax
  match data with
  | [b] => (KeyAlg.ofId b).elim (.error swWrongSyntax) .ok
  | [crt, 0x03, 0x80, 0x01, b] =>
      match KeyAlg.ofId b with
      | some alg => if crt = 0xB6 then .ok alg else .error other
      | none => .error other
  | _ => .error other

/-- `cmd_get_data`. -/
def openPgpGetData (crypto : AppletCrypto) (apdu : Apdu) : OpenPgpCommand ResponseData :=
  if apdu.p1 = 0x00 ∧ apdu.p2 = 0x4F then do
    let object ← orFault (pushTlv [] 0x4F aidOpenPgpFull)
    pure (.ok object)
  else if apdu.p1 = 0x5F ∧ apdu.p2 = 0x52 then pure (.ok historicalBytes)
  else if apdu.p1 = 0x00 ∧ apdu.p2 = 0x7A then do
    let state ← stateMut
    pure (.ok (sigAlgoAttributes (state.sigKey.map ResidentKey.alg)))
  else if apdu.p1 = 0xB6 ∧ apdu.p2 = 0x00 then do
    let state ← stateMut
    let key ← orRefuse state.sigKey swSecurityStatus
    pure (.ok key.pubkeyObject)
  else if apdu.p1 = 0x00 ∧ apdu.p2 = 0xC5 then do
    let state ← stateMut
    let key ← orRefuse state.sigKey swSecurityStatus
    pure (.ok (crypto.sha256 key.pubKey))
  else refuse swFileNotFound

/-- `password_slot`: P1, or P2 if that is zero. -/
def passwordSlot (apdu : Apdu) : UInt8 := if apdu.p1 ≠ 0x00 then apdu.p1 else apdu.p2

/-- The password that VERIFY is about: PW3 for `83`. -/
def OpenPgpState.password (state : OpenPgpState) (admin : Bool) : Password :=
  if admin then state.pw3 else state.pw1

/-- The state with another password in place of that one. -/
def OpenPgpState.withPassword (state : OpenPgpState) (admin : Bool) (pw : Password) :
    OpenPgpState :=
  if admin then { state with pw3 := pw } else { state with pw1 := pw }

/-- `cmd_verify`. -/
def openPgpVerify (apdu : Apdu) : OpenPgpCommand ResponseData := do
  let slot := passwordSlot apdu
  require (slot = 0x81 || slot = 0x82 || slot = 0x83) swWrongP1P2
  let state ← stateMut
  let admin := slot = 0x83
  let pw := state.password admin
  require (pw.retries ≠ 0) swSecurityStatus
  if apdu.data = [] then pure (.withSw [] (swRetries pw.retries))
  else if apdu.data = pw.bytes then do
    setState (state.withPassword admin pw.restored)
    persistState
    if !admin then modifySession fun _ => ⟨true⟩
    pure (.ok [])
  else do
    setState (state.withPassword admin pw.consumed)
    let sw := if pw.consumed.retries = 0 then swSecurityStatus else swRetries pw.consumed.retries
    if sw = swSecurityStatus && !admin then modifySession fun _ => ⟨false⟩
    persistState
    refuse sw

/-- `cmd_generate`. -/
def openPgpGenerate (crypto : AppletCrypto) (apdu : Apdu) : OpenPgpCommand ResponseData := do
  require ((apdu.p1 = 0x00 || apdu.p1 = 0x80 || apdu.p1 = 0x81) && apdu.p2 = 0x00) swWrongP1P2
  let alg ← orStatus (openPgpGenerateAlg apdu.data)
  let key ← generateKey crypto alg
  let state ← stateMut
  setState { state with sigKey := some key }
  persistOr fun state => { state with sigKey := none }
  pure (.ok key.pubkeyObject)

/-- `cmd_pso`: a signature; DECIPHER is refused. -/
def openPgpPso (crypto : AppletCrypto) (apdu : Apdu) : OpenPgpCommand ResponseData :=
  if apdu.p1 = 0x9E ∧ apdu.p2 = 0x9A then do
    let session ← session
    require session.pw1Verified swSecurityStatus
    require (apdu.data ≠ [] && apdu.data.length ≤ 512) swWrongSyntax
    let state ← stateMut
    let key ← orRefuse state.sigKey swSecurityStatus
    let signature ← signWith crypto key apdu.data
    pure (.ok signature)
  else if apdu.p1 = 0x80 ∧ apdu.p2 = 0x86 then refuse swSecurityStatus
  else refuse swWrongP1P2

/-- `process`. -/
def openPgpProcess (crypto : AppletCrypto) (apdu : Apdu) : OpenPgpCommand ResponseData := do
  require (apdu.cla = 0) swClassNotSupported
  if apdu.ins = 0x20 then openPgpVerify apdu
  else if apdu.ins = 0xCA then openPgpGetData crypto apdu
  else if apdu.ins = 0x47 then openPgpGenerate crypto apdu
  else if apdu.ins = 0x2A then openPgpPso crypto apdu
  else refuse swInsNotSupported

end OpenKey
