import OpenKey.Ctap2.Derived

/-!
# Forms of the messages

The attributes of `serde` on the structures of `crates/openkey-core/src/ctap2`: the name of every
field on the wire, and what becomes of a field that is missing. The values that a form keeps stand
beside it (`keeps`).
-/

namespace OpenKey

set_option autoImplicit false

namespace Serde

open Form FieldForm

variable {cbor : Ciborium} (lenient : Bool)

/-- `u8`. -/
def u8 : Form Nat := .unsigned (2 ^ 8)

/-- `u16`. -/
def u16 : Form Nat := .unsigned (2 ^ 16)

/-- `u32`. -/
def u32 : Form Nat := .unsigned (2 ^ 32)

/-- `u64`. -/
def u64 : Form Nat := .unsigned (2 ^ 64)

/-! ## Structures inside others -/

namespace RelyingParty

def id : FieldForm String := .required "id" .text

def name : FieldForm (Option String) := .nullable "name" .text

def icon : FieldForm (Option String) := .nullable "icon" .text

def form : Form RelyingParty :=
  structOf lenient
    (fun rp => [id.entry rp.id, name.entry rp.name, icon.entry rp.icon])
    ["id", "name", "icon"] fun values => do
      let id ← id.take values
      let name ← name.take values
      let icon ← icon.take values
      pure ⟨id, name, icon⟩

theorem keeps : (form lenient).Keeps cbor fun _ => True := by
  refine keeps_structOf cbor (fun _ => rfl) (by decide) fun rp => ?_
  obtain ⟨_, _, _⟩ := rp
  simp only [bind, Option.bind_eq_some_iff, pure, Option.some.injEq, RelyingParty.mk.injEq,
    existsAndEq, and_true]
  refine (and_congr (take_iff cbor rfl (keeps_required _ keeps_text)) <|
    and_congr (take_iff cbor rfl (keeps_nullable _ keeps_text)) <|
    take_iff cbor rfl (keeps_nullable _ keeps_text)).trans ?_
  simp

theorem present : (form lenient).Present := present_structOf _ _ _ _

end RelyingParty

namespace User

def id : FieldForm Bytes := .required "id" .byteString

def name : FieldForm (Option String) := .optional "name" .text

def displayName : FieldForm (Option String) := .optional "displayName" .text

def iconUrl : FieldForm (Option String) := .optional "icon" .text

def form : Form User :=
  structOf lenient
    (fun user => [id.entry user.id, name.entry user.name, displayName.entry user.displayName,
      iconUrl.entry user.iconUrl])
    ["id", "name", "displayName", "icon"] fun values => do
      let id ← id.take values
      let name ← name.take values
      let displayName ← displayName.take values
      let iconUrl ← iconUrl.take values
      pure ⟨id, name, displayName, iconUrl⟩

theorem keeps : (form lenient).Keeps cbor fun _ => True := by
  refine keeps_structOf cbor (fun _ => rfl) (by decide) fun user => ?_
  obtain ⟨_, _, _, _⟩ := user
  simp only [bind, Option.bind_eq_some_iff, pure, Option.some.injEq, User.mk.injEq,
    existsAndEq, and_true]
  refine (and_congr (take_iff cbor rfl (keeps_required _ keeps_byteString)) <|
    and_congr (take_iff cbor rfl (keeps_optional _ keeps_text)) <|
    and_congr (take_iff cbor rfl (keeps_optional _ keeps_text)) <|
    take_iff cbor rfl (keeps_optional _ keeps_text)).trans ?_
  simp

theorem present : (form lenient).Present := present_structOf _ _ _ _

end User

namespace PublicKeyCredParams

def type : FieldForm String := .required "type" .text

def algorithms : FieldForm Int := .required "alg" .int32

def form : Form PublicKeyCredParams :=
  structOf lenient
    (fun params => [type.entry params.type, algorithms.entry params.algorithms])
    ["type", "alg"] fun values => do
      let type ← type.take values
      let algorithms ← algorithms.take values
      pure ⟨type, algorithms⟩

/-- The algorithm is an `i32`. -/
def Kept (params : PublicKeyCredParams) : Prop :=
  -2 ^ 31 ≤ params.algorithms ∧ params.algorithms < 2 ^ 31

theorem keeps : (form lenient).Keeps cbor Kept := by
  refine keeps_structOf cbor (fun _ => rfl) (by decide) fun params => ?_
  obtain ⟨_, _⟩ := params
  simp only [bind, Option.bind_eq_some_iff, pure, Option.some.injEq, PublicKeyCredParams.mk.injEq,
    existsAndEq, and_true]
  refine (and_congr (take_iff cbor rfl (keeps_required _ keeps_text)) <|
    take_iff cbor rfl (keeps_required _ keeps_int32)).trans ?_
  simp [Kept]

theorem present : (form lenient).Present := present_structOf _ _ _ _

end PublicKeyCredParams

namespace CredentialDescriptor

def type : FieldForm String := .required "type" .text

def id : FieldForm Bytes := .required "id" .byteString

def transports : FieldForm (Option (List String)) := .optional "transports" (.list .text)

def form : Form CredentialDescriptor :=
  structOf lenient
    (fun descriptor => [type.entry descriptor.type, id.entry descriptor.id,
      transports.entry descriptor.transports])
    ["type", "id", "transports"] fun values => do
      let type ← type.take values
      let id ← id.take values
      let transports ← transports.take values
      pure ⟨type, id, transports⟩

theorem keeps : (form lenient).Keeps cbor fun _ => True := by
  refine keeps_structOf cbor (fun _ => rfl) (by decide) fun descriptor => ?_
  obtain ⟨_, _, _⟩ := descriptor
  simp only [bind, Option.bind_eq_some_iff, pure, Option.some.injEq, CredentialDescriptor.mk.injEq,
    existsAndEq, and_true]
  refine (and_congr (take_iff cbor rfl (keeps_required _ keeps_text)) <|
    and_congr (take_iff cbor rfl (keeps_required _ keeps_byteString)) <|
    take_iff cbor rfl (keeps_optional _ (keeps_text.list present_text))).trans ?_
  simp

theorem present : (form lenient).Present := present_structOf _ _ _ _

end CredentialDescriptor

namespace Extensions

def credProtect : FieldForm (Option Nat) := .nullable "credProtect" u8

def credBlob : FieldForm (Option Bytes) := .nullable "credBlob" .byteString

def minPinLength : FieldForm Bool := .defaulted "minPinLength" .flag false

def hmacSecret : FieldForm (Option Value) := .optional "hmac-secret" .raw

def largeBlobKey : FieldForm Bool := .defaulted "largeBlobKey" .flag false

def form : Form Extensions :=
  structOf lenient
    (fun extensions => [credProtect.entry extensions.credProtect,
      credBlob.entry extensions.credBlob, minPinLength.entry extensions.minPinLength,
      hmacSecret.entry extensions.hmacSecret, largeBlobKey.entry extensions.largeBlobKey])
    ["credProtect", "credBlob", "minPinLength", "hmac-secret", "largeBlobKey"] fun values => do
      let credProtect ← credProtect.take values
      let credBlob ← credBlob.take values
      let minPinLength ← minPinLength.take values
      let hmacSecret ← hmacSecret.take values
      let largeBlobKey ← largeBlobKey.take values
      pure ⟨credProtect, credBlob, minPinLength, hmacSecret, largeBlobKey⟩

/-- The level is a `u8`, and the input of hmac-secret canonical. -/
def Kept (cbor : Ciborium) (extensions : Extensions) : Prop :=
  (∀ level, extensions.credProtect = some level → level < 2 ^ 8) ∧
    ∀ value, extensions.hmacSecret = some value → Canonical cbor value

theorem keeps : (form lenient).Keeps cbor (Kept cbor) := by
  refine keeps_structOf cbor (fun _ => rfl) (by decide) fun extensions => ?_
  obtain ⟨_, _, _, _, _⟩ := extensions
  simp only [bind, Option.bind_eq_some_iff, pure, Option.some.injEq, Extensions.mk.injEq,
    existsAndEq, and_true]
  refine (and_congr (take_iff cbor rfl (keeps_nullable _ (keeps_unsigned _))) <|
    and_congr (take_iff cbor rfl (keeps_nullable _ keeps_byteString)) <|
    and_congr (take_iff cbor rfl (keeps_defaulted _ false keeps_flag present_flag)) <|
    and_congr (take_iff cbor rfl (keeps_optional _ keeps_raw)) <|
    take_iff cbor rfl (keeps_defaulted _ false keeps_flag present_flag)).trans ?_
  simp [Kept]

theorem present : (form lenient).Present := present_structOf _ _ _ _

end Extensions

namespace MakeCredentialOptions

/-- `MakeCredentialOptions::default`. -/
def default : MakeCredentialOptions := ⟨false, false, true, false⟩

def rk : FieldForm Bool := .defaulted "rk" .flag false

def uv : FieldForm Bool := .defaulted "uv" .flag false

def up : FieldForm Bool := .defaulted "up" .flag true

def extended : FieldForm Bool := .defaulted "att" .flag false

def form : Form MakeCredentialOptions :=
  structOf lenient
    (fun options => [rk.entry options.rk, uv.entry options.uv, up.entry options.up,
      extended.entry options.extended])
    ["rk", "uv", "up", "att"] fun values => do
      let rk ← rk.take values
      let uv ← uv.take values
      let up ← up.take values
      let extended ← extended.take values
      pure ⟨rk, uv, up, extended⟩

theorem keeps : (form lenient).Keeps cbor fun _ => True := by
  refine keeps_structOf cbor (fun _ => rfl) (by decide) fun options => ?_
  obtain ⟨_, _, _, _⟩ := options
  simp only [bind, Option.bind_eq_some_iff, pure, Option.some.injEq, MakeCredentialOptions.mk.injEq,
    existsAndEq, and_true]
  refine (and_congr (take_iff cbor rfl (keeps_defaulted _ false keeps_flag present_flag)) <|
    and_congr (take_iff cbor rfl (keeps_defaulted _ false keeps_flag present_flag)) <|
    and_congr (take_iff cbor rfl (keeps_defaulted _ true keeps_flag present_flag)) <|
    take_iff cbor rfl (keeps_defaulted _ false keeps_flag present_flag)).trans ?_
  simp

theorem present : (form lenient).Present := present_structOf _ _ _ _

end MakeCredentialOptions

namespace GetAssertionOptions

/-- `GetAssertionOptions::default`. -/
def default : GetAssertionOptions := ⟨true, false⟩

def up : FieldForm Bool := .defaulted "up" .flag true

def uv : FieldForm Bool := .defaulted "uv" .flag false

def form : Form GetAssertionOptions :=
  structOf lenient
    (fun options => [up.entry options.up, uv.entry options.uv])
    ["up", "uv"] fun values => do
      let up ← up.take values
      let uv ← uv.take values
      pure ⟨up, uv⟩

theorem keeps : (form lenient).Keeps cbor fun _ => True := by
  refine keeps_structOf cbor (fun _ => rfl) (by decide) fun options => ?_
  obtain ⟨_, _⟩ := options
  simp only [bind, Option.bind_eq_some_iff, pure, Option.some.injEq, GetAssertionOptions.mk.injEq,
    existsAndEq, and_true]
  refine (and_congr (take_iff cbor rfl (keeps_defaulted _ true keeps_flag present_flag)) <|
    take_iff cbor rfl (keeps_defaulted _ false keeps_flag present_flag)).trans ?_
  simp

theorem present : (form lenient).Present := present_structOf _ _ _ _

end GetAssertionOptions

namespace ExtensionOutputs

def credProtect : FieldForm (Option Nat) := .nullable "credProtect" u8

def minPinLength : FieldForm (Option Nat) := .nullable "minPinLength" u32

def credBlob : FieldForm (Option Bytes) := .optional "credBlob" .byteString

def hmacSecret : FieldForm (Option Value) := .nullable "hmac-secret" .raw

def largeBlobKey : FieldForm (Option Bytes) := .optional "largeBlobKey" .byteString

def form : Form ExtensionOutputs :=
  structOf lenient
    (fun outputs => [credProtect.entry outputs.credProtect, minPinLength.entry outputs.minPinLength,
      credBlob.entry outputs.credBlob, hmacSecret.entry outputs.hmacSecret,
      largeBlobKey.entry outputs.largeBlobKey])
    ["credProtect", "minPinLength", "credBlob", "hmac-secret", "largeBlobKey"] fun values => do
      let credProtect ← credProtect.take values
      let minPinLength ← minPinLength.take values
      let credBlob ← credBlob.take values
      let hmacSecret ← hmacSecret.take values
      let largeBlobKey ← largeBlobKey.take values
      pure ⟨credProtect, minPinLength, credBlob, hmacSecret, largeBlobKey⟩

/-- The numbers are in range, and the output of hmac-secret canonical. -/
def Kept (cbor : Ciborium) (outputs : ExtensionOutputs) : Prop :=
  (∀ level, outputs.credProtect = some level → level < 2 ^ 8) ∧
    (∀ length, outputs.minPinLength = some length → length < 2 ^ 32) ∧
      ∀ value, outputs.hmacSecret = some value → Canonical cbor value

theorem keeps : (form lenient).Keeps cbor (Kept cbor) := by
  refine keeps_structOf cbor (fun _ => rfl) (by decide) fun outputs => ?_
  obtain ⟨_, _, _, _, _⟩ := outputs
  simp only [bind, Option.bind_eq_some_iff, pure, Option.some.injEq, ExtensionOutputs.mk.injEq,
    existsAndEq, and_true]
  refine (and_congr (take_iff cbor rfl (keeps_nullable _ (keeps_unsigned _))) <|
    and_congr (take_iff cbor rfl (keeps_nullable _ (keeps_unsigned _))) <|
    and_congr (take_iff cbor rfl (keeps_optional _ keeps_byteString)) <|
    and_congr (take_iff cbor rfl (keeps_nullable _ keeps_raw)) <|
    take_iff cbor rfl (keeps_optional _ keeps_byteString)).trans ?_
  simp [Kept]

theorem present : (form lenient).Present := present_structOf _ _ _ _

end ExtensionOutputs

namespace CoseAlgorithmEntry

def alg : FieldForm Int := .required "alg" .int32

def keyType : FieldForm String := .required "type" .text

def form : Form CoseAlgorithmEntry :=
  structOf lenient
    (fun algorithm => [alg.entry algorithm.alg, keyType.entry algorithm.keyType])
    ["alg", "type"] fun values => do
      let alg ← alg.take values
      let keyType ← keyType.take values
      pure ⟨alg, keyType⟩

/-- The algorithm is an `i32`. -/
def Kept (algorithm : CoseAlgorithmEntry) : Prop :=
  -2 ^ 31 ≤ algorithm.alg ∧ algorithm.alg < 2 ^ 31

theorem keeps : (form lenient).Keeps cbor Kept := by
  refine keeps_structOf cbor (fun _ => rfl) (by decide) fun algorithm => ?_
  obtain ⟨_, _⟩ := algorithm
  simp only [bind, Option.bind_eq_some_iff, pure, Option.some.injEq, CoseAlgorithmEntry.mk.injEq,
    existsAndEq, and_true]
  refine (and_congr (take_iff cbor rfl (keeps_required _ keeps_int32)) <|
    take_iff cbor rfl (keeps_required _ keeps_text)).trans ?_
  simp [Kept]

theorem present : (form lenient).Present := present_structOf _ _ _ _

end CoseAlgorithmEntry

namespace SecurityFeatures

def secureBoot : FieldForm Bool := .required "secure_boot" .flag

def trustZone : FieldForm Bool := .required "trust_zone" .flag

def hardwareRng : FieldForm Bool := .required "hardware_rng" .flag

def sha256Accelerator : FieldForm Bool := .required "sha256_accelerator" .flag

def debugDisable : FieldForm Bool := .required "debug_disable" .flag

def otpMemory : FieldForm Bool := .required "otp_memory" .flag

def uniqueId : FieldForm Bool := .required "unique_id" .flag

def tamperDetection : FieldForm Bool := .required "tamper_detection" .flag

def form : Form SecurityFeatures :=
  structOf lenient
    (fun features => [secureBoot.entry features.secureBoot, trustZone.entry features.trustZone,
      hardwareRng.entry features.hardwareRng, sha256Accelerator.entry features.sha256Accelerator,
      debugDisable.entry features.debugDisable, otpMemory.entry features.otpMemory,
      uniqueId.entry features.uniqueId, tamperDetection.entry features.tamperDetection])
    ["secure_boot", "trust_zone", "hardware_rng", "sha256_accelerator", "debug_disable",
      "otp_memory", "unique_id", "tamper_detection"] fun values => do
      let secureBoot ← secureBoot.take values
      let trustZone ← trustZone.take values
      let hardwareRng ← hardwareRng.take values
      let sha256Accelerator ← sha256Accelerator.take values
      let debugDisable ← debugDisable.take values
      let otpMemory ← otpMemory.take values
      let uniqueId ← uniqueId.take values
      let tamperDetection ← tamperDetection.take values
      pure ⟨secureBoot, trustZone, hardwareRng, sha256Accelerator, debugDisable, otpMemory,
        uniqueId, tamperDetection⟩

theorem keeps : (form lenient).Keeps cbor fun _ => True := by
  refine keeps_structOf cbor (fun _ => rfl) (by decide) fun features => ?_
  obtain ⟨_, _, _, _, _, _, _, _⟩ := features
  simp only [bind, Option.bind_eq_some_iff, pure, Option.some.injEq, SecurityFeatures.mk.injEq,
    existsAndEq, and_true]
  refine (and_congr (take_iff cbor rfl (keeps_required _ keeps_flag)) <|
    and_congr (take_iff cbor rfl (keeps_required _ keeps_flag)) <|
    and_congr (take_iff cbor rfl (keeps_required _ keeps_flag)) <|
    and_congr (take_iff cbor rfl (keeps_required _ keeps_flag)) <|
    and_congr (take_iff cbor rfl (keeps_required _ keeps_flag)) <|
    and_congr (take_iff cbor rfl (keeps_required _ keeps_flag)) <|
    and_congr (take_iff cbor rfl (keeps_required _ keeps_flag)) <|
    take_iff cbor rfl (keeps_required _ keeps_flag)).trans ?_
  simp

theorem present : (form lenient).Present := present_structOf _ _ _ _

end SecurityFeatures

end Serde

end OpenKey
