import OpenKey.Ctap2.RootKeys

/-!
# Forms of the requests

The requests that are encoded and decoded at the root of a message: the attributes of their fields,
and their tables. **Every field of a request for a credential or an assertion comes back**
(`MakeCredentialRequest.returns_iff`, `GetAssertionRequest.returns_iff`), and so do those of
`CredentialManagementRequest`, whose parameters have tables of their own. The tables of
`LargeBlobsRequest` lose its authentication (`LargeBlobsRequest.returns_iff`).
-/

namespace OpenKey

set_option autoImplicit false

namespace Serde

open Form FieldForm

variable {cbor : Ciborium} (lenient : Bool)

/-! ## Tables -/

/-- The entry of a table. -/
def labelIn (table : List (String × Int)) (name : String) : Option Int :=
  (table.find? fun entry => entry.1 = name).map Prod.snd

/-- `ctap_key_to_int`. -/
def ctapKeyToInt : String → Option Int := labelIn
  [("clientDataHash", 0x01), ("rp", 0x02), ("user", 0x03), ("pubKeyCredParams", 0x04),
    ("excludeList", 0x05), ("extensions", 0x06), ("options", 0x07), ("pinUvAuthParam", 0x08),
    ("pinUvAuthProtocol", 0x09), ("enterpriseAttestation", 0x0A), ("rpId", 0x01),
    ("allowList", 0x03), ("credential", 0x01), ("authData", 0x02), ("signature", 0x03),
    ("numberOfCredentials", 0x05), ("versions", 0x01), ("aaguid", 0x03), ("maxMsgSize", 0x05),
    ("pinUvAuthProtocols", 0x06), ("algorithms", 0x0A), ("fmt", 0x01), ("attStmt", 0x03),
    ("subCommandParams", 0x03), ("r#type", 0x01), ("id", 0x02), ("type", 0x01), ("alg", 0x03)]

/-- The label of a name: from the table of the structure first. -/
def labelOf (own : List (String × Int)) (name : String) : Option Int :=
  (labelIn own name).or (ctapKeyToInt name)

/-- Tables for a structure whose values are left alone. -/
def plainLabels (encode : String → Option Int) (decode : Int → Option String) : Labels where
  encode := encode
  decode := decode
  writeValue _ value := value
  readValue _ value := value

section

variable {encode : String → Option Int} {decode : Int → Option String}

theorem carry_plainLabels (name : String) (value : Value) :
    (plainLabels encode decode).carry cbor name value = wire cbor value := by
  refine Labels.carry_eq_wire cbor _ (fun _ => rfl) (fun value => ?_) value
  cases (plainLabels encode decode).encode name <;> rfl

theorem take_plain_iff {β : Type} {f : FieldForm β} {b : β} {P : β → Prop}
    {written : List (String × Option Value)}
    (hfield : (plainLabels encode decode).fieldTrip cbor written f.name =
      (f.put b).bind ((plainLabels encode decode).carry cbor f.name))
    (h : f.Keeps cbor P) :
    f.take ((plainLabels encode decode).fieldTrip cbor written) = some b ↔ P b :=
  (plainLabels encode decode).take_trip_iff cbor hfield (carry_plainLabels f.name) h

/-- Tables for a structure where one field is written and read in its own way. -/
def adaptedLabels (encode : String → Option Int) (decode : Int → Option String) (name : String)
    (number : Int) (write read : Value → Value) : Labels where
  encode := encode
  decode := decode
  writeValue other value := if other = name then write value else value
  readValue other value := if other = number then read value else value

variable {name : String} {number : Int} {write read : Value → Value}

/-- The other fields are left alone. -/
theorem take_adapted_iff {β : Type} {f : FieldForm β} {b : β} {P : β → Prop}
    {written : List (String × Option Value)}
    (hfield : (adaptedLabels encode decode name number write read).fieldTrip cbor written f.name =
      (f.put b).bind ((adaptedLabels encode decode name number write read).carry cbor f.name))
    (h : f.Keeps cbor P) (hname : f.name ≠ name) (hnumber : encode f.name ≠ some number) :
    f.take ((adaptedLabels encode decode name number write read).fieldTrip cbor written) = some b ↔
      P b := by
  refine Labels.take_trip_iff cbor _ hfield (fun value => ?_) h
  refine Labels.carry_eq_wire cbor _ (fun value => if_neg hname) (fun value => ?_) value
  show (encode f.name).elim value _ = value
  cases hencode : encode f.name with
  | none => rfl
  | some other =>
      refine if_neg fun heq => hnumber ?_
      rw [hencode, heq]

end

/-! ## MakeCredential -/

namespace MakeCredentialRequest

def clientDataHash : FieldForm Bytes := .required "clientDataHash" .byteString

def rp : FieldForm RelyingParty := .required "rp" (RelyingParty.form lenient)

def user : FieldForm User := .required "user" (User.form lenient)

def pubKeyCredParams : FieldForm (List PublicKeyCredParams) :=
  .required "pubKeyCredParams" (.list (PublicKeyCredParams.form lenient))

def excludeList : FieldForm (List CredentialDescriptor) :=
  .defaulted "excludeList" (.list (CredentialDescriptor.form lenient)) []

def extensions : FieldForm (Option Extensions) := .nullable "extensions" (Extensions.form lenient)

def options : FieldForm MakeCredentialOptions :=
  .defaulted "options" (MakeCredentialOptions.form lenient) MakeCredentialOptions.default

def pinUvAuthParam : FieldForm (Option Bytes) := .optional "pinUvAuthParam" .byteString

def pinProtocol : FieldForm (Option Nat) := .nullable "pinUvAuthProtocol" u8

def enterpriseProtections : FieldForm (Option Nat) := .nullable "enterpriseAttestation" u8

def form : Form MakeCredentialRequest :=
  structOf lenient
    (fun request => [clientDataHash.entry request.clientDataHash, (rp lenient).entry request.rp,
      (user lenient).entry request.user, (pubKeyCredParams lenient).entry request.pubKeyCredParams,
      (excludeList lenient).entry request.excludeList,
      (extensions lenient).entry request.extensions, (options lenient).entry request.options,
      pinUvAuthParam.entry request.pinUvAuthParam, pinProtocol.entry request.pinProtocol,
      enterpriseProtections.entry request.enterpriseProtections])
    ["clientDataHash", "rp", "user", "pubKeyCredParams", "excludeList", "extensions", "options",
      "pinUvAuthParam", "pinUvAuthProtocol", "enterpriseAttestation"] fun values => do
      let clientDataHash ← clientDataHash.take values
      let rp ← (rp lenient).take values
      let user ← (user lenient).take values
      let pubKeyCredParams ← (pubKeyCredParams lenient).take values
      let excludeList ← (excludeList lenient).take values
      let extensions ← (extensions lenient).take values
      let options ← (options lenient).take values
      let pinUvAuthParam ← pinUvAuthParam.take values
      let pinProtocol ← pinProtocol.take values
      let enterpriseProtections ← enterpriseProtections.take values
      pure ⟨clientDataHash, rp, user, pubKeyCredParams, excludeList, extensions, options,
        pinUvAuthParam, pinProtocol, enterpriseProtections⟩

def labels : Labels := plainLabels ctapKeyToInt RequestType.makeCredential.label

/-- The numbers are in range, and the extensions kept. -/
def Kept (cbor : Ciborium) (request : MakeCredentialRequest) : Prop :=
  (∀ params ∈ request.pubKeyCredParams, PublicKeyCredParams.Kept params) ∧
    (∀ extensions, request.extensions = some extensions → Extensions.Kept cbor extensions) ∧
      (∀ protocol, request.pinProtocol = some protocol → protocol < 2 ^ 8) ∧
        ∀ level, request.enterpriseProtections = some level → level < 2 ^ 8

theorem returns_iff (request : MakeCredentialRequest) :
    Returns cbor labels (form lenient) request request ↔ Kept cbor request := by
  refine (labels.returns_iff_of_named cbor (by intro; rfl) (by decide) (by decide) _ _).trans ?_
  obtain ⟨_, _, _, _, _, _, _, _, _, _⟩ := request
  simp only [bind, Option.bind_eq_some_iff, pure, Option.some.injEq, MakeCredentialRequest.mk.injEq,
    existsAndEq, and_true]
  refine Iff.trans (and_congr (take_plain_iff rfl (keeps_required _ keeps_byteString)) <|
    and_congr (take_plain_iff rfl (keeps_required _ (RelyingParty.keeps lenient))) <|
    and_congr (take_plain_iff rfl (keeps_required _ (User.keeps lenient))) <|
    and_congr (take_plain_iff rfl
      (keeps_required _ ((PublicKeyCredParams.keeps lenient).list
        (PublicKeyCredParams.present lenient)))) <|
    and_congr (take_plain_iff rfl
      (keeps_defaulted _ [] ((CredentialDescriptor.keeps lenient).list
        (CredentialDescriptor.present lenient)) (present_list _))) <|
    and_congr (take_plain_iff rfl (keeps_nullable _ (Extensions.keeps lenient))) <|
    and_congr (take_plain_iff rfl
      (keeps_defaulted _ MakeCredentialOptions.default (MakeCredentialOptions.keeps lenient)
        (MakeCredentialOptions.present lenient))) <|
    and_congr (take_plain_iff rfl (keeps_optional _ keeps_byteString)) <|
    and_congr (take_plain_iff rfl (keeps_nullable _ (keeps_unsigned _))) <|
    take_plain_iff rfl (keeps_nullable _ (keeps_unsigned _))) ?_
  simp [Kept]

end MakeCredentialRequest

/-! ## GetAssertion -/

namespace GetAssertionRequest

def rpId : FieldForm String := .required "rpId" .text

def credentials : FieldForm (List CredentialDescriptor) :=
  .defaulted "allowList" (.list (CredentialDescriptor.form lenient)) []

def clientDataHash : FieldForm Bytes := .required "clientDataHash" .byteString

def extensions : FieldForm (Option Extensions) := .nullable "extensions" (Extensions.form lenient)

def options : FieldForm GetAssertionOptions :=
  .defaulted "options" (GetAssertionOptions.form lenient) GetAssertionOptions.default

def pinUvAuthParam : FieldForm (Option Bytes) := .optional "pinUvAuthParam" .byteString

def pinProtocol : FieldForm (Option Nat) := .nullable "pinUvAuthProtocol" u8

def uv : FieldForm (Option Bool) := .nullable "uv" .flag

def form : Form GetAssertionRequest :=
  structOf lenient
    (fun request => [rpId.entry request.rpId, (credentials lenient).entry request.credentials,
      clientDataHash.entry request.clientDataHash, (extensions lenient).entry request.extensions,
      (options lenient).entry request.options, pinUvAuthParam.entry request.pinUvAuthParam,
      pinProtocol.entry request.pinProtocol, uv.entry request.uv])
    ["rpId", "allowList", "clientDataHash", "extensions", "options", "pinUvAuthParam",
      "pinUvAuthProtocol", "uv"] fun values => do
      let rpId ← rpId.take values
      let credentials ← (credentials lenient).take values
      let clientDataHash ← clientDataHash.take values
      let extensions ← (extensions lenient).take values
      let options ← (options lenient).take values
      let pinUvAuthParam ← pinUvAuthParam.take values
      let pinProtocol ← pinProtocol.take values
      let uv ← uv.take values
      pure ⟨rpId, credentials, none, clientDataHash, extensions, options, pinUvAuthParam,
        pinProtocol, uv⟩

def labels : Labels :=
  plainLabels
    (labelOf [("rpId", 0x01), ("clientDataHash", 0x02), ("allowList", 0x03), ("extensions", 0x04),
      ("options", 0x05), ("pinUvAuthParam", 0x06), ("pinUvAuthProtocol", 0x07)])
    RequestType.getAssertion.label

/-- The alias that is never sent is not used, the numbers are in range, and the extensions kept. -/
def Kept (cbor : Ciborium) (request : GetAssertionRequest) : Prop :=
  request.allowList = none ∧
    (∀ extensions, request.extensions = some extensions → Extensions.Kept cbor extensions) ∧
      ∀ protocol, request.pinProtocol = some protocol → protocol < 2 ^ 8

theorem returns_iff (request : GetAssertionRequest) :
    Returns cbor labels (form lenient) request request ↔ Kept cbor request := by
  refine (labels.returns_iff_of_named cbor (by intro; rfl) (by decide) (by decide) _ _).trans ?_
  obtain ⟨_, _, _, _, _, _, _, _, _⟩ := request
  simp only [bind, Option.bind_eq_some_iff, pure, Option.some.injEq, GetAssertionRequest.mk.injEq,
    existsAndEq, and_true, true_and]
  refine Iff.trans (and_congr (take_plain_iff rfl (keeps_required _ keeps_text)) <|
    and_congr (take_plain_iff rfl
      (keeps_defaulted _ [] ((CredentialDescriptor.keeps lenient).list
        (CredentialDescriptor.present lenient)) (present_list _))) <|
    and_congr (take_plain_iff rfl (keeps_required _ keeps_byteString)) <|
    and_congr (take_plain_iff rfl (keeps_nullable _ (Extensions.keeps lenient))) <|
    and_congr (take_plain_iff rfl
      (keeps_defaulted _ GetAssertionOptions.default (GetAssertionOptions.keeps lenient)
        (GetAssertionOptions.present lenient))) <|
    and_congr (take_plain_iff rfl (keeps_optional _ keeps_byteString)) <|
    and_congr (take_plain_iff rfl (keeps_nullable _ (keeps_unsigned _))) <|
    and_congr (take_plain_iff rfl (keeps_nullable _ keeps_flag)) Iff.rfl) ?_
  simp [Kept, eq_comm, and_comm, and_assoc]

end GetAssertionRequest

/-! ## CredentialManagement -/

namespace CredMgmtParams

def rpIdHash : FieldForm (Option Bytes) := .optional "rpIDHash" .byteString

def credentialId : FieldForm (Option CredentialDescriptor) :=
  .optional "credentialId" (CredentialDescriptor.form lenient)

def user : FieldForm (Option User) := .optional "user" (User.form lenient)

def form : Form CredMgmtParams :=
  structOf lenient
    (fun params => [rpIdHash.entry params.rpIdHash,
      (credentialId lenient).entry params.credentialId, (user lenient).entry params.user])
    ["rpIDHash", "credentialId", "user"] fun values => do
      let rpIdHash ← rpIdHash.take values
      let credentialId ← (credentialId lenient).take values
      let user ← (user lenient).take values
      pure ⟨rpIdHash, credentialId, user⟩

/-- The parameters have tables of their own. -/
def labels : Labels :=
  plainLabels (labelIn [("rpIDHash", 1), ("credentialId", 2), ("user", 3)]) credMgmtParamLabel

theorem returns (params : CredMgmtParams) :
    Returns cbor labels (form lenient) params params := by
  refine (labels.returns_iff_of_named cbor (by intro; rfl) (by decide) (by decide) _ _).mpr ?_
  obtain ⟨_, _, _⟩ := params
  simp only [bind, Option.bind_eq_some_iff, pure, Option.some.injEq, CredMgmtParams.mk.injEq,
    existsAndEq, and_true]
  refine Iff.mpr (and_congr (take_plain_iff rfl (keeps_optional _ keeps_byteString)) <|
    and_congr (take_plain_iff rfl (keeps_optional _ (CredentialDescriptor.keeps lenient))) <|
    take_plain_iff rfl (keeps_optional _ (User.keeps lenient))) ?_
  simp

end CredMgmtParams

namespace CredentialManagementRequest

def subCommand : FieldForm Nat := .required "subCommand" u8

def subCommandParams : FieldForm (Option CredMgmtParams) :=
  .optional "subCommandParams" (CredMgmtParams.form lenient)

def pinUvAuthProtocol : FieldForm (Option Nat) := .optional "pinUvAuthProtocol" u8

def pinUvAuthParam : FieldForm (Option Bytes) := .optional "pinUvAuthParam" .byteString

def form : Form CredentialManagementRequest :=
  structOf lenient
    (fun request => [subCommand.entry request.subCommand,
      (subCommandParams lenient).entry request.subCommandParams,
      pinUvAuthProtocol.entry request.pinUvAuthProtocol,
      pinUvAuthParam.entry request.pinUvAuthParam])
    ["subCommand", "subCommandParams", "pinUvAuthProtocol", "pinUvAuthParam"] fun values => do
      let subCommand ← subCommand.take values
      let subCommandParams ← (subCommandParams lenient).take values
      let pinUvAuthProtocol ← pinUvAuthProtocol.take values
      let pinUvAuthParam ← pinUvAuthParam.take values
      pure ⟨subCommand, subCommandParams, pinUvAuthProtocol, pinUvAuthParam⟩

def labels : Labels :=
  adaptedLabels
    (labelOf [("subCommand", 0x01), ("subCommandParams", 0x02), ("pinUvAuthProtocol", 0x03),
      ("pinUvAuthParam", 0x04)])
    RequestType.credentialManagement.label "subCommandParams" 2 CredMgmtParams.labels.encodeKeys
    CredMgmtParams.labels.decodeKeys


/-- The numbers are in range. -/
def Kept (request : CredentialManagementRequest) : Prop :=
  request.subCommand < 2 ^ 8 ∧
    ∀ protocol, request.pinUvAuthProtocol = some protocol → protocol < 2 ^ 8

/-- The parameters come back from what arrives of them. -/
theorem get_subCommandParams (params : Option CredMgmtParams) :
    (subCommandParams lenient).get (((subCommandParams lenient).put params).bind
      (labels.carry cbor "subCommandParams")) = some params := by
  cases params with
  | none => rfl
  | some params =>
      have hreturns : Returns cbor CredMgmtParams.labels (CredMgmtParams.form lenient) params
        params := CredMgmtParams.returns lenient params
      obtain ⟨entries, hentries, -⟩ := CredMgmtParams.labels.arrived_perm cbor
        [CredMgmtParams.rpIdHash.entry params.rpIdHash,
          (CredMgmtParams.credentialId lenient).entry params.credentialId,
          (CredMgmtParams.user lenient).entry params.user]
      have harrived : CredMgmtParams.labels.decodeKeys (canonicalizeCbor cbor
          (CredMgmtParams.labels.encodeKeys ((CredMgmtParams.form lenient).toValue params))) =
            .map entries := hentries
      unfold Returns at hreturns
      rw [harrived] at hreturns
      have hcarry : labels.carry cbor "subCommandParams"
          ((CredMgmtParams.form lenient).toValue params) = some (.map entries) := by
        rw [← harrived]
        rfl
      show (labels.carry cbor "subCommandParams"
        ((CredMgmtParams.form lenient).toValue params)).elim (some none)
          (readOption (CredMgmtParams.form lenient)) = some (some params)
      rw [hcarry]
      exact congrArg (Option.map some) hreturns

theorem returns_iff (request : CredentialManagementRequest) :
    Returns cbor labels (form lenient) request request ↔ Kept request := by
  refine (labels.returns_iff_of_named cbor (by intro; rfl) (by decide) (by decide) _ _).trans ?_
  obtain ⟨_, params, _, _⟩ := request
  simp only [bind, Option.bind_eq_some_iff, pure, Option.some.injEq,
    CredentialManagementRequest.mk.injEq, existsAndEq, and_true]
  refine Iff.trans (and_congr
      (take_adapted_iff rfl (keeps_required _ (keeps_unsigned _)) (by decide) (by decide)) <|
    and_congr (iff_true_intro (get_subCommandParams lenient params)) <|
    and_congr
      (take_adapted_iff rfl (keeps_optional _ (keeps_unsigned _)) (by decide) (by decide)) <|
    take_adapted_iff rfl (keeps_optional _ keeps_byteString) (by decide) (by decide)) ?_
  simp [Kept]

end CredentialManagementRequest

/-! ## LargeBlobs -/

namespace LargeBlobsRequest

def offset : FieldForm Nat := .required "offset" u64

def get : FieldForm (Option Nat) := .optional "get" u64

def set : FieldForm (Option Bytes) := .optional "set" .byteString

def length : FieldForm (Option Nat) := .optional "length" u64

def pinUvAuthParam : FieldForm (Option Bytes) := .optional "pinUvAuthParam" .byteString

def pinUvAuthProtocol : FieldForm (Option Nat) := .optional "pinUvAuthProtocol" u8

def form : Form LargeBlobsRequest :=
  structOf lenient
    (fun request => [offset.entry request.offset, get.entry request.get, set.entry request.set,
      length.entry request.length, pinUvAuthParam.entry request.pinUvAuthParam,
      pinUvAuthProtocol.entry request.pinUvAuthProtocol])
    ["offset", "get", "set", "length", "pinUvAuthParam", "pinUvAuthProtocol"] fun values => do
      let offset ← offset.take values
      let get ← get.take values
      let set ← set.take values
      let length ← length.take values
      let pinUvAuthParam ← pinUvAuthParam.take values
      let pinUvAuthProtocol ← pinUvAuthProtocol.take values
      pure ⟨offset, get, set, length, pinUvAuthParam, pinUvAuthProtocol⟩

def labels : Labels := plainLabels ctapKeyToInt RequestType.largeBlobs.label

/-- The numbers are in range, and there is no authentication: its labels stand for no names. -/
def Kept (request : LargeBlobsRequest) : Prop :=
  request.offset < 2 ^ 64 ∧ (∀ count, request.get = some count → count < 2 ^ 64) ∧
    (∀ length, request.length = some length → length < 2 ^ 64) ∧
      request.pinUvAuthParam = none ∧ request.pinUvAuthProtocol = none

theorem returns_iff (request : LargeBlobsRequest) :
    Returns cbor labels (form lenient) request request ↔ Kept request := by
  refine labels.returns_iff_of_unsent cbor (by intro; rfl) (by decide) ?_ ?_
  · obtain ⟨_, _, _, _, _, _⟩ := request
    simp only [bind, Option.bind_eq_some_iff, pure, Option.some.injEq, LargeBlobsRequest.mk.injEq,
      existsAndEq, and_true]
    refine Iff.trans (and_congr (take_plain_iff rfl (keeps_required _ (keeps_unsigned _))) <|
      and_congr (take_plain_iff rfl (keeps_optional _ (keeps_unsigned _))) <|
      and_congr (take_plain_iff rfl (keeps_optional _ keeps_byteString)) <|
      and_congr (take_plain_iff rfl (keeps_optional _ (keeps_unsigned _))) <|
      and_congr (labels.take_lost_iff cbor rfl rfl) <|
      labels.take_lost_iff cbor rfl rfl) ?_
    simp [Kept]
  · intro h field hfield
    obtain ⟨-, -, -, hparam, hprotocol⟩ := h
    simp only [List.mem_cons, List.not_mem_nil, or_false] at hfield
    rcases hfield with rfl | rfl | rfl | rfl | rfl | rfl
    · exact .inl rfl
    · exact .inl rfl
    · exact .inl rfl
    · exact .inl rfl
    · exact .inr (congrArg (Option.map _) hparam)
    · exact .inr (congrArg (Option.map _) hprotocol)

end LargeBlobsRequest

end Serde

end OpenKey
