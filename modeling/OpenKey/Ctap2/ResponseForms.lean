import OpenKey.Ctap2.RequestForms

/-!
# Forms of the responses

The responses that are encoded and decoded at the root of a message: the attributes of their fields,
and their tables.

**Drift.** The extension outputs of `MakeCredentialResponse` get the label 6, for which there is no
name (`MakeCredentialResponse.returns_iff`), and `max_msg_size` of `GetInfoResponse` comes back
under the name `maxMsgSize`, which no field has (`GetInfoResponse.returns_iff`). The other responses
come back, but for one without a `largeBlobKey` (`EnumerateCredentialsEntryResponse.returns_iff`).
-/

namespace OpenKey

set_option autoImplicit false

namespace Serde

open Form FieldForm

variable {cbor : Ciborium} (lenient : Bool)

/-- The name at the index of a label; the index is cast to `usize`. -/
def nameAt (names : List String) (number : Int) : Option String :=
  ((toI64 number).bind fun n => names[(n % usizeRange).toNat]?).filter (· ≠ "")

/-! ## MakeCredential -/

namespace MakeCredentialResponse

def fmt : FieldForm String := .required "fmt" .text

def authData : FieldForm Bytes := .required "authData" .byteString

def attestationInfo : FieldForm (List (Int × Value)) := .required "attStmt" intMap

def extensions : FieldForm (Option ExtensionOutputs) :=
  .optional "extensions" (ExtensionOutputs.form lenient)

def form : Form MakeCredentialResponse :=
  structOf lenient
    (fun response => [fmt.entry response.fmt, authData.entry response.authData,
      attestationInfo.entry response.attestationInfo,
      (extensions lenient).entry response.extensions])
    ["fmt", "authData", "attStmt", "extensions"] fun values => do
      let fmt ← fmt.take values
      let authData ← authData.take values
      let attestationInfo ← attestationInfo.take values
      let extensions ← (extensions lenient).take values
      pure ⟨fmt, authData, attestationInfo, extensions⟩

def labels : Labels :=
  plainLabels (labelOf [("fmt", 0x01), ("auth_data", 0x02), ("attestation_info", 0x03)])
    (nameAt ["", "fmt", "authData", "attStmt", "extensions"])

/-- The statement has ascending keys and canonical values, and there are no extension outputs. -/
def Kept (cbor : Ciborium) (response : MakeCredentialResponse) : Prop :=
  Ascending response.attestationInfo ∧
    (∀ entry ∈ response.attestationInfo, -2 ^ 63 ≤ entry.1 ∧ entry.1 < 2 ^ 63) ∧
      (∀ entry ∈ response.attestationInfo, Canonical cbor entry.2) ∧
        response.extensions = none

theorem returns_iff (response : MakeCredentialResponse) :
    Returns cbor labels (form lenient) response response ↔ Kept cbor response := by
  refine labels.returns_iff_of_unsent cbor (by intro; rfl) (by decide) ?_ ?_
  · obtain ⟨_, _, _, _⟩ := response
    simp only [bind, Option.bind_eq_some_iff, pure, Option.some.injEq,
      MakeCredentialResponse.mk.injEq, existsAndEq, and_true]
    refine Iff.trans (and_congr (take_plain_iff rfl (keeps_required _ keeps_text)) <|
      and_congr (take_plain_iff rfl (keeps_required _ keeps_byteString)) <|
      and_congr (take_plain_iff rfl (keeps_required _ (keeps_intMap _))) <|
      labels.take_lost_iff cbor rfl rfl) ?_
    simp [Kept, and_assoc]
  · intro h field hfield
    obtain ⟨-, -, -, hextensions⟩ := h
    simp only [List.mem_cons, List.not_mem_nil, or_false] at hfield
    rcases hfield with rfl | rfl | rfl | rfl
    · exact .inl rfl
    · exact .inl rfl
    · exact .inl rfl
    · exact .inr (congrArg (Option.map _) hextensions)

end MakeCredentialResponse

/-! ## GetAssertion -/

namespace GetAssertionResponse

def credential : FieldForm (Option CredentialDescriptor) :=
  .optional "credential" (CredentialDescriptor.form lenient)

def authData : FieldForm Bytes := .required "authData" .byteString

def signature : FieldForm Bytes := .required "signature" .byteString

def user : FieldForm (Option User) := .optional "user" (User.form lenient)

def numberOfCredentials : FieldForm (Option Nat) := .optional "numberOfCredentials" u16

def extensions : FieldForm (Option ExtensionOutputs) :=
  .optional "extensions" (ExtensionOutputs.form lenient)

def form : Form GetAssertionResponse :=
  structOf lenient
    (fun response => [(credential lenient).entry response.credential,
      authData.entry response.authData, signature.entry response.signature,
      (user lenient).entry response.user, numberOfCredentials.entry response.numberOfCredentials,
      (extensions lenient).entry response.extensions])
    ["credential", "authData", "signature", "user", "numberOfCredentials",
      "extensions"] fun values => do
      let credential ← (credential lenient).take values
      let authData ← authData.take values
      let signature ← signature.take values
      let user ← (user lenient).take values
      let numberOfCredentials ← numberOfCredentials.take values
      let extensions ← (extensions lenient).take values
      pure ⟨credential, authData, signature, user, numberOfCredentials, extensions⟩

def labels : Labels :=
  plainLabels
    (labelOf [("credential", 0x01), ("auth_data", 0x02), ("signature", 0x03), ("user", 0x04)])
    (nameAt ["", "credential", "authData", "signature", "user", "numberOfCredentials",
      "extensions"])

/-- The number is in range, and the extension outputs are kept. -/
def Kept (cbor : Ciborium) (response : GetAssertionResponse) : Prop :=
  (∀ number, response.numberOfCredentials = some number → number < 2 ^ 16) ∧
    ∀ outputs, response.extensions = some outputs → ExtensionOutputs.Kept cbor outputs

theorem returns_iff (response : GetAssertionResponse) :
    Returns cbor labels (form lenient) response response ↔ Kept cbor response := by
  refine (labels.returns_iff_of_named cbor (by intro; rfl) (by decide) (by decide) _ _).trans ?_
  obtain ⟨_, _, _, _, _, _⟩ := response
  simp only [bind, Option.bind_eq_some_iff, pure, Option.some.injEq, GetAssertionResponse.mk.injEq,
    existsAndEq, and_true]
  refine Iff.trans (and_congr (take_plain_iff rfl
      (keeps_optional _ (CredentialDescriptor.keeps lenient))) <|
    and_congr (take_plain_iff rfl (keeps_required _ keeps_byteString)) <|
    and_congr (take_plain_iff rfl (keeps_required _ keeps_byteString)) <|
    and_congr (take_plain_iff rfl (keeps_optional _ (User.keeps lenient))) <|
    and_congr (take_plain_iff rfl (keeps_optional _ (keeps_unsigned _))) <|
    take_plain_iff rfl (keeps_optional _ (ExtensionOutputs.keeps lenient))) ?_
  simp [Kept]

end GetAssertionResponse

/-! ## GetInfo -/

namespace GetInfoResponse

def versions : FieldForm (List String) := .required "versions" (.list .text)

def extensions : FieldForm (List String) := .required "extensions" (.list .text)

def aaguid : FieldForm Bytes := .required "aaguid" .byteString

def options : FieldForm (List String) := .required "options" (.list .text)

def pinUvAuthProtocols : FieldForm (List Nat) := .defaulted "pinUvAuthProtocols" (.list u8) []

def maxMsgSize : FieldForm Nat := .defaulted "max_msg_size" u32 0

def rpCount : FieldForm Nat := .unsent "rp_count" u32 0

def maxCredBlobLength : FieldForm Nat := .required "max_cred_blob_length" u32

def maxCredentialIdLength : FieldForm Nat := .required "max_credential_id_length" u16

def maxCredentialCount : FieldForm Nat := .required "max_credential_count" u16

def firmwareVersion : FieldForm Nat := .required "firmware_version" u32

def algorithms : FieldForm (List CoseAlgorithmEntry) :=
  .required "algorithms" (.list (CoseAlgorithmEntry.form lenient))

def security : FieldForm (Option SecurityFeatures) :=
  .optional "security" (SecurityFeatures.form lenient)

def maxLargeBlobDataSize : FieldForm (Option Nat) := .optional "maxLargeBlobDataSize" u32

/-- The response from the values under the names of its fields. -/
def read (values : String → Option Value) : Option GetInfoResponse := do
  let versions ← versions.take values
  let extensions ← extensions.take values
  let aaguid ← aaguid.take values
  let options ← options.take values
  let pinUvAuthProtocols ← pinUvAuthProtocols.take values
  let maxMsgSize ← maxMsgSize.take values
  let rpCount ← rpCount.take values
  let maxCredBlobLength ← maxCredBlobLength.take values
  let maxCredentialIdLength ← maxCredentialIdLength.take values
  let maxCredentialCount ← maxCredentialCount.take values
  let firmwareVersion ← firmwareVersion.take values
  let algorithms ← (algorithms lenient).take values
  let security ← (security lenient).take values
  let maxLargeBlobDataSize ← maxLargeBlobDataSize.take values
  pure ⟨versions, extensions, aaguid, options, pinUvAuthProtocols, maxMsgSize, rpCount,
    maxCredBlobLength, maxCredentialIdLength, maxCredentialCount, firmwareVersion, algorithms,
    security, maxLargeBlobDataSize⟩

def form : Form GetInfoResponse :=
  structOf lenient
    (fun info => [versions.entry info.versions, extensions.entry info.extensions,
      aaguid.entry info.aaguid, options.entry info.options,
      pinUvAuthProtocols.entry info.pinUvAuthProtocols, maxMsgSize.entry info.maxMsgSize,
      rpCount.entry info.rpCount, maxCredBlobLength.entry info.maxCredBlobLength,
      maxCredentialIdLength.entry info.maxCredentialIdLength,
      maxCredentialCount.entry info.maxCredentialCount, firmwareVersion.entry info.firmwareVersion,
      (algorithms lenient).entry info.algorithms, (security lenient).entry info.security,
      maxLargeBlobDataSize.entry info.maxLargeBlobDataSize])
    ["versions", "extensions", "aaguid", "options", "pinUvAuthProtocols", "max_msg_size",
      "rp_count", "max_cred_blob_length", "max_credential_id_length", "max_credential_count",
      "firmware_version", "algorithms", "security", "maxLargeBlobDataSize"] (read lenient)

/-- A capability that is announced as disabled: a PIN can be set if a token can be had. -/
def withClientPin (entries : List (Value × Value)) : List (Value × Value) :=
  if (entries.any fun entry => isName "pinUvAuthToken" entry.1) &&
      !entries.any fun entry => isName "clientPin" entry.1 then
    entries ++ [(.text "clientPin", .bool false)]
  else entries

/-- A name becomes a capability that is enabled. -/
def enable : Value → Option (Value × Value)
  | .text name => some (.text name, .bool true)
  | _ => none

/-- The names of enabled capabilities are written as a map. -/
def writeOptions : Value → Value
  | .array names =>
      if names.all isText then .map (withClientPin (names.filterMap enable)) else .array names
  | value => value

/-- The name of a capability that is enabled. -/
def enabled : Value × Value → Option String
  | (.text name, .bool true) => some name
  | _ => none

/-- A value that is true or false. -/
def isFlag : Value → Bool
  | .bool _ => true
  | _ => false

/-- The names of the enabled capabilities are read from a map. -/
def readOptions : Value → Value
  | .map options =>
      if options.all fun option => isFlag option.2 then
        .array ((options.filterMap enabled).map .text)
      else .map options
  | value => value

def labels : Labels :=
  adaptedLabels
    (labelOf [("versions", 0x01), ("extensions", 0x02), ("aaguid", 0x03), ("options", 0x04),
      ("max_msg_size", 0x05), ("max_credential_count", 0x07), ("max_credential_id_length", 0x08),
      ("firmware_version", 0x0E), ("max_cred_blob_length", 0x0F), ("maxLargeBlobDataSize", 0x0B),
      ("max_large_blob_data_size", 0x0D)])
    (nameAt ["", "versions", "extensions", "aaguid", "options", "maxMsgSize", "pinUvAuthProtocols",
      "max_credential_count", "max_credential_id_length", "", "algorithms", "maxLargeBlobDataSize",
      "", "", "firmware_version", "max_cred_blob_length"])
    "options" 4 writeOptions readOptions

theorem mem_withClientPin {entries : List (Value × Value)} {entry : Value × Value}
    (h : entry ∈ withClientPin entries) :
    entry ∈ entries ∨ entry = (.text "clientPin", .bool false) := by
  unfold withClientPin at h
  split at h
  · exact (List.mem_append.mp h).imp_right List.mem_singleton.mp
  · exact .inl h

/-- A capability that is disabled has no name among the enabled ones. -/
theorem enabled_withClientPin (entries : List (Value × Value)) :
    (withClientPin entries).filterMap enabled = entries.filterMap enabled := by
  unfold withClientPin
  split
  · rw [List.filterMap_append]
    exact List.append_nil _
  · rfl

/-- The names of capabilities as a map. -/
def announced (names : List String) : List (Value × Value) :=
  withClientPin (names.map fun name => (.text name, .bool true))

theorem writeOptions_names (names : List String) :
    writeOptions (.array (names.map .text)) = .map (announced names) := by
  have htext : (names.map Value.text).all isText = true := by
    simp only [List.all_map, List.all_eq_true]
    exact fun _ _ => rfl
  have henable : (names.map Value.text).filterMap enable =
      names.map fun name => (.text name, .bool true) := by
    rw [List.filterMap_map]
    exact congrFun List.filterMap_eq_map' names
  refine (if_pos htext).trans ?_
  rw [henable, announced]

theorem announced_form {names : List String} {entry : Value × Value}
    (h : entry ∈ announced names) : ∃ name flag, entry = (.text name, .bool flag) := by
  obtain h | rfl := mem_withClientPin h
  · obtain ⟨name, -, rfl⟩ := List.mem_map.mp h
    exact ⟨name, true, rfl⟩
  · exact ⟨"clientPin", false, rfl⟩

theorem enabled_announced (names : List String) : (announced names).filterMap enabled = names := by
  rw [announced, enabled_withClientPin, List.filterMap_map]
  exact List.filterMap_some

/-- The map of the capabilities is canonical but for its order. -/
theorem canonicalizeEntries_announced (names : List String) :
    canonicalizeEntries cbor (announced names) = announced names := by
  rw [canonicalizeEntries_eq, filterMap_eq_self_iff]
  intro entry hentry
  obtain ⟨name, flag, rfl⟩ := announced_form hentry
  have hname : canonicalizeCbor cbor (.text name) = .text name := by
    rw [canonicalizeCbor]
    all_goals
      intros
      contradiction
  have hflag : wire cbor (.bool flag) = some (.bool flag) := by
    rw [wire, canonicalizeCbor]
    all_goals
      intros
      contradiction
  rw [hname, hflag]
  rfl

variable (cbor) in
/-- The capabilities come back, in another order. -/
theorem carry_options (names : List String) :
    ∃ names' : List String, names'.Perm names ∧
      labels.carry cbor "options" (.array (names.map .text)) =
        some (.array (names'.map .text)) := by
  have hperm := List.mergeSort_perm (announced names) fun x y =>
    canonicalLe (cbor.intoWriter x.1) (cbor.intoWriter y.1)
  generalize hsorted : (announced names).mergeSort (fun x y =>
    canonicalLe (cbor.intoWriter x.1) (cbor.intoWriter y.1)) = sorted at hperm
  refine ⟨sorted.filterMap enabled, ?_, ?_⟩
  · have hnames := hperm.filterMap enabled
    rwa [enabled_announced] at hnames
  · have hwire : wire cbor (writeOptions (.array (names.map .text))) = some (.map sorted) := by
      rw [writeOptions_names]
      show some (canonicalizeCbor cbor (.map (announced names))) = _
      rw [canonicalizeCbor, canonicalizeEntries_announced, hsorted]
    have hflags : (sorted.all fun option => isFlag option.2) = true := by
      refine List.all_eq_true.mpr fun option hoption => ?_
      obtain ⟨_, _, rfl⟩ := announced_form (hperm.mem_iff.mp hoption)
      rfl
    have hread : readOptions (.map sorted) = .array ((sorted.filterMap enabled).map .text) :=
      if_pos hflags
    show (wire cbor (writeOptions (.array (names.map .text)))).map readOptions = _
    rw [hwire, Option.map_some, hread]

/-- The numbers are in range, and no message size is given. -/
def Kept (info : GetInfoResponse) : Prop :=
  info.maxMsgSize = 0 ∧ info.rpCount = 0 ∧
    (∀ protocol ∈ info.pinUvAuthProtocols, protocol < 2 ^ 8) ∧
      info.maxCredBlobLength < 2 ^ 32 ∧ info.maxCredentialIdLength < 2 ^ 16 ∧
        info.maxCredentialCount < 2 ^ 16 ∧ info.firmwareVersion < 2 ^ 32 ∧
          (∀ algorithm ∈ info.algorithms, CoseAlgorithmEntry.Kept algorithm) ∧
            ∀ size, info.maxLargeBlobDataSize = some size → size < 2 ^ 32

theorem read_eq_some_iff {values : String → Option Value} {info : GetInfoResponse} :
    read lenient values = some info ↔
      versions.take values = some info.versions ∧
      extensions.take values = some info.extensions ∧
      aaguid.take values = some info.aaguid ∧ options.take values = some info.options ∧
      pinUvAuthProtocols.take values = some info.pinUvAuthProtocols ∧
      maxMsgSize.take values = some info.maxMsgSize ∧ rpCount.take values = some info.rpCount ∧
      maxCredBlobLength.take values = some info.maxCredBlobLength ∧
      maxCredentialIdLength.take values = some info.maxCredentialIdLength ∧
      maxCredentialCount.take values = some info.maxCredentialCount ∧
      firmwareVersion.take values = some info.firmwareVersion ∧
      (algorithms lenient).take values = some info.algorithms ∧
      (security lenient).take values = some info.security ∧
      maxLargeBlobDataSize.take values = some info.maxLargeBlobDataSize := by
  constructor
  · intro h
    obtain ⟨_, hversions, h⟩ := Option.bind_eq_some_iff.mp h
    obtain ⟨_, hextensions, h⟩ := Option.bind_eq_some_iff.mp h
    obtain ⟨_, haaguid, h⟩ := Option.bind_eq_some_iff.mp h
    obtain ⟨_, hoptions, h⟩ := Option.bind_eq_some_iff.mp h
    obtain ⟨_, hprotocols, h⟩ := Option.bind_eq_some_iff.mp h
    obtain ⟨_, hsize, h⟩ := Option.bind_eq_some_iff.mp h
    obtain ⟨_, hcount, h⟩ := Option.bind_eq_some_iff.mp h
    obtain ⟨_, hblob, h⟩ := Option.bind_eq_some_iff.mp h
    obtain ⟨_, hid, h⟩ := Option.bind_eq_some_iff.mp h
    obtain ⟨_, hcredentials, h⟩ := Option.bind_eq_some_iff.mp h
    obtain ⟨_, hfirmware, h⟩ := Option.bind_eq_some_iff.mp h
    obtain ⟨_, halgorithms, h⟩ := Option.bind_eq_some_iff.mp h
    obtain ⟨_, hsecurity, h⟩ := Option.bind_eq_some_iff.mp h
    obtain ⟨_, hblobs, h⟩ := Option.bind_eq_some_iff.mp h
    obtain rfl := Option.some.inj h
    exact ⟨hversions, hextensions, haaguid, hoptions, hprotocols, hsize, hcount, hblob, hid,
      hcredentials, hfirmware, halgorithms, hsecurity, hblobs⟩
  · intro h
    obtain ⟨hversions, hextensions, haaguid, hoptions, hprotocols, hsize, hcount, hblob, hid,
      hcredentials, hfirmware, halgorithms, hsecurity, hblobs⟩ := h
    refine Option.bind_eq_some_iff.mpr ⟨_, hversions, ?_⟩
    refine Option.bind_eq_some_iff.mpr ⟨_, hextensions, ?_⟩
    refine Option.bind_eq_some_iff.mpr ⟨_, haaguid, ?_⟩
    refine Option.bind_eq_some_iff.mpr ⟨_, hoptions, ?_⟩
    refine Option.bind_eq_some_iff.mpr ⟨_, hprotocols, ?_⟩
    refine Option.bind_eq_some_iff.mpr ⟨_, hsize, ?_⟩
    refine Option.bind_eq_some_iff.mpr ⟨_, hcount, ?_⟩
    refine Option.bind_eq_some_iff.mpr ⟨_, hblob, ?_⟩
    refine Option.bind_eq_some_iff.mpr ⟨_, hid, ?_⟩
    refine Option.bind_eq_some_iff.mpr ⟨_, hcredentials, ?_⟩
    refine Option.bind_eq_some_iff.mpr ⟨_, hfirmware, ?_⟩
    refine Option.bind_eq_some_iff.mpr ⟨_, halgorithms, ?_⟩
    refine Option.bind_eq_some_iff.mpr ⟨_, hsecurity, ?_⟩
    refine Option.bind_eq_some_iff.mpr ⟨_, hblobs, ?_⟩
    rfl

/-- The options are read as they arrive. -/
theorem take_options_iff {written : List (String × Option Value)} {names options : List String}
    (h : labels.fieldTrip cbor written "options" = some (.array (names.map .text))) :
    GetInfoResponse.options.take (labels.fieldTrip cbor written) = some options ↔
      options = names := by
  have hread : (names.map Value.text).mapM text.ofValue = some names :=
    (mapM_eq_some_iff names).mpr fun _ _ => rfl
  have htake : GetInfoResponse.options.take (labels.fieldTrip cbor written) = some names :=
    (congrArg GetInfoResponse.options.get h).trans hread
  rw [htake, Option.some.injEq, eq_comm]

/-- The message size is read as one that is missing, and the options as they arrive. -/
theorem returns_options_iff (info : GetInfoResponse) {names : List String}
    (hnames : labels.carry cbor "options" (.array (info.options.map .text)) =
      some (.array (names.map .text))) (options : List String) :
    Returns cbor labels (form lenient) info { info with options := options } ↔
      Kept info ∧ options = names := by
  refine (labels.returns_iff_of_named cbor (by intro; rfl) (by decide) (by decide) _ _).trans ?_
  refine (read_eq_some_iff lenient).trans ?_
  refine Iff.trans (and_congr
      (take_adapted_iff rfl (keeps_required _ (keeps_text.list present_text)) (by decide)
        (by decide)) <|
    and_congr
      (take_adapted_iff rfl (keeps_required _ (keeps_text.list present_text)) (by decide)
        (by decide)) <|
    and_congr (take_adapted_iff rfl (keeps_required _ keeps_byteString) (by decide) (by decide)) <|
    and_congr (take_options_iff hnames) <|
    and_congr
      (take_adapted_iff rfl
        (keeps_defaulted _ [] ((keeps_unsigned _).list (present_unsigned _)) (present_list _))
        (by decide) (by decide)) <|
    and_congr (labels.take_lost_iff cbor rfl rfl) <|
    and_congr (take_adapted_iff rfl (keeps_unsent _ u32 0) (by decide) (by decide)) <|
    and_congr
      (take_adapted_iff rfl (keeps_required _ (keeps_unsigned _)) (by decide) (by decide)) <|
    and_congr
      (take_adapted_iff rfl (keeps_required _ (keeps_unsigned _)) (by decide) (by decide)) <|
    and_congr
      (take_adapted_iff rfl (keeps_required _ (keeps_unsigned _)) (by decide) (by decide)) <|
    and_congr
      (take_adapted_iff rfl (keeps_required _ (keeps_unsigned _)) (by decide) (by decide)) <|
    and_congr
      (take_adapted_iff rfl (keeps_required _ ((CoseAlgorithmEntry.keeps lenient).list
          (CoseAlgorithmEntry.present lenient)))
        (by show "algorithms" ≠ "options"; decide)
        (by show labelOf _ "algorithms" ≠ some 4; decide)) <|
    and_congr
      (take_adapted_iff rfl (keeps_optional _ (SecurityFeatures.keeps lenient))
        (by show "security" ≠ "options"; decide)
        (by show labelOf _ "security" ≠ some 4; decide)) <|
    take_adapted_iff rfl (keeps_optional _ (keeps_unsigned _)) (by decide) (by decide)) ?_
  simp only [Kept, implies_true, true_and]
  tauto

theorem returns_iff (info : GetInfoResponse) :
    (∃ options, options.Perm info.options ∧
      Returns cbor labels (form lenient) info { info with options := options }) ↔ Kept info := by
  obtain ⟨names, hperm, hnames⟩ := carry_options cbor info.options
  constructor
  · intro h
    obtain ⟨options, -, hreturns⟩ := h
    exact ((returns_options_iff lenient info hnames options).mp hreturns).1
  · intro h
    exact ⟨names, hperm, (returns_options_iff lenient info hnames names).mpr ⟨h, rfl⟩⟩

end GetInfoResponse

/-! ## CredentialManagement -/

namespace CredsMetadataResponse

def existingResidentCredentialsCount : FieldForm Nat :=
  .required "existingResidentCredentialsCount" u32

def maxPossibleRemainingResidentCredentialsCount : FieldForm Nat :=
  .required "maxPossibleRemainingResidentCredentialsCount" u32

def form : Form CredsMetadataResponse :=
  structOf lenient
    (fun response => [
      existingResidentCredentialsCount.entry response.existingResidentCredentialsCount,
      maxPossibleRemainingResidentCredentialsCount.entry
        response.maxPossibleRemainingResidentCredentialsCount])
    ["existingResidentCredentialsCount",
      "maxPossibleRemainingResidentCredentialsCount"] fun values => do
      let existingResidentCredentialsCount ← existingResidentCredentialsCount.take values
      let maxPossibleRemainingResidentCredentialsCount ←
        maxPossibleRemainingResidentCredentialsCount.take values
      pure ⟨existingResidentCredentialsCount, maxPossibleRemainingResidentCredentialsCount⟩

def labels : Labels :=
  plainLabels
    (labelOf [("existingResidentCredentialsCount", 0x01),
      ("maxPossibleRemainingResidentCredentialsCount", 0x02)])
    (nameAt ["", "existingResidentCredentialsCount",
      "maxPossibleRemainingResidentCredentialsCount"])

/-- The numbers are in range. -/
def Kept (response : CredsMetadataResponse) : Prop :=
  response.existingResidentCredentialsCount < 2 ^ 32 ∧
    response.maxPossibleRemainingResidentCredentialsCount < 2 ^ 32

theorem returns_iff (response : CredsMetadataResponse) :
    Returns cbor labels (form lenient) response response ↔ Kept response := by
  refine (labels.returns_iff_of_named cbor (by intro; rfl) (by decide) (by decide) _ _).trans ?_
  obtain ⟨_, _⟩ := response
  simp only [bind, Option.bind_eq_some_iff, pure, Option.some.injEq, CredsMetadataResponse.mk.injEq,
    existsAndEq, and_true]
  refine Iff.trans (and_congr (take_plain_iff rfl (keeps_required _ (keeps_unsigned _))) <|
    take_plain_iff rfl (keeps_required _ (keeps_unsigned _))) ?_
  simp [Kept]

end CredsMetadataResponse

namespace EnumerateRpsEntryResponse

def rp : FieldForm RelyingParty := .required "rp" (RelyingParty.form lenient)

def rpIdHash : FieldForm Bytes := .required "rpIDHash" .byteString

def totalRps : FieldForm Nat := .required "totalRPs" u32

def form : Form EnumerateRpsEntryResponse :=
  structOf lenient
    (fun response => [(rp lenient).entry response.rp, rpIdHash.entry response.rpIdHash,
      totalRps.entry response.totalRps])
    ["rp", "rpIDHash", "totalRPs"] fun values => do
      let rp ← (rp lenient).take values
      let rpIdHash ← rpIdHash.take values
      let totalRps ← totalRps.take values
      pure ⟨rp, rpIdHash, totalRps⟩

/-- The names of the labels. -/
def name (number : Int) : Option String :=
  match toI64 number with
  | some 0x03 => some "rp"
  | some 0x04 => some "rpIDHash"
  | some 0x05 => some "totalRPs"
  | _ => none

def labels : Labels :=
  plainLabels (labelOf [("rp", 0x03), ("rpIDHash", 0x04), ("totalRPs", 0x05)]) name

/-- The number is in range. -/
def Kept (response : EnumerateRpsEntryResponse) : Prop :=
  response.totalRps < 2 ^ 32

theorem returns_iff (response : EnumerateRpsEntryResponse) :
    Returns cbor labels (form lenient) response response ↔ Kept response := by
  refine (labels.returns_iff_of_named cbor (by intro; rfl) (by decide) (by decide) _ _).trans ?_
  obtain ⟨_, _, _⟩ := response
  simp only [bind, Option.bind_eq_some_iff, pure, Option.some.injEq,
    EnumerateRpsEntryResponse.mk.injEq, existsAndEq, and_true]
  refine Iff.trans (and_congr (take_plain_iff rfl
      (keeps_required _ (RelyingParty.keeps lenient))) <|
    and_congr (take_plain_iff rfl (keeps_required _ keeps_byteString)) <|
    take_plain_iff rfl (keeps_required _ (keeps_unsigned _))) ?_
  simp [Kept]

end EnumerateRpsEntryResponse

namespace EnumerateCredentialsEntryResponse

def user : FieldForm User := .required "user" (User.form lenient)

def credentialId : FieldForm CredentialDescriptor :=
  .required "credentialId" (CredentialDescriptor.form lenient)

def publicKey : FieldForm Value := .required "publicKey" .raw

def totalCredentials : FieldForm Nat := .required "totalCredentials" u32

def credProtect : FieldForm (Option Nat) := .optional "credProtect" u8

def largeBlobKey : FieldForm (Option Bytes) := .helped "largeBlobKey" .byteString

def form : Form EnumerateCredentialsEntryResponse :=
  structOf lenient
    (fun response => [(user lenient).entry response.user,
      (credentialId lenient).entry response.credentialId, publicKey.entry response.publicKey,
      totalCredentials.entry response.totalCredentials, credProtect.entry response.credProtect,
      largeBlobKey.entry response.largeBlobKey])
    ["user", "credentialId", "publicKey", "totalCredentials", "credProtect",
      "largeBlobKey"] fun values => do
      let user ← (user lenient).take values
      let credentialId ← (credentialId lenient).take values
      let publicKey ← publicKey.take values
      let totalCredentials ← totalCredentials.take values
      let credProtect ← credProtect.take values
      let largeBlobKey ← largeBlobKey.take values
      pure ⟨user, credentialId, publicKey, totalCredentials, credProtect, largeBlobKey⟩

/-- The names of the labels. -/
def name (number : Int) : Option String :=
  match toI64 number with
  | some 0x06 => some "user"
  | some 0x07 => some "credentialId"
  | some 0x08 => some "publicKey"
  | some 0x09 => some "totalCredentials"
  | some 0x0A => some "credProtect"
  | some 0x0B => some "largeBlobKey"
  | _ => none

def labels : Labels :=
  plainLabels
    (labelOf [("user", 0x06), ("credentialId", 0x07), ("publicKey", 0x08),
      ("totalCredentials", 0x09), ("credProtect", 0x0A), ("largeBlobKey", 0x0B)])
    name

/-- The key is canonical, the numbers are in range, and there is a key for large blobs. -/
def Kept (cbor : Ciborium) (response : EnumerateCredentialsEntryResponse) : Prop :=
  Canonical cbor response.publicKey ∧ response.totalCredentials < 2 ^ 32 ∧
    (∀ level, response.credProtect = some level → level < 2 ^ 8) ∧
      response.largeBlobKey ≠ none

theorem returns_iff (response : EnumerateCredentialsEntryResponse) :
    Returns cbor labels (form lenient) response response ↔ Kept cbor response := by
  refine (labels.returns_iff_of_named cbor (by intro; rfl) (by decide) (by decide) _ _).trans ?_
  obtain ⟨_, _, _, _, _, _⟩ := response
  simp only [bind, Option.bind_eq_some_iff, pure, Option.some.injEq,
    EnumerateCredentialsEntryResponse.mk.injEq, existsAndEq, and_true]
  refine Iff.trans (and_congr (take_plain_iff rfl (keeps_required _ (User.keeps lenient))) <|
    and_congr (take_plain_iff rfl (keeps_required _ (CredentialDescriptor.keeps lenient))) <|
    and_congr (take_plain_iff rfl (keeps_required _ keeps_raw)) <|
    and_congr (take_plain_iff rfl (keeps_required _ (keeps_unsigned _))) <|
    and_congr (take_plain_iff rfl (keeps_optional _ (keeps_unsigned _))) <|
    take_plain_iff rfl (keeps_helped _ keeps_byteString)) ?_
  simp [Kept, Option.ne_none_iff_exists']

end EnumerateCredentialsEntryResponse

/-! ## LargeBlobs -/

namespace LargeBlobsResponse

def config : FieldForm (Option Bytes) := .optional "config" .byteString

def form : Form LargeBlobsResponse :=
  structOf lenient
    (fun response => [config.entry response.config])
    ["config"] fun values => do
      let config ← config.take values
      pure ⟨config⟩

def labels : Labels := plainLabels ctapKeyToInt fun _ => none

theorem returns (response : LargeBlobsResponse) :
    Returns cbor labels (form lenient) response response := by
  refine (labels.returns_iff_of_named cbor (by intro; rfl) (by decide) (by decide) _ _).mpr ?_
  obtain ⟨_⟩ := response
  simp only [bind, Option.bind_eq_some_iff, pure, Option.some.injEq, LargeBlobsResponse.mk.injEq,
    existsAndEq, and_true]
  exact (take_plain_iff rfl (keeps_optional "config" keeps_byteString)).mpr fun _ _ => trivial

end LargeBlobsResponse

end Serde

end OpenKey
