import OpenKey.Ctap2.ResponseForms
import OpenKey.Ctap2.Sample

/-!
# Round trips of the codec

`decode_cbor` after `encode_cbor`, at every structure the two are used at (`RootType`).

**Round trip (`codec_returns_iff`).** Of a value that the library carries, the codec gives the same
value back, up to the order of the options of `GetInfoResponse`, if and only if the value is kept
(`RootType.Kept`): its numbers are in range and its raw values canonical, what is never sent has its
default, and no field is present whose labels disagree in the two tables. There is such a field in
four structures (`codec_drifts`).
-/

namespace OpenKey

set_option autoImplicit false

namespace Serde

/-- The structures that are encoded and decoded at the root of a message, by their type name. -/
inductive RootType
  | makeCredentialRequest
  | makeCredentialResponse
  | getAssertionRequest
  | getAssertionResponse
  | getInfoResponse
  | credentialManagementRequest
  | credsMetadataResponse
  | enumerateRpsEntryResponse
  | enumerateCredentialsEntryResponse
  | largeBlobsRequest
  | largeBlobsResponse
  deriving DecidableEq, Repr

namespace RootType

def Struct : RootType → Type
  | .makeCredentialRequest => MakeCredentialRequest
  | .makeCredentialResponse => MakeCredentialResponse
  | .getAssertionRequest => GetAssertionRequest
  | .getAssertionResponse => GetAssertionResponse
  | .getInfoResponse => GetInfoResponse
  | .credentialManagementRequest => CredentialManagementRequest
  | .credsMetadataResponse => CredsMetadataResponse
  | .enumerateRpsEntryResponse => EnumerateRpsEntryResponse
  | .enumerateCredentialsEntryResponse => EnumerateCredentialsEntryResponse
  | .largeBlobsRequest => LargeBlobsRequest
  | .largeBlobsResponse => LargeBlobsResponse

def labels : RootType → Labels
  | .makeCredentialRequest => MakeCredentialRequest.labels
  | .makeCredentialResponse => MakeCredentialResponse.labels
  | .getAssertionRequest => GetAssertionRequest.labels
  | .getAssertionResponse => GetAssertionResponse.labels
  | .getInfoResponse => GetInfoResponse.labels
  | .credentialManagementRequest => CredentialManagementRequest.labels
  | .credsMetadataResponse => CredsMetadataResponse.labels
  | .enumerateRpsEntryResponse => EnumerateRpsEntryResponse.labels
  | .enumerateCredentialsEntryResponse => EnumerateCredentialsEntryResponse.labels
  | .largeBlobsRequest => LargeBlobsRequest.labels
  | .largeBlobsResponse => LargeBlobsResponse.labels

def form (lenient : Bool) : (type : RootType) → Form type.Struct
  | .makeCredentialRequest => MakeCredentialRequest.form lenient
  | .makeCredentialResponse => MakeCredentialResponse.form lenient
  | .getAssertionRequest => GetAssertionRequest.form lenient
  | .getAssertionResponse => GetAssertionResponse.form lenient
  | .getInfoResponse => GetInfoResponse.form lenient
  | .credentialManagementRequest => CredentialManagementRequest.form lenient
  | .credsMetadataResponse => CredsMetadataResponse.form lenient
  | .enumerateRpsEntryResponse => EnumerateRpsEntryResponse.form lenient
  | .enumerateCredentialsEntryResponse => EnumerateCredentialsEntryResponse.form lenient
  | .largeBlobsRequest => LargeBlobsRequest.form lenient
  | .largeBlobsResponse => LargeBlobsResponse.form lenient

/-- The values that the codec gives back. -/
def Kept (cbor : Ciborium) : (type : RootType) → type.Struct → Prop
  | .makeCredentialRequest => MakeCredentialRequest.Kept cbor
  | .makeCredentialResponse => MakeCredentialResponse.Kept cbor
  | .getAssertionRequest => GetAssertionRequest.Kept cbor
  | .getAssertionResponse => GetAssertionResponse.Kept cbor
  | .getInfoResponse => GetInfoResponse.Kept
  | .credentialManagementRequest => CredentialManagementRequest.Kept
  | .credsMetadataResponse => CredsMetadataResponse.Kept
  | .enumerateRpsEntryResponse => EnumerateRpsEntryResponse.Kept
  | .enumerateCredentialsEntryResponse => EnumerateCredentialsEntryResponse.Kept cbor
  | .largeBlobsRequest => LargeBlobsRequest.Kept
  | .largeBlobsResponse => fun _ => True

/-- The same value, up to the order of the options of `GetInfoResponse`. -/
def Same : (type : RootType) → type.Struct → type.Struct → Prop
  | .getInfoResponse, info, other =>
      ∃ options : List String, options.Perm info.options ∧ other = { info with options := options }
  | _, a, b => b = a

/-- The same value comes back if and only if it is kept. -/
theorem returns_iff (cbor : Ciborium) (lenient : Bool) (type : RootType) (a : type.Struct) :
    (∃ b, type.Same a b ∧ Returns cbor type.labels (type.form lenient) a b) ↔
      type.Kept cbor a := by
  cases type with
  | makeCredentialRequest =>
      exact exists_eq_left.trans (MakeCredentialRequest.returns_iff lenient a)
  | makeCredentialResponse =>
      exact exists_eq_left.trans (MakeCredentialResponse.returns_iff lenient a)
  | getAssertionRequest =>
      exact exists_eq_left.trans (GetAssertionRequest.returns_iff lenient a)
  | getAssertionResponse =>
      exact exists_eq_left.trans (GetAssertionResponse.returns_iff lenient a)
  | getInfoResponse =>
      refine Iff.trans ?_ (@GetInfoResponse.returns_iff cbor lenient a)
      constructor
      · intro h
        obtain ⟨_, ⟨options, hperm, rfl⟩, hreturns⟩ := h
        exact ⟨options, hperm, hreturns⟩
      · intro h
        obtain ⟨options, hperm, hreturns⟩ := h
        exact ⟨_, ⟨options, hperm, rfl⟩, hreturns⟩
  | credentialManagementRequest =>
      exact exists_eq_left.trans (CredentialManagementRequest.returns_iff lenient a)
  | credsMetadataResponse =>
      exact exists_eq_left.trans (CredsMetadataResponse.returns_iff lenient a)
  | enumerateRpsEntryResponse =>
      exact exists_eq_left.trans (EnumerateRpsEntryResponse.returns_iff lenient a)
  | enumerateCredentialsEntryResponse =>
      exact exists_eq_left.trans (EnumerateCredentialsEntryResponse.returns_iff lenient a)
  | largeBlobsRequest =>
      exact exists_eq_left.trans (LargeBlobsRequest.returns_iff lenient a)
  | largeBlobsResponse =>
      exact exists_eq_left.trans (iff_true_intro (LargeBlobsResponse.returns lenient a))

end RootType

/-! ## A response with and without extension outputs -/

/-- Entries that are in order once they are canonical. -/
theorem canonicalize_of_ordered {cbor : Ciborium} {entries canonical : List (Value × Value)}
    (h : canonicalizeEntries cbor entries = canonical)
    (hordered : canonical.Pairwise fun x y =>
      canonicalLe (cbor.intoWriter x.1) (cbor.intoWriter y.1) = true) :
    canonicalizeCbor cbor (.map entries) = .map canonical := by
  rw [canonicalizeCbor, h, List.mergeSort_of_pairwise hordered]

/-- A response without a statement. -/
def sampleResponse (extensions : Option OpenKey.ExtensionOutputs) :
    RootType.makeCredentialResponse.Struct :=
  OpenKey.MakeCredentialResponse.mk "none" [] [] extensions

/-- Its entries in the message. -/
def sampleEntries : List (Value × Value) :=
  [(.integer 1, .text "none"), (.integer 2, .bytes []), (.integer 3, .map [])]

theorem canonicalize_sampleResponse : canonicalizeCbor sampleCbor
    (MakeCredentialResponse.labels.encodeKeys
      ((MakeCredentialResponse.form false).toValue (sampleResponse none))) =
        .map sampleEntries := by
  refine canonicalize_of_ordered ?_ (by decide)
  show canonicalizeEntries sampleCbor sampleEntries = sampleEntries
  simp [canonicalizeEntries, canonicalizeCbor, sampleEntries]

theorem canonicalize_sampleResponse_extensions : canonicalizeCbor sampleCbor
    (MakeCredentialResponse.labels.encodeKeys
      ((MakeCredentialResponse.form false).toValue (sampleResponse (some .default)))) =
        .map (sampleEntries ++ [(.integer 6, .map [])]) := by
  refine canonicalize_of_ordered ?_ (by decide)
  show canonicalizeEntries sampleCbor (sampleEntries ++ [(.integer 6,
    .map [(.text "credProtect", .null), (.text "minPinLength", .null),
      (.text "hmac-secret", .null)])]) = _
  simp [canonicalizeEntries, canonicalizeCbor, sampleEntries]

/-- The library carries the response. -/
theorem carries_sampleResponse : Carries sampleCbor MakeCredentialResponse.labels
    (MakeCredentialResponse.form false) (sampleResponse none) where
  typed := rfl
  encoded := by
    rw [canonicalize_sampleResponse]
    rfl
  decoded := by
    rw [canonicalize_sampleResponse]
    rfl

theorem carries_sampleResponse_extensions : Carries sampleCbor MakeCredentialResponse.labels
    (MakeCredentialResponse.form false) (sampleResponse (some .default)) where
  typed := rfl
  encoded := by
    rw [canonicalize_sampleResponse_extensions]
    rfl
  decoded := by
    rw [canonicalize_sampleResponse_extensions]
    rfl

/-! ## Round trips -/

/-- `decode_cbor(encode_cbor(a))` is the same value if and only if it is kept. -/
theorem codec_returns_iff (cbor : Ciborium) (lenient : Bool) (type : RootType) (a : type.Struct)
    (h : Carries cbor type.labels (type.form lenient) a) :
    (∃ b, type.Same a b ∧ roundTrip cbor type.labels (type.form lenient) a = .ok b) ↔
      type.Kept cbor a := by
  rw [← RootType.returns_iff cbor lenient type a]
  exact exists_congr fun b => and_congr_right fun _ => roundTrip_eq_ok_iff cbor h

/-- A response without extension outputs comes back. -/
theorem codec_returns_without_extensions :
    ∃ b, RootType.makeCredentialResponse.Same (sampleResponse none) b ∧
      roundTrip sampleCbor RootType.makeCredentialResponse.labels
        (RootType.makeCredentialResponse.form false) (sampleResponse none) = .ok b :=
  (codec_returns_iff sampleCbor false .makeCredentialResponse (sampleResponse none)
    carries_sampleResponse).mpr ⟨List.Pairwise.nil, nofun, nofun, rfl⟩

/-- Extension outputs do not come back. -/
theorem codec_drifts : ¬∀ (cbor : Ciborium) (lenient : Bool) (type : RootType) (a : type.Struct),
    Carries cbor type.labels (type.form lenient) a →
      ∃ b, type.Same a b ∧ roundTrip cbor type.labels (type.form lenient) a = .ok b := by
  intro h
  obtain ⟨b, rfl, hround⟩ := h sampleCbor false .makeCredentialResponse
    (sampleResponse (some .default)) carries_sampleResponse_extensions
  have hreturns := (roundTrip_eq_ok_iff sampleCbor carries_sampleResponse_extensions).mp hround
  have hkept := (MakeCredentialResponse.returns_iff false _).mp hreturns
  obtain ⟨-, -, -, hnone⟩ := hkept
  cases hnone

end Serde

end OpenKey
