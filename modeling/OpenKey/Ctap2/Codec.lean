import OpenKey.Ctap2.Types
import OpenKey.Storage.Engine

/-!
# Decoding requests

`decode_cbor`, `encode_cbor` and the key tables of `crates/openkey-core/src/ctap2/ctap2.rs`. The
CBOR reader and writer are the crate `ciborium`, and the decoders of the request structures are
derived by `serde`; both are gathered in `Ciborium`.
-/

namespace OpenKey

set_option autoImplicit false

/-- The CBOR library and the derived decoders. `none` is the failure of a call. -/
structure Ciborium where
  /-- `from_reader`: a value and the bytes left over. -/
  fromReader : Bytes → Option (Value × Bytes)
  /-- `into_writer`, into a vector. -/
  intoWriter : Value → Bytes
  makeCredentialRequest : Bytes → Option MakeCredentialRequest
  getAssertionRequest : Bytes → Option GetAssertionRequest
  bioEnrollRequest : Bytes → Option BioEnrollRequest
  credentialManagementRequest : Bytes → Option CredentialManagementRequest
  largeBlobsRequest : Bytes → Option LargeBlobsRequest

/-! ## Integers -/

/-- `i64::try_from`. -/
def toI64 (number : Int) : Option Int :=
  if -2 ^ 63 ≤ number ∧ number < 2 ^ 63 then some number else none

/-- `i64::try_from(..).unwrap_or_default()`. -/
def toI64OrZero (number : Int) : Int := (toI64 number).getD 0

/-- `u8::try_from`. -/
def toU8 (number : Int) : Option Nat :=
  if 0 ≤ number ∧ number < 256 then some number.toNat else none

/-! ## Key tables -/

/-- The request types `decode_cbor` is used at, by their type name. -/
inductive RequestType
  | makeCredential
  | getAssertion
  | bioEnroll
  | credentialManagement
  | largeBlobs
  deriving DecidableEq, Repr

/-- The field names of a request, at the index that is their integer key. -/
def RequestType.labels : RequestType → List String
  | .makeCredential =>
      ["", "clientDataHash", "rp", "user", "pubKeyCredParams", "excludeList", "extensions",
        "options", "pinUvAuthParam", "pinUvAuthProtocol", "enterpriseAttestation"]
  | .getAssertion =>
      ["", "rpId", "clientDataHash", "allowList", "extensions", "options", "pinUvAuthParam",
        "pinUvAuthProtocol"]
  | .bioEnroll => ["", "", "subCommand", "subCommandParams"]
  | .credentialManagement =>
      ["", "subCommand", "subCommandParams", "pinUvAuthProtocol", "pinUvAuthParam"]
  | .largeBlobs => []

/-- The field an integer key stands for; the index is cast to `usize`. -/
def RequestType.label (type : RequestType) (number : Int) : Option String :=
  ((toI64 number).bind fun n => type.labels[(n % usizeRange).toNat]?).filter (· ≠ "")

/-- The names of the parameters of credential management. -/
def credMgmtParamLabel (number : Int) : Option String :=
  match toI64 number with
  | some 1 => some "rpIDHash"
  | some 2 => some "credentialId"
  | some 3 => some "user"
  | _ => none

/-- Replace an integer key by its name, if it has one. -/
def renameKey (label : Int → Option String) : Value → Value
  | .integer number => (label number).elim (.integer number) .text
  | key => key

/-- The value of a top-level entry: the parameters of credential management are renamed too. -/
def rootCtapValue (type : RequestType) (key value : Value) : Value :=
  match type, key, value with
  | .credentialManagement, .integer 2, .map params =>
      .map (params.map fun entry => (renameKey credMgmtParamLabel entry.1, entry.2))
  | _, _, value => value

/-- `root_ctap_keys`, when decoding. -/
def rootCtapKeys (type : RequestType) : Value → Value
  | .map entries =>
      .map (entries.map fun entry =>
        (renameKey type.label entry.1, rootCtapValue type entry.1 entry.2))
  | value => value

/-! ## The canonical form -/

/-- Canonical order: shorter encodings first, then bytewise. -/
def canonicalLe (a b : Bytes) : Bool :=
  decide (a.length < b.length) || (decide (a.length = b.length) && decide (a ≤ b))

mutual

/-- `canonicalize_cbor`. -/
def canonicalizeCbor (cbor : Ciborium) : Value → Value
  | .map entries =>
      .map (((canonicalizeEntries cbor entries).mergeSort fun a b =>
        canonicalLe (cbor.intoWriter a.1) (cbor.intoWriter b.1)))
  | .array items => .array (canonicalizeItems cbor items)
  | value => value

/-- The items of an array. -/
def canonicalizeItems (cbor : Ciborium) : List Value → List Value
  | [] => []
  | item :: items => canonicalizeCbor cbor item :: canonicalizeItems cbor items

/-- The entries of a map; those whose value is null are dropped. -/
def canonicalizeEntries (cbor : Ciborium) : List (Value × Value) → List (Value × Value)
  | [] => []
  | (_, .null) :: entries => canonicalizeEntries cbor entries
  | (key, value) :: entries =>
      (canonicalizeCbor cbor key, canonicalizeCbor cbor value) :: canonicalizeEntries cbor entries

end

/-- `encode_cbor` of a map with integer keys, which the key tables leave alone. -/
def encodeCbor (cbor : Ciborium) (value : Value) : Except Ctap2Error Bytes :=
  match cbor.fromReader (cbor.intoWriter value) with
  | some (parsed, _) => .ok (cbor.intoWriter (canonicalizeCbor cbor parsed))
  | none => .error .unknown

/-- The one value in a byte string, with nothing after it. -/
def readValue (cbor : Ciborium) (data : Bytes) : Except Ctap2Error Value :=
  match cbor.fromReader data with
  | some (value, []) => .ok value
  | _ => .error .invalidCbor

/-- `decode_cbor`, at the type whose derived decoder is `typed`. -/
def decodeCbor {α : Type} (cbor : Ciborium) (type : RequestType) (typed : Bytes → Option α)
    (data : Bytes) : Except Ctap2Error α := do
  let parsed ← readValue cbor data
  match typed (cbor.intoWriter (rootCtapKeys type parsed)) with
  | some request => .ok request
  | none => .error .invalidCbor

namespace Ciborium

variable (cbor : Ciborium)

/-- `decode_cbor::<MakeCredentialRequest>`. -/
def decodeMakeCredential (data : Bytes) : Except Ctap2Error MakeCredentialRequest :=
  decodeCbor cbor .makeCredential cbor.makeCredentialRequest data

/-- `decode_cbor::<GetAssertionRequest>`; the alias `allow_list` is skipped by the decoder. -/
def decodeGetAssertion (data : Bytes) : Except Ctap2Error GetAssertionRequest :=
  (decodeCbor cbor .getAssertion cbor.getAssertionRequest data).map
    fun request => { request with allowList := none }

/-- `decode_cbor::<BioEnrollRequest>`. -/
def decodeBioEnroll (data : Bytes) : Except Ctap2Error BioEnrollRequest :=
  decodeCbor cbor .bioEnroll cbor.bioEnrollRequest data

/-- `decode_cbor::<CredentialManagementRequest>`. -/
def decodeCredentialManagement (data : Bytes) : Except Ctap2Error CredentialManagementRequest :=
  decodeCbor cbor .credentialManagement cbor.credentialManagementRequest data

/-- `decode_cbor::<LargeBlobsRequest>`. -/
def decodeLargeBlobs (data : Bytes) : Except Ctap2Error LargeBlobsRequest :=
  decodeCbor cbor .largeBlobs cbor.largeBlobsRequest data

end Ciborium

end OpenKey
