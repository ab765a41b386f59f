import OpenKey.Ctap2.ClientPin

/-!
# The extension hmac-secret

`crates/openkey-core/src/ctap2/hmac_secret.rs`: the session that a GetAssertion with the
extension opens, and the output it gives for one credential.
-/

namespace OpenKey

set_option autoImplicit false

/-- `SALT_LEN`. -/
def saltLen : Nat := 32

/-- `slice::chunks`; `fuel` bounds their number. -/
def chunks (size : Nat) : Nat → Bytes → List Bytes
  | 0, _ => []
  | fuel + 1, data => if data = [] then [] else
      data.take size :: chunks size fuel (data.drop size)

namespace HmacSecret

/-- `parse_make_credential`. -/
def parseMakeCredential : Value → Except Ctap2Error Bool
  | .bool flag => .ok flag
  | _ => .error .invalidParameter

/-- `GetRequest`. -/
structure GetRequest where
  keyAgreement : CoseEc2Key
  saltEnc : Bytes
  saltAuth : Bytes
  pinProtocol : Nat

/-- What `parse_get_assertion` has collected so far. -/
structure Parts where
  keyAgreement : Option CoseEc2Key
  saltEnc : Option Bytes
  saltAuth : Option Bytes
  pinProtocol : Nat

/-- `value_to_bytes`. -/
def valueToBytes : Value → Except Ctap2Error Bytes
  | .bytes bytes => .ok bytes
  | _ => .error .invalidParameter

/-- `value_to_u8`. -/
def valueToU8 : Value → Except Ctap2Error Nat
  | .integer number => ((toI64 number).bind toU8).elim (.error .invalidParameter) .ok
  | _ => .error .invalidParameter

/-- One turn of the loop of `parse_get_assertion`. -/
def Parts.collect (parts : Parts) (key value : Value) : Except Ctap2Error Parts :=
  match key with
  | .integer number =>
      match toI64OrZero number with
      | 1 => (CoseEc2Key.fromCoseValue value).map fun key => { parts with keyAgreement := some key }
      | 2 => (valueToBytes value).map fun bytes => { parts with saltEnc := some bytes }
      | 3 => (valueToBytes value).map fun bytes => { parts with saltAuth := some bytes }
      | 4 => (valueToU8 value).map fun n => { parts with pinProtocol := n }
      | _ => .ok parts
  | _ => .ok parts

/-- The loop of `parse_get_assertion`. -/
def Parts.collectAll (parts : Parts) : List (Value × Value) → Except Ctap2Error Parts
  | [] => .ok parts
  | (key, value) :: entries => do
      let parts ← parts.collect key value
      parts.collectAll entries

/-- `parse_get_assertion`; the protocol is 1 if it is absent. -/
def parseGetAssertion : Value → Except Ctap2Error GetRequest
  | .map entries => do
      let parts ← Parts.collectAll ⟨none, none, none, 1⟩ entries
      match parts.keyAgreement, parts.saltEnc, parts.saltAuth with
      | some key, some saltEnc, some saltAuth => .ok ⟨key, saltEnc, saltAuth, parts.pinProtocol⟩
      | _, _, _ => .error .missingParameter
  | _ => .error .invalidParameter

end HmacSecret

namespace Auth

variable {β : Type} [StorageBackend β]

/-- Consume the announced agreement key. -/
def takeAnnouncedKey : Ctap β Entropy := do
  let key ← Prog.act fun a => (a.pinAgreementKey, { a with pinAgreementKey := none })
  Prog.check fun _ => key.elim (.error .pinAuthInvalid) .ok

/-- The salts of a session, once the shared secret is known. -/
def openSession (prims : Primitives) (protocol : PinUvProtocol) (z : Bytes)
    (request : HmacSecret.GetRequest) : Except Ctap2Error HmacSecretSession := do
  let secret ← (protocol.kdf prims z).mapError fun _ => .pinAuthInvalid
  match protocol.verify prims secret request.saltEnc request.saltAuth with
  | .ok true =>
      match protocol.decrypt prims secret request.saltEnc with
      | .ok salts =>
          if salts.length = saltLen ∨ salts.length = saltLen * 2 then
            .ok ⟨secret, request.pinProtocol, salts⟩
          else .error .invalidParameter
      | .error _ => .error .invalidParameter
  | _ => .error .pinAuthInvalid

/-- `begin_session`. -/
def beginSession (request : HmacSecret.GetRequest) : Ctap β HmacSecretSession := do
  let protocol ← Prog.check fun _ =>
    (PinUvProtocol.new request.pinProtocol).elim (.error .invalidParameter) .ok
  let peerPoint ← Prog.check fun _ => request.keyAgreement.toUncompressed
  let key ← takeAnnouncedKey
  let z ← Prog.check fun a =>
    (a.crypto.prims.ecdhAgree key peerPoint).elim (.error .pinAuthInvalid) .ok
  Prog.check fun a => openSession a.crypto.prims protocol z request

/-- `session_output`: one HMAC per salt, encrypted for the platform. -/
def sessionOutput (session : HmacSecretSession) (credRandom : Bytes) : Ctap β Bytes := do
  let protocol ← Prog.check fun _ =>
    (PinUvProtocol.new session.pinProtocol).elim (.error .invalidParameter) .ok
  let outputs ← Prog.read fun a =>
    (chunks saltLen session.salts.length session.salts).flatMap fun salt =>
      a.crypto.computeHmac salt credRandom
  encryptWith protocol session.sharedSecret outputs

end Auth

end OpenKey
