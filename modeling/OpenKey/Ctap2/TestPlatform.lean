import OpenKey.Crypto.PinProtocolRoundTrip
import OpenKey.Ctap2.ClientPinForms
import OpenKey.Ctap2.ForcedPin
import OpenKey.Ctap2.RootKeys
import OpenKey.Ctap2.Token

/-!
# The platform's side of ClientPIN

`TestPlatform` of the tests in `crates/openkey-core/src/ctap2/client_pin.rs`: the counterpart that
asks for a key agreement and wraps a PIN under the secret both sides derive.

**The two sides agree (`refreshAgreement_agrees`).** After getKeyAgreement the secret of the
platform is the one the authenticator will derive from the public key of the platform.
-/

namespace OpenKey

open Prog (Keeps KeepsAt bind_eq_ok check_eq_ok ensure_eq_ok map_eq_ok)

set_option autoImplicit false

/-! ## What the algorithms promise -/

/-- P-256: a key has a point, and two keys agree from either side. -/
structure EcdhSound (prims : Primitives) : Prop where
  generates : ∀ key, ∃ x y : Bytes, prims.ecdhPublic key = some (0x04 :: x ++ y) ∧
    x.length = 32 ∧ y.length = 32
  agrees : ∀ {key peer : Entropy} {point peerPoint : Bytes}, prims.ecdhPublic key = some point →
    prims.ecdhPublic peer = some peerPoint →
    ∃ z, prims.ecdhAgree key peerPoint = some z ∧ prims.ecdhAgree peer point = some z

/-- HKDF-SHA-256 expands to thirty-two bytes. -/
def HkdfSound (prims : Primitives) : Prop :=
  ∀ ikm salt info, ∃ out, prims.hkdfSha256 ikm salt info 32 = some out ∧ out.length = 32

/-- The key derivation of both protocols succeeds. -/
theorem HkdfSound.kdf {prims : Primitives} (h : HkdfSound prims) (protocol : PinUvProtocol)
    (z : Bytes) : ∃ secret, protocol.kdf prims z = .ok secret ∧
      secret.length = protocol.secretLen := by
  cases protocol with
  | one => exact ⟨_, rfl, prims.length_sha256 z⟩
  | two =>
      obtain ⟨hmacKey, hhmac, hhmacLen⟩ := h z (List.replicate 32 0) [0x43, 0x54, 0x41, 0x50, 0x32,
        0x20, 0x48, 0x4d, 0x41, 0x43, 0x20, 0x6b, 0x65, 0x79]
      obtain ⟨aesKey, haes, haesLen⟩ := h z (List.replicate 32 0) [0x43, 0x54, 0x41, 0x50, 0x32,
        0x20, 0x41, 0x45, 0x53, 0x20, 0x6b, 0x65, 0x79]
      refine ⟨hmacKey ++ aesKey, ?_, ?_⟩
      · simp only [PinUvProtocol.kdf, hhmac, haes]
      · rw [List.length_append, hhmacLen, haesLen]
        rfl

namespace PinUvProtocol

variable {prims : Primitives}

theorem new_version (protocol : PinUvProtocol) : new protocol.version = some protocol := by
  cases protocol <;> rfl

/-- Under a secret, or under a token, every message has a MAC. -/
theorem authenticate_total {protocol : PinUvProtocol} {key : Bytes} (message : Bytes)
    (hkey : key.length = 32 ∨ key.length = protocol.secretLen) :
    ∃ mac, protocol.authenticate prims key message = .ok mac := by
  cases protocol with
  | one =>
      have hlength : key.length = 32 := hkey.elim id id
      exact ⟨_, if_neg (not_not.mpr hlength)⟩
  | two =>
      have hlength : ¬key.length < 32 := by
        have hsecretLen : PinUvProtocol.two.secretLen = 64 := rfl
        omega
      exact ⟨_, if_neg hlength⟩

/-- Encryption adds at most an initialisation vector. -/
theorem length_encrypt (haes : AesSound prims) {protocol : PinUvProtocol} {iv : Entropy}
    {secret plaintext ciphertext : Bytes}
    (h : protocol.encrypt prims iv secret plaintext = .ok ciphertext) :
    ciphertext.length ≤ plaintext.length + aesBlockLen := by
  have hcbc : ∀ {key iv ciphertext : Bytes},
      aes256CbcEncrypt prims key iv plaintext = .ok ciphertext →
      ciphertext.length = plaintext.length := by
    intro key iv ciphertext h
    obtain ⟨_, hcheck, rfl⟩ := Except.map_eq_ok.mp h
    obtain ⟨hkey, hiv, hdata⟩ := aes256CbcCheck_ok.mp hcheck
    obtain ⟨hblocks, hflat⟩ := aesBlocks_spec hdata (Nat.le_refl _)
    rw [cbcEncryptBlocks_eq, length_flatten_blocks ((haes.cipher hkey).ok_encrypt hblocks hiv),
      Cbc.length_encrypt, ← length_flatten_blocks hblocks, hflat]
  unfold encrypt at h
  split at h
  · cases h
  · cases protocol with
    | one =>
        dsimp only at h
        split at h
        · cases h
        · exact (hcbc h).trans_le (Nat.le_add_right _ _)
    | two =>
        dsimp only at h
        split at h
        · cases h
        · obtain ⟨encrypted, hencrypted, rfl⟩ := Except.map_eq_ok.mp h
          rw [List.length_append, iv.length_bytes, hcbc hencrypted, Nat.add_comm]

/-- A MAC is at most thirty-two bytes long. -/
theorem length_authenticate {protocol : PinUvProtocol} {key message mac : Bytes}
    (h : protocol.authenticate prims key message = .ok mac) : mac.length ≤ 32 := by
  unfold authenticate at h
  cases protocol with
  | one =>
      dsimp only at h
      split at h
      · cases h
      · cases h
        rw [List.length_take]
        omega
  | two =>
      dsimp only at h
      split at h
      · cases h
      · cases h
        rw [prims.length_hmacSha256]

end PinUvProtocol

/-! ## The wire form of a request -/

theorem CoseEc2Key.fromCoseValue_toCoseValue {key : CoseEc2Key} (hx : key.x.length = 32)
    (hy : key.y.length = 32) : fromCoseValue key.toCoseValue = .ok key := by
  simp [fromCoseValue, toCoseValue, Parts.collect, toI64OrZero, toI64, hx, hy]

namespace ClientPinRequest

/-- `encode_client_pin_request_array`, up to the writing of the value. -/
def toArray (request : ClientPinRequest) : Value :=
  .array [request.pinProtocol.elim .null fun n => .integer n, .integer request.subCommand,
    request.keyAgreement.elim .null CoseEc2Key.toCoseValue, request.pinAuth.elim .null .bytes,
    request.newPinEnc.elim .null .bytes, request.pinHashEnc.elim .null .bytes, .null, .null,
    request.permissions.elim .null fun p => .integer p.toNat, request.rpId.elim .null .text]

end ClientPinRequest

/-- The fields are short enough for the heads that CBOR writes before them. -/
structure ClientPinRequest.Fits (request : ClientPinRequest) : Prop where
  pinProtocol : ∀ n, request.pinProtocol = some n → n < 256
  subCommand : request.subCommand < 256
  keyAgreement : ∀ key, request.keyAgreement = some key →
    key.x.length < 2 ^ 64 ∧ key.y.length < 2 ^ 64
  pinAuth : ∀ bytes, request.pinAuth = some bytes → bytes.length < 2 ^ 64
  newPinEnc : ∀ bytes, request.newPinEnc = some bytes → bytes.length < 2 ^ 64
  pinHashEnc : ∀ bytes, request.pinHashEnc = some bytes → bytes.length < 2 ^ 64
  rpId : ∀ text, request.rpId = some text → (utf8 text).length < 2 ^ 64

/-- The library reads back what it has written of a request. -/
def ReadsRequests (cbor : Ciborium) : Prop :=
  ∀ request : ClientPinRequest, request.Fits → Serde.Exact cbor request.toArray

/-! ## The platform -/

/-- `TestPlatform`. -/
structure TestPlatform where
  protocol : PinUvProtocol
  /-- The uncompressed point of the platform's key. -/
  clientPublic : Bytes
  secret : Bytes

namespace TestPlatform

variable (prims : Primitives)

/-- `hash_pin`. -/
def hashPin (pin : Bytes) : Bytes := (prims.sha256 pin).take pinHashLen

/-- The request of `refresh_agreement`. -/
def askAgreement (protocol : PinUvProtocol) : ClientPinRequest :=
  { ClientPinRequest.default with pinProtocol := some protocol.version, subCommand := 0x02 }

/-- `refresh_agreement`, once the response is there, with the key that `generate` draws. -/
def refreshAgreement (protocol : PinUvProtocol) (key : Entropy) (response : ClientPinResponse) :
    Option TestPlatform := do
  let value ← response.keyAgreement
  let authenticatorCose ← (CoseEc2Key.fromCoseValue value).toOption
  let clientPublic ← prims.ecdhPublic key
  let point ← authenticatorCose.toUncompressed.toOption
  let z ← prims.ecdhAgree key point
  let secret ← (protocol.kdf prims z).toOption
  some ⟨protocol, clientPublic, secret⟩

variable (platform : TestPlatform)

/-- `request`. -/
def request (subCommand : Nat) : ClientPinRequest :=
  { ClientPinRequest.default with
    pinProtocol := some platform.protocol.version, subCommand := subCommand }

/-- The key in `request_with_key`. -/
def cose : CoseEc2Key :=
  ⟨(platform.clientPublic.drop 1).take 32, (platform.clientPublic.drop 33).take 32⟩

/-- `request_with_key`. -/
def requestWithKey (subCommand : Nat) : ClientPinRequest :=
  { platform.request subCommand with keyAgreement := some platform.cose }

/-- `encrypt`. -/
def encrypt (iv : Entropy) (plaintext : Bytes) : Option Bytes :=
  (platform.protocol.encrypt prims iv platform.secret plaintext).toOption

/-- `authenticate`. -/
def authenticate (message : Bytes) : Option Bytes :=
  (platform.protocol.authenticate prims platform.secret message).toOption

/-- `decrypt`. -/
def decrypt (ciphertext : Bytes) : Option Bytes :=
  (platform.protocol.decrypt prims platform.secret ciphertext).toOption

/-- The request of `set_pin`. -/
def setPin (iv : Entropy) (pin : Bytes) : Option ClientPinRequest := do
  let padded ← (zeroPadTo64 pin).toOption
  let newPinEnc ← platform.encrypt prims iv padded
  let pinAuth ← platform.authenticate prims newPinEnc
  some { platform.requestWithKey 0x03 with newPinEnc := some newPinEnc, pinAuth := some pinAuth }

/-- The request of `change_pin`. -/
def changePin (iv iv' : Entropy) (oldPin newPin : Bytes) : Option ClientPinRequest := do
  let pinHashEnc ← platform.encrypt prims iv (hashPin prims oldPin)
  let padded ← (zeroPadTo64 newPin).toOption
  let newPinEnc ← platform.encrypt prims iv' padded
  let pinAuth ← platform.authenticate prims (newPinEnc ++ pinHashEnc)
  some { platform.requestWithKey 0x04 with
    pinHashEnc := some pinHashEnc, newPinEnc := some newPinEnc, pinAuth := some pinAuth }

/-- The request of `get_pin_token`. -/
def getPinToken (iv : Entropy) (pin : Bytes) : Option ClientPinRequest := do
  let pinHashEnc ← platform.encrypt prims iv (hashPin prims pin)
  some { platform.requestWithKey 0x05 with pinHashEnc := some pinHashEnc }

/-- The request of `get_pin_token_with_permissions`. -/
def getPinTokenWithPermissions (iv : Entropy) (pin : Bytes) (permissions : UInt8)
    (rpId : Option String) : Option ClientPinRequest := do
  let pinHashEnc ← platform.encrypt prims iv (hashPin prims pin)
  some { platform.requestWithKey 0x09 with
    pinHashEnc := some pinHashEnc, permissions := some permissions, rpId := rpId }

end TestPlatform

/-! ## Reading the requests back -/

section Wire

open ClientPinRequest

variable {cbor : Ciborium} {data : Bytes} {platform : TestPlatform}

theorem valueToU8_version (protocol : PinUvProtocol) :
    valueToU8 (.integer (protocol.version : Nat)) = .ok protocol.version := by
  cases protocol <;> rfl

theorem valueToU8_of_lt {n : Nat} (hn : n < 256) : valueToU8 (.integer n) = .ok n := by
  have h64 : toI64 (n : Int) = some (n : Int) := if_pos (by omega)
  have h8 : toU8 (n : Int) = some n := if_pos (by omega)
  rw [valueToU8, h64, Option.bind_some, h8]
  rfl

/-- The request comes back from its wire form. -/
def Carried (cbor : Ciborium) (request : ClientPinRequest) : Prop :=
  Serde.Exact cbor request.toArray →
    ClientPinRequest.decode cbor (cbor.intoWriter request.toArray) = .ok request

/-- A request with a protocol and a subcommand, and no parameters yet. -/
def blankRequest (protocol : PinUvProtocol) (subCommand : Nat) : ClientPinRequest :=
  { ClientPinRequest.default with
    pinProtocol := some protocol.version, subCommand := subCommand }

theorem setIfPresent_some {request : ClientPinRequest} {field : Field} {item : Value}
    (h : present item = true) :
    setIfPresent request field (some item) = setField request field item := by
  rw [setIfPresent, Option.filter_some, if_pos h]

theorem setField_pinProtocol (request : ClientPinRequest) (value : Value) :
    setField request .pinProtocol value =
      (valueToU8 value).map fun n => { request with pinProtocol := some n } := rfl

theorem setField_subCommand_eq (request : ClientPinRequest) (value : Value) :
    setField request .subCommand value =
      (valueToU8 value).map fun n => { request with subCommand := n } := rfl

theorem ok_bind {ε α γ : Type} (a : α) (f : α → Except ε γ) :
    (Except.ok a >>= f : Except ε γ) = f a := rfl

theorem decodeFromArray_cons_cons (protocol subCommand : Value) (params : List Value) :
    decodeFromArray (protocol :: subCommand :: params) = (do
      let request ← setIfPresent ClientPinRequest.default .pinProtocol (some protocol)
      let request ← setIfPresent request .subCommand (some subCommand)
      let request ← takeFields request (positional request.subCommand) (params.filter present)
      takeExtra request (params.filter present)) := rfl

/-- After the first two items the parameters of the subcommand are read. -/
theorem decodeFromArray_take {protocol : PinUvProtocol} {subCommand : Nat} {params : List Value}
    {request : ClientPinRequest} (hsub : subCommand < 256)
    (htake : takeFields (blankRequest protocol subCommand) (positional subCommand)
      (params.filter present) = .ok request)
    (hkept : request.subCommand = subCommand)
    (hlen : (params.filter present).length ≤ (positional subCommand).length) :
    decodeFromArray (.integer protocol.version :: .integer subCommand :: params) =
      .ok request := by
  have hprotocol : setIfPresent ClientPinRequest.default .pinProtocol
      (some (.integer protocol.version)) =
        .ok { ClientPinRequest.default with pinProtocol := some protocol.version } := by
    rw [setIfPresent_some rfl, setField_pinProtocol, valueToU8_version, Except.map]
  have hsubCommand : setIfPresent
      { ClientPinRequest.default with pinProtocol := some protocol.version } .subCommand
        (some (.integer subCommand)) = .ok (blankRequest protocol subCommand) := by
    rw [setIfPresent_some rfl, setField_subCommand_eq, valueToU8_of_lt hsub, Except.map]
    rfl
  have hasks : (blankRequest protocol subCommand).subCommand = subCommand := rfl
  rw [decodeFromArray_cons_cons, hprotocol, ok_bind, hsubCommand, ok_bind, hasks, htake, ok_bind]
  exact takeExtra_eq (hkept ▸ hlen)

theorem carried_of_params {protocol : PinUvProtocol} (subCommand : Nat) {params : List Value}
    {request : ClientPinRequest} (hsub : subCommand < 256)
    (harray : request.toArray = .array (.integer protocol.version :: .integer subCommand :: params))
    (htake : takeFields (blankRequest protocol subCommand) (positional subCommand)
      (params.filter present) = .ok request)
    (hkept : request.subCommand = subCommand)
    (hlen : (params.filter present).length ≤ (positional subCommand).length) :
    Carried cbor request := by
  intro hexact
  have hread : readValue cbor (cbor.intoWriter request.toArray) = .ok (.array
      (.integer protocol.version :: .integer subCommand :: params)) := by
    rw [readValue, hexact, harray]
  rw [decode, hread, ok_bind]
  exact decodeFromArray_take hsub htake hkept hlen

theorem takeFields_cons {request next : ClientPinRequest} {field : Field} {item : Value}
    (h : setField request field item = .ok next) (fields : List Field) (items : List Value) :
    takeFields request (field :: fields) (item :: items) = takeFields next fields items := by
  rw [takeFields, h, ok_bind]

theorem setField_keyAgreement (request : ClientPinRequest) (platform : TestPlatform)
    (hlen : platform.clientPublic.length = 65) :
    setField request .keyAgreement platform.cose.toCoseValue =
      .ok { request with keyAgreement := some platform.cose } := by
  have hx : platform.cose.x.length = 32 := by simp [TestPlatform.cose, hlen]
  have hy : platform.cose.y.length = 32 := by simp [TestPlatform.cose, hlen]
  rw [setField, CoseEc2Key.fromCoseValue_toCoseValue hx hy]
  rfl

theorem setField_permissions (request : ClientPinRequest) (permissions : UInt8) :
    setField request .permissions (.integer permissions.toNat) =
      .ok { request with permissions := some permissions } := by
  rw [setField, valueToU8_of_lt permissions.toNat_lt, Except.map]
  simp

theorem carried_askAgreement (protocol : PinUvProtocol) :
    Carried cbor (TestPlatform.askAgreement protocol) :=
  carried_of_params 0x02 (by decide) rfl rfl rfl (Nat.zero_le _)

theorem fits_askAgreement (protocol : PinUvProtocol) :
    (TestPlatform.askAgreement protocol).Fits where
  pinProtocol n hn := by
    cases hn
    cases protocol <;> decide
  subCommand := by
    show 0x02 < 256
    decide
  keyAgreement := nofun
  pinAuth := nofun
  newPinEnc := nofun
  pinHashEnc := nofun
  rpId := nofun

theorem carried_setPin {prims : Primitives} {iv : Entropy} {pin : Bytes}
    {request : ClientPinRequest} (hlen : platform.clientPublic.length = 65)
    (h : platform.setPin prims iv pin = some request) : Carried cbor request := by
  simp only [TestPlatform.setPin, Option.bind_eq_bind, Option.bind_eq_some_iff] at h
  obtain ⟨padded, -, newPinEnc, -, pinAuth, -, h⟩ := h
  cases h
  refine carried_of_params 0x03 (by decide) rfl ?_ rfl (Nat.le_refl _)
  exact (takeFields_cons (setField_keyAgreement _ platform hlen) _ _).trans rfl

theorem carried_changePin {prims : Primitives} {iv iv' : Entropy} {oldPin newPin : Bytes}
    {request : ClientPinRequest} (hlen : platform.clientPublic.length = 65)
    (h : platform.changePin prims iv iv' oldPin newPin = some request) :
    Carried cbor request := by
  simp only [TestPlatform.changePin, Option.bind_eq_bind, Option.bind_eq_some_iff] at h
  obtain ⟨pinHashEnc, -, padded, -, newPinEnc, -, pinAuth, -, h⟩ := h
  cases h
  refine carried_of_params 0x04 (by decide) rfl ?_ rfl (Nat.le_refl _)
  exact (takeFields_cons (setField_keyAgreement _ platform hlen) _ _).trans rfl

theorem carried_getPinToken {prims : Primitives} {iv : Entropy} {pin : Bytes}
    {request : ClientPinRequest} (hlen : platform.clientPublic.length = 65)
    (h : platform.getPinToken prims iv pin = some request) : Carried cbor request := by
  simp only [TestPlatform.getPinToken, Option.bind_eq_bind, Option.bind_eq_some_iff] at h
  obtain ⟨pinHashEnc, -, h⟩ := h
  cases h
  refine carried_of_params 0x05 (by decide) rfl ?_ rfl (Nat.le_refl _)
  exact (takeFields_cons (setField_keyAgreement _ platform hlen) _ _).trans rfl

theorem carried_getPinTokenWithPermissions {prims : Primitives} {iv : Entropy} {pin : Bytes}
    {permissions : UInt8} {rpId : Option String} {request : ClientPinRequest}
    (hlen : platform.clientPublic.length = 65)
    (h : platform.getPinTokenWithPermissions prims iv pin permissions rpId = some request) :
    Carried cbor request := by
  simp only [TestPlatform.getPinTokenWithPermissions, Option.bind_eq_bind,
    Option.bind_eq_some_iff] at h
  obtain ⟨pinHashEnc, -, h⟩ := h
  cases h
  -- a relying party that is not named is an item that is filtered out
  cases rpId with
  | none =>
      refine carried_of_params 0x09 (by decide) rfl ?_ rfl (Nat.le_succ _)
      exact (takeFields_cons (setField_keyAgreement _ platform hlen) _ _).trans <|
        (takeFields_cons rfl _ _).trans <|
        (takeFields_cons (setField_permissions _ permissions) _ _).trans rfl
  | some rpId =>
      refine carried_of_params 0x09 (by decide) rfl ?_ rfl (Nat.le_refl _)
      exact (takeFields_cons (setField_keyAgreement _ platform hlen) _ _).trans <|
        (takeFields_cons rfl _ _).trans <|
        (takeFields_cons (setField_permissions _ permissions) _ _).trans rfl

end Wire

/-! ## The agreement -/

namespace Auth

variable {β : Type} [StorageBackend β] [LawfulBackend β] {build : Build}

/-- `send`: encode the request and have it handled. -/
def send (build : Build) (request : ClientPinRequest) : Ctap β ClientPinResponse :=
  handleClientPin build (build.cbor.intoWriter request.toArray)

omit [LawfulBackend β] in
theorem run_send {request : ClientPinRequest} (hcarried : Carried build.cbor request)
    (hexact : Serde.Exact build.cbor request.toArray) (a : Auth β) :
    (send build request).run a = (clientPinSubCommand request).run a :=
  Prog.run_bind_of_ok (Prod.ext (hcarried hexact) rfl)

/-- The authenticator would derive the secret that the platform has. -/
structure Agreed (a : Auth β) (platform : TestPlatform) : Prop where
  point : platform.clientPublic.length = 65
  length : platform.secret.length = platform.protocol.secretLen
  secret : a.agreedSecret platform.protocol platform.cose = some platform.secret

/-- The two coordinates of an uncompressed point. -/
theorem coordinates {x y : Bytes} (hx : x.length = 32) (hy : y.length = 32) :
    (((0x04 : UInt8) :: x ++ y).drop 1).take 32 = x ∧
      (((0x04 : UInt8) :: x ++ y).drop 33).take 32 = y := by
  constructor
  · show (x ++ y).take 32 = x
    exact List.take_left' hx
  · show ((x ++ y).drop 32).take 32 = y
    rw [List.drop_left' hx, List.take_of_length_le (Nat.le_of_eq hy)]

theorem toUncompressed_coordinates {x y : Bytes} (hx : x.length = 32) (hy : y.length = 32) :
    CoseEc2Key.toUncompressed ⟨x, y⟩ = .ok (0x04 :: x ++ y) := by
  simp [CoseEc2Key.toUncompressed, hx, hy]

omit [LawfulBackend β] in
/-- getKeyAgreement announces the point of a new key. -/
theorem run_askAgreement (protocol : PinUvProtocol) {a : Auth β} {x y : Bytes}
    (hpublic : a.crypto.prims.ecdhPublic (a.rng 0) = some (0x04 :: x ++ y))
    (hx : x.length = 32) (hy : y.length = 32) :
    (clientPinSubCommand (TestPlatform.askAgreement protocol)).run a =
      (.ok { ClientPinResponse.default with keyAgreement := some (CoseEc2Key.toCoseValue ⟨x, y⟩) },
        { a with rng := fun n => a.rng (n + 1), pinAgreementKey := some (a.rng 0) }) := by
  obtain ⟨hfirst, hsecond⟩ := coordinates hx hy
  have hprotocol : (validateProtocol (some protocol.version)).run a = (.ok protocol, a) :=
    run_validateProtocol rfl protocol.new_version a
  have hdraw : (draw : Ctap β Entropy).run a =
      (.ok (a.rng 0), { a with rng := fun n => a.rng (n + 1) }) := rfl
  have hpoint : (Prog.check fun b : Auth β => (b.crypto.prims.ecdhPublic (a.rng 0)).elim
      (.error Ctap2Error.unknown) Except.ok).run { a with rng := fun n => a.rng (n + 1) } =
        (.ok (0x04 :: x ++ y), { a with rng := fun n => a.rng (n + 1) }) := by
    refine Prod.ext ?_ rfl
    show (a.crypto.prims.ecdhPublic (a.rng 0)).elim _ _ = _
    rw [hpublic]
    rfl
  show (handleGetKeyAgreement _).run a = _
  refine (Prog.run_bind_of_ok hprotocol).trans <| (Prog.run_bind_of_ok hdraw).trans <|
    (Prog.run_bind_of_ok hpoint).trans ?_
  rw [hfirst, hsecond]
  rfl

omit [LawfulBackend β] in
/-- After getKeyAgreement both sides have the same secret, and nothing else has happened. -/
theorem refreshAgreement_agrees {a : Auth β} (hecdh : EcdhSound a.crypto.prims)
    (hhkdf : HkdfSound a.crypto.prims) (protocol : PinUvProtocol) (key : Entropy) :
    ∃ response platform b,
      (clientPinSubCommand (TestPlatform.askAgreement protocol)).run a = (.ok response, b) ∧
      TestPlatform.refreshAgreement a.crypto.prims protocol key response = some platform ∧
      platform.protocol = protocol ∧ b.core = a.core ∧ b.Agreed platform := by
  obtain ⟨x, y, hpublic, hx, hy⟩ := hecdh.generates (a.rng 0)
  obtain ⟨x', y', hpublic', hx', hy'⟩ := hecdh.generates key
  obtain ⟨z, hdevice, hplatform⟩ := hecdh.agrees hpublic hpublic'
  obtain ⟨secret, hsecret, hlength⟩ := hhkdf.kdf protocol z
  have hcose : (⟨protocol, 0x04 :: x' ++ y', secret⟩ : TestPlatform).cose = ⟨x', y'⟩ := by
    obtain ⟨hfirst, hsecond⟩ := coordinates hx' hy'
    rw [TestPlatform.cose, hfirst, hsecond]
  refine ⟨_, ⟨protocol, 0x04 :: x' ++ y', secret⟩, _, run_askAgreement protocol hpublic hx hy,
    ?_, rfl, rfl, ?_, hlength, ?_⟩
  · have hread : CoseEc2Key.fromCoseValue (CoseEc2Key.toCoseValue ⟨x, y⟩) = .ok ⟨x, y⟩ :=
      CoseEc2Key.fromCoseValue_toCoseValue hx hy
    simp only [TestPlatform.refreshAgreement, Option.bind_eq_bind, Option.bind_some, hread,
      Except.toOption, toUncompressed_coordinates hx hy, hpublic', hplatform, hsecret]
  · simp [hx', hy']
  · simp only [agreedSecret, hcose, toUncompressed_coordinates hx' hy', Except.toOption,
      Option.bind_eq_bind, Option.bind_some, Option.getD_some, hdevice, hsecret]

end Auth

end OpenKey
