import OpenKey.Ctap2.Management

/-!
# Commands

`process_command` of `crates/openkey-core/src/ctap2/ctap2.rs`, and the runs of an authenticator:
commands one after the other, with power cycles between them.
-/

namespace OpenKey

set_option autoImplicit false

/-! ## GetInfo and GetVersion -/

/-- One component of a version. -/
def versionComponent (component : List Char) : Option Nat :=
  (parseUnsigned (2 ^ 32) (.ofList component)).filter (· < 1000)

/-- `firmware_version_to_ctap_integer`: three decimal digits per component. -/
def firmwareVersionToCtapInteger (version : String) : Except Ctap2Error Nat :=
  let numericCore := version.toList.takeWhile fun c => c ≠ '-' ∧ c ≠ '+'
  match (numericCore.splitOn '.').map versionComponent with
  | [some major, some minor, some patch] => .ok (major * 1000 ^ 2 + minor * 1000 + patch)
  | _ => .error .unknown

/-- Add an option that is not there yet. -/
def addOption (options : List String) (option : String) : List String :=
  if option ∈ options then options else options ++ [option]

/-- The algorithms GetInfo announces. -/
def announcedAlgorithms (build : Build) : List CoseAlgorithmEntry :=
  ([-7, -8, -35] ++ if build.rs256 then [-37, -257] else []).map fun alg => ⟨alg, "public-key"⟩

/-- `get_version`. -/
def getVersion : GetVersionResponse := ⟨"0.1.0", "0000000", "00000000"⟩

namespace Auth

variable {β : Type} [StorageBackend β] (build : Build)

/-- The options GetInfo announces. -/
def announcedOptions (a : Auth β) : List String :=
  let options :=
    if a.userVerification.isNone then a.capabilities.options.filter (· ≠ "uv")
    else a.capabilities.options
  if a.capabilities.pinUvAuthProtocols ≠ [] then
    let options := addOption options "pinUvAuthToken"
    if a.storage.isPinSet then addOption options "clientPin"
    else options.filter (· ≠ "clientPin")
  else options.filter fun option => option ≠ "clientPin" ∧ option ≠ "pinUvAuthToken"

/-- `get_info`. -/
def getInfo (a : Auth β) : Except Ctap2Error GetInfoResponse := do
  let firmwareVersion ← firmwareVersionToCtapInteger a.capabilities.firmwareVersion
  .ok
    { versions := a.capabilities.versions
      extensions := a.capabilities.extensions
      aaguid := a.capabilities.aaguid
      options := a.announcedOptions
      pinUvAuthProtocols := a.capabilities.pinUvAuthProtocols
      maxMsgSize := 1200
      rpCount := a.capabilities.rpCount
      maxCredBlobLength := a.capabilities.maxCredBlobLength
      maxCredentialIdLength := a.capabilities.maxCredentialIdLength
      maxCredentialCount := a.capabilities.maxCredentialCount
      firmwareVersion := firmwareVersion
      algorithms := announcedAlgorithms build
      security :=
        if a.capabilities.security.hasAnyFeatures then some a.capabilities.security else none
      maxLargeBlobDataSize := a.capabilities.maxLargeBlobDataSize }

/-! ## The other commands -/

/-- `handle_bio_enroll`: a stub that answers one subcommand. -/
def handleBioEnroll (data : Bytes) : Ctap β BioEnrollResponse := do
  let request ← Prog.check fun _ =>
    (build.cbor.decodeBioEnroll data).mapError fun _ => .invalidParameter
  Prog.ensure (fun _ => decide (request.subCommand = 0x03)) .unsupportedOption
  pure ⟨1, 5⟩

/-- Forget what is volatile, as Reset does. -/
def forget (a : Auth β) : Auth β :=
  { a with
    enumerateRpsState := none, credMgmtRpsState := none, credMgmtCredsState := none
    getNextAssertionState := none, pinUvAuthToken := none, pinAgreementKey := none
    pinSharedSecret := none, hmacSecretSession := none, pinFailuresSinceReset := 0 }

/-- `handle_reset`. -/
def handleReset : Ctap β Unit := do
  checkPresence
  persistIgnored .ordinary StorageEngine.clear
  persistIgnored .ordinary StorageEngine.clearLargeBlobs
  Prog.update forget

/-- Decode the request and make the credential. -/
def handleMakeCredential (data : Bytes) : Ctap β MakeCredentialResponse := do
  let request ← Prog.check fun _ => build.cbor.decodeMakeCredential data
  makeCredential build request

/-- Decode the request and assert. -/
def handleGetAssertion (data : Bytes) : Ctap β GetAssertionResponse := do
  let request ← Prog.check fun _ => build.cbor.decodeGetAssertion data
  getAssertion build request

/-- The handler of a command. -/
def dispatch (command : Ctap2Command) (data : Bytes) : Ctap β CtapResponse :=
  match command with
  | .makeCredential => CtapResponse.makeCredential <$> handleMakeCredential build data
  | .getAssertion => CtapResponse.getAssertion <$> handleGetAssertion build data
  | .getInfo => CtapResponse.getInfo <$> Prog.check fun a => a.getInfo build
  | .selection => pure (.getVersion OpenKey.getVersion)
  | .getVersion => pure (.getVersion OpenKey.getVersion)
  | .clientPin => CtapResponse.clientPin <$> handleClientPin build data
  | .reset => (fun _ => CtapResponse.empty) <$> handleReset
  | .getNextAssertion => CtapResponse.getAssertion <$> handleGetNextAssertion build
  | .bioEnroll => CtapResponse.bioEnroll <$> handleBioEnroll build data
  | .credentialManagement => handleCredentialManagement build data
  | .largeBlobs => CtapResponse.largeBlobs <$> handleLargeBlobs build data
  | .authenticatorConfig => (fun _ => CtapResponse.empty) <$> handleAuthnrConfig build data
  | .enumerateRpsInitial => CtapResponse.enumerateRps <$> handleEnumerateRpsInitial
  | .enumerateRpsNext => CtapResponse.enumerateRps <$> handleEnumerateRpsNext
  | .unknown _ => Prog.fail .invalidCommand

/-- `process_command`: every command but GetNextAssertion ends the hmac-secret session first. -/
def processCommand (cmd : UInt8) (data : Bytes) : Ctap β CtapResponse := do
  Prog.when (decide (Ctap2Command.fromU8 cmd ≠ .getNextAssertion)) endHmacSession
  dispatch build (Ctap2Command.fromU8 cmd) data

/-! ## Runs -/

/-- `new`: an authenticator over a storage engine, with the world it talks to. -/
def new (aaguid : Bytes) (crypto : CryptoEngine) (storage : StorageEngine β) (rng : Nat → Entropy)
    (clock : Nat → Nat) : Auth β where
  crypto := crypto
  storage := storage
  capabilities := { Ctap2Capabilities.default with aaguid := aaguid }
  attestationFormat := .none
  attestationCert := none
  enumerateRpsState := none
  credMgmtRpsState := none
  credMgmtCredsState := none
  getNextAssertionState := none
  userPresence := none
  userVerification := none
  pinUvAuthToken := none
  pinAgreementKey := none
  pinSharedSecret := none
  hmacSecretSession := none
  pinFailuresSinceReset := 0
  rng := rng
  clock := clock
  lastTimestamp := 0
  log := [.booted]

/-- The storage engine opened again over its backend; one without a backend starts empty. -/
def reopen (e : StorageEngine β) : StorageEngine β :=
  { e.backend.elim StorageEngine.new (StorageEngine.withBackend build.codec) with
    maxCredentialCount := e.maxCredentialCount }

/-- A power cycle: a new authenticator over the same storage. -/
def powerCycle (a : Auth β) : Auth β := a.reboot (reopen build a.storage) a.log

end Auth

/-- What happens to an authenticator. -/
inductive Input
  | command (cmd : UInt8) (data : Bytes)
  | powerCycle
  deriving DecidableEq

/-- A call of the public interface: an input, or a method of the trait `ClientPin`. -/
inductive Call
  | input (input : Input)
  | setPin (pin : Bytes)
  | changePin (oldPin newPin : Bytes)
  | verifyPin (pin : Bytes)
  deriving DecidableEq

/-- A command that is decoded as Reset. -/
def Input.isReset : Input → Bool
  | .command cmd _ => decide (Ctap2Command.fromU8 cmd = .reset)
  | .powerCycle => false

/-- A command and its answer, with the states around it. -/
structure Exchange (β : Type) where
  before : Auth β
  cmd : UInt8
  data : Bytes
  result : Except Ctap2Error CtapResponse
  after : Auth β

namespace Auth

variable {β : Type} [StorageBackend β] (build : Build)

/-- The state after an input. -/
def step (a : Auth β) : Input → Auth β
  | .command cmd data => ((processCommand build cmd data).run a).2
  | .powerCycle => a.powerCycle build

/-- The state after a sequence of inputs. -/
def run (a : Auth β) (inputs : List Input) : Auth β := inputs.foldl (step build) a

/-- The state after a call. -/
def call (a : Auth β) : Call → Auth β
  | .input input => a.step build input
  | .setPin pin => ((setPin pin).run a).2
  | .changePin oldPin newPin => ((changePin oldPin newPin).run a).2
  | .verifyPin pin => ((verifyPin pin).run a).2

/-- The state after a sequence of calls. -/
def calls (a : Auth β) (cs : List Call) : Auth β := cs.foldl (call build) a

/-- The exchange of a command. -/
def exchange (a : Auth β) (cmd : UInt8) (data : Bytes) : Exchange β where
  before := a
  cmd := cmd
  data := data
  result := ((processCommand build cmd data).run a).1
  after := ((processCommand build cmd data).run a).2

/-- The exchanges of a sequence of inputs. -/
def trace (a : Auth β) : List Input → List (Exchange β)
  | [] => []
  | .command cmd data :: inputs =>
      a.exchange build cmd data :: trace (a.step build (.command cmd data)) inputs
  | .powerCycle :: inputs => trace (a.step build .powerCycle) inputs

end Auth

end OpenKey
