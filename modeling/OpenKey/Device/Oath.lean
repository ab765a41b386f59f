import OpenKey.Device.OathState

/-!
# The OATH applet

The commands of `crates/openkey-device/src/firmware/yubico_oath.rs`. When an access code is set,
all of them but VALIDATE and RESET go through `requireValidated`.
-/

namespace OpenKey

open Command

set_option autoImplicit false

namespace Oath

/-- `AID_YUBICO_OATH`. -/
def aid : Bytes := [0xA0, 0x00, 0x00, 0x05, 0x27, 0x21, 0x01]

/-- `SW_NO_SPACE`. -/
def swNoSpace : UInt16 := 0x6A84

/-- `SW_NO_SUCH_OBJECT`. -/
def swNoSuchObject : UInt16 := 0x6984

/-- `SW_GENERIC_ERROR`. -/
def swGenericError : UInt16 := 0x6581

/-! ## Instructions -/

/-- `INS_PUT`. -/
def insPut : UInt8 := 0x01

/-- `INS_DELETE`. -/
def insDelete : UInt8 := 0x02

/-- `INS_SET_CODE`. -/
def insSetCode : UInt8 := 0x03

/-- `INS_RESET`. -/
def insReset : UInt8 := 0x04

/-- `INS_RENAME`. -/
def insRename : UInt8 := 0x05

/-- `INS_LIST`. -/
def insList : UInt8 := 0xA1

/-- `INS_CALCULATE`. -/
def insCalculate : UInt8 := 0xA2

/-- `INS_VALIDATE`. -/
def insValidate : UInt8 := 0xA3

/-- `INS_CALCULATE_ALL`. -/
def insCalculateAll : UInt8 := 0xA4

/-- `INS_SEND_REMAINING`. -/
def insSendRemaining : UInt8 := 0xA5

/-! ## Sessions and states -/

/-- What the applet does not persist: whether VALIDATE has succeeded, which SELECT takes back, and
the last response with how much of it was handed out. -/
structure Session where
  validated : Bool
  remaining : Option (Bytes × Nat)
  deriving DecidableEq

/-- The session of `OathApplet::new`. -/
def Session.fresh : Session := ⟨false, none⟩

abbrev OathCommand := Command OathState Session

/-- The factory state around a salt. -/
def factoryState (entropy : Entropy) : OathState where
  salt := entropy.bytes 16
  access := none
  pendingChallenge := none
  credentials := .empty
  salt_ok := by
    rw [Ne, ← List.length_eq_zero_iff, Entropy.length_bytes]
    decide
  pending_ok _ h := by cases h

/-- The state of the OATH applet in storage. -/
def format : AppletFormat OathState where
  storageKey := "sys:oath"
  failure := swGenericError
  serialize := OathState.serialize
  parse := OathState.parse
  migrates _ := false
  factory := do
    let entropy ← Prog.act fun rng => (rng 0, fun n => rng (n + 1))
    pure (factoryState entropy)
  parse_serialize := OathState.parse_serialize
  migrates_serialize _ := rfl

theorem challengeOk_bytes (entropy : Entropy) : ChallengeOk (entropy.bytes 8) := by
  constructor
  · rw [Ne, ← List.length_eq_zero_iff, Entropy.length_bytes]
    decide
  · rw [Entropy.length_bytes]
    decide

/-! ## Requests -/

/-- `take_tag`: the only value of a tag, if there is one, and the other tags. -/
def takeTag (tlvs : List (UInt8 × Bytes)) (tag : UInt8) :
    Except UInt16 (Option Bytes × List (UInt8 × Bytes)) :=
  match tlvs.filter fun tlv => tlv.1 = tag with
  | [] => .ok (none, tlvs.filter fun tlv => tlv.1 ≠ tag)
  | [tlv] => .ok (some tlv.2, tlvs.filter fun tlv => tlv.1 ≠ tag)
  | _ => .error swWrongSyntax

/-- `take_tag` where the tag is needed. -/
def needTag (tlvs : List (UInt8 × Bytes)) (tag : UInt8) :
    Except UInt16 (Bytes × List (UInt8 × Bytes)) := do
  let (value, rest) ← takeTag tlvs tag
  match value with
  | some value => pure (value, rest)
  | none => throw swWrongSyntax

/-- `require_no_remaining_tlvs`. -/
def requireNoRemainingTlvs (tlvs : List (UInt8 × Bytes)) : Except UInt16 Unit :=
  if tlvs = [] then .ok () else .error swWrongSyntax

/-- What PUT stores. -/
structure PutRequest where
  name : Bytes
  cred : OathCredential
  name_ok : NameOk name

/-- The properties of PUT: only increasing, and touch. -/
def putProperties : Option Bytes → Except UInt16 (Bool × Bool)
  | none => .ok (false, false)
  | some [prop] =>
      if prop &&& ~~~0x03 ≠ 0 then .error swWrongSyntax
      else .ok (prop &&& 0x01 ≠ 0, prop &&& 0x02 ≠ 0)
  | some _ => .error swWrongSyntax

/-- The initial counter of PUT, which only HOTP has. -/
def putCounter (oathType : OathType) : Option Bytes → Except UInt16 UInt64
  | none => .ok 0
  | some imf =>
      if imf.length ≠ 4 then .error swWrongSyntax
      else if oathType ≠ .hotp then .error swWrongSyntax
      else .ok (UInt64.ofNat (Bytes.beNat imf))

/-- The checks of PUT on its request. -/
def parsePut (data : Bytes) : Except UInt16 PutRequest := do
  let tlvs ← parseTlvs data
  let (name, tlvs) ← needTag tlvs 0x71
  if hname : NameOk name then do
    let (key, tlvs) ← needTag tlvs 0x73
    match key with
    | wire :: digits :: secret =>
        match OathType.fromWire (wire &&& 0xF0), OathAlgorithm.fromWire (wire &&& 0x0F) with
        | some oathType, some algorithm =>
            if h : SecretOk secret ∧ DigitsOk digits then do
              let (prop, tlvs) ← takeTag tlvs 0x78
              let (onlyIncreasing, touchRequired) ← putProperties prop
              let (imf, tlvs) ← takeTag tlvs 0x7A
              let counter ← putCounter oathType imf
              requireNoRemainingTlvs tlvs
              pure ⟨name, ⟨secret, oathType, algorithm, digits, touchRequired, onlyIncreasing,
                counter, h.1, h.2⟩, hname⟩
            else throw swWrongSyntax
        | _, _ => throw swWrongSyntax
    | _ => throw swWrongSyntax
  else throw swWrongSyntax

/-- The name that DELETE takes. -/
def parseDelete (data : Bytes) : Except UInt16 Bytes := do
  let tlvs ← parseTlvs data
  let (name, tlvs) ← needTag tlvs 0x71
  requireNoRemainingTlvs tlvs
  pure name

/-- The names that RENAME takes: the present one and the new one. -/
def parseRename (data : Bytes) : Except UInt16 (Bytes × { name : Bytes // NameOk name }) := do
  let tlvs ← parseTlvs data
  requireNoRemainingTlvs (tlvs.filter fun tlv => tlv.1 ≠ 0x71)
  match tlvs.filter fun tlv => tlv.1 = 0x71 with
  | [current, new] =>
      if h : NameOk new.2 then
        if current.2 = new.2 then throw swWrongSyntax else pure (current.2, ⟨new.2, h⟩)
      else throw swWrongSyntax
  | _ => throw swWrongSyntax

/-- The name and the challenge that CALCULATE takes. -/
def parseCalculate (p2 : UInt8) (data : Bytes) : Except UInt16 (Bytes × Bytes) := do
  if p2 > 0x01 then throw swWrongSyntax
  let tlvs ← parseTlvs data
  let (name, tlvs) ← needTag tlvs 0x71
  let (challenge, tlvs) ← needTag tlvs 0x74
  requireNoRemainingTlvs tlvs
  if challenge.length > 64 then throw swWrongSyntax
  pure (name, challenge)

/-- The challenge that CALCULATE ALL takes. -/
def parseCalculateAll (p2 : UInt8) (data : Bytes) : Except UInt16 Bytes := do
  if p2 > 0x01 then throw swWrongSyntax
  let tlvs ← parseTlvs data
  let (challenge, tlvs) ← needTag tlvs 0x74
  requireNoRemainingTlvs tlvs
  if challenge = [] ∨ challenge.length > 64 then throw swWrongSyntax
  pure challenge

/-- The response and the new challenge that VALIDATE takes. -/
def parseValidate (data : Bytes) : Except UInt16 (Bytes × { c : Bytes // ChallengeOk c }) := do
  let tlvs ← parseTlvs data
  let (response, tlvs) ← needTag tlvs 0x75
  let (challenge, tlvs) ← needTag tlvs 0x74
  requireNoRemainingTlvs tlvs
  if h : challenge ≠ [] ∧ challenge.length ≤ 64 then
    pure (response, ⟨challenge, h.1, Nat.lt_of_le_of_lt h.2 (by decide)⟩)
  else throw swWrongSyntax

/-! ## Codes -/

section

variable (crypto : AppletCrypto)

/-- `hmac_by_algorithm`, with the key first. -/
def hmacByAlgorithm : OathAlgorithm → Bytes → Bytes → Bytes
  | .sha1, key, data => crypto.hmacSha1 key data
  | .sha256, key, data => crypto.computeHmac data key
  | .sha512, key, data => crypto.hmacSha512 key data

/-- `dynamic_truncate`. -/
def dynamicTruncate (digest : Bytes) : Except Fault Bytes :=
  match digest.getLast? with
  | none => .error .panic
  | some last =>
      let offset := (last &&& 0x0F).toNat
      if offset + 4 ≤ digest.length then .ok ((digest.drop offset).take 4) else .error .panic

/-- A digest as CALCULATE returns it: behind the number of digits, truncated or whole. -/
def pushCode (out : Bytes) (truncated : Bool) (digits : UInt8) (digest : Bytes) :
    Except Fault Bytes :=
  if truncated then do
    let code ← dynamicTruncate digest
    pushTlv out 0x76 (digits :: code)
  else pushTlv out 0x75 (digits :: digest)

/-- The entry of a credential in the answer to LIST. -/
def pushListEntry (out : Bytes) (entry : Bytes × OathCredential) : Except Fault Bytes :=
  pushTlv out 0x72 (entry.2.wire :: entry.1)

/-- The entry of a credential in the answer to CALCULATE ALL. -/
def pushAllEntry (truncated : Bool) (challenge : Bytes) (out : Bytes)
    (entry : Bytes × OathCredential) : Except Fault Bytes := do
  let out ← pushTlv out 0x71 entry.1
  match entry.2.oathType with
  | .hotp => pushTlv out 0x77 []
  | .totp =>
      let digest := hmacByAlgorithm crypto entry.2.algorithm entry.2.secret challenge
      if entry.2.touchRequired then pushTlv out 0x7C []
      else pushCode out truncated entry.2.digits digest

/-- The bytes that CALCULATE signs, and the counter after it for HOTP. -/
def movingFactor (cred : OathCredential) (challenge : Bytes) :
    Except UInt16 (Bytes × Option UInt64) :=
  match cred.oathType with
  | .totp => if challenge = [] then .error swWrongSyntax else .ok (challenge, none)
  | .hotp =>
      if challenge = [] then
        -- the internal counter
        if cred.hotpCounter.toNat + 1 < 2 ^ 64 then
          .ok (Bytes.beBytes 8 cred.hotpCounter.toNat, some (cred.hotpCounter + 1))
        else .error swGenericError
      else if challenge.length > 8 then .error swWrongSyntax
      else
        -- the challenge is the counter
        let used := Bytes.beNat challenge
        if used < cred.hotpCounter.toNat then .error swNoSuchObject
        else .ok (Bytes.beBytes 8 used, some (UInt64.ofNat (min (used + 1) (2 ^ 64 - 1))))

/-! ## Commands -/

/-- An access code is set in a state that is loaded. -/
def locked (memory : Memory OathState Session) : Bool :=
  (memory.state.bind fun s => s.access).isSome

/-- `require_validated`. -/
def requireValidated : OathCommand Unit := do
  ensureLoaded
  let memory ← inspect
  require (!(locked memory && !memory.session.validated)) swSecurityStatus

/-- `cmd_send_remaining`. -/
def cmdSendRemaining (apdu : Apdu) : OathCommand ResponseData := do
  requireValidated
  let session ← session
  match session.remaining with
  | none => refuse swConditionsNotSatisfied
  | some (buffer, pos) =>
      if pos ≥ buffer.length then do
        modifySession fun s => { s with remaining := none }
        pure (.ok [])
      else do
        let window := min (apdu.le.getD 255) 255
        let stop := min (pos + window) buffer.length
        let chunk := (buffer.drop pos).take (stop - pos)
        if stop < buffer.length then do
          modifySession fun s => { s with remaining := some (buffer, stop) }
          pure (.withSw chunk (swMoreData (buffer.length - stop)))
        else do
          modifySession fun s => { s with remaining := none }
          pure (.ok chunk)

/-- `cmd_put`. -/
def cmdPut (data : Bytes) : OathCommand ResponseData := do
  requireValidated
  let req ← orStatus (parsePut data)
  let state ← stateMut
  if h : req.name ∈ state.credentials.map ∨ state.credentials.map.size < 32 then do
    setState { state with credentials := state.credentials.insert req.name req.cred req.name_ok h }
    persistState
    pure (.ok [])
  else refuse swNoSpace

/-- `cmd_delete`. -/
def cmdDelete (data : Bytes) : OathCommand ResponseData := do
  requireValidated
  let name ← orStatus (parseDelete data)
  let state ← stateMut
  if name ∈ state.credentials.map then do
    setState { state with credentials := state.credentials.erase name }
    persistState
    pure (.ok [])
  else refuse swNoSuchObject

/-- A credential under another name. -/
def renamed (c : OathCredentials) (current new : Bytes) (h : current ∈ c.map) (hnew : NameOk new) :
    OathCredentials :=
  (c.erase current).insert new (c.map.get current h) hnew (.inr (c.size_erase_lt h))

/-- `cmd_rename`. -/
def cmdRename (data : Bytes) : OathCommand ResponseData := do
  requireValidated
  let (current, new) ← orStatus (parseRename data)
  let state ← stateMut
  if h : current ∈ state.credentials.map then
    if new.1 ∈ state.credentials.map then refuse swNoSpace
    else do
      setState { state with credentials := renamed state.credentials current new.1 h new.2 }
      persistState
      pure (.ok [])
  else refuse swNoSuchObject

/-- An access code with a challenge. -/
def withAccess (state : OathState) (access : OathAccess) (challenge : Bytes)
    (h : ChallengeOk challenge) : OathState :=
  { state with
    access := some access
    pendingChallenge := some challenge
    pending_ok := fun c hc => by
      cases hc
      exact ⟨h, rfl⟩ }

/-- No access code. -/
def withoutAccess (state : OathState) : OathState :=
  { state with access := none, pendingChallenge := none, pending_ok := fun _ h => by cases h }

/-- The access code that SET CODE sets, once the host has shown that it derives the same key. -/
def parseSetCode (tlvs : List (UInt8 × Bytes)) (key : Bytes) : Except UInt16 OathAccess :=
  match key with
  | wire :: accessKey =>
      if h : accessKey ≠ [] ∧ accessKey.length ≤ 64 then
        match OathAlgorithm.fromWire (wire &&& 0x0F) with
        | none => throw swWrongSyntax
        | some algorithm => do
            let (challenge, tlvs) ← needTag tlvs 0x74
            let (response, tlvs) ← needTag tlvs 0x75
            requireNoRemainingTlvs tlvs
            if challenge = [] ∨ challenge.length > 64 then throw swWrongSyntax
            if response.length ≠ algorithm.digestLen then throw swNoSuchObject
            if hmacByAlgorithm crypto algorithm accessKey challenge ≠ response then
              throw swNoSuchObject
            pure ⟨algorithm, accessKey, h.1, Nat.lt_of_le_of_lt h.2 (by decide)⟩
      else throw swWrongSyntax
  | [] => throw swWrongSyntax

/-- `cmd_set_code`. -/
def cmdSetCode (data : Bytes) : OathCommand ResponseData := do
  requireValidated
  let tlvs ← orStatus (parseTlvs data)
  let (key, tlvs) ← orStatus (needTag tlvs 0x73)
  if key = [] then do
    orStatus (requireNoRemainingTlvs tlvs)
    let state ← stateMut
    setState (withoutAccess state)
    modifySession fun s => { s with validated := false }
    persistState
    pure (.ok [])
  else do
    let access ← orStatus (parseSetCode crypto tlvs key)
    let entropy ← draw
    let state ← stateMut
    setState (withAccess state access (entropy.bytes 8) (challengeOk_bytes entropy))
    persistState
    pure (.ok [])

/-- `cmd_reset`. -/
def cmdReset (p1 p2 : UInt8) : OathCommand ResponseData := do
  require (p1 = 0xDE ∧ p2 = 0xAD) swWrongSyntax
  let entropy ← draw
  setState (factoryState entropy)
  modifySession fun _ => Session.fresh
  persistState
  pure (.ok [])

/-- `cmd_list`. -/
def cmdList : OathCommand ResponseData := do
  requireValidated
  let state ← stateMut
  let out ← orFault (state.credentials.map.toList.foldlM pushListEntry [])
  pure (.ok out)

/-- The counter of a HOTP credential moves on before its code is shown, and back if that cannot be
persisted. -/
def advanceCounter (name : Bytes) (cred : OathCredential) : Option UInt64 → OathCommand Unit
  | none => pure ()
  | some next => do
      let state ← stateMut
      setState { state with credentials := state.credentials.setCounter name next }
      let persisted ← tryPersist
      match persisted with
      | .ok () => pure ()
      | .error _ => do
          setState { state with
            credentials := (state.credentials.setCounter name next).setCounter name
              cred.hotpCounter }
          refuse swGenericError

/-- `cmd_calculate`. -/
def cmdCalculate (p2 : UInt8) (data : Bytes) : OathCommand ResponseData := do
  requireValidated
  let (name, challenge) ← orStatus (parseCalculate p2 data)
  let state ← stateMut
  let cred ← orRefuse state.credentials.map[name]? swNoSuchObject
  let (signed, next) ← orStatus (movingFactor cred challenge)
  advanceCounter name cred next
  let out ← orFault (pushCode [] (p2 = 0x01) cred.digits
    (hmacByAlgorithm crypto cred.algorithm cred.secret signed))
  pure (.ok out)

/-- `cmd_calculate_all`. -/
def cmdCalculateAll (p2 : UInt8) (data : Bytes) : OathCommand ResponseData := do
  requireValidated
  let challenge ← orStatus (parseCalculateAll p2 data)
  let state ← stateMut
  let out ← orFault (state.credentials.map.toList.foldlM
    (pushAllEntry crypto (p2 = 0x01) challenge) [])
  pure (.ok out)

/-- The checks of VALIDATE: the response is the code of the pending challenge under the access
key. -/
def checkValidate (data : Bytes) :
    OathCommand (OathState × OathAccess × { c : Bytes // ChallengeOk c }) := do
  let state ← stateMut
  match state.access, state.pendingChallenge with
  | some access, some pending => do
      let (response, challenge) ← orStatus (parseValidate data)
      require (hmacByAlgorithm crypto access.algorithm access.key pending = response)
        swNoSuchObject
      pure (state, access, challenge)
  | _, _ => refuse swNoSuchObject

/-- VALIDATE takes the challenge of the host and answers it. -/
def acceptValidate (state : OathState) (access : OathAccess)
    (challenge : { c : Bytes // ChallengeOk c }) : OathCommand ResponseData := do
  setState (withAccess state access challenge.1 challenge.2)
  persistState
  modifySession fun s => { s with validated := true }
  let out ← orFault (pushTlv [] 0x75
    (hmacByAlgorithm crypto access.algorithm access.key challenge.1))
  pure (.ok out)

/-- `cmd_validate`. -/
def cmdValidate (data : Bytes) : OathCommand ResponseData := do
  let (state, access, challenge) ← checkValidate crypto data
  acceptValidate crypto state access challenge

/-- `dispatch`. -/
def dispatch (apdu : Apdu) : OathCommand ResponseData :=
  if apdu.ins = insPut then cmdPut apdu.data
  else if apdu.ins = insDelete then cmdDelete apdu.data
  else if apdu.ins = insSetCode then cmdSetCode crypto apdu.data
  else if apdu.ins = insReset then cmdReset apdu.p1 apdu.p2
  else if apdu.ins = insRename then cmdRename apdu.data
  else if apdu.ins = insList then cmdList
  else if apdu.ins = insCalculate then cmdCalculate crypto apdu.p2 apdu.data
  else if apdu.ins = insValidate then cmdValidate crypto apdu.data
  else if apdu.ins = insCalculateAll then cmdCalculateAll crypto apdu.p2 apdu.data
  else refuse swInsNotSupported

/-- The copy of a response for SEND REMAINING, from what the router hands out at once. -/
def mirror (apdu : Apdu) (response : ResponseData) : Option (Bytes × Nat) :=
  if response.data = [] then none
  else some (response.data, min (apdu.le.getD 0) response.data.length)

/-- `process`. -/
def process (apdu : Apdu) : OathCommand ResponseData := do
  require (apdu.cla = 0) swClassNotSupported
  if apdu.ins = insSendRemaining then cmdSendRemaining apdu
  else do
    let result ← (dispatch crypto apdu).attempt
    match result with
    | .ok response => do
        modifySession fun s => { s with remaining := mirror apdu response }
        pure response
    | .error (.status sw) => do
        modifySession fun s => { s with remaining := none }
        refuse sw
    | .error fault => .fail fault

end

/-- `rotate_challenge_for_select`. -/
def rotateChallengeForSelect : OathCommand Unit := do
  let memory ← inspect
  if locked memory then do
    let entropy ← draw
    let state ← stateMut
    match state.access with
    | none => .fail .panic
    | some access => do
        setState (withAccess state access (entropy.bytes 8) (challengeOk_bytes entropy))
        persistState
  else pure ()

/-- `select`. -/
def select : OathCommand Unit := do
  modifySession fun s => { s with validated := false }
  ensureLoaded
  rotateChallengeForSelect

/-- The answer to SELECT around a state. -/
def selectPayload (state : OathState) : Except Fault Bytes := do
  let out ← pushTlv [] 0x79 [0x03, 0x04, 0x00]
  let out ← pushTlv out 0x71 state.salt
  match state.access, state.pendingChallenge with
  | some access, some challenge => do
      let out ← pushTlv out 0x74 challenge
      pushTlv out 0x7B [access.algorithm.wireByte]
  | _, _ => pure out

/-- `select_response`. -/
def selectResponse : OathCommand Bytes := do
  let loaded ← tryLoad
  match loaded with
  | .error _ => pure []
  | .ok () => do
      let state ← loadedState
      orFault (selectPayload state)

end Oath

end OpenKey
