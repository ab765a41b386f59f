import OpenKey.Ctap2.IntegerKeys
import OpenKey.Ctap2.Deletion

/-!
# What is authenticated is what is executed

The bytes of CredentialManagement and AuthenticatorConfig are decoded twice: for the message that
the platform has authenticated, and for the request that is executed. The message takes the keys as
they are. The request of CredentialManagement goes through `decode_cbor`, which finds the name of an
integer key at the index that it has as a `usize`, and then through a derived decoder.

**Theorem (`same_pair_iff`).** AuthenticatorConfig executes the pair of subcommand and parameters
that it authenticates. CredentialManagement does so if and only if the decoder takes for the
parameters no entry that has another key than the integer 2 or the name `subCommandParams`.

Of the derived decoder it is assumed that it names keys one by one, a text by itself, and that it
rejects a name that comes twice. Then an entry that the message takes is the only one of its name.
-/

namespace OpenKey

set_option autoImplicit false

/-! ## The two readings -/

/-- `decode_cbor::<CredentialManagementRequest>`, where a `usize` counts to `range`. -/
def Ciborium.decodeCredentialManagementAt (cbor : Ciborium) (range : Nat) (data : Bytes) :
    Except Ctap2Error CredentialManagementRequest := do
  let parsed ← readValue cbor data
  match cbor.credentialManagementRequest
      (cbor.intoWriter (rootCtapKeysAt range .credentialManagement parsed)) with
  | some request => .ok request
  | none => .error .invalidCbor

/-- The pair of subcommand and parameters that a map is authenticated by. -/
def pairOf (entries : List (Value × Value)) : Option (Nat × Option Value) :=
  match lastEntry 1 "subCommand" entries with
  | some (.integer number) =>
      (toU8 number).map fun subCommand => (subCommand, lastEntry 2 "subCommandParams" entries)
  | _ => none

/-- The pair of a request. -/
def authenticatedPair (cbor : Ciborium) (data : Bytes) : Option (Nat × Option Value) :=
  match readValue cbor data with
  | .ok (.map entries) => pairOf entries
  | _ => none

/-- The encoding of a pair. -/
def encodePair (cbor : Ciborium) (pair : Nat × Option Value) : Bytes :=
  UInt8.ofNat pair.1 :: pair.2.elim [] cbor.intoWriter

/-- A key of a map, by number or by name. -/
def hasKey (number : Int) (name : String) : Value → Bool
  | .integer n => decide (n = number)
  | .text text => decide (text = name)
  | _ => false

/-- The entries that a decoder gives a name. -/
def named (keyName : Value → Option String) (name : String) (entries : List (Value × Value)) :
    List (Value × Value) :=
  entries.filter fun entry => decide (keyName entry.1 = some name)

/-- What a derived decoder reads from a map: the subcommand from the one entry of that name, and the
parameters from the one entry of theirs, if there is one. -/
structure ReadFrom (keyName : Value → Option String)
    (asParams : Value → Option (Option CredMgmtParams)) (entries : List (Value × Value))
    (request : CredentialManagementRequest) : Prop where
  subCommand : ∃ entry, named keyName "subCommand" entries = [entry] ∧
    ∀ number, entry.2 = .integer number → toU8 number = some request.subCommand
  params : named keyName "subCommandParams" entries = [] ∧ request.subCommandParams = none ∨
    ∃ entry, named keyName "subCommandParams" entries = [entry] ∧
      asParams entry.2 = some request.subCommandParams

/-- The request is the authenticated pair: the parameters are read from the authenticated value, in
which the keys may have become names. -/
def SamePair (asParams : Value → Option (Option CredMgmtParams)) (pair : Nat × Option Value)
    (request : CredentialManagementRequest) : Prop :=
  request.subCommand = pair.1 ∧ (pair.2 = none → request.subCommandParams = none) ∧
    ∀ value, pair.2 = some value → asParams value = some request.subCommandParams ∨
      asParams (rootCtapValue .credentialManagement (.integer 2) value) =
        some request.subCommandParams

/-- The entries that the decoder takes for the parameters are the authenticated one, or there is
nothing in them. -/
def OnlyAuthenticated (range : Nat) (keyName : Value → Option String)
    (asParams : Value → Option (Option CredMgmtParams)) (entries : List (Value × Value)) : Prop :=
  ∀ entry ∈ entries,
    keyName (renameKey (RequestType.credentialManagement.labelAt range) entry.1) =
        some "subCommandParams" →
      hasKey 2 "subCommandParams" entry.1 = true ∨
        asParams (rootCtapValue .credentialManagement entry.1 entry.2) = some none

/-! ## The message -/

theorem pairOf_eq_some {entries : List (Value × Value)} {pair : Nat × Option Value}
    (h : pairOf entries = some pair) :
    ∃ number, lastEntry 1 "subCommand" entries = some (.integer number) ∧
      toU8 number = some pair.1 ∧ lastEntry 2 "subCommandParams" entries = pair.2 := by
  rw [pairOf] at h
  split at h
  case h_1 number hlast =>
    obtain ⟨subCommand, hsub, rfl⟩ := Option.map_eq_some_iff.mp h
    exact ⟨number, hlast, hsub, rfl⟩
  case h_2 => exact absurd h nofun

theorem subCommandMessage_eq (cbor : Ciborium) (data : Bytes) :
    (subCommandMessage cbor data).toOption =
      (authenticatedPair cbor data).map (encodePair cbor) := by
  unfold subCommandMessage authenticatedPair pairOf
  cases readValue cbor data with
  | error error => rfl
  | ok value =>
      cases value with
      | map entries =>
          simp only [bind, Except.bind]
          cases lastEntry 1 "subCommand" entries with
          | none => rfl
          | some item =>
              cases item with
              | integer number =>
                  simp only
                  cases toU8 number <;> rfl
              | _ => rfl
      | _ => rfl

/-- The message is the encoding of the authenticated pair. -/
theorem exists_pair_of_message {cbor : Ciborium} {data message : Bytes}
    (h : subCommandMessage cbor data = .ok message) :
    ∃ pair, authenticatedPair cbor data = some pair ∧ encodePair cbor pair = message := by
  have hpair := subCommandMessage_eq cbor data
  rw [h] at hpair
  exact Option.map_eq_some_iff.mp hpair.symm

/-- The value of an entry that has a key. -/
def entryValue (number : Int) (name : String) (entry : Value × Value) : Option Value :=
  if hasKey number name entry.1 then some entry.2 else none

theorem lastEntry_cons (number : Int) (name : String) (entry : Value × Value)
    (entries : List (Value × Value)) : lastEntry number name (entry :: entries) =
      (lastEntry number name entries).or (entryValue number name entry) := by
  obtain ⟨key, value⟩ := entry
  cases key with
  | integer n => by_cases h : n = number <;> simp [lastEntry, entryValue, hasKey, h]
  | text text => by_cases h : text = name <;> simp [lastEntry, entryValue, hasKey, h]
  | _ => rfl

theorem lastEntry_eq_none {number : Int} {name : String} {entries : List (Value × Value)}
    (h : ∀ entry ∈ entries, hasKey number name entry.1 = false) :
    lastEntry number name entries = none := by
  induction entries with
  | nil => rfl
  | cons entry entries ih =>
      rw [lastEntry_cons, ih fun other hother => h other (List.mem_cons_of_mem _ hother),
        entryValue, h entry List.mem_cons_self]
      rfl

/-- An entry that is the only one of its name is the last under a key with that name. -/
theorem lastEntry_of_filter {number : Int} {name : String} {p : Value × Value → Bool}
    (hkey : ∀ entry, hasKey number name entry.1 = true → p entry = true)
    {entries : List (Value × Value)} {entry : Value × Value} (h : entries.filter p = [entry]) :
    lastEntry number name entries = entryValue number name entry := by
  induction entries with
  | nil => exact absurd h nofun
  | cons head entries ih =>
      rw [lastEntry_cons]
      by_cases hp : p head = true
      · rw [List.filter_cons_of_pos hp, List.cons.injEq] at h
        obtain ⟨rfl, hrest⟩ := h
        rw [lastEntry_eq_none fun other hother => ?_]
        · rfl
        · have hnot := List.filter_eq_nil_iff.mp hrest other hother
          exact Bool.eq_false_iff.mpr fun htrue => hnot (hkey other htrue)
      · rw [List.filter_cons_of_neg hp] at h
        have hnone : entryValue number name head = none :=
          if_neg fun htrue => hp (hkey head htrue)
        rw [ih h, hnone, Option.or_none]

/-! ## AuthenticatorConfig -/

namespace AuthnrConfigRequest

theorem toI64OrZero_eq {number k : Int} (hk : k ≠ 0) (hrange : -2 ^ 63 ≤ k ∧ k < 2 ^ 63) :
    toI64OrZero number = k ↔ number = k := by
  rw [toI64OrZero, toI64]
  by_cases h : -2 ^ 63 ≤ number ∧ number < 2 ^ 63
  · rw [if_pos h, Option.getD_some]
  · rw [if_neg h, Option.getD_none]
    exact iff_of_false (Ne.symm hk) fun heq => h (heq ▸ hrange)

/-- The decoder takes the keys of the message for the subcommand and the parameters. -/
theorem fieldOfKey_eq (key : Value) :
    (fieldOfKey key = some .subCommand ↔ hasKey 1 "subCommand" key = true) ∧
      (fieldOfKey key = some .params ↔ hasKey 2 "subCommandParams" key = true) := by
  cases key with
  | integer number =>
      have hone := @toI64OrZero_eq number 1 (by decide) (by decide)
      have htwo := @toI64OrZero_eq number 2 (by decide) (by decide)
      simp only [hasKey, decide_eq_true_iff, ← hone, ← htwo, fieldOfKey]
      split <;> simp_all
  | text text =>
      simp only [hasKey, decide_eq_true_iff, fieldOfKey]
      split <;> simp_all
  | _ => simp [hasKey, fieldOfKey]

/-- What one entry sets. -/
theorem setField_reads {request request' : AuthnrConfigRequest} {entry : Value × Value}
    (h : (fieldOfKey entry.1).elim (.ok request) (fun field => setField request field entry.2) =
      .ok request') :
    request'.params = (entryValue 2 "subCommandParams" entry).or request.params ∧
      (entryValue 1 "subCommand" entry).elim (request'.subCommand = request.subCommand)
        (fun value => valueToU8 value = .ok request'.subCommand) := by
  obtain ⟨hsub, hparams⟩ := fieldOfKey_eq entry.1
  simp only [entryValue, ← hsub, ← hparams]
  cases hfield : fieldOfKey entry.1 with
  | none =>
      rw [hfield] at h
      obtain rfl := Except.ok.inj h
      exact ⟨rfl, rfl⟩
  | some field =>
      rw [hfield, Option.elim_some] at h
      cases field with
      | subCommand =>
          obtain ⟨number, hnumber, rfl⟩ := Except.map_eq_ok.mp h
          exact ⟨rfl, hnumber⟩
      | params =>
          obtain rfl := Except.ok.inj h
          exact ⟨rfl, rfl⟩
      | pinUvAuthProtocol =>
          obtain ⟨number, -, rfl⟩ := Except.map_eq_ok.mp h
          exact ⟨rfl, rfl⟩
      | pinUvAuthParam =>
          obtain ⟨bytes, -, rfl⟩ := Except.map_eq_ok.mp h
          exact ⟨rfl, rfl⟩

/-- The decoder reads the last entry of each. -/
theorem decodeEntries_reads {entries : List (Value × Value)}
    {request request' : AuthnrConfigRequest} (h : decodeEntries request entries = .ok request') :
    request'.params = (lastEntry 2 "subCommandParams" entries).or request.params ∧
      (lastEntry 1 "subCommand" entries).elim (request'.subCommand = request.subCommand)
        (fun value => valueToU8 value = .ok request'.subCommand) := by
  induction entries generalizing request with
  | nil =>
      obtain rfl := Except.ok.inj h
      exact ⟨rfl, rfl⟩
  | cons entry entries ih =>
      obtain ⟨next, hnext, hrest⟩ := Except.bind_eq_ok.mp h
      obtain ⟨hparams, hsub⟩ := setField_reads hnext
      obtain ⟨hparams', hsub'⟩ := ih hrest
      rw [lastEntry_cons, lastEntry_cons]
      refine ⟨by rw [hparams', hparams, Option.or_assoc], ?_⟩
      cases hlast : lastEntry 1 "subCommand" entries with
      | some value =>
          rw [hlast] at hsub'
          exact hsub'
      | none =>
          rw [hlast] at hsub'
          rw [Option.none_or]
          rw [Option.elim_none] at hsub'
          rw [hsub']
          exact hsub

/-- The request is the authenticated pair. -/
theorem decode_pair {cbor : Ciborium} {data message : Bytes} {request : AuthnrConfigRequest}
    (hdecode : decode cbor data = .ok request)
    (hmessage : authnrConfigAuthMessage cbor data = .ok message) :
    message = 0x0D :: encodePair cbor (request.subCommand, request.params) := by
  obtain ⟨bytes, hbytes, rfl⟩ := Except.map_eq_ok.mp hmessage
  obtain ⟨pair, hpair, rfl⟩ := exists_pair_of_message hbytes
  obtain ⟨value, hvalue, hrest⟩ := Except.bind_eq_ok.mp hdecode
  rw [authenticatedPair, hvalue] at hpair
  cases value with
  | map entries =>
      obtain ⟨number, hlast, hnumber, hparams⟩ := pairOf_eq_some hpair
      obtain ⟨read, hread, hzero⟩ := Except.bind_eq_ok.mp hrest
      obtain ⟨hparams', hsub⟩ := decodeEntries_reads hread
      by_cases hmissing : read.subCommand = 0
      · rw [if_pos hmissing] at hzero
        exact absurd hzero nofun
      · rw [if_neg hmissing] at hzero
        obtain rfl := Except.ok.inj hzero
        rw [hlast, Option.elim_some, valueToU8, hnumber] at hsub
        have hfirst : pair.1 = read.subCommand := Except.ok.inj hsub
        rw [Option.or_none] at hparams'
        rw [hparams', hparams, ← hfirst]
  | _ => exact absurd hpair nofun

end AuthnrConfigRequest

/-! ## CredentialManagement -/

section Management

variable {range : Nat} {keyName : Value → Option String}
  {asParams : Value → Option (Option CredMgmtParams)} {entries : List (Value × Value)}
  {request : CredentialManagementRequest}

/-- The name that the decoder gives a key. -/
def decodedName (range : Nat) (keyName : Value → Option String) (key : Value) : Option String :=
  keyName (renameKey (RequestType.credentialManagement.labelAt range) key)

/-- The entry that the decoder reads. -/
def decodedEntry (range : Nat) (entry : Value × Value) : Value × Value :=
  (renameKey (RequestType.credentialManagement.labelAt range) entry.1,
    rootCtapValue .credentialManagement entry.1 entry.2)

theorem named_decoded (name : String) :
    named keyName name (entries.map (decodedEntry range)) =
      (entries.filter fun entry => decide (decodedName range keyName entry.1 = some name)).map
        (decodedEntry range) := by
  rw [named, List.filter_map]
  rfl

/-- The decoder names the keys of the message as the message does. -/
theorem decodedName_of_hasKey (hrange : 11 ≤ range)
    (hname : ∀ name, keyName (.text name) = some name) {i : Nat} {name : String}
    (hlabel : RequestType.credentialManagement.labels[i]? = some name) (hne : name ≠ "")
    {key : Value} (hkey : hasKey i name key = true) :
    decodedName range keyName key = some name := by
  cases key with
  | integer number =>
      obtain rfl := of_decide_eq_true hkey
      have hlt := (List.getElem?_eq_some_iff.mp hlabel).1
      have hlength := RequestType.credentialManagement.length_labels
      have hsome : RequestType.credentialManagement.labelAt range i = some name := by
        refine RequestType.labelAt_eq_some.mpr ⟨⟨by omega, by omega⟩, ?_, hne⟩
        rw [Int.emod_eq_of_lt (by omega) (by omega), Int.toNat_natCast]
        exact hlabel
      rw [decodedName, renameKey_eq_text.mpr hsome, hname]
  | text text =>
      obtain rfl := of_decide_eq_true hkey
      exact hname text
  | _ => exact absurd hkey nofun

theorem subCommand_of_read (hrange : 11 ≤ range)
    (hname : ∀ name, keyName (.text name) = some name)
    (hread : ReadFrom keyName asParams (entries.map (decodedEntry range)) request) {number : Int}
    (hlast : lastEntry 1 "subCommand" entries = some (.integer number)) :
    toU8 number = some request.subCommand := by
  obtain ⟨entry', hnamed, hvalue⟩ := hread.subCommand
  rw [named_decoded, List.map_eq_singleton_iff] at hnamed
  obtain ⟨⟨key, value⟩, hfilter, rfl⟩ := hnamed
  have hkeys : ∀ entry : Value × Value, hasKey 1 "subCommand" entry.1 = true →
      decide (decodedName range keyName entry.1 = some "subCommand") = true :=
    fun entry hkey => decide_eq_true
      (decodedName_of_hasKey hrange hname (i := 1) rfl (by decide) hkey)
  rw [lastEntry_of_filter hkeys hfilter] at hlast
  obtain ⟨-, hentry⟩ := Option.ite_none_right_eq_some.mp hlast
  obtain rfl := Option.some.inj hentry
  refine hvalue number ?_
  show rootCtapValue .credentialManagement key (.integer number) = .integer number
  unfold rootCtapValue
  split
  case h_1 hmap => exact absurd hmap nofun
  case h_2 => rfl

/-- The value of an authenticated key is read as it is, or with its keys as names. -/
theorem rootCtapValue_of_hasKey {key : Value} (hkey : hasKey 2 "subCommandParams" key = true)
    (value : Value) : rootCtapValue .credentialManagement key value = value ∨
      rootCtapValue .credentialManagement key value =
        rootCtapValue .credentialManagement (.integer 2) value := by
  cases key with
  | integer number =>
      obtain rfl := of_decide_eq_true hkey
      exact .inr rfl
  | text text => exact .inl rfl
  | _ => exact absurd hkey nofun

/-- The request is the authenticated pair exactly if the decoder takes no other entry for the
parameters. -/
theorem samePair_iff (hrange : 11 ≤ range) (hname : ∀ name, keyName (.text name) = some name)
    (hread : ReadFrom keyName asParams (entries.map (decodedEntry range)) request)
    {pair : Nat × Option Value} (hpair : pairOf entries = some pair) :
    SamePair asParams pair request ↔ OnlyAuthenticated range keyName asParams entries := by
  obtain ⟨number, hlast, hnumber, hparams⟩ := pairOf_eq_some hpair
  have hsub : request.subCommand = pair.1 := Option.some.inj
    ((subCommand_of_read hrange hname hread hlast).symm.trans hnumber)
  have hkeys : ∀ entry : Value × Value, hasKey 2 "subCommandParams" entry.1 = true →
      decide (decodedName range keyName entry.1 = some "subCommandParams") = true :=
    fun entry hkey => decide_eq_true
      (decodedName_of_hasKey hrange hname (i := 2) rfl (by decide) hkey)
  rw [SamePair, ← hparams]
  obtain ⟨hnamed, hnone⟩ | ⟨entry', hnamed, hvalue⟩ := hread.params
  · -- nothing is taken for the parameters
    rw [named_decoded, List.map_eq_nil_iff, List.filter_eq_nil_iff] at hnamed
    have habsent : lastEntry 2 "subCommandParams" entries = none :=
      lastEntry_eq_none fun entry hentry =>
        Bool.eq_false_iff.mpr fun hkey => hnamed entry hentry (hkeys entry hkey)
    rw [habsent]
    exact iff_of_true ⟨hsub, fun _ => hnone, nofun⟩ fun entry hentry hdecoded =>
      absurd (decide_eq_true hdecoded) (hnamed entry hentry)
  · -- the one entry that is taken is the authenticated one or another
    rw [named_decoded, List.map_eq_singleton_iff] at hnamed
    obtain ⟨entry, hfilter, rfl⟩ := hnamed
    have honly : ∀ other ∈ entries, decodedName range keyName other.1 = some "subCommandParams" →
        other = entry := fun other hother hdecoded =>
      List.mem_singleton.mp (hfilter ▸ List.mem_filter.mpr ⟨hother, decide_eq_true hdecoded⟩)
    obtain ⟨hmem, hdecoded⟩ :=
      List.mem_filter.mp (hfilter.symm ▸ List.mem_singleton_self entry)
    rw [lastEntry_of_filter hkeys hfilter, entryValue]
    by_cases hkey : hasKey 2 "subCommandParams" entry.1 = true
    · rw [if_pos hkey]
      refine iff_of_true ⟨hsub, nofun, fun value hentry => ?_⟩ fun other hother hother' =>
        .inl (honly other hother hother' ▸ hkey)
      obtain rfl := Option.some.inj hentry
      obtain hsame | hrenamed := rootCtapValue_of_hasKey hkey entry.2
      · exact .inl (hsame ▸ hvalue)
      · exact .inr (hrenamed ▸ hvalue)
    · rw [if_neg hkey]
      constructor
      · rintro ⟨-, hnone, -⟩ other hother hother'
        rw [honly other hother hother']
        exact .inr (hvalue.trans (congrArg some (hnone rfl)))
      · intro hothers
        obtain hauth | hnone := hothers entry hmem (of_decide_eq_true hdecoded)
        · exact absurd hauth hkey
        · exact ⟨hsub, fun _ => Option.some.inj (hvalue.symm.trans hnone), nofun⟩

/-- What is authenticated is what is executed, exactly if no other entry is taken for the
parameters. -/
theorem same_pair_iff {cbor : Ciborium} {data : Bytes}
    (hrange : range = 2 ^ 32 ∨ range = 2 ^ 64)
    (hname : ∀ name, keyName (.text name) = some name)
    (hderived : ∀ entries request, readValue cbor data = .ok (.map entries) →
      cbor.credentialManagementRequest
        (cbor.intoWriter (rootCtapKeysAt range .credentialManagement (.map entries))) =
          some request →
      ReadFrom keyName asParams (entries.map (decodedEntry range)) request) :
    (∀ (request : AuthnrConfigRequest) message, AuthnrConfigRequest.decode cbor data = .ok request →
      authnrConfigAuthMessage cbor data = .ok message →
        message = 0x0D :: encodePair cbor (request.subCommand, request.params)) ∧
    ∀ request message, cbor.decodeCredentialManagementAt range data = .ok request →
      Auth.credentialManagementAuthMessage cbor data = .ok message →
      ∃ entries pair, readValue cbor data = .ok (.map entries) ∧ pairOf entries = some pair ∧
        message = encodePair cbor pair ∧
        (SamePair asParams pair request ↔ OnlyAuthenticated range keyName asParams entries) := by
  constructor
  · intro request message hdecode hmessage
    exact AuthnrConfigRequest.decode_pair hdecode hmessage
  · intro request message hdecode hmessage
    obtain ⟨pair, hpair, rfl⟩ := exists_pair_of_message hmessage
    obtain ⟨value, hvalue, hrest⟩ := Except.bind_eq_ok.mp hdecode
    rw [authenticatedPair, hvalue] at hpair
    cases value with
    | map entries =>
        refine ⟨entries, pair, hvalue, hpair, rfl, samePair_iff (by omega) hname ?_ hpair⟩
        refine hderived entries request hvalue ?_
        split at hrest
        case h_1 read hread =>
          obtain rfl := Except.ok.inj hrest
          exact hread
        case h_2 => exact absurd hrest nofun
    | _ => exact absurd hpair nofun

end Management

/-! ## A key that is not authenticated -/

namespace Auth

/-- The names of texts; the decoders of the runs read no other keys. -/
def textName : Value → Option String := Value.asText

/-- Parameters that may be null. -/
def asOptionalParams : Value → Option (Option CredMgmtParams)
  | .null => some none
  | value => value.asCredMgmtParams.map some

/-- The parameters of deleteCredential, by name. -/
def namedParams : Value := textMap [("credentialId", (credentialParam firstId).2)]

/-- The entries of deleteCredential with its parameters under an integer key. -/
def deleteEntries (key : Int) : List (Value × Value) :=
  [(.integer 1, .integer 6), (.integer key, namedParams), (.integer 3, .integer 1),
    (.integer 4, .bytes (word16 0xdcb91b621cd1ae9c6c47b2a2eb05f427))]

/-- Such a request. -/
def deleteUnder (key : Int) : Bytes := encodeValue (.map (deleteEntries key))

/-- What it decodes to. -/
def deleteFirst : CredentialManagementRequest :=
  deleteRequest firstId 0xdcb91b621cd1ae9c6c47b2a2eb05f427

/-- The device with a token, and the MAC of deleteCredential without parameters. -/
def unparameterised : Auth KvMap :=
  (managedDevice { macs := [((drawn 32 3, [0x06]),
    0xdcb91b621cd1ae9c6c47b2a2eb05f4270393924b56125c1e4ec3be42fa811f16)] }).calls managedBuild
    [.input setPinCommand, .input (getTokenFor 0x04), .input (makeCredentialCommand 1 1)]

set_option maxRecDepth 100000 in
theorem readValue_deleteUnder :
    readValue managedBuild.cbor (deleteUnder 2) = .ok (.map (deleteEntries 2)) :=
  rfl

theorem readFrom_deleteFirst : ReadFrom textName asOptionalParams
    ((deleteEntries 2).map (decodedEntry (2 ^ 32))) deleteFirst where
  subCommand := ⟨(.text "subCommand", .integer 6), rfl, fun _ h =>
    (Value.integer.inj h) ▸ rfl⟩
  params := .inr ⟨(.text "subCommandParams", namedParams), rfl, rfl⟩

set_option maxRecDepth 100000 in
theorem decode_deleteUnder : managedBuild.cbor.credentialManagementRequest
    (managedBuild.cbor.intoWriter (rootCtapKeysAt (2 ^ 32) .credentialManagement
      (.map (deleteEntries 2)))) = some deleteFirst :=
  rfl

theorem onlyAuthenticated_deleteEntries :
    OnlyAuthenticated (2 ^ 32) textName asOptionalParams (deleteEntries 2) := by
  intro entry hentry hdecoded
  simp only [deleteEntries, List.mem_cons, List.not_mem_nil, or_false] at hentry
  rcases hentry with rfl | rfl | rfl | rfl
  · exact absurd hdecoded (by decide)
  · exact .inl rfl
  · exact absurd hdecoded (by decide)
  · exact absurd hdecoded (by decide)

set_option maxRecDepth 100000 in
/-- With the parameters under their own key the request is the authenticated pair. -/
theorem same_pair_iff_own_key :
    SamePair asOptionalParams (6, some namedParams) deleteFirst := by
  have hderived : ∀ entries request,
      readValue managedBuild.cbor (deleteUnder 2) = .ok (.map entries) →
      managedBuild.cbor.credentialManagementRequest (managedBuild.cbor.intoWriter
        (rootCtapKeysAt (2 ^ 32) .credentialManagement (.map entries))) = some request →
      ReadFrom textName asOptionalParams (entries.map (decodedEntry (2 ^ 32))) request := by
    intro entries request hentries hrequest
    obtain rfl := Value.map.inj (Except.ok.inj (readValue_deleteUnder.symm.trans hentries))
    obtain rfl := Option.some.inj (decode_deleteUnder.symm.trans hrequest)
    exact readFrom_deleteFirst
  obtain ⟨entries, pair, hentries, hpair, -, hiff⟩ :=
    (same_pair_iff (.inl rfl) (fun _ => rfl) hderived).2 deleteFirst
      (encodePair managedBuild.cbor (6, some namedParams)) rfl rfl
  obtain rfl := Value.map.inj (Except.ok.inj (readValue_deleteUnder.symm.trans hentries))
  obtain rfl := Option.some.inj ((rfl : pairOf (deleteEntries 2) = _).symm.trans hpair)
  exact hiff.mpr onlyAuthenticated_deleteEntries

set_option maxRecDepth 100000 in
theorem authentic_deleteUnder :
    Authentic managedBuild unparameterised (deleteUnder (2 ^ 32 + 2)) deleteFirst where
  decoded := rfl
  verified := ⟨[0x06], rfl, by decide +kernel⟩

set_option maxRecDepth 100000 in
/-- With the parameters under the key 2^32 + 2 the authenticated message is the subcommand alone. -/
theorem params_unauthenticated : ¬∀ data request pair,
    Authentic managedBuild unparameterised data request →
      authenticatedPair managedBuild.cbor data = some pair →
        SamePair asOptionalParams pair request := by
  intro hall
  have hsame := hall (deleteUnder (2 ^ 32 + 2)) deleteFirst (6, none) authentic_deleteUnder rfl
  exact absurd (hsame.2.1 rfl) nofun

end Auth

end OpenKey
