import OpenKey.Ctap2.Sample

/-!
# The two forms of a ClientPIN request

**Theorem (`forms_agree`).** For a subcommand with parameters, the positional form with a prefix of
its parameters, and nulls between them, is decoded as the map with the same entries in any order: to
the request with these entries and nothing else, or both fail.

- In the order of the positional form, the decoder of the map takes the same fields from the same
  items (`takeFields_eq`).
- Reading one field commutes with reading another (`setterOf_comm`), so the order of the map does
  not matter (`decodeFromMap_perm`).
- A field is as its entry says, or as it was (`decodeFromMap_eq_ok_iff`).
-/

namespace OpenKey

set_option autoImplicit false

namespace ClientPinRequest

/-! ## The entries of a map -/

/-- The key of a field in the map form. -/
def keyOf : Field → Int
  | .pinProtocol => 0x01
  | .subCommand => 0x02
  | .keyAgreement => 0x03
  | .pinAuth => 0x04
  | .newPinEnc => 0x05
  | .pinHashEnc => 0x06
  | .permissions => 0x09
  | .rpId => 0x0A

/-- The entry of a field. -/
def entryOf (field : Field) (value : Value) : Value × Value := (.integer (keyOf field), value)

/-- The fields of a positional form: the protocol unless it is null, the subcommand, and the
parameters that are there. -/
def formFields (protocol : Value) (subCommand : Nat) (params : List Value) : List (Field × Value) :=
  ([protocol].filter present).map (.pinProtocol, ·) ++
    (.subCommand, .integer subCommand) :: (positional subCommand).zip params

/-- The map with these entries. -/
def mapForm (protocol : Value) (subCommand : Nat) (params : List Value) : List (Value × Value) :=
  (formFields protocol subCommand params).map fun entry => entryOf entry.1 entry.2

@[simp] theorem fieldOfKey_keyOf (field : Field) :
    fieldOfKey (.integer (keyOf field)) = some field := by
  cases field <;> rfl

theorem decodeFromMap_cons (request : ClientPinRequest) (field : Field) (value : Value)
    (entries : List (Value × Value)) : decodeFromMap request (entryOf field value :: entries) =
      setField request field value >>= (decodeFromMap · entries) := by
  rw [entryOf, decodeFromMap, fieldOfKey_keyOf, Option.elim_some]

/-- The closure `next` takes the fields that the map has. -/
theorem takeFields_eq (fields : List Field) (items : List Value) (request : ClientPinRequest) :
    takeFields request fields items =
      decodeFromMap request ((fields.zip items).map fun entry => entryOf entry.1 entry.2) := by
  induction fields generalizing items request with
  | nil => rfl
  | cons field fields ih =>
      cases items with
      | nil => rfl
      | cons item items =>
          rw [List.zip_cons_cons, List.map_cons, decodeFromMap_cons, takeFields]
          exact congrArg _ (funext fun next => ih items next)

/-- The subcommands with parameters. -/
def WithParameters (subCommand : Nat) : Prop := subCommand ∈ [0x03, 0x04, 0x05, 0x06, 0x09]

instance (subCommand : Nat) : Decidable (WithParameters subCommand) :=
  inferInstanceAs (Decidable (_ ∈ _))

/-- What a field is set to. -/
def setterOf : Field → Value → Except Ctap2Error (ClientPinRequest → ClientPinRequest)
  | .pinProtocol, value =>
      (valueToU8 value).map fun n request => { request with pinProtocol := some n }
  | .subCommand, value => (valueToU8 value).map fun n request => { request with subCommand := n }
  | .keyAgreement, value =>
      (CoseEc2Key.fromCoseValue value).map fun key request =>
        { request with keyAgreement := some key }
  | .pinAuth, value =>
      (valueToBytes value).map fun bytes request => { request with pinAuth := some bytes }
  | .newPinEnc, value =>
      (valueToBytes value).map fun bytes request => { request with newPinEnc := some bytes }
  | .pinHashEnc, value =>
      (valueToBytes value).map fun bytes request => { request with pinHashEnc := some bytes }
  | .permissions, value => (valueToU8 value).map fun n request =>
      { request with permissions := some (UInt8.ofNat n) }
  | .rpId, value => (valueToText value).map fun text request => { request with rpId := some text }

/-- Whether a field can be read does not depend on the request. -/
theorem setField_eq (request : ClientPinRequest) (field : Field) (value : Value) :
    setField request field value = (setterOf field value).map (· request) := by
  have hmap : ∀ {α : Type} (x : Except Ctap2Error α) (f : α → ClientPinRequest → ClientPinRequest),
      (x.map f).map (· request) = x.map fun a => f a request := by
    intro α x f
    cases x <;> rfl
  cases field with
  | _ =>
      rw [setterOf, hmap]
      rfl

theorem setterOf_subCommand {field : Field} {value : Value}
    {set : ClientPinRequest → ClientPinRequest} (hfield : field ≠ .subCommand)
    (h : setterOf field value = .ok set) (request : ClientPinRequest) :
    (set request).subCommand = request.subCommand := by
  cases field with
  | subCommand => exact absurd rfl hfield
  | _ =>
      obtain ⟨a, -, rfl⟩ := Except.map_eq_ok.mp h
      rfl

/-- Two fields can be set in either order. -/
theorem setterOf_comm {field field' : Field} {value value' : Value}
    {set set' : ClientPinRequest → ClientPinRequest} (hne : field ≠ field')
    (h : setterOf field value = .ok set) (h' : setterOf field' value' = .ok set')
    (request : ClientPinRequest) : set' (set request) = set (set' request) := by
  cases field
  all_goals
    obtain ⟨a, -, rfl⟩ := Except.map_eq_ok.mp h
    cases field'
  all_goals
    first
      | exact absurd rfl hne
      | obtain ⟨b, -, rfl⟩ := Except.map_eq_ok.mp h'
        rfl

theorem setField_subCommand {request request' : ClientPinRequest} {field : Field} {value : Value}
    (hfield : field ≠ .subCommand) (h : setField request field value = .ok request') :
    request'.subCommand = request.subCommand := by
  rw [setField_eq] at h
  obtain ⟨set, hset, rfl⟩ := Except.map_eq_ok.mp h
  exact setterOf_subCommand hfield hset request

theorem takeFields_subCommand {fields : List Field} (hfields : .subCommand ∉ fields)
    {items : List Value} {request request' : ClientPinRequest}
    (h : takeFields request fields items = .ok request') :
    request'.subCommand = request.subCommand := by
  induction fields generalizing items request with
  | nil =>
      obtain rfl := Except.ok.inj h
      rfl
  | cons field fields ih =>
      obtain ⟨hne, hrest⟩ := not_or.mp (mt List.mem_cons.mpr hfields)
      cases items with
      | nil =>
          obtain rfl := Except.ok.inj h
          rfl
      | cons item items =>
          obtain ⟨next, hnext, htake⟩ := Except.bind_eq_ok.mp h
          exact (ih hrest htake).trans (setField_subCommand (Ne.symm hne) hnext)

/-- No parameter is left over. -/
theorem takeExtra_eq {request : ClientPinRequest} {rest : List Value}
    (hpositional : rest.length ≤ (positional request.subCommand).length) :
    takeExtra request rest = .ok request := by
  rw [takeExtra]
  by_cases hsub : request.subCommand = 0x05
  · rw [hsub] at hpositional
    have hdrop : rest.drop 2 = [] := List.drop_eq_nil_of_le hpositional
    rw [if_pos hsub, hdrop]
  · rw [if_neg hsub]

theorem setIfPresent_eq (request : ClientPinRequest) (field : Field) (item : Value) :
    setIfPresent request field (some item) =
      decodeFromMap request (([item].filter present).map (entryOf field)) := by
  rw [setIfPresent]
  cases hitem : present item with
  | false =>
      have hnone : (some item).filter present = none := by simp [hitem]
      rw [hnone, List.filter_cons_of_neg (by rw [hitem]; decide)]
      rfl
  | true =>
      have hsome : (some item).filter present = some item := by simp [hitem]
      rw [hsome, List.filter_cons_of_pos hitem, List.filter_nil, List.map_cons, List.map_nil,
        decodeFromMap_cons]
      exact (bind_pure _).symm

theorem decodeFromMap_append (request : ClientPinRequest) (first second : List (Value × Value)) :
    decodeFromMap request (first ++ second) =
      decodeFromMap request first >>= (decodeFromMap · second) := by
  induction first generalizing request with
  | nil => rfl
  | cons entry first ih =>
      obtain ⟨key, value⟩ := entry
      rw [List.cons_append, decodeFromMap, decodeFromMap, bind_assoc]
      exact congrArg _ (funext ih)

theorem setField_integer {subCommand : Nat} (hsub : WithParameters subCommand)
    (request : ClientPinRequest) : setField request .subCommand (.integer subCommand) =
      .ok { request with subCommand := subCommand } := by
  simp only [WithParameters, List.mem_cons, List.not_mem_nil, or_false] at hsub
  rcases hsub with rfl | rfl | rfl | rfl | rfl <;> rfl

/-- The positional form is decoded as the map with its entries in order. -/
theorem decodeFromArray_eq {protocol : Value} {subCommand : Nat} {rest : List Value}
    (hsub : WithParameters subCommand)
    (hpositional : (rest.filter present).length ≤ (positional subCommand).length) :
    decodeFromArray (protocol :: .integer subCommand :: rest) =
      decodeFromMap default (mapForm protocol subCommand (rest.filter present)) := by
  have hfields : .subCommand ∉ positional subCommand := by
    simp only [WithParameters, List.mem_cons, List.not_mem_nil, or_false] at hsub
    rcases hsub with rfl | rfl | rfl | rfl | rfl <;> decide
  have hform : mapForm protocol subCommand (rest.filter present) =
      ([protocol].filter present).map (entryOf .pinProtocol) ++
        entryOf .subCommand (.integer subCommand) ::
          ((positional subCommand).zip (rest.filter present)).map fun entry =>
            entryOf entry.1 entry.2 := by
    rw [mapForm, formFields, List.map_append, List.map_map]
    rfl
  rw [hform, decodeFromMap_append, ← setIfPresent_eq]
  refine congrArg _ (funext fun request => ?_)
  rw [decodeFromMap_cons, setField_integer hsub]
  show (setField request .subCommand (.integer subCommand) >>= _) = decodeFromMap _ _
  rw [setField_integer hsub, ← takeFields_eq]
  show (takeFields _ (positional subCommand) (rest.filter present) >>= _) = _
  cases htake : takeFields { request with subCommand := subCommand } (positional subCommand)
      (rest.filter present) with
  | error error => rfl
  | ok taken =>
      have hkept : taken.subCommand = subCommand := takeFields_subCommand hfields htake
      exact takeExtra_eq (hkept ▸ hpositional)

/-! ## The order of a map -/

/-- What an entry sets. -/
def entrySetter (entry : Value × Value) : Except Ctap2Error (ClientPinRequest → ClientPinRequest) :=
  (fieldOfKey entry.1).elim (.ok id) fun field => setterOf field entry.2

theorem decodeFromMap_toOption (request : ClientPinRequest) (entry : Value × Value)
    (entries : List (Value × Value)) : (decodeFromMap request (entry :: entries)).toOption =
      (entrySetter entry).toOption.bind fun set =>
        (decodeFromMap (set request) entries).toOption := by
  obtain ⟨key, value⟩ := entry
  rw [decodeFromMap, entrySetter]
  cases fieldOfKey key with
  | none => rfl
  | some field =>
      simp only [Option.elim_some, setField_eq]
      cases setterOf field value <;> rfl

theorem entrySetter_comm {entry entry' : Value × Value}
    {set set' : ClientPinRequest → ClientPinRequest}
    (hne : fieldOfKey entry.1 ≠ fieldOfKey entry'.1) (h : entrySetter entry = .ok set)
    (h' : entrySetter entry' = .ok set') (request : ClientPinRequest) :
    set' (set request) = set (set' request) := by
  rw [entrySetter] at h h'
  cases hfield : fieldOfKey entry.1 with
  | none =>
      rw [hfield] at h
      obtain rfl := Except.ok.inj h
      rfl
  | some field =>
      cases hfield' : fieldOfKey entry'.1 with
      | none =>
          rw [hfield'] at h'
          obtain rfl := Except.ok.inj h'
          rfl
      | some field' =>
          rw [hfield] at h hne
          rw [hfield'] at h' hne
          exact setterOf_comm (fun heq => hne (congrArg some heq)) h h' request

/-- A map that names no field twice is decoded in any order. -/
theorem decodeFromMap_perm {entries entries' : List (Value × Value)} (h : entries.Perm entries')
    (hnodup : (entries.map fun entry => fieldOfKey entry.1).Nodup) (request : ClientPinRequest) :
    (decodeFromMap request entries).toOption = (decodeFromMap request entries').toOption := by
  induction h generalizing request with
  | nil => rfl
  | cons entry _ ih =>
      rw [decodeFromMap_toOption, decodeFromMap_toOption]
      exact congrArg _ (funext fun set => ih (List.nodup_cons.mp hnodup).2 (set request))
  | swap entry entry' entries =>
      have hne : fieldOfKey entry'.1 ≠ fieldOfKey entry.1 := fun heq =>
        (List.nodup_cons.mp hnodup).1 (List.mem_cons.mpr (.inl heq))
      simp only [decodeFromMap_toOption]
      cases hset : entrySetter entry with
      | error error => cases entrySetter entry' <;> rfl
      | ok set =>
          cases hset' : entrySetter entry' with
          | error error => rfl
          | ok set' =>
              show (decodeFromMap (set (set' request)) entries).toOption =
                (decodeFromMap (set' (set request)) entries).toOption
              rw [entrySetter_comm hne hset' hset]
  | trans h₁ _ ih₁ ih₂ =>
      have hmap := h₁.map fun entry : Value × Value => fieldOfKey entry.1
      exact (ih₁ hnodup request).trans (ih₂ (hmap.nodup_iff.mp hnodup) request)

theorem zip_sublist (fields : List Field) (params : List Value) :
    ((fields.zip params).map Prod.fst).Sublist fields := by
  induction fields generalizing params with
  | nil => simp
  | cons field fields ih =>
      cases params with
      | nil => simp
      | cons param params => exact (ih params).cons_cons field

theorem nodup_formFields (protocol : Value) {subCommand : Nat} (hsub : WithParameters subCommand)
    (params : List Value) : ((formFields protocol subCommand params).map Prod.fst).Nodup := by
  have hnodup : (.pinProtocol :: .subCommand :: positional subCommand).Nodup := by
    simp only [WithParameters, List.mem_cons, List.not_mem_nil, or_false] at hsub
    rcases hsub with rfl | rfl | rfl | rfl | rfl <;> decide
  refine hnodup.sublist ?_
  rw [formFields, List.map_append, List.map_cons]
  have hrest := (zip_sublist (positional subCommand) params).cons_cons .subCommand
  cases hprotocol : present protocol with
  | false =>
      rw [List.filter_cons_of_neg (by rw [hprotocol]; decide)]
      exact hrest.cons _
  | true =>
      rw [List.filter_cons_of_pos hprotocol]
      exact hrest.cons_cons _

theorem nodup_mapForm (protocol : Value) {subCommand : Nat} (hsub : WithParameters subCommand)
    (params : List Value) :
    ((mapForm protocol subCommand params).map fun entry => fieldOfKey entry.1).Nodup := by
  have hmap : (mapForm protocol subCommand params).map (fun entry => fieldOfKey entry.1) =
      ((formFields protocol subCommand params).map Prod.fst).map some := by
    rw [mapForm, List.map_map, List.map_map]
    exact List.map_congr_left fun entry _ => fieldOfKey_keyOf entry.1
  rw [hmap]
  exact List.Pairwise.map some (fun _ _ hne heq => hne (Option.some.inj heq))
    (nodup_formFields protocol hsub params)

/-! ## The request of a form -/

/-- Two requests have the same in a field. -/
def Agree (request request' : ClientPinRequest) : Field → Prop
  | .pinProtocol => request.pinProtocol = request'.pinProtocol
  | .subCommand => request.subCommand = request'.subCommand
  | .keyAgreement => request.keyAgreement = request'.keyAgreement
  | .pinAuth => request.pinAuth = request'.pinAuth
  | .newPinEnc => request.newPinEnc = request'.newPinEnc
  | .pinHashEnc => request.pinHashEnc = request'.pinHashEnc
  | .permissions => request.permissions = request'.permissions
  | .rpId => request.rpId = request'.rpId

/-- A field of the request is what this value reads as. -/
def Carries (request : ClientPinRequest) : Field → Value → Prop
  | .pinProtocol, value => ∃ n, valueToU8 value = .ok n ∧ request.pinProtocol = some n
  | .subCommand, value => valueToU8 value = .ok request.subCommand
  | .keyAgreement, value =>
      ∃ key, CoseEc2Key.fromCoseValue value = .ok key ∧ request.keyAgreement = some key
  | .pinAuth, value => ∃ bytes, valueToBytes value = .ok bytes ∧ request.pinAuth = some bytes
  | .newPinEnc, value => ∃ bytes, valueToBytes value = .ok bytes ∧ request.newPinEnc = some bytes
  | .pinHashEnc, value => ∃ bytes, valueToBytes value = .ok bytes ∧ request.pinHashEnc = some bytes
  | .permissions, value =>
      ∃ n, valueToU8 value = .ok n ∧ request.permissions = some (UInt8.ofNat n)
  | .rpId, value => ∃ text, valueToText value = .ok text ∧ request.rpId = some text

/-- The request has these fields, and otherwise what another request has. -/
def HasFields (before : ClientPinRequest) (fields : List (Field × Value))
    (request : ClientPinRequest) : Prop :=
  ∀ field, (fields.lookup field).elim (Agree request before field) (Carries request field)

theorem eq_of_agree {request request' : ClientPinRequest}
    (h : ∀ field, Agree request request' field) : request = request' := by
  obtain ⟨pinProtocol, subCommand, keyAgreement, pinAuth, newPinEnc, pinHashEnc, permissions, rpId⟩
    := request
  obtain rfl : pinProtocol = _ := h .pinProtocol
  obtain rfl : subCommand = _ := h .subCommand
  obtain rfl : keyAgreement = _ := h .keyAgreement
  obtain rfl : pinAuth = _ := h .pinAuth
  obtain rfl : newPinEnc = _ := h .newPinEnc
  obtain rfl : pinHashEnc = _ := h .pinHashEnc
  obtain rfl : permissions = _ := h .permissions
  obtain rfl : rpId = _ := h .rpId
  rfl

theorem agree_refl (request : ClientPinRequest) (field : Field) : Agree request request field := by
  cases field <;> rfl

/-- Setting a field makes it what the value reads as. -/
theorem carries_iff {field : Field} {value : Value} {set : ClientPinRequest → ClientPinRequest}
    (h : setterOf field value = .ok set) (request before : ClientPinRequest) :
    Carries request field value ↔ Agree request (set before) field := by
  cases field
  all_goals
    obtain ⟨a, ha, rfl⟩ := Except.map_eq_ok.mp h
    simp [Carries, Agree, ha, eq_comm]

/-- A value that cannot be read is in no request. -/
theorem not_carries {field : Field} {value : Value} {error : Ctap2Error}
    (h : setterOf field value = .error error) (request : ClientPinRequest) :
    ¬Carries request field value := by
  intro hcarries
  cases field
  all_goals
    simp only [Carries] at hcarries
    simp only [setterOf] at h
  case subCommand =>
    rw [hcarries] at h
    cases h
  all_goals
    obtain ⟨a, ha, -⟩ := hcarries
    rw [ha] at h
    cases h

theorem agree_set {field field' : Field} {value : Value}
    {set : ClientPinRequest → ClientPinRequest} (h : setterOf field value = .ok set)
    (hne : field' ≠ field) (request before : ClientPinRequest) :
    Agree request (set before) field' ↔ Agree request before field' := by
  cases field
  all_goals
    obtain ⟨a, -, rfl⟩ := Except.map_eq_ok.mp h
    cases field'
  all_goals
    first
      | exact absurd rfl hne
      | exact Iff.rfl

/-- Entries of different fields are decoded to the request that has them and is otherwise as it
was. -/
theorem decodeFromMap_eq_ok_iff {fields : List (Field × Value)}
    (hnodup : (fields.map Prod.fst).Nodup) (before request : ClientPinRequest) :
    decodeFromMap before (fields.map fun entry => entryOf entry.1 entry.2) = .ok request ↔
      HasFields before fields request := by
  induction fields generalizing before with
  | nil =>
      constructor
      · intro h field
        obtain rfl := Except.ok.inj h
        exact agree_refl _ _
      · intro h
        exact congrArg Except.ok (eq_of_agree h).symm
  | cons entry fields ih =>
      obtain ⟨field, value⟩ := entry
      obtain ⟨hnew, hrest⟩ := List.nodup_cons.mp hnodup
      have hnone : fields.lookup field = none := by
        rw [List.lookup_eq_none_iff]
        intro entry hentry
        rw [bne_iff_ne]
        rintro rfl
        exact hnew (List.mem_map.mpr ⟨entry, hentry, rfl⟩)
      have hself : List.lookup field ((field, value) :: fields) = some value :=
        List.lookup_cons_self
      rw [List.map_cons, decodeFromMap_cons, setField_eq]
      cases hset : setterOf field value with
      | error error =>
          constructor
          · intro h
            cases h
          · intro h
            have hfield := h field
            rw [hself] at hfield
            exact absurd hfield (not_carries hset request)
      | ok set =>
          refine (ih hrest (set before)).trans (forall_congr' fun field' => ?_)
          by_cases hfield : field' = field
          · subst hfield
            rw [hnone, hself]
            exact (carries_iff hset request before).symm
          · have hother : List.lookup field' ((field, value) :: fields) = fields.lookup field' := by
              rw [List.lookup_cons, beq_eq_false_iff_ne.mpr hfield]
            rw [hother]
            cases fields.lookup field' with
            | none => exact agree_set hset hfield request before
            | some value' => exact Iff.rfl

/-! ## The two forms -/

/-- **The two forms agree.** A positional form of a subcommand with parameters, whose parameters are
a prefix of its order with nulls between them, and a map with the same entries are decoded to the
same request, or both fail; the request has what the entries read as, and nothing else. -/
theorem forms_agree {cbor : Ciborium} {array map : Bytes} {protocol : Value} {subCommand : Nat}
    {rest : List Value} {entries : List (Value × Value)} (hsub : WithParameters subCommand)
    (hpositional : (rest.filter present).length ≤ (positional subCommand).length)
    (harray : readValue cbor array = .ok (.array (protocol :: .integer subCommand :: rest)))
    (hmap : readValue cbor map = .ok (.map entries))
    (hperm : entries.Perm (mapForm protocol subCommand (rest.filter present))) :
    (decode cbor array).toOption = (decode cbor map).toOption ∧
      ∀ request, decode cbor array = .ok request ↔
        HasFields default (formFields protocol subCommand (rest.filter present)) request := by
  have harray' : decode cbor array = decodeFromArray (protocol :: .integer subCommand :: rest) := by
    rw [decode, harray]
    rfl
  have hmap' : decode cbor map = decodeFromMap default entries := by
    rw [decode, hmap]
    rfl
  rw [harray', hmap', decodeFromArray_eq hsub hpositional]
  exact ⟨decodeFromMap_perm hperm.symm (nodup_mapForm protocol hsub _) default,
    decodeFromMap_eq_ok_iff (nodup_formFields protocol hsub _) default⟩

/-- getPinToken with nulls around its parameters. -/
def sampleArray : Bytes :=
  encodeValue (.array [.integer 1, .integer 5, .null, samplePlatformKey, .null,
    .bytes samplePinHashEnc])

/-- The same as a map that begins with the subcommand. -/
def sampleMap : Bytes :=
  encodeValue (.map [(.integer 2, .integer 5), (.integer 1, .integer 1),
    (.integer 3, samplePlatformKey), (.integer 6, .bytes samplePinHashEnc)])

/-- The request of both. -/
def sampleRequest : ClientPinRequest :=
  { ClientPinRequest.default with
    pinProtocol := some 1
    subCommand := 5
    keyAgreement := some ⟨samplePlatformX, samplePlatformY⟩
    pinHashEnc := some samplePinHashEnc }

set_option maxRecDepth 100000 in
theorem forms_agree_getPinToken : decode sampleCbor sampleArray = .ok sampleRequest ∧
    (decode sampleCbor sampleArray).toOption = (decode sampleCbor sampleMap).toOption := by
  obtain ⟨hagree, hrequest⟩ := @forms_agree sampleCbor sampleArray sampleMap (.integer 1) 5
    [.null, samplePlatformKey, .null, .bytes samplePinHashEnc] _ (by decide) (by decide) rfl rfl
    (List.Perm.swap _ _ _)
  refine ⟨(hrequest sampleRequest).mpr fun field => ?_, hagree⟩
  cases field with
  | pinProtocol => exact ⟨1, rfl, rfl⟩
  | keyAgreement => exact ⟨⟨samplePlatformX, samplePlatformY⟩, by decide +kernel, rfl⟩
  | pinHashEnc => exact ⟨samplePinHashEnc, rfl, rfl⟩
  | _ => rfl

end ClientPinRequest

end OpenKey
