import OpenKey.Ctap2.Forms

/-!
# Labels at the root of a message

`root_ctap_keys` puts integer labels in place of the names at the root of a message when it is
encoded, and the names back when it is decoded, from two tables for every structure (`Labels`).

**Trip (`ofValue_trip_iff`).** A structure comes back from the trip if and only if its fields come
back from the values that arrive under their names. A field whose label stands for another name, or
for none, arrives under that name, or under no name at all.
-/

namespace OpenKey

set_option autoImplicit false

namespace Serde

variable {α : Type} (cbor : Ciborium)

/-- The tables of one structure: labels for its names, names for its labels, and what becomes of a
value under a name, or under a label. -/
structure Labels where
  encode : String → Option Int
  decode : Int → Option String
  writeValue : String → Value → Value
  readValue : Int → Value → Value

namespace Labels

variable (labels : Labels)

/-- `root_ctap_keys` of an entry, when encoding. -/
def encodeEntry (entry : Value × Value) : Value × Value :=
  match entry.1 with
  | .text name =>
      ((labels.encode name).elim (.text name) .integer, labels.writeValue name entry.2)
  | key => (key, entry.2)

/-- `root_ctap_keys` of an entry, when decoding. -/
def decodeEntry (entry : Value × Value) : Value × Value :=
  match entry.1 with
  | .integer number =>
      ((labels.decode number).elim (.integer number) .text, labels.readValue number entry.2)
  | key => (key, entry.2)

/-- `root_ctap_keys`, when encoding. -/
def encodeKeys : Value → Value
  | .map entries => .map (entries.map labels.encodeEntry)
  | value => value

/-- `root_ctap_keys`, when decoding. -/
def decodeKeys : Value → Value
  | .map entries => .map (entries.map labels.decodeEntry)
  | value => value

/-- The key under which a field arrives. -/
def finalKey (name : String) : Value :=
  match labels.encode name with
  | some number => (labels.decode number).elim (.integer number) .text
  | none => .text name

/-- What arrives of the value of a field. -/
def carry (name : String) (value : Value) : Option Value :=
  (wire cbor (labels.writeValue name value)).map fun value =>
    match labels.encode name with
    | some number => labels.readValue number value
    | none => value

/-- The trip of an entry: a label has no other canonical form. -/
theorem arrival_eq (name : String) (value : Value) :
    ((wire cbor (labels.encodeEntry (.text name, value)).2).map fun value =>
      (canonicalizeCbor cbor (labels.encodeEntry (.text name, value)).1, value)).map
        labels.decodeEntry =
      arrival labels.finalKey (labels.carry cbor) (name, some value) := by
  unfold arrival encodeEntry decodeEntry finalKey carry
  simp only [Option.bind_some, Option.map_map]
  cases hencode : labels.encode name with
  | none =>
      simp only [Option.elim_none, canonicalizeCbor]
      rfl
  | some number =>
      simp only [Option.elim_some, canonicalizeCbor]
      rfl

/-- The entries of the fields after the trip, in some order. -/
theorem arrived_perm (fields : List (String × Option Value)) :
    ∃ entries, labels.decodeKeys (canonicalizeCbor cbor
      (labels.encodeKeys (.map (entriesOf fields)))) = .map entries ∧
        entries.Perm (arrived labels.finalKey (labels.carry cbor) fields) := by
  have hentries : (canonicalizeEntries cbor ((entriesOf fields).map labels.encodeEntry)).map
      labels.decodeEntry = arrived labels.finalKey (labels.carry cbor) fields := by
    rw [canonicalizeEntries_eq, List.map_filterMap, List.filterMap_map, entriesOf,
      List.filterMap_filterMap]
    refine List.filterMap_congr fun field _ => ?_
    obtain ⟨name, value⟩ := field
    cases value with
    | none => rfl
    | some value => exact labels.arrival_eq cbor name value
  refine ⟨((canonicalizeEntries cbor ((entriesOf fields).map labels.encodeEntry)).mergeSort
    fun x y => canonicalLe (cbor.intoWriter x.1) (cbor.intoWriter y.1)).map labels.decodeEntry,
    ?_, ?_⟩
  · rw [encodeKeys, canonicalizeCbor, decodeKeys]
  · rw [← hentries]
    exact (List.mergeSort_perm _ _).map _

variable {lenient : Bool} {fields : α → List (String × Option Value)} {names : List String}
  {read : (String → Option Value) → Option α}

/-- What is under a name after the trip. -/
def fieldTrip (fields : List (String × Option Value)) (name : String) : Option Value :=
  if name ∈ fields.map Prod.fst then
    arrivesUnder labels.finalKey (labels.carry cbor) fields name
  else none

/-- What is read after the trip of a structure: no key but a name is left, or is passed over, and
the fields come from what arrives under their names. -/
theorem ofValue_trip_iff (hnames : ∀ a, (fields a).map Prod.fst = names)
    (h : Distinct labels.finalKey names) (a b : α) :
    (structOf lenient fields names read).ofValue (labels.decodeKeys (canonicalizeCbor cbor
      (labels.encodeKeys ((structOf lenient fields names read).toValue a)))) = some b ↔
      (lenient = true ∨ Named labels.finalKey (labels.carry cbor) (fields a)) ∧
        read (labels.fieldTrip cbor (fields a)) = some b := by
  obtain ⟨entries, htrip, hperm⟩ := labels.arrived_perm cbor (fields a)
  have htoValue : (structOf lenient fields names read).toValue a =
    .map (entriesOf (fields a)) := rfl
  rw [htoValue, htrip]
  show readStruct lenient names read (.map entries) = some b ↔ _
  rw [← hnames a] at h ⊢
  rw [readStruct_arrived hperm h]
  by_cases hnamed : lenient = true ∨ Named labels.finalKey (labels.carry cbor) (fields a)
  · rw [if_pos hnamed, and_iff_right hnamed]
    rfl
  · rw [if_neg hnamed]
    exact iff_of_false nofun fun hand => hnamed hand.1

/-- Fields whose keys are no names after the trip are not written. -/
theorem named_of_unsent {fields : List (String × Option Value)}
    (h : ∀ field ∈ fields, isText (labels.finalKey field.1) = true ∨ field.2 = none) :
    Named labels.finalKey (labels.carry cbor) fields := by
  intro entry hentry
  obtain ⟨field, hmem, hfield⟩ := List.mem_filterMap.mp hentry
  rw [arrival_eq_some _ _ hfield]
  refine (h field hmem).resolve_right fun hnone => ?_
  rw [arrival, hnone] at hfield
  cases hfield

/-- Where nothing is done to a value but to put it in canonical form. -/
theorem carry_eq_wire {name : String} (hwrite : ∀ value, labels.writeValue name value = value)
    (hread : ∀ value, (labels.encode name).elim value (labels.readValue · value) = value)
    (value : Value) : labels.carry cbor name value = wire cbor value := by
  unfold carry
  rw [hwrite]
  cases hencode : labels.encode name with
  | none => exact Option.map_id'
  | some number =>
      rw [hencode] at hread
      exact (congrArg (Option.map · _) (funext hread)).trans Option.map_id'

variable {β : Type} {f : FieldForm β} {b : β} {P : β → Prop}
  {written : List (String × Option Value)}

/-- A field that arrives under its name is read as it was written where it keeps its value. -/
theorem take_trip_iff (hfield : labels.fieldTrip cbor written f.name =
      (f.put b).bind (labels.carry cbor f.name))
    (hcarry : ∀ value, labels.carry cbor f.name value = wire cbor value) (h : f.Keeps cbor P) :
    f.take (labels.fieldTrip cbor written) = some b ↔ P b := by
  rw [FieldForm.take, hfield, funext hcarry]
  exact h b

/-- A field that does not arrive is read as one that is missing. -/
theorem take_lost_iff {default : β} (hfield : labels.fieldTrip cbor written f.name = none)
    (hget : f.get none = some default) :
    f.take (labels.fieldTrip cbor written) = some b ↔ b = default := by
  rw [FieldForm.take, hfield, hget, Option.some.injEq, eq_comm]

end Labels

/-- The value that a structure is written as comes back as another one. -/
def Returns (labels : Labels) (form : Form α) (a b : α) : Prop :=
  form.ofValue (labels.decodeKeys (canonicalizeCbor cbor
    (labels.encodeKeys (form.toValue a)))) = some b

namespace Labels

variable (labels : Labels) {lenient : Bool} {fields : α → List (String × Option Value)}
  {names : List String} {read : (String → Option Value) → Option α}

/-- Where every key is a name after the trip. -/
theorem returns_iff_of_named (hnames : ∀ a, (fields a).map Prod.fst = names)
    (h : Distinct labels.finalKey names)
    (hnamed : ∀ name ∈ names, isText (labels.finalKey name) = true) (a b : α) :
    Returns cbor labels (structOf lenient fields names read) a b ↔
      read (labels.fieldTrip cbor (fields a)) = some b := by
  refine (labels.ofValue_trip_iff cbor hnames h a b).trans ?_
  refine and_iff_right (.inr (labels.named_of_unsent cbor fun field hfield => .inl ?_))
  exact hnamed field.1 (hnames a ▸ List.mem_map_of_mem hfield)

/-- Where a field whose key is no name after the trip comes back only if it is not written. -/
theorem returns_iff_of_unsent (hnames : ∀ a, (fields a).map Prod.fst = names)
    (h : Distinct labels.finalKey names) {a b : α} {p : Prop}
    (hread : read (labels.fieldTrip cbor (fields a)) = some b ↔ p)
    (hunsent : p → ∀ field ∈ fields a,
      isText (labels.finalKey field.1) = true ∨ field.2 = none) :
    Returns cbor labels (structOf lenient fields names read) a b ↔ p := by
  refine (labels.ofValue_trip_iff cbor hnames h a b).trans ((and_congr_right' hread).trans ?_)
  exact and_iff_right_of_imp fun hp => .inr (labels.named_of_unsent cbor (hunsent hp))

end Labels

/-! ## `encode_cbor` and `decode_cbor` -/

/-- `encode_cbor` of a structure. -/
def encodeStruct (labels : Labels) (form : Form α) (a : α) : Except Ctap2Error Bytes :=
  match cbor.fromReader (cbor.intoWriter (form.toValue a)) with
  | some (parsed, _) =>
      .ok (cbor.intoWriter (canonicalizeCbor cbor (labels.encodeKeys parsed)))
  | none => .error .unknown

/-- `decode_cbor` at a structure: `from_reader` is the derived decoder of the value that is read. -/
def decodeStruct (labels : Labels) (form : Form α) (data : Bytes) : Except Ctap2Error α := do
  let parsed ← readValue cbor data
  match (cbor.fromReader (cbor.intoWriter (labels.decodeKeys parsed))).bind fun found =>
    form.ofValue found.1 with
  | some a => .ok a
  | none => .error .invalidCbor

/-- `decode_cbor(encode_cbor(a))`. -/
def roundTrip (labels : Labels) (form : Form α) (a : α) : Except Ctap2Error α := do
  let data ← encodeStruct cbor labels form a
  decodeStruct cbor labels form data

/-- The library reads back what it has written of a value. -/
def Exact (value : Value) : Prop := cbor.fromReader (cbor.intoWriter value) = some (value, [])

/-- It does so for the values that are written on the trip of a structure. -/
structure Carries (labels : Labels) (form : Form α) (a : α) : Prop where
  typed : Exact cbor (form.toValue a)
  encoded : Exact cbor (canonicalizeCbor cbor (labels.encodeKeys (form.toValue a)))
  decoded : Exact cbor (labels.decodeKeys (canonicalizeCbor cbor
    (labels.encodeKeys (form.toValue a))))

theorem roundTrip_eq_ok_iff {labels : Labels} {form : Form α} {a b : α}
    (h : Carries cbor labels form a) :
    roundTrip cbor labels form a = .ok b ↔ Returns cbor labels form a b := by
  obtain ⟨htyped, hencoded, hdecoded⟩ := h
  unfold Exact at htyped hencoded hdecoded
  unfold Returns
  unfold roundTrip encodeStruct decodeStruct readValue
  simp only [htyped, bind, Except.bind, hencoded, hdecoded, Option.bind_some]
  cases form.ofValue (labels.decodeKeys (canonicalizeCbor cbor
    (labels.encodeKeys (form.toValue a)))) with
  | none => exact iff_of_false nofun nofun
  | some c => simp

end Serde

end OpenKey
