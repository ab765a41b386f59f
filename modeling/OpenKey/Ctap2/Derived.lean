import OpenKey.Ctap2.Codec
import Mathlib.Data.List.Perm.Basic

/-!
# Derived forms

How `serde` writes a type as a CBOR value and reads it back, as a `Form`: for the types of fields,
for the attributes of a field (`FieldForm`) and for a structure with its fields (`structOf`).

**Canonical form.** `canonicalize_cbor` stands between the two. It drops an entry that is null and
puts the others in order, so a field is read from its own value in canonical form, or from nothing
(`FieldForm.Keeps`). A structure reads its fields by name, in whatever order they arrive
(`readStruct_arrived`).
-/

namespace OpenKey

set_option autoImplicit false

namespace Serde

variable {α β : Type} (cbor : Ciborium)

/-! ## Canonical form -/

/-- What is left of the value of an entry: a null is dropped. -/
def wire : Value → Option Value
  | .null => none
  | value => some (canonicalizeCbor cbor value)

theorem wire_of_ne {value : Value} (h : value ≠ .null) :
    wire cbor value = some (canonicalizeCbor cbor value) := by
  cases value <;> first | rfl | exact absurd rfl h

theorem canonicalizeEntries_eq (entries : List (Value × Value)) :
    canonicalizeEntries cbor entries = entries.filterMap fun entry =>
      (wire cbor entry.2).map fun value => (canonicalizeCbor cbor entry.1, value) := by
  induction entries with
  | nil => rw [canonicalizeEntries, List.filterMap_nil]
  | cons entry entries ih =>
      obtain ⟨key, value⟩ := entry
      by_cases hnull : value = .null
      · subst hnull
        rw [canonicalizeEntries, ih]
        rfl
      · rw [canonicalizeEntries, ih, List.filterMap_cons_some (by rw [wire_of_ne cbor hnull]; rfl)]
        exact hnull

theorem canonicalizeItems_eq (items : List Value) :
    canonicalizeItems cbor items = items.map (canonicalizeCbor cbor) := by
  induction items with
  | nil => rw [canonicalizeItems, List.map_nil]
  | cons item items ih => rw [canonicalizeItems, ih, List.map_cons]

/-- Only a null has null for its canonical form. -/
theorem canonicalize_ne_null {value : Value} (h : value ≠ .null) :
    canonicalizeCbor cbor value ≠ .null := by
  cases value with
  | map entries =>
      rw [canonicalizeCbor]
      exact nofun
  | array items =>
      rw [canonicalizeCbor]
      exact nofun
  | null => exact absurd rfl h
  | _ =>
      rw [canonicalizeCbor]
      all_goals exact nofun

/-! ## Forms -/

/-- How a type is written as a value, and read from one. -/
structure Form (α : Type) where
  toValue : α → Value
  ofValue : Value → Option α

namespace Form

def text : Form String where
  toValue := .text
  ofValue
    | .text text => some text
    | _ => none

/-- `serde_bytes`. -/
def byteString : Form Bytes where
  toValue := .bytes
  ofValue
    | .bytes bytes => some bytes
    | _ => none

def flag : Form Bool where
  toValue := .bool
  ofValue
    | .bool flag => some flag
    | _ => none

/-- An unsigned integer of a type with `range` values. -/
def unsigned (range : Nat) : Form Nat where
  toValue number := .integer number
  ofValue
    | .integer number => if 0 ≤ number ∧ number < range then some number.toNat else none
    | _ => none

/-- `i32`. -/
def int32 : Form Int where
  toValue := .integer
  ofValue
    | .integer number => if -2 ^ 31 ≤ number ∧ number < 2 ^ 31 then some number else none
    | _ => none

/-- A value as it is. -/
def raw : Form Value where
  toValue value := value
  ofValue := some

/-- `Vec`. -/
def list (c : Form α) : Form (List α) where
  toValue items := .array (items.map c.toValue)
  ofValue
    | .array items => items.mapM c.ofValue
    | _ => none

/-- The value is never null. -/
def Present (c : Form α) : Prop := ∀ a, c.toValue a ≠ .null

/-- Exactly the values with `P` are read back from what canonical form leaves of them. -/
def Keeps (c : Form α) (P : α → Prop) : Prop :=
  ∀ a, (wire cbor (c.toValue a)).bind c.ofValue = some a ↔ P a

variable {cbor} {c : Form α} {P : α → Prop}

theorem keeps_of_present (hc : c.Present)
    (h : ∀ a, c.ofValue (canonicalizeCbor cbor (c.toValue a)) = some a ↔ P a) :
    c.Keeps cbor P := by
  intro a
  rw [wire_of_ne cbor (hc a), Option.bind_some]
  exact h a

theorem Keeps.of_present (h : c.Keeps cbor P) (hc : c.Present) (a : α) :
    c.ofValue (canonicalizeCbor cbor (c.toValue a)) = some a ↔ P a := by
  have hkeeps := h a
  rwa [wire_of_ne cbor (hc a), Option.bind_some] at hkeeps

theorem present_text : text.Present := fun _ => nofun

theorem present_byteString : byteString.Present := fun _ => nofun

theorem present_flag : flag.Present := fun _ => nofun

theorem present_unsigned (range : Nat) : (unsigned range).Present := fun _ => nofun

theorem present_int32 : int32.Present := fun _ => nofun

theorem present_list (c : Form α) : c.list.Present := fun _ => nofun

theorem keeps_text : text.Keeps cbor fun _ => True := by
  refine keeps_of_present present_text fun a => ?_
  rw [text, canonicalizeCbor]
  · exact iff_of_true rfl trivial
  all_goals exact nofun

theorem keeps_byteString : byteString.Keeps cbor fun _ => True := by
  refine keeps_of_present present_byteString fun a => ?_
  rw [byteString, canonicalizeCbor]
  · exact iff_of_true rfl trivial
  all_goals exact nofun

theorem keeps_flag : flag.Keeps cbor fun _ => True := by
  refine keeps_of_present present_flag fun a => ?_
  rw [flag, canonicalizeCbor]
  · exact iff_of_true rfl trivial
  all_goals exact nofun

theorem keeps_unsigned (range : Nat) : (unsigned range).Keeps cbor fun n => n < range := by
  refine keeps_of_present (present_unsigned range) fun a => ?_
  rw [unsigned, canonicalizeCbor]
  · by_cases h : a < range
    · simp [h]
    · simp [h]
  all_goals exact nofun

theorem keeps_int32 : int32.Keeps cbor fun n => -2 ^ 31 ≤ n ∧ n < 2 ^ 31 := by
  refine keeps_of_present present_int32 fun a => ?_
  rw [int32, canonicalizeCbor]
  · show (if -2 ^ 31 ≤ a ∧ a < 2 ^ 31 then some a else none) = some a ↔ _
    by_cases h : -2 ^ 31 ≤ a ∧ a < 2 ^ 31
    · rw [if_pos h]
      exact iff_of_true rfl h
    · rw [if_neg h]
      exact iff_of_false nofun h
  all_goals exact nofun

/-- A value that is in canonical form already, and not null. -/
def Canonical (cbor : Ciborium) (value : Value) : Prop :=
  value ≠ .null ∧ canonicalizeCbor cbor value = value

theorem keeps_raw : raw.Keeps cbor (Canonical cbor) := by
  intro value
  unfold Canonical raw
  by_cases hnull : value = .null
  · rw [hnull]
    exact iff_of_false nofun fun h => h.1 rfl
  · simp only [wire_of_ne cbor hnull, Option.bind_some, Option.some.injEq, hnull, ne_eq,
      not_false_eq_true, true_and]

theorem mapM_eq_some_iff {f : β → Option α} {g : α → β} (as : List α) :
    (as.map g).mapM f = some as ↔ ∀ a ∈ as, f (g a) = some a := by
  induction as with
  | nil => simp
  | cons a as ih =>
      rw [List.map_cons, List.mapM_cons, List.forall_mem_cons, ← ih]
      cases f (g a) with
      | none => simp
      | some b =>
          cases (as.map g).mapM f with
          | none => simp
          | some bs => simp

theorem Keeps.list (h : c.Keeps cbor P) (hc : c.Present) :
    c.list.Keeps cbor fun as => ∀ a ∈ as, P a := by
  refine keeps_of_present (present_list c) fun as => ?_
  have hitems : c.list.ofValue (canonicalizeCbor cbor (c.list.toValue as)) =
      (as.map fun a => canonicalizeCbor cbor (c.toValue a)).mapM c.ofValue := by
    rw [Form.list, canonicalizeCbor, canonicalizeItems_eq, List.map_map]
    rfl
  rw [hitems, mapM_eq_some_iff]
  exact forall₂_congr fun a _ => h.of_present hc a

end Form

/-! ## Fields -/

/-- A field of a structure: its name, its value, or none if it is not written, and what is read from
the value under its name, or from nothing. -/
structure FieldForm (α : Type) where
  name : String
  put : α → Option Value
  get : Option Value → Option α

namespace FieldForm

/-- What there is in an optional value; a null is nothing. -/
def readOption (c : Form α) : Value → Option (Option α)
  | .null => some none
  | value => (c.ofValue value).map some

/-- A field without attributes. -/
def required (name : String) (c : Form α) : FieldForm α where
  name := name
  put a := some (c.toValue a)
  get value := value.bind c.ofValue

/-- An `Option` without attributes: a null if there is nothing, and nothing if it is missing. -/
def nullable (name : String) (c : Form α) : FieldForm (Option α) where
  name := name
  put a := some (a.elim .null c.toValue)
  get value := value.elim (some none) (readOption c)

/-- `skip_serializing_if = "Option::is_none"`. -/
def optional (name : String) (c : Form α) : FieldForm (Option α) where
  name := name
  put a := a.map c.toValue
  get value := value.elim (some none) (readOption c)

/-- The same for a field that is read by a helper and has no `default`: it must not be missing. -/
def helped (name : String) (c : Form α) : FieldForm (Option α) where
  name := name
  put a := a.map c.toValue
  get value := value.bind (readOption c)

/-- `default`. -/
def defaulted (name : String) (c : Form α) (default : α) : FieldForm α where
  name := name
  put a := some (c.toValue a)
  get value := value.elim (some default) c.ofValue

/-- `skip_serializing` and `default`. -/
def unsent (name : String) (c : Form α) (default : α) : FieldForm α where
  name := name
  put _ := none
  get value := value.elim (some default) c.ofValue

/-- The name with the value, if it is written. -/
def entry (f : FieldForm α) (a : α) : String × Option Value := (f.name, f.put a)

/-- The field from the value under its name. -/
def take (f : FieldForm α) (values : String → Option Value) : Option α := f.get (values f.name)

/-- Exactly the values with `P` are read back from what canonical form leaves of the entry. -/
def Keeps (f : FieldForm α) (P : α → Prop) : Prop :=
  ∀ a, f.get ((f.put a).bind (wire cbor)) = some a ↔ P a

variable {cbor} {c : Form α} {P : α → Prop}

theorem keeps_required (name : String) (h : c.Keeps cbor P) : (required name c).Keeps cbor P := h

/-- What is there is read from its own value. -/
theorem readOption_wire {a : α} : (wire cbor (c.toValue a)).bind (readOption c) = some (some a) ↔
    (wire cbor (c.toValue a)).bind c.ofValue = some a := by
  by_cases hnull : c.toValue a = .null
  · rw [hnull]
    exact iff_of_false nofun nofun
  · rw [wire_of_ne cbor hnull, Option.bind_some, Option.bind_some]
    have hne := canonicalize_ne_null cbor hnull
    have hread : readOption c (canonicalizeCbor cbor (c.toValue a)) =
        (c.ofValue (canonicalizeCbor cbor (c.toValue a))).map some := by
      revert hne
      cases canonicalizeCbor cbor (c.toValue a) <;>
        first | exact fun _ => rfl | exact (absurd rfl ·)
    rw [hread, Option.map_eq_some_iff]
    constructor
    · intro h
      obtain ⟨b, hb, heq⟩ := h
      rw [hb, Option.some.inj heq]
    · intro h
      exact ⟨a, h, rfl⟩

theorem keeps_helped (name : String) (h : c.Keeps cbor P) :
    (helped name c).Keeps cbor fun o => ∃ a, o = some a ∧ P a := by
  intro o
  cases o with
  | none => exact iff_of_false nofun fun h => nomatch h
  | some a =>
      refine readOption_wire.trans ((h a).trans ?_)
      simp only [Option.some.injEq, exists_eq_left']

/-- Nothing is read as something only if it was nothing. -/
theorem elim_eq_some_iff {o : Option Value} {read : Value → Option (Option α)} {a : α} :
    o.elim (some none) read = some (some a) ↔ o.bind read = some (some a) := by
  cases o with
  | none => exact iff_of_false nofun nofun
  | some value => exact Iff.rfl

theorem keeps_optional (name : String) (h : c.Keeps cbor P) :
    (optional name c).Keeps cbor fun o => ∀ a, o = some a → P a := by
  intro o
  cases o with
  | none => exact iff_of_true rfl nofun
  | some a =>
      refine elim_eq_some_iff.trans (readOption_wire.trans ((h a).trans ?_))
      simp only [Option.some.injEq, forall_eq']

theorem keeps_nullable (name : String) (h : c.Keeps cbor P) :
    (nullable name c).Keeps cbor fun o => ∀ a, o = some a → P a := by
  intro o
  cases o with
  | none => exact iff_of_true rfl nofun
  | some a => exact keeps_optional name h (some a)

theorem keeps_defaulted (name : String) (default : α) (h : c.Keeps cbor P) (hc : c.Present) :
    (defaulted name c default).Keeps cbor P := by
  intro a
  refine Iff.trans ?_ (h.of_present hc a)
  rw [defaulted, Option.bind_some, wire_of_ne cbor (hc a)]
  exact Iff.rfl

theorem keeps_unsent (name : String) (c : Form α) (default : α) :
    (unsent name c default).Keeps cbor fun a => a = default := by
  intro a
  exact Option.some_inj.trans eq_comm

end FieldForm

/-! ## Structures -/

/-- A key that is this name. -/
def isName (name : String) : Value → Bool
  | .text text => decide (text = name)
  | _ => false

/-- A key that is a name. -/
def isText : Value → Bool
  | .text _ => true
  | _ => false

/-- The entries under a name. -/
def entriesUnder (name : String) (entries : List (Value × Value)) : List (Value × Value) :=
  entries.filter fun entry => isName name entry.1

/-- The value under a name. -/
def valueUnder (entries : List (Value × Value)) (name : String) : Option Value :=
  (entriesUnder name entries).head?.map Prod.snd

/-- The entries of the fields that are written. -/
def entriesOf (fields : List (String × Option Value)) : List (Value × Value) :=
  fields.filterMap fun field => field.2.map fun value => (.text field.1, value)

/-- The values under the names of the fields. -/
def fieldValues (names : List String) (entries : List (Value × Value)) (name : String) :
    Option Value :=
  if name ∈ names then valueUnder entries name else none

/-- A derived decoder: it reads the fields by their names, none of which comes twice. Other names
are passed over; a key that is not a name is passed over by a lenient decoder, and rejected by
another. -/
def readStruct (lenient : Bool) (names : List String) (read : (String → Option Value) → Option α) :
    Value → Option α
  | .map entries =>
      if (∀ name ∈ names, (entriesUnder name entries).length ≤ 1) ∧
          (lenient = true ∨ ∀ entry ∈ entries, isText entry.1 = true) then
        read (fieldValues names entries)
      else none
  | _ => none

/-- A derived form of a structure, from its fields with their values, and what is made of the values
under their names. -/
def structOf (lenient : Bool) (fields : α → List (String × Option Value)) (names : List String)
    (read : (String → Option Value) → Option α) : Form α where
  toValue a := .map (entriesOf (fields a))
  ofValue := readStruct lenient names read

theorem valueUnder_perm {entries entries' : List (Value × Value)} (h : entries.Perm entries')
    {name : String} (hname : (entriesUnder name entries).length ≤ 1) :
    valueUnder entries name = valueUnder entries' name := by
  have hperm : (entriesUnder name entries).Perm (entriesUnder name entries') := h.filter _
  unfold valueUnder
  match hunder : entriesUnder name entries, hname with
  | [], _ =>
      rw [hunder] at hperm
      rw [hperm.nil_eq]
  | [entry], _ =>
      rw [hunder] at hperm
      rw [List.singleton_perm.mp hperm]

/-! ## What arrives -/

section

variable (key : String → Value) (carry : String → Value → Option Value)

/-- The entry that arrives, where a name becomes a key, and a value what is left of it. -/
def arrival (field : String × Option Value) : Option (Value × Value) :=
  (field.2.bind (carry field.1)).map fun value => (key field.1, value)

def arrived (fields : List (String × Option Value)) : List (Value × Value) :=
  fields.filterMap (arrival key carry)

/-- What arrives under a name. -/
def arrivesUnder (fields : List (String × Option Value)) (name : String) : Option Value :=
  (fields.find? fun field => isName name (key field.1)).bind fun field =>
    field.2.bind (carry field.1)

theorem arrival_eq_some {field : String × Option Value} {entry : Value × Value}
    (h : arrival key carry field = some entry) : entry.1 = key field.1 := by
  obtain ⟨value, -, rfl⟩ := Option.map_eq_some_iff.mp h
  rfl

theorem entriesUnder_arrived (fields : List (String × Option Value)) (name : String) :
    entriesUnder name (arrived key carry fields) =
      arrived key carry (fields.filter fun field => isName name (key field.1)) := by
  induction fields with
  | nil => rfl
  | cons field fields ih =>
      unfold entriesUnder arrived at ih ⊢
      cases harrival : arrival key carry field with
      | none =>
          cases hname : isName name (key field.1) with
          | true => simp [harrival, hname, ih]
          | false => simp [harrival, hname, ih]
      | some entry =>
          have hkey := arrival_eq_some key carry harrival
          cases hname : isName name (key field.1) with
          | true => simp [harrival, hkey, hname, ih]
          | false => simp [harrival, hkey, hname, ih]

/-- No two names become the key of one of these. -/
def Distinct (names : List String) : Prop :=
  ∀ name ∈ names, (names.filter fun other => isName name (key other)).length ≤ 1

instance (names : List String) : Decidable (Distinct key names) :=
  inferInstanceAs (Decidable (∀ name ∈ names, _ ≤ 1))

variable {key carry}

theorem length_under_arrived {fields : List (String × Option Value)}
    (h : Distinct key (fields.map Prod.fst)) {name : String} (hname : name ∈ fields.map Prod.fst) :
    (entriesUnder name (arrived key carry fields)).length ≤ 1 := by
  have hlen := h name hname
  rw [List.filter_map, List.length_map] at hlen
  rw [entriesUnder_arrived]
  exact (List.length_filterMap_le _ _).trans hlen

/-- Of one field at most, the value that arrives. -/
theorem head_arrived {fields : List (String × Option Value)} (h : fields.length ≤ 1) :
    (arrived key carry fields).head?.map Prod.snd =
      fields.head?.bind fun field => field.2.bind (carry field.1) := by
  match fields, h with
  | [], _ => rfl
  | [field], _ =>
      have hone : arrived key carry [field] = (arrival key carry field).toList := by
        unfold arrived
        cases harrival : arrival key carry field <;> simp [harrival]
      rw [hone, List.head?_cons, Option.bind_some]
      unfold arrival
      cases field.2.bind (carry field.1) <;> rfl

theorem valueUnder_arrived {fields : List (String × Option Value)}
    (h : Distinct key (fields.map Prod.fst)) {name : String} (hname : name ∈ fields.map Prod.fst) :
    valueUnder (arrived key carry fields) name = arrivesUnder key carry fields name := by
  have hlen := h name hname
  rw [List.filter_map, List.length_map] at hlen
  unfold valueUnder arrivesUnder
  rw [entriesUnder_arrived, ← List.head?_filter]
  exact head_arrived hlen

/-- A key that arrives is a name. -/
def Named (key : String → Value) (carry : String → Value → Option Value)
    (fields : List (String × Option Value)) : Prop :=
  ∀ entry ∈ arrived key carry fields, isText entry.1 = true

instance (fields : List (String × Option Value)) : Decidable (Named key carry fields) :=
  inferInstanceAs (Decidable (∀ entry ∈ _, _ = true))

/-- A structure is read from what arrives of its fields, in any order. -/
theorem readStruct_arrived {entries : List (Value × Value)}
    {fields : List (String × Option Value)} (hentries : entries.Perm (arrived key carry fields))
    (h : Distinct key (fields.map Prod.fst)) (lenient : Bool)
    (read : (String → Option Value) → Option α) :
    readStruct lenient (fields.map Prod.fst) read (.map entries) =
      if lenient = true ∨ Named key carry fields then
        read fun name =>
          if name ∈ fields.map Prod.fst then arrivesUnder key carry fields name else none
      else none := by
  have hunder (name : String) (hname : name ∈ fields.map Prod.fst) :
      (entriesUnder name entries).length ≤ 1 := by
    have hperm : (entriesUnder name entries).Perm (entriesUnder name (arrived key carry fields)) :=
      hentries.filter _
    rw [hperm.length_eq]
    exact length_under_arrived h hname
  have hnamed : (∀ entry ∈ entries, isText entry.1 = true) ↔ Named key carry fields :=
    forall_congr' fun entry => imp_congr_left hentries.mem_iff
  refine if_congr ((and_iff_right hunder).trans (or_congr_right hnamed))
    (congrArg read (funext fun name => ?_)) rfl
  unfold fieldValues
  by_cases hname : name ∈ fields.map Prod.fst
  · rw [if_pos hname, if_pos hname, valueUnder_perm hentries (hunder name hname),
      valueUnder_arrived h hname]
  · rw [if_neg hname, if_neg hname]

end

/-- The entries of the fields in canonical form. -/
theorem canonicalizeEntries_entriesOf (fields : List (String × Option Value)) :
    canonicalizeEntries cbor (entriesOf fields) = arrived .text (fun _ => wire cbor) fields := by
  rw [canonicalizeEntries_eq, entriesOf, List.filterMap_filterMap]
  unfold arrived arrival
  refine List.filterMap_congr fun field _ => ?_
  cases field.2 with
  | none => rfl
  | some value =>
      have hkey : canonicalizeCbor cbor (.text field.1) = .text field.1 := by
        rw [canonicalizeCbor]
        all_goals exact nofun
      simp only [Option.map_some, Option.bind_some, hkey]

/-- Canonical form of a structure puts its entries in order. -/
theorem canonicalize_structOf {lenient : Bool} {fields : α → List (String × Option Value)}
    {names : List String} {read : (String → Option Value) → Option α} (a : α) :
    ∃ entries, canonicalizeCbor cbor ((structOf lenient fields names read).toValue a) =
      .map entries ∧ entries.Perm (arrived .text (fun _ => wire cbor) (fields a)) := by
  refine ⟨(arrived .text (fun _ => wire cbor) (fields a)).mergeSort fun x y =>
    canonicalLe (cbor.intoWriter x.1) (cbor.intoWriter y.1), ?_, List.mergeSort_perm _ _⟩
  show canonicalizeCbor cbor (.map (entriesOf (fields a))) = _
  rw [canonicalizeCbor, canonicalizeEntries_entriesOf]

theorem present_structOf (lenient : Bool) (fields : α → List (String × Option Value))
    (names : List String) (read : (String → Option Value) → Option α) :
    (structOf lenient fields names read).Present := fun _ => nofun

theorem named_text (carry : String → Value → Option Value)
    (fields : List (String × Option Value)) : Named .text carry fields := by
  intro entry hentry
  obtain ⟨field, -, hfield⟩ := List.mem_filterMap.mp hentry
  rw [arrival_eq_some _ _ hfield]
  rfl

/-- What is under a name in a structure whose keys are names. -/
def fieldWire (fields : List (String × Option Value)) (name : String) : Option Value :=
  if name ∈ fields.map Prod.fst then arrivesUnder .text (fun _ => wire cbor) fields name else none

/-- A structure is kept where its fields are. -/
theorem keeps_structOf {lenient : Bool} {fields : α → List (String × Option Value)}
    {names : List String} {read : (String → Option Value) → Option α} {P : α → Prop}
    (hnames : ∀ a, (fields a).map Prod.fst = names) (h : Distinct .text names)
    (hread : ∀ a, read (fieldWire cbor (fields a)) = some a ↔ P a) :
    (structOf lenient fields names read).Keeps cbor P := by
  refine Form.keeps_of_present (present_structOf _ _ _ _) fun a => ?_
  obtain ⟨entries, hcanonical, hperm⟩ := canonicalize_structOf cbor a
  rw [hcanonical, ← hread a]
  show readStruct lenient names read (.map entries) = some a ↔ _
  rw [← hnames a] at h ⊢
  rw [readStruct_arrived hperm h, if_pos (.inr (named_text _ _))]
  rfl

/-- A field is read as it was written where it keeps its value. -/
theorem take_iff {f : FieldForm β} {b : β} {P : β → Prop} {fields : List (String × Option Value)}
    (hfield : fieldWire cbor fields f.name = (f.put b).bind (wire cbor)) (h : f.Keeps cbor P) :
    f.take (fieldWire cbor fields) = some b ↔ P b := by
  rw [FieldForm.take, hfield]
  exact h b

/-! ## Maps with integer keys -/

/-- `BTreeMap::insert`, in ascending order of the keys. -/
def insertAscending (new : Int × Value) : List (Int × Value) → List (Int × Value)
  | [] => [new]
  | old :: rest =>
      if new.1 < old.1 then new :: old :: rest
      else if new.1 = old.1 then new :: rest
      else old :: insertAscending new rest

/-- A map that is filled from nothing. -/
def filled (found : List (Int × Value)) : List (Int × Value) :=
  found.foldl (fun entries entry => insertAscending entry entries) []

/-- An entry whose key is an `i64`. -/
def intEntry (entry : Value × Value) : Option (Int × Value) :=
  match entry.1 with
  | .integer number => (toI64 number).map fun key => (key, entry.2)
  | _ => none

/-- `BTreeMap<i64, Value>`. -/
def intMap : Form (List (Int × Value)) where
  toValue entries := .map (entries.map fun entry => (.integer entry.1, entry.2))
  ofValue
    | .map entries => (entries.mapM intEntry).map filled
    | _ => none

/-- The keys ascend, as they do in a `BTreeMap`. -/
def Ascending (entries : List (Int × Value)) : Prop := entries.Pairwise fun a b => a.1 < b.1

theorem mem_insertAscending {new entry : Int × Value} {entries : List (Int × Value)}
    (h : entry ∈ insertAscending new entries) : entry = new ∨ entry ∈ entries := by
  induction entries with
  | nil => exact .inl (List.mem_singleton.mp h)
  | cons old rest ih =>
      unfold insertAscending at h
      split at h
      · exact List.mem_cons.mp h
      · split at h
        · obtain h | h := List.mem_cons.mp h
          · exact .inl h
          · exact .inr (List.mem_cons_of_mem old h)
        · obtain rfl | h := List.mem_cons.mp h
          · exact .inr List.mem_cons_self
          · exact (ih h).imp_right (List.mem_cons_of_mem old)

theorem ascending_insertAscending {entries : List (Int × Value)} (new : Int × Value)
    (h : Ascending entries) : Ascending (insertAscending new entries) := by
  induction entries with
  | nil => exact List.pairwise_singleton _ _
  | cons old rest ih =>
      obtain ⟨hold, hrest⟩ := List.pairwise_cons.mp h
      unfold insertAscending
      split
      · next hlt =>
          refine List.pairwise_cons.mpr ⟨fun entry hentry => ?_, h⟩
          obtain rfl | hentry := List.mem_cons.mp hentry
          · exact hlt
          · exact lt_trans hlt (hold entry hentry)
      · split
        · next heq =>
            exact List.pairwise_cons.mpr ⟨fun entry hentry => heq ▸ hold entry hentry, hrest⟩
        · next hnlt hne =>
            refine List.pairwise_cons.mpr ⟨fun entry hentry => ?_, ih hrest⟩
            obtain rfl | hentry := mem_insertAscending hentry
            · omega
            · exact hold entry hentry

theorem perm_insertAscending {new : Int × Value} {entries : List (Int × Value)}
    (h : new.1 ∉ entries.map Prod.fst) : (insertAscending new entries).Perm (new :: entries) := by
  induction entries with
  | nil => exact List.Perm.refl _
  | cons old rest ih =>
      rw [List.map_cons, List.mem_cons, not_or] at h
      obtain ⟨hold, hrest⟩ := h
      unfold insertAscending
      rw [if_neg hold]
      split
      · exact List.Perm.refl _
      · exact ((ih hrest).cons old).trans (List.Perm.swap new old rest)

theorem ascending_filled (found : List (Int × Value)) : Ascending (filled found) := by
  have hfold (entries : List (Int × Value)) (h : Ascending entries) :
      Ascending (found.foldl (fun entries entry => insertAscending entry entries) entries) := by
    induction found generalizing entries with
    | nil => exact h
    | cons entry found ih => exact ih _ (ascending_insertAscending entry h)
  exact hfold [] List.Pairwise.nil

theorem perm_foldl_insert {found entries : List (Int × Value)}
    (h : ((found ++ entries).map Prod.fst).Nodup) :
    (found.foldl (fun entries entry => insertAscending entry entries) entries).Perm
      (found ++ entries) := by
  induction found generalizing entries with
  | nil => exact List.Perm.refl _
  | cons entry found ih =>
      rw [List.cons_append, List.map_cons] at h
      have hnew : entry.1 ∉ entries.map Prod.fst := by
        intro hmem
        have hnot := (List.nodup_cons.mp h).1
        rw [List.map_append] at hnot
        exact hnot (List.mem_append_right _ hmem)
      have hmiddle : (found ++ insertAscending entry entries).Perm (entry :: (found ++ entries)) :=
        ((perm_insertAscending hnew).append_left found).trans List.perm_middle
      refine (ih ?_).trans hmiddle
      exact ((hmiddle.map Prod.fst).nodup_iff).mpr h

theorem perm_filled {found : List (Int × Value)} (h : (found.map Prod.fst).Nodup) :
    (filled found).Perm found := by
  have hfold : (filled found).Perm (found ++ []) :=
    perm_foldl_insert (by rwa [List.append_nil])
  rwa [List.append_nil] at hfold

theorem Ascending.nodup {entries : List (Int × Value)} (h : Ascending entries) :
    (entries.map Prod.fst).Nodup := by
  refine List.pairwise_map.mpr (h.imp fun hlt heq => ?_)
  omega

/-- Two maps with the same entries are the same. -/
theorem Ascending.eq_of_perm {entries entries' : List (Int × Value)} (h : Ascending entries)
    (h' : Ascending entries') (hperm : entries.Perm entries') : entries = entries' := by
  refine List.Perm.eq_of_pairwise (fun a b _ _ hab hba => ?_) h h' hperm
  omega

/-- The key as a value. -/
def toEntry (entry : Int × Value) : Value × Value := (.integer entry.1, entry.2)

theorem intEntry_toEntry {entry entry' : Int × Value} :
    intEntry (toEntry entry) = some entry' ↔
      entry' = entry ∧ -2 ^ 63 ≤ entry.1 ∧ entry.1 < 2 ^ 63 := by
  obtain ⟨key, value⟩ := entry
  unfold intEntry toEntry toI64
  by_cases h : -2 ^ 63 ≤ key ∧ key < 2 ^ 63
  · simp only [if_pos h, Option.map_some, Option.some.injEq]
    exact ⟨fun heq => ⟨heq.symm, h⟩, fun heq => heq.1.symm⟩
  · simp only [if_neg h, Option.map_none]
    exact iff_of_false nofun fun hand => h hand.2

theorem mapM_intEntry {found found' : List (Int × Value)} :
    (found.map toEntry).mapM intEntry = some found' ↔
      found' = found ∧ ∀ entry ∈ found, -2 ^ 63 ≤ entry.1 ∧ entry.1 < 2 ^ 63 := by
  induction found generalizing found' with
  | nil => simp [eq_comm]
  | cons entry found ih =>
      simp only [List.map_cons, List.mapM_cons, bind, Option.bind_eq_some_iff, pure,
        intEntry_toEntry, ih, List.forall_mem_cons, Option.some.injEq]
      constructor
      · intro h
        obtain ⟨_, ⟨rfl, hentry⟩, _, ⟨rfl, hfound⟩, rfl⟩ := h
        exact ⟨rfl, hentry, hfound⟩
      · intro h
        obtain ⟨rfl, hentry, hfound⟩ := h
        exact ⟨entry, ⟨rfl, hentry⟩, found, ⟨rfl, hfound⟩, rfl⟩

/-- What canonical form leaves of the entries. -/
def keptEntries (entries : List (Int × Value)) : List (Int × Value) :=
  entries.filterMap fun entry => (wire cbor entry.2).map fun value => (entry.1, value)

theorem canonicalize_intMap (entries : List (Int × Value)) :
    ∃ found : List (Int × Value),
      canonicalizeCbor cbor (intMap.toValue entries) = .map (found.map toEntry) ∧
        found.Perm (keptEntries cbor entries) := by
  have hentries : canonicalizeEntries cbor (entries.map toEntry) =
      (keptEntries cbor entries).map toEntry := by
    rw [canonicalizeEntries_eq, List.filterMap_map, keptEntries, List.map_filterMap]
    refine List.filterMap_congr fun entry _ => ?_
    have hkey : canonicalizeCbor cbor (.integer entry.1) = .integer entry.1 := by
      rw [canonicalizeCbor]
      all_goals exact nofun
    simp only [Function.comp, toEntry, hkey, Option.map_map]
    rfl
  have hperm := List.mergeSort_perm ((keptEntries cbor entries).map toEntry) fun x y =>
    canonicalLe (cbor.intoWriter x.1) (cbor.intoWriter y.1)
  generalize hsorted : ((keptEntries cbor entries).map toEntry).mergeSort (fun x y =>
    canonicalLe (cbor.intoWriter x.1) (cbor.intoWriter y.1)) = sorted at hperm
  let back (entry : Value × Value) : Int × Value :=
    match entry.1 with
    | .integer number => (number, entry.2)
    | _ => (0, entry.2)
  have hback : back ∘ toEntry = id := rfl
  refine ⟨sorted.map back, ?_, ?_⟩
  · show canonicalizeCbor cbor (.map (entries.map toEntry)) = _
    rw [canonicalizeCbor, hentries, hsorted, List.map_map]
    refine congrArg Value.map ((List.map_congr_left fun entry hentry => ?_).trans
      (List.map_id sorted)).symm
    obtain ⟨kept, -, rfl⟩ := List.mem_map.mp (hperm.mem_iff.mp hentry)
    rfl
  · have hmap := hperm.map back
    rwa [List.map_map, hback, List.map_id] at hmap

theorem ascending_keptEntries {entries : List (Int × Value)} (h : Ascending entries) :
    Ascending (keptEntries cbor entries) := by
  refine h.filterMap _ fun a a' hlt b hb b' hb' => ?_
  obtain ⟨value, -, rfl⟩ := Option.map_eq_some_iff.mp hb
  obtain ⟨value', -, rfl⟩ := Option.map_eq_some_iff.mp hb'
  exact hlt

theorem filterMap_eq_self_iff {f : α → Option α} {l : List α} :
    l.filterMap f = l ↔ ∀ a ∈ l, f a = some a := by
  induction l with
  | nil => simp
  | cons a l ih =>
      rw [List.forall_mem_cons, ← ih]
      cases h : f a with
      | none =>
          rw [List.filterMap_cons_none h]
          refine iff_of_false (fun heq => ?_) fun hand => nomatch hand.1
          have hlen := List.length_filterMap_le f l
          rw [heq, List.length_cons] at hlen
          omega
      | some b => rw [List.filterMap_cons_some h, List.cons.injEq, Option.some.injEq]

theorem wire_eq_self_iff {value : Value} :
    wire cbor value = some value ↔ Form.Canonical cbor value := by
  have hraw : (wire cbor value).bind Form.raw.ofValue = some value ↔ Form.Canonical cbor value :=
    Form.keeps_raw value
  rwa [Form.raw, Option.bind_fun_some] at hraw

theorem keptEntries_eq_self_iff {entries : List (Int × Value)} :
    keptEntries cbor entries = entries ↔
      ∀ entry ∈ entries, Form.Canonical cbor entry.2 := by
  refine filterMap_eq_self_iff.trans (forall₂_congr fun entry _ => ?_)
  rw [← wire_eq_self_iff, Option.map_eq_some_iff]
  constructor
  · intro h
    obtain ⟨value, hvalue, heq⟩ := h
    rw [hvalue, ← heq]
  · intro h
    exact ⟨entry.2, h, rfl⟩

theorem present_intMap : intMap.Present := fun _ => nofun

/-- A map is kept if its keys ascend and its values are canonical. -/
theorem keeps_intMap : intMap.Keeps cbor fun entries => Ascending entries ∧
    (∀ entry ∈ entries, -2 ^ 63 ≤ entry.1 ∧ entry.1 < 2 ^ 63) ∧
      ∀ entry ∈ entries, Form.Canonical cbor entry.2 := by
  refine Form.keeps_of_present present_intMap fun entries => ?_
  obtain ⟨found, hcanonical, hperm⟩ := canonicalize_intMap cbor entries
  rw [hcanonical]
  show ((found.map toEntry).mapM intEntry).map filled = some entries ↔ _
  rw [Option.map_eq_some_iff, ← keptEntries_eq_self_iff]
  simp only [mapM_intEntry]
  constructor
  · intro h
    obtain ⟨_, ⟨rfl, hrange⟩, hfilled⟩ := h
    have hascending := hfilled ▸ ascending_filled _
    have hkept := ascending_keptEntries cbor hascending
    have hnodup := ((hperm.map Prod.fst).nodup_iff).mpr hkept.nodup
    have hsame : entries.Perm (keptEntries cbor entries) := by
      have hfound := perm_filled hnodup
      rw [hfilled] at hfound
      exact hfound.trans hperm
    have heq := hascending.eq_of_perm hkept hsame
    refine ⟨hascending, fun entry hentry => hrange entry ?_, heq.symm⟩
    exact hperm.mem_iff.mpr (hsame.mem_iff.mp hentry)
  · intro h
    obtain ⟨hascending, hrange, hkept⟩ := h
    rw [hkept] at hperm
    refine ⟨found, ⟨rfl, fun entry hentry => hrange entry (hperm.mem_iff.mp hentry)⟩, ?_⟩
    have hnodup := ((hperm.map Prod.fst).nodup_iff).mpr hascending.nodup
    exact (ascending_filled found).eq_of_perm hascending ((perm_filled hnodup).trans hperm)

end Serde

end OpenKey
