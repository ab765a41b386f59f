import OpenKey.Ctap2.Codec

/-!
# Integer keys

`decode_cbor` replaces an integer key by the name at that index in the label table of the request.
The index is the key as a `usize`, so what is looked up is the key modulo the number of values of a
`usize`.

**Theorem (`exact_iff`).** With a `usize` of 32 bits a request is decoded by its integer keys as
they are if and only if none of them, outside the range of a `usize`, is congruent to a key of the
table.
-/

namespace OpenKey

set_option autoImplicit false

namespace RequestType

/-! ## Labels -/

/-- The label of an integer key, where a `usize` counts to `range`. -/
def labelAt (range : Nat) (type : RequestType) (number : Int) : Option String :=
  ((toI64 number).bind fun n => type.labels[(n % range).toNat]?).filter (· ≠ "")

-- the codec has a `usize` of 32 bits
example (type : RequestType) : type.labelAt usizeRange = type.label := rfl

/-- The key of a field in the label table. -/
def IsKey (type : RequestType) (number : Int) (field : String) : Prop :=
  ∃ i : Nat, number = i ∧ type.labels[i]? = some field ∧ field ≠ ""

/-- A key outside the range of a `usize` that has the label of another one. -/
def Aliased (range : Nat) (type : RequestType) (number : Int) : Prop :=
  (-2 ^ 63 ≤ number ∧ number < 2 ^ 63) ∧ ¬(0 ≤ number ∧ number < range) ∧
    ∃ field, type.labels[(number % range).toNat]? = some field ∧ field ≠ ""

instance (range : Nat) (type : RequestType) (number : Int) :
    Decidable (type.Aliased range number) :=
  have hfield : Decidable (∃ field, type.labels[(number % range).toNat]? = some field ∧
      field ≠ "") :=
    decidable_of_iff ((type.labels[(number % range).toNat]?).any (· ≠ "") = true) (by
      simp [Option.any_eq_true])
  inferInstanceAs (Decidable (_ ∧ _ ∧ _))

variable {range : Nat} {type : RequestType} {number : Int} {field : String}

theorem length_labels (type : RequestType) : type.labels.length ≤ 11 := by
  cases type <;> decide

theorem labelAt_eq_some : type.labelAt range number = some field ↔
    (-2 ^ 63 ≤ number ∧ number < 2 ^ 63) ∧
      type.labels[(number % range).toNat]? = some field ∧ field ≠ "" := by
  unfold labelAt toI64
  by_cases hrange : -2 ^ 63 ≤ number ∧ number < 2 ^ 63
  · rw [if_pos hrange, Option.bind_some, Option.filter_eq_some_iff, decide_eq_true_iff]
    exact ⟨fun h => ⟨hrange, h⟩, fun h => h.2⟩
  · rw [if_neg hrange]
    exact iff_of_false nofun fun h => hrange h.1

/-- A key in the range of a `usize` is looked up as it is. -/
theorem isKey_of_label (hin : 0 ≤ number ∧ number < range)
    (h : type.labelAt range number = some field) : type.IsKey number field := by
  obtain ⟨-, hlabel, hne⟩ := labelAt_eq_some.mp h
  rw [Int.emod_eq_of_lt hin.1 hin.2] at hlabel
  exact ⟨number.toNat, (Int.toNat_of_nonneg hin.1).symm, hlabel, hne⟩

/-- Any other key that has a label is aliased, and is no key of the table. -/
theorem aliased_of_label (hout : ¬(0 ≤ number ∧ number < range))
    (h : type.labelAt range number = some field) : type.Aliased range number := by
  obtain ⟨hi64, hlabel⟩ := labelAt_eq_some.mp h
  exact ⟨hi64, hout, field, hlabel⟩

theorem Aliased.not_isKey (hrange : 11 ≤ range) (h : type.Aliased range number) (field : String) :
    ¬type.IsKey number field := by
  rintro ⟨i, rfl, hi, -⟩
  have hlt := (List.getElem?_eq_some_iff.mp hi).1
  have hlength := type.length_labels
  exact h.2.1 ⟨Int.natCast_nonneg i, by omega⟩

end RequestType

/-! ## Requests -/

/-- `root_ctap_keys`, when decoding, where a `usize` counts to `range`. -/
def rootCtapKeysAt (range : Nat) (type : RequestType) : Value → Value
  | .map entries =>
      .map (entries.map fun entry =>
        (renameKey (type.labelAt range) entry.1, rootCtapValue type entry.1 entry.2))
  | value => value

example (type : RequestType) (value : Value) :
    rootCtapKeysAt usizeRange type value = rootCtapKeys type value := by
  cases value <;> rfl

/-- Where an integer key of a map has become the name of a field, it is the key of that field. -/
def NamedExactly (isKey : Int → String → Prop) (entries decoded : List (Value × Value)) : Prop :=
  ∀ (i : Nat) (number : Int) (value : Value) (field : String) (value' : Value),
    entries[i]? = some (.integer number, value) →
    decoded[i]? = some (.text field, value') → isKey number field

/-- The key of a parameter of credential management. -/
def IsParamKey (number : Int) (field : String) : Prop :=
  (number, field) ∈ [((1 : Int), "rpIDHash"), (2, "credentialId"), (3, "user")]

/-- A request and the parameters in it are decoded by their integer keys as they are. -/
def DecodesExactly (range : Nat) (type : RequestType) (entries : List (Value × Value)) : Prop :=
  ∀ decoded, rootCtapKeysAt range type (.map entries) = .map decoded →
    NamedExactly type.IsKey entries decoded ∧
      ∀ (i : Nat) key params key' params', entries[i]? = some (key, .map params) →
        decoded[i]? = some (key', .map params') → NamedExactly IsParamKey params params'

theorem renameKey_eq_text {label : Int → Option String} {number : Int} {field : String} :
    renameKey label (.integer number) = .text field ↔ label number = some field := by
  rw [renameKey]
  cases label number with
  | none => exact iff_of_false nofun nofun
  | some name =>
      rw [Option.elim_some, Option.some.injEq]
      exact ⟨Value.text.inj, congrArg Value.text⟩

/-- Renaming the keys of a map is exact if the labels are. -/
theorem namedExactly_map {isKey : Int → String → Prop} {label : Int → Option String}
    {rename : Value → Value → Value} {entries : List (Value × Value)} :
    NamedExactly isKey entries
        (entries.map fun entry => (renameKey label entry.1, rename entry.1 entry.2)) ↔
      ∀ number value field, (.integer number, value) ∈ entries →
        label number = some field → isKey number field := by
  constructor
  · intro h number value field hmem hlabel
    obtain ⟨i, hi⟩ := List.getElem?_of_mem hmem
    refine h i number value field (rename (.integer number) value) hi ?_
    rw [List.getElem?_map, hi, Option.map_some, renameKey_eq_text.mpr hlabel]
  · intro h i number value field value' hi hdecoded
    rw [List.getElem?_map, hi, Option.map_some, Option.some.injEq, Prod.mk.injEq] at hdecoded
    exact h number value field (List.mem_of_getElem? hi) (renameKey_eq_text.mp hdecoded.1)

theorem isParamKey_of_label {number : Int} {field : String}
    (h : credMgmtParamLabel number = some field) : IsParamKey number field := by
  rw [credMgmtParamLabel, toI64] at h
  by_cases hrange : -2 ^ 63 ≤ number ∧ number < 2 ^ 63
  · rw [if_pos hrange] at h
    split at h
    all_goals
      simp only [Option.some.injEq, reduceCtorEq] at *
    all_goals
      subst_vars
      simp [IsParamKey]
  · rw [if_neg hrange] at h
    exact absurd h nofun

/-- Integers alone do not name a parameter. -/
theorem namedExactly_self (isKey : Int → String → Prop) (entries : List (Value × Value)) :
    NamedExactly isKey entries entries := by
  intro i number value field value' hi hdecoded
  rw [hi, Option.some.injEq, Prod.mk.injEq] at hdecoded
  exact absurd hdecoded.1 nofun

/-- The parameters are renamed by keys that no cast has narrowed. -/
theorem rootCtapValue_exact (type : RequestType) (key : Value)
    (params params' : List (Value × Value))
    (h : rootCtapValue type key (.map params) = .map params') :
    NamedExactly IsParamKey params params' := by
  unfold rootCtapValue at h
  split at h
  case h_1 hparams =>
    obtain rfl := Value.map.inj hparams
    obtain rfl := Value.map.inj h
    exact (@namedExactly_map IsParamKey _ (fun _ value => value) _).mpr
      fun number value field _ => isParamKey_of_label
  case h_2 =>
    obtain rfl := Value.map.inj h
    exact namedExactly_self IsParamKey params

theorem decodesExactly_iff {range : Nat} (hrange : 11 ≤ range) (type : RequestType)
    (entries : List (Value × Value)) : DecodesExactly range type entries ↔
      ∀ number value, (.integer number, value) ∈ entries → ¬type.Aliased range number := by
  constructor
  · intro h number value hmem haliased
    have hkeys := namedExactly_map.mp (h _ rfl).1
    have hnot := haliased.not_isKey hrange
    obtain ⟨hi64, -, field, hlabel⟩ := haliased
    exact hnot field
      (hkeys number value field hmem (RequestType.labelAt_eq_some.mpr ⟨hi64, hlabel⟩))
  · intro h decoded hdecoded
    obtain rfl := Value.map.inj hdecoded
    constructor
    · refine namedExactly_map.mpr fun number value field hmem hlabel => ?_
      by_cases hin : 0 ≤ number ∧ number < range
      · exact RequestType.isKey_of_label hin hlabel
      · exact absurd (RequestType.aliased_of_label hin hlabel) (h number value hmem)
    · intro i key params key' params' hi hparams
      rw [List.getElem?_map, hi, Option.map_some, Option.some.injEq, Prod.mk.injEq] at hparams
      exact rootCtapValue_exact type key params params' hparams.2

/-- The field that `decode_cbor` makes of an integer key is the one with that key, in every entry of
a request, exactly if no key of the request is aliased. -/
theorem exact_iff (type : RequestType) (entries : List (Value × Value)) :
    DecodesExactly usizeRange type entries ↔
      ∀ number value, (.integer number, value) ∈ entries → ¬type.Aliased usizeRange number :=
  decodesExactly_iff (by decide) type entries

/-- The key 2^32 + 2 is decoded as the key 2. -/
theorem alias_decoded : ¬∀ (type : RequestType) (entries : List (Value × Value)),
    DecodesExactly usizeRange type entries := by
  intro hall
  have haliased : RequestType.credentialManagement.Aliased usizeRange (2 ^ 32 + 2) := by decide
  have hexact := hall .credentialManagement [(.integer (2 ^ 32 + 2), .null)] _ rfl
  exact haliased.not_isKey (by decide) "subCommandParams"
    (hexact.1 0 (2 ^ 32 + 2) .null "subCommandParams" .null rfl rfl)

end OpenKey
