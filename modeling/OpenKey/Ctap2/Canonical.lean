import OpenKey.Ctap2.Derived

/-!
# The canonical form

What `canonicalize_cbor` of `crates/openkey-core/src/ctap2/ctap2.rs` makes of a value, at every
depth through arrays and maps. Tags and the other values stay as they are.

**Canonical form (`canonicalizeCbor_spec`).** The result is a `CanonicalValue`: the keys of every
map are ordered by the length of their encoding and then bytewise, and no entry of a map is null. It
is the value `Rearranged`: it has the items of an array and the entries of a map that are not null,
put in canonical form and nothing else. And it stays as it is when it is put in canonical form once
more.

All three are inductions over the value; the last one says that every canonical value is its own
canonical form (`canonicalizeCbor_of_canonical`), since a stable sort does not move what is in
order.
-/

namespace OpenKey

set_option autoImplicit false

/-! ## The order of keys -/

/-- Shorter first, then bytewise. -/
def EncodingLe (a b : Bytes) : Prop := a.length < b.length ∨ a.length = b.length ∧ a ≤ b

theorem canonicalLe_eq_true {a b : Bytes} : canonicalLe a b = true ↔ EncodingLe a b := by
  simp [canonicalLe, EncodingLe]

theorem EncodingLe.total (a b : Bytes) : EncodingLe a b ∨ EncodingLe b a := by
  rcases lt_trichotomy a.length b.length with hlt | heq | hgt
  · exact .inl (.inl hlt)
  · rcases List.le_total a b with hle | hle
    · exact .inl (.inr ⟨heq, hle⟩)
    · exact .inr (.inr ⟨heq.symm, hle⟩)
  · exact .inr (.inl hgt)

theorem EncodingLe.trans {a b c : Bytes} (hab : EncodingLe a b) (hbc : EncodingLe b c) :
    EncodingLe a c := by
  rcases hab with hab | ⟨hab, hle⟩
  · rcases hbc with hbc | ⟨hbc, -⟩
    · exact .inl (hab.trans hbc)
    · exact .inl (hbc ▸ hab)
  · rcases hbc with hbc | ⟨hbc, hle'⟩
    · exact .inl (hab ▸ hbc)
    · exact .inr ⟨hab.trans hbc, List.le_trans hle hle'⟩

/-! ## Canonical values -/

section

variable (cbor : Ciborium)

/-- The keys of the entries are in order. -/
def KeysOrdered (entries : List (Value × Value)) : Prop :=
  entries.Pairwise fun x y => EncodingLe (cbor.intoWriter x.1) (cbor.intoWriter y.1)

mutual

/-- At every depth, keys are in order and no entry is null. -/
inductive CanonicalValue : Value → Prop
  | map {entries : List (Value × Value)} (hordered : KeysOrdered cbor entries)
      (h : CanonicalEntries entries) : CanonicalValue (.map entries)
  | array {items : List Value} (h : CanonicalItems items) : CanonicalValue (.array items)
  | other {value : Value} (hmap : ∀ entries, value ≠ .map entries)
      (harray : ∀ items, value ≠ .array items) : CanonicalValue value

inductive CanonicalItems : List Value → Prop
  | nil : CanonicalItems []
  | cons {item : Value} {items : List Value} (hitem : CanonicalValue item)
      (h : CanonicalItems items) : CanonicalItems (item :: items)

inductive CanonicalEntries : List (Value × Value) → Prop
  | nil : CanonicalEntries []
  | cons {key value : Value} {entries : List (Value × Value)} (hnull : value ≠ .null)
      (hkey : CanonicalValue key) (hvalue : CanonicalValue value) (h : CanonicalEntries entries) :
      CanonicalEntries ((key, value) :: entries)

end

end

mutual

/-- At every depth, the same but for the order of entries and the entries that are null. -/
inductive Rearranged : Value → Value → Prop
  | map {entries kept arranged : List (Value × Value)} (h : RearrangedEntries entries kept)
      (hperm : arranged.Perm kept) : Rearranged (.map entries) (.map arranged)
  | array {items items' : List Value} (h : RearrangedItems items items') :
      Rearranged (.array items) (.array items')
  | other {value : Value} (hmap : ∀ entries, value ≠ .map entries)
      (harray : ∀ items, value ≠ .array items) : Rearranged value value

inductive RearrangedItems : List Value → List Value → Prop
  | nil : RearrangedItems [] []
  | cons {item item' : Value} {items items' : List Value} (hitem : Rearranged item item')
      (h : RearrangedItems items items') : RearrangedItems (item :: items) (item' :: items')

inductive RearrangedEntries : List (Value × Value) → List (Value × Value) → Prop
  | nil : RearrangedEntries [] []
  | drop {key : Value} {entries kept : List (Value × Value)} (h : RearrangedEntries entries kept) :
      RearrangedEntries ((key, .null) :: entries) kept
  | keep {key key' value value' : Value} {entries kept : List (Value × Value)}
      (hnull : value ≠ .null) (hkey : Rearranged key key') (hvalue : Rearranged value value')
      (h : RearrangedEntries entries kept) :
      RearrangedEntries ((key, value) :: entries) ((key', value') :: kept)

end

variable {cbor : Ciborium}

/-! ## Entries -/

theorem canonicalEntries_iff {entries : List (Value × Value)} :
    CanonicalEntries cbor entries ↔
      ∀ entry ∈ entries,
        entry.2 ≠ .null ∧ CanonicalValue cbor entry.1 ∧ CanonicalValue cbor entry.2 := by
  induction entries with
  | nil => exact iff_of_true .nil nofun
  | cons entry entries ih =>
      rw [List.forall_mem_cons, ← ih]
      constructor
      · rintro (_ | ⟨hnull, hkey, hvalue, h⟩)
        exact ⟨⟨hnull, hkey, hvalue⟩, h⟩
      · rintro ⟨⟨hnull, hkey, hvalue⟩, h⟩
        exact .cons hnull hkey hvalue h

theorem CanonicalEntries.perm {entries entries' : List (Value × Value)}
    (h : CanonicalEntries cbor entries) (hperm : entries'.Perm entries) :
    CanonicalEntries cbor entries' :=
  canonicalEntries_iff.mpr fun entry hentry =>
    canonicalEntries_iff.mp h entry (hperm.mem_iff.mp hentry)

theorem canonicalizeEntries_null (key : Value) (entries : List (Value × Value)) :
    canonicalizeEntries cbor ((key, .null) :: entries) = canonicalizeEntries cbor entries := by
  rw [canonicalizeEntries]

theorem canonicalizeEntries_cons {value : Value} (h : value ≠ .null) (key : Value)
    (entries : List (Value × Value)) :
    canonicalizeEntries cbor ((key, value) :: entries) =
      (canonicalizeCbor cbor key, canonicalizeCbor cbor value) ::
        canonicalizeEntries cbor entries := by
  rw [canonicalizeEntries]
  exact h

/-- The entries of a map in canonical form. -/
def arrangedEntries (cbor : Ciborium) (entries : List (Value × Value)) : List (Value × Value) :=
  (canonicalizeEntries cbor entries).mergeSort fun a b =>
    canonicalLe (cbor.intoWriter a.1) (cbor.intoWriter b.1)

theorem canonicalizeCbor_map (entries : List (Value × Value)) :
    canonicalizeCbor cbor (.map entries) = .map (arrangedEntries cbor entries) := by
  rw [canonicalizeCbor, arrangedEntries]

theorem perm_arrangedEntries (entries : List (Value × Value)) :
    (arrangedEntries cbor entries).Perm (canonicalizeEntries cbor entries) :=
  List.mergeSort_perm _ _

theorem keysOrdered_arrangedEntries (entries : List (Value × Value)) :
    KeysOrdered cbor (arrangedEntries cbor entries) := by
  have hsorted : (arrangedEntries cbor entries).Pairwise fun a b =>
      canonicalLe (cbor.intoWriter a.1) (cbor.intoWriter b.1) = true := by
    refine List.pairwise_mergeSort (fun a b c hab hbc => ?_) (fun a b => ?_) _
    · rw [canonicalLe_eq_true] at hab hbc ⊢
      exact hab.trans hbc
    · rw [Bool.or_eq_true, canonicalLe_eq_true, canonicalLe_eq_true]
      exact EncodingLe.total _ _
  exact hsorted.imp fun h => canonicalLe_eq_true.mp h

/-- Entries that are in order are not moved. -/
theorem arrangedEntries_of_ordered {entries : List (Value × Value)}
    (h : canonicalizeEntries cbor entries = entries) (hordered : KeysOrdered cbor entries) :
    arrangedEntries cbor entries = entries := by
  rw [arrangedEntries, h]
  exact List.mergeSort_of_pairwise (hordered.imp fun hle => canonicalLe_eq_true.mpr hle)

theorem canonicalizeCbor_other {value : Value} (hmap : ∀ entries, value ≠ .map entries)
    (harray : ∀ items, value ≠ .array items) : canonicalizeCbor cbor value = value := by
  rw [canonicalizeCbor]
  · exact hmap
  · exact harray

/-! ## What the canonical form is -/

mutual

theorem canonical_canonicalizeCbor :
    ∀ value : Value, CanonicalValue cbor (canonicalizeCbor cbor value)
  | .map entries => by
      rw [canonicalizeCbor_map]
      exact .map (keysOrdered_arrangedEntries entries)
        ((canonical_canonicalizeEntries entries).perm (perm_arrangedEntries entries))
  | .array items => by
      rw [canonicalizeCbor]
      exact .array (canonical_canonicalizeItems items)
  | .integer _ | .bytes _ | .float _ | .text _ | .bool _ | .null | .tag _ _ => by
      rw [canonicalizeCbor]
      · exact .other nofun nofun
      · exact nofun
      · exact nofun

theorem canonical_canonicalizeItems :
    ∀ items : List Value, CanonicalItems cbor (canonicalizeItems cbor items)
  | [] => by
      rw [canonicalizeItems]
      exact .nil
  | item :: items => by
      rw [canonicalizeItems]
      exact .cons (canonical_canonicalizeCbor item) (canonical_canonicalizeItems items)

theorem canonical_canonicalizeEntries :
    ∀ entries : List (Value × Value), CanonicalEntries cbor (canonicalizeEntries cbor entries)
  | [] => by
      rw [canonicalizeEntries]
      exact .nil
  | (key, value) :: entries => by
      by_cases hnull : value = .null
      · rw [hnull, canonicalizeEntries_null]
        exact canonical_canonicalizeEntries entries
      · rw [canonicalizeEntries_cons hnull]
        exact .cons (Serde.canonicalize_ne_null cbor hnull) (canonical_canonicalizeCbor key)
          (canonical_canonicalizeCbor value) (canonical_canonicalizeEntries entries)

end

mutual

theorem rearranged_canonicalizeCbor :
    ∀ value : Value, Rearranged value (canonicalizeCbor cbor value)
  | .map entries => by
      rw [canonicalizeCbor_map]
      exact .map (rearranged_canonicalizeEntries entries) (perm_arrangedEntries entries)
  | .array items => by
      rw [canonicalizeCbor]
      exact .array (rearranged_canonicalizeItems items)
  | .integer _ | .bytes _ | .float _ | .text _ | .bool _ | .null | .tag _ _ => by
      rw [canonicalizeCbor]
      · exact .other nofun nofun
      · exact nofun
      · exact nofun

theorem rearranged_canonicalizeItems :
    ∀ items : List Value, RearrangedItems items (canonicalizeItems cbor items)
  | [] => by
      rw [canonicalizeItems]
      exact .nil
  | item :: items => by
      rw [canonicalizeItems]
      exact .cons (rearranged_canonicalizeCbor item) (rearranged_canonicalizeItems items)

theorem rearranged_canonicalizeEntries :
    ∀ entries : List (Value × Value), RearrangedEntries entries (canonicalizeEntries cbor entries)
  | [] => by
      rw [canonicalizeEntries]
      exact .nil
  | (key, value) :: entries => by
      by_cases hnull : value = .null
      · rw [hnull, canonicalizeEntries_null]
        exact .drop (rearranged_canonicalizeEntries entries)
      · rw [canonicalizeEntries_cons hnull]
        exact .keep hnull (rearranged_canonicalizeCbor key) (rearranged_canonicalizeCbor value)
          (rearranged_canonicalizeEntries entries)

end

mutual

/-- A canonical value is its own canonical form. -/
theorem canonicalizeCbor_of_canonical {value : Value} :
    CanonicalValue cbor value → canonicalizeCbor cbor value = value
  | .map hordered h => by
      rw [canonicalizeCbor_map,
        arrangedEntries_of_ordered (canonicalizeEntries_of_canonical h) hordered]
  | .array h => by
      rw [canonicalizeCbor, canonicalizeItems_of_canonical h]
  | .other hmap harray => canonicalizeCbor_other hmap harray

theorem canonicalizeItems_of_canonical {items : List Value} :
    CanonicalItems cbor items → canonicalizeItems cbor items = items
  | .nil => by
      rw [canonicalizeItems]
  | .cons hitem h => by
      rw [canonicalizeItems, canonicalizeCbor_of_canonical hitem, canonicalizeItems_of_canonical h]

theorem canonicalizeEntries_of_canonical {entries : List (Value × Value)} :
    CanonicalEntries cbor entries → canonicalizeEntries cbor entries = entries
  | .nil => by
      rw [canonicalizeEntries]
  | .cons hnull hkey hvalue h => by
      rw [canonicalizeEntries_cons hnull, canonicalizeCbor_of_canonical hkey,
        canonicalizeCbor_of_canonical hvalue, canonicalizeEntries_of_canonical h]

end

/-- The canonical form is canonical, it is the value rearranged, and it is its own canonical
form. -/
theorem canonicalizeCbor_spec (cbor : Ciborium) (value : Value) :
    CanonicalValue cbor (canonicalizeCbor cbor value) ∧
      Rearranged value (canonicalizeCbor cbor value) ∧
      canonicalizeCbor cbor (canonicalizeCbor cbor value) = canonicalizeCbor cbor value :=
  ⟨canonical_canonicalizeCbor value, rearranged_canonicalizeCbor value,
    canonicalizeCbor_of_canonical (canonical_canonicalizeCbor value)⟩

end OpenKey
