import MismatchReport.Json.Writer
import MismatchReport.Proofs.Json.RoundTrip

/-!
# Nesting

How deep the brackets of a value nest, and what can be read as a whole.
-/

namespace MismatchReport.Json

mutual

/-- The brackets that are open at once in a value. -/
def nesting : Json → Nat
  | .array items => nestingItems items + 1
  | .object entries => nestingEntries entries + 1
  | .null | .bool _ | .number _ | .string _ => 0

def nestingItems : List Json → Nat
  | [] => 0
  | item :: rest => max (nesting item) (nestingItems rest)

def nestingEntries : List (Option Text × Json) → Nat
  | [] => 0
  | (_, value) :: rest => max (nesting value) (nestingEntries rest)

end

@[simp] theorem nesting_ofText (text : Text) : (ofText text).nesting = 0 := rfl

@[simp] theorem nesting_ofWord (word : UInt32) : (ofWord word).nesting = 0 := rfl

theorem nestingItems_le_iff {items : List Json} {room : Nat} :
    nestingItems items ≤ room ↔ ∀ item ∈ items, item.nesting ≤ room := by
  induction items with
  | nil => simp [nestingItems]
  | cons item items ih =>
      rw [nestingItems, Nat.max_le, ih, List.forall_mem_cons]

theorem nestingEntries_le_iff {entries : List (Option Text × Json)} {room : Nat} :
    nestingEntries entries ≤ room ↔ ∀ entry ∈ entries, entry.2.nesting ≤ room := by
  induction entries with
  | nil => simp [nestingEntries]
  | cons entry entries ih =>
      rw [nestingEntries, Nat.max_le, ih, List.forall_mem_cons]

theorem succ_le_iff_pos_and {depth room : Nat} :
    depth + 1 ≤ room ↔ 0 < room ∧ depth ≤ room - 1 := by
  omega

theorem nesting_array_le_iff {items : List Json} {room : Nat} :
    (array items).nesting ≤ room ↔ 0 < room ∧ ∀ item ∈ items, item.nesting ≤ room - 1 := by
  rw [nesting, succ_le_iff_pos_and, nestingItems_le_iff]

theorem nesting_ofFields_le_iff {fields : List (Text × Json)} {room : Nat} :
    (ofFields fields).nesting ≤ room ↔ 0 < room ∧ ∀ field ∈ fields, field.2.nesting ≤ room - 1 := by
  rw [ofFields, nesting, succ_le_iff_pos_and, nestingEntries_le_iff, List.forall_mem_map]

theorem nesting_ofFields_of_subset {fields all : List (Text × Json)} {room : Nat}
    (hfields : fields ⊆ all) (hroom : (ofFields all).nesting ≤ room) :
    (ofFields fields).nesting ≤ room := by
  obtain ⟨hpos, hparts⟩ := nesting_ofFields_le_iff.mp hroom
  exact nesting_ofFields_le_iff.mpr ⟨hpos, fun field hfield => hparts field (hfields hfield)⟩

theorem nesting_ofFields_tail {field : Text × Json} {fields : List (Text × Json)} {room : Nat}
    (hroom : (ofFields (field :: fields)).nesting ≤ room) : (ofFields fields).nesting ≤ room :=
  nesting_ofFields_of_subset (List.subset_cons_self _ _) hroom

theorem areReadable_iff {room : Nat} {items : List Json} :
    areReadable room items = true ↔ ∀ item ∈ items, item.isReadable room = true := by
  induction items with
  | nil => simp [areReadable]
  | cons item items ih => simp [areReadable, ih]

theorem areReadableEntries_iff {room : Nat} {entries : List (Option Text × Json)} :
    areReadableEntries room entries = true ↔
      ∀ entry ∈ entries, entry.1.isSome = true ∧ entry.2.isReadable room = true := by
  induction entries with
  | nil => simp [areReadableEntries]
  | cons entry entries ih => simp [areReadableEntries, ih]

theorem areReadableEntries_fields {room : Nat} {fields : List (Text × Json)} :
    areReadableEntries room (fields.map fun (name, value) => (some name, value)) = true ↔
      ∀ field ∈ fields, field.2.isReadable room = true := by
  rw [areReadableEntries_iff, List.forall_mem_map]
  simp

theorem IsSimple.isReadable {json : Json} (hjson : json.IsSimple) {room : Nat}
    (hroom : json.nesting ≤ room) : json.isReadable room = true := by
  induction hjson generalizing room with
  | bool value => rfl
  | word value => exact Number.isFinite_ofNat value.toNat_lt
  | text value => rfl
  | array hitems ih =>
      obtain ⟨hpos, hitem⟩ := nesting_array_le_iff.mp hroom
      rw [Json.isReadable, Bool.and_eq_true, decide_eq_true_eq, areReadable_iff]
      exact ⟨hpos, fun item hmem => ih item hmem (hitem item hmem)⟩
  | fields hfields ih =>
      obtain ⟨hpos, hfield⟩ := nesting_ofFields_le_iff.mp hroom
      rw [ofFields, Json.isReadable, Bool.and_eq_true, decide_eq_true_eq,
        areReadableEntries_fields]
      exact ⟨hpos, fun field hmem => ih field hmem (hfield field hmem)⟩

theorem nesting_pos_of_isReadable_array {room : Nat} {items : List Json}
    (hreadable : (array items).isReadable room = true) : 0 < room := by
  rw [isReadable, Bool.and_eq_true, decide_eq_true_eq] at hreadable
  exact hreadable.1

theorem nesting_pos_of_isReadable_object {room : Nat} {entries : List (Option Text × Json)}
    (hreadable : (object entries).isReadable room = true) : 0 < room := by
  rw [isReadable, Bool.and_eq_true, decide_eq_true_eq] at hreadable
  exact hreadable.1

end MismatchReport.Json
