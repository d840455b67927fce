import Mathlib.Data.List.Infix
import MismatchReport.Text.Basic

/-!
# Character boundaries

The byte offsets of a text that lie between its characters.  An offset is rounded down to the
greatest of them, which is the size of the longest prefix that fits in that many bytes.
-/

namespace MismatchReport.Text

def boundaries (text : Text) : List Nat := text.inits.map byteSize

def floorBoundary (text : Text) (offset : Nat) : Nat :=
  (((boundaries text).filter (· ≤ offset)).max?).getD 0

theorem mem_boundaries {text : Text} {offset : Nat} :
    offset ∈ boundaries text ↔ ∃ front, front <+: text ∧ byteSize front = offset := by
  simp [boundaries, List.mem_inits]

@[simp] theorem byteSize_nil : byteSize [] = 0 := rfl

theorem byteSize_take_lt {text : Text} {column count : Nat} (hlt : column < count)
    (hcount : count ≤ text.length) :
    byteSize (text.take column) < byteSize (text.take count) := by
  induction text generalizing column count with
  | nil => simp at hcount; omega
  | cons char rest ih =>
      obtain ⟨count, rfl⟩ : ∃ below, count = below + 1 := ⟨count - 1, by omega⟩
      have hchar := char.utf8Size_pos
      cases column with
      | zero => simp [byteSize]; omega
      | succ column =>
          have := ih (Nat.lt_of_succ_lt_succ hlt) (by simpa using hcount)
          simpa [byteSize] using this

theorem byteSize_take_lt_iff {text : Text} {column count : Nat} (hcolumn : column ≤ text.length)
    (hcount : count ≤ text.length) :
    byteSize (text.take column) < byteSize (text.take count) ↔ column < count := by
  constructor
  · intro hsize
    by_contra hge
    obtain heq | hlt := Nat.eq_or_lt_of_le (Nat.le_of_not_lt hge)
    · simp [heq] at hsize
    · exact Nat.lt_asymm hsize (byteSize_take_lt hlt hcolumn)
  · intro hlt
    exact byteSize_take_lt hlt hcount

theorem byteSize_le_of_prefix {front text : Text} (hfront : front <+: text) :
    byteSize front ≤ byteSize text := by
  obtain ⟨rest, rfl⟩ := hfront
  rw [byteSize_append]
  omega

@[simp] theorem takeBytes_zero (text : Text) : takeBytes 0 text = [] := by
  cases text with
  | nil => rfl
  | cons char rest =>
      have hchar := char.utf8Size_pos
      exact if_neg (by omega)

theorem takeBytes_isPrefix (budget : Nat) (text : Text) : takeBytes budget text <+: text := by
  induction text generalizing budget with
  | nil => simp [takeBytes]
  | cons char rest ih =>
      rw [takeBytes]
      split
      · exact List.cons_prefix_cons.mpr ⟨rfl, ih _⟩
      · exact List.nil_prefix

theorem byteSize_takeBytes_le (budget : Nat) (text : Text) :
    byteSize (takeBytes budget text) ≤ budget := by
  induction text generalizing budget with
  | nil => simp [takeBytes]
  | cons char rest ih =>
      rw [takeBytes]
      split
      · have := ih (budget - char.utf8Size)
        simp only [byteSize]
        omega
      · simp

theorem takeBytes_eq_take (budget : Nat) (text : Text) :
    takeBytes budget text = text.take (takeBytes budget text).length :=
  List.prefix_iff_eq_take.mp (takeBytes_isPrefix budget text)

theorem length_takeBytes_le (budget : Nat) (text : Text) :
    (takeBytes budget text).length ≤ text.length :=
  (takeBytes_isPrefix budget text).length_le

theorem takeBytes_append_of_lt {budget : Nat} {front rest : Text}
    (hbudget : budget < byteSize front) :
    takeBytes budget (front ++ rest) = takeBytes budget front := by
  induction front generalizing budget with
  | nil => simp at hbudget
  | cons char front ih =>
      simp only [List.cons_append, takeBytes]
      split
      · rw [ih]
        simp only [byteSize] at hbudget
        omega
      · rfl

theorem takeBytes_append_of_le {budget : Nat} {front rest : Text}
    (hbudget : byteSize front ≤ budget) :
    takeBytes budget (front ++ rest) = front ++ takeBytes (budget - byteSize front) rest := by
  induction front generalizing budget with
  | nil => simp
  | cons char front ih =>
      simp only [byteSize] at hbudget
      simp only [List.cons_append, takeBytes, byteSize]
      rw [if_pos (by omega), ih (by omega), Nat.sub_add_eq]

theorem takeBytes_of_le {budget : Nat} {text : Text} (hbudget : byteSize text ≤ budget) :
    takeBytes budget text = text := by
  have hall : takeBytes budget (text ++ []) = _ := takeBytes_append_of_le hbudget
  simpa [takeBytes] using hall

theorem takeBytes_byteSize_takeBytes (budget : Nat) (text : Text) :
    takeBytes (byteSize (takeBytes budget text)) text = takeBytes budget text := by
  induction text generalizing budget with
  | nil => rfl
  | cons char rest ih =>
      by_cases hfits : char.utf8Size ≤ budget
      · have hrest := ih (budget - char.utf8Size)
        simp only [takeBytes, if_pos hfits, byteSize]
        simpa using hrest
      · have hchar := char.utf8Size_pos
        simp only [takeBytes, if_neg hfits, byteSize_nil]
        exact if_neg (by omega)

theorem prefix_takeBytes {budget : Nat} {front text : Text} (hfront : front <+: text)
    (hbudget : byteSize front ≤ budget) : front <+: takeBytes budget text := by
  obtain ⟨rest, rfl⟩ := hfront
  rw [takeBytes_append_of_le hbudget]
  exact List.prefix_append _ _

theorem floorBoundary_eq_byteSize (text : Text) (offset : Nat) :
    floorBoundary text offset = byteSize (takeBytes offset text) := by
  have hmax : ((boundaries text).filter (· ≤ offset)).max? =
      some (byteSize (takeBytes offset text)) := by
    rw [List.max?_eq_some_iff]
    simp only [List.mem_filter, mem_boundaries, decide_eq_true_eq]
    refine ⟨⟨⟨_, takeBytes_isPrefix offset text, rfl⟩, byteSize_takeBytes_le offset text⟩, ?_⟩
    rintro _ ⟨⟨front, hfront, rfl⟩, hle⟩
    exact byteSize_le_of_prefix (prefix_takeBytes hfront hle)
  rw [floorBoundary, hmax, Option.getD_some]

theorem floorBoundary_min_byteSize (text : Text) (offset : Nat) :
    floorBoundary text (min offset (byteSize text)) = floorBoundary text offset := by
  rw [floorBoundary_eq_byteSize, floorBoundary_eq_byteSize]
  obtain hle | hge := Nat.le_total offset (byteSize text)
  · rw [Nat.min_eq_left hle]
  · rw [Nat.min_eq_right hge]
    rw [takeBytes_of_le (Nat.le_refl _), takeBytes_of_le hge]

theorem floorBoundary_of_mem {text : Text} {offset : Nat} (hoffset : offset ∈ boundaries text) :
    floorBoundary text offset = offset := by
  obtain ⟨front, hfront, rfl⟩ := mem_boundaries.mp hoffset
  have hle := byteSize_takeBytes_le (byteSize front) text
  have hge := byteSize_le_of_prefix (prefix_takeBytes hfront (Nat.le_refl (byteSize front)))
  rw [floorBoundary_eq_byteSize]
  exact Nat.le_antisymm hle hge

example : boundaries "é€" = [0, 2, 5] ∧ floorBoundary "é€" 4 = 2 := by decide

def slice (text : Text) (start stop : Nat) : Text :=
  (takeBytes stop text).drop (takeBytes start text).length

theorem slice_byteSize_append (front rest : Text) (stop : Nat) :
    slice (front ++ rest) (byteSize front) stop = takeBytes (stop - byteSize front) rest := by
  rw [slice, takeBytes_append_of_le (Nat.le_refl _), Nat.sub_self, takeBytes_zero,
    List.append_nil]
  rcases Nat.lt_or_ge stop (byteSize front) with hlt | hge
  · rw [takeBytes_append_of_lt hlt, Nat.sub_eq_zero_of_le hlt.le, takeBytes_zero]
    exact List.drop_of_length_le (length_takeBytes_le stop front)
  · rw [takeBytes_append_of_le hge, List.drop_left]

theorem slice_floorBoundary (text : Text) (start stop : Nat) :
    slice text start (floorBoundary text stop) = slice text start stop := by
  rw [slice, slice, floorBoundary_eq_byteSize, takeBytes_byteSize_takeBytes]

theorem length_slice_mono (text : Text) (start : Nat) {first last : Nat} (hle : first ≤ last) :
    (slice text start first).length ≤ (slice text start last).length := by
  have hsize := (byteSize_takeBytes_le first text).trans hle
  have hlength := (prefix_takeBytes (takeBytes_isPrefix first text) hsize).length_le
  rw [slice, slice, List.length_drop, List.length_drop]
  omega

end MismatchReport.Text
