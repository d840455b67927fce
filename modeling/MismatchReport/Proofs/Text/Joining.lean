import Mathlib.Data.List.TakeWhile
import MismatchReport.Text.Basic

/-!
# Joined texts
-/

namespace MismatchReport

section Intercalate

variable {α : Type} {separator : List α}

theorem intercalate_cons (separator first : List α) (rest : List (List α)) :
    separator.intercalate (first :: rest) = first ++ rest.flatMap (separator ++ ·) := by
  induction rest generalizing first with
  | nil => rw [List.intercalate_singleton, List.flatMap_nil, List.append_nil]
  | cons second rest ih =>
      rw [List.intercalate_cons_cons, ih, List.flatMap_cons, List.append_assoc, List.append_assoc]

theorem mem_intercalate {parts : List (List α)} {item : α}
    (hitem : item ∈ separator.intercalate parts) :
    item ∈ separator ∨ ∃ part ∈ parts, item ∈ part := by
  cases parts with
  | nil => cases hitem
  | cons first rest =>
      rw [intercalate_cons, List.mem_append, List.mem_flatMap] at hitem
      rcases hitem with hfirst | ⟨part, hpart, hrest⟩
      · exact .inr ⟨first, by simp, hfirst⟩
      · rcases List.mem_append.mp hrest with hseparator | hmem
        · exact .inl hseparator
        · exact .inr ⟨part, by simp [hpart], hmem⟩

theorem mem_intercalate_of_mem {parts : List (List α)} {part : List α} {item : α}
    (hpart : part ∈ parts) (hitem : item ∈ part) (separator : List α) :
    item ∈ separator.intercalate parts := by
  cases parts with
  | nil => cases hpart
  | cons first rest =>
      rw [intercalate_cons, List.mem_append, List.mem_flatMap]
      rcases List.mem_cons.mp hpart with rfl | hpart
      · exact .inl hitem
      · exact .inr ⟨part, hpart, List.mem_append_right separator hitem⟩

theorem take_drop_intercalate {parts : List (List α)} {index : Nat} {part : List α}
    (hpart : parts[index]? = some part) (separator rest : List α) :
    ((separator.intercalate parts ++ rest).drop
        ((parts.take index).flatMap (· ++ separator)).length).take part.length = part := by
  induction parts generalizing index with
  | nil => simp at hpart
  | cons first parts ih =>
      cases index with
      | zero =>
          obtain rfl : first = part := by simpa using hpart
          simp [intercalate_cons]
      | succ index =>
          have hparts : parts ≠ [] := by
            rintro rfl
            simp at hpart
          have hrest := ih hpart
          rw [List.intercalate_cons_of_ne_nil hparts, List.take_succ_cons, List.flatMap_cons,
            List.length_append, ← List.drop_drop, List.append_assoc _ _ rest, List.drop_left,
            hrest]

theorem exists_getElem?_of_intercalate {parts : List (List α)} {index : Nat} {item : α}
    (hitem : (separator.intercalate parts)[index]? = some item) :
    item ∈ separator ∨ ∃ place part offset, parts[place]? = some part ∧
      part[offset]? = some item ∧
        index = ((parts.take place).flatMap (· ++ separator)).length + offset := by
  induction parts generalizing index with
  | nil => simp at hitem
  | cons first parts ih =>
      by_cases hfirst : index < first.length
      · rw [intercalate_cons, List.getElem?_append_left hfirst] at hitem
        exact .inr ⟨0, first, index, rfl, hitem, by simp⟩
      · have hparts : parts ≠ [] := by
          rintro rfl
          rw [List.intercalate_singleton, List.getElem?_eq_none (by omega)] at hitem
          cases hitem
        rw [List.intercalate_cons_of_ne_nil hparts, List.append_assoc,
          List.getElem?_append_right (by omega)] at hitem
        by_cases hseparator : index - first.length < separator.length
        · rw [List.getElem?_append_left hseparator] at hitem
          exact .inl (List.mem_of_getElem? hitem)
        · rw [List.getElem?_append_right (by omega)] at hitem
          rcases ih hitem with hmem | ⟨place, part, offset, hpart, hoffset, hindex⟩
          · exact .inl hmem
          · refine .inr ⟨place + 1, part, offset, hpart, hoffset, ?_⟩
            rw [List.take_succ_cons, List.flatMap_cons, List.length_append, List.length_append]
            omega

end Intercalate

theorem takeWhile_append_of_head {α : Type} {p : α → Bool} {front rest : List α}
    (hfront : ∀ item ∈ front, p item) (hrest : ∀ item ∈ rest.head?, ¬ p item) :
    (front ++ rest).takeWhile p = front ∧ (front ++ rest).dropWhile p = rest := by
  rw [List.takeWhile_append_of_pos hfront, List.dropWhile_append_of_pos hfront]
  cases rest with
  | nil => simp
  | cons item rest =>
      have hitem : ¬ p item := hrest item rfl
      simp [hitem]

namespace Text

theorem joinWith_singleton (separator text : Text) : joinWith separator [text] = text :=
  List.intercalate_singleton

theorem joinWith_cons_cons (separator first second : Text) (rest : List Text) :
    joinWith separator (first :: second :: rest) =
      first ++ separator ++ joinWith separator (second :: rest) :=
  List.intercalate_cons_cons

theorem joinWith_cons (separator first : Text) (rest : List Text) :
    joinWith separator (first :: rest) = first ++ rest.flatMap (separator ++ ·) :=
  intercalate_cons separator first rest

theorem joinWith_nil_separator (parts : List Text) : joinWith [] parts = parts.flatten := by
  cases parts with
  | nil => rfl
  | cons first rest => simp [joinWith_cons, List.flatMap_def]

theorem joinWith_concat (separator : Text) (front : List Text) (last : Text) :
    joinWith separator (front ++ [last]) = front.flatMap (· ++ separator) ++ last := by
  induction front with
  | nil => exact joinWith_singleton separator last
  | cons first front ih =>
      have hrest : front ++ [last] ≠ [] := by simp
      rw [List.cons_append, joinWith, List.intercalate_cons_of_ne_nil hrest, ← joinWith, ih,
        List.flatMap_cons, List.append_assoc, List.append_assoc, List.append_assoc]

theorem joinWith_concat_append (separator : Text) (parts : List Text) (last text : Text) :
    joinWith separator (parts ++ [last]) ++ text =
      joinWith separator (parts ++ [last ++ text]) := by
  rw [joinWith_concat, joinWith_concat, List.append_assoc]

theorem suffix_joinWith_concat (separator : Text) (parts : List Text) (last : Text) :
    last <:+ joinWith separator (parts ++ [last]) := by
  rw [joinWith_concat]
  exact List.suffix_append _ last

theorem mem_joinWith {separator : Text} {parts : List Text} {char : Char}
    (hchar : char ∈ joinWith separator parts) : char ∈ separator ∨ ∃ part ∈ parts, char ∈ part :=
  mem_intercalate hchar

theorem mem_joinWith_of_mem {parts : List Text} {part : Text} {char : Char}
    (hpart : part ∈ parts) (hchar : char ∈ part) (separator : Text) :
    char ∈ joinWith separator parts :=
  mem_intercalate_of_mem hpart hchar separator

theorem mem_joinWith_iff {separator : Text} {parts : List Text} {char : Char}
    (hseparator : char ∉ separator) :
    char ∈ joinWith separator parts ↔ ∃ part ∈ parts, char ∈ part := by
  constructor
  · intro hmem
    exact (mem_joinWith hmem).resolve_left hseparator
  · rintro ⟨part, hpart, hmem⟩
    exact mem_joinWith_of_mem hpart hmem separator

end Text

end MismatchReport
