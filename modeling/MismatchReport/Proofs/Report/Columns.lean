import MismatchReport.Proofs.Tree.Layout
import MismatchReport.Report.Basic

/-!
# Columns of a comparison

A comparison has a row for each place of the longer tree.  The left tree is filled up to the width
of its widest row, so that the separator stands in one column, and each row of either tree stands
in the row of its place.
-/

namespace MismatchReport

def StyledLine.textAt (rows : List StyledLine) (place : Nat) : Text :=
  ((rows[place]?).map StyledLine.plainText).getD []

namespace Formatter

open StyledLine (textAt)

variable {α β γ : Type}

theorem length_zipWithAll (f : Option α → Option β → γ) (left : List α) (right : List β) :
    (List.zipWithAll f left right).length = max left.length right.length := by
  induction left generalizing right with
  | nil => simp
  | cons first left ih =>
      cases right with
      | nil => simp
      | cons other right => simp [ih, Nat.succ_max_succ]

theorem eq_of_getElem?_zipWithAll {f : Option α → Option β → γ} {left : List α} {right : List β}
    {place : Nat} {value : γ} (hvalue : (List.zipWithAll f left right)[place]? = some value) :
    value = f left[place]? right[place]? := by
  rw [List.getElem?_zipWithAll] at hvalue
  split at hvalue
  · cases hvalue
  · exact (Option.some.inj hvalue).symm

theorem plainText_getD_empty (row : Option StyledLine) :
    (row.getD .empty).plainText = (row.map StyledLine.plainText).getD [] := by
  cases row <;> rfl

theorem plainText_row (formatter : Formatter) (leftWidth : Nat) (left right : Option StyledLine) :
    (formatter.row leftWidth left right).plainText =
      formatter.indent ++ (left.map StyledLine.plainText).getD [] ++
        Text.spaces (leftWidth - ((left.map StyledLine.plainText).getD []).length) ++ " │ " ++
        (right.map StyledLine.plainText).getD [] := by
  simp only [row, StyledLine.plainText_append, StyledLine.plainText_pushPlain,
    StyledLine.plainText_plain, StyledLine.plainText_padTo, StyledLine.width,
    plainText_getD_empty, List.append_assoc]

theorem plainText_title (formatter : Formatter) (view : View) :
    (formatter.title view).plainText =
      formatter.indent ++ "Type of '" ++ view.sourceLabel ++
        "' is not assignable to type of '" ++ view.targetLabel ++ "'" := by
  simp only [title, StyledLine.plainText_push, StyledLine.plainText_pushPlain,
    StyledLine.plainText_plain]

theorem separator_of_filled {indent cell right : Text} {padding leftWidth : Nat}
    (hcell : cell.length + padding = leftWidth) :
    (" │ " : Text) <+: (indent ++ cell ++ Text.spaces padding ++ " │ " ++ right).drop
      (indent.length + leftWidth) := by
  have hlength : (indent ++ cell ++ Text.spaces padding).length = indent.length + leftWidth := by
    simp [Text.spaces, ← hcell]
  rw [List.append_assoc _ _ right, ← hlength, List.drop_left]
  exact List.prefix_append _ _

theorem exists_leftWidth (tree : Tree) (route : Route) :
    ∃ leftWidth, ((tree.rows route).map StyledLine.width).max? = some leftWidth := by
  refine Option.isSome_iff_exists.mp (List.isSome_max?_of_ne_nil ?_)
  rw [Ne, List.map_eq_nil_iff]
  intro hempty
  have htext := Tree.map_plainText_rowsAt 0 route tree
  rw [← Tree.rows, hempty] at htext
  exact tree.layoutAt_ne_nil 0 htext.symm

theorem length_textAt_le {rows : List StyledLine} {leftWidth : Nat}
    (hwidth : (rows.map StyledLine.width).max? = some leftWidth) (place : Nat) :
    (textAt rows place).length ≤ leftWidth := by
  unfold textAt
  cases hrow : rows[place]? with
  | none => exact Nat.zero_le _
  | some row =>
      have hmem : row.width ∈ rows.map StyledLine.width :=
        List.mem_map_of_mem (List.mem_of_getElem? hrow)
      exact (List.max?_eq_some_iff.mp hwidth).2 _ hmem

/-- Behind the title, which names both types, and an empty line, a comparison has as many rows as
the longer tree.  The row at a place has the indent, the text of the left tree at that place with
spaces up to the width of its widest row, the separator, and the text of the right tree. -/
theorem comparison_columns (formatter : Formatter) (view : View) :
    ∃ rows leftWidth,
      formatter.comparison view = formatter.title view :: .empty :: rows ∧
      (formatter.title view).plainText =
        formatter.indent ++ "Type of '" ++ view.sourceLabel ++
          "' is not assignable to type of '" ++ view.targetLabel ++ "'" ∧
      rows.length = max (view.sourceTree.rows view.route).length
        (view.targetTree.rows view.route).length ∧
      ((view.sourceTree.rows view.route).map StyledLine.width).max? = some leftWidth ∧
      ∀ place row, rows[place]? = some row →
        (∃ padding, (textAt (view.sourceTree.rows view.route) place).length + padding = leftWidth ∧
          row.plainText = formatter.indent ++ textAt (view.sourceTree.rows view.route) place ++
            Text.spaces padding ++ " │ " ++ textAt (view.targetTree.rows view.route) place) ∧
        (" │ " : Text) <+: row.plainText.drop (formatter.indent.length + leftWidth) := by
  obtain ⟨leftWidth, hwidth⟩ := exists_leftWidth view.sourceTree view.route
  refine ⟨List.zipWithAll (formatter.row leftWidth) (view.sourceTree.rows view.route)
    (view.targetTree.rows view.route), leftWidth, ?_, formatter.plainText_title view,
    length_zipWithAll _ _ _, hwidth, ?_⟩
  · rw [comparison, hwidth]
    rfl
  · intro place row hrow
    have htext := congrArg StyledLine.plainText (eq_of_getElem?_zipWithAll hrow)
    rw [plainText_row] at htext
    have hcell := Nat.add_sub_of_le (length_textAt_le hwidth place)
    refine ⟨⟨_, hcell, htext⟩, ?_⟩
    rw [htext]
    exact separator_of_filled hcell

def sampleColumns : View where
  location := none
  code := 2322
  sourceTree := .leaf "string"
  targetTree := .object [.property "a" (.leaf "number")]
  sourceLabel := "A"
  targetLabel := "B"
  route := [.field "a"]

theorem comparison_columns_sample :
    ∃ rows, (Formatter.mk "  " 80).comparison sampleColumns =
        (Formatter.mk "  " 80).title sampleColumns :: .empty :: rows ∧
      ((Formatter.mk "  " 80).title sampleColumns).plainText =
        ("  Type of 'A' is not assignable to type of 'B'" : Text) ∧
      rows.length = 3 ∧
      ∃ row, rows[1]? = some row ∧ row.plainText = ("         │   a: number" : Text) := by
  obtain ⟨rows, leftWidth, hcomparison, htitle, hlength, hwidth, hrows⟩ :=
    comparison_columns (Formatter.mk "  " 80) sampleColumns
  obtain rfl : 6 = leftWidth := Option.some.inj hwidth
  obtain ⟨row, hplace⟩ : ∃ row, rows[1]? = some row :=
    ⟨_, List.getElem?_eq_getElem (hlength ▸ by decide : 1 < rows.length)⟩
  obtain ⟨⟨padding, hpadding, htext⟩, -⟩ := hrows 1 row hplace
  obtain rfl : padding = 6 := (Nat.zero_add padding).symm.trans hpadding
  exact ⟨rows, hcomparison, htitle, hlength, row, hplace, htext⟩

end Formatter

end MismatchReport
