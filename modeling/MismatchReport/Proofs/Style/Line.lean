import Mathlib.Data.List.TakeDrop
import MismatchReport.Style.Line

/-!
# Cells and plain text of lines

What each operation on a line does to its cells, and to its text.  Emphasis never changes the text.
-/

namespace MismatchReport.StyledLine

@[simp] theorem cells_pushPlain (line : StyledLine) (text : Text) :
    (line.pushPlain text).cells = line.cells ++ text.map (·, .plain) :=
  cells_push line text .plain

@[simp] theorem cells_styled (text : Text) (emphasis : Emphasis) :
    (styled text emphasis).cells = text.map (·, emphasis) := by
  simp [styled]

@[simp] theorem cells_plain (text : Text) : (plain text).cells = text.map (·, .plain) :=
  cells_styled text .plain

@[simp] theorem cells_append (line other : StyledLine) :
    (line ++ other).cells = line.cells ++ other.cells :=
  cells_pushAll line other.segments

def emphasizeCell (extra : Emphasis) (cell : Cell) : Cell := (cell.1, cell.2 ∪ extra)

@[simp] theorem cells_emphasize (line : StyledLine) (extra : Emphasis) :
    (line.emphasize extra).cells = line.cells.map (emphasizeCell extra) := by
  rw [emphasize, cells_pushAll, cells_empty, List.nil_append]
  simp [cells, emphasizeCell, List.flatMap_map, List.map_flatMap, Function.comp_def]

theorem cells_emphasizeAfter (extra : Emphasis) (skip : Nat) (segments : List Segment) :
    cells ⟨emphasizeAfter extra skip segments⟩ =
      (cells ⟨segments⟩).take skip ++ ((cells ⟨segments⟩).drop skip).map (emphasizeCell extra) := by
  induction segments generalizing skip with
  | nil => simp [emphasizeAfter, cells]
  | cons segment rest ih =>
      have hrest := ih (skip - segment.text.length)
      simp only [cells, emphasizeAfter, List.flatMap_cons] at hrest ⊢
      rw [hrest]
      -- The skipped characters end within the segment, or behind it.
      rcases Nat.le_total skip segment.text.length with hle | hge
      · simp [List.take_append, List.drop_append, hle, Nat.sub_eq_zero_of_le, List.map_take,
          List.map_drop, emphasizeCell, Function.comp_def]
      · simp [List.take_append, List.drop_append, hge, List.take_of_length_le,
          List.drop_of_length_le]

@[simp] theorem cells_emphasizeContent (line : StyledLine) (extra : Emphasis) :
    (line.emphasizeContent extra).cells =
      line.cells.take line.leadingSpaces ++
        (line.cells.drop line.leadingSpaces).map (emphasizeCell extra) := by
  rw [emphasizeContent, cells_pushAll, cells_emphasizeAfter]
  rfl

theorem width_eq_length_cells (line : StyledLine) : line.width = line.cells.length := by
  rw [width, plainText_eq_cells, List.length_map]

@[simp] theorem plainText_empty : empty.plainText = [] := rfl

@[simp] theorem plainText_push (line : StyledLine) (text : Text) (emphasis : Emphasis) :
    (line.push text emphasis).plainText = line.plainText ++ text := by
  simp [plainText_eq_cells, Function.comp_def]

@[simp] theorem plainText_pushPlain (line : StyledLine) (text : Text) :
    (line.pushPlain text).plainText = line.plainText ++ text :=
  plainText_push line text .plain

@[simp] theorem plainText_styled (text : Text) (emphasis : Emphasis) :
    (styled text emphasis).plainText = text := by
  simp [styled]

@[simp] theorem plainText_plain (text : Text) : (plain text).plainText = text :=
  plainText_styled text .plain

@[simp] theorem plainText_append (line other : StyledLine) :
    (line ++ other).plainText = line.plainText ++ other.plainText := by
  simp [plainText_eq_cells]

@[simp] theorem plainText_padTo (line : StyledLine) (width : Nat) :
    (line.padTo width).plainText = line.plainText ++ Text.spaces (width - line.width) :=
  plainText_pushPlain line _

@[simp] theorem plainText_emphasize (line : StyledLine) (extra : Emphasis) :
    (line.emphasize extra).plainText = line.plainText := by
  simp [plainText_eq_cells, emphasizeCell, Function.comp_def]

@[simp] theorem plainText_emphasizeContent (line : StyledLine) (extra : Emphasis) :
    (line.emphasizeContent extra).plainText = line.plainText := by
  have hfst : Prod.fst ∘ emphasizeCell extra = Prod.fst := rfl
  rw [plainText_eq_cells, plainText_eq_cells, cells_emphasizeContent, List.map_append,
    List.map_map, hfst, ← List.map_append, List.take_append_drop]

end MismatchReport.StyledLine
