import Mathlib.Data.List.DropRight
import MismatchReport.Proofs.Style.Line

/-!
# Emphasis of whole lines

Lines without emphasis, lines with one emphasis on all of their content, and lines with muted text.
-/

namespace MismatchReport.StyledLine

def IsPlain (line : StyledLine) : Prop := ∀ cell ∈ line.cells, cell.2 = .plain

theorem IsPlain.cells_eq {line : StyledLine} (hline : line.IsPlain) :
    line.cells = line.plainText.map (·, .plain) := by
  rw [plainText_eq_cells, List.map_map, ← List.map_id line.cells, List.map_map]
  apply List.map_congr_left
  intro cell hcell
  exact Prod.ext rfl (hline cell hcell)

theorem isPlain_plain (text : Text) : (plain text).IsPlain := by
  simp [IsPlain]

theorem IsPlain.push {line : StyledLine} (hline : line.IsPlain) (text : Text) :
    (line.push text .plain).IsPlain := by
  simpa [IsPlain, or_imp, forall_and] using hline

theorem IsPlain.append {line other : StyledLine} (hline : line.IsPlain) (hother : other.IsPlain) :
    (line ++ other).IsPlain := by
  intro cell hcell
  rw [cells_append, List.mem_append] at hcell
  exact hcell.elim (hline cell) (hother cell)

theorem IsPlain.cells_emphasize {line : StyledLine} (hline : line.IsPlain)
    (extra : Emphasis) : (line.emphasize extra).cells = line.plainText.map (·, extra) := by
  rw [StyledLine.cells_emphasize, hline.cells_eq, List.map_map]
  apply List.map_congr_left
  intro char hchar
  exact Prod.ext rfl (Emphasis.plain_union extra)

def contentCells (line : StyledLine) : List Cell := line.cells.dropWhile (·.1 == ' ')

def HasContent (emphasis : Emphasis) (line : StyledLine) : Prop :=
  ∀ cell ∈ line.contentCells, cell.2 = emphasis

theorem leadingSpaces_eq (line : StyledLine) :
    line.leadingSpaces = (line.cells.takeWhile (·.1 == ' ')).length := by
  rw [leadingSpaces, plainText_eq_cells, List.takeWhile_map, List.length_map]
  rfl

theorem cells_emphasizeContent_eq (line : StyledLine) (extra : Emphasis) :
    (line.emphasizeContent extra).cells =
      line.cells.takeWhile (·.1 == ' ') ++ line.contentCells.map (emphasizeCell extra) := by
  have hcells : line.cells.takeWhile (·.1 == ' ') ++ line.contentCells = line.cells :=
    List.takeWhile_append_dropWhile
  have htake : line.cells.take line.leadingSpaces = line.cells.takeWhile (·.1 == ' ') := by
    rw [leadingSpaces_eq]
    exact (List.prefix_iff_eq_take.mp (List.takeWhile_prefix _)).symm
  have hdrop : line.cells.drop line.leadingSpaces = line.contentCells := by
    rw [leadingSpaces_eq]
    exact (congrArg (List.drop _) hcells.symm).trans List.drop_left
  rw [cells_emphasizeContent, htake, hdrop]

theorem contentCells_emphasizeContent (line : StyledLine) (extra : Emphasis) :
    (line.emphasizeContent extra).contentCells = line.contentCells.map (emphasizeCell extra) := by
  rw [contentCells, cells_emphasizeContent_eq, List.dropWhile_append_of_pos,
    List.dropWhile_map]
  · exact congrArg _ (List.dropWhile_idempotent _ line.cells)
  · intro cell hcell
    have hspace := List.mem_takeWhile_imp hcell
    exact hspace

theorem hasContent_emphasizeContent {line : StyledLine} {extra : Emphasis}
    (hline : ∀ cell ∈ line.cells, cell.2 ∪ extra = extra) :
    (line.emphasizeContent extra).HasContent extra := by
  intro cell hcell
  rw [contentCells_emphasizeContent] at hcell
  obtain ⟨source, hsource, rfl⟩ := List.mem_map.mp hcell
  exact hline source ((List.dropWhile_sublist _).subset hsource)

theorem IsPlain.hasContent_emphasizeContent {line : StyledLine} (hline : line.IsPlain)
    (extra : Emphasis) : (line.emphasizeContent extra).HasContent extra := by
  apply StyledLine.hasContent_emphasizeContent
  intro cell hcell
  rw [hline cell hcell, Emphasis.plain_union]

def IsMuted (line : StyledLine) : Prop := ∃ cell ∈ line.cells, cell.2.has .muted

theorem IsPlain.not_isMuted {line : StyledLine} (hline : line.IsPlain) : ¬ line.IsMuted := by
  rintro ⟨cell, hcell, hmuted⟩
  rw [hline cell hcell] at hmuted
  cases hmuted

theorem not_isMuted_emphasizeContent {line : StyledLine} {extra : Emphasis}
    (hline : ¬ line.IsMuted) (hextra : extra.has .muted = false) :
    ¬ (line.emphasizeContent extra).IsMuted := by
  rintro ⟨cell, hcell, hmuted⟩
  rw [cells_emphasizeContent_eq, List.mem_append, List.mem_map] at hcell
  rcases hcell with hspace | ⟨source, hsource, rfl⟩
  · exact hline ⟨cell, (List.takeWhile_prefix _).subset hspace, hmuted⟩
  · rw [emphasizeCell, Emphasis.has_union, hextra, Bool.or_false] at hmuted
    exact hline ⟨source, (List.dropWhile_sublist _).subset hsource, hmuted⟩

end MismatchReport.StyledLine
