import Mathlib.Data.List.Forall2
import MismatchReport.Proofs.Source.Position
import MismatchReport.Proofs.Style.Line
import MismatchReport.Proofs.Text.Trimming
import MismatchReport.Source.Excerpt

/-!
# The marks of an excerpt

The marks below a shown line are exactly below the characters whose bytes start within the span,
both ends of the span rounded down to character boundaries.
-/

namespace MismatchReport

namespace StyledLine

def isMarked (line : StyledLine) (column : Nat) : Bool :=
  line.cells[column]?.any (·.2.squiggle)

theorem any_squiggle_plain (text : Text) (column : Nat) :
    ((text.map ((·, .plain) : Char → Cell))[column]?.any (·.2.squiggle)) = false := by
  cases hchar : text[column]? <;> simp [hchar, Emphasis.plain]

end StyledLine

namespace Source

theorem cells_codeRow (margin : Text) (line : MarkedLine) :
    (codeRow margin line).cells = (margin ++ "| " ++ line.content).map (·, .plain) := by
  simp [codeRow, StyledLine.cells_pushPlain, StyledLine.cells_plain]

theorem cells_markRow (margin : Text) (line : MarkedLine) :
    (markRow margin line).cells =
      (margin ++ "  " ++ Text.spaces line.start).map (·, .plain) ++
        List.replicate (line.stop - line.start) (mark, { squiggle := true }) ++
        (Text.spaces (line.content.length - line.stop)).map (·, .plain) := by
  simp [markRow, StyledLine.cells_pushPlain, StyledLine.cells_plain]

theorem cells_ellipsisRow (margin : Text) :
    (ellipsisRow margin).cells =
      margin.map (·, .plain) ++ ("..." : Text).map (·, { gutter := true }) ++ [(' ', .plain)] := by
  simp [ellipsisRow, StyledLine.cells_pushPlain, StyledLine.cells_plain]

/-! ## Rows of a marked line -/

def contentColumn (margin : Text) (column : Nat) : Nat := margin.length + 2 + column

theorem plainText_codeRow (margin : Text) (line : MarkedLine) :
    (codeRow margin line).plainText = margin ++ "| " ++ line.content := by
  rw [StyledLine.plainText_eq_cells, cells_codeRow, List.map_map]
  exact List.map_id _

theorem plainText_markRow (margin : Text) (line : MarkedLine) :
    (markRow margin line).plainText =
      margin ++ "  " ++ Text.spaces line.start ++ List.replicate (line.stop - line.start) mark ++
        Text.spaces (line.content.length - line.stop) := by
  simp [markRow]

theorem plainText_ellipsisRow (margin : Text) :
    (ellipsisRow margin).plainText = margin ++ "... " := by
  simp [ellipsisRow]

theorem width_codeRow (margin : Text) (line : MarkedLine) :
    (codeRow margin line).width = contentColumn margin line.content.length := by
  simp [StyledLine.width, plainText_codeRow, contentColumn]
  omega

theorem width_markRow (margin : Text) {line : MarkedLine} (hstart : line.start ≤ line.stop)
    (hstop : line.stop ≤ line.content.length) :
    (markRow margin line).width = contentColumn margin line.content.length := by
  simp [StyledLine.width_eq_length_cells, cells_markRow, contentColumn, Text.spaces]
  omega

theorem isMarked_markRow (margin : Text) (line : MarkedLine) (column : Nat) :
    (markRow margin line).isMarked (contentColumn margin column) ↔
      line.start ≤ column ∧ column < line.stop := by
  have hfront : ((margin ++ "  " ++ Text.spaces line.start).map
      ((·, .plain) : Char → StyledLine.Cell)).length = contentColumn margin line.start := by
    simp [contentColumn, Text.spaces]
    omega
  have hbehind : contentColumn margin column - contentColumn margin line.start =
      column - line.start := by
    simp only [contentColumn]
    omega
  rw [StyledLine.isMarked, cells_markRow, List.append_assoc]
  rcases Nat.lt_or_ge column line.start with hlt | hge
  · have hcolumn : contentColumn margin column < contentColumn margin line.start := by
      simp only [contentColumn]
      omega
    rw [List.getElem?_append_left (by omega), StyledLine.any_squiggle_plain]
    simp
    omega
  · have hcolumn : contentColumn margin line.start ≤ contentColumn margin column := by
      simp only [contentColumn]
      omega
    rw [List.getElem?_append_right (by omega), hfront, hbehind]
    by_cases hstop : column < line.stop
    · rw [List.getElem?_append_left (by simp; omega), List.getElem?_replicate,
        if_pos (by omega)]
      simp [hge, hstop]
    · rw [List.getElem?_append_right (by simp; omega), StyledLine.any_squiggle_plain]
      simp [hstop]

theorem not_isMarked_markRow_margin (margin : Text) (line : MarkedLine) {column : Nat}
    (hcolumn : column < contentColumn margin 0) :
    ¬ (markRow margin line).isMarked column := by
  rw [contentColumn] at hcolumn
  rw [StyledLine.isMarked, cells_markRow, List.append_assoc, List.getElem?_append_left,
    StyledLine.any_squiggle_plain]
  · simp
  · simp
    omega

theorem codeRow_ne_ellipsisRow (margin : Text) (line : MarkedLine) :
    codeRow margin line ≠ ellipsisRow margin := by
  intro heq
  have hcell : ('.', { gutter := true }) ∈ (codeRow margin line).cells := by
    simp [heq, cells_ellipsisRow]
  simp [cells_codeRow, Emphasis.plain] at hcell

theorem markRow_ne_ellipsisRow (margin : Text) (line : MarkedLine) :
    markRow margin line ≠ ellipsisRow margin := by
  intro heq
  have hcell : ('.', { gutter := true }) ∈ (markRow margin line).cells := by
    simp [heq, cells_ellipsisRow]
  simp [cells_markRow, Emphasis.plain] at hcell

theorem contentBehind_getElem? {indent column : Nat} {text : Text}
    (hcolumn : column < (contentBehind indent text).length) :
    ∃ char, text[indent + column]? = some char ∧
      (contentBehind indent text)[column]? = some (tabToSpace char) := by
  obtain ⟨rest, hrest⟩ := Text.trimEnd_isPrefix isBlank (text.drop indent)
  rw [contentBehind, List.length_map] at hcolumn
  obtain ⟨char, hchar⟩ : ∃ char, (Text.trimEnd isBlank (text.drop indent))[column]? = some char :=
    ⟨_, List.getElem?_eq_getElem hcolumn⟩
  refine ⟨char, ?_, ?_⟩
  · rw [← List.getElem?_drop, ← hrest, List.getElem?_append_left hcolumn, hchar]
  · rw [contentBehind, List.getElem?_map, hchar, Option.map_some]

theorem start_markLine_le (first last : Position) (indent line : Nat) (content : Text) :
    (markLine first last indent line content).start ≤
      (markLine first last indent line content).stop := by
  simp only [markLine]
  omega

theorem stop_markLine_le (first last : Position) (indent line : Nat) (content : Text) :
    (markLine first last indent line content).stop ≤ content.length := by
  simp only [markLine]
  omega

theorem mem_markLine_iff {first last : Position} {indent line column : Nat} {content : Text}
    (hcolumn : column < content.length) :
    (markLine first last indent line content).start ≤ column ∧
        column < (markLine first last indent line content).stop ↔
      (line = first.line → first.character ≤ indent + column) ∧
        (line = last.line → indent + column < last.character) := by
  simp only [markLine]
  split <;> split <;> simp_all <;> omega

theorem mem_shownLines {first last line : Nat} (hle : first ≤ last)
    (hline : line ∈ shownLines first last) : first ≤ line ∧ line ≤ last := by
  unfold shownLines isShortened at hline
  split at hline
  · simp at *
    omega
  · simp at *
    omega

/-- Two rows that show a line: its content behind the margin and the gutter, and below each
character a mark exactly if the character starts in the bytes from `start` up to `stop`. -/
structure ShowsLine (buffer : Buffer) (margin : Text) (indent start stop line : Nat)
    (code marks : StyledLine) : Prop where
  width_eq : marks.width = code.width
  text_eq : code.plainText =
    margin ++ "| " ++ contentBehind indent (buffer.lineText line)
  shows : ∀ column, contentColumn margin column < code.width →
    ∃ char, (buffer.lineText line)[indent + column]? = some char ∧
      code.cells[contentColumn margin column]? = some (tabToSpace char, .plain)
  marked_iff : ∀ column, contentColumn margin column < code.width →
    (marks.isMarked (contentColumn margin column) ↔
      start ≤ buffer.offsetAt line (indent + column) ∧
        buffer.offsetAt line (indent + column) < stop)
  margin_unmarked : ∀ column < contentColumn margin 0, ¬ marks.isMarked column
  code_ne : code ≠ ellipsisRow margin
  marks_ne : marks ≠ ellipsisRow margin

private theorem showsLine_rows (buffer : Buffer) (span : Span) (margin : Text) (indent : Nat)
    {line : Nat} {entry : MarkedLine} (hfirst : (buffer.position span.start.toNat).line ≤ line)
    (hlast : line ≤ (buffer.position span.stop).line)
    (hentry : entry = markLine (buffer.position span.start.toNat) (buffer.position span.stop)
      indent line (contentBehind indent (buffer.lineText line))) :
    ShowsLine buffer margin indent (Text.floorBoundary buffer.text span.start.toNat)
      (Text.floorBoundary buffer.text span.stop) line (codeRow margin entry)
      (markRow margin entry) := by
  have hcontent : entry.content = contentBehind indent (buffer.lineText line) := by
    rw [hentry, markLine]
  have hwidth := width_codeRow margin entry
  have htext := plainText_codeRow margin entry
  rw [hcontent] at hwidth htext
  refine ⟨?_, htext, ?_, ?_, ?_, codeRow_ne_ellipsisRow margin entry,
    markRow_ne_ellipsisRow margin entry⟩
  · rw [width_codeRow, hentry]
    exact width_markRow margin (start_markLine_le _ _ _ _ _) (stop_markLine_le _ _ _ _ _)
  · intro column hcolumn
    rw [hwidth, contentColumn, contentColumn, Nat.add_lt_add_iff_left] at hcolumn
    obtain ⟨char, hchar, hshown⟩ := contentBehind_getElem? hcolumn
    refine ⟨char, hchar, ?_⟩
    rw [cells_codeRow, hcontent, List.getElem?_map,
      List.getElem?_append_right (by simp [contentColumn]),
      show contentColumn margin column - (margin ++ "| ".toList).length = column by
        simp [contentColumn], hshown, Option.map_some]
  · intro column hcolumn
    rw [hwidth, contentColumn, contentColumn, Nat.add_lt_add_iff_left] at hcolumn
    obtain ⟨char, hchar, -⟩ := contentBehind_getElem? hcolumn
    have hplace : indent + column < (buffer.lineText line).length :=
      (List.getElem?_eq_some_iff.mp hchar).1
    have hstart := buffer.offsetAt_lt_floorBoundary_iff span.start.toNat hplace
    have hstop := buffer.offsetAt_lt_floorBoundary_iff span.stop hplace
    rw [isMarked_markRow, hentry, mem_markLine_iff hcolumn]
    omega
  · intro column hcolumn
    exact not_isMarked_markRow_margin margin entry hcolumn

/-! ## Whole excerpts -/

def pairRows (pairs : List (StyledLine × StyledLine)) : List StyledLine :=
  pairs.flatMap fun pair => [pair.1, pair.2]

theorem rows_eq_pairRows (margin : Text) (excerpt : Excerpt) :
    let pairs := excerpt.lines.map fun line => (codeRow margin line, markRow margin line)
    excerpt.rows margin =
      if excerpt.shortened then
        pairRows (pairs.take 2) ++ ellipsisRow margin :: pairRows (pairs.drop 2)
      else pairRows pairs := by
  simp only [Excerpt.rows, pairRows, ← List.map_take, ← List.map_drop, List.flatMap_map]
  rfl

/-- For a span that is rounded down to the boundaries `start` and `stop`: the shown lines are all
of those from the one to the other, or the first two and the last two with one ellipsis between
the second pair of rows and the third, and in every pair the marks cover just the characters that
start in the span. -/
theorem renderSpan_marks_span (buffer : Buffer) (span : Span) (margin : Text) :
    let size := Text.byteSize buffer.text
    let start := Text.floorBoundary buffer.text (min span.start.toNat size)
    let stop := Text.floorBoundary buffer.text (min span.stop size)
    let first := buffer.lineAt start
    let last := buffer.lineAt stop
    let shown := if last - first < 4 then List.range' first (last - first + 1)
      else [first, first + 1, last - 1, last]
    first ≤ last ∧
    ∃ pairs : List (StyledLine × StyledLine),
      List.Forall₂
        (fun line pair => ShowsLine buffer margin (commonIndent (shown.map buffer.lineText))
          start stop line pair.1 pair.2) shown pairs ∧
      renderSpan buffer span margin =
        if last - first < 4 then pairRows pairs
        else pairRows (pairs.take 2) ++ ellipsisRow margin :: pairRows (pairs.drop 2) := by
  intro size start stop first last shown
  have hstart : start = Text.floorBoundary buffer.text span.start.toNat :=
    Text.floorBoundary_min_byteSize _ _
  have hstop : stop = Text.floorBoundary buffer.text span.stop :=
    Text.floorBoundary_min_byteSize _ _
  have hfirst : first = (buffer.position span.start.toNat).line := by
    rw [← buffer.position_floorBoundary, buffer.line_position, ← hstart]
  have hlast : last = (buffer.position span.stop).line := by
    rw [← buffer.position_floorBoundary, buffer.line_position, ← hstop]
  have hle : first ≤ last := by
    rw [hfirst, hlast, buffer.line_position, buffer.line_position]
    exact buffer.lineAt_mono span.start_le_stop
  have hshown : shown = shownLines first last := by
    simp only [shown, shownLines, isShortened, decide_eq_true_eq, ← Nat.not_lt, ite_not]
  refine ⟨hle, (excerptOf buffer span).lines.map fun line =>
    (codeRow margin line, markRow margin line), ?_, ?_⟩
  · rw [excerptOf, List.map_map, ← hfirst, ← hlast, ← hshown, List.forall₂_map_right_iff,
      List.forall₂_same]
    intro line hline
    rw [hshown] at hline
    obtain ⟨hge, hle⟩ := mem_shownLines hle hline
    rw [hfirst] at hge
    rw [hlast] at hle
    rw [Function.comp_apply, hstart, hstop]
    exact showsLine_rows buffer span margin _ hge hle rfl
  · rw [renderSpan, rows_eq_pairRows, excerptOf]
    simp only [isShortened, ← hfirst, ← hlast, decide_eq_true_eq, ← Nat.not_lt, ite_not]

end Source

end MismatchReport
