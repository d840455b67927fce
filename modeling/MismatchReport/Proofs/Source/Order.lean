import Mathlib.Data.Prod.Lex
import Mathlib.Order.Bounds.Basic
import MismatchReport.Proofs.Source.Position

/-!
# The order of positions

The position of an offset is read off the line that the offset falls on.  Positions are ordered
like offsets, and the position of a boundary leads back to it.
-/

namespace MismatchReport.Source

/-- A line of a list that an offset falls on, between the lines before it and those after. -/
structure FallsOn (offset : Nat) (before : List Line) (line : Line) (after : List Line) : Prop where
  start_le : Text.byteSize (before.flatMap Line.text) ≤ offset
  lt_stop : after ≠ [] → offset < Text.byteSize (before.flatMap Line.text) + line.byteSize

theorem byteSize_flatMap_text_cons (line : Line) (rest : List Line) :
    Text.byteSize ((line :: rest).flatMap Line.text) =
      line.byteSize + Text.byteSize (rest.flatMap Line.text) := Text.byteSize_append _ _

theorem exists_fallsOn (offset : Nat) {lines : List Line} (hlines : lines ≠ []) :
    ∃ before line after, lines = before ++ line :: after ∧ FallsOn offset before line after ∧
      locate offset lines = ⟨before.length, (Text.takeBytes
        (offset - Text.byteSize (before.flatMap Line.text)) line.text).length⟩ := by
  induction lines generalizing offset with
  | nil => exact absurd rfl hlines
  | cons first rest ih =>
      by_cases hends : offset < first.byteSize ∨ rest = []
      · refine ⟨[], first, rest, rfl, ⟨Nat.zero_le _, fun hrest => ?_⟩, ?_⟩
        · simpa [hrest] using hends
        · rcases hends with hlt | rfl
          · exact locate_cons_of_lt hlt
          · rfl
      · obtain ⟨hle, hrest⟩ := not_or.mp hends
        have hle := Nat.le_of_not_lt hle
        obtain ⟨before, line, after, rfl, hfalls, hlocate⟩ := ih (offset - first.byteSize) hrest
        have hsize := byteSize_flatMap_text_cons first before
        refine ⟨first :: before, line, after, rfl, ⟨?_, fun hafter => ?_⟩, ?_⟩
        · have := hfalls.start_le
          omega
        · have := hfalls.lt_stop hafter
          omega
        · rw [locate_cons_of_le hle hrest, hlocate, hsize, Nat.sub_add_eq]
          rfl

theorem line_locate_lt (offset : Nat) {lines : List Line} (hlines : lines ≠ []) :
    (locate offset lines).line < lines.length := by
  obtain ⟨before, line, after, rfl, -, hlocate⟩ := exists_fallsOn offset hlines
  rw [hlocate]
  simp

theorem FallsOn.takeBytes_append {offset : Nat} {before after : List Line} {line : Line}
    (hfalls : FallsOn offset before line after) :
    Text.takeBytes (offset - Text.byteSize (before.flatMap Line.text))
        (line.text ++ after.flatMap Line.text) =
      Text.takeBytes (offset - Text.byteSize (before.flatMap Line.text)) line.text := by
  cases after with
  | nil => rw [List.flatMap_nil, List.append_nil]
  | cons next after =>
      have hle := hfalls.start_le
      have hlt := hfalls.lt_stop (List.cons_ne_nil next after)
      rw [Line.byteSize] at hlt
      exact Text.takeBytes_append_of_lt (by omega)

theorem FallsOn.lt_start {offset : Nat} {before after : List Line} {line : Line}
    (hfalls : FallsOn offset before line after) {later start : Nat}
    (hlater : before.length < later)
    (hstart : (lineStarts (before ++ line :: after))[later]? = some start) : offset < start := by
  have hlength : later < (before ++ line :: after).length := by
    simpa [lineStarts, length_startsFrom] using (List.getElem?_eq_some_iff.mp hstart).1
  have hafter : after ≠ [] := by
    rintro rfl
    simp at hlength
    omega
  have hprefix : before ++ [line] <+: (before ++ line :: after).take later := by
    rw [List.prefix_take_iff]
    exact ⟨⟨after, by simp⟩, by simpa using Nat.succ_le_of_lt hlater⟩
  obtain ⟨rest, hrest⟩ := hprefix
  have hlt := hfalls.lt_stop hafter
  rw [lineStarts, startsFrom_getElem? 0 _ _ hlength, ← hrest, Nat.zero_add] at hstart
  rw [← Option.some.inj hstart]
  simp only [List.flatMap_append, Text.byteSize_append, List.flatMap_cons, List.flatMap_nil,
    List.append_nil, Line.byteSize] at hlt ⊢
  omega

/-- Positions are ordered by their lines, those on one line by their columns. -/
def Position.rank (position : Position) : Nat ×ₗ Nat := toLex (position.line, position.character)

namespace Buffer

variable (buffer : Buffer)

theorem lineStart?_length {before after : List Line} {line : Line}
    (hlines : buffer.lines = before ++ line :: after) :
    buffer.lineStart? before.length = some (Text.byteSize (before.flatMap Line.text)) := by
  rw [lineStart?, lineStarts, hlines, startsFrom_getElem? 0 _ _ (by simp), List.take_left,
    Nat.zero_add]

theorem isGreatest_line_position (offset : Nat) :
    IsGreatest {line | ∃ start ∈ buffer.lineStart? line, start ≤ offset}
      (buffer.position offset).line := by
  obtain ⟨before, line, after, hlines, hfalls, hlocate⟩ :=
    exists_fallsOn offset buffer.lines_ne_nil
  rw [position, hlocate]
  refine ⟨⟨_, buffer.lineStart?_length hlines, hfalls.start_le⟩, ?_⟩
  rintro later ⟨start, hstart, hle⟩
  rw [lineStart?, hlines] at hstart
  by_contra hlater
  exact absurd (hfalls.lt_start (Nat.lt_of_not_le hlater) hstart) (Nat.not_lt.mpr hle)

theorem text_eq {before after : List Line} {line : Line}
    (hlines : buffer.lines = before ++ line :: after) :
    buffer.text =
      before.flatMap Line.text ++ (line.text ++ after.flatMap Line.text) := by
  rw [← buffer.flatMap_text_lines, hlines, List.flatMap_append, List.flatMap_cons]

theorem exists_lineStart?_position (offset : Nat) :
    ∃ start, buffer.lineStart? (buffer.position offset).line = some start ∧
      (buffer.position offset).character = (Text.slice buffer.text start offset).length ∧
      start + Text.byteSize ((Text.slice buffer.text start (Text.byteSize buffer.text)).take
        (buffer.position offset).character) = Text.floorBoundary buffer.text offset := by
  obtain ⟨before, line, after, hlines, hfalls, hlocate⟩ :=
    exists_fallsOn offset buffer.lines_ne_nil
  have htext := buffer.text_eq hlines
  have hslice : Text.slice buffer.text (Text.byteSize (before.flatMap Line.text)) offset =
      Text.takeBytes (offset - Text.byteSize (before.flatMap Line.text)) line.text := by
    rw [htext, Text.slice_byteSize_append, hfalls.takeBytes_append]
  have hrest : Text.slice buffer.text (Text.byteSize (before.flatMap Line.text))
      (Text.byteSize buffer.text) = line.text ++ after.flatMap Line.text := by
    rw [htext, Text.slice_byteSize_append, Text.byteSize_append, Nat.add_sub_cancel_left,
      Text.takeBytes_of_le (Nat.le_refl _)]
  refine ⟨Text.byteSize (before.flatMap Line.text), ?_, ?_, ?_⟩
  · rw [position, hlocate]
    exact buffer.lineStart?_length hlines
  · rw [position, hlocate, hslice]
  · rw [position, hlocate, hrest, List.take_append_of_le_length (Text.length_takeBytes_le _ _),
      ← Text.takeBytes_eq_take, Text.floorBoundary_eq_byteSize, htext,
      Text.takeBytes_append_of_le hfalls.start_le, hfalls.takeBytes_append, Text.byteSize_append]

theorem monotone_rank_position : Monotone fun offset => (buffer.position offset).rank := by
  intro first last hle
  obtain ⟨start, hstart, hfirst, -⟩ := buffer.exists_lineStart?_position first
  obtain ⟨later, hlater, hlast, -⟩ := buffer.exists_lineStart?_position last
  have hline : (buffer.position first).line ≤ (buffer.position last).line := by
    rw [line_position, line_position]
    exact buffer.lineAt_mono hle
  refine Prod.Lex.toLex_le_toLex.mpr ?_
  rcases Nat.lt_or_eq_of_le hline with hlt | heq
  · exact .inl hlt
  · refine .inr ⟨heq, ?_⟩
    rw [heq, hlater] at hstart
    obtain rfl := Option.some.inj hstart
    simp only [hfirst, hlast]
    exact Text.length_slice_mono buffer.text later hle

/-- An offset stands in the last line that starts at or before it, behind the characters between
that start and the offset rounded down.  Positions are ordered like offsets, and those of
boundaries lead back to them. -/
theorem position_orders_offsets :
    (∀ offset,
      IsGreatest {line | ∃ start ∈ buffer.lineStart? line, start ≤ offset}
          (buffer.position offset).line ∧
        ∃ start ∈ buffer.lineStart? (buffer.position offset).line,
          (buffer.position offset).character = (Text.slice buffer.text start
            (Text.floorBoundary buffer.text (min offset (Text.byteSize buffer.text)))).length) ∧
    (Monotone fun offset => (buffer.position offset).rank) ∧
    {offset | offset ∈ Text.boundaries buffer.text}.InjOn buffer.position ∧
    ∀ offset ∈ Text.boundaries buffer.text,
      ∃ start ∈ buffer.lineStart? (buffer.position offset).line,
        start + Text.byteSize ((Text.slice buffer.text start (Text.byteSize buffer.text)).take
          (buffer.position offset).character) = offset := by
  have hback : ∀ offset ∈ Text.boundaries buffer.text,
      ∃ start ∈ buffer.lineStart? (buffer.position offset).line,
        start + Text.byteSize ((Text.slice buffer.text start (Text.byteSize buffer.text)).take
          (buffer.position offset).character) = offset := by
    intro offset hoffset
    obtain ⟨start, hstart, -, hfloor⟩ := buffer.exists_lineStart?_position offset
    exact ⟨start, hstart, hfloor.trans (Text.floorBoundary_of_mem hoffset)⟩
  refine ⟨fun offset => ⟨buffer.isGreatest_line_position offset, ?_⟩,
    buffer.monotone_rank_position, ?_, hback⟩
  · obtain ⟨start, hstart, hcharacter, -⟩ := buffer.exists_lineStart?_position offset
    refine ⟨start, hstart, ?_⟩
    rw [Text.floorBoundary_min_byteSize, Text.slice_floorBoundary, hcharacter]
  · intro first hfirst last hlast hsame
    obtain ⟨start, hstart, heq⟩ := hback first hfirst
    obtain ⟨later, hlater, heq'⟩ := hback last hlast
    rw [← hsame] at hlater heq'
    rw [hstart] at hlater
    obtain rfl := Option.some.inj hlater
    exact heq.symm.trans heq'

theorem position_orders_offsets_lineEnd :
    let buffer := ofFile ⟨"a.ts", "é\r\nb"⟩
    3 ∈ Text.boundaries buffer.text ∧ buffer.position 3 = ⟨0, 2⟩ ∧
      ∃ start ∈ buffer.lineStart? 0,
        start + Text.byteSize ((Text.slice buffer.text start 5).take 2) = 3 := by
  intro buffer
  have hboundary : 3 ∈ Text.boundaries buffer.text := by decide
  obtain ⟨-, -, -, hback⟩ := buffer.position_orders_offsets
  exact ⟨hboundary, by decide, hback 3 hboundary⟩

end Buffer

end MismatchReport.Source
