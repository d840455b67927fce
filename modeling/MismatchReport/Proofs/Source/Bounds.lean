import MismatchReport.Proofs.Source.Indentation

/-!
# The bounds of an excerpt

An excerpt takes differences of lines and columns, keeps columns between bounds, and cuts its lines
out of the bytes of the text.  Here each of these steps has no result out of its bounds.  None is
ever taken there.
-/

namespace MismatchReport

theorem mapM_eq_some_map {α β : Type} {f : α → Option β} {g : α → β} {items : List α}
    (hitems : ∀ item ∈ items, f item = some (g item)) : items.mapM f = some (items.map g) := by
  induction items with
  | nil => rfl
  | cons item rest ih =>
      obtain ⟨hitem, hrest⟩ := List.forall_mem_cons.mp hitems
      rw [List.mapM_cons, hitem, ih hrest]
      rfl

def difference? (whole part : Nat) : Option Nat :=
  if part ≤ whole then some (whole - part) else none

def clamp? (lower upper value : Nat) : Option Nat :=
  if lower ≤ upper then some (max lower (min value upper)) else none

/-- The bytes from one offset up to another, unless the offsets are out of order, stand behind the
end or cut a character. -/
def Text.slice? (text : Text) (start stop : Nat) : Option Text :=
  if start ≤ stop ∧ start ∈ boundaries text ∧ stop ∈ boundaries text then
    some (slice text start stop)
  else none

namespace Source

def Buffer.lineText? (buffer : Buffer) (line : Nat) : Option Text := do
  let start ← buffer.lineStart? line
  let stop := (buffer.lineStart? (line + 1)).getD (Text.byteSize buffer.text)
  let raw ← Text.slice? buffer.text start stop
  return Text.trimEnd isLineBreak raw

def shownLines? (first last distance : Nat) : Option (List Nat) :=
  if 4 ≤ distance then
    (difference? last 1).map fun before => [first, first + 1, before, last]
  else some (List.range' first (distance + 1))

def rowOfMarks (margin : Text) (before marks behind : Nat) : StyledLine :=
  ((((StyledLine.plain margin).pushPlain "  ").pushPlain (Text.spaces before)).push
    (List.replicate marks mark) { squiggle := true }).pushPlain (Text.spaces behind)

def rowPair? (buffer : Buffer) (first last : Position) (margin : Text) (indent line : Nat) :
    Option (List StyledLine) := do
  let text ← buffer.lineText? line
  let content := contentBehind indent text
  let start := min (if line = first.line then first.character - indent else 0) content.length
  let stop ← clamp? start content.length
    (if line = last.line then last.character - indent else content.length)
  let marks ← difference? stop start
  let behind ← difference? content.length stop
  return [codeRow margin ⟨content, start, stop⟩, rowOfMarks margin start marks behind]

/-- The rows of an excerpt, unless one of its steps is out of its bounds. -/
def renderSpan? (buffer : Buffer) (span : Span) (margin : Text) : Option (List StyledLine) := do
  let first := buffer.position span.start.toNat
  let last := buffer.position span.stop
  let distance ← difference? last.line first.line
  let shown ← shownLines? first.line last.line distance
  let texts ← shown.mapM buffer.lineText?
  let pairs ← shown.mapM (rowPair? buffer first last margin (commonIndent texts))
  if 4 ≤ distance then
    return (pairs.take 2).flatten ++ ellipsisRow margin :: (pairs.drop 2).flatten
  else return pairs.flatten

namespace Buffer

variable (buffer : Buffer)

theorem mem_boundaries_of_lineStart? {line start : Nat}
    (hstart : buffer.lineStart? line = some start) : start ∈ Text.boundaries buffer.text :=
  buffer.mem_boundaries_of_mem_lineStarts (List.mem_of_getElem? hstart)

theorem lineStart_le_stop {line start : Nat} (hstart : buffer.lineStart? line = some start) :
    start ≤ (buffer.lineStart? (line + 1)).getD (Text.byteSize buffer.text) := by
  cases hnext : buffer.lineStart? (line + 1) with
  | none =>
      obtain ⟨front, hfront, rfl⟩ :=
        Text.mem_boundaries.mp (buffer.mem_boundaries_of_lineStart? hstart)
      exact Text.byteSize_le_of_prefix hfront
  | some next =>
      have hpairwise := buffer.areEnded_lines.pairwise_startsFrom 0
      obtain ⟨hline, rfl⟩ := List.getElem?_eq_some_iff.mp hstart
      obtain ⟨hlater, rfl⟩ := List.getElem?_eq_some_iff.mp hnext
      exact (List.pairwise_iff_getElem.mp hpairwise _ _ hline hlater (Nat.lt_succ_self line)).le

theorem stop_mem_boundaries (line : Nat) :
    (buffer.lineStart? line).getD (Text.byteSize buffer.text) ∈ Text.boundaries buffer.text := by
  cases hstart : buffer.lineStart? line with
  | none => exact Text.mem_boundaries.mpr ⟨buffer.text, List.prefix_rfl, rfl⟩
  | some start => exact buffer.mem_boundaries_of_lineStart? hstart

theorem lineText?_of_lt {line : Nat} (hline : line < buffer.lineCount) :
    buffer.lineText? line = some (buffer.lineText line) := by
  obtain ⟨start, hstart⟩ : ∃ start, buffer.lineStart? line = some start := by
    rw [← Option.isSome_iff_exists]
    simpa [lineStart?, lineStarts, length_startsFrom, lineCount] using hline
  have hslice : Text.slice? buffer.text start
      ((buffer.lineStart? (line + 1)).getD (Text.byteSize buffer.text)) =
        some (buffer.rawText line) := by
    rw [Text.slice?, if_pos ⟨buffer.lineStart_le_stop hstart,
      buffer.mem_boundaries_of_lineStart? hstart, buffer.stop_mem_boundaries _⟩, rawText, hstart]
  rw [lineText?, hstart, buffer.lineText_eq_trimEnd line]
  simp only [Option.bind_eq_bind, Option.bind_some, hslice]
  rfl

end Buffer

theorem difference?_of_le {whole part : Nat} (hle : part ≤ whole) :
    difference? whole part = some (whole - part) := if_pos hle

theorem clamp?_of_le {lower upper : Nat} (hle : lower ≤ upper) (value : Nat) :
    clamp? lower upper value = some (max lower (min value upper)) := if_pos hle

theorem shownLines?_of_le {first last : Nat} (hle : first ≤ last) :
    shownLines? first last (last - first) = some (shownLines first last) := by
  rw [shownLines_eq]
  unfold shownLines?
  split
  · rw [difference?_of_le (by omega), Option.map_some, if_neg (by omega)]
  · rw [if_pos (by omega)]

theorem rowPair?_of_lt {buffer : Buffer} {line : Nat} (hline : line < buffer.lineCount)
    (first last : Position) (margin : Text) (indent : Nat) :
    rowPair? buffer first last margin indent line =
      some (rowPair margin
        (markLine first last indent line (contentBehind indent (buffer.lineText line)))) := by
  have hstart := start_markLine_le first last indent line
    (contentBehind indent (buffer.lineText line))
  have hstop := stop_markLine_le first last indent line
    (contentBehind indent (buffer.lineText line))
  simp only [rowPair?, buffer.lineText?_of_lt hline, Option.bind_eq_bind, Option.bind_some,
    clamp?_of_le (Nat.min_le_right _ _)]
  simp only [markLine] at hstart hstop
  rw [difference?_of_le hstart, Option.bind_some, difference?_of_le hstop]
  rfl

theorem rows_eq_flatten (margin : Text) (excerpt : Excerpt) :
    let pairs := excerpt.lines.map (rowPair margin)
    excerpt.rows margin =
      if excerpt.shortened then
        (pairs.take 2).flatten ++ ellipsisRow margin :: (pairs.drop 2).flatten
      else pairs.flatten := by
  simp only [Excerpt.rows, List.flatMap_def, List.map_take, List.map_drop]

/-- An excerpt never takes a difference below zero, keeps a column between bounds out of order or
cuts a character.  The lines that it shows are lines of the buffer. -/
theorem renderSpan_within_bounds (buffer : Buffer) (span : Span) (margin : Text) :
    let first := (buffer.position span.start.toNat).line
    let last := (buffer.position span.stop).line
    let shown := if last - first < 4 then List.range' first (last - first + 1)
      else [first, first + 1, last - 1, last]
    renderSpan? buffer span margin = some (renderSpan buffer span margin) ∧
      ∀ line ∈ shown, line < buffer.lineCount ∧
        buffer.lineText? line = some (buffer.lineText line) := by
  intro first last shown
  have hle : first ≤ last := by
    simp only [first, last, buffer.line_position]
    exact buffer.lineAt_mono span.start_le_stop
  have hshown : shownLines first last = shown := shownLines_eq first last
  have hlines : ∀ line ∈ shown, line < buffer.lineCount := by
    intro line hline
    rw [← hshown] at hline
    exact (mem_shownLines hle hline).2.trans_lt (line_locate_lt span.stop buffer.lines_ne_nil)
  refine ⟨?_, fun line hline => ⟨hlines line hline, buffer.lineText?_of_lt (hlines line hline)⟩⟩
  have htexts := mapM_eq_some_map fun line hline => buffer.lineText?_of_lt (hlines line hline)
  have hpairs := mapM_eq_some_map fun line hline => rowPair?_of_lt (hlines line hline)
    (buffer.position span.start.toNat) (buffer.position span.stop) margin
    (commonIndent (shown.map buffer.lineText))
  unfold renderSpan?
  simp only [Option.bind_eq_bind]
  rw [difference?_of_le hle, Option.bind_some, shownLines?_of_le hle, Option.bind_some, hshown,
    htexts, Option.bind_some, hpairs, Option.bind_some, renderSpan, rows_eq_flatten]
  simp only [excerptOf, isShortened, decide_eq_true_eq, List.map_map]
  rw [hshown]
  split <;> rfl

end Source

end MismatchReport
