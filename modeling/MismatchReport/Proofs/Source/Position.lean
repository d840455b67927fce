import MismatchReport.Proofs.Text.Boundary
import MismatchReport.Source.Buffer

/-!
# Positions and offsets

Two ways to say where something stands in a source text: by line and column, and by byte offset.
The position of an offset is the place of its boundary, and boundaries and places are ordered
alike.
-/

namespace MismatchReport.Source

/-- The offset of a place: the bytes of the lines before it and of the characters before it. -/
def offsetIn (lines : List Line) (line column : Nat) : Nat :=
  Text.byteSize ((lines.take line).flatMap Line.text) +
    Text.byteSize (((lines[line]?.map Line.text).getD []).take column)

theorem offsetIn_zero (line : Line) (rest : List Line) (column : Nat) :
    offsetIn (line :: rest) 0 column = Text.byteSize (line.text.take column) := by
  simp [offsetIn]

theorem offsetIn_succ (line : Line) (rest : List Line) (below column : Nat) :
    offsetIn (line :: rest) (below + 1) column =
      line.byteSize + offsetIn rest below column := by
  simp [offsetIn, Line.byteSize, Text.byteSize_append, Nat.add_assoc]

theorem startsFrom_getElem? (offset : Nat) (lines : List Line) (line : Nat)
    (hline : line < lines.length) :
    (startsFrom offset lines)[line]? =
      some (offset + Text.byteSize ((lines.take line).flatMap Line.text)) := by
  induction lines generalizing offset line with
  | nil => simp at hline
  | cons first rest ih =>
      cases line with
      | zero => simp [startsFrom]
      | succ line =>
          rw [startsFrom, List.getElem?_cons_succ,
            ih (offset + first.byteSize) line (by simpa using hline), List.take_succ_cons,
            List.flatMap_cons, Text.byteSize_append, Line.byteSize, Nat.add_assoc]

theorem le_of_mem_startsFrom {offset start : Nat} {lines : List Line}
    (hstart : start ∈ startsFrom offset lines) : offset ≤ start := by
  induction lines generalizing offset with
  | nil => simp [startsFrom] at hstart
  | cons line rest ih =>
      simp only [startsFrom, List.mem_cons] at hstart
      rcases hstart with rfl | hrest
      · exact Nat.le_refl _
      · exact Nat.le_of_add_right_le (ih hrest)

theorem locate_cons_of_lt {offset : Nat} {line : Line} {rest : List Line}
    (hlt : offset < line.byteSize) :
    locate offset (line :: rest) = ⟨0, (Text.takeBytes offset line.text).length⟩ := by
  cases rest with
  | nil => rfl
  | cons next rest => rw [locate, if_pos hlt]

theorem locate_cons_of_le {offset : Nat} {line : Line} {rest : List Line}
    (hle : line.byteSize ≤ offset) (hrest : rest ≠ []) :
    locate offset (line :: rest) =
      ⟨(locate (offset - line.byteSize) rest).line + 1,
        (locate (offset - line.byteSize) rest).character⟩ := by
  cases rest with
  | nil => exact absurd rfl hrest
  | cons next rest => rw [locate, if_neg (Nat.not_lt.mpr hle)]

theorem countP_startsFrom (base offset : Nat) {lines : List Line} (hlines : lines ≠ []) :
    (startsFrom base lines).countP (· ≤ base + offset) = (locate offset lines).line + 1 := by
  induction lines generalizing base offset with
  | nil => exact absurd rfl hlines
  | cons line rest ih =>
      rw [startsFrom, List.countP_cons_of_pos (by simp)]
      cases rest with
      | nil => simp [startsFrom, locate]
      | cons next rest =>
          by_cases hlt : offset < line.byteSize
          · have hnone :
                (startsFrom (base + line.byteSize) (next :: rest)).countP
                  (· ≤ base + offset) = 0 := by
              rw [List.countP_eq_zero]
              intro start hstart
              have := le_of_mem_startsFrom hstart
              simp
              omega
            rw [locate_cons_of_lt hlt, hnone]
          · have hle := Nat.le_of_not_lt hlt
            have hbelow := ih (base + line.byteSize) (offset - line.byteSize) (by simp)
            rw [show base + line.byteSize + (offset - line.byteSize) = base + offset by omega]
              at hbelow
            rw [locate_cons_of_le hle (by simp), hbelow]

/-! ## Rounded offsets -/

theorem takeBytes_cons_of_lt {offset : Nat} {line : Line} {rest : List Line}
    (hlt : offset < line.byteSize) :
    Text.takeBytes offset ((line :: rest).flatMap Line.text) =
      Text.takeBytes offset line.text :=
  Text.takeBytes_append_of_lt hlt

theorem byteSize_takeBytes_cons_of_le {offset : Nat} {line : Line} {rest : List Line}
    (hle : line.byteSize ≤ offset) :
    Text.byteSize (Text.takeBytes offset ((line :: rest).flatMap Line.text)) =
      line.byteSize +
        Text.byteSize (Text.takeBytes (offset - line.byteSize) (rest.flatMap Line.text)) := by
  rw [List.flatMap_cons, Text.takeBytes_append_of_le hle, Text.byteSize_append]
  rfl

theorem locate_byteSize_takeBytes (offset : Nat) (lines : List Line) :
    locate (Text.byteSize (Text.takeBytes offset (lines.flatMap Line.text))) lines =
      locate offset lines := by
  induction lines generalizing offset with
  | nil => rfl
  | cons line rest ih =>
      cases rest with
      | nil =>
          simp only [List.flatMap_cons, List.flatMap_nil, List.append_nil, locate]
          rw [Text.takeBytes_byteSize_takeBytes]
      | cons next rest =>
          by_cases hlt : offset < line.byteSize
          · have hsize := Text.byteSize_takeBytes_le offset line.text
            rw [takeBytes_cons_of_lt hlt, locate_cons_of_lt hlt,
              locate_cons_of_lt (by omega), Text.takeBytes_byteSize_takeBytes]
          · have hle := Nat.le_of_not_lt hlt
            rw [byteSize_takeBytes_cons_of_le hle,
              locate_cons_of_le (Nat.le_add_right _ _) (by simp),
              locate_cons_of_le hle (by simp), Nat.add_sub_cancel_left, ih]

theorem offsetIn_lt_iff (offset : Nat) {lines : List Line} {line column : Nat}
    {entry : Line} (hentry : lines[line]? = some entry) (hcolumn : column < entry.text.length) :
    offsetIn lines line column <
        Text.byteSize (Text.takeBytes offset (lines.flatMap Line.text)) ↔
      line < (locate offset lines).line ∨
        (line = (locate offset lines).line ∧ column < (locate offset lines).character) := by
  induction lines generalizing offset line with
  | nil => simp at hentry
  | cons first rest ih =>
      -- The offset either ends on the first line or leaves its bytes behind.
      by_cases hends : offset < first.byteSize ∨ rest = []
      · have hlocate : locate offset (first :: rest) =
            ⟨0, (Text.takeBytes offset first.text).length⟩ := by
          rcases hends with hlt | rfl
          · exact locate_cons_of_lt hlt
          · rfl
        have htake : Text.takeBytes offset ((first :: rest).flatMap Line.text) =
            Text.takeBytes offset first.text := by
          rcases hends with hlt | rfl
          · exact takeBytes_cons_of_lt hlt
          · simp
        rw [hlocate, htake]
        cases line with
        | zero =>
            obtain rfl : first = entry := by simpa using hentry
            rw [offsetIn_zero, Text.takeBytes_eq_take offset first.text,
              Text.byteSize_take_lt_iff hcolumn.le (Text.length_takeBytes_le _ _)]
            simp [← Text.takeBytes_eq_take]
        | succ line =>
            have hlt : offset < first.byteSize := by
              rcases hends with hlt | rfl
              · exact hlt
              · simp at hentry
            have hsize := Text.byteSize_takeBytes_le offset first.text
            rw [offsetIn_succ]
            simp
            omega
      · obtain ⟨hle, hrest⟩ := not_or.mp hends
        rw [locate_cons_of_le (Nat.le_of_not_lt hle) hrest,
          byteSize_takeBytes_cons_of_le (Nat.le_of_not_lt hle)]
        cases line with
        | zero =>
            obtain rfl : first = entry := by simpa using hentry
            have hall := Text.byteSize_take_lt hcolumn (Nat.le_refl _)
            rw [List.take_length] at hall
            rw [offsetIn_zero]
            simp only [Line.byteSize, Nat.zero_lt_succ, true_or, iff_true]
            omega
        | succ line =>
            rw [offsetIn_succ, Nat.add_lt_add_iff_left,
              ih (offset - first.byteSize) (by simpa using hentry)]
            simp

theorem Span.start_le_stop (span : Span) : span.start.toNat ≤ span.stop := by
  have hstart := span.start.toNat_lt_size
  simp only [Span.stop]
  omega

namespace Buffer

def lineAt (buffer : Buffer) (offset : Nat) : Nat :=
  (lineStarts buffer.lines).countP (· ≤ offset) - 1

def offsetAt (buffer : Buffer) (line column : Nat) : Nat :=
  (buffer.lineStart? line).getD 0 + Text.byteSize ((buffer.lineText line).take column)

variable (buffer : Buffer)

theorem lines_ne_nil : buffer.lines ≠ [] :=
  buffer.lines_eq ▸ linesOf_ne_nil buffer.text

theorem flatMap_text_lines : buffer.lines.flatMap Line.text = buffer.text :=
  buffer.lines_eq ▸ flatMap_text_linesOf buffer.text

theorem line_position (offset : Nat) :
    (buffer.position offset).line = buffer.lineAt offset := by
  have hcount := countP_startsFrom 0 offset buffer.lines_ne_nil
  simp only [Nat.zero_add] at hcount
  rw [lineAt, lineStarts, hcount, Nat.add_sub_cancel]
  rfl

theorem position_floorBoundary (offset : Nat) :
    buffer.position (Text.floorBoundary buffer.text offset) = buffer.position offset := by
  rw [Text.floorBoundary_eq_byteSize, ← buffer.flatMap_text_lines]
  exact locate_byteSize_takeBytes offset buffer.lines

theorem lineAt_mono {first last : Nat} (hle : first ≤ last) :
    buffer.lineAt first ≤ buffer.lineAt last := by
  apply Nat.sub_le_sub_right
  apply List.countP_mono_left
  intro start _ hstart
  simp only [decide_eq_true_eq] at hstart ⊢
  exact hstart.trans hle

theorem offsetAt_eq_offsetIn {line column : Nat}
    (hcolumn : column < (buffer.lineText line).length) :
    buffer.offsetAt line column = offsetIn buffer.lines line column := by
  cases hentry : buffer.lines[line]? with
  | none => simp [lineText, hentry] at hcolumn
  | some entry =>
      have hline : line < buffer.lines.length := (List.getElem?_eq_some_iff.mp hentry).1
      simp only [lineText, hentry, Option.map_some, Option.getD_some] at hcolumn
      rw [offsetAt, lineStart?, lineStarts, startsFrom_getElem? 0 _ _ hline]
      simp only [offsetIn, lineText, hentry, Option.map_some, Option.getD_some, Nat.zero_add,
        Line.text]
      rw [List.take_append_of_le_length hcolumn.le]

theorem offsetAt_lt_floorBoundary_iff (offset : Nat) {line column : Nat}
    (hcolumn : column < (buffer.lineText line).length) :
    buffer.offsetAt line column < Text.floorBoundary buffer.text offset ↔
      line < (buffer.position offset).line ∨
        (line = (buffer.position offset).line ∧
          column < (buffer.position offset).character) := by
  rw [offsetAt_eq_offsetIn buffer hcolumn, Text.floorBoundary_eq_byteSize,
    ← buffer.flatMap_text_lines]
  cases hentry : buffer.lines[line]? with
  | none => simp [lineText, hentry] at hcolumn
  | some entry =>
      simp only [lineText, hentry, Option.map_some, Option.getD_some] at hcolumn
      refine offsetIn_lt_iff offset hentry (hcolumn.trans_le ?_)
      simp [Line.text]

end Buffer

end MismatchReport.Source
