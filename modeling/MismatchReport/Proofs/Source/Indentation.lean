import Mathlib.Data.List.TakeWhile
import MismatchReport.Proofs.Source.Excerpt
import MismatchReport.Proofs.Source.Partition

/-!
# The indentation of an excerpt

The shown lines lose the indentation that they have in common.  What stands behind the gutter is
the line without blanks at its ends, and the lines keep their indentation relative to each other.
-/

namespace MismatchReport

namespace Source

theorem isBlank_tabToSpace (char : Char) : isBlank (tabToSpace char) = isBlank char := by
  unfold tabToSpace
  split
  · rename_i htab
    rw [htab]
    rfl
  · rfl

theorem tabToSpace_of_not_isBlank {char : Char} (hchar : ¬ isBlank char) :
    tabToSpace char = char := by
  refine if_neg ?_
  rintro rfl
  exact hchar rfl

theorem tabToSpace_ne_tab (char : Char) : tabToSpace char ≠ '\t' := by
  unfold tabToSpace
  split
  · decide
  · assumption

theorem leadingBlanks_append_cons {front rest : Text} {char : Char}
    (hfront : ∀ blank ∈ front, isBlank blank) (hchar : ¬ isBlank char) :
    leadingBlanks (front ++ char :: rest) = front.length := by
  rw [leadingBlanks, List.takeWhile_append_of_pos hfront, List.takeWhile_cons_of_neg hchar,
    List.append_nil]

theorem exists_indent_of_not_isBlankLine {line : Text} (hline : ¬ isBlankLine line) :
    ∃ front char rest, line = front ++ char :: rest ∧ (∀ blank ∈ front, isBlank blank) ∧
      ¬ isBlank char := by
  obtain ⟨first, hfirst⟩ : ∃ first, line.find? (!isBlank ·) = some first := by
    rw [← Option.isSome_iff_exists, List.find?_isSome]
    simpa [isBlankLine] using hline
  obtain ⟨hchar, front, rest, hsplit, hfront⟩ := List.find?_eq_some_iff_append.mp hfirst
  exact ⟨front, first, rest, hsplit, by simpa using hfront, by simpa using hchar⟩

theorem mem_indents_iff {lines : List Text} {indent : Nat} :
    indent ∈ (lines.filter (!isBlankLine ·)).map leadingBlanks ↔
      ∃ line ∈ lines, ¬ isBlankLine line ∧ leadingBlanks line = indent := by
  simp [and_assoc]

theorem commonIndent_isLeast {lines : List Text} {line : Text} (hline : line ∈ lines)
    (hblank : ¬ isBlankLine line) :
    commonIndent lines ≤ leadingBlanks line ∧
      ∃ least ∈ lines, ¬ isBlankLine least ∧ leadingBlanks least = commonIndent lines := by
  have hindents : leadingBlanks line ∈ (lines.filter (!isBlankLine ·)).map leadingBlanks :=
    mem_indents_iff.mpr ⟨line, hline, hblank, rfl⟩
  obtain ⟨indent, hindent⟩ :=
    Option.isSome_iff_exists.mp (List.isSome_min?_of_ne_nil (List.ne_nil_of_mem hindents))
  obtain ⟨hmem, hleast⟩ := List.min?_eq_some_iff.mp hindent
  have hcommon : commonIndent lines = indent := by rw [commonIndent, hindent, Option.getD_some]
  rw [hcommon]
  exact ⟨hleast _ hindents, mem_indents_iff.mp hmem⟩

/-! ## Shown contents -/

/-- A line as it is shown behind the gutter, its indentation less by `dedent`: without blanks at
its ends, and with spaces for tabs. -/
structure ShowsContent (dedent : Nat) (line content : Text) : Prop where
  exists_ends : ∃ front shown ending, line = front ++ shown ++ ending ∧
    (∀ char ∈ front ++ ending, isBlank char) ∧ content = shown.map tabToSpace
  filter_eq : content.filter (!isBlank ·) = line.filter (!isBlank ·)
  leadingBlanks_eq : ¬ isBlankLine line → leadingBlanks line = dedent + leadingBlanks content
  eq_nil : isBlankLine line → content = []
  on_one_line : ∀ char ∈ content, char ≠ '\t' ∧ ¬ isLineBreak char

theorem filter_eq_of_ends {front shown ending : Text}
    (hends : ∀ char ∈ front ++ ending, isBlank char) :
    (shown.map tabToSpace).filter (!isBlank ·) =
      (front ++ shown ++ ending).filter (!isBlank ·) := by
  have hfront : front.filter (!isBlank ·) = [] := by
    simpa using fun char hchar => hends char (List.mem_append_left ending hchar)
  have hending : ending.filter (!isBlank ·) = [] := by
    simpa using fun char hchar => hends char (List.mem_append_right front hchar)
  have hshown : (shown.filter (!isBlank ·)).map tabToSpace = shown.filter (!isBlank ·) := by
    conv_rhs => rw [← List.map_id (shown.filter (!isBlank ·))]
    refine List.map_congr_left fun char hchar => tabToSpace_of_not_isBlank ?_
    simpa using (List.mem_filter.mp hchar).2
  rw [List.filter_append, List.filter_append, hfront, hending, List.nil_append, List.append_nil,
    List.filter_map]
  simpa [Function.comp_def, isBlank_tabToSpace] using hshown

theorem contentBehind_append_cons {indent : Nat} {front rest : Text} {char : Char}
    (hindent : indent ≤ front.length) (hchar : ¬ isBlank char) :
    contentBehind indent (front ++ char :: rest) =
      (front.drop indent).map tabToSpace ++ char :: (Text.trimEnd isBlank rest).map tabToSpace := by
  rw [contentBehind, List.drop_append_of_le_length hindent, Text.trimEnd_append_cons hchar,
    List.map_append, List.map_cons, tabToSpace_of_not_isBlank hchar]

theorem leadingBlanks_contentBehind {indent : Nat} {line : Text} (hline : ¬ isBlankLine line)
    (hindent : indent ≤ leadingBlanks line) :
    leadingBlanks line = indent + leadingBlanks (contentBehind indent line) := by
  obtain ⟨front, char, rest, rfl, hfront, hchar⟩ := exists_indent_of_not_isBlankLine hline
  rw [leadingBlanks_append_cons hfront hchar] at hindent ⊢
  rw [contentBehind_append_cons hindent hchar, leadingBlanks_append_cons _ hchar, List.length_map,
    List.length_drop]
  · omega
  · intro blank hblank
    obtain ⟨source, hsource, rfl⟩ := List.mem_map.mp hblank
    rw [isBlank_tabToSpace]
    exact hfront source (List.mem_of_mem_drop hsource)

theorem isBlank_of_mem_take {indent : Nat} {line : Text}
    (hindent : ¬ isBlankLine line → indent ≤ leadingBlanks line) :
    ∀ char ∈ line.take indent, isBlank char := by
  intro char hchar
  by_cases hblank : isBlankLine line
  · exact List.all_eq_true.mp hblank char (List.mem_of_mem_take hchar)
  · obtain ⟨front, first, rest, rfl, hfront, hfirst⟩ := exists_indent_of_not_isBlankLine hblank
    have hle := hindent hblank
    rw [leadingBlanks_append_cons hfront hfirst] at hle
    rw [List.take_append_of_le_length hle] at hchar
    exact hfront char (List.mem_of_mem_take hchar)

theorem showsContent_contentBehind {indent : Nat} {line : Text}
    (hbreaks : ∀ char ∈ line, ¬ isLineBreak char)
    (hindent : ¬ isBlankLine line → indent ≤ leadingBlanks line) :
    ShowsContent indent line (contentBehind indent line) := by
  obtain ⟨ending, hsplit, hending⟩ := Text.exists_eq_trimEnd_append isBlank (line.drop indent)
  have hline : line = line.take indent ++ Text.trimEnd isBlank (line.drop indent) ++ ending := by
    rw [List.append_assoc, ← hsplit, List.take_append_drop]
  have hends : ∀ char ∈ line.take indent ++ ending, isBlank char :=
    List.forall_mem_append.mpr ⟨isBlank_of_mem_take hindent, hending⟩
  refine ⟨⟨_, _, _, hline, hends, rfl⟩, ?_, fun hblank => ?_, fun hblank => ?_, ?_⟩
  · conv_rhs => rw [hline]
    exact filter_eq_of_ends hends
  · exact leadingBlanks_contentBehind hblank (hindent hblank)
  · have hdrop : ∀ char ∈ line.drop indent, isBlank char := fun char hchar =>
      List.all_eq_true.mp hblank char (List.mem_of_mem_drop hchar)
    rw [contentBehind, List.map_eq_nil_iff]
    exact List.rdropWhile_eq_nil_iff.mpr hdrop
  · intro char hchar
    obtain ⟨source, hsource, rfl⟩ := List.mem_map.mp hchar
    refine ⟨tabToSpace_ne_tab source, ?_⟩
    unfold tabToSpace
    split
    · decide
    · exact hbreaks source (List.mem_of_mem_drop ((Text.trimEnd_isPrefix _ _).subset hsource))

def gutterText? (margin : Text) (row : StyledLine) : Option Text :=
  (margin ++ "| ").isPrefixOf? row.plainText

theorem gutterText?_codeRow (margin : Text) (line : MarkedLine) :
    gutterText? margin (codeRow margin line) = some line.content := by
  rw [gutterText?, List.isPrefixOf?_eq_some_iff_append_eq, plainText_codeRow]

theorem gutterText?_eq_none {margin rest : Text} {row : StyledLine} {char : Char}
    (hrow : row.plainText = margin ++ char :: rest) (hchar : char ≠ '|') :
    gutterText? margin row = none := by
  rw [Option.eq_none_iff_forall_ne_some]
  intro content hcontent
  rw [gutterText?, List.isPrefixOf?_eq_some_iff_append_eq, hrow, List.append_assoc,
    List.append_cancel_left_eq] at hcontent
  exact hchar (List.cons.inj hcontent).1.symm

theorem gutterText?_markRow (margin : Text) (line : MarkedLine) :
    gutterText? margin (markRow margin line) = none := by
  have htext : (markRow margin line).plainText = margin ++ ' ' :: ' ' ::
      (Text.spaces line.start ++ List.replicate (line.stop - line.start) mark ++
        Text.spaces (line.content.length - line.stop)) := by
    rw [plainText_markRow]
    simp
  exact gutterText?_eq_none htext (by decide)

theorem gutterText?_ellipsisRow (margin : Text) :
    gutterText? margin (ellipsisRow margin) = none :=
  gutterText?_eq_none (plainText_ellipsisRow margin) (by decide)

theorem filterMap_gutterText?_flatMap (margin : Text) (lines : List MarkedLine) :
    (lines.flatMap (rowPair margin)).filterMap (gutterText? margin) =
      lines.map MarkedLine.content := by
  induction lines with
  | nil => rfl
  | cons line rest ih =>
      rw [List.flatMap_cons, List.filterMap_append, ih, List.map_cons, rowPair,
        List.filterMap_cons_some (gutterText?_codeRow margin line),
        List.filterMap_cons_none (gutterText?_markRow margin line)]
      rfl

theorem filterMap_gutterText?_rows (margin : Text) (excerpt : Excerpt) :
    (excerpt.rows margin).filterMap (gutterText? margin) =
      excerpt.lines.map MarkedLine.content := by
  unfold Excerpt.rows
  split
  · rw [List.filterMap_append, List.filterMap_cons_none (gutterText?_ellipsisRow margin),
      filterMap_gutterText?_flatMap, filterMap_gutterText?_flatMap, ← List.map_append,
      List.take_append_drop]
  · exact filterMap_gutterText?_flatMap margin excerpt.lines

theorem shownLines_eq (first last : Nat) :
    shownLines first last =
      if last - first < 4 then List.range' first (last - first + 1)
      else [first, first + 1, last - 1, last] := by
  simp only [shownLines, isShortened, decide_eq_true_eq, ← Nat.not_lt, ite_not]

/-! ## Whole excerpts -/

/-- Every shown line loses the same number of leading blanks, unless it has no other characters
and is shown empty.  If there are other lines, one of them is shown without indentation.  The
buffer has a text shorter than 2 ^ 32 bytes, as all buffers here; past that the starts of lines
would no longer be offsets that a span can have. -/
theorem renderSpan_keeps_indentation (buffer : Buffer) (span : Span) (margin : Text) :
    let first := (buffer.position span.start.toNat).line
    let last := (buffer.position span.stop).line
    let shown := (if last - first < 4 then List.range' first (last - first + 1)
      else [first, first + 1, last - 1, last]).map buffer.lineText
    let contents := (renderSpan buffer span margin).filterMap (gutterText? margin)
    ∃ dedent,
      List.Forall₂ (ShowsContent dedent) shown contents ∧
      ((∃ line ∈ shown, ¬ isBlankLine line) →
        ∃ (place : Nat) (line content : Text),
          shown[place]? = some line ∧ contents[place]? = some content ∧
            ¬ isBlankLine line ∧ ∃ char ∈ content.head?, ¬ isBlank char) := by
  intro first last shown contents
  have hcontents : contents = shown.map (contentBehind (commonIndent shown)) := by
    simp only [contents, shown, renderSpan, filterMap_gutterText?_rows, excerptOf, List.map_map,
      ← shownLines_eq]
    rfl
  have hleast : ∀ line ∈ shown, ¬ isBlankLine line → commonIndent shown ≤ leadingBlanks line :=
    fun line hline hblank => (commonIndent_isLeast hline hblank).1
  have hbreaks : ∀ line ∈ shown, ∀ char ∈ line, ¬ isLineBreak char := by
    intro line hline char hchar
    obtain ⟨number, -, rfl⟩ := List.mem_map.mp hline
    exact buffer.not_isLineBreak_of_mem_lineText hchar
  refine ⟨commonIndent shown, ?_, ?_⟩
  · rw [hcontents, List.forall₂_map_right_iff, List.forall₂_same]
    exact fun line hline => showsContent_contentBehind (hbreaks line hline) (hleast line hline)
  · rintro ⟨line, hline, hblank⟩
    obtain ⟨-, least, hmem, hother, hindent⟩ := commonIndent_isLeast hline hblank
    obtain ⟨place, hplace⟩ := List.mem_iff_getElem?.mp hmem
    refine ⟨place, least, contentBehind (commonIndent shown) least, hplace, ?_, hother, ?_⟩
    · rw [hcontents, List.getElem?_map, hplace]
      rfl
    · obtain ⟨front, char, rest, rfl, hfront, hchar⟩ := exists_indent_of_not_isBlankLine hother
      rw [leadingBlanks_append_cons hfront hchar] at hindent
      rw [contentBehind_append_cons hindent.ge hchar, ← hindent, List.drop_length]
      exact ⟨char, rfl, hchar⟩

theorem renderSpan_keeps_indentation_block :
    let buffer := Buffer.ofFile ⟨"a.ts", "\tif (a)\n \n\t\tb;\n\tc;"⟩
    let shown := [0, 1, 2, 3].map buffer.lineText
    let contents := (renderSpan buffer ⟨0, 18⟩ "  ").filterMap (gutterText? "  ")
    contents = ["if (a)".toList, [], " b;".toList, "c;".toList] ∧
      (∃ line ∈ shown, ¬ isBlankLine line) ∧
      ∃ (place : Nat) (line content : Text),
        shown[place]? = some line ∧ contents[place]? = some content ∧
          ¬ isBlankLine line ∧ ∃ char ∈ content.head?, ¬ isBlank char := by
  intro buffer shown contents
  have hshown : ∃ line ∈ shown, ¬ isBlankLine line := by decide
  obtain ⟨dedent, -, hleast⟩ := renderSpan_keeps_indentation buffer ⟨0, 18⟩ "  "
  exact ⟨by decide, hshown, hleast hshown⟩

end Source

end MismatchReport
