import MismatchReport.Proofs.Source.Order
import MismatchReport.Proofs.Text.Trimming
import MismatchReport.Source.Blank

/-!
# The partition into lines

The lines of a buffer and their terminators spell its text.  The lines are looked at from the
outside: by the offsets at which they start, and by the bytes between one start and the next.
-/

namespace MismatchReport

namespace Source

theorem ofChar?_eq_none_iff {char : Char} :
    Terminator.ofChar? char = none ↔ ¬ isLineBreak char := by
  unfold Terminator.ofChar?
  split <;> simp_all [isLineBreak]

theorem eq_return_of_ofChar? {char : Char}
    (hchar : Terminator.ofChar? char = some .carriageReturn) : char = '\r' := by
  unfold Terminator.ofChar? at hchar
  split at hchar <;> simp_all

theorem Terminator.isLineBreak_of_mem_text {terminator : Terminator} {char : Char}
    (hchar : char ∈ terminator.text) : isLineBreak char := by
  cases terminator <;> simp [text] at hchar <;> rcases hchar with rfl | rfl <;> rfl

theorem Terminator.byteSize_pos (terminator : Terminator) :
    0 < Text.byteSize terminator.text := by
  cases terminator <;> decide

theorem Line.isLineBreak_of_mem_ending {line : Line} {char : Char}
    (hchar : char ∈ (line.terminator.map Terminator.text).getD []) : isLineBreak char := by
  cases hterminator : line.terminator with
  | none => simp [hterminator] at hchar
  | some terminator =>
      rw [hterminator] at hchar
      exact Terminator.isLineBreak_of_mem_text hchar

def pairCount (text : Text) : Nat := (text.zip text.tail).count ('\r', '\n')

/-- The characters that end lines, those of a pair counted once. -/
def terminatorCount (text : Text) : Nat := text.countP isLineBreak - pairCount text

theorem pairCount_cons_of_ne {char : Char} {rest : Text}
    (hpair : char = '\r' → rest.head? ≠ some '\n') :
    pairCount (char :: rest) = pairCount rest := by
  cases rest with
  | nil => rfl
  | cons next rest =>
      have hne : (char, next) ≠ ('\r', '\n') := by simpa using hpair
      simp [pairCount, hne]

theorem pairCount_pair (rest : Text) : pairCount ('\r' :: '\n' :: rest) = pairCount rest + 1 := by
  have hfeed : pairCount ('\n' :: rest) = pairCount rest :=
    pairCount_cons_of_ne fun hreturn => absurd hreturn (by decide)
  rw [← hfeed]
  simp [pairCount]

theorem length_linesOf (text : Text) : (linesOf text).length = terminatorCount text + 1 := by
  have hcount : (linesOf text).length + pairCount text = text.countP isLineBreak + 1 := by
    fun_induction linesOf text with
    | case1 => rfl
    | case2 rest ih =>
        have hreturn : isLineBreak '\r' := rfl
        have hfeed : isLineBreak '\n' := rfl
        rw [pairCount_pair, List.length_cons, List.countP_cons_of_pos hreturn,
          List.countP_cons_of_pos hfeed]
        omega
    | case3 char rest hpair terminator hchar ih =>
        have hbreak : isLineBreak char := by
          by_contra hbreak
          rw [ofChar?_eq_none_iff.mpr hbreak] at hchar
          cases hchar
        rw [List.length_cons, List.countP_cons_of_pos hbreak, pairCount_cons_of_ne]
        · omega
        · intro hreturn hfeed
          obtain ⟨below, rfl⟩ := List.head?_eq_some_iff.mp hfeed
          exact hpair below hreturn rfl
    | case4 char rest hpair hchar ih =>
        have hbreak := ofChar?_eq_none_iff.mp hchar
        rw [List.length_modifyHead, List.countP_cons_of_neg hbreak, pairCount_cons_of_ne, ih]
        rintro rfl
        exact absurd rfl hbreak
  have hlength : 1 ≤ (linesOf text).length :=
    List.length_pos_of_ne_nil (linesOf_ne_nil text)
  rw [terminatorCount]
  omega

/-! ## Lines with their terminators -/

/-- Each line but the last has its terminator and no other character that ends lines.  A line feed
behind a carriage return starts no line. -/
inductive AreEnded : List Line → Prop
  | last {content : Text} (hcontent : ∀ char ∈ content, ¬ isLineBreak char) :
      AreEnded [⟨content, none⟩]
  | cons {content : Text} {terminator : Terminator} {next : Line} {rest : List Line}
      (hcontent : ∀ char ∈ content, ¬ isLineBreak char)
      (hreturn : terminator = .carriageReturn → next.text.head? ≠ some '\n')
      (hrest : AreEnded (next :: rest)) :
      AreEnded (⟨content, some terminator⟩ :: next :: rest)

theorem areEnded_linesOf (text : Text) : AreEnded (linesOf text) := by
  fun_induction linesOf text with
  | case1 => exact .last (List.forall_mem_nil _)
  | case2 rest ih =>
      cases hlines : linesOf rest with
      | nil => exact absurd hlines (linesOf_ne_nil rest)
      | cons next lines =>
          rw [hlines] at ih
          exact .cons (List.forall_mem_nil _) (fun hreturn => absurd hreturn (by decide)) ih
  | case3 char rest hpair terminator hchar ih =>
      cases hlines : linesOf rest with
      | nil => exact absurd hlines (linesOf_ne_nil rest)
      | cons next lines =>
          have hrest := flatMap_text_linesOf rest
          rw [hlines] at ih hrest
          refine .cons (List.forall_mem_nil _) ?_ ih
          rintro rfl hfeed
          obtain ⟨below, hnext⟩ := List.head?_eq_some_iff.mp hfeed
          rw [List.flatMap_cons, hnext] at hrest
          exact hpair _ (eq_return_of_ofChar? hchar) hrest.symm
  | case4 char rest hpair hchar ih =>
      have hbreak := ofChar?_eq_none_iff.mp hchar
      generalize linesOf rest = lines at ih
      cases ih with
      | last hcontent => exact .last (List.forall_mem_cons.mpr ⟨hbreak, hcontent⟩)
      | cons hcontent hreturn hrest =>
          exact .cons (List.forall_mem_cons.mpr ⟨hbreak, hcontent⟩) hreturn hrest

namespace AreEnded

variable {lines : List Line}

theorem not_isLineBreak (hlines : AreEnded lines) :
    ∀ line ∈ lines, ∀ char ∈ line.content, ¬ isLineBreak char := by
  induction hlines with
  | last hcontent => simpa using hcontent
  | cons hcontent hreturn hrest ih => exact List.forall_mem_cons.mpr ⟨hcontent, ih⟩

theorem length_eq (hlines : AreEnded lines) :
    lines.length = (lines.filterMap Line.terminator).length + 1 := by
  induction hlines with
  | last hcontent => rfl
  | cons hcontent hreturn hrest ih => simpa using ih

theorem getElem?_of_terminator (hlines : AreEnded lines) {index : Nat} {terminator : Terminator}
    (hget : (lines.filterMap Line.terminator)[index]? = some terminator) :
    ∃ content next, lines[index]? = some ⟨content, some terminator⟩ ∧
      lines[index + 1]? = some next := by
  induction hlines generalizing index with
  | last hcontent => simp at hget
  | @cons content _ next _ hcontent hreturn hrest ih =>
      cases index with
      | zero =>
          obtain rfl : _ = terminator := by simpa using hget
          exact ⟨content, next, rfl, rfl⟩
      | succ index => exact ih (by simpa using hget)

theorem getElem?_last (hlines : AreEnded lines) :
    ∃ content, lines[(lines.filterMap Line.terminator).length]? = some ⟨content, none⟩ := by
  induction hlines with
  | @last content hcontent => exact ⟨content, rfl⟩
  | cons hcontent hreturn hrest ih => simpa using ih

theorem head?_text_ne (hlines : AreEnded lines) {index : Nat} {line next : Line}
    (hline : lines[index]? = some line) (hreturn : line.terminator = some .carriageReturn)
    (hnext : lines[index + 1]? = some next) : next.text.head? ≠ some '\n' := by
  induction hlines generalizing index with
  | last hcontent => simp at hnext
  | cons hcontent hfeed hrest ih =>
      cases index with
      | zero =>
          simp at hline hnext
          subst hline hnext
          exact hfeed (Option.some.inj hreturn)
      | succ index => exact ih hline hnext

theorem pairwise_startsFrom (hlines : AreEnded lines) (offset : Nat) :
    (startsFrom offset lines).Pairwise (· < ·) := by
  induction hlines generalizing offset with
  | last hcontent => simp [startsFrom]
  | @cons content terminator next rest hcontent hreturn hrest ih =>
      rw [startsFrom, List.pairwise_cons]
      refine ⟨fun start hstart => ?_, ih _⟩
      have hsize : Line.byteSize ⟨content, some terminator⟩ =
          Text.byteSize content + Text.byteSize terminator.text := Text.byteSize_append _ _
      have hpos := terminator.byteSize_pos
      have hle := le_of_mem_startsFrom hstart
      omega

theorem flatten_zipWith (hlines : AreEnded lines) :
    (List.zipWith (fun content terminator => content ++ Terminator.text terminator)
        (lines.map Line.content) (lines.filterMap Line.terminator)).flatten ++
      ((lines[(lines.filterMap Line.terminator).length]?.map Line.content).getD []) =
      lines.flatMap Line.text := by
  induction hlines with
  | last hcontent => simp [Line.text]
  | cons hcontent hreturn hrest ih =>
      rw [List.flatMap_cons, ← ih]
      simp [Line.text]

end AreEnded

/-! ## Lines of a buffer -/

namespace Buffer

variable (buffer : Buffer)

def rawText (line : Nat) : Text :=
  match buffer.lineStart? line with
  | none => []
  | some start =>
      Text.slice buffer.text start
        ((buffer.lineStart? (line + 1)).getD (Text.byteSize buffer.text))

theorem areEnded_lines : AreEnded buffer.lines := buffer.lines_eq ▸ areEnded_linesOf buffer.text

theorem rawText_length {before after : List Line} {line : Line}
    (hlines : buffer.lines = before ++ line :: after) :
    buffer.rawText before.length = line.text := by
  have hstop : (buffer.lineStart? (before.length + 1)).getD (Text.byteSize buffer.text) =
      Text.byteSize (before.flatMap Line.text) + line.byteSize := by
    cases after with
    | nil =>
        have hnone : buffer.lineStart? (before.length + 1) = none := by
          simp [lineStart?, lineStarts, length_startsFrom, hlines]
        rw [hnone, Option.getD_none, buffer.text_eq hlines, Text.byteSize_append, List.flatMap_nil,
          List.append_nil, Line.byteSize]
    | cons next after =>
        have hcut : buffer.lines = (before ++ [line]) ++ next :: after := by simpa using hlines
        have hnext := buffer.lineStart?_length hcut
        rw [List.length_append, List.length_singleton] at hnext
        rw [hnext, Option.getD_some, List.flatMap_append, List.flatMap_singleton,
          Text.byteSize_append, Line.byteSize]
  rw [rawText, buffer.lineStart?_length hlines]
  simp only [hstop]
  rw [buffer.text_eq hlines, Text.slice_byteSize_append, Nat.add_sub_cancel_left, Line.byteSize,
    Text.takeBytes_append_of_le (Nat.le_refl _), Nat.sub_self, Text.takeBytes_zero, List.append_nil]

theorem rawText_eq {line : Nat} {entry : Line} (hentry : buffer.lines[line]? = some entry) :
    buffer.rawText line = entry.text := by
  obtain ⟨hline, rfl⟩ := List.getElem?_eq_some_iff.mp hentry
  have hlines : buffer.lines = buffer.lines.take line ++
      buffer.lines[line] :: buffer.lines.drop (line + 1) := by simp
  have hraw := buffer.rawText_length hlines
  rwa [List.length_take_of_le hline.le] at hraw

theorem lineText_eq {line : Nat} {entry : Line} (hentry : buffer.lines[line]? = some entry) :
    buffer.lineText line = entry.content := by
  rw [lineText, hentry, Option.map_some, Option.getD_some]

theorem not_isLineBreak_of_mem_lineText {line : Nat} {char : Char}
    (hmem : char ∈ buffer.lineText line) : ¬ isLineBreak char := by
  cases hentry : buffer.lines[line]? with
  | none => simp [lineText, hentry] at hmem
  | some entry =>
      rw [buffer.lineText_eq hentry] at hmem
      exact buffer.areEnded_lines.not_isLineBreak entry (List.mem_of_getElem? hentry) char hmem

theorem lineText_eq_trimEnd (line : Nat) :
    buffer.lineText line = Text.trimEnd isLineBreak (buffer.rawText line) := by
  cases hentry : buffer.lines[line]? with
  | none =>
      have hstart : buffer.lineStart? line = none := by
        simpa [lineStart?, lineStarts, length_startsFrom] using hentry
      simp [lineText, hentry, rawText, hstart, Text.trimEnd]
  | some entry =>
      have hcontent :=
        buffer.areEnded_lines.not_isLineBreak entry (List.mem_of_getElem? hentry)
      rw [buffer.lineText_eq hentry, buffer.rawText_eq hentry, Line.text,
        Text.trimEnd_append hcontent fun char hchar => Line.isLineBreak_of_mem_ending hchar]

theorem map_lineText_range :
    (List.range buffer.lineCount).map buffer.lineText = buffer.lines.map Line.content := by
  apply List.ext_getElem
  · simp [lineCount]
  · intro line hline hlines
    simp only [List.length_map] at hlines
    rw [List.getElem_map, List.getElem_map, List.getElem_range,
      buffer.lineText_eq (List.getElem?_eq_getElem hlines)]

theorem mem_boundaries_of_mem_lineStarts {start : Nat} (hstart : start ∈ lineStarts buffer.lines) :
    start ∈ Text.boundaries buffer.text := by
  obtain ⟨line, hget⟩ := List.mem_iff_getElem?.mp hstart
  have hline : line < buffer.lines.length := by
    simpa [lineStarts, length_startsFrom] using (List.getElem?_eq_some_iff.mp hget).1
  rw [lineStarts, startsFrom_getElem? 0 _ _ hline, Nat.zero_add] at hget
  rw [← Option.some.inj hget, Text.mem_boundaries]
  refine ⟨_, ?_, rfl⟩
  rw [← buffer.flatMap_text_lines]
  exact ⟨(buffer.lines.drop line).flatMap Line.text, by
    rw [← List.flatMap_append, List.take_append_drop]⟩

/-- The starts of the lines begin with zero, increase and cut no character.  From one start to the
next stand the text of the line, which has no character that ends lines, and one terminator, and
behind the last start the text of the last line; in their order these spell the whole text. -/
theorem lines_partition_text :
    (buffer.lineStart? 0 = some 0 ∧ (lineStarts buffer.lines).Pairwise (· < ·) ∧
      ∀ start ∈ lineStarts buffer.lines,
        start ∈ Text.boundaries buffer.text ∧ start ≤ Text.byteSize buffer.text) ∧
    (∀ line, buffer.lineText line = Text.trimEnd isLineBreak (buffer.rawText line) ∧
      ∀ char ∈ buffer.lineText line, ¬ isLineBreak char) ∧
    ∃ terminators : List Terminator,
      terminators.length = terminatorCount buffer.text ∧
      buffer.lineCount = terminators.length + 1 ∧
      (∀ line, ∀ terminator ∈ terminators[line]?,
        buffer.rawText line = buffer.lineText line ++ terminator.text ∧
          (terminator = .carriageReturn → (buffer.rawText (line + 1)).head? ≠ some '\n')) ∧
      buffer.rawText terminators.length = buffer.lineText terminators.length ∧
      (List.zipWith (fun content terminator => content ++ terminator.text)
          ((List.range buffer.lineCount).map buffer.lineText) terminators).flatten ++
        buffer.lineText terminators.length = buffer.text := by
  have hended := buffer.areEnded_lines
  have hlength := hended.length_eq
  have hcount : buffer.lines.length = terminatorCount buffer.text + 1 := by
    rw [buffer.lines_eq, length_linesOf]
  obtain ⟨content, hlast⟩ := hended.getElem?_last
  refine ⟨⟨?_, hended.pairwise_startsFrom 0, ?_⟩, ?_,
    buffer.lines.filterMap Line.terminator, by omega, hlength, ?_, ?_, ?_⟩
  · obtain ⟨first, rest, hlines⟩ := List.exists_cons_of_ne_nil buffer.lines_ne_nil
    rw [← List.nil_append (first :: rest)] at hlines
    exact buffer.lineStart?_length hlines
  · intro start hstart
    have hboundary := buffer.mem_boundaries_of_mem_lineStarts hstart
    obtain ⟨front, hfront, rfl⟩ := Text.mem_boundaries.mp hboundary
    exact ⟨hboundary, Text.byteSize_le_of_prefix hfront⟩
  · intro line
    exact ⟨buffer.lineText_eq_trimEnd line, fun char => buffer.not_isLineBreak_of_mem_lineText⟩
  · intro line terminator hterminator
    obtain ⟨content, next, hline, hnext⟩ := hended.getElem?_of_terminator hterminator
    rw [buffer.rawText_eq hline, buffer.lineText_eq hline, buffer.rawText_eq hnext]
    refine ⟨rfl, ?_⟩
    rintro rfl
    exact hended.head?_text_ne hline rfl hnext
  · rw [buffer.rawText_eq hlast, buffer.lineText_eq hlast, Line.text, Option.map_none,
      Option.getD_none, List.append_nil]
  · have hspelled := hended.flatten_zipWith
    rw [hlast, buffer.flatMap_text_lines] at hspelled
    rw [buffer.lineText_eq hlast, ← hspelled, ← buffer.map_lineText_range]
    rfl

theorem lines_partition_text_returns :
    let buffer := ofFile ⟨"a.ts", "é\r\r\n\nb"⟩
    5 ∈ lineStarts buffer.lines ∧ 5 ∈ Text.boundaries buffer.text ∧
      ∃ terminators : List Terminator, terminators.length = 3 ∧
        ∃ terminator ∈ terminators[1]?,
          buffer.rawText 1 = buffer.lineText 1 ++ terminator.text := by
  intro buffer
  have hstart : 5 ∈ lineStarts buffer.lines := by decide
  obtain ⟨⟨-, -, hstarts⟩, -, terminators, hcount, -, hraw, -⟩ := buffer.lines_partition_text
  have hlength : terminators.length = 3 := hcount.trans (by decide)
  have hget : terminators[1]? = some terminators[1] := List.getElem?_eq_getElem (by omega)
  exact ⟨hstart, (hstarts 5 hstart).1, terminators, hlength, terminators[1], hget,
    (hraw 1 _ hget).1⟩

end Buffer

end Source

end MismatchReport
