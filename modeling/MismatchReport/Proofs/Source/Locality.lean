import MismatchReport.Proofs.Source.Indentation

/-!
# Excerpts within a longer text

Between texts that end with their lines, a text has the lines that it has alone.  An excerpt looks
at nothing but the lines of its span, so it stays the same there.
-/

namespace MismatchReport.Source

def endsLine (text : Text) : Bool := text.getLast?.any isLineBreak

/-- Whether the two texts meet between a carriage return and its line feed. -/
def splitsReturn (front rest : Text) : Bool :=
  front.getLast? == some '\r' && rest.head? == some '\n'

variable {front text rest : Text} {char : Char}

theorem ne_nil_of_endsLine (htext : endsLine text) : text ≠ [] := by
  rintro rfl
  cases htext

theorem eq_nil_or_endsLine_of_cons (hfront : endsLine (char :: front)) :
    front = [] ∨ endsLine front := by
  cases front with
  | nil => exact .inl rfl
  | cons next front => exact .inr hfront

theorem splitsReturn_cons (hsplits : splitsReturn front rest) :
    splitsReturn (char :: front) rest := by
  cases front with
  | nil => simp [splitsReturn] at hsplits
  | cons next front => exact hsplits

theorem not_splitsReturn_nil (front : Text) : ¬ splitsReturn front [] := by
  simp [splitsReturn]

theorem splitsReturn_append (htext : text ≠ []) :
    splitsReturn front (text ++ rest) = splitsReturn front text := by
  obtain ⟨first, text, rfl⟩ := List.exists_cons_of_ne_nil htext
  rfl

/-! ## Lines of joined texts -/

theorem linesOf_cons_of_terminator {char : Char} {rest : Text} {terminator : Terminator}
    (hpair : ∀ below, char = '\r' → rest = '\n' :: below → False)
    (hchar : Terminator.ofChar? char = some terminator) :
    linesOf (char :: rest) = ⟨[], some terminator⟩ :: linesOf rest := by
  rw [linesOf, hchar]
  exact hpair

theorem linesOf_cons_of_none {char : Char} (hchar : Terminator.ofChar? char = none) (rest : Text) :
    linesOf (char :: rest) =
      (linesOf rest).modifyHead fun line => { line with content := char :: line.content } := by
  rw [linesOf, hchar]
  rintro below rfl
  exact absurd hchar (by decide)

theorem exists_linesOf_append (hfront : front = [] ∨ endsLine front) :
    ∃ before, (before = [] → front = []) ∧
      ∀ rest, ¬ splitsReturn front rest → linesOf (front ++ rest) = before ++ linesOf rest := by
  fun_induction linesOf front with
  | case1 => exact ⟨[], fun _ => rfl, fun rest _ => rfl⟩
  | case2 front ih =>
      have hends : endsLine ('\n' :: front) := hfront.resolve_left (List.cons_ne_nil _ _)
      obtain ⟨before, -, hlines⟩ := ih (eq_nil_or_endsLine_of_cons hends)
      refine ⟨⟨[], some .carriageReturnLineFeed⟩ :: before, by simp, fun rest hseam => ?_⟩
      rw [List.cons_append, List.cons_append, linesOf,
        hlines rest (mt (splitsReturn_cons ∘ splitsReturn_cons) hseam), List.cons_append]
  | case3 char front hpair terminator hchar ih =>
      have hends : endsLine (char :: front) := hfront.resolve_left (List.cons_ne_nil _ _)
      obtain ⟨before, -, hlines⟩ := ih (eq_nil_or_endsLine_of_cons hends)
      refine ⟨⟨[], some terminator⟩ :: before, by simp, fun rest hseam => ?_⟩
      rw [List.cons_append, linesOf_cons_of_terminator ?_ hchar,
        hlines rest (mt splitsReturn_cons hseam), List.cons_append]
      rintro below rfl hfeed
      cases front with
      | nil =>
          rw [List.nil_append] at hfeed
          exact hseam (by simp [splitsReturn, hfeed])
      | cons next front => exact hpair front rfl (by rw [(List.cons.inj hfeed).1])
  | case4 char front hpair hchar ih =>
      have hends : endsLine (char :: front) := hfront.resolve_left (List.cons_ne_nil _ _)
      have hne : front ≠ [] := by
        rintro rfl
        exact ofChar?_eq_none_iff.mp hchar hends
      obtain ⟨before, hbefore, hlines⟩ := ih (eq_nil_or_endsLine_of_cons hends)
      obtain ⟨line, below, rfl⟩ := List.exists_cons_of_ne_nil (mt hbefore hne)
      refine ⟨{ line with content := char :: line.content } :: below, by simp,
        fun rest hseam => ?_⟩
      rw [List.cons_append, linesOf_cons_of_none hchar, hlines rest (mt splitsReturn_cons hseam)]
      rfl

theorem flatMap_text_of_linesOf_append {before : List Line}
    (hlines : ∀ rest, ¬ splitsReturn front rest →
      linesOf (front ++ rest) = before ++ linesOf rest) :
    before.flatMap Line.text = front := by
  have hspelled := flatMap_text_linesOf (front ++ [])
  rw [hlines [] (not_splitsReturn_nil front), List.flatMap_append, List.append_nil] at hspelled
  simpa [linesOf, Line.text] using hspelled

def Position.below (count : Nat) (position : Position) : Position :=
  { position with line := count + position.line }

theorem line_below (count : Nat) (position : Position) :
    (position.below count).line = count + position.line := rfl

theorem below_zero (position : Position) : position.below 0 = position := by
  rw [Position.below, Nat.zero_add]

theorem locate_append_of_le {lines : List Line} (hlines : lines ≠ []) (before : List Line)
    (offset : Nat) :
    locate (Text.byteSize (before.flatMap Line.text) + offset) (before ++ lines) =
      (locate offset lines).below before.length := by
  induction before with
  | nil => simp [Position.below]
  | cons line before ih =>
      have hsize := byteSize_flatMap_text_cons line before
      rw [List.cons_append, locate_cons_of_le (by omega) (by simp [hlines]), hsize, Nat.add_assoc,
        Nat.add_sub_cancel_left, ih]
      simp only [Position.below, List.length_cons, Position.mk.injEq, and_true]
      omega

theorem locate_append_of_lt {before : List Line} {offset : Nat}
    (hoffset : offset < Text.byteSize (before.flatMap Line.text)) (lines : List Line) :
    locate offset (before ++ lines) = locate offset before := by
  induction before generalizing offset with
  | nil => simp at hoffset
  | cons line before ih =>
      have hsize := byteSize_flatMap_text_cons line before
      rw [List.cons_append]
      by_cases hlt : offset < line.byteSize
      · rw [locate_cons_of_lt hlt, locate_cons_of_lt hlt]
      · have hle := Nat.le_of_not_lt hlt
        have hne : before ≠ [] := by
          rintro rfl
          rw [List.flatMap_nil, Text.byteSize_nil] at hsize
          omega
        rw [locate_cons_of_le hle (by simp [hne]), locate_cons_of_le hle hne, ih (by omega)]

theorem exists_linesOf_eq_append (htext : endsLine text) (hseam : ¬ splitsReturn text rest) :
    ∃ lines ≠ [], lines.flatMap Line.text = text ∧ linesOf text = lines ++ linesOf [] ∧
      linesOf (text ++ rest) = lines ++ linesOf rest := by
  obtain ⟨lines, hempty, hlines⟩ := exists_linesOf_append (.inr htext)
  have halone := hlines [] (not_splitsReturn_nil text)
  rw [List.append_nil] at halone
  exact ⟨lines, mt hempty (ne_nil_of_endsLine htext), flatMap_text_of_linesOf_append hlines, halone,
    hlines rest hseam⟩

theorem locate_linesOf_append (htext : endsLine text) (hseam : ¬ splitsReturn text rest)
    {offset : Nat} (hoffset : offset < Text.byteSize text) :
    locate offset (linesOf (text ++ rest)) = locate offset (linesOf text) := by
  obtain ⟨lines, -, hspelled, halone, hjoined⟩ := exists_linesOf_eq_append htext hseam
  rw [← hspelled] at hoffset
  rw [hjoined, halone, locate_append_of_lt hoffset, locate_append_of_lt hoffset]

theorem getElem?_linesOf_append (htext : endsLine text) (hseam : ¬ splitsReturn text rest)
    {offset line : Nat} (hoffset : offset < Text.byteSize text)
    (hline : line ≤ (locate offset (linesOf text)).line) :
    (linesOf (text ++ rest))[line]? = (linesOf text)[line]? := by
  obtain ⟨lines, hne, hspelled, halone, hjoined⟩ := exists_linesOf_eq_append htext hseam
  rw [← hspelled] at hoffset
  rw [halone, locate_append_of_lt hoffset] at hline
  have hlt := Nat.lt_of_le_of_lt hline (line_locate_lt offset hne)
  rw [hjoined, halone, List.getElem?_append_left hlt, List.getElem?_append_left hlt]

/-! ## Excerpts -/

theorem shownLines_add (count : Nat) {first last : Nat} (hle : first ≤ last) :
    shownLines (count + first) (count + last) = (shownLines first last).map (count + ·) := by
  rw [shownLines_eq, shownLines_eq, Nat.add_sub_add_left]
  split
  · rw [List.map_add_range']
  · simp only [List.map_cons, List.map_nil]
    rw [Nat.add_assoc, Nat.add_sub_assoc (by omega)]

theorem markLine_below (count : Nat) (first last : Position) (indent line : Nat)
    (content : Text) :
    markLine (first.below count) (last.below count) indent (count + line) content =
      markLine first last indent line content := by
  simp only [markLine, Position.below, Nat.add_left_cancel_iff]

theorem excerptOf_eq_of_below {whole part : Buffer} {span moved : Span} (count : Nat)
    (hfirst : whole.position moved.start.toNat = (part.position span.start.toNat).below count)
    (hlast : whole.position moved.stop = (part.position span.stop).below count)
    (htexts : ∀ line ≤ (part.position span.stop).line,
      whole.lineText (count + line) = part.lineText line) :
    excerptOf whole moved = excerptOf part span := by
  have hle : (part.position span.start.toNat).line ≤ (part.position span.stop).line := by
    rw [part.line_position, part.line_position]
    exact part.lineAt_mono span.start_le_stop
  have hline : ∀ line ∈ shownLines (part.position span.start.toNat).line
      (part.position span.stop).line, whole.lineText (count + line) = part.lineText line :=
    fun line hline => htexts line (mem_shownLines hle hline).2
  simp only [excerptOf, hfirst, hlast, line_below, shownLines_add count hle, List.map_map,
    isShortened, Nat.add_sub_add_left, Function.comp_def, List.map_congr_left hline,
    markLine_below, Excerpt.mk.injEq, and_true]
  refine List.map_congr_left fun line hmem => ?_
  rw [hline line hmem]

theorem excerptOf_append_left {whole part : Buffer} {span moved : Span}
    (hwhole : whole.text = front ++ part.text) (hfront : front = [] ∨ endsLine front)
    (hseam : ¬ splitsReturn front part.text)
    (hstart : moved.start.toNat = Text.byteSize front + span.start.toNat)
    (hstop : moved.stop = Text.byteSize front + span.stop) :
    excerptOf whole moved = excerptOf part span := by
  obtain ⟨before, -, hbefore⟩ := exists_linesOf_append hfront
  have hlines : whole.lines = before ++ part.lines := by
    rw [whole.lines_eq, part.lines_eq, hwhole, hbefore _ hseam]
  have hposition : ∀ offset,
      whole.position (Text.byteSize front + offset) =
        (part.position offset).below before.length := by
    intro offset
    rw [Buffer.position, Buffer.position, hlines, ← flatMap_text_of_linesOf_append hbefore,
      locate_append_of_le part.lines_ne_nil]
  refine excerptOf_eq_of_below before.length ?_ ?_ fun line _ => ?_
  · rw [hstart, hposition]
  · rw [hstop, hposition]
  · rw [Buffer.lineText, Buffer.lineText, hlines, List.getElem?_append_right (by omega),
      Nat.add_sub_cancel_left]

theorem excerptOf_append_right {whole part : Buffer} {span : Span}
    (hwhole : whole.text = part.text ++ rest) (hpart : endsLine part.text)
    (hseam : ¬ splitsReturn part.text rest) (hstop : span.stop < Text.byteSize part.text) :
    excerptOf whole span = excerptOf part span := by
  have hposition : ∀ offset ≤ span.stop,
      whole.position offset = (part.position offset).below 0 := by
    intro offset hoffset
    rw [Buffer.position, Buffer.position, whole.lines_eq, part.lines_eq, hwhole,
      locate_linesOf_append hpart hseam (hoffset.trans_lt hstop), below_zero]
  refine excerptOf_eq_of_below 0 ?_ ?_ fun line hline => ?_
  · exact hposition _ span.start_le_stop
  · exact hposition _ (Nat.le_refl _)
  · rw [Buffer.position, part.lines_eq] at hline
    rw [Buffer.lineText, Buffer.lineText, Nat.zero_add, whole.lines_eq, part.lines_eq, hwhole,
      getElem?_linesOf_append hpart hseam hstop hline]

/-- An excerpt of a text is the same where the text stands between others, as long as the text and
the one before it end with their lines. -/
theorem renderSpan_append_append {whole part : Buffer} {front rest : Text} {span moved : Span}
    (hwhole : whole.text = front ++ part.text ++ rest)
    (hfront : front = [] ∨ endsLine front) (hpart : endsLine part.text ∨ rest = [])
    (hbefore : ¬ splitsReturn front part.text) (hbehind : ¬ splitsReturn part.text rest)
    (hstart : moved.start.toNat = Text.byteSize front + span.start.toNat)
    (hlength : moved.length = span.length)
    (hsize : Text.byteSize front + span.start.toNat + span.length.toNat < UInt32.size)
    (hwithin : rest ≠ [] → span.start.toNat + span.length.toNat < Text.byteSize part.text)
    (margin : Text) :
    renderSpan whole moved margin = renderSpan part span margin := by
  have hstop : span.stop = span.start.toNat + span.length.toNat := by
    simp only [Span.stop]
    omega
  have hmoved : moved.stop = Text.byteSize front + span.stop := by
    simp only [Span.stop, hstart, hlength]
    omega
  rw [renderSpan, renderSpan]
  congr 1
  rcases eq_or_ne rest [] with rfl | hrest
  · rw [List.append_nil] at hwhole
    exact excerptOf_append_left hwhole hfront hbefore hstart hmoved
  · have htext := hpart.resolve_right hrest
    let joined := Buffer.ofFile ⟨part.name, part.text ++ rest⟩
    have hseam : ¬ splitsReturn front joined.text := by
      rwa [← splitsReturn_append (ne_nil_of_endsLine htext)] at hbefore
    calc
      excerptOf whole moved = excerptOf joined span :=
        excerptOf_append_left (by rw [hwhole, List.append_assoc]; rfl) hfront hseam hstart hmoved
      _ = excerptOf part span :=
        excerptOf_append_right rfl htext hbehind (hstop ▸ hwithin hrest)

theorem renderSpan_append_append_block :
    let whole := Buffer.ofFile ⟨"a.ts", "// é\r\n\ta = 1;\n\t\tb();\r\tc;"⟩
    let part := Buffer.ofFile ⟨"part.ts", "\ta = 1;\n\t\tb();\r"⟩
    let front : Text := "// é\r\n"
    let rest : Text := "\tc;"
    let span : Span := ⟨2, 9⟩
    let moved : Span := ⟨9, 9⟩
    whole.text = front ++ part.text ++ rest ∧ endsLine front ∧ endsLine part.text ∧
      ¬ splitsReturn front part.text ∧ ¬ splitsReturn part.text rest ∧
      moved.start.toNat = Text.byteSize front + span.start.toNat ∧
      span.start.toNat + span.length.toNat < Text.byteSize part.text ∧
      renderSpan whole moved "  " = renderSpan part span "  " := by
  intro whole part front rest span moved
  have hwhole : whole.text = front ++ part.text ++ rest := by decide
  have hfront : endsLine front := by decide
  have hpart : endsLine part.text := by decide
  have hbefore : ¬ splitsReturn front part.text := by decide
  have hbehind : ¬ splitsReturn part.text rest := by decide
  have hstart : moved.start.toNat = Text.byteSize front + span.start.toNat := by decide
  have hsize : Text.byteSize front + span.start.toNat + span.length.toNat < UInt32.size := by decide
  have hwithin : span.start.toNat + span.length.toNat < Text.byteSize part.text := by decide
  exact ⟨hwhole, hfront, hpart, hbefore, hbehind, hstart, hwithin,
    renderSpan_append_append hwhole (.inr hfront) (.inl hpart) hbefore hbehind hstart rfl hsize
      (fun _ => hwithin) "  "⟩

end MismatchReport.Source
