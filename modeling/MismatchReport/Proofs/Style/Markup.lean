import MismatchReport.Proofs.Style.Canonical
import MismatchReport.Style.Styler

/-!
# Reading markup

A line that is painted with tags shows its characters between them.  As long as no character opens
a tag itself, the emphasis of a character is the set of the tags around it, and the markup gives
the line back.
-/

namespace MismatchReport

def Emphasis.ofStyles (styles : List Style) : Emphasis where
  bold := styles.contains .bold
  underline := styles.contains .underline
  dim := styles.contains .dim
  muted := styles.contains .muted
  gutter := styles.contains .gutter
  squiggle := styles.contains .squiggle

theorem Emphasis.has_ofStyles (styles : List Style) (style : Style) :
    (ofStyles styles).has style = styles.contains style := by
  cases style <;> rfl

theorem Emphasis.ofStyles_filter_has (emphasis : Emphasis) :
    ofStyles (Styler.paintOrder.filter emphasis.has) = emphasis := by
  refine ext_has fun style => ?_
  rw [has_ofStyles, List.contains_eq_mem, Bool.eq_iff_iff, decide_eq_true_iff, List.mem_filter]
  exact and_iff_right (Styler.mem_paintOrder style)

namespace Markup

open StyledLine (Cell)

def styleOf? (name : Text) : Option Style :=
  Styler.paintOrder.find? fun style => Styler.tagName style == name

def turn (styles : List Style) : Text → List Style
  | '/' :: _ => styles.tail
  | name => (styleOf? name).toList ++ styles

/-- The characters of markup, each with the styles of the tags around it.  Within a tag, `name?` is
what was read of its name. -/
def readFrom (styles : List Style) (name? : Option Text) : Text → List Cell
  | [] => []
  | char :: rest =>
      match name? with
      | none =>
          if char = '<' then readFrom styles (some []) rest
          else (char, Emphasis.ofStyles styles) :: readFrom styles none rest
      | some name =>
          if char = '>' then readFrom (turn styles name) none rest
          else readFrom styles (some (name ++ [char])) rest

def read (markup : Text) : List Cell := readFrom [] none markup

example : read "<b>a<u>></u></b>/" =
    [('a', { bold := true }), ('>', .fault), ('/', .plain)] := by decide

theorem readFrom_openTag (style : Style) (styles : List Style) (rest : Text) :
    readFrom styles none (Styler.openTag style ++ rest) = readFrom (style :: styles) none rest := by
  cases style <;> rfl

theorem readFrom_closeTag (style : Style) (styles : List Style) (rest : Text) :
    readFrom styles none (Styler.closeTag style ++ rest) = readFrom styles.tail none rest := by
  cases style <;> rfl

theorem readFrom_text {text : Text} (htext : '<' ∉ text) (styles : List Style) (rest : Text) :
    readFrom styles none (text ++ rest) =
      text.map (·, Emphasis.ofStyles styles) ++ readFrom styles none rest := by
  induction text with
  | nil => rfl
  | cons char text ih =>
      obtain ⟨hchar, htext⟩ : char ≠ '<' ∧ '<' ∉ text := by simpa [eq_comm] using htext
      rw [List.cons_append, readFrom, if_neg hchar, ih htext]
      rfl

def Reads (markup : Text) (cells : List Style → List Cell) : Prop :=
  ∀ styles rest,
    readFrom styles none (markup ++ rest) = cells styles ++ readFrom styles none rest

theorem Reads.wrap {markup : Text} {cells : List Style → List Cell} (hreads : Reads markup cells)
    (style : Style) :
    Reads (Styler.tag.wrap style markup) fun styles => cells (style :: styles) := by
  intro styles rest
  have hopen := readFrom_openTag style styles (markup ++ (Styler.closeTag style ++ rest))
  have hclose := readFrom_closeTag style (style :: styles) rest
  rw [Styler.tag, List.append_assoc, List.append_assoc, hopen, hreads, hclose]
  rfl

theorem reads_foldl_wrap {text markup : Text} (emphasis : Emphasis) (order inner : List Style)
    (hreads : Reads markup fun styles => text.map (·, Emphasis.ofStyles (inner ++ styles))) :
    Reads (order.foldl
        (fun painted style =>
          if emphasis.has style then Styler.tag.wrap style painted else painted) markup)
      fun styles =>
        text.map (·, Emphasis.ofStyles (inner ++ order.filter emphasis.has ++ styles)) := by
  -- What is wrapped first is innermost, so the styles behind `inner` come in the order of the fold.
  induction order generalizing inner markup with
  | nil => simpa using hreads
  | cons style order ih =>
      rw [List.foldl_cons]
      by_cases hstyle : emphasis.has style
      · have hwrap := ih (inner ++ [style]) (by simpa using hreads.wrap style)
        simpa [hstyle] using hwrap
      · simpa [hstyle] using ih inner hreads

theorem readFrom_paint {text : Text} (htext : '<' ∉ text) (emphasis : Emphasis) (rest : Text) :
    readFrom [] none (Styler.tag.paint text emphasis ++ rest) =
      text.map (·, emphasis) ++ readFrom [] none rest := by
  rw [Styler.paint]
  split
  · rename_i hempty
    rw [List.isEmpty_iff.mp hempty]
    rfl
  · have hpaint := reads_foldl_wrap emphasis Styler.paintOrder [] (readFrom_text htext) [] rest
    simpa [Emphasis.ofStyles_filter_has] using hpaint

theorem read_renderLine {line : StyledLine} (hline : '<' ∉ line.plainText) :
    read (Styler.tag.renderLine line) = line.cells := by
  obtain ⟨segments⟩ := line
  rw [Styler.renderLine, StyledLine.cells]
  induction segments with
  | nil => rfl
  | cons segment segments ih =>
      obtain ⟨hsegment, hsegments⟩ : '<' ∉ segment.text ∧ '<' ∉ segments.flatMap Segment.text := by
        simpa [StyledLine.plainText] using hline
      rw [List.flatMap_cons, List.flatMap_cons, read, readFrom_paint hsegment, ← read,
        ih hsegments]

end Markup

namespace StyledLine.Construction

/-- Lines that are put together from text without the start of a tag have the same markup only if
they have the same segments, and the emphasis of every character can be read back. -/
theorem renderLine_tag_eq_iff {construction other : Construction}
    (hline : '<' ∉ construction.line.plainText) (hother : '<' ∉ other.line.plainText) :
    (Styler.tag.renderLine construction.line = Styler.tag.renderLine other.line ↔
      construction.line.segments = other.line.segments) ∧
      Markup.read (Styler.tag.renderLine construction.line) = construction.line.cells := by
  have hread := Markup.read_renderLine hline
  refine ⟨⟨fun hmarkup => ?_, fun hsegments => ?_⟩, hread⟩
  · rw [hmarkup, Markup.read_renderLine hother] at hread
    rw [line_eq_ofCells, line_eq_ofCells, ← cells_line construction, ← cells_line other, hread]
  · rw [Styler.renderLine, Styler.renderLine, hsegments]

def samplePush : Construction := .push (.styled "a" .fault) "> /b" .plain

def sampleAppend : Construction :=
  .append (.emphasize (.styled "a" { bold := true }) { underline := true })
    (.append (.plain "> ") (.plain "/b"))

theorem renderLine_tag_eq_iff_sample :
    '<' ∉ samplePush.line.plainText ∧ '<' ∉ sampleAppend.line.plainText ∧
      Styler.tag.renderLine samplePush.line = "<b><u>a</u></b>> /b" ∧
      samplePush.line.segments = sampleAppend.line.segments ∧
      Markup.read "<b><u>a</u></b>> /b" = samplePush.line.cells := by
  have hpush : '<' ∉ samplePush.line.plainText := by decide
  have happend : '<' ∉ sampleAppend.line.plainText := by decide
  obtain ⟨hiff, hread⟩ := renderLine_tag_eq_iff hpush happend
  exact ⟨hpush, happend, rfl, hiff.mp rfl, hread⟩

end StyledLine.Construction

end MismatchReport
