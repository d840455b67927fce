import MismatchReport.Style.Line

/-!
# Stylers

How a run of text is wrapped for one style, and how styled lines are painted with that: plainly,
as tags, or as the codes of a terminal.
-/

namespace MismatchReport

structure Styler where
  wrap : Style → Text → Text

namespace Styler

def paintOrder : List Style := [.squiggle, .underline, .bold, .muted, .dim, .gutter]

theorem mem_paintOrder (style : Style) : style ∈ paintOrder := by
  cases style <;> decide

def paint (styler : Styler) (text : Text) (emphasis : Emphasis) : Text :=
  if text.isEmpty then []
  else paintOrder.foldl
    (fun painted style => if emphasis.has style then styler.wrap style painted else painted) text

def renderLine (styler : Styler) (line : StyledLine) : Text :=
  line.segments.flatMap fun segment => styler.paint segment.text segment.emphasis

def renderLines (styler : Styler) (lines : List StyledLine) : Text :=
  Text.joinLines (lines.map styler.renderLine)

def plain : Styler := ⟨fun _ text => text⟩

theorem paint_plain (text : Text) (emphasis : Emphasis) : plain.paint text emphasis = text := by
  cases text <;> simp [paint, plain, paintOrder]

def tagName : Style → Text
  | .bold => "b"
  | .underline => "u"
  | .dim => "dim"
  | .muted => "muted"
  | .gutter => "gutter"
  | .squiggle => "mark"

def openTag (style : Style) : Text := '<' :: tagName style ++ ['>']

def closeTag (style : Style) : Text := '<' :: '/' :: tagName style ++ ['>']

def tag : Styler := ⟨fun style text => openTag style ++ text ++ closeTag style⟩

def code : Style → Nat
  | .bold => 1
  | .underline => 4
  | .dim => 90
  | .muted => 2
  | .gutter => 7
  | .squiggle => 91

def escapeSequence (code : Nat) : Text := '\x1b' :: '[' :: Nat.toDigits 10 code ++ ['m']

/-- A reset clears the outer styles too, so each reset is followed by a new start of the style. -/
def restartAfterResets (start : Text) : Text → Text
  | '\x1b' :: '[' :: '0' :: 'm' :: rest =>
      escapeSequence 0 ++ start ++ restartAfterResets start rest
  | char :: rest => char :: restartAfterResets start rest
  | [] => []

def terminal : Styler where
  wrap style text :=
    let start := escapeSequence (code style)
    start ++ restartAfterResets start text ++ escapeSequence 0

def forTerminal (colors : Bool) : Styler := if colors then terminal else plain

example : terminal.paint "x" .fault = "\x1b[1m\x1b[4mx\x1b[0m\x1b[1m\x1b[0m" := by decide

end Styler

end MismatchReport
