import MismatchReport.Source.Blank
import MismatchReport.Source.Buffer
import MismatchReport.Style.Line

/-!
# Source excerpts

The lines that a span touches, without their common indentation, each with the part that the span
covers.  A span over five or more lines shows its first two and its last two.  Every shown line
makes two rows of one width, the code behind a gutter and the marks below it.
-/

namespace MismatchReport.Source

def isShortened (first last : Nat) : Bool := decide (4 ≤ last - first)

def shownLines (first last : Nat) : List Nat :=
  if isShortened first last then [first, first + 1, last - 1, last]
  else List.range' first (last - first + 1)

def isBlankLine (line : Text) : Bool := line.all isBlank

/-- The least indentation of the lines that are not blank.  A blank line has no say in it. -/
def commonIndent (lines : List Text) : Nat :=
  (((lines.filter (!isBlankLine ·)).map leadingBlanks).min?).getD 0

def tabToSpace (char : Char) : Char := if char = '\t' then ' ' else char

def contentBehind (indent : Nat) (line : Text) : Text :=
  (Text.trimEnd isBlank (line.drop indent)).map tabToSpace

structure MarkedLine where
  content : Text
  start : Nat
  stop : Nat
  deriving DecidableEq, Repr

/-- The marks of one line of a span from `first` to `last`, moved with the content and kept
within it. -/
def markLine (first last : Position) (indent line : Nat) (content : Text) : MarkedLine :=
  let start := if line = first.line then first.character - indent else 0
  let stop := if line = last.line then last.character - indent else content.length
  let start := min start content.length
  ⟨content, start, max start (min stop content.length)⟩

structure Excerpt where
  lines : List MarkedLine
  shortened : Bool
  deriving DecidableEq, Repr

def excerptOf (buffer : Buffer) (span : Span) : Excerpt :=
  let first := buffer.position span.start.toNat
  let last := buffer.position span.stop
  let shown := shownLines first.line last.line
  let indent := commonIndent (shown.map buffer.lineText)
  { lines := shown.map fun line =>
      markLine first last indent line (contentBehind indent (buffer.lineText line))
    shortened := isShortened first.line last.line }

def mark : Char := '▔'

def codeRow (margin : Text) (line : MarkedLine) : StyledLine :=
  (((StyledLine.plain margin).pushPlain "|").pushPlain " ").pushPlain line.content

def markRow (margin : Text) (line : MarkedLine) : StyledLine :=
  ((((StyledLine.plain margin).pushPlain "  ").pushPlain (Text.spaces line.start)).push
    (List.replicate (line.stop - line.start) mark) { squiggle := true }).pushPlain
    (Text.spaces (line.content.length - line.stop))

def ellipsisRow (margin : Text) : StyledLine :=
  ((StyledLine.plain margin).push "..." { gutter := true }).pushPlain " "

def rowPair (margin : Text) (line : MarkedLine) : List StyledLine :=
  [codeRow margin line, markRow margin line]

/-- The rows of an excerpt.  The gap of a shortened one stands between its second and third
line. -/
def Excerpt.rows (margin : Text) (excerpt : Excerpt) : List StyledLine :=
  if excerpt.shortened then
    (excerpt.lines.take 2).flatMap (rowPair margin) ++
      ellipsisRow margin :: (excerpt.lines.drop 2).flatMap (rowPair margin)
  else excerpt.lines.flatMap (rowPair margin)

def renderSpan (buffer : Buffer) (span : Span) (margin : Text) : List StyledLine :=
  (excerptOf buffer span).rows margin

end MismatchReport.Source
