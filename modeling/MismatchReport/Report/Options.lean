import MismatchReport.Text.Decimal
import MismatchReport.Text.WhiteSpace

/-!
# Report options
-/

namespace MismatchReport

inductive ColorMode where
  | auto
  | always
  | never
  deriving DecidableEq, Repr

def ColorMode.usesColors (mode : ColorMode) (isTerminal noColor : Bool) : Bool :=
  match mode with
  | always => true
  | never => false
  | auto => isTerminal && !noColor

/-- The width is that of the headers, the indent the margin of excerpts and trees. -/
structure Options where
  width : Option Nat := none
  indent : Text := "  "
  color : ColorMode := .auto
  deriving DecidableEq, Repr

def defaultWidth : Nat := 80

/-- A width from the environment.  Zero and anything that is no size count as none. -/
def parseColumns (value : Option Text) : Option Nat :=
  (value.bind fun value => Text.readSize? (Text.trim value)).filter (0 < ·)

def Options.resolvedWidth (options : Options) (columns : Option Text) : Nat :=
  (options.width.or (parseColumns columns)).getD defaultWidth

end MismatchReport
