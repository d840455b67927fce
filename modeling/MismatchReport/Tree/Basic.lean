import MismatchReport.Checker
import MismatchReport.Text.WhiteSpace

/-!
# Type trees

The types of a comparison as they print: object types by their members, everything else as one
line of text.
-/

namespace MismatchReport

inductive Tree where
  | leaf (text : Text)
  | object (members : List (Member Tree))
  deriving Repr

namespace Tree

def ofText (text : Text) : Tree := .leaf (Text.collapse text)

end Tree

end MismatchReport
