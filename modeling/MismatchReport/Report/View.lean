import MismatchReport.Chain.Route
import MismatchReport.Diagnostic
import MismatchReport.Label
import MismatchReport.Tree.Builder

/-!
# Views of a failed assignment

What the comparison of a diagnostic shows: the two types as trees, their labels, and the route to
the member at fault.
-/

namespace MismatchReport

structure View where
  location : Option Source.Span
  code : UInt32
  sourceTree : Tree
  targetTree : Tree
  sourceLabel : Text
  targetLabel : Text
  route : Route
  deriving Repr

variable {τ : Type} [DecidableEq τ]

def titleOf (checker : Checker τ) (type : τ) : Text :=
  (Label.ofType? checker type).getD (Text.collapse (checker.print type))

/-- A view needs an assignment error whose two types can be written as expressions. -/
def View.build? (checker : Checker τ) (diagnostic : Diagnostic) (related : RelatedTypes τ) :
    Option View := do
  guard (diagnostic.code = Template.typeNotAssignable.code)
  let sourceTree ← TreeBuilder.buildFresh checker related.source related.sourceStack
  let targetTree ← TreeBuilder.buildFresh checker related.target related.targetStack
  return {
    location := diagnostic.location?
    code := diagnostic.code
    sourceTree
    targetTree
    sourceLabel := titleOf checker related.source
    targetLabel := titleOf checker related.target
    route := diagnostic.message.route diagnostic.code }

end MismatchReport
