import MismatchReport.Expansion
import MismatchReport.Tree.Basic

/-!
# Building trees

Trees from the types of a checker, under one guard for all the trees that a builder makes.  A type
that the guard refuses, or that is no object, becomes a leaf.
-/

namespace MismatchReport.TreeBuilder

variable {τ : Type} [DecidableEq τ]

def nested (checker : Checker τ) (expand : τ → Projection → StateM (Guard τ) Tree) (type : τ) :
    StateM (Guard τ) Tree := do
  if (← get).isVisiting type then return .ofText (checker.print type)
  match checker.project? type with
  | none => return .ofText (checker.print type)
  | some projection => expand type projection

/-- The tree of a projected type.  `steps` bounds the recursion; the guard refuses a type before
they run out if they are more than the levels that it has left. -/
def expand (checker : Checker τ) : Nat → τ → Projection → StateM (Guard τ) Tree
  | _, _, ⟨.other, text⟩ => return .ofText text
  | 0, type, ⟨.typeLiteral, _⟩ => return .ofText (checker.print type)
  | steps + 1, type, ⟨.typeLiteral, _⟩ => do
      match ← Guard.enter type with
      | .entered =>
          let members ← (checker.members type).mapM
            (Member.traverse (nested checker (expand checker steps)))
          Guard.leave type
          return .object members
      | _ => return .ofText (checker.print type)

/-- The tree of a type, if it can be written as an expression.  The types of `expanding`, the root
aside, count as being under way. -/
def build (checker : Checker τ) (root : τ) (expanding : List τ) :
    StateM (Guard τ) (Option Tree) := do
  match checker.project? root with
  | none => return none
  | some projection =>
      (expanding.filter (· ≠ root)).forM Guard.mark
      let tree ← expand checker ((← get).maxDepth + 1) root projection
      Guard.clearMarks
      return some tree

def buildFresh (checker : Checker τ) (root : τ) (expanding : List τ) : Option Tree :=
  (build checker root expanding (Guard.ofMaxDepth Guard.defaultMaxDepth)).1

end MismatchReport.TreeBuilder
