import MismatchReport.Checker
import MismatchReport.Expansion

/-!
# Labels

A short name for a type, from where its symbol is declared.  Unions and intersections without a
symbol are named by their members.
-/

namespace MismatchReport.Label

def unknown : Text := "[unknown]"

/-- The name that a declaration gives: the members of a union, the alias of a type literal, or the
variable or property that it belongs to. -/
def ofDeclaration? : Declaration → Option Text
  | ⟨.unionType members, _⟩ => some (Text.joinWith " | " members)
  | ⟨.typeLiteral, some (.typeAlias name)⟩ => some name
  | ⟨_, some (.variableDeclaration name)⟩ => some name
  | ⟨_, some (.propertyAssignment name)⟩ => some name
  | _ => none

def ofDeclarations (declarations : List Declaration) : Text :=
  (declarations.findSome? ofDeclaration?).getD unknown

variable {τ : Type} [DecidableEq τ]

/-- The label of a type under a guard.  `steps` bounds the recursion; the guard refuses a type
before they run out if they are more than the levels that it has left. -/
def resolve (checker : Checker τ) : Nat → τ → StateM (Guard τ) (Option Text)
  | steps, type =>
      match checker.declarations? type, checker.constituents? type, steps with
      | some declarations, _, _ => return some (ofDeclarations declarations)
      | none, none, _ => return none
      | none, some _, 0 => return some (checker.print type)
      | none, some (kind, members), steps + 1 => do
          match ← Guard.enter type with
          | .entered =>
              let labels ← members.mapM fun member => do
                return (← resolve checker steps member).getD (checker.print member)
              Guard.leave type
              return some (Text.joinWith kind.separator labels)
          | _ => return some (checker.print type)

def ofType? (checker : Checker τ) (type : τ) : Option Text :=
  (resolve checker (Guard.defaultMaxDepth + 1) type
    (Guard.ofMaxDepth Guard.defaultMaxDepth)).1

end MismatchReport.Label
