import MismatchReport.Text.Basic

/-!
# Type checkers

What the reports ask a type checker about the types that it knows: how a type prints, the members
of an object type, where its symbol is declared, and what it is composed of.
-/

namespace MismatchReport

structure Param (α : Type) where
  name : Text
  type : Option α := none
  deriving DecidableEq, Repr

/-- A member of an object type over any notion of type: identities of a checker or whole trees. -/
inductive Member (α : Type) where
  | property (name : Text) (type : α)
  | method (name : Text) (params : List (Param α)) (result : α)
  deriving DecidableEq, Repr

namespace Member

variable {α : Type}

def name : Member α → Text
  | .property name _ => name
  | .method name _ _ => name

def types : Member α → List α
  | .property _ type => [type]
  | .method _ params result => params.filterMap Param.type ++ [result]

end Member

section Traversal

variable {α β : Type} {m : Type → Type} [Monad m]

def Param.traverse (f : α → m β) (param : Param α) : m (Param β) :=
  match param.type with
  | none => pure { name := param.name }
  | some type => do return { name := param.name, type := some (← f type) }

def Member.traverse (f : α → m β) : Member α → m (Member β)
  | .property name type => do return .property name (← f type)
  | .method name params result => do
      let params ← params.mapM (Param.traverse f)
      return .method name params (← f result)

end Traversal

inductive ExpressionKind where
  | typeLiteral
  | other
  deriving DecidableEq, Repr

/-- A type as one expression, whose text may span several lines. -/
structure Projection where
  kind : ExpressionKind
  text : Text
  deriving DecidableEq, Repr

inductive CompositeKind where
  | union
  | intersection
  deriving DecidableEq, Repr

def CompositeKind.separator : CompositeKind → Text
  | union => " | "
  | intersection => " & "

inductive DeclarationKind where
  | unionType (members : List Text)
  | typeLiteral
  | other
  deriving DecidableEq, Repr

inductive DeclarationParent where
  | typeAlias (name : Text)
  | variableDeclaration (name : Text)
  | propertyAssignment (name : Text)
  | other
  deriving DecidableEq, Repr

structure Declaration where
  kind : DeclarationKind
  parent : Option DeclarationParent := none
  deriving DecidableEq, Repr

structure Checker (τ : Type) where
  project? : τ → Option Projection
  members : τ → List (Member τ)
  print : τ → Text
  declarations? : τ → Option (List Declaration)
  constituents? : τ → Option (CompositeKind × List τ)

/-- The two types of a failed assignment, each with the types that were being compared around
it. -/
structure RelatedTypes (τ : Type) where
  source : τ
  target : τ
  sourceStack : List τ := []
  targetStack : List τ := []
  deriving DecidableEq, Repr

namespace RelatedTypes

variable {τ : Type}

def types (related : RelatedTypes τ) : List τ :=
  [related.source, related.target] ++ related.sourceStack ++ related.targetStack

end RelatedTypes

end MismatchReport
