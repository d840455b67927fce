import MismatchReport.Text.Basic

/-!
# Message chains

A diagnostic explains itself in a sentence with nested elaborations.  A node may carry a tagged
reason, so that nobody has to recover its meaning from the sentence.
-/

namespace MismatchReport

inductive Reason where
  | propertyIncompatible (name : Text)
  | parameterIncompatible (name : Text)
  | returnIncompatible
  deriving DecidableEq, Repr

structure MessageChain where
  text : Text
  reason : Option Reason := none
  children : List MessageChain := []
  deriving Repr

namespace MessageChain

mutual

def flattenAt (newLine : Text) (depth : Nat) : MessageChain → Text
  | ⟨text, _, children⟩ => text ++ flattenBelow newLine (depth + 1) children

def flattenBelow (newLine : Text) (depth : Nat) : List MessageChain → Text
  | [] => []
  | child :: rest =>
      newLine ++ Text.spaces (2 * depth) ++ flattenAt newLine depth child ++
        flattenBelow newLine depth rest

end

def flatten (newLine : Text) (chain : MessageChain) : Text := flattenAt newLine 0 chain

def spine : MessageChain → List MessageChain
  | ⟨_, _, []⟩ => []
  | ⟨_, _, child :: _⟩ => child :: spine child

theorem spine_eq_head (chain : MessageChain) :
    chain.spine = (chain.children.head?.map fun child => child :: child.spine).getD [] := by
  cases chain with
  | mk text reason children => cases children <;> rfl

end MessageChain

end MismatchReport
