import MismatchReport.Text.Decimal
import MismatchReport.Chain.Basic

/-!
# Message catalog

The sentences about incompatible types, with numbered places for their arguments.
-/

namespace MismatchReport

def placeholder (index : Nat) : Text := '\x7b' :: Text.ofNat index ++ ['\x7d']

/-- The arguments put in one after the other, each into all places of the text made so far. -/
def fillFrom (index : Nat) (text : Text) : List Text → Text
  | [] => text
  | argument :: rest =>
      fillFrom (index + 1) (Text.replaceAll (placeholder index) argument text) rest

def formatMessage (template : Text) (arguments : List Text) : Text :=
  fillFrom 0 template arguments

structure Template where
  code : UInt32
  text : Text
  deriving DecidableEq, Repr

namespace Template

def typesIncompatibleBetween : Template :=
  ⟨2200, "The types of '\x7b0\x7d' are incompatible between these types."⟩

def returnedTypesIncompatibleBetween : Template :=
  ⟨2201, "The types returned by '\x7b0\x7d' are incompatible between these types."⟩

def typeNotAssignable : Template :=
  ⟨2322, "Type '\x7b0\x7d' is not assignable to type '\x7b1\x7d'."⟩

def propertyTypesIncompatible : Template :=
  ⟨2326, "Types of property '\x7b0\x7d' are incompatible."⟩

def parameterTypesIncompatible : Template :=
  ⟨2328, "Types of parameters '\x7b0\x7d' and '\x7b1\x7d' are incompatible."⟩

def chain (template : Template) (arguments : List Text) : MessageChain :=
  { text := formatMessage template.text arguments }

end Template

example : formatMessage Template.parameterTypesIncompatible.text ["x", "y"] =
    "Types of parameters 'x' and 'y' are incompatible." := by decide

end MismatchReport
