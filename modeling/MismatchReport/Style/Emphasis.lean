/-!
# Emphasis

The styles that a run of output text can carry, and sets of them.
-/

namespace MismatchReport

inductive Style where
  | bold
  | underline
  | dim
  | muted
  | gutter
  | squiggle
  deriving DecidableEq, Repr

/-- A set of styles.  `dim` is for secondary text, `muted` for the siblings of a highlighted item,
`gutter` and `squiggle` for the marks of a source excerpt. -/
structure Emphasis where
  bold : Bool := false
  underline : Bool := false
  dim : Bool := false
  muted : Bool := false
  gutter : Bool := false
  squiggle : Bool := false
  deriving DecidableEq, Repr

namespace Emphasis

def plain : Emphasis := {}

def fault : Emphasis := { bold := true, underline := true }

def has (emphasis : Emphasis) : Style → Bool
  | .bold => emphasis.bold
  | .underline => emphasis.underline
  | .dim => emphasis.dim
  | .muted => emphasis.muted
  | .gutter => emphasis.gutter
  | .squiggle => emphasis.squiggle

protected def union (left right : Emphasis) : Emphasis where
  bold := left.bold || right.bold
  underline := left.underline || right.underline
  dim := left.dim || right.dim
  muted := left.muted || right.muted
  gutter := left.gutter || right.gutter
  squiggle := left.squiggle || right.squiggle

instance : Union Emphasis := ⟨Emphasis.union⟩

@[simp] theorem has_plain (style : Style) : plain.has style = false := by
  cases style <;> rfl

@[simp] theorem has_union (left right : Emphasis) (style : Style) :
    (left ∪ right).has style = (left.has style || right.has style) := by
  cases style <;> rfl

theorem ext_has {left right : Emphasis} (h : ∀ style, left.has style = right.has style) :
    left = right := by
  have bold := h .bold
  have underline := h .underline
  have dim := h .dim
  have muted := h .muted
  have gutter := h .gutter
  have squiggle := h .squiggle
  cases left
  cases right
  simp_all [has]

@[simp] theorem union_plain (emphasis : Emphasis) : emphasis ∪ plain = emphasis :=
  ext_has fun style => by simp

@[simp] theorem plain_union (emphasis : Emphasis) : plain ∪ emphasis = emphasis :=
  ext_has fun style => by simp

end Emphasis

end MismatchReport
