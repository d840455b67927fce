import MismatchReport.Proofs.Style.Line
import MismatchReport.Proofs.Text.Joining
import MismatchReport.Tree.Layout

/-!
# The text of laid-out trees

A route changes the emphasis of the rows of a tree and nothing else: their text is that of a layout
that knows no routes.
-/

namespace MismatchReport

mutual

/-- The lines of a tree.  Members stand one level deeper than their braces. -/
def Tree.layoutAt (depth : Nat) : Tree → List Text
  | .leaf text => [text]
  | .object members =>
      "\x7b" :: (Member.layoutAt depth members ++ [indentation depth ++ "\x7d"])

def Member.layoutAt (depth : Nat) : List (Member Tree) → List Text
  | [] => []
  | .property name type :: rest =>
      (type.layoutAt (depth + 1)).modifyHead (indentation (depth + 1) ++ name ++ ": " ++ ·) ++
        Member.layoutAt depth rest
  | .method name params result :: rest =>
      (indentation (depth + 1) ++ (Member.method name params result).inline) ::
        Member.layoutAt depth rest

end

def Tree.layout (tree : Tree) : List Text := tree.layoutAt 0

theorem plainText_pushParam (step : Option (Step × Bool)) (line : StyledLine)
    (param : Param Tree) :
    (pushParam step line param).plainText = line.plainText ++ param.inline := by
  obtain ⟨name, type⟩ := param
  unfold pushParam
  split
  · split
    · cases type <;> simp [Param.inline]
    · simp
  · simp

theorem plainText_pushParams (step : Option (Step × Bool)) (line : StyledLine)
    (params : List (Param Tree)) :
    (pushParams step line params).plainText =
      line.plainText ++ Text.joinWith ", " (params.map Param.inline) := by
  cases params with
  | nil => simp [pushParams, Text.joinWith]
  | cons first rest =>
      rw [List.map_cons, Text.joinWith_cons, ← List.append_assoc, ← plainText_pushParam step,
        pushParams]
      -- The other parameters are pushed onto any line in the same way.
      generalize pushParam step line first = line
      induction rest generalizing line with
      | nil => simp
      | cons param rest ih =>
          rw [List.foldl_cons, ih, plainText_pushParam]
          simp

theorem plainText_methodRow (depth : Nat) (route : Route) (name : Text)
    (params : List (Param Tree)) (result : Tree) :
    (methodRow depth route name params result).plainText =
      indentation (depth + 1) ++ (Member.method name params result).inline := by
  unfold methodRow
  split <;> simp [plainText_pushParams, Member.inline, Param.inlineAll_eq_map]

theorem map_plainText_markFault (rows : List StyledLine) :
    (markFault rows).map StyledLine.plainText = rows.map StyledLine.plainText := by
  cases rows <;> simp [markFault, Function.comp_def]

theorem map_plainText_propertyRows (depth : Nat) (named : Bool) (name : Text)
    {typeRows : List StyledLine} (htype : typeRows ≠ []) :
    (propertyRows depth named name typeRows).map StyledLine.plainText =
      (typeRows.map StyledLine.plainText).modifyHead
        (indentation (depth + 1) ++ name ++ ": " ++ ·) := by
  cases typeRows with
  | nil => exact absurd rfl htype
  | cons first rest => simp [propertyRows]

theorem Tree.layoutAt_ne_nil (depth : Nat) (tree : Tree) : tree.layoutAt depth ≠ [] := by
  cases tree <;> simp [layoutAt]

mutual

theorem Tree.map_plainText_rowsAt (depth : Nat) (route : Route) :
    ∀ tree : Tree, (tree.rowsAt depth route).map StyledLine.plainText = tree.layoutAt depth
  | .leaf text => by simp [Tree.rowsAt, Tree.layoutAt]
  | .object members => by
      have hmembers := Member.map_plainText_rowsAt depth route members
      simp [Tree.rowsAt, Tree.layoutAt, hmembers]

theorem Member.map_plainText_rowsAt (depth : Nat) (route : Route) :
    ∀ members : List (Member Tree),
      (Member.rowsAt depth route members).map StyledLine.plainText =
        Member.layoutAt depth members
  | [] => rfl
  | .property name type :: rest => by
      let named := route.head? == some (.field name)
      let below := if named then route.tail else []
      let marked := if route = [.field name] then markFault (type.rowsAt (depth + 1) below)
        else type.rowsAt (depth + 1) below
      -- The rows of the type may be marked, which keeps their text.
      have htype := Tree.map_plainText_rowsAt (depth + 1) below type
      have hmarked : marked.map StyledLine.plainText = type.layoutAt (depth + 1) := by
        simp only [marked, apply_ite, map_plainText_markFault, htype, ite_self]
      have hne : marked ≠ [] := by
        intro hempty
        rw [hempty] at hmarked
        exact type.layoutAt_ne_nil (depth + 1) hmarked.symm
      have hproperty := map_plainText_propertyRows depth named name hne
      have hrest := Member.map_plainText_rowsAt depth route rest
      rw [hmarked] at hproperty
      simp only [Member.rowsAt, Member.layoutAt, List.map_append, hrest]
      exact congrArg (· ++ _) hproperty
  | .method name params result :: rest => by
      have hrest := Member.map_plainText_rowsAt depth route rest
      rw [Member.rowsAt, Member.layoutAt, List.map_cons, plainText_methodRow, hrest]

end

/-- The text of the rows is the layout of the tree, and the same for any two routes. -/
theorem Tree.map_plainText_rows (tree : Tree) (route other : Route) :
    (tree.rows route).map StyledLine.plainText = tree.layout ∧
      (tree.rows route).map StyledLine.plainText = (tree.rows other).map StyledLine.plainText := by
  have hroute : (tree.rows route).map StyledLine.plainText = tree.layout :=
    Tree.map_plainText_rowsAt 0 route tree
  have hother : (tree.rows other).map StyledLine.plainText = tree.layout :=
    Tree.map_plainText_rowsAt 0 other tree
  exact ⟨hroute, hroute.trans hother.symm⟩

end MismatchReport
