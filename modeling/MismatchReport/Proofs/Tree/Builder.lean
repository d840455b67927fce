import MismatchReport.Proofs.Member
import MismatchReport.Proofs.Text.Collapse
import MismatchReport.Tree.Builder

/-!
# Trees from ancestors

A builder threads one guard through all the trees that it makes.  What it makes is what a pure
expansion makes that passes the types around a type down to its members, whatever was built
before.
-/

namespace MismatchReport.TreeBuilder

variable {τ : Type} [DecidableEq τ]

/-- The words of a text in one line. -/
def leafOf (text : Text) : Tree := .leaf (Text.joinWith [' '] (Text.words text))

theorem ofText_eq_leafOf (text : Text) : Tree.ofText text = leafOf text := rfl

/-- The tree of a type below its ancestors: a leaf of its printed form if it is one of them, is
barred or cannot be written as an expression, and otherwise what `expand` makes of it. -/
def nestedTree (checker : Checker τ) (barred ancestors : List τ)
    (expand : τ → Projection → Tree) (type : τ) : Tree :=
  if type ∈ ancestors ∨ type ∈ barred then leafOf (checker.print type)
  else match checker.project? type with
    | none => leafOf (checker.print type)
    | some projection => expand type projection

/-- The tree of a projected type: the members of an object are expanded below it, as long as fewer
than `maxDepth` types are above it. -/
def treeBelow (checker : Checker τ) (maxDepth : Nat) (barred ancestors : List τ) (type : τ)
    (projection : Projection) : Tree :=
  match projection.kind with
  | .other => leafOf projection.text
  | .typeLiteral =>
      if _hroom : ancestors.length < maxDepth then
        .object ((checker.members type).map (Member.map
          (nestedTree checker barred (type :: ancestors) fun member projection =>
            treeBelow checker maxDepth barred (type :: ancestors) member projection)))
      else leafOf (checker.print type)
termination_by maxDepth - ancestors.length

/-- The tree of a root: the types of `expanding` are barred, but not the root itself. -/
def treeOf? (checker : Checker τ) (maxDepth : Nat) (root : τ) (expanding : List τ) :
    Option Tree :=
  (checker.project? root).map
    (treeBelow checker maxDepth (expanding.filter (· ≠ root)) [] root)

theorem isSome_treeOf? (checker : Checker τ) (maxDepth : Nat) (root : τ) (expanding : List τ) :
    (treeOf? checker maxDepth root expanding).isSome = (checker.project? root).isSome :=
  Option.isSome_map

variable {checker : Checker τ} {guard : Guard τ} {ancestors barred : List τ}

theorem restores_nested {action : τ → Projection → StateM (Guard τ) Tree}
    {result : τ → Projection → Tree} (htracks : guard.Tracks ancestors barred)
    (haction : ∀ type projection, type ∉ ancestors → type ∉ barred →
      Restores guard (action type projection) (result type projection)) (type : τ) :
    Restores guard (nested checker action type)
      (nestedTree checker barred ancestors result type) := by
  refine (bind_get _).trans ?_
  unfold nestedTree
  by_cases hkey : guard.isVisiting type
  · rw [if_pos hkey, if_pos ((htracks.isVisiting_iff type).mp hkey)]
    rfl
  · have hfree := mt (htracks.isVisiting_iff type).mpr hkey
    rw [if_neg hkey, if_neg hfree]
    cases checker.project? type with
    | none => rfl
    | some projection =>
        obtain ⟨hancestors, hbarred⟩ := not_or.mp hfree
        exact haction type projection hancestors hbarred

theorem restores_expand {steps : Nat} {type : τ} (projection : Projection)
    (htracks : guard.Tracks ancestors barred)
    (hsteps : guard.maxDepth < steps + ancestors.length)
    (hancestors : type ∉ ancestors) (hbarred : type ∉ barred) :
    Restores guard (expand checker steps type projection)
      (treeBelow checker guard.maxDepth barred ancestors type projection) := by
  induction steps generalizing guard ancestors type projection with
  | zero =>
      obtain ⟨kind, text⟩ := projection
      rw [treeBelow]
      cases kind with
      | other => exact restores_pure _
      | typeLiteral =>
          rw [dif_neg (by omega)]
          exact restores_pure _
  | succ steps ih =>
      obtain ⟨kind, text⟩ := projection
      rw [treeBelow]
      cases kind with
      | other => exact restores_pure _
      | typeLiteral =>
          have hkey : ¬ guard.isVisiting type := by
            rw [htracks.isVisiting_iff]
            exact not_or.mpr ⟨hancestors, hbarred⟩
          by_cases hroom : ancestors.length < guard.maxDepth
          · have henter := Guard.enter_of_lt_maxDepth hkey (htracks.depth_eq ▸ hroom)
            -- Every member sees the guard below the type, whatever its siblings did with it.
            have hmembers : Restores (guard.below type)
                ((checker.members type).mapM
                  (Member.traverse (nested checker (expand checker steps)))) _ :=
              restores_mapM fun member _ => Member.restores_traverse
                (restores_nested (htracks.below type) fun below projection hfree hopen =>
                  ih projection (htracks.below type) (by simp [Guard.below]; omega) hfree hopen)
                member
            rw [dif_pos hroom]
            refine (bind_of_eq henter _).trans ?_
            refine (bind_of_eq hmembers _).trans ?_
            exact (bind_of_eq (Guard.leave_below guard type) _).trans rfl
          · have hdepth : guard.maxDepth ≤ guard.depth := by
              rw [htracks.depth_eq]
              omega
            rw [dif_neg hroom]
            exact (bind_of_eq (Guard.enter_of_maxDepth_le hkey hdepth) _).trans rfl

theorem restores_build (checker : Checker τ) (maxDepth : Nat) (root : τ) (expanding : List τ) :
    Restores (Guard.ofMaxDepth maxDepth) (build checker root expanding)
      (treeOf? checker maxDepth root expanding) := by
  unfold treeOf? build
  cases checker.project? root with
  | none => exact restores_pure none
  | some projection =>
      let barred := expanding.filter (· ≠ root)
      let marked : Guard τ := { Guard.ofMaxDepth maxDepth with marked := barred.reverse ++ [] }
      have htracks : marked.Tracks [] barred := ⟨rfl, by simp [marked], rfl⟩
      have htree : Restores marked (expand checker (maxDepth + 1) root projection) _ :=
        restores_expand projection htracks (by simp [marked, Guard.ofMaxDepth]) (by simp)
          (by simp [barred])
      refine (bind_of_eq (Guard.forM_mark barred (Guard.ofMaxDepth maxDepth)) _).trans ?_
      refine (bind_get _).trans ?_
      refine (bind_of_eq htree _).trans ?_
      rfl

theorem leafOf_eq_leaf_iff {text line : Text} :
    leafOf text = .leaf line ↔ Text.IsTidyForm line text := by
  rw [← ofText_eq_leafOf, Tree.ofText, Tree.leaf.injEq, ← Text.eq_collapse_iff, eq_comm]

/-- One builder makes each tree as if it were the first, and no build leaves a trace in its
guard.  The leaves of these trees are the tidy forms of the texts that they stand for. -/
theorem mapM_build_eq_map_treeOf? (checker : Checker τ) (maxDepth : Nat)
    (builds : List (τ × List τ)) :
    (builds.mapM fun (root, expanding) => build checker root expanding)
        (Guard.ofMaxDepth maxDepth) =
      (builds.map fun (root, expanding) => treeOf? checker maxDepth root expanding,
        Guard.ofMaxDepth maxDepth) ∧
      ∀ text line, leafOf text = .leaf line ↔ Text.IsTidyForm line text := by
  constructor
  · exact restores_mapM fun (root, expanding) _ => restores_build checker maxDepth root expanding
  · exact fun text line => leafOf_eq_leaf_iff

end MismatchReport.TreeBuilder
