import MismatchReport.Label
import MismatchReport.Proofs.Expansion

/-!
# Labels from ancestors

The label of a type under a guard is the one that a pure recursion gives, which passes the
composites around a type down to its members.
-/

namespace MismatchReport.Label

variable {τ : Type} [DecidableEq τ]

/-- The label of a type below its ancestors, composites of which fewer than `maxDepth` may stand
above a composite with members of its own. -/
def labelBelow (checker : Checker τ) (maxDepth : Nat) (ancestors : List τ) (type : τ) :
    Option Text :=
  match checker.declarations? type, checker.constituents? type with
  | some declarations, _ => some (ofDeclarations declarations)
  | none, none => none
  | none, some (kind, members) =>
      if type ∈ ancestors then some (checker.print type)
      else if _hroom : ancestors.length < maxDepth then
        some (Text.joinWith kind.separator (members.map fun member =>
          (labelBelow checker maxDepth (type :: ancestors) member).getD (checker.print member)))
      else some (checker.print type)
termination_by maxDepth - ancestors.length

variable {checker : Checker τ} {guard : Guard τ} {ancestors : List τ}

theorem labelBelow_of_constituents {maxDepth : Nat} {type : τ} {kind : CompositeKind}
    {members : List τ} (hdeclarations : checker.declarations? type = none)
    (hconstituents : checker.constituents? type = some (kind, members)) :
    labelBelow checker maxDepth ancestors type =
      if type ∈ ancestors then some (checker.print type)
      else if ancestors.length < maxDepth then
        some (Text.joinWith kind.separator (members.map fun member =>
          (labelBelow checker maxDepth (type :: ancestors) member).getD (checker.print member)))
      else some (checker.print type) := by
  rw [labelBelow, hdeclarations, hconstituents]
  rfl

theorem restores_resolve {steps : Nat} {type : τ} (htracks : guard.Tracks ancestors [])
    (hlevels : ancestors.length ≤ guard.maxDepth)
    (hsteps : guard.maxDepth < steps + ancestors.length) :
    Restores guard (resolve checker steps type)
      (labelBelow checker guard.maxDepth ancestors type) := by
  induction steps generalizing guard ancestors type with
  | zero => omega
  | succ steps ih =>
      unfold resolve
      cases hdeclarations : checker.declarations? type with
      | some declarations =>
          rw [labelBelow, hdeclarations]
          exact restores_pure _
      | none =>
          cases hconstituents : checker.constituents? type with
          | none =>
              rw [labelBelow, hdeclarations, hconstituents]
              exact restores_pure _
          | some composite =>
              obtain ⟨kind, members⟩ := composite
              have hvisiting := htracks.isVisiting_iff type
              simp only [List.not_mem_nil, or_false] at hvisiting
              rw [labelBelow_of_constituents hdeclarations hconstituents]
              by_cases hancestor : type ∈ ancestors
              · have henter := Guard.enter_of_isVisiting (hvisiting.mpr hancestor)
                rw [if_pos hancestor]
                exact (bind_of_eq henter _).trans rfl
              have hkey := mt hvisiting.mp hancestor
              rw [if_neg hancestor]
              by_cases hroom : ancestors.length < guard.maxDepth
              · have henter := Guard.enter_of_lt_maxDepth hkey (htracks.depth_eq ▸ hroom)
                have hmember : ∀ member, Restores (guard.below type)
                    (resolve checker steps member)
                    (labelBelow checker guard.maxDepth (type :: ancestors) member) := by
                  intro member
                  exact ih (htracks.below type) hroom (by simp [Guard.below]; omega)
                -- Every member sees the guard below the type, whatever its siblings did with it.
                have hmembers : Restores (guard.below type)
                    (members.mapM fun member => do
                      return (← resolve checker steps member).getD (checker.print member)) _ :=
                  restores_mapM fun member _ => (hmember member).bind (restores_pure _)
                rw [if_pos hroom]
                refine (bind_of_eq henter _).trans ?_
                refine (bind_of_eq hmembers _).trans ?_
                exact (bind_of_eq (Guard.leave_below guard type) _).trans rfl
              · have hdepth : guard.maxDepth ≤ guard.depth := by
                  rw [htracks.depth_eq]
                  omega
                rw [if_neg hroom]
                exact (bind_of_eq (Guard.enter_of_maxDepth_le hkey hdepth) _).trans rfl

theorem ofType?_eq_labelBelow (checker : Checker τ) (type : τ) :
    ofType? checker type = labelBelow checker Guard.defaultMaxDepth [] type := by
  have htracks : (Guard.ofMaxDepth Guard.defaultMaxDepth : Guard τ).Tracks [] [] :=
    ⟨rfl, fun _ => Iff.rfl, rfl⟩
  have hrestores : Restores _ (resolve checker (Guard.defaultMaxDepth + 1) type) _ :=
    restores_resolve htracks (Nat.zero_le _) (Nat.lt_succ_self _)
  rw [ofType?, hrestores]
  rfl

end MismatchReport.Label
