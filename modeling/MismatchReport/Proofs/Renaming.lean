import Mathlib.Data.List.Basic
import Mathlib.Data.Option.Basic
import MismatchReport.Proofs.Label
import MismatchReport.Proofs.Tree.Builder
import MismatchReport.Report.Basic

/-!
# Reports under a renaming of types

A checker with renamed types gives the same trees, labels and reports, as long as the renaming
keeps different types apart.
-/

namespace MismatchReport

variable {τ κ : Type}

/-- What the renamed checker answers about the new name of a type is what the checker answers about
the type, with new names for the types of the answer. -/
structure Checker.Renames (checker : Checker τ) (f : τ → κ) (renamed : Checker κ) : Prop where
  project?_eq : ∀ type, renamed.project? (f type) = checker.project? type
  members_eq : ∀ type, renamed.members (f type) = (checker.members type).map (Member.map f)
  print_eq : ∀ type, renamed.print (f type) = checker.print type
  declarations?_eq : ∀ type, renamed.declarations? (f type) = checker.declarations? type
  constituents?_eq : ∀ type, renamed.constituents? (f type) =
    (checker.constituents? type).map fun (kind, types) => (kind, types.map f)

def RelatedTypes.map (f : τ → κ) (related : RelatedTypes τ) : RelatedTypes κ where
  source := f related.source
  target := f related.target
  sourceStack := related.sourceStack.map f
  targetStack := related.targetStack.map f

theorem Checker.Renames.constituents?_of_eq_some {checker : Checker τ} {renamed : Checker κ}
    {f : τ → κ} (hrenames : checker.Renames f renamed) {type : τ} {kind : CompositeKind}
    {types : List τ} (htypes : checker.constituents? type = some (kind, types)) :
    renamed.constituents? (f type) = some (kind, types.map f) := by
  rw [hrenames.constituents?_eq, htypes]
  rfl

variable [DecidableEq τ] [DecidableEq κ] {checker : Checker τ} {renamed : Checker κ} {f : τ → κ}

namespace TreeBuilder

theorem nestedTree_rename (hrenames : checker.Renames f renamed) (hf : Function.Injective f)
    (barred ancestors : List τ) {expand : τ → Projection → Tree}
    {expandRenamed : κ → Projection → Tree}
    (hexpand : ∀ type projection, expandRenamed (f type) projection = expand type projection)
    (type : τ) :
    nestedTree renamed (barred.map f) (ancestors.map f) expandRenamed (f type) =
      nestedTree checker barred ancestors expand type := by
  simp only [nestedTree, List.mem_map_of_injective hf, hrenames.print_eq, hrenames.project?_eq,
    hexpand]

theorem treeBelow_rename (hrenames : checker.Renames f renamed) (hf : Function.Injective f)
    (maxDepth : Nat) (barred ancestors : List τ) (type : τ) (projection : Projection) :
    treeBelow renamed maxDepth (barred.map f) (ancestors.map f) (f type) projection =
      treeBelow checker maxDepth barred ancestors type projection := by
  fun_induction treeBelow checker maxDepth barred ancestors type projection with
  | case1 ancestors type projection hkind =>
      rw [treeBelow, hkind]
  | case2 ancestors type projection hkind hroom ih =>
      rw [treeBelow, hkind]
      dsimp only
      rw [List.length_map, dif_pos hroom, hrenames.members_eq, List.map_map]
      congr 2
      funext member
      rw [Function.comp_apply, Member.map_map]
      exact Member.map_congr fun below _ =>
        nestedTree_rename hrenames hf barred (type :: ancestors) ih below
  | case3 ancestors type projection hkind hroom =>
      rw [treeBelow, hkind]
      dsimp only
      rw [List.length_map, dif_neg hroom, hrenames.print_eq]

theorem treeOf?_rename (hrenames : checker.Renames f renamed) (hf : Function.Injective f)
    (maxDepth : Nat) (root : τ) (expanding : List τ) :
    treeOf? renamed maxDepth (f root) (expanding.map f) =
      treeOf? checker maxDepth root expanding := by
  have hbarred : (expanding.map f).filter (· ≠ f root) = (expanding.filter (· ≠ root)).map f := by
    rw [List.filter_map]
    congr 1
    apply List.filter_congr
    intro type _
    simp [hf.eq_iff]
  unfold treeOf?
  rw [hbarred, hrenames.project?_eq]
  congr 1
  funext projection
  exact treeBelow_rename hrenames hf maxDepth _ [] root projection

theorem buildFresh_eq_treeOf? (checker : Checker τ) (root : τ) (expanding : List τ) :
    buildFresh checker root expanding =
      treeOf? checker Guard.defaultMaxDepth root expanding := by
  rw [buildFresh, restores_build]

end TreeBuilder

namespace Label

theorem labelBelow_rename (hrenames : checker.Renames f renamed) (hf : Function.Injective f)
    (maxDepth : Nat) (ancestors : List τ) (type : τ) :
    labelBelow renamed maxDepth (ancestors.map f) (f type) =
      labelBelow checker maxDepth ancestors type := by
  fun_induction labelBelow checker maxDepth ancestors type with
  | case1 ancestors type declarations hdeclarations =>
      rw [labelBelow, hrenames.declarations?_eq, hdeclarations]
  | case2 ancestors type hconstituents hdeclarations =>
      rw [labelBelow, hrenames.declarations?_eq, hdeclarations, hrenames.constituents?_eq,
        hconstituents]
      rfl
  | case3 ancestors type kind members hconstituents hdeclarations hancestor =>
      rw [← hrenames.declarations?_eq] at hdeclarations
      have hnew := hrenames.constituents?_of_eq_some hconstituents
      rw [labelBelow_of_constituents hdeclarations hnew,
        if_pos (List.mem_map_of_mem hancestor), hrenames.print_eq]
  | case4 ancestors type kind members hconstituents hdeclarations hancestor hroom ih =>
      rw [← hrenames.declarations?_eq] at hdeclarations
      have hnew := hrenames.constituents?_of_eq_some hconstituents
      rw [labelBelow_of_constituents hdeclarations hnew,
        if_neg (mt (List.mem_map_of_injective hf).mp hancestor), List.length_map, if_pos hroom,
        List.map_map]
      congr 3
      funext member
      rw [Function.comp_apply, hrenames.print_eq, ← List.map_cons, ih]
  | case5 ancestors type kind members hconstituents hdeclarations hancestor hroom =>
      rw [← hrenames.declarations?_eq] at hdeclarations
      have hnew := hrenames.constituents?_of_eq_some hconstituents
      rw [labelBelow_of_constituents hdeclarations hnew,
        if_neg (mt (List.mem_map_of_injective hf).mp hancestor), List.length_map, if_neg hroom,
        hrenames.print_eq]

end Label

theorem titleOf_rename (hrenames : checker.Renames f renamed) (hf : Function.Injective f)
    (type : τ) : titleOf renamed (f type) = titleOf checker type := by
  have hlabel := Label.labelBelow_rename hrenames hf Guard.defaultMaxDepth [] type
  unfold titleOf
  rw [Label.ofType?_eq_labelBelow, Label.ofType?_eq_labelBelow, hrenames.print_eq]
  exact congrArg (Option.getD · _) hlabel

theorem View.build?_rename (hrenames : checker.Renames f renamed) (hf : Function.Injective f)
    (diagnostic : Diagnostic) (related : RelatedTypes τ) :
    View.build? renamed diagnostic (related.map f) = View.build? checker diagnostic related := by
  simp only [View.build?, RelatedTypes.map, TreeBuilder.buildFresh_eq_treeOf?,
    TreeBuilder.treeOf?_rename hrenames hf, titleOf_rename hrenames hf]

theorem Formatter.report_rename (hrenames : checker.Renames f renamed)
    (hf : Function.Injective f) (formatter : Formatter) (buffer : Option Source.Buffer)
    (diagnostic : Diagnostic) (related : Option (RelatedTypes τ)) :
    formatter.report renamed buffer diagnostic (related.map (RelatedTypes.map f)) =
      formatter.report checker buffer diagnostic related := by
  have hview : (related.map (RelatedTypes.map f)).bind (View.build? renamed diagnostic) =
      related.bind (View.build? checker diagnostic) := by
    cases related with
    | none => rfl
    | some related => exact View.build?_rename hrenames hf diagnostic related
  unfold report
  rw [hview]

end MismatchReport
