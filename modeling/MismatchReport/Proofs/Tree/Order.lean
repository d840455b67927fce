import MismatchReport.Proofs.Tree.Builder
import MismatchReport.Snapshot.Queries

/-!
# The order of trees

A tree is below another if it shows less of it: leaves stand where the other has objects.  With
fewer levels or more types under way, a build gives a tree that is below the first one.
-/

namespace MismatchReport

/-- The tree is the other one with leaves in the place of some of its objects. -/
inductive Tree.IsBelow : Tree → Tree → Prop
  | leaf (text : Text) : IsBelow (.leaf text) (.leaf text)
  | cut (text : Text) (members : List (Member Tree)) : IsBelow (.leaf text) (.object members)
  | object {lower upper : List (Member Tree)}
      (hmembers : List.Forall₂ (Member.Related IsBelow) lower upper) :
      IsBelow (.object lower) (.object upper)

def Checker.PrintsExpressions {τ : Type} (checker : Checker τ) : Prop :=
  ∀ type projection, checker.project? type = some projection → projection.kind = .other →
    checker.print type = projection.text

theorem Snapshot.checker_printsExpressions (snapshot : Snapshot) :
    snapshot.checker.PrintsExpressions := by
  intro type projection hproject _
  obtain ⟨entry, hentry, hprojection⟩ := Option.bind_eq_some_iff.mp hproject
  have hprint : snapshot.checker.print type = entry.text := by simp [checker, hentry]
  unfold TypeEntry.projection? at hprojection
  split at hprojection
  · rw [hprint, ← Option.some.inj hprojection]
  · cases hprojection

namespace TreeBuilder

variable {τ : Type} [DecidableEq τ] {checker : Checker τ} {maxDepth lessDepth : Nat}
  {barred moreBarred : List τ}

theorem leaf_isBelow_treeBelow (hprints : checker.PrintsExpressions) {type : τ}
    {projection : Projection} (hproject : checker.project? type = some projection)
    (maxDepth : Nat) (barred ancestors : List τ) :
    (leafOf (checker.print type)).IsBelow
      (treeBelow checker maxDepth barred ancestors type projection) := by
  rw [treeBelow]
  cases hkind : projection.kind with
  | other =>
      rw [hprints type projection hproject hkind]
      exact .leaf _
  | typeLiteral =>
      dsimp only
      split
      · exact .cut _ _
      · exact .leaf _

theorem nestedTree_isBelow (hprints : checker.PrintsExpressions) (hbarred : barred ⊆ moreBarred)
    {ancestors below : List τ} {expand : τ → Projection → Tree}
    (hexpand : ∀ type projection, checker.project? type = some projection →
      (expand type projection).IsBelow
        (treeBelow checker maxDepth barred below type projection)) (type : τ) :
    (nestedTree checker moreBarred ancestors expand type).IsBelow
      (nestedTree checker barred ancestors (treeBelow checker maxDepth barred below) type) := by
  unfold nestedTree
  cases hproject : checker.project? type with
  | none =>
      simp only [ite_self]
      exact .leaf _
  | some projection =>
      -- A type that the second run refuses is refused by the first, too.
      by_cases hrefused : type ∈ ancestors ∨ type ∈ barred
      · rw [if_pos hrefused, if_pos (hrefused.imp_right (@hbarred type))]
        exact .leaf _
      · rw [if_neg hrefused]
        split
        · exact leaf_isBelow_treeBelow hprints hproject maxDepth barred below
        · exact hexpand type projection hproject

theorem treeBelow_isBelow (hprints : checker.PrintsExpressions) (hdepth : lessDepth ≤ maxDepth)
    (hbarred : barred ⊆ moreBarred) (ancestors : List τ) {type : τ} {projection : Projection}
    (hproject : checker.project? type = some projection) :
    (treeBelow checker lessDepth moreBarred ancestors type projection).IsBelow
      (treeBelow checker maxDepth barred ancestors type projection) := by
  fun_induction treeBelow checker lessDepth moreBarred ancestors type projection with
  | case1 ancestors type projection hkind =>
      rw [treeBelow, hkind]
      exact .leaf _
  | case2 ancestors type projection hkind hroom ih =>
      -- Both runs expand the type, so its members have the same ancestors in both.
      rw [treeBelow, hkind]
      dsimp only
      rw [dif_pos (Nat.lt_of_lt_of_le hroom hdepth)]
      refine .object ?_
      rw [List.forall₂_map_left_iff, List.forall₂_map_right_iff, List.forall₂_same]
      intro member _
      exact Member.related_map (nestedTree_isBelow hprints hbarred ih) member
  | case3 ancestors type projection hkind hroom =>
      exact leaf_isBelow_treeBelow hprints hproject maxDepth barred ancestors

theorem treeBelow_congr (hbarred : ∀ type, type ∈ barred ↔ type ∈ moreBarred)
    (ancestors : List τ) (type : τ) (projection : Projection) :
    treeBelow checker maxDepth barred ancestors type projection =
      treeBelow checker maxDepth moreBarred ancestors type projection := by
  fun_induction treeBelow checker maxDepth barred ancestors type projection with
  | case1 ancestors type projection hkind => rw [treeBelow, hkind]
  | case2 ancestors type projection hkind hroom ih =>
      rw [treeBelow, hkind]
      dsimp only
      rw [dif_pos hroom]
      congr 2
      funext member
      refine Member.map_congr fun below _ => ?_
      simp only [nestedTree, hbarred, ih]
  | case3 ancestors type projection hkind hroom =>
      rw [treeBelow, hkind]
      dsimp only
      rw [dif_neg hroom]

theorem treeOf?_congr {root : τ} {expanding others : List τ}
    (hsame : ∀ type ≠ root, type ∈ expanding ↔ type ∈ others) :
    treeOf? checker maxDepth root expanding = treeOf? checker maxDepth root others := by
  have hbarred : ∀ type, type ∈ expanding.filter (· ≠ root) ↔ type ∈ others.filter (· ≠ root) := by
    intro type
    simp only [List.mem_filter, decide_eq_true_eq]
    exact and_congr_left (hsame type)
  unfold treeOf?
  congr 1
  funext projection
  exact treeBelow_congr hbarred [] root projection

/-- A build of a root that can be written as an expression gives a tree.  Fewer levels and more
types under way, the root aside, give a tree below it, and nothing but the set of these types
matters. -/
theorem build_isBelow_build (snapshot : Snapshot) {root : TypeId}
    (hroot : (snapshot.checker.project? root).isSome) {lessDepth maxDepth : Nat}
    (hdepth : lessDepth ≤ maxDepth) {expanding others : List TypeId}
    (hothers : ∀ type ∈ expanding, type ≠ root → type ∈ others) :
    (∃ lower upper,
      (build snapshot.checker root others (Guard.ofMaxDepth lessDepth)).1 = some lower ∧
      (build snapshot.checker root expanding (Guard.ofMaxDepth maxDepth)).1 = some upper ∧
      lower.IsBelow upper) ∧
    ∀ same : List TypeId, (∀ type ≠ root, type ∈ same ↔ type ∈ expanding) →
      (build snapshot.checker root same (Guard.ofMaxDepth maxDepth)).1 =
        (build snapshot.checker root expanding (Guard.ofMaxDepth maxDepth)).1 := by
  obtain ⟨projection, hproject⟩ := Option.isSome_iff_exists.mp hroot
  have hbarred : expanding.filter (· ≠ root) ⊆ others.filter (· ≠ root) := by
    intro type htype
    simp only [List.mem_filter, decide_eq_true_eq] at htype ⊢
    exact ⟨hothers type htype.1 htype.2, htype.2⟩
  have hbelow := treeBelow_isBelow snapshot.checker_printsExpressions hdepth hbarred [] hproject
  refine ⟨⟨_, _, ?_, ?_, hbelow⟩, fun same hsame => ?_⟩
  · rw [restores_build, treeOf?, hproject, Option.map_some]
  · rw [restores_build, treeOf?, hproject, Option.map_some]
  · rw [restores_build, restores_build]
    exact treeOf?_congr hsame

def sampleCycle : Snapshot where
  types := [
    { id := ⟨0⟩, text := "Node", shape := .object [.property "next" ⟨0⟩,
      .method "map" [⟨"f", some ⟨1⟩⟩, ⟨"rest", none⟩] ⟨2⟩] },
    { id := ⟨1⟩, text := "(node: Node) =>\n  Node" },
    { id := ⟨2⟩, text := "Box", shape := .object [.property "value" ⟨0⟩] }]

theorem build_isBelow_build_sampleCycle :
    (sampleCycle.checker.project? ⟨0⟩).isSome ∧
      (∀ type ∈ [(⟨0⟩ : TypeId), ⟨7⟩], type ≠ ⟨0⟩ → type ∈ [(⟨2⟩ : TypeId), ⟨7⟩]) ∧
      ∃ lower upper,
        (build sampleCycle.checker ⟨0⟩ [⟨2⟩, ⟨7⟩] (Guard.ofMaxDepth 1)).1 = some lower ∧
        (build sampleCycle.checker ⟨0⟩ [⟨0⟩, ⟨7⟩] (Guard.ofMaxDepth 2)).1 = some upper ∧
        lower.IsBelow upper := by
  have hroot : (sampleCycle.checker.project? ⟨0⟩).isSome := by decide
  have hothers : ∀ type ∈ [(⟨0⟩ : TypeId), ⟨7⟩], type ≠ ⟨0⟩ → type ∈ [(⟨2⟩ : TypeId), ⟨7⟩] := by
    decide
  exact ⟨hroot, hothers, (build_isBelow_build sampleCycle hroot (by decide) hothers).1⟩

end TreeBuilder

end MismatchReport
