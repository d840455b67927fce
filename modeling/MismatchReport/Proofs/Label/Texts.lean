import MismatchReport.Proofs.Label
import MismatchReport.Proofs.Text.Pieces

/-!
# The texts of labels

A label is made of names from declarations and of types that it spells as they print.
-/

namespace MismatchReport

def Declaration.names (declaration : Declaration) : List Text :=
  (match declaration.kind with
    | .unionType members => members
    | _ => []) ++
  match declaration.parent with
    | some (.typeAlias name) | some (.variableDeclaration name)
    | some (.propertyAssignment name) => [name]
    | _ => []

namespace Label

variable {char : Char}

theorem not_mem_ofDeclaration? (hchar : char < ' ') {declaration : Declaration}
    (hnames : ∀ name ∈ declaration.names, char ∉ name) :
    ∀ label ∈ ofDeclaration? declaration, char ∉ label := by
  have hbar : char ∉ (" | " : Text) := Text.not_mem_of_isPrintable hchar (by decide)
  intro label hlabel
  unfold ofDeclaration? at hlabel
  split at hlabel <;> simp only [Option.mem_def, Option.some.injEq, reduceCtorEq] at hlabel <;>
    subst hlabel
  · exact Text.not_mem_joinWith hbar fun name hname =>
      hnames name (List.mem_append_left _ hname)
  all_goals exact hnames _ (List.mem_append_right _ (by simp))

theorem not_mem_ofDeclarations (hchar : char < ' ') {declarations : List Declaration}
    (hnames : ∀ declaration ∈ declarations, ∀ name ∈ declaration.names, char ∉ name) :
    char ∉ ofDeclarations declarations := by
  unfold ofDeclarations
  cases hfound : declarations.findSome? ofDeclaration? with
  | none => exact Text.not_mem_of_isPrintable hchar (by decide)
  | some label =>
      obtain ⟨declaration, hdeclaration, hlabel⟩ := List.exists_of_findSome?_eq_some hfound
      exact not_mem_ofDeclaration? hchar (hnames declaration hdeclaration) label hlabel

variable {τ : Type}

def IsComposite (checker : Checker τ) (type : τ) (kind : CompositeKind) (members : List τ) :
    Prop :=
  checker.declarations? type = none ∧ checker.constituents? type = some (kind, members)

def IsUnlabelled (checker : Checker τ) (type : τ) : Prop :=
  checker.declarations? type = none ∧ checker.constituents? type = none

/-- Whether a composite below its ancestors is labelled by its members. -/
def Opens (maxDepth : Nat) (ancestors : List τ) (type : τ) : Prop :=
  type ∉ ancestors ∧ ancestors.length < maxDepth

/-- The label of a type below its ancestors spells another type as it prints: a member without a
label, or a composite that is not labelled by its members. -/
inductive Spells (checker : Checker τ) (maxDepth : Nat) : List τ → τ → τ → Prop
  | closed {ancestors : List τ} {type : τ} {kind : CompositeKind} {members : List τ}
      (hcomposite : IsComposite checker type kind members)
      (hclosed : ¬ Opens maxDepth ancestors type) :
      Spells checker maxDepth ancestors type type
  | unlabelled {ancestors : List τ} {type member : τ} {kind : CompositeKind} {members : List τ}
      (hcomposite : IsComposite checker type kind members) (hopens : Opens maxDepth ancestors type)
      (hmember : member ∈ members) (hunlabelled : IsUnlabelled checker member) :
      Spells checker maxDepth ancestors type member
  | inside {ancestors : List τ} {type member printed : τ} {kind : CompositeKind} {members : List τ}
      (hcomposite : IsComposite checker type kind members) (hopens : Opens maxDepth ancestors type)
      (hmember : member ∈ members)
      (hinside : Spells checker maxDepth (type :: ancestors) member printed) :
      Spells checker maxDepth ancestors type printed

variable {checker : Checker τ} {maxDepth : Nat} {ancestors : List τ} {type printed : τ}
  {members : List τ} {kind : CompositeKind}

theorem Spells.exists_isComposite (hspells : Spells checker maxDepth ancestors type printed) :
    ∃ kind members, IsComposite checker type kind members := by
  cases hspells with
  | closed hcomposite | unlabelled hcomposite | inside hcomposite => exact ⟨_, _, hcomposite⟩

theorem spells_iff_of_not_opens (hcomposite : IsComposite checker type kind members)
    (hclosed : ¬ Opens maxDepth ancestors type) :
    Spells checker maxDepth ancestors type printed ↔ printed = type := by
  constructor
  · intro hspells
    cases hspells with
    | closed => rfl
    | unlabelled _ hopens | inside _ hopens => exact absurd hopens hclosed
  · rintro rfl
    exact .closed hcomposite hclosed

theorem spells_iff_of_opens (hcomposite : IsComposite checker type kind members)
    (hopens : Opens maxDepth ancestors type) :
    Spells checker maxDepth ancestors type printed ↔
      ∃ member ∈ members, (IsUnlabelled checker member ∧ printed = member) ∨
        Spells checker maxDepth (type :: ancestors) member printed := by
  have hmembers : ∀ {other : CompositeKind} {others : List τ},
      IsComposite checker type other others → others = members := by
    intro other others hother
    have heq := hother.2.symm.trans hcomposite.2
    simpa using (Prod.mk.inj (Option.some.inj heq)).2
  constructor
  · intro hspells
    cases hspells with
    | closed _ hclosed => exact absurd hopens hclosed
    | unlabelled hother _ hmember hunlabelled =>
        exact ⟨printed, hmembers hother ▸ hmember, .inl ⟨hunlabelled, rfl⟩⟩
    | inside hother _ hmember hinside => exact ⟨_, hmembers hother ▸ hmember, .inr hinside⟩
  · rintro ⟨member, hmember, ⟨hunlabelled, rfl⟩ | hinside⟩
    · exact .unlabelled hcomposite hopens hmember hunlabelled
    · exact .inside hcomposite hopens hmember hinside

theorem not_spells_of_isUnlabelled (hunlabelled : IsUnlabelled checker type) :
    ¬ Spells checker maxDepth ancestors type printed := by
  intro hspells
  obtain ⟨kind, members, -, hconstituents⟩ := hspells.exists_isComposite
  rw [hunlabelled.2] at hconstituents
  cases hconstituents

theorem not_spells_of_declarations {declarations : List Declaration}
    (hdeclarations : checker.declarations? type = some declarations) :
    ¬ Spells checker maxDepth ancestors type printed := by
  intro hspells
  obtain ⟨kind, members, hnone, -⟩ := hspells.exists_isComposite
  rw [hdeclarations] at hnone
  cases hnone

variable [DecidableEq τ]

theorem labelBelow_eq_none_iff :
    labelBelow checker maxDepth ancestors type = none ↔ IsUnlabelled checker type := by
  unfold IsUnlabelled
  fun_cases labelBelow checker maxDepth ancestors type <;> simp_all

theorem mem_memberLabel_iff {member : τ}
    (hinside : (∃ label ∈ labelBelow checker maxDepth ancestors member, char ∈ label) ↔
      ∃ printed, Spells checker maxDepth ancestors member printed ∧
        char ∈ checker.print printed) :
    char ∈ (labelBelow checker maxDepth ancestors member).getD (checker.print member) ↔
      ∃ printed, (IsUnlabelled checker member ∧ printed = member ∨
        Spells checker maxDepth ancestors member printed) ∧ char ∈ checker.print printed := by
  cases hlabel : labelBelow checker maxDepth ancestors member with
  | none =>
      have hunlabelled := labelBelow_eq_none_iff.mp hlabel
      simp [hunlabelled, not_spells_of_isUnlabelled hunlabelled]
  | some label =>
      have hlabelled : ¬ IsUnlabelled checker member := by
        rw [← labelBelow_eq_none_iff, hlabel]
        exact Option.some_ne_none label
      rw [hlabel] at hinside
      simpa [hlabelled] using hinside

theorem exists_mem_labelBelow_iff (hchar : char < ' ')
    (hnames : ∀ type, ∀ declarations ∈ checker.declarations? type,
      ∀ declaration ∈ declarations, ∀ name ∈ declaration.names, char ∉ name)
    (maxDepth : Nat) (ancestors : List τ) (type : τ) :
    (∃ label ∈ labelBelow checker maxDepth ancestors type, char ∈ label) ↔
      ∃ printed, Spells checker maxDepth ancestors type printed ∧
        char ∈ checker.print printed := by
  fun_induction labelBelow checker maxDepth ancestors type with
  | case1 ancestors type declarations hdeclarations =>
      have hlabel := not_mem_ofDeclarations hchar (hnames type declarations hdeclarations)
      simp [not_spells_of_declarations hdeclarations, hlabel]
  | case2 ancestors type hconstituents hdeclarations =>
      simp [not_spells_of_isUnlabelled ⟨hdeclarations, hconstituents⟩]
  | case3 ancestors type kind members hconstituents hdeclarations hancestor =>
      have hclosed : ¬ Opens maxDepth ancestors type := fun hopens => hopens.1 hancestor
      simp [spells_iff_of_not_opens ⟨hdeclarations, hconstituents⟩ hclosed]
  | case4 ancestors type kind members hconstituents hdeclarations hancestor hroom ih =>
      have hseparator : char ∉ kind.separator := by
        cases kind <;> exact Text.not_mem_of_isPrintable hchar (by decide)
      have hmember := fun member => mem_memberLabel_iff (ih member)
      simp only [Option.mem_def, Option.some.injEq, exists_eq_left']
      rw [Text.mem_joinWith_iff hseparator]
      simp only [List.mem_map, exists_exists_and_eq_and, hmember,
        spells_iff_of_opens ⟨hdeclarations, hconstituents⟩ ⟨hancestor, hroom⟩]
      constructor
      · rintro ⟨member, hmem, printed, hspells, hprint⟩
        exact ⟨printed, ⟨member, hmem, hspells⟩, hprint⟩
      · rintro ⟨printed, ⟨member, hmem, hspells⟩, hprint⟩
        exact ⟨member, hmem, printed, hspells, hprint⟩
  | case5 ancestors type kind members hconstituents hdeclarations hancestor hroom =>
      have hclosed : ¬ Opens maxDepth ancestors type := fun hopens => hroom hopens.2
      simp [spells_iff_of_not_opens ⟨hdeclarations, hconstituents⟩ hclosed]

end Label

end MismatchReport
