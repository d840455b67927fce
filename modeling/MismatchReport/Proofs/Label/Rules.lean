import MismatchReport.Proofs.Label.Texts

/-!
# The rules of labels

Which label a type has, as rules on its symbol, its members and the composites around it.  The
guarded recursion gives each type the one label that the rules derive for it, and leaves the guard
as it was.
-/

namespace MismatchReport

/-- A union names its type by its members wherever it stands, a type literal does as an alias, and
the name of a variable or of a property assignment goes to any other declaration in it. -/
inductive Declaration.GivesName : Declaration → Text → Prop
  | ofUnion (members : List Text) (parent : Option DeclarationParent) :
      GivesName ⟨.unionType members, parent⟩ (Text.joinWith " | " members)
  | ofAlias (name : Text) : GivesName ⟨.typeLiteral, some (.typeAlias name)⟩ name
  | ofVariable {kind : DeclarationKind} (hkind : ∀ members, kind ≠ .unionType members)
      (name : Text) : GivesName ⟨kind, some (.variableDeclaration name)⟩ name
  | ofAssignment {kind : DeclarationKind} (hkind : ∀ members, kind ≠ .unionType members)
      (name : Text) : GivesName ⟨kind, some (.propertyAssignment name)⟩ name

namespace Label

/-- The label of a symbol is the name that the first declaration with one gives. -/
inductive Declares : List Declaration → Text → Prop
  | named {before after : List Declaration} {declaration : Declaration} {name : Text}
      (hbefore : ∀ earlier ∈ before, ∀ other, ¬ earlier.GivesName other)
      (hname : declaration.GivesName name) :
      Declares (before ++ declaration :: after) name
  | unnamed {declarations : List Declaration}
      (hnone : ∀ declaration ∈ declarations, ∀ name, ¬ declaration.GivesName name) :
      Declares declarations "[unknown]"

theorem givesName_iff {declaration : Declaration} {name : Text} :
    declaration.GivesName name ↔ ofDeclaration? declaration = some name := by
  constructor
  · intro hname
    cases hname with
    | ofUnion | ofAlias => rfl
    | ofVariable hkind | ofAssignment hkind => simp [ofDeclaration?]
  · intro hname
    unfold ofDeclaration? at hname
    split at hname
    · cases hname
      exact .ofUnion _ _
    · cases hname
      exact .ofAlias _
    · rename_i hkind
      cases hname
      exact .ofVariable hkind _
    · rename_i hkind
      cases hname
      exact .ofAssignment hkind _
    · cases hname

theorem forall_not_givesName_iff {declaration : Declaration} :
    (∀ name, ¬ declaration.GivesName name) ↔ ofDeclaration? declaration = none := by
  simp [givesName_iff, Option.eq_none_iff_forall_ne_some]

theorem declares_iff {declarations : List Declaration} {label : Text} :
    Declares declarations label ↔ ofDeclarations declarations = label := by
  unfold ofDeclarations
  constructor
  · intro hlabel
    cases hlabel with
    | named hbefore hname =>
        simp only [forall_not_givesName_iff] at hbefore
        rw [givesName_iff] at hname
        simp [List.findSome?_append, List.findSome?_eq_none_iff.mpr hbefore, hname]
    | unnamed hnone =>
        simp only [forall_not_givesName_iff] at hnone
        rw [List.findSome?_eq_none_iff.mpr hnone]
        rfl
  · rintro rfl
    cases hfound : declarations.findSome? ofDeclaration? with
    | none =>
        refine .unnamed ?_
        simpa only [forall_not_givesName_iff] using List.findSome?_eq_none_iff.mp hfound
    | some name =>
        obtain ⟨before, declaration, after, rfl, hname, hbefore⟩ :=
          List.findSome?_eq_some_iff.mp hfound
        refine .named ?_ (givesName_iff.mpr hname)
        simpa only [forall_not_givesName_iff] using hbefore

section Types

variable {τ : Type}

/-- The label of a type below its ancestors, the composites whose members are being labelled.  The
labels of members belong to the members: they do not depend on where a member stands among its
siblings. -/
inductive HasLabel (checker : Checker τ) (maxDepth : Nat) : List τ → τ → Option Text → Prop
  | declared {ancestors : List τ} {type : τ} {declarations : List Declaration} {label : Text}
      (hdeclarations : checker.declarations? type = some declarations)
      (hlabel : Declares declarations label) :
      HasLabel checker maxDepth ancestors type (some label)
  | unlabelled {ancestors : List τ} {type : τ} (hunlabelled : IsUnlabelled checker type) :
      HasLabel checker maxDepth ancestors type none
  | printed {ancestors : List τ} {type : τ} {kind : CompositeKind} {members : List τ}
      (hcomposite : IsComposite checker type kind members)
      (hclosed : type ∈ ancestors ∨ maxDepth ≤ ancestors.length) :
      HasLabel checker maxDepth ancestors type (some (checker.print type))
  | joined {ancestors : List τ} {type : τ} {kind : CompositeKind} {members : List τ}
      (hcomposite : IsComposite checker type kind members) (hancestor : type ∉ ancestors)
      (hroom : ancestors.length < maxDepth) {labels : τ → Option Text}
      (hlabels : ∀ member ∈ members,
        HasLabel checker maxDepth (type :: ancestors) member (labels member)) :
      HasLabel checker maxDepth ancestors type
        (some (Text.joinWith kind.separator
          (members.map fun member => (labels member).getD (checker.print member))))

variable [DecidableEq τ] {checker : Checker τ} {maxDepth : Nat} {ancestors : List τ} {type : τ}
  {label : Option Text}

theorem HasLabel.labelBelow_eq (hlabel : HasLabel checker maxDepth ancestors type label) :
    labelBelow checker maxDepth ancestors type = label := by
  induction hlabel with
  | declared hdeclarations hlabel =>
      rw [labelBelow, hdeclarations]
      exact congrArg some (declares_iff.mp hlabel)
  | unlabelled hunlabelled => exact labelBelow_eq_none_iff.mpr hunlabelled
  | printed hcomposite hclosed =>
      rw [labelBelow_of_constituents hcomposite.1 hcomposite.2]
      rcases hclosed with hancestor | hdepth
      · rw [if_pos hancestor]
      · rw [if_neg (Nat.not_lt.mpr hdepth), ite_self]
  | joined hcomposite hancestor hroom _ ih =>
      rw [labelBelow_of_constituents hcomposite.1 hcomposite.2, if_neg hancestor, if_pos hroom,
        List.map_congr_left fun member hmember => by rw [ih member hmember]]

theorem hasLabel_labelBelow (checker : Checker τ) (maxDepth : Nat) (ancestors : List τ)
    (type : τ) :
    HasLabel checker maxDepth ancestors type (labelBelow checker maxDepth ancestors type) := by
  fun_induction labelBelow checker maxDepth ancestors type with
  | case1 ancestors type declarations hdeclarations =>
      exact .declared hdeclarations (declares_iff.mpr rfl)
  | case2 ancestors type hconstituents hdeclarations =>
      exact .unlabelled ⟨hdeclarations, hconstituents⟩
  | case3 ancestors type kind members hconstituents hdeclarations hancestor =>
      exact .printed ⟨hdeclarations, hconstituents⟩ (.inl hancestor)
  | case4 ancestors type kind members hconstituents hdeclarations hancestor hroom ih =>
      exact .joined ⟨hdeclarations, hconstituents⟩ hancestor hroom fun member _ => ih member
  | case5 ancestors type kind members hconstituents hdeclarations hancestor hroom =>
      exact .printed ⟨hdeclarations, hconstituents⟩ (.inr (Nat.not_lt.mp hroom))

/-- A type has exactly the label that the rules derive for it with no ancestors, where 32
composites may stand above one that is labelled by its members.  More steps than these levels need
change nothing, and every type that is entered is left again. -/
theorem ofType?_eq_iff_hasLabel (checker : Checker τ) (type : τ) :
    (∀ label, ofType? checker type = label ↔ HasLabel checker 32 [] type label) ∧
      ∀ extra, resolve checker (33 + extra) type (Guard.ofMaxDepth 32) =
        (ofType? checker type, Guard.ofMaxDepth 32) := by
  rw [ofType?_eq_labelBelow]
  constructor
  · intro label
    constructor
    · rintro rfl
      exact hasLabel_labelBelow checker 32 [] type
    · exact HasLabel.labelBelow_eq
  · intro extra
    have htracks : (Guard.ofMaxDepth 32 : Guard τ).Tracks [] [] := ⟨rfl, fun _ => Iff.rfl, rfl⟩
    exact restores_resolve htracks (Nat.zero_le _) (by simp [Guard.ofMaxDepth]; omega)

end Types

end Label

end MismatchReport
