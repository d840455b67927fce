import MismatchReport.Proofs.Text.Pieces
import MismatchReport.Proofs.Tree.Builder
import MismatchReport.Proofs.Tree.Layout

/-!
# The texts of trees

The texts that a tree is made of, and the characters that a printed tree takes from them.
-/

namespace MismatchReport

def Member.names {α : Type} : Member α → List Text
  | .property name _ => [name]
  | .method name params _ => name :: params.map Param.name

theorem Member.names_map {α β : Type} (f : α → β) (member : Member α) :
    (member.map f).names = member.names := by
  cases member with
  | property name type => rfl
  | method name params result => simp [map, names, Function.comp_def, Param.map]

inductive Tree.HasTexts (p : Text → Prop) : Tree → Prop
  | leaf {text : Text} (htext : p text) : HasTexts p (.leaf text)
  | object {members : List (Member Tree)}
      (hnames : ∀ member ∈ members, ∀ name ∈ member.names, p name)
      (htypes : ∀ member ∈ members, ∀ type ∈ member.types, HasTexts p type) :
      HasTexts p (.object members)

section Characters

variable {char : Char}

theorem Param.not_mem_inline (hchar : char < ' ') {param : Param Tree} (hname : char ∉ param.name)
    (htype : ∀ type ∈ param.type, char ∉ type.inline) : char ∉ param.inline := by
  obtain ⟨name, type⟩ := param
  cases type with
  | none => exact hname
  | some type =>
      have hcolon : char ∉ (": " : Text) := Text.not_mem_of_isPrintable hchar (by decide)
      simp only [Param.inline, List.mem_append, not_or]
      exact ⟨⟨hname, hcolon⟩, htype type rfl⟩

theorem Member.not_mem_inline (hchar : char < ' ') {member : Member Tree}
    (hnames : ∀ name ∈ member.names, char ∉ name)
    (htypes : ∀ type ∈ member.types, char ∉ type.inline) : char ∉ member.inline := by
  cases member with
  | property name type =>
      have hcolon : char ∉ (": " : Text) := Text.not_mem_of_isPrintable hchar (by decide)
      simp only [Member.inline, List.mem_append, not_or]
      exact ⟨⟨hnames name (by simp [names]), hcolon⟩, htypes type (by simp [types])⟩
  | method name params result =>
      have hopen : char ∉ ("(" : Text) := Text.not_mem_of_isPrintable hchar (by decide)
      have hclose : char ∉ ("): " : Text) := Text.not_mem_of_isPrintable hchar (by decide)
      have hcomma : char ∉ (", " : Text) := Text.not_mem_of_isPrintable hchar (by decide)
      have hparams : ∀ text ∈ params.map Param.inline, char ∉ text := by
        intro text htext
        obtain ⟨param, hparam, rfl⟩ := List.mem_map.mp htext
        refine Param.not_mem_inline hchar (hnames _ ?_) fun type htype => htypes type ?_
        · exact List.mem_cons_of_mem _ (List.mem_map_of_mem hparam)
        · exact List.mem_append_left _ (List.mem_filterMap.mpr ⟨param, hparam, htype⟩)
      simp only [Member.inline, Param.inlineAll_eq_map, List.mem_append, not_or]
      exact ⟨⟨⟨⟨hnames name (by simp [names]), hopen⟩, Text.not_mem_joinWith hcomma hparams⟩,
        hclose⟩, htypes result (by simp [types])⟩

theorem Tree.HasTexts.not_mem_inline (hchar : char < ' ') {tree : Tree}
    (htree : tree.HasTexts (char ∉ ·)) : char ∉ tree.inline := by
  induction htree with
  | leaf htext => exact htext
  | @object members hnames htypes ih =>
      have hbraces : char ∉ ("\x7b\x7d" : Text) := Text.not_mem_of_isPrintable hchar (by decide)
      have hopen : char ∉ ("\x7b " : Text) := Text.not_mem_of_isPrintable hchar (by decide)
      have hclose : char ∉ (" \x7d" : Text) := Text.not_mem_of_isPrintable hchar (by decide)
      have hsemicolon : char ∉ ("; " : Text) := Text.not_mem_of_isPrintable hchar (by decide)
      have hmembers : ∀ text ∈ members.map Member.inline, char ∉ text := by
        intro text htext
        obtain ⟨member, hmember, rfl⟩ := List.mem_map.mp htext
        exact Member.not_mem_inline hchar (hnames member hmember) (ih member hmember)
      rw [Tree.inline, Member.inlineAll_eq_map]
      split
      · exact hbraces
      · simp only [List.mem_append, not_or]
        exact ⟨⟨hopen, Text.not_mem_joinWith hsemicolon hmembers⟩, hclose⟩

theorem Member.not_mem_layoutAt (hchar : char < ' ') (depth : Nat) {members : List (Member Tree)}
    (hnames : ∀ member ∈ members, ∀ name ∈ member.names, char ∉ name)
    (hinline : ∀ member ∈ members, ∀ type ∈ member.types, char ∉ type.inline)
    (hlayout : ∀ member ∈ members, ∀ type ∈ member.types,
      ∀ line ∈ type.layoutAt (depth + 1), char ∉ line) :
    ∀ line ∈ Member.layoutAt depth members, char ∉ line := by
  induction members with
  | nil => exact List.forall_mem_nil _
  | cons member rest ih =>
      have hrest := ih (fun later hlater => hnames later (List.mem_cons_of_mem _ hlater))
        (fun later hlater => hinline later (List.mem_cons_of_mem _ hlater))
        (fun later hlater => hlayout later (List.mem_cons_of_mem _ hlater))
      have hindent := Text.not_mem_spaces hchar (2 * (depth + 1))
      cases member with
      | property name type =>
          have hcolon : char ∉ (": " : Text) := Text.not_mem_of_isPrintable hchar (by decide)
          have hname := hnames _ List.mem_cons_self name (by simp [names])
          have htype := hlayout _ List.mem_cons_self type (by simp [types])
          rw [Member.layoutAt, List.forall_mem_append]
          refine ⟨?_, hrest⟩
          cases hlines : type.layoutAt (depth + 1) with
          | nil => exact List.forall_mem_nil _
          | cons first below =>
              rw [hlines] at htype
              rw [List.modifyHead_cons, List.forall_mem_cons]
              rw [List.forall_mem_cons] at htype
              simp only [List.mem_append, not_or]
              exact ⟨⟨⟨⟨hindent, hname⟩, hcolon⟩, htype.1⟩, htype.2⟩
      | method name params result =>
          have hmember := Member.not_mem_inline hchar (hnames _ List.mem_cons_self)
            (hinline _ List.mem_cons_self)
          rw [Member.layoutAt, List.forall_mem_cons, List.mem_append, not_or]
          exact ⟨⟨hindent, hmember⟩, hrest⟩

theorem Tree.HasTexts.not_mem_layoutAt (hchar : char < ' ') {tree : Tree}
    (htree : tree.HasTexts (char ∉ ·)) (depth : Nat) :
    ∀ line ∈ tree.layoutAt depth, char ∉ line := by
  induction htree generalizing depth with
  | leaf htext => simpa [Tree.layoutAt] using htext
  | @object members hnames htypes ih =>
      have hopen : char ∉ ("\x7b" : Text) := Text.not_mem_of_isPrintable hchar (by decide)
      have hclose : char ∉ ("\x7d" : Text) := Text.not_mem_of_isPrintable hchar (by decide)
      have hindent := Text.not_mem_spaces hchar (2 * depth)
      have hmembers := Member.not_mem_layoutAt hchar depth hnames
        (fun member hmember type htype => (htypes member hmember type htype).not_mem_inline hchar)
        (fun member hmember type htype => ih member hmember type htype (depth + 1))
      rw [Tree.layoutAt, List.forall_mem_cons, List.forall_mem_append, List.forall_mem_singleton,
        List.mem_append, not_or]
      exact ⟨hopen, hmembers, hindent, hclose⟩

theorem Tree.HasTexts.not_mem_rows (hchar : char < ' ') {tree : Tree}
    (htree : tree.HasTexts (char ∉ ·)) (route : Route) :
    ∀ row ∈ tree.rows route, char ∉ row.plainText := by
  intro row hrow
  refine htree.not_mem_layoutAt hchar 0 _ ?_
  rw [← tree.map_plainText_rowsAt 0 route]
  exact List.mem_map_of_mem hrow

end Characters

namespace TreeBuilder

variable {τ : Type} [DecidableEq τ] {checker : Checker τ} {p : Text → Prop}

theorem nestedTree_hasTexts (hprint : ∀ type, p (Text.collapse (checker.print type)))
    (hproject : ∀ type, ∀ projection ∈ checker.project? type, p (Text.collapse projection.text))
    {expand : τ → Projection → Tree}
    (hexpand : ∀ type projection, p (Text.collapse projection.text) →
      (expand type projection).HasTexts p)
    (barred ancestors : List τ) (type : τ) :
    (nestedTree checker barred ancestors expand type).HasTexts p := by
  unfold nestedTree
  split
  · exact .leaf (hprint type)
  · split
    · exact .leaf (hprint type)
    · rename_i projection hprojection
      exact hexpand type projection (hproject type projection hprojection)

theorem treeBelow_hasTexts
    (hnames : ∀ type, ∀ member ∈ checker.members type, ∀ name ∈ member.names, p name)
    (hprint : ∀ type, p (Text.collapse (checker.print type)))
    (hproject : ∀ type, ∀ projection ∈ checker.project? type, p (Text.collapse projection.text))
    (maxDepth : Nat) (barred ancestors : List τ) (type : τ) (projection : Projection)
    (htext : p (Text.collapse projection.text)) :
    (treeBelow checker maxDepth barred ancestors type projection).HasTexts p := by
  fun_induction treeBelow checker maxDepth barred ancestors type projection with
  | case1 ancestors type projection hkind => exact .leaf htext
  | case2 ancestors type projection hkind hroom ih =>
      refine .object ?_ ?_
      · intro member hmember
        obtain ⟨source, hsource, rfl⟩ := List.mem_map.mp hmember
        rw [Member.names_map]
        exact hnames type source hsource
      · intro member hmember below hbelow
        obtain ⟨source, hsource, rfl⟩ := List.mem_map.mp hmember
        rw [Member.types_map] at hbelow
        obtain ⟨origin, horigin, rfl⟩ := List.mem_map.mp hbelow
        exact nestedTree_hasTexts hprint hproject ih barred (type :: ancestors) origin
  | case3 ancestors type projection hkind hroom => exact .leaf (hprint type)

theorem treeOf?_hasTexts
    (hnames : ∀ type, ∀ member ∈ checker.members type, ∀ name ∈ member.names, p name)
    (hprint : ∀ type, p (Text.collapse (checker.print type)))
    (hproject : ∀ type, ∀ projection ∈ checker.project? type, p (Text.collapse projection.text))
    {maxDepth : Nat} {root : τ} {expanding : List τ} :
    ∀ tree ∈ treeOf? checker maxDepth root expanding, tree.HasTexts p := by
  intro tree htree
  obtain ⟨projection, hprojection, rfl⟩ := Option.map_eq_some_iff.mp htree
  exact treeBelow_hasTexts hnames hprint hproject maxDepth _ [] root projection
    (hproject root projection hprojection)

end TreeBuilder

end MismatchReport
