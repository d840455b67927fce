import MismatchReport.Proofs.Tree.Layout

/-!
# Tokens of printed trees

What a tree prints apart from spaces and semicolons.  It is the same in rows and on one line.
-/

namespace MismatchReport

namespace Text

/-- Spaces, and the semicolons that stand between members on one line. -/
def isSpacing (char : Char) : Bool := char == ' ' || char == ';'

def tokens (text : Text) : Text := text.filter (!isSpacing ·)

@[simp] theorem tokens_append (left right : Text) :
    tokens (left ++ right) = tokens left ++ tokens right :=
  List.filter_append left right

@[simp] theorem tokens_spaces (count : Nat) : tokens (spaces count) = [] :=
  List.filter_replicate_of_neg (by decide)

theorem tokens_flatten (parts : List Text) :
    tokens parts.flatten = (parts.map tokens).flatten :=
  List.filter_flatten

theorem tokens_joinWith (separator : Text) (parts : List Text) :
    tokens (joinWith separator parts) = joinWith (tokens separator) (parts.map tokens) := by
  cases parts with
  | nil => rfl
  | cons first rest =>
      rw [List.map_cons, joinWith_cons, joinWith_cons, tokens_append, List.flatMap_def,
        tokens_flatten, List.map_map, List.flatMap_map]
      simp [List.flatMap_def, Function.comp_def]

theorem flatten_modifyHead_append (front : Text) {lines : List Text} (hlines : lines ≠ []) :
    (lines.modifyHead (front ++ ·)).flatten = front ++ lines.flatten := by
  cases lines with
  | nil => exact absurd rfl hlines
  | cons first rest =>
      rw [List.modifyHead_cons, List.flatten_cons, List.flatten_cons, List.append_assoc]

end Text

mutual

def Tree.tokens : Tree → Text
  | .leaf text => Text.tokens text
  | .object members => '\x7b' :: ((Member.tokensAll members).flatten ++ ['\x7d'])

def Member.tokens : Member Tree → Text
  | .property name type => Text.tokens name ++ (':' :: type.tokens)
  | .method name params result =>
      Text.tokens name ++ ('(' :: (Text.joinWith [','] (Param.tokensAll params) ++
        (')' :: ':' :: result.tokens)))

def Param.tokens : Param Tree → Text
  | ⟨name, none⟩ => Text.tokens name
  | ⟨name, some type⟩ => Text.tokens name ++ (':' :: type.tokens)

def Member.tokensAll : List (Member Tree) → List Text
  | [] => []
  | member :: rest => Member.tokens member :: Member.tokensAll rest

def Param.tokensAll : List (Param Tree) → List Text
  | [] => []
  | param :: rest => Param.tokens param :: Param.tokensAll rest

end

theorem Tree.tokens_inline_object (members : List (Member Tree)) :
    Text.tokens (Tree.object members).inline =
      '\x7b' :: (((Member.inlineAll members).map Text.tokens).flatten ++ ['\x7d']) := by
  have hopen : Text.tokens ("\x7b " : Text) = ['\x7b'] := by decide
  have hseparator : Text.tokens ("; " : Text) = [] := by decide
  have hclose : Text.tokens (" \x7d" : Text) = ['\x7d'] := by decide
  rw [Tree.inline]
  split
  · -- Without members there is no space between the braces.
    rename_i hempty
    obtain rfl := List.isEmpty_iff.mp hempty
    decide
  · rw [Text.tokens_append, Text.tokens_append, Text.tokens_joinWith, hopen, hseparator, hclose,
      Text.joinWith_nil_separator]
    rfl

mutual

theorem Tree.tokens_inline : ∀ tree : Tree, Text.tokens tree.inline = tree.tokens
  | .leaf text => rfl
  | .object members => by
      rw [Tree.tokens_inline_object, Member.tokens_inlineAll members, Tree.tokens]

theorem Member.tokens_inline :
    ∀ member : Member Tree, Text.tokens (Member.inline member) = Member.tokens member
  | .property name type => by
      have hcolon : Text.tokens (": " : Text) = [':'] := by decide
      rw [Member.inline, Text.tokens_append, Text.tokens_append, hcolon,
        Tree.tokens_inline type, Member.tokens, List.append_assoc]
      rfl
  | .method name params result => by
      have hopen : Text.tokens ("(" : Text) = ['('] := by decide
      have hcomma : Text.tokens (", " : Text) = [','] := by decide
      have hclose : Text.tokens ("): " : Text) = [')', ':'] := by decide
      rw [Member.inline, Text.tokens_append, Text.tokens_append, Text.tokens_append,
        Text.tokens_append, Text.tokens_joinWith, hopen, hcomma, hclose,
        Param.tokens_inlineAll params, Tree.tokens_inline result, Member.tokens]
      simp

theorem Param.tokens_inline :
    ∀ param : Param Tree, Text.tokens (Param.inline param) = Param.tokens param
  | ⟨name, none⟩ => rfl
  | ⟨name, some type⟩ => by
      have hcolon : Text.tokens (": " : Text) = [':'] := by decide
      rw [Param.inline, Text.tokens_append, Text.tokens_append, hcolon,
        Tree.tokens_inline type, Param.tokens, List.append_assoc]
      rfl

theorem Member.tokens_inlineAll :
    ∀ members : List (Member Tree),
      (Member.inlineAll members).map Text.tokens = Member.tokensAll members
  | [] => rfl
  | member :: rest => by
      rw [Member.inlineAll, List.map_cons, Member.tokens_inline member,
        Member.tokens_inlineAll rest, Member.tokensAll]

theorem Param.tokens_inlineAll :
    ∀ params : List (Param Tree),
      (Param.inlineAll params).map Text.tokens = Param.tokensAll params
  | [] => rfl
  | param :: rest => by
      rw [Param.inlineAll, List.map_cons, Param.tokens_inline param,
        Param.tokens_inlineAll rest, Param.tokensAll]

end

mutual

theorem Tree.tokens_layoutAt (depth : Nat) :
    ∀ tree : Tree, Text.tokens (tree.layoutAt depth).flatten = tree.tokens
  | .leaf text => by rw [Tree.layoutAt, List.flatten_singleton, Tree.tokens]
  | .object members => by
      have hmembers := Member.tokens_layoutAt depth members
      have hopen : Text.tokens ("\x7b" : Text) = ['\x7b'] := by decide
      have hclose : Text.tokens ("\x7d" : Text) = ['\x7d'] := by decide
      rw [Tree.layoutAt, List.flatten_cons, List.flatten_append, List.flatten_singleton,
        Text.tokens_append, Text.tokens_append, hmembers, indentation, Text.tokens_append,
        Text.tokens_spaces, hopen, hclose, Tree.tokens]
      rfl

theorem Member.tokens_layoutAt (depth : Nat) :
    ∀ members : List (Member Tree),
      Text.tokens (Member.layoutAt depth members).flatten = (Member.tokensAll members).flatten
  | [] => rfl
  | .property name type :: rest => by
      have hcolon : Text.tokens (": " : Text) = [':'] := by decide
      have htype := Tree.tokens_layoutAt (depth + 1) type
      have hrest := Member.tokens_layoutAt depth rest
      rw [Member.layoutAt, List.flatten_append,
        Text.flatten_modifyHead_append _ (type.layoutAt_ne_nil (depth + 1)), indentation,
        Member.tokensAll, List.flatten_cons, Member.tokens]
      simp only [Text.tokens_append, Text.tokens_spaces, hcolon, htype, hrest]
      simp
  | .method name params result :: rest => by
      have hrest := Member.tokens_layoutAt depth rest
      rw [Member.layoutAt, List.flatten_cons, Text.tokens_append, Text.tokens_append, indentation,
        Text.tokens_spaces, Member.tokens_inline, hrest, List.nil_append, Member.tokensAll,
        List.flatten_cons]

end

/-- The rows one behind the other and the one-line form have the same tokens, those of the tree,
whatever route the rows mark. -/
theorem Tree.tokens_rows (tree : Tree) (route : Route) :
    Text.tokens ((tree.rows route).flatMap StyledLine.plainText) = Text.tokens tree.inline ∧
      Text.tokens tree.inline = tree.tokens := by
  have hlayout : (tree.rows route).map StyledLine.plainText = tree.layoutAt 0 :=
    Tree.map_plainText_rowsAt 0 route tree
  rw [List.flatMap_def, hlayout, Tree.tokens_layoutAt, Tree.tokens_inline]
  exact ⟨rfl, rfl⟩

example : (Tree.object [.property "a" (.leaf "A; B"),
    .method "f" [⟨"x", some (.leaf "C")⟩, ⟨"y", none⟩] (.object [])]).tokens =
    "\x7ba:ABf(x:C,y):\x7b\x7d\x7d" := by decide

end MismatchReport
