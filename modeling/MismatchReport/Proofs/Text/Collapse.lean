import MismatchReport.Proofs.Text.Words

/-!
# Collapsed white space

Collapsing keeps the ink of a text and the places where white space divides it, and writes each of
these as one space.  No other text has the same ink, divided so and written so.
-/

namespace MismatchReport.Text

variable {text out : Text}

/-- White space is single spaces, none of them at an end. -/
structure IsTidy (text : Text) : Prop where
  eq_space : ∀ char ∈ text, isWhiteSpace char → char = ' '
  single : ¬ [' ', ' '] <:+: text
  head : ∀ char ∈ text.head?, ¬ isWhiteSpace char
  last : ∀ char ∈ text.getLast?, ¬ isWhiteSpace char

theorem isTidy_nil : IsTidy [] where
  eq_space := by simp
  single := by simp
  head := by simp
  last := by simp

theorem isTidy_of_nil_not_mem (hspace : ∀ char ∈ text, isWhiteSpace char → char = ' ')
    (hpieces : [] ∉ text.splitOnP isWhiteSpace) : IsTidy text where
  eq_space := hspace
  single := by
    rintro ⟨front, rest, rfl⟩
    have hwhite : isWhiteSpace ' ' := rfl
    have hsplit := List.splitOnP_append_cons front (' ' :: rest) hwhite
    rw [splitOnP_cons_of_separates hwhite] at hsplit
    exact hpieces (by simp [hsplit])
  head := by
    intro char hchar hwhite
    obtain ⟨rest, rfl⟩ := List.head?_eq_some_iff.mp hchar
    exact hpieces (by simp [splitOnP_cons_of_separates hwhite])
  last := by
    intro char hchar hwhite
    obtain ⟨front, rfl⟩ := List.getLast?_eq_some_iff.mp hchar
    exact hpieces (by simp [List.splitOnP_append_cons front [] hwhite])

theorem IsTidy.nil_not_mem (htidy : IsTidy text) (htext : text ≠ []) :
    [] ∉ text.splitOnP isWhiteSpace := by
  intro hmem
  obtain ⟨before, after, hpieces⟩ := List.append_of_mem hmem
  -- The empty piece may be the only one, the first, the last, or stand between two others.
  by_cases hbefore : before = [] <;> by_cases hafter : after = []
  · rw [hbefore, hafter] at hpieces
    exact htext (splitOnP_eq_singleton_nil_iff.mp hpieces)
  · rw [hbefore] at hpieces
    obtain ⟨gap, rest, rfl, hgap, -⟩ := exists_of_splitOnP_eq_nil_cons hpieces hafter
    exact htidy.head gap rfl hgap
  · obtain ⟨front, gap, rest, rfl, hgap, -, hrest⟩ :=
      exists_of_splitOnP_eq_append hpieces hbefore (by simp)
    rw [hafter, splitOnP_eq_singleton_nil_iff] at hrest
    exact htidy.last gap (by simp [hrest]) hgap
  · obtain ⟨front, gap, rest, rfl, hgap, -, hrest⟩ :=
      exists_of_splitOnP_eq_append hpieces hbefore (by simp)
    obtain ⟨second, rest, rfl, hsecond, -⟩ := exists_of_splitOnP_eq_nil_cons hrest hafter
    obtain rfl := htidy.eq_space gap (by simp) hgap
    obtain rfl := htidy.eq_space second (by simp) hsecond
    exact htidy.single ⟨front, rest, by simp⟩

theorem joinWith_splitOnP (hspace : ∀ char ∈ text, isWhiteSpace char → char = ' ') :
    joinWith [' '] (text.splitOnP isWhiteSpace) = text := by
  induction text with
  | nil => rfl
  | cons char rest ih =>
      have hrest := ih fun char hchar => hspace char (List.mem_cons_of_mem _ hchar)
      by_cases hwhite : isWhiteSpace char
      · obtain rfl := hspace char List.mem_cons_self hwhite
        rw [splitOnP_cons_of_separates hwhite, joinWith,
          List.intercalate_cons_of_ne_nil (List.splitOnP_ne_nil _ rest), ← joinWith, hrest]
        rfl
      · obtain ⟨piece, pieces, hpieces, hcons⟩ := exists_splitOnP_cons hwhite rest
        rw [hpieces, joinWith_cons] at hrest
        rw [hcons, joinWith_cons, List.cons_append, hrest]

theorem IsTidy.collapse_eq (htidy : IsTidy text) : collapse text = text := by
  by_cases htext : text = []
  · rw [htext]
    rfl
  · have hpieces : words text = text.splitOnP isWhiteSpace := by
      refine List.filter_eq_self.mpr fun piece hpiece => ?_
      have hne : piece ≠ [] := ne_of_mem_of_not_mem hpiece (htidy.nil_not_mem htext)
      simpa using hne
    rw [collapse, hpieces, joinWith_splitOnP htidy.eq_space]

theorem collapse_isTidy (text : Text) : IsTidy (collapse text) := by
  by_cases hwords : words text = []
  · rw [collapse, hwords]
    exact isTidy_nil
  · refine isTidy_of_nil_not_mem (fun char hchar hwhite => ?_) fun hmem => ?_
    · exact (mem_collapse hchar).resolve_right fun hink => hink.2 hwhite
    · rw [collapse, splitOnP_joinWith hwords] at hmem
      obtain ⟨word, hword, hmem⟩ := List.mem_flatMap.mp hmem
      have hisWord := isWord_of_mem_words hword
      rw [hisWord.splitOnP, List.mem_singleton] at hmem
      exact hisWord.1 hmem.symm

/-! ## The tidy form -/

/-- White space stands between two characters of the ink, which are numbered from zero. -/
def IsSeparated (text : Text) (first second : Nat) : Prop :=
  second < (ink text).length ∧ ∃ count, first < count ∧ count ≤ second ∧ HasGap text count

theorem isSeparated_iff_isSeam {first second : Nat} :
    IsSeparated text first second ↔ second < (words text).flatten.length ∧
      ∃ count, first < count ∧ count ≤ second ∧ IsSeam (words text) count := by
  rw [flatten_words]
  constructor
  · rintro ⟨hsecond, count, hfirst, hle, hgap⟩
    exact ⟨hsecond, count, hfirst, hle, hgap.isSeam⟩
  · rintro ⟨hsecond, count, hfirst, hle, hseam⟩
    exact ⟨hsecond, count, hfirst, hle, hasGap_of_isSeam hseam (by omega) (by omega)⟩

theorem isSeparated_succ_iff {count : Nat} :
    IsSeparated text count (count + 1) ↔
      count + 1 < (words text).flatten.length ∧ IsSeam (words text) (count + 1) := by
  rw [isSeparated_iff_isSeam]
  refine and_congr_right fun _ => ⟨?_, fun hseam => ⟨count + 1, by omega, by omega, hseam⟩⟩
  rintro ⟨middle, hfirst, hle, hseam⟩
  rwa [show count + 1 = middle by omega]

/-- The tidy text with the ink of `text`, divided in the same places. -/
structure IsTidyForm (out text : Text) : Prop extends IsTidy out where
  ink_eq : ink out = ink text
  isSeparated_iff : ∀ first second, IsSeparated out first second ↔ IsSeparated text first second

theorem words_eq_of_isSeparated_iff (hink : ink out = ink text)
    (hseparated : ∀ first second, IsSeparated out first second ↔ IsSeparated text first second) :
    words out = words text := by
  have hflatten : (words out).flatten = (words text).flatten := by
    rw [flatten_words, flatten_words, hink]
  refine eq_of_isSeam_iff (fun word hword => (isWord_of_mem_words hword).1)
    (fun word hword => (isWord_of_mem_words hword).1) hflatten fun count => ?_
  -- Both ends are seams of any words, and a seam within the ink separates its neighbours.
  cases count with
  | zero => exact iff_of_true (isSeam_zero _) (isSeam_zero _)
  | succ count =>
      have hneighbours := hseparated count (count + 1)
      rw [isSeparated_succ_iff, isSeparated_succ_iff, hflatten] at hneighbours
      rcases Nat.lt_trichotomy (count + 1) (words text).flatten.length with hlt | heq | hgt
      · exact and_congr_right_iff.mp hneighbours hlt
      · rw [heq]
        exact iff_of_true (hflatten ▸ isSeam_length (words out)) (isSeam_length _)
      · refine iff_of_false (fun hseam => ?_) fun hseam => ?_
        · exact absurd hseam.le_length (by rw [hflatten]; omega)
        · exact absurd hseam.le_length (by omega)

theorem eq_collapse_iff : out = collapse text ↔ IsTidyForm out text := by
  constructor
  · rintro rfl
    exact {
      collapse_isTidy text with
      ink_eq := by rw [← flatten_words, ← flatten_words, words_collapse]
      isSeparated_iff := fun first second => by
        rw [isSeparated_iff_isSeam, isSeparated_iff_isSeam, words_collapse] }
  · intro hform
    have hwords := words_eq_of_isSeparated_iff hform.ink_eq hform.isSeparated_iff
    rw [← hform.collapse_eq, collapse, hwords, ← collapse]

def IsCut (left right : Text) : Prop :=
  left.getLast?.all isWhiteSpace ∨ right.head?.all isWhiteSpace

theorem words_append {left right : Text} (hcut : IsCut left right) :
    words (left ++ right) = words left ++ words right := by
  rcases hcut with hleft | hright
  · rcases List.eq_nil_or_concat' left with rfl | ⟨front, gap, rfl⟩
    · rfl
    · have hgap : isWhiteSpace gap := by simpa using hleft
      rw [List.append_assoc, List.singleton_append, words_append_cons hgap,
        words_append_cons hgap, words_nil, List.append_nil]
  · cases right with
    | nil => rw [List.append_nil, words_nil, List.append_nil]
    | cons gap rest =>
        have hgap : isWhiteSpace gap := hright
        rw [words_append_cons hgap, words_cons hgap]

/-- The parts of a text that is cut at white space, in order.  White space next to a cut stays with
a part or is left out. -/
inductive SplitsInto : Text → List Text → Prop
  | nil : SplitsInto [] []
  | skip {gap : Char} {rest : Text} {parts : List Text} (hgap : isWhiteSpace gap)
      (hrest : SplitsInto rest parts) : SplitsInto (gap :: rest) parts
  | part (part : Text) {rest : Text} {parts : List Text} (hcut : IsCut part rest)
      (hrest : SplitsInto rest parts) : SplitsInto (part ++ rest) (part :: parts)

theorem SplitsInto.words_eq {parts : List Text} (hsplit : SplitsInto text parts) :
    words text = parts.flatMap words := by
  induction hsplit with
  | nil => rfl
  | skip hgap _ ih => rw [words_cons hgap, ih]
  | part part hcut _ ih => rw [words_append hcut, ih, List.flatMap_cons]

theorem SplitsInto.collapse_eq {parts : List Text} (hsplit : SplitsInto text parts) :
    collapse text = collapse (joinWith [' '] (parts.map collapse)) := by
  have hwords : words (joinWith [' '] (parts.map collapse)) = words text := by
    rw [words_joinWith, List.flatMap_map, hsplit.words_eq]
    simp
  rw [collapse, collapse, hwords]

/-- Collapsing gives the one tidy form of a text.  It changes no tidy form, and may be done part by
part first. -/
theorem collapse_gives_tidyForm (text : Text) :
    (∀ out, out = collapse text ↔ IsTidyForm out text) ∧
      collapse (collapse text) = collapse text ∧
      ∀ parts, SplitsInto text parts →
        collapse text = collapse (joinWith [' '] (parts.map collapse)) := by
  have htidy := collapse_isTidy text
  refine ⟨fun out => eq_collapse_iff, htidy.collapse_eq, ?_⟩
  intro parts hsplit
  exact hsplit.collapse_eq

def arrowText : Text := "\u2003(x:\r\n\tstring) =>\u3000void "

def arrowParts : List Text := ["\u2003(x:\r", "string) =>\u3000", "", "void "]

theorem collapse_gives_tidyForm_arrow :
    SplitsInto arrowText arrowParts ∧
      collapse arrowText = collapse (joinWith [' '] (arrowParts.map collapse)) ∧
      collapse arrowText = "(x: string) => void" := by
  have htext : arrowText = ("\u2003(x:\r" : Text) ++ '\n' :: '\t' ::
      (("string) =>\u3000" : Text) ++ ([] ++ (("void " : Text) ++ []))) := by decide
  have hvoid := SplitsInto.part "void " (.inl (by decide)) .nil
  have hnothing := SplitsInto.part [] (.inl (by decide)) hvoid
  have hstring := SplitsInto.part "string) =>\u3000" (.inl (by decide)) hnothing
  have hsplit : SplitsInto arrowText arrowParts := by
    rw [htext]
    exact .part "\u2003(x:\r" (.inl (by decide)) (.skip (by decide) (.skip (by decide) hstring))
  exact ⟨hsplit, (collapse_gives_tidyForm arrowText).2.2 arrowParts hsplit, by decide⟩

end MismatchReport.Text
