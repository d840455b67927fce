import MismatchReport.Proofs.Text.Pieces

/-!
# Words of texts

The words of a text, and how they arise from its parts.  Joined without anything between them they
are the ink of the text, and white space divides the ink at their seams.
-/

namespace MismatchReport

section Seams

variable {α : Type} {part : List α} {parts : List (List α)} {count : Nat}

/-- The first `count` items are a number of whole parts. -/
def IsSeam (parts : List (List α)) (count : Nat) : Prop :=
  ∃ before after, parts = before ++ after ∧ before.flatten.length = count

theorem isSeam_zero (parts : List (List α)) : IsSeam parts 0 := ⟨[], parts, rfl, rfl⟩

theorem isSeam_length (parts : List (List α)) : IsSeam parts parts.flatten.length :=
  ⟨parts, [], by simp, rfl⟩

theorem IsSeam.le_length (hseam : IsSeam parts count) : count ≤ parts.flatten.length := by
  obtain ⟨before, after, rfl, rfl⟩ := hseam
  simp

theorem isSeam_length_head (part : List α) (parts : List (List α)) :
    IsSeam (part :: parts) part.length :=
  ⟨[part], parts, rfl, by simp⟩

theorem IsSeam.length_head_le (hseam : IsSeam (part :: parts) count) (hcount : 0 < count) :
    part.length ≤ count := by
  obtain ⟨before, after, hparts, rfl⟩ := hseam
  cases before with
  | nil => simp at hcount
  | cons head before =>
      obtain ⟨rfl, -⟩ := List.cons.inj hparts
      simp

theorem isSeam_cons_add (hpart : part ≠ []) :
    IsSeam (part :: parts) (part.length + count) ↔ IsSeam parts count := by
  constructor
  · rintro ⟨before, after, hparts, hcount⟩
    cases before with
    | nil =>
        have := List.length_pos_iff.mpr hpart
        simp at hcount
        omega
    | cons head before =>
        obtain ⟨rfl, rfl⟩ := List.cons.inj hparts
        rw [List.flatten_cons, List.length_append] at hcount
        exact ⟨before, after, rfl, Nat.add_left_cancel hcount⟩
  · rintro ⟨before, after, rfl, rfl⟩
    exact ⟨part :: before, after, rfl, by simp⟩

theorem eq_of_isSeam_iff {others : List (List α)} (hparts : ∀ part ∈ parts, part ≠ [])
    (hothers : ∀ part ∈ others, part ≠ []) (hflatten : parts.flatten = others.flatten)
    (hseams : ∀ count, IsSeam parts count ↔ IsSeam others count) : parts = others := by
  induction parts generalizing others with
  | nil =>
      cases others with
      | nil => rfl
      | cons other others => simp [hothers other] at hflatten
  | cons part parts ih =>
      have hpart := hparts part List.mem_cons_self
      cases others with
      | nil => simp [hpart] at hflatten
      | cons other others =>
          have hother := hothers other List.mem_cons_self
          -- The end of either first part is a seam of the other list, so neither is the longer one.
          have hle := ((hseams _).mp (isSeam_length_head part parts)).length_head_le
            (List.length_pos_iff.mpr hpart)
          have hge := ((hseams _).mpr (isSeam_length_head other others)).length_head_le
            (List.length_pos_iff.mpr hother)
          obtain ⟨hhead, hrest⟩ := List.append_inj hflatten (Nat.le_antisymm hge hle)
          subst hhead
          have htail : parts = others := by
            refine ih (fun part hmem => hparts part (List.mem_cons_of_mem _ hmem))
              (fun part hmem => hothers part (List.mem_cons_of_mem _ hmem)) hrest fun count => ?_
            rw [← isSeam_cons_add hpart, hseams, isSeam_cons_add hpart]
          rw [htail]

end Seams

namespace Text

variable {text word : Text} {parts : List Text} {count : Nat}

def IsWord (word : Text) : Prop := word ≠ [] ∧ ∀ char ∈ word, ¬ isWhiteSpace char

theorem isWord_of_mem_words (hword : word ∈ words text) : IsWord word := by
  obtain ⟨hpiece, hne⟩ := List.mem_filter.mp hword
  exact ⟨by simpa using hne, fun char hchar => (mem_of_mem_splitOnP hpiece hchar).2⟩

theorem IsWord.splitOnP (hword : IsWord word) : word.splitOnP isWhiteSpace = [word] :=
  List.splitOnP_eq_singleton fun char hchar => by simpa using hword.2 char hchar

theorem IsWord.words (hword : IsWord word) : words word = [word] := by
  rw [Text.words, hword.splitOnP]
  simp [hword.1]

theorem words_nil : words [] = [] := rfl

theorem words_append_cons {gap : Char} (hgap : isWhiteSpace gap) (front rest : Text) :
    words (front ++ gap :: rest) = words front ++ words rest := by
  rw [words, List.splitOnP_append_cons front rest hgap, List.filter_append]
  rfl

theorem words_cons {gap : Char} (hgap : isWhiteSpace gap) (rest : Text) :
    words (gap :: rest) = words rest :=
  words_append_cons hgap [] rest

theorem splitOnP_joinWith (hparts : parts ≠ []) :
    (joinWith [' '] parts).splitOnP isWhiteSpace = parts.flatMap (·.splitOnP isWhiteSpace) := by
  induction parts with
  | nil => exact absurd rfl hparts
  | cons first parts ih =>
      cases parts with
      | nil => simp [joinWith_singleton]
      | cons second rest =>
          have hspace : isWhiteSpace ' ' := rfl
          rw [joinWith_cons_cons, List.append_assoc, List.singleton_append,
            List.splitOnP_append_cons _ _ hspace, ih (by simp)]
          rfl

theorem words_joinWith (parts : List Text) : words (joinWith [' '] parts) = parts.flatMap words := by
  by_cases hparts : parts = []
  · rw [hparts]
    rfl
  · rw [words, splitOnP_joinWith hparts, List.filter_flatMap]
    rfl

@[simp] theorem words_collapse (text : Text) : words (collapse text) = words text := by
  have hwords : ∀ word ∈ words text, words word = [word] := fun word hword =>
    (isWord_of_mem_words hword).words
  rw [collapse, words_joinWith, List.flatMap_congr hwords, List.flatMap_singleton']

def ink (text : Text) : Text := text.filter (!isWhiteSpace ·)

theorem flatten_words (text : Text) : (words text).flatten = ink text := by
  rw [words, List.flatten_filter_not_isEmpty, flatten_splitOnP]
  rfl

/-- White space stands behind the first `count` characters of the ink. -/
def HasGap (text : Text) (count : Nat) : Prop :=
  ∃ front gap rest, text = front ++ gap :: rest ∧ isWhiteSpace gap ∧ (ink front).length = count

theorem HasGap.isSeam (hgap : HasGap text count) : IsSeam (words text) count := by
  obtain ⟨front, gap, rest, rfl, hwhite, rfl⟩ := hgap
  exact ⟨words front, words rest, words_append_cons hwhite front rest, by rw [flatten_words]⟩

theorem hasGap_of_isSeam (hseam : IsSeam (words text) count) (hpos : 0 < count)
    (hlt : count < (ink text).length) : HasGap text count := by
  rw [← flatten_words] at hlt
  obtain ⟨before, after, hwords, rfl⟩ := hseam
  rw [hwords, List.flatten_append, List.length_append] at hlt
  obtain ⟨fronts, rests, hpieces, rfl, rfl⟩ := List.filter_eq_append_iff.mp hwords
  have hfronts : fronts ≠ [] := by
    rintro rfl
    simp at hpos
  have hrests : rests ≠ [] := by
    rintro rfl
    simp at hlt
  obtain ⟨front, gap, rest, rfl, hgap, rfl, -⟩ :=
    exists_of_splitOnP_eq_append hpieces hfronts hrests
  exact ⟨front, gap, rest, rfl, hgap, by rw [← flatten_words]; rfl⟩

end Text

end MismatchReport
