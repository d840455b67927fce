import Mathlib.Data.List.Basic
import MismatchReport.Proofs.Text.Joining
import MismatchReport.Text.WhiteSpace

/-!
# Pieces of texts

How a list falls into pieces, and where the characters of a piece of a text come from.
-/

namespace MismatchReport

section Pieces

variable {α : Type} {separates : α → Bool} {item : α} {items : List α}

theorem splitOnP_cons_of_separates (hitem : separates item) (items : List α) :
    (item :: items).splitOnP separates = [] :: items.splitOnP separates := by
  rw [List.splitOnP_cons_eq_if_modifyHead, if_pos hitem]

theorem splitOnP_cons_of_not_separates {piece : List α} {pieces : List (List α)}
    (hitem : ¬ separates item) (hpieces : items.splitOnP separates = piece :: pieces) :
    (item :: items).splitOnP separates = (item :: piece) :: pieces := by
  rw [List.splitOnP_cons_eq_if_modifyHead, if_neg hitem, hpieces, List.modifyHead_cons]

theorem exists_splitOnP_cons (hitem : ¬ separates item) (items : List α) :
    ∃ piece pieces, items.splitOnP separates = piece :: pieces ∧
      (item :: items).splitOnP separates = (item :: piece) :: pieces := by
  obtain ⟨piece, pieces, hpieces⟩ :=
    List.exists_cons_of_ne_nil (List.splitOnP_ne_nil separates items)
  exact ⟨piece, pieces, hpieces, splitOnP_cons_of_not_separates hitem hpieces⟩

theorem splitOnP_eq_singleton_nil_iff : items.splitOnP separates = [[]] ↔ items = [] := by
  constructor
  · intro hsplit
    cases items with
    | nil => rfl
    | cons item rest =>
        by_cases hitem : separates item
        · rw [splitOnP_cons_of_separates hitem] at hsplit
          exact absurd (List.cons.inj hsplit).2 (List.splitOnP_ne_nil separates rest)
        · obtain ⟨piece, pieces, -, hcons⟩ := exists_splitOnP_cons hitem rest
          simp [hcons] at hsplit
  · rintro rfl
    exact List.splitOnP_nil

theorem exists_of_splitOnP_eq_append {before after : List (List α)}
    (hsplit : items.splitOnP separates = before ++ after) (hbefore : before ≠ [])
    (hafter : after ≠ []) :
    ∃ front separator rest, items = front ++ separator :: rest ∧ separates separator ∧
      front.splitOnP separates = before ∧ rest.splitOnP separates = after := by
  induction items generalizing before with
  | nil =>
      rw [List.splitOnP_nil, List.singleton_eq_append_iff] at hsplit
      simp [hbefore, hafter] at hsplit
  | cons item items ih =>
      obtain ⟨head, before, rfl⟩ := List.exists_cons_of_ne_nil hbefore
      by_cases hitem : separates item
      · rw [splitOnP_cons_of_separates hitem] at hsplit
        obtain ⟨rfl, hrest⟩ := List.cons.inj hsplit
        by_cases hempty : before = []
        · exact ⟨[], item, items, rfl, hitem, by simp [hempty], by simpa [hempty] using hrest⟩
        · obtain ⟨front, separator, rest, rfl, hseparator, hfront, hafter⟩ := ih hrest hempty
          refine ⟨item :: front, separator, rest, rfl, hseparator, ?_, hafter⟩
          rw [splitOnP_cons_of_separates hitem, hfront]
      · obtain ⟨piece, pieces, hpieces, hcons⟩ := exists_splitOnP_cons hitem items
        rw [hcons] at hsplit
        obtain ⟨rfl, rfl⟩ := List.cons.inj hsplit
        have hrest : items.splitOnP separates = (piece :: before) ++ after := hpieces
        obtain ⟨front, separator, rest, rfl, hseparator, hfront, hafter⟩ := ih hrest (by simp)
        exact ⟨item :: front, separator, rest, rfl, hseparator,
          splitOnP_cons_of_not_separates hitem hfront, hafter⟩

theorem exists_of_splitOnP_eq_nil_cons {pieces : List (List α)}
    (hsplit : items.splitOnP separates = [] :: pieces) (hpieces : pieces ≠ []) :
    ∃ separator rest, items = separator :: rest ∧ separates separator ∧
      rest.splitOnP separates = pieces := by
  have happend : items.splitOnP separates = [[]] ++ pieces := hsplit
  obtain ⟨front, separator, rest, rfl, hseparator, hfront, hrest⟩ :=
    exists_of_splitOnP_eq_append happend (by simp) hpieces
  obtain rfl := splitOnP_eq_singleton_nil_iff.mp hfront
  exact ⟨separator, rest, rfl, hseparator, hrest⟩

theorem flatten_splitOnP (separates : α → Bool) (items : List α) :
    (items.splitOnP separates).flatten = items.filter (!separates ·) := by
  induction items with
  | nil => rw [List.splitOnP_nil]; rfl
  | cons item items ih =>
      by_cases hitem : separates item
      · rw [splitOnP_cons_of_separates hitem]
        simpa [hitem] using ih
      · obtain ⟨piece, pieces, hpieces, hcons⟩ := exists_splitOnP_cons hitem items
        rw [hpieces] at ih
        rw [hcons]
        simpa [hitem] using ih

end Pieces

namespace Text

variable {text piece : Text} {char : Char}

theorem mem_of_mem_splitOnP {separates : Char → Bool} (hpiece : piece ∈ text.splitOnP separates)
    (hchar : char ∈ piece) : char ∈ text ∧ ¬ separates char := by
  induction text generalizing piece with
  | nil =>
      rw [List.splitOnP_nil, List.mem_singleton] at hpiece
      rw [hpiece] at hchar
      cases hchar
  | cons first rest ih =>
      by_cases hfirst : separates first
      · rw [splitOnP_cons_of_separates hfirst] at hpiece
        rcases List.mem_cons.mp hpiece with rfl | hpiece
        · cases hchar
        · exact (ih hpiece hchar).imp_left (List.mem_cons_of_mem first)
      · obtain ⟨head, pieces, hrest, hcons⟩ := exists_splitOnP_cons hfirst rest
        rw [hrest] at ih
        rw [hcons] at hpiece
        rcases List.mem_cons.mp hpiece with rfl | hpiece
        · rcases List.mem_cons.mp hchar with rfl | hchar
          · exact ⟨List.mem_cons_self, hfirst⟩
          · exact (ih List.mem_cons_self hchar).imp_left (List.mem_cons_of_mem first)
        · exact (ih (List.mem_cons_of_mem head hpiece) hchar).imp_left (List.mem_cons_of_mem first)

theorem mem_of_mem_beforeEnding? {ending front : Text}
    (hfront : beforeEnding? ending text = some front) (hchar : char ∈ front) : char ∈ text := by
  rw [← List.isSuffixOf?_eq_some_iff_append_eq.mp hfront]
  exact List.mem_append_left ending hchar

theorem isSome_beforeEnding?_iff {ending : Text} :
    (beforeEnding? ending text).isSome ↔ ending <:+ text := by
  rw [Option.isSome_iff_exists]
  exact exists_congr fun _ => List.isSuffixOf?_eq_some_iff_append_eq

theorem mem_of_mem_printedLines (hpiece : piece ∈ printedLines text) (hchar : char ∈ piece) :
    char ∈ text ∧ char ≠ '\n' := by
  have hsplit : ∀ whole ∈ text.splitOn '\n', char ∈ whole → char ∈ text ∧ char ≠ '\n' := by
    intro whole hwhole hmem
    simpa using mem_of_mem_splitOnP hwhole hmem
  rcases List.mem_append.mp hpiece with hended | hlast
  · obtain ⟨whole, hwhole, rfl⟩ := List.mem_map.mp hended
    refine hsplit whole (List.dropLast_subset _ hwhole) ?_
    cases hending : beforeEnding? ['\r'] whole with
    | none => simpa [hending] using hchar
    | some front => exact mem_of_mem_beforeEnding? hending (by simpa [hending] using hchar)
  · rw [Option.mem_toList, Option.filter_eq_some_iff] at hlast
    exact hsplit piece (List.mem_of_getLast? hlast.1) hchar

theorem printedLines_eq_splitOn (htext : text ≠ []) (hlast : text.getLast? ≠ some '\n')
    (hreturn : ¬ ['\r', '\n'] <:+: text) : printedLines text = text.splitOn '\n' := by
  obtain ⟨front, last, hsplit⟩ := (List.eq_nil_or_concat' (text.splitOn '\n')).resolve_left
    (List.splitOn_ne_nil '\n' text)
  have hjoined : text = front.flatMap (· ++ ['\n']) ++ last := by
    rw [← joinWith_concat, ← hsplit]
    exact (List.intercalate_splitOn '\n').symm
  have hending : last ≠ [] := by
    rintro rfl
    rcases List.eq_nil_or_concat' front with rfl | ⟨before, piece, rfl⟩
    · exact htext hjoined
    · refine hlast ?_
      rw [hjoined]
      simp
  have hpieces : ∀ piece ∈ front, (beforeEnding? ['\r'] piece).getD piece = piece := by
    intro piece hpiece
    have hnone : beforeEnding? ['\r'] piece = none := by
      rw [← Option.not_isSome_iff_eq_none, isSome_beforeEnding?_iff]
      rintro ⟨start, rfl⟩
      obtain ⟨before, after, rfl⟩ := List.append_of_mem hpiece
      refine hreturn ⟨before.flatMap (· ++ ['\n']) ++ start,
        after.flatMap (· ++ ['\n']) ++ last, ?_⟩
      rw [hjoined]
      simp
    rw [hnone, Option.getD_none]
  rw [printedLines, hsplit]
  simp [List.map_congr_left hpieces, hending]

theorem mem_collapse (hchar : char ∈ collapse text) :
    char = ' ' ∨ char ∈ text ∧ ¬ isWhiteSpace char := by
  rcases mem_joinWith hchar with hspace | ⟨word, hword, hmem⟩
  · exact .inl (List.mem_singleton.mp hspace)
  · exact .inr (mem_of_mem_splitOnP (List.mem_filter.mp hword).1 hmem)

def isPrintable (text : Text) : Bool := text.all fun char => ' ' ≤ char

theorem not_mem_of_isPrintable (hchar : char < ' ') (htext : text.isPrintable) : char ∉ text := by
  intro hmem
  have hle := List.all_eq_true.mp htext char hmem
  exact absurd (of_decide_eq_true hle) (Char.not_le.mpr hchar)

theorem isPrintable_replicate {printable : Char} (hprintable : ' ' ≤ printable) (count : Nat) :
    isPrintable (List.replicate count printable) := by
  simp [isPrintable, hprintable]

theorem not_mem_spaces (hchar : char < ' ') (count : Nat) : char ∉ spaces count :=
  not_mem_of_isPrintable hchar (isPrintable_replicate (Char.le_refl _) count)

theorem not_mem_joinWith {separator : Text} {parts : List Text} (hseparator : char ∉ separator)
    (hparts : ∀ part ∈ parts, char ∉ part) : char ∉ joinWith separator parts := by
  intro hmem
  rcases mem_joinWith hmem with hmem | ⟨part, hpart, hmem⟩
  · exact hseparator hmem
  · exact hparts part hpart hmem

theorem not_mem_collapse (hchar : char < ' ') (htext : char ∉ text) : char ∉ collapse text := by
  intro hmem
  rcases mem_collapse hmem with rfl | ⟨hmem, -⟩
  · exact absurd hchar (by decide)
  · exact htext hmem

end Text

end MismatchReport
