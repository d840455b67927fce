import Mathlib.Data.List.DropRight
import MismatchReport.Proofs.Text.Joining
import MismatchReport.Text.WhiteSpace

/-!
# Trimmed texts

A text without the characters of a class at its end, and one without white space at either end.
-/

namespace MismatchReport.Text

variable {drops : Char → Bool} {char : Char}

theorem trimEnd_isPrefix (drops : Char → Bool) (text : Text) : trimEnd drops text <+: text :=
  List.rdropWhile_prefix drops text

theorem exists_eq_trimEnd_append (drops : Char → Bool) (text : Text) :
    ∃ ending, text = trimEnd drops text ++ ending ∧ ∀ char ∈ ending, drops char :=
  ⟨text.rtakeWhile drops, List.rdropWhile_append_rtakeWhile.symm,
    fun _ hchar => List.mem_rtakeWhile_imp hchar⟩

theorem trimEnd_append {content ending : Text} (hcontent : ∀ char ∈ content, ¬ drops char)
    (hending : ∀ char ∈ ending, drops char) : trimEnd drops (content ++ ending) = content := by
  have hkept : List.dropWhile drops content.reverse = content.reverse := by
    rw [List.dropWhile_eq_self_iff]
    intro hlength
    exact hcontent _ (List.mem_reverse.mp (List.getElem_mem hlength))
  rw [trimEnd, List.reverse_append, List.dropWhile_append_of_pos, hkept, List.reverse_reverse]
  intro char hchar
  exact hending char (List.mem_reverse.mp hchar)

theorem trimEnd_append_cons (hchar : ¬ drops char) (front rest : Text) :
    trimEnd drops (front ++ char :: rest) = front ++ char :: trimEnd drops rest := by
  have hkept : List.dropWhile drops (rest.reverse ++ char :: front.reverse) =
      rest.reverse.dropWhile drops ++ char :: front.reverse := by
    rw [List.dropWhile_append]
    split
    · rename_i hempty
      rw [List.isEmpty_iff.mp hempty, List.dropWhile_cons_of_neg hchar, List.nil_append]
    · rfl
  simp [trimEnd, hkept]

theorem exists_eq_append_trim_append (text : Text) :
    ∃ before after, text = before ++ trim text ++ after ∧
      (∀ char ∈ before, isWhiteSpace char) ∧ ∀ char ∈ after, isWhiteSpace char := by
  obtain ⟨after, hafter, hdropped⟩ :=
    exists_eq_trimEnd_append isWhiteSpace (text.dropWhile isWhiteSpace)
  refine ⟨text.takeWhile isWhiteSpace, after, ?_, fun char => List.mem_takeWhile_imp, hdropped⟩
  rw [List.append_assoc, trim, ← hafter, List.takeWhile_append_dropWhile]

theorem trim_append_append {before content after : Text} (hempty : content ≠ [])
    (hbefore : ∀ char ∈ before, isWhiteSpace char)
    (hcontent : ∀ char ∈ content, ¬ isWhiteSpace char)
    (hafter : ∀ char ∈ after, isWhiteSpace char) : trim (before ++ content ++ after) = content := by
  have hhead : ∀ char ∈ (content ++ after).head?, ¬ isWhiteSpace char := by
    rw [List.head?_append_of_ne_nil content hempty]
    exact fun char hchar => hcontent char (List.mem_of_head? hchar)
  obtain ⟨-, hdropped⟩ := takeWhile_append_of_head hbefore hhead
  rw [trim, List.append_assoc, hdropped, trimEnd_append hcontent hafter]

end MismatchReport.Text
