import Mathlib.Data.List.Find
import Mathlib.Data.List.Infix
import MismatchReport.Text.Basic

/-!
# Replacing several patterns

The occurrences of several patterns, replaced in one scan of a text.  Characters that no pattern
has cut the scan into independent ones.
-/

namespace MismatchReport.Text

/-- `text` with the occurrences of several patterns replaced in one scan, leftmost first.  Where
two of them begin, the first in the list counts.  The counter skips the characters of an occurrence
that has been replaced. -/
def replaceEach (patterns : List (Text × Text)) (text : Text) : Text :=
  scan 0 text
where
  scan : Nat → Text → Text
    | _, [] => []
    | skip + 1, _ :: rest => scan skip rest
    | 0, char :: rest =>
        match patterns.find? (·.1.isPrefixOf (char :: rest)) with
        | some (pattern, replacement) => replacement ++ scan (pattern.length - 1) rest
        | none => char :: scan 0 rest

example : replaceEach [("ab", "b"), ("b", "ab")] "abb" = "bab" := by decide

theorem replaceAll_eq_replaceEach (pattern replacement text : Text) :
    replaceAll pattern replacement text = replaceEach [(pattern, replacement)] text := by
  have hscan : ∀ skip, replaceAll.scan pattern replacement skip text =
      replaceEach.scan [(pattern, replacement)] skip text := by
    intro skip
    fun_induction replaceAll.scan pattern replacement skip text with
    | case1 => rw [replaceEach.scan]
    | case2 skip char rest ih => rw [replaceEach.scan, ih]
    | case3 char rest hstarts ih => simp [replaceEach.scan, hstarts, ih]
    | case4 char rest hstarts ih => simp [replaceEach.scan, hstarts, ih]
  exact hscan 0

variable {patterns : List (Text × Text)} {text : Text}

theorem scan_length (patterns : List (Text × Text)) (text : Text) :
    replaceEach.scan patterns text.length text = [] := by
  induction text with
  | nil => rw [replaceEach.scan]
  | cons char rest ih => rw [List.length_cons, replaceEach.scan, ih]

theorem replaceEach_cons_of_find? {char : Char} {rest pattern replacement : Text}
    (hfind : patterns.find? (·.1.isPrefixOf (char :: rest)) = some (pattern, replacement)) :
    replaceEach patterns (char :: rest) =
      replacement ++ replaceEach.scan patterns (pattern.length - 1) rest := by
  rw [replaceEach, replaceEach.scan, hfind]

theorem replaceEach_cons_of_none {char : Char} {rest : Text}
    (hpatterns : ∀ entry ∈ patterns, ¬ entry.1 <+: char :: rest) :
    replaceEach patterns (char :: rest) = char :: replaceEach patterns rest := by
  have hfind : patterns.find? (·.1.isPrefixOf (char :: rest)) = none := by
    simpa [List.find?_eq_none] using hpatterns
  rw [replaceEach, replaceEach.scan, hfind]
  rfl

theorem replaceEach_eq_self (hpatterns : ∀ entry ∈ patterns, ¬ entry.1 <:+: text) :
    replaceEach patterns text = text := by
  induction text with
  | nil => rfl
  | cons char rest ih =>
      rw [replaceEach_cons_of_none fun entry hentry hstarts =>
          hpatterns entry hentry hstarts.isInfix,
        ih fun entry hentry hoccurs => hpatterns entry hentry (List.infix_cons hoccurs)]

theorem replaceEach_self {pattern : Text} (hpattern : pattern ≠ []) (replacement : Text)
    (others : List (Text × Text)) :
    replaceEach ((pattern, replacement) :: others) pattern = replacement := by
  cases pattern with
  | nil => exact absurd rfl hpattern
  | cons char rest =>
      rw [replaceEach_cons_of_find? (List.find?_cons_of_pos (by simp)), List.length_cons,
        Nat.add_sub_cancel, scan_length, List.append_nil]

theorem replaceEach_cons_of_absent {pattern : Text} (hpattern : ¬ pattern <:+: text)
    (replacement : Text) :
    replaceEach ((pattern, replacement) :: patterns) text = replaceEach patterns text := by
  have hscan : ∀ skip, replaceEach.scan ((pattern, replacement) :: patterns) skip text =
      replaceEach.scan patterns skip text := by
    intro skip
    induction text generalizing skip with
    | nil => rw [replaceEach.scan, replaceEach.scan]
    | cons char rest ih =>
        have ih := ih fun hoccurs => hpattern (List.infix_cons hoccurs)
        have hstarts : ¬ pattern <+: char :: rest := fun hstarts => hpattern hstarts.isInfix
        cases skip with
        | zero => simp [replaceEach.scan, ih, hstarts]
        | succ skip => rw [replaceEach.scan, replaceEach.scan, ih]
  exact hscan 0

theorem prefix_append_cons_iff {pattern front rest : Text} {char : Char}
    (hchar : char ∉ pattern) :
    pattern <+: front ++ char :: rest ↔ pattern <+: front := by
  refine ⟨fun hstarts => ?_, fun hstarts => hstarts.trans (List.prefix_append _ _)⟩
  rcases Nat.lt_or_ge front.length pattern.length with hlt | hge
  · have hfront : front ++ [char] <+: pattern :=
      List.prefix_of_prefix_length_le ⟨rest, by simp⟩ hstarts (by simpa using Nat.succ_le_of_lt hlt)
    exact absurd (hfront.subset (by simp)) hchar
  · exact List.prefix_of_prefix_length_le hstarts (List.prefix_append _ _) hge

theorem find?_append_cons {char : Char} (hpatterns : ∀ entry ∈ patterns, char ∉ entry.1)
    (front rest : Text) :
    patterns.find? (·.1.isPrefixOf (front ++ char :: rest)) =
      patterns.find? (·.1.isPrefixOf front) := by
  refine List.find?_congr fun entry hentry => ?_
  rw [Bool.eq_iff_iff, List.isPrefixOf_iff_prefix, List.isPrefixOf_iff_prefix]
  exact prefix_append_cons_iff (hpatterns entry hentry)

theorem replaceEach_append_cons {char : Char}
    (hpatterns : ∀ entry ∈ patterns, entry.1 ≠ [] ∧ char ∉ entry.1) (front rest : Text) :
    replaceEach patterns (front ++ char :: rest) =
      replaceEach patterns front ++ char :: replaceEach patterns rest := by
  have hfind := find?_append_cons fun entry hentry => (hpatterns entry hentry).2
  have hscan : ∀ skip ≤ front.length, replaceEach.scan patterns skip (front ++ char :: rest) =
      replaceEach.scan patterns skip front ++ char :: replaceEach patterns rest := by
    intro skip hskip
    induction front generalizing skip with
    | nil =>
        obtain rfl : skip = 0 := by simpa using hskip
        refine replaceEach_cons_of_none fun entry hentry hstarts => ?_
        obtain ⟨hne, hchar⟩ := hpatterns entry hentry
        rw [← List.nil_append (char :: rest), prefix_append_cons_iff hchar] at hstarts
        exact hne (List.prefix_nil.mp hstarts)
    | cons first front ih =>
        cases skip with
        | succ skip =>
            have hrest := ih skip (by simpa using hskip)
            rw [List.cons_append, replaceEach.scan, replaceEach.scan, hrest]
        | zero =>
            have hfirst := hfind (first :: front) rest
            rw [List.cons_append] at hfirst ⊢
            rw [replaceEach.scan, replaceEach.scan, hfirst]
            cases hfound : patterns.find? (·.1.isPrefixOf (first :: front)) with
            | none =>
                have hrest := ih 0 (Nat.zero_le _)
                simp only [hrest, List.cons_append]
            | some entry =>
                have hstarts : entry.1 <+: first :: front := by
                  simpa using List.find?_some hfound
                have hlength : entry.1.length - 1 ≤ front.length := by
                  have := hstarts.length_le
                  simp at this
                  omega
                have hrest := ih _ hlength
                simp only [hrest, List.append_assoc]
  exact hscan 0 (Nat.zero_le _)

end MismatchReport.Text
