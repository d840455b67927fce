import Mathlib.Data.List.Induction
import Mathlib.Data.List.TakeDrop
import MismatchReport.Proofs.Text.Joining
import MismatchReport.Text.Decimal

/-!
# Decimal digits

The digits of a natural number, read back as the number.  Zeros in front of the digits and a plus
sign in front of those do not change what is read.
-/

namespace MismatchReport.Text

theorem ofNat_ne_nil (value : Nat) : ofNat value ≠ [] := Nat.toDigits_ne_nil

theorem isDigit_of_mem_ofNat {value : Nat} {char : Char} (hchar : char ∈ ofNat value) :
    char.isDigit :=
  Nat.isDigit_of_mem_toDigits (by omega) (by omega) hchar

theorem not_mem_ofNat {char : Char} (hchar : char < ' ') (value : Nat) : char ∉ ofNat value := by
  intro hmem
  have hdigit := isDigit_of_mem_ofNat hmem
  simp only [Char.isDigit, ge_iff_le, Bool.and_eq_true, decide_eq_true_eq] at hdigit
  exact absurd (UInt32.lt_of_le_of_lt hdigit.1 hchar) (by decide)

@[simp] theorem natOfDigits_ofNat (value : Nat) : natOfDigits (ofNat value) = value := by
  have hdigits := Nat.ofDigitChars_ten_toDigits (n := value)
  rwa [Nat.ofDigitChars_eq_foldl] at hdigits

theorem head?_ofNat_ne_zero {value : Nat} (hvalue : 0 < value) :
    (ofNat value).head? ≠ some '0' := by
  induction value using Nat.strongRecOn with
  | ind value ih =>
      rcases Nat.lt_or_ge value 10 with hsmall | hlarge
      · have hdigit : ∀ digit < 10, 0 < digit → Nat.digitChar digit ≠ '0' := by decide
        rw [ofNat, Nat.toDigits_of_lt_base hsmall]
        simpa using hdigit value hsmall hvalue
      · have hfront := ih (value / 10) (by omega) (by omega)
        rw [ofNat, Nat.toDigits_of_base_le (by omega) hlarge]
        cases hdigits : Nat.toDigits 10 (value / 10) with
        | nil => exact absurd hdigits Nat.toDigits_ne_nil
        | cons digit digits => simpa [ofNat, hdigits] using hfront

theorem span_isDigit_ofNat_append (value : Nat) {rest : Text}
    (hrest : ∀ char ∈ rest.head?, ¬ char.isDigit) :
    (ofNat value ++ rest).span Char.isDigit = (ofNat value, rest) := by
  have hdigits : ∀ char ∈ ofNat value, char.isDigit := fun _ => isDigit_of_mem_ofNat
  obtain ⟨htake, hdrop⟩ := takeWhile_append_of_head hdigits hrest
  rw [List.span_eq_takeWhile_dropWhile, htake, hdrop]

theorem natOfDigits_concat (digits : Text) (digit : Char) :
    natOfDigits (digits ++ [digit]) = 10 * natOfDigits digits + digitValue digit := by
  simp [natOfDigits]

theorem toNat_of_isDigit {char : Char} (hdigit : char.isDigit) :
    48 ≤ char.toNat ∧ char.toNat ≤ 57 :=
  Char.isDigit_iff_toNat.mp hdigit

theorem digitValue_add {char : Char} (hdigit : char.isDigit) : digitValue char + 48 = char.toNat :=
  Nat.sub_add_cancel (toNat_of_isDigit hdigit).1

theorem digitValue_lt {char : Char} (hdigit : char.isDigit) : digitValue char < 10 := by
  have hvalue := digitValue_add hdigit
  have hrange := toNat_of_isDigit hdigit
  omega

theorem digitChar_digitValue {char : Char} (hdigit : char.isDigit) :
    (digitValue char).digitChar = char := by
  have hdigits : ∀ value < 10, (Nat.digitChar value).toNat = value + 48 := by decide
  rw [← Char.toNat_inj, hdigits _ (digitValue_lt hdigit), digitValue_add hdigit]

theorem exists_eq_zeros_append {digits : Text} (hempty : digits ≠ [])
    (hdigits : ∀ char ∈ digits, char.isDigit) :
    ∃ zeros : Text, (∀ char ∈ zeros, char = '0') ∧
      digits = zeros ++ ofNat (natOfDigits digits) := by
  induction digits using List.reverseRecOn with
  | nil => exact absurd rfl hempty
  | append_singleton front digit ih =>
      have hdigit : digit.isDigit := hdigits digit (by simp)
      have hsmall := digitValue_lt hdigit
      have hchar := digitChar_digitValue hdigit
      have hone : ofNat (digitValue digit) = [digit] := by
        rw [ofNat, Nat.toDigits_of_lt_base hsmall, hchar]
      by_cases hfront : front = []
      · exact ⟨[], by simp, by simp [hfront, natOfDigits, hone]⟩
      · obtain ⟨zeros, hzeros, heq⟩ := ih hfront fun char hmem => hdigits char (by simp [hmem])
        rw [natOfDigits_concat]
        -- In front of the last digit there are only zeros, or the digits of a number above zero.
        rcases Nat.eq_zero_or_pos (natOfDigits front) with hvalue | hvalue
        · refine ⟨front, ?_, by rw [hvalue, Nat.mul_zero, Nat.zero_add, hone]⟩
          rw [heq, hvalue]
          exact List.forall_mem_append.mpr ⟨hzeros, List.forall_mem_singleton.mpr rfl⟩
        · refine ⟨zeros, hzeros, ?_⟩
          have hdiv : (10 * natOfDigits front + digitValue digit) / 10 = natOfDigits front := by
            omega
          have hmod : (10 * natOfDigits front + digitValue digit) % 10 = digitValue digit := by
            omega
          rw [ofNat, Nat.toDigits_of_base_le (by omega) (by omega), hdiv, hmod, hchar,
            ← List.append_assoc, ← ofNat, ← heq]

theorem isDigit_of_mem_zeros_append {zeros : Text} (hzeros : ∀ char ∈ zeros, char = '0')
    {value : Nat} {char : Char} (hchar : char ∈ zeros ++ ofNat value) : char.isDigit := by
  rcases List.mem_append.mp hchar with hzero | hdigit
  · rw [hzeros char hzero]
    rfl
  · exact isDigit_of_mem_ofNat hdigit

theorem natOfDigits_zeros_append {zeros : Text} (hzeros : ∀ char ∈ zeros, char = '0')
    (digits : Text) : natOfDigits (zeros ++ digits) = natOfDigits digits := by
  induction zeros with
  | nil => rfl
  | cons zero zeros ih =>
      obtain rfl := hzeros zero (by simp)
      exact ih fun char hchar => hzeros char (by simp [hchar])

/-- The digits of the number behind any zeros, and a plus sign in front or none. -/
def SpellsNumber (text : Text) (value : Nat) : Prop :=
  ∃ sign zeros : Text, (sign = [] ∨ sign = ['+']) ∧ (∀ char ∈ zeros, char = '0') ∧
    text = sign ++ (zeros ++ ofNat value)

theorem readNat?_eq_some_iff {text : Text} {value : Nat} :
    readNat? text = some value ↔
      ∃ zeros : Text, (∀ char ∈ zeros, char = '0') ∧ text = zeros ++ ofNat value := by
  constructor
  · intro hread
    unfold readNat? at hread
    split at hread
    · rename_i hdigits
      simp only [Bool.and_eq_true, Bool.not_eq_true', List.isEmpty_eq_false_iff,
        List.all_eq_true] at hdigits
      rw [← Option.some.inj hread]
      exact exists_eq_zeros_append hdigits.1 hdigits.2
    · cases hread
  · rintro ⟨zeros, hzeros, rfl⟩
    have hempty : (zeros ++ ofNat value).isEmpty = false := by simp [ofNat_ne_nil]
    have hdigits : (zeros ++ ofNat value).all Char.isDigit :=
      List.all_eq_true.mpr fun char => isDigit_of_mem_zeros_append hzeros
    rw [readNat?, hempty, hdigits, natOfDigits_zeros_append hzeros, natOfDigits_ofNat]
    rfl

theorem readSize?_eq_some_iff {text : Text} {value : Nat} :
    readSize? text = some value ↔ SpellsNumber text value ∧ value < UInt64.size := by
  simp only [readSize?, Option.filter_eq_some_iff, decide_eq_true_eq, readNat?_eq_some_iff]
  refine and_congr_left fun _ => ?_
  split
  · rename_i digits
    constructor
    · rintro ⟨zeros, hzeros, rfl⟩
      exact ⟨['+'], zeros, .inr rfl, hzeros, rfl⟩
    · rintro ⟨sign, zeros, rfl | rfl, hzeros, heq⟩
      · have hplus : '+' ∈ zeros ++ ofNat value := heq ▸ List.mem_cons_self
        exact absurd (isDigit_of_mem_zeros_append hzeros hplus) (by decide)
      · exact ⟨zeros, hzeros, (List.cons.inj heq).2⟩
  · rename_i hplus
    constructor
    · rintro ⟨zeros, hzeros, rfl⟩
      exact ⟨[], zeros, .inl rfl, hzeros, rfl⟩
    · rintro ⟨sign, zeros, rfl | rfl, hzeros, heq⟩
      · exact ⟨zeros, hzeros, heq⟩
      · exact absurd heq (hplus _)

end MismatchReport.Text
