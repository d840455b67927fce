import MismatchReport.Json.Number
import MismatchReport.Proofs.Text.Decimal

/-!
# Natural numbers as JSON

A natural number written and read again, and its magnitude as a double.
-/

namespace MismatchReport

namespace Json.Number

theorem write_ofNat (value : Nat) : write (ofNat value) = Text.ofNat value := by
  simp [write, ofNat]

theorem readWhole?_ofNat_append (value : Nat) {rest : Text}
    (hrest : ∀ char ∈ rest.head?, ¬ char.isDigit) :
    readWhole? (Text.ofNat value ++ rest) = some (value, rest) := by
  rw [readWhole?, Text.span_isDigit_ofNat_append value hrest]
  split
  case h_1 heq => simp [Text.ofNat_ne_nil] at heq
  case h_2 heq =>
      obtain ⟨hdigits, -⟩ := Prod.mk.inj heq
      rcases Nat.eq_zero_or_pos value with rfl | hpos
      · simp [Text.ofNat] at hdigits
      · exact absurd (by rw [hdigits]; rfl) (Text.head?_ofNat_ne_zero hpos)
  case h_3 heq =>
      obtain ⟨rfl, rfl⟩ := Prod.mk.inj heq
      simp

def Ends (rest : Text) : Prop :=
  ∀ char ∈ rest.head?, char = ',' ∨ char = ']' ∨ char = '\x7d'

theorem Ends.not_isDigit {rest : Text} (hrest : Ends rest) :
    ∀ char ∈ rest.head?, ¬ char.isDigit := by
  intro char hchar
  rcases hrest char hchar with rfl | rfl | rfl <;> decide

theorem Ends.readFraction? {rest : Text} (hrest : Ends rest) :
    readFraction? rest = some (none, rest) := by
  unfold Number.readFraction?
  split
  · exact absurd (hrest '.' rfl) (by decide)
  · rfl

theorem Ends.readExponent? {rest : Text} (hrest : Ends rest) :
    readExponent? rest = some (none, rest) := by
  unfold Number.readExponent?
  split
  · exact absurd (hrest 'e' rfl) (by decide)
  · exact absurd (hrest 'E' rfl) (by decide)
  · rfl

theorem read?_ofNat_append (value : Nat) {rest : Text} (hrest : Ends rest) :
    read? (Text.ofNat value ++ rest) = some (ofNat value, rest) := by
  have hsign : ∀ text, Text.ofNat value ++ rest ≠ '-' :: text := by
    intro text heq
    cases hdigits : Text.ofNat value with
    | nil => exact Text.ofNat_ne_nil value hdigits
    | cons digit digits =>
        have hdigit : digit.isDigit :=
          Text.isDigit_of_mem_ofNat (hdigits ▸ List.mem_cons_self)
        obtain ⟨rfl, -⟩ : digit = '-' ∧ _ := by simpa [hdigits] using heq
        simp at hdigit
  rw [read?]
  · simp [readWhole?_ofNat_append value hrest.not_isDigit, hrest.readFraction?,
      hrest.readExponent?, ofNat]
  · exact hsign

theorem le_foldl_digits (value : Nat) (digits : Text) :
    value ≤ digits.foldl (fun value digit => 10 * value + Text.digitValue digit) value := by
  induction digits generalizing value with
  | nil => exact Nat.le_refl _
  | cons digit rest ih =>
      have hrest := ih (10 * value + Text.digitValue digit)
      rw [List.foldl_cons]
      omega

theorem appendDigits_of_lt {value : Nat} {digits : Text}
    (hsize : digits.foldl (fun value digit => 10 * value + Text.digitValue digit) value <
      UInt64.size) :
    appendDigits value digits =
      (digits.foldl (fun value digit => 10 * value + Text.digitValue digit) value, []) := by
  induction digits generalizing value with
  | nil => rfl
  | cons digit rest ih =>
      have hfirst := le_foldl_digits (10 * value + Text.digitValue digit) rest
      rw [List.foldl_cons] at hsize ⊢
      rw [appendDigits]
      simp only [if_pos (hfirst.trans_lt hsize), ih hsize]

theorem leading_ofNat {value : Nat} (hvalue : value < UInt64.size) :
    (ofNat value).leading = (value, 0) := by
  have hdigits := Text.natOfDigits_ofNat value
  rw [Text.natOfDigits] at hdigits
  simp [leading, ofNat, appendDigits_of_lt (hdigits.symm ▸ hvalue), hdigits, appendDigits]

theorem roundToDouble_of_lt {value : Nat} (hvalue : value < UInt32.size) :
    roundToDouble value = value := by
  have hbits : value.log2 + 1 - 53 = 0 := by
    rcases Nat.eq_zero_or_pos value with rfl | hpos
    · simp
    · have := (Nat.log2_lt (k := 32) hpos.ne').mpr hvalue
      omega
  simp [roundToDouble, hbits, Nat.mod_one]

theorem isFinite_ofNat {value : Nat} (hvalue : value < UInt32.size) :
    (ofNat value).isFinite := by
  have hlimit : UInt32.size ≤ overflowLimit := by decide +kernel
  have hone : roundToDouble 1 = 1 := roundToDouble_of_lt (by decide)
  rw [isFinite, leading_ofNat (hvalue.trans (by decide))]
  simp [largestPower, roundToDouble_of_lt hvalue, hone]
  omega

end Json.Number

end MismatchReport
