import MismatchReport.Text.Basic

/-!
# Decimal numbers

Natural numbers in decimal digits, and the reading of a machine size as it stands in flags and
settings.
-/

namespace MismatchReport.Text

def ofNat (value : Nat) : Text := Nat.toDigits 10 value

def digitValue (char : Char) : Nat := char.toNat - '0'.toNat

def natOfDigits (digits : Text) : Nat :=
  digits.foldl (fun value digit => 10 * value + digitValue digit) 0

def readNat? (text : Text) : Option Nat :=
  if !text.isEmpty && text.all Char.isDigit then some (natOfDigits text) else none

/-- Digits after an optional plus sign, for a value of at most 64 bits. -/
def readSize? (text : Text) : Option Nat :=
  let digits := match text with
    | '+' :: digits => digits
    | digits => digits
  (readNat? digits).filter (· < UInt64.size)

example : readSize? "+007" = some 7 := by decide
example : readSize? "18446744073709551615" = some (UInt64.size - 1) := by decide
example : readSize? "18446744073709551616" = none ∧ readSize? "+" = none ∧ readSize? "-1" = none := by
  decide

end MismatchReport.Text
