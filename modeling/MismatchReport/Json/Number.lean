import MismatchReport.Text.Decimal

/-!
# Numbers in JSON

A number is kept as it is written.  It may denote a natural number, and it may be too large for
the binary floating point of 64 bits.
-/

namespace MismatchReport.Json

structure Number where
  negative : Bool := false
  whole : Nat
  fraction : Option Text := none
  exponent : Option Int := none
  deriving DecidableEq, Repr

namespace Number

def ofNat (value : Nat) : Number := { whole := value }

def toNat? (number : Number) : Option Nat :=
  match number with
  | ⟨false, whole, none, none⟩ => some whole
  | _ => none

@[simp] theorem toNat?_ofNat (value : Nat) : (ofNat value).toNat? = some value := rfl

def appendDigits (value : Nat) : Text → Nat × Text
  | [] => (value, [])
  | digit :: rest =>
      let longer := 10 * value + Text.digitValue digit
      if longer < UInt64.size then appendDigits longer rest else (value, digit :: rest)

/-- The digits of a number that fit in 64 bits, and the power of ten that they count.  Digits left
before the point add to the power, those left behind it do not count. -/
def leading (number : Number) : Nat × Int :=
  let fraction := number.fraction.getD []
  let (value, skipped) := appendDigits 0 (Text.ofNat number.whole)
  let (value, ignored) := appendDigits value fraction
  (value, number.exponent.getD 0 + skipped.length - ((fraction.length - ignored.length : Nat) : Int))

/-- The nearest value of 53 significant bits; of two the one whose last of them is even. -/
def roundToDouble (value : Nat) : Nat :=
  let unit := Nat.pow 2 (value.log2 + 1 - 53)
  let lower := value / unit
  let rest := value % unit
  (if unit < 2 * rest ∨ (unit = 2 * rest ∧ lower % 2 = 1) then lower + 1 else lower) * unit

def largestPower : Nat := 308

/-- The least value that does not round to a finite double: half a step above the largest one. -/
def overflowLimit : Nat := Nat.pow 2 1024 - Nat.pow 2 970

/-- Whether the magnitude is finite as a double, which is the product of two rounded factors: the
leading digits and their power of ten.  Near the limit it can differ from the nearest double. -/
def isFinite (number : Number) : Bool :=
  match number.leading with
  | (_, .negSucc _) => true
  | (digits, .ofNat power) =>
      digits = 0 ∨ (power ≤ largestPower ∧
        roundToDouble digits * roundToDouble (Nat.pow 10 power) < overflowLimit)

example : leading ⟨false, 18446744073709551619, some "04", none⟩ = (18446744073709551610, 0) := by
  decide +kernel
example : isFinite ⟨false, 179769313486231584, none, some 291⟩ = true := by decide +kernel
example : isFinite ⟨false, 17976931348623158, none, some 292⟩ = false := by decide +kernel

def readWhole? (text : Text) : Option (Nat × Text) :=
  match text.span Char.isDigit with
  | ([], _) => none
  | ('0' :: _ :: _, _) => none
  | (digits, rest) => some (Text.natOfDigits digits, rest)

def readFraction? : Text → Option (Option Text × Text)
  | '.' :: text =>
      match text.span Char.isDigit with
      | ([], _) => none
      | (digits, rest) => some (some digits, rest)
  | text => some (none, text)

def readSign : Text → Bool × Text
  | '-' :: rest => (true, rest)
  | '+' :: rest => (false, rest)
  | text => (false, text)

def readExponent? (text : Text) : Option (Option Int × Text) :=
  match text with
  | 'e' :: text | 'E' :: text =>
      let (negative, text) := readSign text
      match text.span Char.isDigit with
      | ([], _) => none
      | (digits, rest) =>
          let value : Int := Text.natOfDigits digits
          some (some (if negative then -value else value), rest)
  | text => some (none, text)

def read? (text : Text) : Option (Number × Text) := do
  let (negative, text) := match text with
    | '-' :: rest => (true, rest)
    | text => (false, text)
  let (whole, text) ← readWhole? text
  let (fraction, text) ← readFraction? text
  let (exponent, text) ← readExponent? text
  return (⟨negative, whole, fraction, exponent⟩, text)

example : read? "-0.50E+3]" = some (⟨true, 0, some "50", some 3⟩, [']']) := by decide
example : read? "01" = none ∧ read? "1." = none ∧ read? "+1" = none := by decide

def writeInt : Int → Text
  | .ofNat value => Text.ofNat value
  | .negSucc value => '-' :: Text.ofNat (value + 1)

def write (number : Number) : Text :=
  (if number.negative then ['-'] else []) ++ Text.ofNat number.whole ++
    ((number.fraction.map ('.' :: ·)).getD []) ++
    ((number.exponent.map fun exponent => 'e' :: writeInt exponent).getD [])

end Number

end MismatchReport.Json
