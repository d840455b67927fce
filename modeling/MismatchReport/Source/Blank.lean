import MismatchReport.Text.Basic

/-!
# Blank characters

The characters that a scanner of source text skips: those within a line and those that end one.
The class differs from the Unicode property: it has the zero-width space and the byte order mark.
-/

namespace MismatchReport.Source

def isInlineBlank (char : Char) : Bool :=
  let code := char.toNat
  code == 0x20 || code == 0x09 || code == 0x0B || code == 0x0C || code == 0xA0 ||
    code == 0x85 || code == 0x1680 || (0x2000 ≤ code && code ≤ 0x200B) || code == 0x202F ||
    code == 0x205F || code == 0x3000 || code == 0xFEFF

def isLineBreak (char : Char) : Bool :=
  char == '\n' || char == '\r' || char == '\u2028' || char == '\u2029'

def isBlank (char : Char) : Bool := isInlineBlank char || isLineBreak char

def leadingBlanks (text : Text) : Nat := (text.takeWhile isBlank).length

end MismatchReport.Source
