import MismatchReport.Text.Basic

/-!
# White space

The Unicode property `White_Space`, and the words that it separates.
-/

namespace MismatchReport.Text

def isWhiteSpace (char : Char) : Bool :=
  let code := char.toNat
  (0x09 ≤ code && code ≤ 0x0D) || code == 0x20 || code == 0x85 || code == 0xA0 ||
    code == 0x1680 || (0x2000 ≤ code && code ≤ 0x200A) || code == 0x2028 || code == 0x2029 ||
    code == 0x202F || code == 0x205F || code == 0x3000

def words (text : Text) : List Text := (text.splitOnP isWhiteSpace).filter (!·.isEmpty)

/-- The words of a text with single spaces between them. -/
def collapse (text : Text) : Text := joinWith [' '] (words text)

def trim (text : Text) : Text := trimEnd isWhiteSpace (text.dropWhile isWhiteSpace)

example : collapse "  Map<\r\n\tK, \u3000V>\n" = "Map< K, V>" := by decide

end MismatchReport.Text
