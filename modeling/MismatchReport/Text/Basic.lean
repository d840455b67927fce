/-!
# Texts

A text is a list of Unicode scalar values.  Widths count its characters, and offsets into it
count the bytes of its UTF-8 form.
-/

namespace MismatchReport

abbrev Text := List Char

instance : Coe String Text := ⟨String.toList⟩

namespace Text

def spaces (count : Nat) : Text := List.replicate count ' '

/-- No text has more bytes than this, and memory is taken to suffice for any that has no more. -/
def maxByteSize : Nat := 0x7FFFFFFFFFFFFFFF

/-- As many spaces, unless that is more than a text can have. -/
def spaces? (count : Nat) : Option Text :=
  if count ≤ maxByteSize then some (spaces count) else none

theorem spaces?_eq_some {count : Nat} (hcount : count < 0x8000000000000000) :
    spaces? count = some (spaces count) :=
  if_pos (Nat.le_pred_of_lt hcount)

theorem spaces?_eq_none_iff {count : Nat} :
    spaces? count = none ↔ 0x8000000000000000 ≤ count := by
  constructor
  · intro hnone
    refine Nat.le_of_not_lt fun hcount => ?_
    rw [spaces?_eq_some hcount] at hnone
    cases hnone
  · exact fun hcount => if_neg (Nat.not_le.mpr hcount)

def byteSize : Text → Nat
  | [] => 0
  | char :: rest => char.utf8Size + byteSize rest

def takeBytes : Nat → Text → Text
  | _, [] => []
  | budget, char :: rest =>
      if char.utf8Size ≤ budget then char :: takeBytes (budget - char.utf8Size) rest else []

theorem byteSize_append (left right : Text) :
    byteSize (left ++ right) = byteSize left + byteSize right := by
  induction left with
  | nil => simp [byteSize]
  | cons char left ih => simp [byteSize, ih, Nat.add_assoc]

def trimEnd (drops : Char → Bool) (text : Text) : Text :=
  (text.reverse.dropWhile drops).reverse

def beforeEnding? (ending text : Text) : Option Text := ending.isSuffixOf? text

/-- The pieces of a text between its line feeds: a carriage return before a line feed is dropped,
and nothing after the last line feed makes no piece. -/
def printedLines (text : Text) : List Text :=
  let pieces := text.splitOn '\n'
  let ended := pieces.dropLast.map fun piece => (beforeEnding? ['\r'] piece).getD piece
  ended ++ (pieces.getLast?.filter (!·.isEmpty)).toList

example : printedLines "a\r\n\nb\r" = [['a'], [], ['b', '\r']] := by decide
example : printedLines "a\n" = [['a']] ∧ printedLines [] = [] := by decide

def joinWith (separator : Text) (parts : List Text) : Text := separator.intercalate parts

def joinLines (lines : List Text) : Text := joinWith ['\n'] lines

/-- `text` with every occurrence of `pattern` replaced, leftmost first and without overlap.
The counter skips the characters of an occurrence that has been replaced. -/
def replaceAll (pattern replacement : Text) (text : Text) : Text :=
  scan 0 text
where
  scan : Nat → Text → Text
    | _, [] => []
    | skip + 1, _ :: rest => scan skip rest
    | 0, char :: rest =>
        if pattern.isPrefixOf (char :: rest) then
          replacement ++ scan (pattern.length - 1) rest
        else char :: scan 0 rest

example : replaceAll "aa" "b" "aaaaa" = "bba" := by decide

end Text

end MismatchReport
