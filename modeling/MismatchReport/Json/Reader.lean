import MismatchReport.Json.Value

/-!
# Reading JSON

The grammar is strict: no commas at the end, no text behind the value, no control characters in
strings.
-/

namespace MismatchReport.Json

def isBlank (char : Char) : Bool := char == ' ' || char == '\n' || char == '\t' || char == '\r'

def skipBlanks (text : Text) : Text := text.dropWhile isBlank

inductive Piece where
  | char (char : Char)
  | half (unit : Nat)
  deriving DecidableEq, Repr

def isHighHalf (unit : Nat) : Bool := 0xD800 ≤ unit && unit < 0xDC00

def isLowHalf (unit : Nat) : Bool := 0xDC00 ≤ unit && unit < 0xE000

def Piece.ofUnit (unit : Nat) : Piece :=
  if isHighHalf unit || isLowHalf unit then .half unit else .char (Char.ofNat unit)

def joinHalves (high low : Nat) : Char :=
  Char.ofNat (0x10000 + (high - 0xD800) * 0x400 + (low - 0xDC00))

def joinPieces? : List Piece → Option Text
  | [] => some []
  | .char char :: rest => (joinPieces? rest).map (char :: ·)
  | .half high :: .half low :: rest =>
      if isHighHalf high && isLowHalf low then (joinPieces? rest).map (joinHalves high low :: ·)
      else none
  | .half _ :: _ => none

def hexDigit? (char : Char) : Option Nat :=
  if '0' ≤ char ∧ char ≤ '9' then some (char.toNat - '0'.toNat)
  else if 'a' ≤ char ∧ char ≤ 'f' then some (char.toNat - 'a'.toNat + 10)
  else if 'A' ≤ char ∧ char ≤ 'F' then some (char.toNat - 'A'.toNat + 10)
  else none

def hexUnit? (digits : List Char) : Option Nat :=
  digits.foldlM (fun unit digit => (hexDigit? digit).map (16 * unit + ·)) 0

def shortEscape? : Char → Option Char
  | '"' => some '"'
  | '\\' => some '\\'
  | '/' => some '/'
  | 'b' => some '\x08'
  | 'f' => some '\x0c'
  | 'n' => some '\n'
  | 'r' => some '\r'
  | 't' => some '\t'
  | _ => none

def readPieces? : Text → Option (List Piece × Text)
  | [] => none
  | '"' :: rest => some ([], rest)
  | '\\' :: 'u' :: first :: second :: third :: fourth :: rest => do
      let unit ← hexUnit? [first, second, third, fourth]
      let (pieces, rest) ← readPieces? rest
      return (.ofUnit unit :: pieces, rest)
  | '\\' :: escape :: rest => do
      let char ← shortEscape? escape
      let (pieces, rest) ← readPieces? rest
      return (.char char :: pieces, rest)
  | char :: rest =>
      if char < ' ' ∨ char = '\\' then none
      else do
        let (pieces, rest) ← readPieces? rest
        return (.char char :: pieces, rest)

def readString? (text : Text) : Option (Option Text × Text) :=
  (readPieces? text).map fun (pieces, rest) => (joinPieces? pieces, rest)

mutual

/-- A value at the start of a text, and the text behind it.  Every bracket and every item takes
steps, of which there have to be enough. -/
def readValue? : Nat → Text → Option (Json × Text)
  | 0, _ => none
  | steps + 1, text =>
      match text with
      | 'n' :: 'u' :: 'l' :: 'l' :: rest => some (.null, rest)
      | 't' :: 'r' :: 'u' :: 'e' :: rest => some (.bool true, rest)
      | 'f' :: 'a' :: 'l' :: 's' :: 'e' :: rest => some (.bool false, rest)
      | '"' :: rest => (readString? rest).map fun (text, rest) => (.string text, rest)
      | '[' :: rest =>
          match skipBlanks rest with
          | ']' :: rest => some (.array [], rest)
          | rest => (readItems? steps rest).map fun (items, rest) => (.array items, rest)
      | '\x7b' :: rest =>
          match skipBlanks rest with
          | '\x7d' :: rest => some (.object [], rest)
          | rest => (readEntries? steps rest).map fun (entries, rest) => (.object entries, rest)
      | text => (Number.read? text).map fun (literal, rest) => (.number literal, rest)

def readItems? : Nat → Text → Option (List Json × Text)
  | 0, _ => none
  | steps + 1, text => do
      let (item, rest) ← readValue? steps (skipBlanks text)
      match skipBlanks rest with
      | ']' :: rest => return ([item], rest)
      | ',' :: rest =>
          let (items, rest) ← readItems? steps rest
          return (item :: items, rest)
      | _ => none

def readEntries? : Nat → Text → Option (List (Option Text × Json) × Text)
  | 0, _ => none
  | steps + 1, text =>
      match skipBlanks text with
      | '"' :: rest => do
          let (name, rest) ← readString? rest
          match skipBlanks rest with
          | ':' :: rest =>
              let (value, rest) ← readValue? steps (skipBlanks rest)
              match skipBlanks rest with
              | '\x7d' :: rest => return ([(name, value)], rest)
              | ',' :: rest =>
                  let (entries, rest) ← readEntries? steps rest
                  return ((name, value) :: entries, rest)
              | _ => none
          | _ => none
      | _ => none

end

def parse? (text : Text) : Option Json := do
  let (value, rest) ← readValue? (2 * text.length + 1) (skipBlanks text)
  if (skipBlanks rest).isEmpty then some value else none

end MismatchReport.Json
