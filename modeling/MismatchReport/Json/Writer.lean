import MismatchReport.Json.Value

/-!
# Writing JSON

The compact form: no blanks, entries in their order, and escapes only for quotes, backslashes and
control characters.
-/

namespace MismatchReport.Json

def escapeControl (char : Char) : Text :=
  ['\\', 'u', '0', '0', Nat.digitChar (char.toNat / 16), Nat.digitChar (char.toNat % 16)]

def escapeChar (char : Char) : Text :=
  if char = '"' then ['\\', '"']
  else if char = '\\' then ['\\', '\\']
  else if char = '\x08' then ['\\', 'b']
  else if char = '\x0c' then ['\\', 'f']
  else if char = '\n' then ['\\', 'n']
  else if char = '\r' then ['\\', 'r']
  else if char = '\t' then ['\\', 't']
  else if char < ' ' then escapeControl char
  else [char]

def escapedHalf : Text := "\\ud800"

def writeString (text : Option Text) : Text :=
  '"' :: ((text.map fun text => text.flatMap escapeChar).getD escapedHalf) ++ ['"']

mutual

def write : Json → Text
  | .null => "null"
  | .bool true => "true"
  | .bool false => "false"
  | .number literal => literal.write
  | .string text => writeString text
  | .array items => '[' :: Text.joinWith [','] (writeItems items) ++ [']']
  | .object entries => '\x7b' :: Text.joinWith [','] (writeEntries entries) ++ ['\x7d']

def writeItems : List Json → List Text
  | [] => []
  | item :: rest => write item :: writeItems rest

def writeEntries : List (Option Text × Json) → List Text
  | [] => []
  | (name, value) :: rest => (writeString name ++ ':' :: write value) :: writeEntries rest

end

example : writeString (some "\x01\x1f\x7f\"é") = "\"\\u0001\\u001f\x7f\\\"é\"" := by decide

end MismatchReport.Json
