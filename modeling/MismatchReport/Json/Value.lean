import MismatchReport.Json.Number

/-!
# JSON values

Values as they are written: objects keep their entries in order and may repeat a name, and a
string may have escapes that stand for no text.
-/

namespace MismatchReport

/-- A string is `none` where an escape gives half of a surrogate pair without the other half. -/
inductive Json where
  | null
  | bool (value : Bool)
  | number (value : Json.Number)
  | string (value : Option Text)
  | array (items : List Json)
  | object (entries : List (Option Text × Json))
  deriving Inhabited, Repr

namespace Json

def ofNat (value : Nat) : Json := .number (.ofNat value)

def ofWord (value : UInt32) : Json := .ofNat value.toNat

def ofText (text : Text) : Json := .string (some text)

def ofFields (fields : List (Text × Json)) : Json :=
  .object (fields.map fun (name, value) => (some name, value))

def field (name : Text) (value : Json) : List (Text × Json) := [(name, value)]

def optionalField {α : Type} (name : Text) (encode : α → Json) : Option α → List (Text × Json)
  | none => []
  | some value => field name (encode value)

mutual

/-- Whether a value can be read as a whole: all strings are texts, all numbers are finite, and at
most `room` brackets are open at once. -/
def isReadable (room : Nat) : Json → Bool
  | .null | .bool _ => true
  | .number literal => literal.isFinite
  | .string text => text.isSome
  | .array items => decide (0 < room) && areReadable (room - 1) items
  | .object entries => decide (0 < room) && areReadableEntries (room - 1) entries

def areReadable (room : Nat) : List Json → Bool
  | [] => true
  | item :: rest => isReadable room item && areReadable room rest

def areReadableEntries (room : Nat) : List (Option Text × Json) → Bool
  | [] => true
  | (name, value) :: rest =>
      name.isSome && isReadable room value && areReadableEntries room rest

end

end Json

end MismatchReport
