import MismatchReport.Json.Value

/-!
# Decoding JSON

How typed values are read out of JSON values.  A record is an object, or an array of its fields in
order.  A tagged value names its case in a `kind`, or in the first element of an array; it is read
as a whole before its case is known, and a tag inside such a value may also be the number of a
case.  Fields that nobody asks for are not looked at.
-/

namespace MismatchReport.Json

/-- Where a value stands: how many brackets may still be opened, and whether the value is part of
one that was read as a whole. -/
structure Scope where
  room : Nat
  held : Bool := false
  deriving DecidableEq, Repr

def nestingLimit : Nat := 127

def documentScope : Scope := { room := nestingLimit }

namespace Scope

def enter? (scope : Scope) : Option Scope :=
  if 0 < scope.room then some { scope with room := scope.room - 1 } else none

def hold (scope : Scope) : Scope := { scope with held := true }

end Scope

abbrev Decoder (α : Type) := Scope → Json → Option α

namespace Decoder

variable {α : Type}

def natBelow (limit : Nat) : Decoder Nat
  | _, .number literal => literal.toNat?.filter (· < limit)
  | _, _ => none

def word : Decoder UInt32 := fun scope json =>
  (natBelow UInt32.size scope json).map UInt32.ofNat

def size : Decoder Nat := natBelow UInt64.size

def text : Decoder Text
  | _, .string text => text
  | _, _ => none

def bool : Decoder Bool
  | _, .bool value => some value
  | _, _ => none

def option (decode : Decoder α) : Decoder (Option α)
  | _, .null => some none
  | scope, json => (decode scope json).map some

def list (decode : Decoder α) : Decoder (List α)
  | scope, .array items => do items.mapM (decode (← scope.enter?))
  | _, _ => none

def isNothing (scope : Scope) : Json → Bool
  | .null => true
  | .object [] => scope.held
  | _ => false

/-- A value given by its name, or by an object whose one entry has that name and nothing behind
it. -/
def named (values : List (Text × α)) : Decoder α
  | _, .string (some name) => values.lookup name
  | scope, .object [(some name, json)] => do
      let scope ← scope.enter?
      if isNothing scope json then values.lookup name else none
  | _, _ => none

structure Record where
  scope : Scope
  fields : List (Text × Json)

/-- The known fields of a record.  None of them may be repeated, and an array may not have more
elements than there are fields. -/
def record (names : List Text) : Decoder Record := fun scope json => do
  let scope ← scope.enter?
  match json with
  | .object entries =>
      let entries ← entries.mapM fun (name, value) => name.map (·, value)
      let fields := entries.filter fun (name, _) => names.contains name
      if (fields.map Prod.fst).Nodup then some ⟨scope, fields⟩ else none
  | .array items => if items.length ≤ names.length then some ⟨scope, names.zip items⟩ else none
  | _ => none

namespace Record

def field? (record : Record) (name : Text) : Option Json := record.fields.lookup name

def required (record : Record) (name : Text) (decode : Decoder α) : Option α :=
  (record.field? name).bind (decode record.scope)

def defaulted (record : Record) (name : Text) (default : α) (decode : Decoder α) : Option α :=
  match record.field? name with
  | none => some default
  | some json => decode record.scope json

def optional (record : Record) (name : Text) (decode : Decoder α) : Option (Option α) :=
  record.defaulted name none (option decode)

end Record

def tagName : Text := "kind"

def caseName? (names : List Text) (scope : Scope) : Json → Option Text
  | .string (some name) => if names.contains name then some name else none
  | .number literal => if scope.held then literal.toNat?.bind (names[·]?) else none
  | _ => none

structure Tagged where
  name : Text
  scope : Scope
  body : Json

def tagged (names : List Text) : Decoder Tagged := fun scope json =>
  if json.isReadable scope.room then
    match json with
    | .object entries =>
        match entries.partition fun (name, _) => name == some tagName with
        | ([(_, tag)], rest) =>
            (caseName? names scope tag).map (⟨·, scope.hold, .object rest⟩)
        | _ => none
    | .array (tag :: rest) => (caseName? names scope tag).map (⟨·, scope.hold, .array rest⟩)
    | _ => none
  else none

namespace Tagged

/-- A case without fields.  In an object others may stand beside the tag, in an array not. -/
def bare (tagged : Tagged) (value : α) : Option α :=
  match tagged.body with
  | .array (_ :: _) => none
  | _ => some value

def record (tagged : Tagged) (names : List Text) : Option Record :=
  Decoder.record names tagged.scope tagged.body

end Tagged

structure Joined where
  own : Record
  scope : Scope
  rest : Json

/-- The field of that name, which may not be repeated, and the other entries, which are read as a
whole. -/
def joined (name : Text) : Decoder Joined := fun scope json => do
  let inner ← scope.enter?
  match json with
  | .object entries =>
      let (own, others) := entries.partition fun (key, _) => key == some name
      if areReadableEntries inner.room others && own.length ≤ 1 then
        some ⟨⟨inner, own.map fun (_, value) => (name, value)⟩, scope.hold, .object others⟩
      else none
  | _ => none

end Decoder

end MismatchReport.Json
