import MismatchReport.Snapshot.Basic

/-!
# Snapshots as type checkers

A snapshot answers the queries of a report from its table.  A type that the table does not have
prints as `any` and has nothing else to say.
-/

namespace MismatchReport

def unknownTypeText : Text := "any"

namespace TypeEntry

def projection? (entry : TypeEntry) : Option Projection :=
  if entry.projectable then
    some ⟨match entry.shape with
      | .object _ => .typeLiteral
      | _ => .other, entry.text⟩
  else none

def members (entry : TypeEntry) : List (Member TypeId) :=
  match entry.shape with
  | .object members => members
  | _ => []

def constituents? (entry : TypeEntry) : Option (CompositeKind × List TypeId) :=
  match entry.shape with
  | .composite kind types => some (kind, types)
  | _ => none

end TypeEntry

namespace Snapshot

def checker (snapshot : Snapshot) : Checker TypeId where
  project? id := (snapshot.get? id).bind TypeEntry.projection?
  members id := ((snapshot.get? id).map TypeEntry.members).getD []
  print id := ((snapshot.get? id).map TypeEntry.text).getD unknownTypeText
  declarations? id := (snapshot.get? id).bind TypeEntry.declarations
  constituents? id := (snapshot.get? id).bind TypeEntry.constituents?

end Snapshot

end MismatchReport
