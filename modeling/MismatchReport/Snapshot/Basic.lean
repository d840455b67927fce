import MismatchReport.Checker
import MismatchReport.Diagnostic

/-!
# Snapshots

A recorded state of a type checker: source files, a table of types, and diagnostics with the types
that they are about.  Types are named by numbers; the last entry of the table with a number is the
type of that number.
-/

namespace MismatchReport

structure TypeId where
  value : UInt32
  deriving DecidableEq, Repr

inductive Shape where
  | leaf
  | object (members : List (Member TypeId))
  | composite (kind : CompositeKind) (types : List TypeId)
  deriving DecidableEq, Repr

def Shape.types : Shape → List TypeId
  | .leaf => []
  | .object members => members.flatMap Member.types
  | .composite _ types => types

/-- A type of the table.  Its symbol, if it has one, may have no declarations. -/
structure TypeEntry where
  id : TypeId
  text : Text
  shape : Shape := .leaf
  declarations : Option (List Declaration) := none
  projectable : Bool := true
  deriving DecidableEq, Repr

structure SnapshotDiagnostic extends Diagnostic where
  relatedTypes : Option (RelatedTypes TypeId) := none
  deriving Repr

structure Snapshot where
  files : List Source.SourceFile := []
  types : List TypeEntry := []
  diagnostics : List SnapshotDiagnostic := []
  deriving Repr

namespace Snapshot

def get? (snapshot : Snapshot) (id : TypeId) : Option TypeEntry :=
  snapshot.types.findRev? (·.id == id)

def file? (snapshot : Snapshot) (name : Text) : Option Source.SourceFile :=
  snapshot.files.find? (·.name == name)

def buffer? (snapshot : Snapshot) (name : Text) : Option Source.Buffer :=
  (snapshot.file? name).map Source.Buffer.ofFile

def addFile (snapshot : Snapshot) (name text : Text) : Snapshot :=
  { snapshot with files := snapshot.files ++ [⟨name, text⟩] }

def nextId (snapshot : Snapshot) : TypeId := ⟨UInt32.ofNat snapshot.types.length⟩

def addType (snapshot : Snapshot) (text : Text) (shape : Shape) : TypeId × Snapshot :=
  (snapshot.nextId,
    { snapshot with types := snapshot.types ++ [{ id := snapshot.nextId, text, shape }] })

/-- The table with one entry changed, the last one of its number. -/
def modifyLast (id : TypeId) (change : TypeEntry → TypeEntry) : List TypeEntry → List TypeEntry
  | [] => []
  | entry :: rest =>
      if entry.id = id ∧ ∀ later ∈ rest, later.id ≠ id then change entry :: rest
      else entry :: modifyLast id change rest

def setDeclarations (snapshot : Snapshot) (id : TypeId) (declarations : List Declaration) :
    Snapshot :=
  let change (entry : TypeEntry) := { entry with declarations := some declarations }
  { snapshot with types := modifyLast id change snapshot.types }

def setProjectable (snapshot : Snapshot) (id : TypeId) (projectable : Bool) : Snapshot :=
  let change (entry : TypeEntry) := { entry with projectable }
  { snapshot with types := modifyLast id change snapshot.types }

def addDiagnostic (snapshot : Snapshot) (diagnostic : SnapshotDiagnostic) : Snapshot :=
  { snapshot with diagnostics := snapshot.diagnostics ++ [diagnostic] }

end Snapshot

end MismatchReport
