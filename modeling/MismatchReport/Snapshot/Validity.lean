import MismatchReport.Snapshot.Basic
import MismatchReport.Text.Decimal

/-!
# Valid snapshots

What can be wrong with a snapshot: a type number used twice, a reference to a type that the table
does not have, a diagnostic for a missing file or with a span that its file is too short for.
Defects come in the order of the snapshot, types before diagnostics.
-/

namespace MismatchReport

inductive Referrer where
  | type (id : TypeId)
  | diagnostic (index : Nat)
  deriving DecidableEq, Repr

inductive Defect where
  | duplicateType (id : TypeId)
  | unknownType (id : TypeId) (referrer : Referrer)
  | unknownFile (name : Text)
  | spanOutOfBounds (file : Text) (stop size : Nat)
  deriving DecidableEq, Repr

def TypeId.text (id : TypeId) : Text := Text.ofNat id.value.toNat

def Referrer.text : Referrer → Text
  | type id => "type " ++ id.text
  | diagnostic index => "diagnostic " ++ Text.ofNat index

def Defect.message : Defect → Text
  | duplicateType id => "type " ++ id.text ++ " is defined twice"
  | unknownType id referrer => "unknown type " ++ id.text ++ " referenced by " ++ referrer.text
  | unknownFile name => "diagnostic refers to unknown file '" ++ name ++ "'"
  | spanOutOfBounds file stop size =>
      "span ending at " ++ Text.ofNat stop ++ " is outside '" ++ file ++ "' (" ++
        Text.ofNat size ++ " bytes)"

def repeatedIds (seen : List TypeId) : List TypeEntry → List TypeId
  | [] => []
  | entry :: rest =>
      let later := repeatedIds (entry.id :: seen) rest
      if entry.id ∈ seen then entry.id :: later else later

namespace Snapshot

def duplicateTypes (snapshot : Snapshot) : List Defect :=
  (repeatedIds [] snapshot.types).map Defect.duplicateType

def knows (snapshot : Snapshot) (id : TypeId) : Bool := snapshot.types.any (·.id == id)

def unknownTypes (snapshot : Snapshot) (referrer : Referrer) (ids : List TypeId) : List Defect :=
  (ids.filter (!snapshot.knows ·)).map (Defect.unknownType · referrer)

def typeDefects (snapshot : Snapshot) (entry : TypeEntry) : List Defect :=
  snapshot.unknownTypes (.type entry.id) entry.shape.types

/-- What is wrong with the file and the span of a diagnostic.  Without a file, nothing is. -/
def placeDefects (snapshot : Snapshot) (diagnostic : Diagnostic) : List Defect :=
  if diagnostic.file.isEmpty then []
  else match snapshot.file? diagnostic.file, diagnostic.span with
    | none, _ => [.unknownFile diagnostic.file]
    | some _, none => []
    | some file, some span =>
        if span.stop ≤ Text.byteSize file.text then []
        else [.spanOutOfBounds file.name span.stop (Text.byteSize file.text)]

def diagnosticDefects (snapshot : Snapshot) (index : Nat) (diagnostic : SnapshotDiagnostic) :
    List Defect :=
  snapshot.unknownTypes (.diagnostic index)
      ((diagnostic.relatedTypes.map RelatedTypes.types).getD []) ++
    snapshot.placeDefects diagnostic.toDiagnostic

def defects (snapshot : Snapshot) : List Defect :=
  snapshot.types.flatMap snapshot.typeDefects ++
    snapshot.diagnostics.zipIdx.flatMap fun (diagnostic, index) =>
      snapshot.diagnosticDefects index diagnostic

def validate (snapshot : Snapshot) : Except Defect Unit :=
  match snapshot.defects with
  | [] => .ok ()
  | defect :: _ => .error defect

def check (snapshot : Snapshot) : Except Defect Snapshot := do
  match snapshot.duplicateTypes with
  | [] => snapshot.validate
  | defect :: _ => .error defect
  return snapshot

end Snapshot

end MismatchReport
