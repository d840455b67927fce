import MismatchReport.Document.Diagnostic
import MismatchReport.Document.Types
import MismatchReport.Json.Reader
import MismatchReport.Json.Writer
import MismatchReport.Snapshot.Validity

/-!
# Documents: snapshots
-/

namespace MismatchReport.Document

open Json (Decoder)

def encodeFile (file : Source.SourceFile) : Json :=
  .ofFields [("name", .ofText file.name), ("text", .ofText file.text)]

def decodeFile : Decoder Source.SourceFile := fun scope json => do
  let record ← Decoder.record ["name", "text"] scope json
  let name ← record.required "name" Decoder.text
  let text ← record.required "text" Decoder.text
  return { name, text }

def encodeRelatedTypes (related : RelatedTypes TypeId) : Json :=
  .ofFields [("source", encodeTypeId related.source), ("target", encodeTypeId related.target),
    ("sourceStack", encodeTypeIds related.sourceStack),
    ("targetStack", encodeTypeIds related.targetStack)]

def decodeRelatedTypes : Decoder (RelatedTypes TypeId) := fun scope json => do
  let record ← Decoder.record ["source", "target", "sourceStack", "targetStack"] scope json
  let source ← record.required "source" decodeTypeId
  let target ← record.required "target" decodeTypeId
  let sourceStack ← record.defaulted "sourceStack" [] decodeTypeIds
  let targetStack ← record.defaulted "targetStack" [] decodeTypeIds
  return { source, target, sourceStack, targetStack }

def encodeSnapshotDiagnostic (diagnostic : SnapshotDiagnostic) : Json :=
  .ofFields (diagnosticFields diagnostic.toDiagnostic ++
    Json.optionalField "relatedTypes" encodeRelatedTypes diagnostic.relatedTypes)

def decodeSnapshotDiagnostic : Decoder SnapshotDiagnostic := fun scope json => do
  let joined ← Decoder.joined "relatedTypes" scope json
  let relatedTypes ← joined.own.optional "relatedTypes" decodeRelatedTypes
  let diagnostic ← decodeDiagnostic joined.scope joined.rest
  return { toDiagnostic := diagnostic, relatedTypes }

def encodeSnapshot (snapshot : Snapshot) : Json :=
  .ofFields [("files", .array (snapshot.files.map encodeFile)),
    ("types", .array (snapshot.types.map encodeTypeEntry)),
    ("diagnostics", .array (snapshot.diagnostics.map encodeSnapshotDiagnostic))]

def decodeSnapshot : Decoder Snapshot := fun scope json => do
  let record ← Decoder.record ["files", "types", "diagnostics"] scope json
  let files ← record.defaulted "files" [] (Decoder.list decodeFile)
  let types ← record.defaulted "types" [] (Decoder.list decodeTypeEntry)
  let diagnostics ← record.defaulted "diagnostics" [] (Decoder.list decodeSnapshotDiagnostic)
  return { files, types, diagnostics }

inductive SnapshotError where
  | malformed
  | invalid (defect : Defect)
  deriving DecidableEq, Repr

def SnapshotError.hasCause : SnapshotError → Bool
  | malformed => true
  | invalid _ => false

def loadSnapshot (json : Json) : Except SnapshotError Snapshot :=
  match decodeSnapshot Json.documentScope json with
  | none => .error .malformed
  | some snapshot => snapshot.check.mapError .invalid

def readSnapshot (text : Text) : Except SnapshotError Snapshot :=
  match Json.parse? text with
  | none => .error .malformed
  | some json => loadSnapshot json

def writeSnapshot (snapshot : Snapshot) : Text := (encodeSnapshot snapshot).write

end MismatchReport.Document
