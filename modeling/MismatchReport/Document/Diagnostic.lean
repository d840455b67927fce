import MismatchReport.Diagnostic
import MismatchReport.Document.Chain

/-!
# Documents: positions, spans and diagnostics
-/

namespace MismatchReport.Document

open Json (Decoder)

def encodePosition (position : Source.Position) : Json :=
  .ofFields [("line", .ofNat position.line), ("character", .ofNat position.character)]

def decodePosition : Decoder Source.Position := fun scope json => do
  let record ← Decoder.record ["line", "character"] scope json
  let line ← record.required "line" (Decoder.natBelow UInt32.size)
  let character ← record.required "character" (Decoder.natBelow UInt32.size)
  return { line, character }

def encodeSpan (span : Source.Span) : Json :=
  .ofFields [("start", .ofWord span.start), ("length", .ofWord span.length)]

def decodeSpan : Decoder Source.Span := fun scope json => do
  let record ← Decoder.record ["start", "length"] scope json
  let start ← record.required "start" Decoder.word
  let length ← record.required "length" Decoder.word
  return { start, length }

def encodeCategory (category : Category) : Json := .ofText category.name

def decodeCategory : Decoder Category :=
  Decoder.named [("warning", .warning), ("error", .error), ("suggestion", .suggestion),
    ("message", .message)]

def diagnosticFields (diagnostic : Diagnostic) : List (Text × Json) :=
  Json.field "file" (.ofText diagnostic.file) ++
    Json.optionalField "span" encodeSpan diagnostic.span ++
    Json.field "code" (.ofWord diagnostic.code) ++
    Json.field "category" (encodeCategory diagnostic.category) ++
    Json.field "message" (encodeChain diagnostic.message)

def encodeDiagnostic (diagnostic : Diagnostic) : Json := .ofFields (diagnosticFields diagnostic)

def decodeDiagnostic : Decoder Diagnostic := fun scope json => do
  let record ← Decoder.record ["file", "span", "code", "category", "message"] scope json
  let file ← record.defaulted "file" [] Decoder.text
  let span ← record.optional "span" decodeSpan
  let code ← record.required "code" Decoder.word
  let category ← record.defaulted "category" .error decodeCategory
  let message ← record.required "message" decodeChain
  return { file, span, code, category, message }

end MismatchReport.Document
