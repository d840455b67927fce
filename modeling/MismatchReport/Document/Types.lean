import MismatchReport.Json.Decoder
import MismatchReport.Snapshot.Basic

/-!
# Documents: types and their declarations
-/

namespace MismatchReport.Document

open Json (Decoder)

def encodeTypeId (id : TypeId) : Json := .ofWord id.value

def decodeTypeId : Decoder TypeId := fun scope json =>
  (Decoder.word scope json).map TypeId.mk

def encodeTypeIds (ids : List TypeId) : Json := .array (ids.map encodeTypeId)

def decodeTypeIds : Decoder (List TypeId) := Decoder.list decodeTypeId

def encodeParam (param : Param TypeId) : Json :=
  .ofFields (Json.field "name" (.ofText param.name) ++
    Json.optionalField "type" encodeTypeId param.type)

def decodeParam : Decoder (Param TypeId) := fun scope json => do
  let record ← Decoder.record ["name", "type"] scope json
  let name ← record.required "name" Decoder.text
  let type ← record.optional "type" decodeTypeId
  return { name, type }

def encodeMember : Member TypeId → Json
  | .property name type =>
      .ofFields [("kind", .ofText "property"), ("name", .ofText name),
        ("type", encodeTypeId type)]
  | .method name params result =>
      .ofFields [("kind", .ofText "method"), ("name", .ofText name),
        ("params", .array (params.map encodeParam)), ("returnType", encodeTypeId result)]

def decodeMember : Decoder (Member TypeId) := fun scope json => do
  let tagged ← Decoder.tagged ["property", "method"] scope json
  if tagged.name = "property" then
    let record ← tagged.record ["name", "type"]
    let name ← record.required "name" Decoder.text
    let type ← record.required "type" decodeTypeId
    return .property name type
  else
    let record ← tagged.record ["name", "params", "returnType"]
    let name ← record.required "name" Decoder.text
    let params ← record.defaulted "params" [] (Decoder.list decodeParam)
    let result ← record.required "returnType" decodeTypeId
    return .method name params result

def compositeName : CompositeKind → Text
  | .union => "union"
  | .intersection => "intersection"

def encodeShape : Shape → Json
  | .leaf => .ofFields [("kind", .ofText "leaf")]
  | .object members =>
      .ofFields [("kind", .ofText "object"), ("members", .array (members.map encodeMember))]
  | .composite kind types =>
      .ofFields [("kind", .ofText (compositeName kind)), ("types", encodeTypeIds types)]

def decodeShape : Decoder Shape := fun scope json => do
  let tagged ← Decoder.tagged ["leaf", "object", "union", "intersection"] scope json
  if tagged.name = "leaf" then tagged.bare .leaf
  else if tagged.name = "object" then
    let record ← tagged.record ["members"]
    let members ← record.required "members" (Decoder.list decodeMember)
    return .object members
  else
    let record ← tagged.record ["types"]
    let types ← record.required "types" decodeTypeIds
    return .composite (if tagged.name = "union" then .union else .intersection) types

def encodeParent : DeclarationParent → Json
  | .typeAlias name => .ofFields [("kind", .ofText "typeAlias"), ("name", .ofText name)]
  | .variableDeclaration name =>
      .ofFields [("kind", .ofText "variableDeclaration"), ("name", .ofText name)]
  | .propertyAssignment name =>
      .ofFields [("kind", .ofText "propertyAssignment"), ("name", .ofText name)]
  | .other => .ofFields [("kind", .ofText "other")]

def parentNames : List Text :=
  ["typeAlias", "variableDeclaration", "propertyAssignment", "other"]

def decodeParent : Decoder DeclarationParent := fun scope json => do
  let tagged ← Decoder.tagged parentNames scope json
  if tagged.name = "other" then tagged.bare .other
  else
    let record ← tagged.record ["name"]
    let name ← record.required "name" Decoder.text
    return if tagged.name = "typeAlias" then .typeAlias name
      else if tagged.name = "variableDeclaration" then .variableDeclaration name
      else .propertyAssignment name

def declarationKindFields : DeclarationKind → List (Text × Json)
  | .unionType members =>
      [("kind", .ofText "unionType"), ("members", .array (members.map Json.ofText))]
  | .typeLiteral => [("kind", .ofText "typeLiteral")]
  | .other => [("kind", .ofText "other")]

def decodeDeclarationKind : Decoder DeclarationKind := fun scope json => do
  let tagged ← Decoder.tagged ["unionType", "typeLiteral", "other"] scope json
  if tagged.name = "unionType" then
    let record ← tagged.record ["members"]
    let members ← record.required "members" (Decoder.list Decoder.text)
    return .unionType members
  else if tagged.name = "typeLiteral" then tagged.bare .typeLiteral
  else tagged.bare .other

def encodeDeclaration (declaration : Declaration) : Json :=
  .ofFields (declarationKindFields declaration.kind ++
    Json.optionalField "parent" encodeParent declaration.parent)

def decodeDeclaration : Decoder Declaration := fun scope json => do
  let joined ← Decoder.joined "parent" scope json
  let parent ← joined.own.optional "parent" decodeParent
  let kind ← decodeDeclarationKind joined.scope joined.rest
  return { kind, parent }

def encodeDeclarations (declarations : List Declaration) : Json :=
  .array (declarations.map encodeDeclaration)

/-- A type without a symbol has no declarations field, one without declarations an empty one. -/
def encodeTypeEntry (entry : TypeEntry) : Json :=
  .ofFields (Json.field "id" (encodeTypeId entry.id) ++
    Json.field "text" (.ofText entry.text) ++
    Json.field "shape" (encodeShape entry.shape) ++
    Json.optionalField "declarations" encodeDeclarations entry.declarations ++
    Json.field "projectable" (.bool entry.projectable))

def decodeTypeEntry : Decoder TypeEntry := fun scope json => do
  let record ← Decoder.record ["id", "text", "shape", "declarations", "projectable"] scope json
  let id ← record.required "id" decodeTypeId
  let text ← record.required "text" Decoder.text
  let shape ← record.defaulted "shape" .leaf decodeShape
  let declarations ← record.optional "declarations" (Decoder.list decodeDeclaration)
  let projectable ← record.defaulted "projectable" true Decoder.bool
  return { id, text, shape, declarations, projectable }

end MismatchReport.Document
