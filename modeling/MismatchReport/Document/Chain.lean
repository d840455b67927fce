import MismatchReport.Chain.Basic
import MismatchReport.Json.Decoder

/-!
# Documents: reasons and message chains
-/

namespace MismatchReport.Document

open Json (Decoder)

def encodeReason : Reason → Json
  | .propertyIncompatible name =>
      .ofFields [("kind", .ofText "propertyIncompatible"), ("name", .ofText name)]
  | .parameterIncompatible name =>
      .ofFields [("kind", .ofText "parameterIncompatible"), ("name", .ofText name)]
  | .returnIncompatible => .ofFields [("kind", .ofText "returnIncompatible")]

def reasonNames : List Text :=
  ["propertyIncompatible", "parameterIncompatible", "returnIncompatible"]

def decodeReason : Decoder Reason := fun scope json => do
  let tagged ← Decoder.tagged reasonNames scope json
  if tagged.name = "returnIncompatible" then tagged.bare .returnIncompatible
  else
    let record ← tagged.record ["name"]
    let name ← record.required "name" Decoder.text
    return if tagged.name = "propertyIncompatible" then .propertyIncompatible name
      else .parameterIncompatible name

mutual

def encodeChain : MessageChain → Json
  | ⟨text, reason, []⟩ =>
      .ofFields (Json.field "text" (.ofText text) ++
        Json.optionalField "reason" encodeReason reason)
  | ⟨text, reason, child :: rest⟩ =>
      .ofFields (Json.field "text" (.ofText text) ++
        Json.optionalField "reason" encodeReason reason ++
        Json.field "children" (.array (encodeChain child :: encodeChains rest)))

def encodeChains : List MessageChain → List Json
  | [] => []
  | child :: rest => encodeChain child :: encodeChains rest

end

def decodeChainWithin : Nat → Decoder MessageChain
  | 0 => fun _ _ => none
  | depth + 1 => fun scope json => do
      let record ← Decoder.record ["text", "reason", "children"] scope json
      let text ← record.required "text" Decoder.text
      let reason ← record.optional "reason" decodeReason
      let children ← record.defaulted "children" [] (Decoder.list (decodeChainWithin depth))
      return { text, reason, children }

/-- Each level of a chain opens two brackets, so there are no more levels than room. -/
def decodeChain : Decoder MessageChain := fun scope => decodeChainWithin scope.room scope

end MismatchReport.Document
