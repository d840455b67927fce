import MismatchReport.Chain.Catalog

/-!
# Routes to the fault

The steps from the root of a type to the member whose type is at fault, recovered from a message
chain.  Tagged reasons are taken as they are; without any, the sentences of the catalog are read
back, and a sentence that is not one of them ends the route.
-/

namespace MismatchReport

inductive Step where
  | field (name : Text)
  | param (name : Text)
  | result (name : Text)
  deriving DecidableEq, Repr

abbrev Route := List Step

namespace Route

def isFinal (route : Route) (depth : Nat) : Bool := route.length == depth + 1

end Route

def Step.isField (step : Step) (name : Text) : Bool := step == .field name

def Reason.step : Reason → Step
  | .propertyIncompatible name => .field name
  | .parameterIncompatible name => .param name
  | .returnIncompatible => .result []

namespace MessageChain

def routeOfReasons? (chain : MessageChain) : Option Route :=
  match chain.spine.filterMap MessageChain.reason with
  | [] => none
  | reasons => some (reasons.map Reason.step)

end MessageChain

def betweenTheseTypesEnding : Text := "are incompatible between these types."

def incompatibleEnding : Text := "are incompatible."

def parametersBeginning : Text := "Types of parameters"

def parameterSearchDepth : Nat := 3

def isParametersSentence (sentence : Text) : Bool :=
  parametersBeginning.isPrefixOf sentence && incompatibleEnding.isSuffixOf sentence

/-- The pieces between the first single quote and the last one: quoted ones and, between them,
unquoted ones.  There are none with fewer than two quotes. -/
def quotedPieces (sentence : Text) : List Text := (sentence.splitOn '\'').tail.dropLast

def firstQuoted? (sentence : Text) : Option Text := (quotedPieces sentence).head?

/-- One step for each segment; a segment that ends in parentheses names a function whose result is
at fault, and ends the route. -/
def stepsOfSegments : List Text → Route
  | [] => []
  | segment :: rest =>
      match Text.beforeEnding? "()" segment with
      | none => .field segment :: stepsOfSegments rest
      | some function =>
          if function.isEmpty then [.result function] else [.field function, .result function]

def dottedSteps (sentence : Text) : Route :=
  stepsOfSegments (((quotedPieces sentence).flatten.splitOn '.').filter (!·.isEmpty))

namespace MessageChain

/-- The first parameter name of the first sentence about parameters at most
`parameterSearchDepth` levels below a node. -/
def parameterBelow? (node : MessageChain) : Option Text :=
  ((node.spine.take parameterSearchDepth).find? fun below => isParametersSentence below.text).bind
    fun below => firstQuoted? below.text

def routeOfSentences (chain : MessageChain) : Route :=
  match chain.children.head? with
  | none => []
  | some first =>
      if isParametersSentence first.text then ((firstQuoted? first.text).map Step.param).toList
      else if betweenTheseTypesEnding.isSuffixOf first.text then dottedSteps first.text
      else if incompatibleEnding.isSuffixOf first.text then
        dottedSteps first.text ++ (first.parameterBelow?.map Step.param).toList
      else []

def route (chain : MessageChain) (code : UInt32) : Route :=
  if code = Template.typeNotAssignable.code then
    chain.routeOfReasons?.getD chain.routeOfSentences
  else []

end MessageChain

end MismatchReport
