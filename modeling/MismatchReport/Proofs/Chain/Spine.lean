import MismatchReport.Chain.Route

/-!
# Routes along first children

The route of a chain depends on the first children below its root only: on their reasons when there
are any, and else on the first four sentences.
-/

namespace MismatchReport

def parameterOf? (sentences : List Text) : Option Text :=
  (sentences.find? isParametersSentence).bind firstQuoted?

def routeOfSpine : List Text → Route
  | [] => []
  | first :: below =>
      if isParametersSentence first then ((firstQuoted? first).map Step.param).toList
      else if betweenTheseTypesEnding.isSuffixOf first then dottedSteps first
      else if incompatibleEnding.isSuffixOf first then
        dottedSteps first ++
          ((parameterOf? (below.take parameterSearchDepth)).map Step.param).toList
      else []

theorem routeOfSpine_take (sentences : List Text) :
    routeOfSpine (sentences.take (parameterSearchDepth + 1)) = routeOfSpine sentences := by
  cases sentences with
  | nil => rfl
  | cons first below =>
      rw [List.take_succ_cons, routeOfSpine, routeOfSpine, List.take_take, Nat.min_self]

namespace MessageChain

def sentences (chain : MessageChain) : List Text := chain.spine.map MessageChain.text

def reasons (chain : MessageChain) : List Reason := chain.spine.filterMap MessageChain.reason

def IsTagged (chain : MessageChain) : Prop := ∃ node ∈ chain.spine, node.reason ≠ none

/-- Two chains whose first children have the same sentences and reasons, down to the last of them.
The roots may differ in both, and all other children in everything. -/
inductive SharesSpine : MessageChain → MessageChain → Prop
  | tip {text text' : Text} {reason reason' : Option Reason} :
      SharesSpine ⟨text, reason, []⟩ ⟨text', reason', []⟩
  | step {text text' : Text} {reason reason' : Option Reason} {first first' : MessageChain}
      {others others' : List MessageChain} (htext : first.text = first'.text)
      (hreason : first.reason = first'.reason) (hfirst : SharesSpine first first') :
      SharesSpine ⟨text, reason, first :: others⟩ ⟨text', reason', first' :: others'⟩

theorem isTagged_iff {chain : MessageChain} : chain.IsTagged ↔ chain.reasons ≠ [] := by
  rw [IsTagged, reasons, Ne, List.filterMap_eq_nil_iff]
  simp

theorem SharesSpine.sentences_eq {chain other : MessageChain} (hspine : chain.SharesSpine other) :
    chain.sentences = other.sentences := by
  unfold sentences
  induction hspine with
  | tip => rfl
  | step htext _ _ ih => rw [spine, spine, List.map_cons, List.map_cons, htext, ih]

theorem SharesSpine.reasons_eq {chain other : MessageChain} (hspine : chain.SharesSpine other) :
    chain.reasons = other.reasons := by
  unfold reasons
  induction hspine with
  | tip => rfl
  | step _ hreason _ ih => rw [spine, spine, List.filterMap_cons, List.filterMap_cons, hreason, ih]

theorem sentences_eq_cons {chain first : MessageChain}
    (hfirst : chain.children.head? = some first) :
    chain.sentences = first.text :: first.sentences := by
  rw [sentences, spine_eq_head, hfirst]
  rfl

theorem parameterBelow?_eq (node : MessageChain) :
    node.parameterBelow? = parameterOf? (node.sentences.take parameterSearchDepth) := by
  rw [parameterBelow?, parameterOf?, sentences, ← List.map_take, List.find?_map, Option.bind_map]
  rfl

theorem routeOfSentences_eq (chain : MessageChain) :
    chain.routeOfSentences = routeOfSpine chain.sentences := by
  cases hfirst : chain.children.head? with
  | none =>
      rw [routeOfSentences, sentences, spine_eq_head, hfirst]
      rfl
  | some first =>
      have hparameter := first.parameterBelow?_eq
      simp only [routeOfSentences, hfirst, sentences_eq_cons hfirst, routeOfSpine, hparameter]

theorem routeOfReasons?_eq (chain : MessageChain) :
    chain.routeOfReasons? =
      if chain.reasons = [] then none else some (chain.reasons.map Reason.step) := by
  rw [routeOfReasons?, ← reasons]
  cases chain.reasons with
  | nil => rfl
  | cons reason rest => rfl

theorem route_of_isTagged {chain : MessageChain} (hchain : chain.IsTagged) :
    chain.route Template.typeNotAssignable.code = chain.reasons.map Reason.step := by
  rw [route, if_pos rfl, routeOfReasons?_eq, if_neg (isTagged_iff.mp hchain), Option.getD_some]

theorem route_of_not_isTagged {chain : MessageChain} (hchain : ¬ chain.IsTagged) :
    chain.route Template.typeNotAssignable.code = routeOfSpine chain.sentences := by
  have hreasons : chain.reasons = [] := Classical.not_not.mp (mt isTagged_iff.mpr hchain)
  rw [route, if_pos rfl, routeOfReasons?_eq, if_pos hreasons, Option.getD_none,
    routeOfSentences_eq]

/-- Root and later children never change a route.  Reasons alone make it where there is one, so that
no sentence counts; where there is none, the first four sentences do. -/
theorem route_depends_on_spine (chain other : MessageChain) :
    (chain.SharesSpine other →
      chain.route Template.typeNotAssignable.code = other.route Template.typeNotAssignable.code) ∧
    (chain.IsTagged →
      chain.route Template.typeNotAssignable.code = chain.reasons.map Reason.step ∧
        (other.reasons = chain.reasons →
          chain.route Template.typeNotAssignable.code =
            other.route Template.typeNotAssignable.code)) ∧
    (¬ chain.IsTagged → ¬ other.IsTagged → chain.sentences.take 4 = other.sentences.take 4 →
      chain.route Template.typeNotAssignable.code =
        other.route Template.typeNotAssignable.code) := by
  refine ⟨fun hspine => ?_, fun htagged => ⟨route_of_isTagged htagged, fun hreasons => ?_⟩,
    fun hchain hother htake => ?_⟩
  · have hreasons := hspine.reasons_eq
    rw [route, route, if_pos rfl, if_pos rfl, routeOfReasons?_eq, routeOfReasons?_eq, hreasons,
      routeOfSentences_eq, routeOfSentences_eq, hspine.sentences_eq]
  · have hother : other.IsTagged := by
      rw [isTagged_iff, hreasons]
      exact isTagged_iff.mp htagged
    rw [route_of_isTagged htagged, route_of_isTagged hother, hreasons]
  · -- The first child and the sentences that are searched below it are four.
    rw [route_of_not_isTagged hchain, route_of_not_isTagged hother,
      ← routeOfSpine_take chain.sentences, ← routeOfSpine_take other.sentences]
    exact congrArg routeOfSpine htake

theorem route_depends_on_spine_samples :
    let code := Template.typeNotAssignable.code
    let fault := Template.propertyTypesIncompatible.chain ["f"]
    let chain : MessageChain := ⟨"A", none, [fault]⟩
    let other : MessageChain := ⟨"B", some .returnIncompatible, [fault, ⟨"C", none, [fault]⟩]⟩
    let tagged : MessageChain := ⟨"A", none, [⟨"Types of property 'g' are incompatible.", none,
      [⟨"B", some (.propertyIncompatible "f"), [⟨"C", some .returnIncompatible, []⟩]⟩]⟩]⟩
    let deep (last : MessageChain) : MessageChain := ⟨"A", none,
      [{ fault with children := [⟨"1", none, [⟨"2", none, [⟨"3", none, [last]⟩]⟩]⟩] }]⟩
    let parameters := Template.parameterTypesIncompatible.chain ["x", "y"]
    (chain.SharesSpine other ∧ chain.route code = other.route code) ∧
    (tagged.IsTagged ∧ tagged.route code = [.field "f", .result []]) ∧
    (¬ (deep fault).IsTagged ∧ ¬ (deep parameters).IsTagged ∧
      (deep fault).sentences.take 4 = (deep parameters).sentences.take 4 ∧
      (deep fault).route code = (deep parameters).route code) := by
  intro code fault chain other tagged deep parameters
  have hspine : chain.SharesSpine other := .step rfl rfl .tip
  have htagged : tagged.IsTagged := by simp [IsTagged, spine, tagged]
  have hdeep (last : MessageChain) (hlast : last.children = [] ∧ last.reason = none) :
      ¬ (deep last).IsTagged ∧ (deep last).sentences =
        [fault.text, ("1" : Text), ("2" : Text), ("3" : Text), last.text] := by
    obtain ⟨text, reason, children⟩ := last
    obtain ⟨rfl, rfl⟩ := hlast
    exact ⟨by simp [IsTagged, spine, deep, fault, Template.chain],
      by simp [sentences, spine, deep]⟩
  have hfault := hdeep fault ⟨rfl, rfl⟩
  have hparameters := hdeep parameters ⟨rfl, rfl⟩
  have htake : (deep fault).sentences.take 4 = (deep parameters).sentences.take 4 := by
    simp only [hfault.2, hparameters.2, List.take_succ_cons, List.take_zero]
  refine ⟨⟨hspine, (route_depends_on_spine chain other).1 hspine⟩, ⟨htagged, ?_⟩,
    hfault.1, hparameters.1, htake, ?_⟩
  · exact ((route_depends_on_spine tagged tagged).2.1 htagged).1
  · exact (route_depends_on_spine (deep fault) (deep parameters)).2.2 hfault.1 hparameters.1 htake

end MessageChain

end MismatchReport
