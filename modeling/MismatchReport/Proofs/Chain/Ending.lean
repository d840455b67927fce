import MismatchReport.Proofs.Chain.Spine
import MismatchReport.Proofs.Text.Pieces

/-!
# Ends of routes

Sentences lead to members first, and a step to a parameter or to a result ends the route.  The one
exception is a sentence on a property that names a function, with a sentence about parameters below
it: there the step to the parameter stands behind that to the result.
-/

namespace MismatchReport

namespace Route

/-- Only the last step leads elsewhere than to a member. -/
def EndsOnce (route : Route) : Prop := ∀ step ∈ route.dropLast, ∃ name, step = .field name

theorem endsOnce_append (names : List Text) (last : Option Step) :
    EndsOnce (names.map Step.field ++ last.toList) := by
  intro step hstep
  have hfields : step ∈ names.map Step.field := by
    cases last with
    | none => exact List.dropLast_subset _ (by simpa using hstep)
    | some last => simpa using hstep
  obtain ⟨name, -, rfl⟩ := List.mem_map.mp hfields
  exact ⟨name, rfl⟩

theorem not_endsOnce_append (names : List Text) (function parameter : Text) :
    ¬ EndsOnce (names.map Step.field ++ [.result function, .param parameter]) := by
  intro hends
  obtain ⟨name, hname⟩ := hends (.result function) (by simp [List.dropLast_append_of_ne_nil])
  cases hname

end Route

def segmentsOf (sentence : Text) : List Text :=
  ((quotedPieces sentence).flatten.splitOn '.').filter (!·.isEmpty)

def functionOf? (segments : List Text) : Option Text :=
  segments.findSome? (Text.beforeEnding? "()")

theorem isSome_functionOf?_iff {segments : List Text} :
    (functionOf? segments).isSome ↔ ∃ segment ∈ segments, ("()" : Text) <:+ segment := by
  rw [functionOf?, List.isSome_findSome?, List.any_eq_true]
  simp only [Text.isSome_beforeEnding?_iff]

theorem exists_stepsOfSegments_eq (segments : List Text) :
    ∃ names : List Text, stepsOfSegments segments =
      names.map Step.field ++ ((functionOf? segments).map Step.result).toList := by
  unfold functionOf?
  induction segments with
  | nil => exact ⟨[], rfl⟩
  | cons segment rest ih =>
      rw [stepsOfSegments, List.findSome?_cons]
      cases hfunction : Text.beforeEnding? "()" segment with
      | none =>
          obtain ⟨names, hrest⟩ := ih
          exact ⟨segment :: names, by simp only [hrest, List.map_cons, List.cons_append]⟩
      | some function =>
          by_cases hempty : function.isEmpty
          · exact ⟨[], by simp [hempty]⟩
          · exact ⟨[function], by simp [hempty]⟩

def isPropertySentence (sentence : Text) : Bool :=
  !isParametersSentence sentence && incompatibleEnding.isSuffixOf sentence

def isMemberSentence (sentence : Text) : Bool :=
  isPropertySentence sentence ||
    !isParametersSentence sentence && betweenTheseTypesEnding.isSuffixOf sentence

/-- The first sentence is about a member and names a function. -/
def BlamesResult : List Text → Prop
  | [] => False
  | first :: _ =>
      isMemberSentence first ∧ ∃ segment ∈ segmentsOf first, ("()" : Text) <:+ segment

/-- The first sentence names a parameter, or it is about a property and one of the next three names
a parameter. -/
def BlamesParameter : List Text → Prop
  | [] => False
  | first :: below =>
      (isParametersSentence first ∧ (firstQuoted? first).isSome) ∨
        (isPropertySentence first ∧ (parameterOf? (below.take parameterSearchDepth)).isSome)

theorem not_isSuffixOf_of_betweenTheseTypes {sentence : Text}
    (hsentence : betweenTheseTypesEnding.isSuffixOf sentence) :
    ¬ incompatibleEnding.isSuffixOf sentence := by
  rw [List.isSuffixOf_iff_suffix] at hsentence ⊢
  intro hends
  have hsuffix := List.suffix_of_suffix_length_le hends hsentence (by decide)
  exact absurd hsuffix (by decide)

theorem exists_routeOfSpine_eq (sentences : List Text) :
    ∃ (names : List Text) (function? parameter? : Option Text), routeOfSpine sentences =
        names.map Step.field ++ (function?.map Step.result).toList ++
          (parameter?.map Step.param).toList ∧
      (function?.isSome ↔ BlamesResult sentences) ∧
      (parameter?.isSome ↔ BlamesParameter sentences) := by
  cases sentences with
  | nil => exact ⟨[], none, none, rfl, by simp [BlamesResult], by simp [BlamesParameter]⟩
  | cons first below =>
      obtain ⟨names, hsteps⟩ := exists_stepsOfSegments_eq (segmentsOf first)
      have hdotted : dottedSteps first = stepsOfSegments (segmentsOf first) := rfl
      rw [routeOfSpine, hdotted, hsteps]
      simp only [BlamesResult, BlamesParameter, isMemberSentence, isPropertySentence,
        ← isSome_functionOf?_iff]
      -- Only the third kind of first sentence can give both a result and a parameter.
      split
      · rename_i hparameters
        exact ⟨[], none, firstQuoted? first, by simp, by simp [hparameters],
          by simp [hparameters]⟩
      · rename_i hparameters
        split
        · rename_i hbetween
          have hincompatible := not_isSuffixOf_of_betweenTheseTypes hbetween
          exact ⟨names, functionOf? (segmentsOf first), none, by simp,
            by simp [hparameters, hbetween], by simp [hparameters, hincompatible]⟩
        · rename_i hbetween
          split
          · rename_i hincompatible
            exact ⟨names, _, _, rfl, by simp [hparameters, hincompatible],
              by simp [hparameters, hincompatible]⟩
          · rename_i hincompatible
            exact ⟨[], none, none, rfl, by simp [hbetween, hincompatible],
              by simp [hparameters, hincompatible]⟩

/-- The route that sentences tell leads to members, then to at most one result, then to at most one
parameter.  It has the first of these last steps exactly if a member and a function are named, the
second exactly if a parameter is, and it goes on behind a result exactly if both are. -/
theorem MessageChain.endsOnce_routeOfSentences_iff (chain : MessageChain) :
    (∃ (names : List Text) (function? parameter? : Option Text), chain.routeOfSentences =
        names.map Step.field ++ (function?.map Step.result).toList ++
          (parameter?.map Step.param).toList ∧
      (function?.isSome ↔ BlamesResult chain.sentences) ∧
      (parameter?.isSome ↔ BlamesParameter chain.sentences)) ∧
    (chain.routeOfSentences.EndsOnce ↔
      ¬ (BlamesResult chain.sentences ∧ BlamesParameter chain.sentences)) := by
  rw [routeOfSentences_eq]
  obtain ⟨names, function?, parameter?, hroute, hresult, hparameter⟩ :=
    exists_routeOfSpine_eq chain.sentences
  refine ⟨⟨names, function?, parameter?, hroute, hresult, hparameter⟩, ?_⟩
  rw [← hresult, ← hparameter, hroute]
  cases function? with
  | none => simpa using Route.endsOnce_append names (parameter?.map Step.param)
  | some function =>
      cases parameter? with
      | none => simpa using Route.endsOnce_append names (some (.result function))
      | some parameter => simpa using Route.not_endsOnce_append names function parameter

/-- The result of the function is not where this route ends. -/
theorem MessageChain.routeOfSentences_behind_result :
    let parameters := Template.parameterTypesIncompatible.chain ["x", "y"]
    let property := Template.propertyTypesIncompatible.chain ["a()"]
    let chain : MessageChain := ⟨"A", none, [{ property with children := [parameters] }]⟩
    chain.routeOfSentences = [.field "a", .result "a", .param "x"] ∧
      ¬ chain.routeOfSentences.EndsOnce := by
  intro parameters property chain
  have hroute : chain.routeOfSentences = [.field "a", .result "a", .param "x"] := by decide
  exact ⟨hroute, hroute ▸ Route.not_endsOnce_append ["a"] "a" "x"⟩

end MismatchReport
