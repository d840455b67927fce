import MismatchReport.Proofs.Chain.Catalog
import MismatchReport.Proofs.Chain.Ending

/-!
# Sentences read back

The sentences of the catalog quote their arguments.  The route that is recovered from a chain of
such sentences is the one that was written into them.
-/

namespace MismatchReport

open Text (joinWith)

theorem fillAtOnce_joinWith_quote (arguments parts : List Text) :
    fillAtOnce arguments (joinWith ['\''] parts) =
      joinWith ['\''] (parts.map (fillAtOnce arguments)) := by
  induction parts with
  | nil => rfl
  | cons first rest ih =>
      cases rest with
      | nil => rw [List.map_singleton, Text.joinWith_singleton, Text.joinWith_singleton]
      | cons second rest =>
          have hplace : ¬ isPlaceChar '\'' := by decide
          have hquote := replaceEach_placesFrom_append_cons hplace first
            (joinWith ['\''] (second :: rest)) 0 arguments
          rw [List.map_cons] at ih ⊢
          rw [List.map_cons, Text.joinWith_cons_cons, Text.joinWith_cons_cons, ← ih,
            List.append_assoc, List.append_assoc]
          exact hquote

theorem fillAtOnce_of_not_mem {text : Text} (htext : '\x7b' ∉ text) (arguments : List Text) :
    fillAtOnce arguments text = text := by
  refine Text.replaceEach_eq_self fun entry hentry hoccurs => ?_
  obtain ⟨place, -, -, heq⟩ := mem_placesFrom hentry
  rw [heq] at hoccurs
  exact htext (hoccurs.subset List.mem_cons_self)

theorem text_chain_eq_joinWith {template : Template} {arguments parts : List Text}
    (hisolated : ∀ count, IsolatesPlaces count template.text)
    (hparts : template.text = joinWith ['\''] parts) (harguments : SpellsNoLaterPlace arguments) :
    (template.chain arguments).text = joinWith ['\''] (parts.map (fillAtOnce arguments)) := by
  have hfilled : filledFrom 0 arguments = arguments :=
    filledFrom_eq_self (by simpa [SpellsNoLaterPlace] using harguments)
  rw [Template.chain, formatMessage_eq_fillAtOnce (hisolated _), hfilled, hparts,
    fillAtOnce_joinWith_quote]

theorem spellsNoLaterPlace_singleton (argument : Text) : SpellsNoLaterPlace [argument] := by
  intro place other hother later hplace hlater
  rw [List.length_singleton] at hlater
  omega

theorem spellsNoLaterPlace_pair {first : Text} (hfirst : ¬ placeholder 1 <:+: first)
    (second : Text) : SpellsNoLaterPlace [first, second] := by
  intro place argument hargument later hplace hlater
  simp only [List.length_cons, List.length_nil] at hlater
  obtain ⟨rfl, rfl⟩ : place = 0 ∧ later = 1 := by omega
  obtain rfl : first = argument := by simpa using hargument
  exact hfirst

def quoting (front argument back : Text) : Text := joinWith ['\''] [front, argument, back]

def quotingTwo (front first middle second back : Text) : Text :=
  joinWith ['\''] [front, first, middle, second, back]

theorem text_chain_eq_quoting {template : Template} {front back : Text}
    (hisolated : ∀ count, IsolatesPlaces count template.text)
    (htemplate : template.text = quoting front (placeholder 0) back) (hfront : '\x7b' ∉ front)
    (hback : '\x7b' ∉ back) (argument : Text) :
    (template.chain [argument]).text = quoting front argument back := by
  have hplace : fillAtOnce [argument] (placeholder 0) = argument := fillAtOnce_placeholder rfl
  rw [text_chain_eq_joinWith hisolated htemplate (spellsNoLaterPlace_singleton argument)]
  simp only [List.map_cons, List.map_nil, fillAtOnce_of_not_mem hfront,
    fillAtOnce_of_not_mem hback, hplace]
  rfl

def betweenBack : Text := " are incompatible between these types."

def incompatibleBack : Text := " are incompatible."

theorem text_typesIncompatibleBetween (argument : Text) :
    (Template.typesIncompatibleBetween.chain [argument]).text =
      quoting "The types of " argument betweenBack :=
  text_chain_eq_quoting (fun count => isolatesPlaces_catalog count _ (by simp))
    (by decide +kernel) (by decide) (by decide) argument

theorem text_returnedTypesIncompatibleBetween (argument : Text) :
    (Template.returnedTypesIncompatibleBetween.chain [argument]).text =
      quoting "The types returned by " argument betweenBack :=
  text_chain_eq_quoting (fun count => isolatesPlaces_catalog count _ (by simp))
    (by decide +kernel) (by decide) (by decide) argument

theorem text_propertyTypesIncompatible (argument : Text) :
    (Template.propertyTypesIncompatible.chain [argument]).text =
      quoting "Types of property " argument incompatibleBack :=
  text_chain_eq_quoting (fun count => isolatesPlaces_catalog count _ (by simp))
    (by decide +kernel) (by decide) (by decide) argument

theorem text_parameterTypesIncompatible {source : Text} (hsource : ¬ placeholder 1 <:+: source)
    (target : Text) :
    (Template.parameterTypesIncompatible.chain [source, target]).text =
      quotingTwo "Types of parameters " source " and " target incompatibleBack := by
  have hfront : '\x7b' ∉ ("Types of parameters " : Text) := by decide
  have hmiddle : '\x7b' ∉ (" and " : Text) := by decide
  have hback : '\x7b' ∉ incompatibleBack := by decide
  have hfirst : fillAtOnce [source, target] (placeholder 0) = source := fillAtOnce_placeholder rfl
  have hsecond : fillAtOnce [source, target] (placeholder 1) = target := fillAtOnce_placeholder rfl
  have htemplate : Template.parameterTypesIncompatible.text =
      quotingTwo "Types of parameters " (placeholder 0) " and " (placeholder 1)
        incompatibleBack := by
    decide +kernel
  rw [text_chain_eq_joinWith (fun count => isolatesPlaces_catalog count _ (by simp)) htemplate
    (spellsNoLaterPlace_pair hsource target)]
  simp only [List.map_cons, List.map_nil, fillAtOnce_of_not_mem hfront,
    fillAtOnce_of_not_mem hmiddle, fillAtOnce_of_not_mem hback, hfirst, hsecond]
  rfl

theorem quotedPieces_joinWith {front back : Text} {pieces : List Text}
    (hquotes : ∀ piece ∈ front :: (pieces ++ [back]), '\'' ∉ piece) :
    quotedPieces (joinWith ['\''] (front :: (pieces ++ [back]))) = pieces := by
  rw [quotedPieces, joinWith, List.splitOn_intercalate '\'' hquotes (List.cons_ne_nil _ _),
    List.tail_cons, List.dropLast_concat]

theorem not_isParametersSentence_of_take {front : Text} (rest : Text)
    (hfront : ¬ parametersBeginning.take front.length <+: front) :
    ¬ isParametersSentence (front ++ rest) := by
  intro hsentence
  rw [isParametersSentence, Bool.and_eq_true, List.isPrefixOf_iff_prefix] at hsentence
  have htake := hsentence.1.take front.length
  rw [List.take_left] at htake
  exact hfront htake

/-! ## Dotted paths -/

def dotted (names : List Text) : Text := joinWith ['.'] names

/-- A text that stands in a dotted path, between quotes, as one segment. -/
structure IsSegment (segment : Text) : Prop where
  ne_nil : segment ≠ []
  quote_not_mem : '\'' ∉ segment
  dot_not_mem : '.' ∉ segment

structure AreSegments (segments : List Text) : Prop where
  ne_nil : segments ≠ []
  isSegment : ∀ segment ∈ segments, IsSegment segment

structure AreNames (names : List Text) : Prop extends AreSegments names where
  not_call : ∀ name ∈ names, ¬ ("()" : Text) <:+ name

theorem AreNames.areSegments_call {names : List Text} {last : Text}
    (hnames : AreNames (names ++ [last])) : AreSegments (names ++ [last ++ ("()" : Text)]) := by
  have hisSegment := hnames.isSegment
  rw [List.forall_mem_append, List.forall_mem_singleton] at hisSegment
  obtain ⟨hfront, hlast⟩ := hisSegment
  have hcall : IsSegment (last ++ ("()" : Text)) :=
    ⟨List.append_ne_nil_of_left_ne_nil hlast.ne_nil _, by simpa using hlast.quote_not_mem,
      by simpa using hlast.dot_not_mem⟩
  refine ⟨List.append_ne_nil_of_right_ne_nil _ (List.cons_ne_nil _ _), ?_⟩
  rw [List.forall_mem_append, List.forall_mem_singleton]
  exact ⟨hfront, hcall⟩

theorem segmentsOf_quoting {front back : Text} {segments : List Text} (hfront : '\'' ∉ front)
    (hback : '\'' ∉ back) (hsegments : AreSegments segments) :
    segmentsOf (quoting front (dotted segments) back) = segments := by
  obtain ⟨hne, hisSegment⟩ := hsegments
  have hdotted : '\'' ∉ dotted segments :=
    Text.not_mem_joinWith (by decide) fun segment hsegment =>
      (hisSegment segment hsegment).quote_not_mem
  have hquotes : ∀ piece ∈ front :: ([dotted segments] ++ [back]), '\'' ∉ piece := by
    simp [hfront, hback, hdotted]
  have hpieces : quotedPieces (quoting front (dotted segments) back) = [dotted segments] :=
    quotedPieces_joinWith hquotes
  have hsplit : (dotted segments).splitOn '.' = segments :=
    List.splitOn_intercalate '.' (fun segment hsegment => (hisSegment segment hsegment).dot_not_mem)
      hne
  rw [segmentsOf, hpieces, List.flatten_singleton, hsplit, List.filter_eq_self]
  intro segment hsegment
  simpa using (hisSegment segment hsegment).ne_nil

theorem stepsOfSegments_append {names : List Text}
    (hnames : ∀ name ∈ names, ¬ ("()" : Text) <:+ name) (rest : List Text) :
    stepsOfSegments (names ++ rest) = names.map Step.field ++ stepsOfSegments rest := by
  induction names with
  | nil => rfl
  | cons name names ih =>
      rw [List.forall_mem_cons] at hnames
      have hname : Text.beforeEnding? "()" name = none :=
        Option.not_isSome_iff_eq_none.mp (mt Text.isSome_beforeEnding?_iff.mp hnames.1)
      rw [List.cons_append, stepsOfSegments, hname]
      simp only [ih hnames.2, List.map_cons, List.cons_append]

theorem AreNames.stepsOfSegments_eq {names : List Text} (hnames : AreNames names) :
    stepsOfSegments names = names.map Step.field := by
  simpa [stepsOfSegments] using stepsOfSegments_append hnames.not_call []

theorem AreNames.stepsOfSegments_call {names : List Text} {last : Text}
    (hnames : AreNames (names ++ [last])) :
    stepsOfSegments (names ++ [last ++ ("()" : Text)]) =
      (names ++ [last]).map Step.field ++ [.result last] := by
  have hfront : ∀ name ∈ names, ¬ ("()" : Text) <:+ name := fun name hname =>
    hnames.not_call name (List.mem_append_left _ hname)
  have hlast : last ≠ [] := (hnames.isSegment last (by simp)).ne_nil
  have hending : Text.beforeEnding? "()" (last ++ ("()" : Text)) = some last :=
    List.isSuffixOf?_eq_some_iff_append_eq.mpr rfl
  rw [stepsOfSegments_append hfront, stepsOfSegments, hending]
  simp [hlast]

theorem isSuffixOf_quoting {ending back : Text} (hback : ending <:+ back)
    (front argument : Text) : ending.isSuffixOf (quoting front argument back) := by
  rw [List.isSuffixOf_iff_suffix]
  exact hback.trans (Text.suffix_joinWith_concat ['\''] [front, argument] back)

theorem not_isParametersSentence_quoting {front : Text}
    (hfront : ¬ parametersBeginning.take front.length <+: front) (argument back : Text) :
    ¬ isParametersSentence (quoting front argument back) := by
  rw [quoting, Text.joinWith_cons]
  exact not_isParametersSentence_of_take _ hfront

theorem isParametersSentence_quotingTwo (source target : Text) :
    isParametersSentence
      (quotingTwo "Types of parameters " source " and " target incompatibleBack) := by
  rw [isParametersSentence, Bool.and_eq_true, List.isPrefixOf_iff_prefix,
    List.isSuffixOf_iff_suffix]
  constructor
  · rw [quotingTwo, Text.joinWith_cons]
    exact List.IsPrefix.trans (by decide) (List.prefix_append _ _)
  · exact List.IsSuffix.trans (by decide) (Text.suffix_joinWith_concat ['\'']
      ["Types of parameters ", source, " and ", target] incompatibleBack)

theorem firstQuoted?_quotingTwo {front first middle second back : Text}
    (hquotes : ∀ piece ∈ front :: ([first, middle, second] ++ [back]), '\'' ∉ piece) :
    firstQuoted? (quotingTwo front first middle second back) = some first := by
  have hpieces : quotedPieces (quotingTwo front first middle second back) =
      [first, middle, second] := quotedPieces_joinWith hquotes
  rw [firstQuoted?, hpieces, List.head?_cons]

/-! ## Routes of sentences -/

structure AreParameters (source target : Text) : Prop where
  quote_not_mem_source : '\'' ∉ source
  quote_not_mem_target : '\'' ∉ target
  source_spells_no_place : ¬ placeholder 1 <:+: source

theorem AreParameters.firstQuoted?_eq {source target : Text}
    (hparameters : AreParameters source target) :
    firstQuoted? (Template.parameterTypesIncompatible.chain [source, target]).text =
      some source := by
  obtain ⟨hsource, htarget, hplace⟩ := hparameters
  rw [text_parameterTypesIncompatible hplace]
  refine firstQuoted?_quotingTwo ?_
  have hback : '\'' ∉ incompatibleBack := by decide
  simp [hback, hsource, htarget]

theorem AreParameters.routeOfSpine_eq {source target : Text}
    (hparameters : AreParameters source target) (below : List Text) :
    routeOfSpine ((Template.parameterTypesIncompatible.chain [source, target]).text :: below) =
      [.param source] := by
  have hsentence := isParametersSentence_quotingTwo source target
  rw [← text_parameterTypesIncompatible hparameters.source_spells_no_place] at hsentence
  rw [routeOfSpine, if_pos hsentence, hparameters.firstQuoted?_eq]
  rfl

section

variable {segments : List Text} (hsegments : AreSegments segments) (below : List Text)

include hsegments

theorem routeOfSpine_between {front : Text} (hfront : '\'' ∉ front)
    (hbeginning : ¬ parametersBeginning.take front.length <+: front) :
    routeOfSpine (quoting front (dotted segments) betweenBack :: below) =
      stepsOfSegments segments := by
  have hparameters := not_isParametersSentence_quoting hbeginning (dotted segments) betweenBack
  have hends : betweenTheseTypesEnding.isSuffixOf (quoting front (dotted segments) betweenBack) :=
    isSuffixOf_quoting (by decide) front (dotted segments)
  have hquoted : segmentsOf (quoting front (dotted segments) betweenBack) = segments :=
    segmentsOf_quoting hfront (by decide) hsegments
  rw [routeOfSpine, if_neg hparameters, if_pos hends]
  exact congrArg stepsOfSegments hquoted

theorem routeOfSpine_property :
    routeOfSpine
        ((Template.propertyTypesIncompatible.chain [dotted segments]).text :: below) =
      stepsOfSegments segments ++ ((parameterOf? (below.take 3)).map Step.param).toList := by
  rw [text_propertyTypesIncompatible]
  have hbeginning : ¬ parametersBeginning.take ("Types of property " : Text).length <+:
      ("Types of property " : Text) := by decide
  have hparameters := not_isParametersSentence_quoting hbeginning (dotted segments)
    incompatibleBack
  have hends : incompatibleEnding.isSuffixOf
      (quoting "Types of property " (dotted segments) incompatibleBack) :=
    isSuffixOf_quoting (by decide) _ (dotted segments)
  have hquoted : segmentsOf (quoting "Types of property " (dotted segments) incompatibleBack) =
      segments :=
    segmentsOf_quoting (by decide) (by decide) hsegments
  have hbetween : ¬ betweenTheseTypesEnding.isSuffixOf
      (quoting "Types of property " (dotted segments) incompatibleBack) := fun hbetween =>
    not_isSuffixOf_of_betweenTheseTypes hbetween hends
  rw [routeOfSpine, if_neg hparameters, if_neg hbetween, if_pos hends]
  exact congrArg (stepsOfSegments · ++ _) hquoted

end

/-- What the sentences of the catalog tell along first children. -/
inductive Tells : List Text → Route → Prop
  | types {names below : List Text} (hnames : AreNames names) :
      Tells ((Template.typesIncompatibleBetween.chain [dotted names]).text :: below)
        (names.map Step.field)
  | returnedTypes {names below : List Text} {last : Text} (hnames : AreNames (names ++ [last])) :
      Tells
        ((Template.returnedTypesIncompatibleBetween.chain
          [dotted (names ++ [last]) ++ ("()" : Text)]).text :: below)
        ((names ++ [last]).map Step.field ++ [.result last])
  | parameters {below : List Text} {source target : Text}
      (hparameters : AreParameters source target) :
      Tells ((Template.parameterTypesIncompatible.chain [source, target]).text :: below)
        [.param source]
  | property {names below : List Text} (hnames : AreNames names)
      (hbelow : ∀ sentence ∈ below.take 3, ¬ isParametersSentence sentence) :
      Tells ((Template.propertyTypesIncompatible.chain [dotted names]).text :: below)
        (names.map Step.field)
  | propertyParameter {names below : List Text} {source target : Text} (hnames : AreNames names)
      (hparameters : AreParameters source target)
      (hbelow : (below.take 3).find? isParametersSentence =
        some (Template.parameterTypesIncompatible.chain [source, target]).text) :
      Tells ((Template.propertyTypesIncompatible.chain [dotted names]).text :: below)
        (names.map Step.field ++ [.param source])

theorem Tells.routeOfSpine_eq {sentences : List Text} {route : Route}
    (htells : Tells sentences route) : routeOfSpine sentences = route := by
  cases htells with
  | @types names below hnames =>
      rw [text_typesIncompatibleBetween,
        routeOfSpine_between hnames.toAreSegments below (by decide) (by decide),
        hnames.stepsOfSegments_eq]
  | @returnedTypes names below last hnames =>
      rw [text_returnedTypesIncompatibleBetween, dotted, Text.joinWith_concat_append, ← dotted,
        routeOfSpine_between hnames.areSegments_call below (by decide) (by decide),
        hnames.stepsOfSegments_call]
  | @parameters below source target hparameters => exact hparameters.routeOfSpine_eq below
  | @property names below hnames hbelow =>
      have hparameter : parameterOf? (below.take 3) = none := by
        rw [parameterOf?, List.find?_eq_none.mpr hbelow, Option.bind_none]
      rw [routeOfSpine_property hnames.toAreSegments below, hparameter, hnames.stepsOfSegments_eq]
      simp
  | @propertyParameter names below source target hnames hparameters hbelow =>
      have hparameter : parameterOf? (below.take 3) = some source := by
        rw [parameterOf?, hbelow, Option.bind_some, hparameters.firstQuoted?_eq]
      rw [routeOfSpine_property hnames.toAreSegments below, hparameter, hnames.stepsOfSegments_eq]
      rfl

/-- A chain without reasons, whose sentences are those of the catalog, has the route that they
tell. -/
theorem MessageChain.route_of_tells {chain : MessageChain} {route : Route}
    (hchain : ¬ chain.IsTagged) (htells : Tells chain.sentences route) :
    chain.route Template.typeNotAssignable.code = route := by
  rw [route_of_not_isTagged hchain, htells.routeOfSpine_eq]

theorem MessageChain.route_of_tells_parameter :
    let parameters := Template.parameterTypesIncompatible.chain ["\x7b0\x7d", "\x7b1\x7d"]
    let property := Template.propertyTypesIncompatible.chain ["a.b c"]
    let chain : MessageChain := ⟨"A", none,
      [{ property with children := [⟨"B", none, [⟨"C", none, [parameters]⟩]⟩] }]⟩
    ¬ chain.IsTagged ∧ Tells chain.sentences [.field "a", .field "b c", .param "\x7b0\x7d"] ∧
      chain.route Template.typeNotAssignable.code =
        [.field "a", .field "b c", .param "\x7b0\x7d"] := by
  intro parameters property chain
  have hchain : ¬ chain.IsTagged := by
    simp [IsTagged, spine, chain, property, parameters, Template.chain]
  have hsentences : chain.sentences =
      [property.text, ("B" : Text), ("C" : Text), parameters.text] := by
    simp [sentences, spine, chain, parameters, Template.chain]
  have hsegments : ∀ segment ∈ [("a" : Text), ("b c" : Text)], IsSegment segment := by
    rw [List.forall_mem_cons, List.forall_mem_singleton]
    exact ⟨⟨by decide, by decide, by decide⟩, ⟨by decide, by decide, by decide⟩⟩
  have hnames : AreNames [("a" : Text), ("b c" : Text)] :=
    ⟨⟨List.cons_ne_nil _ _, hsegments⟩, by decide⟩
  have hparameters : AreParameters "\x7b0\x7d" "\x7b1\x7d" :=
    ⟨by decide, by decide, by decide⟩
  have hbelow : ([("B" : Text), ("C" : Text), parameters.text].take 3).find?
      isParametersSentence = some parameters.text := by
    decide +kernel
  have htells : Tells chain.sentences [.field "a", .field "b c", .param "\x7b0\x7d"] := by
    rw [hsentences]
    exact .propertyParameter hnames hparameters hbelow
  exact ⟨hchain, htells, route_of_tells hchain htells⟩

end MismatchReport
