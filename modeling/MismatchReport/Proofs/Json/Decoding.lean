import MismatchReport.Json.Decoder
import MismatchReport.Proofs.Json.Nesting

/-!
# Decoding what was encoded

Records, tagged values and joined records, read from the objects that encoders make of them.
-/

namespace MismatchReport.Json

def Scope.inside (scope : Scope) : Scope := { scope with room := scope.room - 1 }

@[simp] theorem Scope.inside_room (scope : Scope) : scope.inside.room = scope.room - 1 := rfl

theorem Scope.enter?_of_pos {scope : Scope} (hpos : 0 < scope.room) :
    scope.enter? = some scope.inside := if_pos hpos

theorem Scope.enter?_eq_some_iff {scope inner : Scope} :
    scope.enter? = some inner ↔ 0 < scope.room ∧ inner = scope.inside := by
  simp [Scope.enter?, Scope.inside, eq_comm]

/-- A decoder that gives back every encoded value for which there is room. -/
structure Lawful {α : Type} (encode : α → Json) (decode : Decoder α) : Prop where
  isSimple : ∀ value, (encode value).IsSimple
  reads : ∀ value scope, (encode value).nesting ≤ scope.room →
    decode scope (encode value) = some value

attribute [simp] IsSimple.bool IsSimple.word IsSimple.text

namespace Decoder

variable {α β : Type}

@[simp] theorem text_ofText (scope : Scope) (value : Text) :
    text scope (ofText value) = some value := rfl

@[simp] theorem bool_bool (scope : Scope) (value : Bool) :
    bool scope (.bool value) = some value := rfl

@[simp] theorem word_ofWord (scope : Scope) (value : UInt32) :
    word scope (ofWord value) = some value := by
  simp [word, natBelow, ofWord, ofNat, value.toNat_lt_size]

theorem lawful_text : Lawful ofText text := ⟨.text, fun value scope _ => text_ofText scope value⟩

theorem lawful_word : Lawful ofWord word := ⟨.word, fun value scope _ => word_ofWord scope value⟩

theorem lawful_bool : Lawful .bool bool := ⟨.bool, fun value scope _ => bool_bool scope value⟩

theorem option_of_isSimple {decode : Decoder α} {scope : Scope} {json : Json} {value : α}
    (hjson : json.IsSimple) (hread : decode scope json = some value) :
    option decode scope json = some (some value) := by
  cases hjson <;> simp_all [option, ofWord, ofNat, ofText, ofFields]

theorem mapM_map_of_forall {encode : α → Json} {decode : Json → Option α} {values : List α}
    (hread : ∀ value ∈ values, decode (encode value) = some value) :
    (values.map encode).mapM decode = some values := by
  induction values with
  | nil => rfl
  | cons value values ih =>
      obtain ⟨hvalue, hvalues⟩ := List.forall_mem_cons.mp hread
      rw [List.map_cons, List.mapM_cons, hvalue, ih hvalues]
      rfl

theorem list_array {encode : α → Json} {decode : Decoder α} {scope : Scope} {values : List α}
    (hroom : (array (values.map encode)).nesting ≤ scope.room)
    (hread : ∀ value ∈ values, decode scope.inside (encode value) = some value) :
    list decode scope (array (values.map encode)) = some values := by
  obtain ⟨hpos, -⟩ := nesting_array_le_iff.mp hroom
  rw [list, Scope.enter?_of_pos hpos]
  exact mapM_map_of_forall hread

theorem lawful_list {encode : α → Json} {decode : Decoder α} (hitem : Lawful encode decode) :
    Lawful (fun values => array (values.map encode)) (list decode) where
  isSimple values := .array (List.forall_mem_map.mpr fun value _ => hitem.isSimple value)
  reads values scope hroom := by
    obtain ⟨-, hitems⟩ := nesting_array_le_iff.mp hroom
    rw [List.forall_mem_map] at hitems
    exact list_array hroom fun value hvalue => hitem.reads value _ (hitems value hvalue)

/-! ## Records -/

theorem mem_optionalField {name : Text} {encode : α → Json} {value : Option α} {v : α}
    (hv : v ∈ value) : (name, encode v) ∈ optionalField name encode value := by
  rw [Option.mem_def.mp hv]
  exact List.mem_singleton.mpr rfl

theorem forall_mem_field {name : Text} {value : Json} {p : Text × Json → Prop} :
    (∀ entry ∈ field name value, p entry) ↔ p (name, value) := by
  rw [field, List.forall_mem_singleton]

theorem forall_mem_optionalField {name : Text} {encode : α → Json} {value : Option α}
    {p : Text × Json → Prop} :
    (∀ entry ∈ optionalField name encode value, p entry) ↔ ∀ v ∈ value, p (name, encode v) := by
  cases value <;> simp [optionalField, field]

def entriesOf (fields : List (Text × Json)) : List (Option Text × Json) :=
  fields.map fun (name, value) => (some name, value)

theorem ofFields_eq (fields : List (Text × Json)) : ofFields fields = .object (entriesOf fields) :=
  rfl

theorem mapM_entriesOf (fields : List (Text × Json)) :
    (entriesOf fields).mapM (fun (name, value) => name.map fun name => (name, value)) =
      some fields := by
  induction fields with
  | nil => rfl
  | cons entry fields ih =>
      rw [entriesOf, List.map_cons, List.mapM_cons, ← entriesOf, ih]
      rfl

theorem partition_entriesOf {name : Text} {fields own others : List (Text × Json)}
    (hown : fields.filter (fun entry => entry.1 == name) = own)
    (hothers : fields.filter (fun entry => !(entry.1 == name)) = others) :
    (entriesOf fields).partition (fun (key, _) => key == some name) =
      (entriesOf own, entriesOf others) := by
  rw [List.partition_eq_filter_filter, entriesOf, List.filter_map, List.filter_map]
  subst hown hothers
  rfl

theorem record_ofFields {names : List Text} {fields : List (Text × Json)} {scope : Scope}
    (hnodup : names.Nodup) (hnames : (fields.map Prod.fst).Sublist names)
    (hroom : (ofFields fields).nesting ≤ scope.room) :
    record names scope (ofFields fields) = some ⟨scope.inside, fields⟩ := by
  obtain ⟨hpos, -⟩ := nesting_ofFields_le_iff.mp hroom
  have hfilter : fields.filter (fun (name, _) => names.contains name) = fields := by
    refine List.filter_eq_self.mpr fun entry hentry => ?_
    exact List.contains_iff_mem.mpr (hnames.subset (List.mem_map_of_mem hentry))
  unfold record
  rw [Scope.enter?_of_pos hpos]
  simp only [ofFields_eq, mapM_entriesOf, Option.bind_eq_bind, Option.bind_some, hfilter]
  exact if_pos (hnodup.sublist hnames)

theorem bind_eq_of_eq_some {found : Option α} {value : α} {next : α → Option β}
    {result : Option β} (hfound : found = some value) (hnext : next value = result) :
    (found >>= next) = result := by
  rw [hfound]
  exact hnext

section Lawful

variable {encode : α → Json} {decode : Decoder α} {record : Record} {name : Text}

theorem required_of_lawful (hlawful : Lawful encode decode) {value : α}
    (hfield : record.field? name = some (encode value))
    (hroom : (encode value).nesting ≤ record.scope.room) :
    record.required name decode = some value := by
  unfold Record.required
  rw [hfield]
  exact hlawful.reads value record.scope hroom

theorem defaulted_of_lawful (hlawful : Lawful encode decode) {value default : α}
    (hfield : record.field? name = some (encode value))
    (hroom : (encode value).nesting ≤ record.scope.room) :
    record.defaulted name default decode = some value := by
  unfold Record.defaulted
  rw [hfield]
  exact hlawful.reads value record.scope hroom

theorem optional_of_lawful (hlawful : Lawful encode decode) {value : Option α}
    (hfield : record.field? name = value.map encode)
    (hroom : ∀ v ∈ value, (encode v).nesting ≤ record.scope.room) :
    record.optional name decode = some value := by
  unfold Record.optional Record.defaulted
  rw [hfield]
  cases value with
  | none => rfl
  | some value =>
      have hread := hlawful.reads value record.scope (hroom value rfl)
      exact option_of_isSimple (hlawful.isSimple value) hread

theorem required_text {value : Text} (hfield : record.field? name = some (ofText value)) :
    record.required name text = some value :=
  required_of_lawful lawful_text hfield (Nat.zero_le _)

end Lawful

/-! ## Tagged values -/

theorem tagged_ofFields {names : List Text} {name : Text} {fields : List (Text × Json)}
    {scope : Scope} (hname : name ∈ names) (htag : ∀ entry ∈ fields, entry.1 ≠ tagName)
    (hsimple : ∀ entry ∈ fields, entry.2.IsSimple)
    (hroom : (ofFields (("kind", ofText name) :: fields)).nesting ≤ scope.room) :
    tagged names scope (ofFields (("kind", ofText name) :: fields)) =
      some ⟨name, scope.hold, ofFields fields⟩ := by
  have hreadable : (ofFields (("kind", ofText name) :: fields)).isReadable scope.room = true :=
    IsSimple.isReadable (.fields (by simpa using hsimple)) hroom
  have hcase : caseName? names scope (ofText name) = some name := by
    simp [caseName?, ofText, hname]
  have hpartition : (entriesOf (("kind", ofText name) :: fields)).partition
      (fun (key, _) => key == some tagName) =
        ([(some ("kind" : Text), ofText name)], entriesOf fields) := by
    have hown : ((tagName, ofText name) :: fields).filter (fun entry => entry.1 == tagName) =
        [(tagName, ofText name)] := by
      simpa using htag
    have hothers : ((tagName, ofText name) :: fields).filter (fun entry => !(entry.1 == tagName)) =
        fields := by
      simpa using htag
    exact partition_entriesOf hown hothers
  unfold tagged
  rw [if_pos hreadable]
  simp only [ofFields_eq, hpartition, hcase]
  rfl

theorem tagged_record_ofFields {tag : Text} {names : List Text} {fields : List (Text × Json)}
    {scope : Scope} (hnodup : names.Nodup) (hnames : (fields.map Prod.fst).Sublist names)
    (hroom : (ofFields fields).nesting ≤ scope.room) :
    Tagged.record ⟨tag, scope, ofFields fields⟩ names = some ⟨scope.inside, fields⟩ :=
  record_ofFields hnodup hnames hroom

theorem joined_ofFields {name : Text} {fields : List (Text × Json)} {encode : β → Json}
    {value : Option β} {scope : Scope} (hfields : ∀ entry ∈ fields, entry.1 ≠ name)
    (hsimple : ∀ entry ∈ fields, entry.2.IsSimple)
    (hroom : (ofFields (fields ++ optionalField name encode value)).nesting ≤ scope.room) :
    joined name scope (ofFields (fields ++ optionalField name encode value)) =
      some ⟨⟨scope.inside, optionalField name encode value⟩, scope.hold, ofFields fields⟩ := by
  have hown : ∀ entry ∈ optionalField name encode value, entry.1 = name :=
    forall_mem_optionalField.mpr fun _ _ => rfl
  have hlength : (optionalField name encode value).length ≤ 1 := by
    cases value <;> simp [optionalField, field]
  generalize optionalField name encode value = own at *
  obtain ⟨hpos, hparts⟩ := nesting_ofFields_le_iff.mp hroom
  have hreadable : areReadableEntries scope.inside.room (entriesOf fields) = true :=
    areReadableEntries_fields.mpr fun entry hentry =>
      (hsimple entry hentry).isReadable (hparts entry (List.mem_append_left _ hentry))
  have hpartition : (entriesOf (fields ++ own)).partition (fun (key, _) => key == some name) =
      (entriesOf own, entriesOf fields) := by
    have hownFilter : (fields ++ own).filter (fun entry => entry.1 == name) = own := by
      rw [List.filter_append, List.filter_eq_nil_iff.mpr (by simpa using hfields),
        List.filter_eq_self.mpr (by simpa using hown), List.nil_append]
    have hothers : (fields ++ own).filter (fun entry => !(entry.1 == name)) = fields := by
      rw [List.filter_append, List.filter_eq_self.mpr (by simpa using hfields),
        List.filter_eq_nil_iff.mpr (by simpa using hown), List.append_nil]
    exact partition_entriesOf hownFilter hothers
  unfold joined
  rw [Scope.enter?_of_pos hpos]
  simp only [ofFields_eq, Option.bind_eq_bind, Option.bind_some, hpartition]
  rw [if_pos (by rw [hreadable]; simpa [entriesOf] using hlength)]
  have hnames : (entriesOf own).map (fun (_, value) => (name, value)) = own := by
    rw [entriesOf, List.map_map]
    refine (List.map_congr_left fun entry hentry => ?_).trans own.map_id
    rw [Function.comp_apply, ← hown entry hentry]
    rfl
  rw [hnames]

theorem record_eq_some {names : List Text} {scope : Scope} {json : Json} {found : Record}
    (hfound : record names scope json = some found) :
    0 < scope.room ∧ found.scope = scope.inside := by
  obtain ⟨inner, hinner, hfound⟩ := Option.bind_eq_some_iff.mp hfound
  obtain ⟨hpos, rfl⟩ := Scope.enter?_eq_some_iff.mp hinner
  refine ⟨hpos, ?_⟩
  split at hfound
  · obtain ⟨entries, -, hfound⟩ := Option.bind_eq_some_iff.mp hfound
    dsimp only at hfound
    split_ifs at hfound
    cases hfound
    rfl
  · split_ifs at hfound
    cases hfound
    rfl
  · cases hfound

theorem required_eq_some {record : Record} {name : Text} {decode : Decoder α} {value : α}
    (hvalue : record.required name decode = some value) :
    ∃ json, decode record.scope json = some value := by
  obtain ⟨json, -, hjson⟩ := Option.bind_eq_some_iff.mp hvalue
  exact ⟨json, hjson⟩

inductive Record.Holds (record : Record) (name : Text) (decode : Decoder α) : Option α → Prop
  | absent (hfield : record.field? name = none) : Holds record name decode none
  | present {json : Json} {value : α} (hfield : record.field? name = some json)
      (hvalue : decode record.scope json = some value) : Holds record name decode (some value)

theorem defaulted_eq_some_iff {record : Record} {name : Text} {decode : Decoder α}
    {default value : α} :
    record.defaulted name default decode = some value ↔
      ∃ held, record.Holds name decode held ∧ held.getD default = value := by
  unfold Record.defaulted
  constructor
  · intro hvalue
    split at hvalue
    · rename_i hfield
      exact ⟨none, .absent hfield, Option.some.inj hvalue⟩
    · rename_i json hfield
      exact ⟨some value, .present hfield hvalue, rfl⟩
  · rintro ⟨held, hholds, rfl⟩
    cases hholds with
    | absent hfield => simp [hfield]
    | present hfield hvalue => simp [hfield, hvalue]

theorem defaulted_eq_some {record : Record} {name : Text} {decode : Decoder α}
    {default value : α} (hvalue : record.defaulted name default decode = some value) :
    value = default ∨ ∃ json, decode record.scope json = some value := by
  obtain ⟨held, hholds, rfl⟩ := defaulted_eq_some_iff.mp hvalue
  cases hholds with
  | absent => exact .inl rfl
  | present _ hjson => exact .inr ⟨_, hjson⟩

theorem optional_eq_some {record : Record} {name : Text} {decode : Decoder α} {value : α}
    (hvalue : record.optional name decode = some (some value)) :
    ∃ json, decode record.scope json = some value := by
  obtain hnone | ⟨json, hjson⟩ := defaulted_eq_some hvalue
  · cases hnone
  · refine ⟨json, ?_⟩
    rw [option.eq_def] at hjson
    split at hjson
    · cases hjson
    · simpa using hjson

theorem mem_of_list_eq_some {decode : Decoder α} {scope : Scope} {json : Json} {values : List α}
    (hvalues : list decode scope json = some values) :
    0 < scope.room ∧ ∀ value ∈ values, ∃ item, decode scope.inside item = some value := by
  cases json with
  | array items =>
      obtain ⟨inner, hinner, hmap⟩ := Option.bind_eq_some_iff.mp hvalues
      obtain ⟨hpos, rfl⟩ := Scope.enter?_eq_some_iff.mp hinner
      refine ⟨hpos, ?_⟩
      clear hvalues hinner
      induction items generalizing values with
      | nil =>
          cases hmap
          simp
      | cons item items ih =>
          rw [List.mapM_cons] at hmap
          obtain ⟨value, hvalue, hmap⟩ := Option.bind_eq_some_iff.mp hmap
          obtain ⟨rest, hrest, hmap⟩ := Option.bind_eq_some_iff.mp hmap
          cases hmap
          rw [List.forall_mem_cons]
          exact ⟨⟨item, hvalue⟩, ih hrest⟩
  | _ => cases hvalues

theorem tagged_eq_some {names : List Text} {scope : Scope} {json : Json} {found : Tagged}
    (hfound : tagged names scope json = some found) : 0 < scope.room := by
  rw [tagged.eq_def] at hfound
  split_ifs at hfound with hreadable
  split at hfound
  · exact nesting_pos_of_isReadable_object hreadable
  · exact nesting_pos_of_isReadable_array hreadable
  · cases hfound

theorem joined_eq_some {name : Text} {scope : Scope} {json : Json} {found : Joined}
    (hfound : joined name scope json = some found) : found.scope = scope.hold := by
  unfold joined at hfound
  obtain ⟨inner, hinner, hfound⟩ := Option.bind_eq_some_iff.mp hfound
  split at hfound
  · dsimp only at hfound
    split_ifs at hfound
    cases hfound
    rfl
  · cases hfound

end Decoder

end MismatchReport.Json
