import Mathlib.Data.List.Basic
import MismatchReport.Chain.Catalog
import MismatchReport.Proofs.Text.Decimal
import MismatchReport.Proofs.Text.Replacement

/-!
# Filled sentences

Arguments are put into a sentence one after the other, so that a later one also fills its places
in the earlier ones.  Apart from that it is as if they were put in all at once.
-/

namespace MismatchReport

open Text (replaceAll replaceEach)

def isPlaceChar (char : Char) : Bool := char == '\x7b' || char == '\x7d' || char.isDigit

theorem isPlaceChar_of_mem_placeholder {index : Nat} {char : Char}
    (hchar : char ∈ placeholder index) : isPlaceChar char := by
  rcases List.mem_cons.mp hchar with rfl | hchar
  · rfl
  · rcases List.mem_append.mp hchar with hdigit | hbrace
    · simp [isPlaceChar, Text.isDigit_of_mem_ofNat hdigit]
    · obtain rfl := List.mem_singleton.mp hbrace
      rfl

theorem placeholder_ne_nil (index : Nat) : placeholder index ≠ [] := List.cons_ne_nil _ _

theorem eq_of_infix_placeholder {first second : Nat}
    (hoccurs : placeholder first <:+: placeholder second) : first = second := by
  have hopen : '\x7b' ∉ Text.ofNat second ++ ['\x7d'] := by
    intro hmem
    rcases List.mem_append.mp hmem with hdigit | hbrace
    · exact absurd (Text.isDigit_of_mem_ofNat hdigit) (by decide)
    · exact absurd hbrace (by decide)
  have hclose : ∀ value, '\x7d' ∉ Text.ofNat value := fun value hmem =>
    absurd (Text.isDigit_of_mem_ofNat hmem) (by decide)
  obtain ⟨before, after, heq⟩ := hoccurs
  -- An opening brace stands at the start of a place and nowhere else.
  cases before with
  | cons char before =>
      have hrest : before ++ placeholder first ++ after = Text.ofNat second ++ ['\x7d'] :=
        (List.cons.inj heq).2
      exact absurd (hrest ▸ by simp [placeholder]) hopen
  | nil =>
      have hrest : Text.ofNat second ++ ['\x7d'] = Text.ofNat first ++ '\x7d' :: after := by
        simpa [placeholder] using heq.symm
      have hdigits := (List.append_cons_inj_of_notMem (hclose second) List.not_mem_nil).mp hrest
      rw [← Text.natOfDigits_ofNat first, ← hdigits.1, Text.natOfDigits_ofNat]

/-! ## Filling at once -/

def placesFrom (index : Nat) : List Text → List (Text × Text)
  | [] => []
  | argument :: rest => (placeholder index, argument) :: placesFrom (index + 1) rest

/-- The arguments put in all at once: the places of the template are found in one scan, and the
text of an argument is not looked at again. -/
def fillAtOnce (arguments : List Text) (template : Text) : Text :=
  replaceEach (placesFrom 0 arguments) template

/-- Each argument with the later arguments put into its own places. -/
def filledFrom (index : Nat) : List Text → List Text
  | [] => []
  | argument :: rest => fillFrom (index + 1) argument rest :: filledFrom (index + 1) rest

theorem mem_placesFrom {index : Nat} {arguments : List Text} {entry : Text × Text}
    (hentry : entry ∈ placesFrom index arguments) :
    ∃ place, index ≤ place ∧ place < index + arguments.length ∧ entry.1 = placeholder place := by
  induction arguments generalizing index with
  | nil => cases hentry
  | cons argument rest ih =>
      rcases List.mem_cons.mp hentry with rfl | hentry
      · exact ⟨index, Nat.le_refl _, by simp, rfl⟩
      · obtain ⟨place, hle, hlt, heq⟩ := ih hentry
        exact ⟨place, by omega, by rw [List.length_cons]; omega, heq⟩

theorem length_filledFrom (index : Nat) (arguments : List Text) :
    (filledFrom index arguments).length = arguments.length := by
  induction arguments generalizing index with
  | nil => rfl
  | cons argument rest ih => rw [filledFrom, List.length_cons, List.length_cons, ih]

section Separators

variable {char : Char} (hchar : ¬ isPlaceChar char) (front rest : Text)

include hchar

theorem replaceEach_placesFrom_append_cons (index : Nat) (arguments : List Text) :
    replaceEach (placesFrom index arguments) (front ++ char :: rest) =
      replaceEach (placesFrom index arguments) front ++
        char :: replaceEach (placesFrom index arguments) rest := by
  refine Text.replaceEach_append_cons (fun entry hentry => ?_) front rest
  obtain ⟨place, -, -, heq⟩ := mem_placesFrom hentry
  rw [heq]
  exact ⟨placeholder_ne_nil place, mt isPlaceChar_of_mem_placeholder hchar⟩

theorem fillFrom_append_cons (index : Nat) (arguments : List Text) :
    fillFrom index (front ++ char :: rest) arguments =
      fillFrom index front arguments ++ char :: fillFrom index rest arguments := by
  induction arguments generalizing index front rest with
  | nil => rfl
  | cons argument arguments ih =>
      have hplace := replaceEach_placesFrom_append_cons hchar front rest index [argument]
      simp only [placesFrom, ← Text.replaceAll_eq_replaceEach] at hplace
      rw [fillFrom, fillFrom, fillFrom, hplace, ih]

end Separators

/-! ## Isolated places -/

/-- Every place of one of the arguments stands alone between characters that no place has. -/
def IsolatesPlaces (count : Nat) (template : Text) : Prop :=
  ∀ run ∈ template.splitOnP (!isPlaceChar ·), ∀ index < count,
    placeholder index <:+: run → run = placeholder index

theorem splitOnP_of_forall {run : Text} (hrun : ∀ char ∈ run, isPlaceChar char) :
    run.splitOnP (!isPlaceChar ·) = [run] :=
  List.splitOnP_eq_singleton fun char hchar => by simpa using hrun char hchar

theorem isolatesPlaces_append_cons {count : Nat} {char : Char} (hchar : ¬ isPlaceChar char)
    {front rest : Text} :
    IsolatesPlaces count (front ++ char :: rest) ↔
      IsolatesPlaces count front ∧ IsolatesPlaces count rest := by
  have hsplit : (front ++ char :: rest).splitOnP (!isPlaceChar ·) =
      front.splitOnP (!isPlaceChar ·) ++ rest.splitOnP (!isPlaceChar ·) :=
    List.splitOnP_append_cons front rest (by simpa using hchar)
  rw [IsolatesPlaces, hsplit, List.forall_mem_append]
  rfl

theorem isolatesPlaces_placeholder (count index : Nat) :
    IsolatesPlaces count (placeholder index) := by
  rw [IsolatesPlaces, splitOnP_of_forall fun _ => isPlaceChar_of_mem_placeholder,
    List.forall_mem_singleton]
  intro place _ hoccurs
  rw [eq_of_infix_placeholder hoccurs]

theorem isolatesPlaces_catalog (count : Nat) :
    ∀ template ∈ [Template.typesIncompatibleBetween, Template.returnedTypesIncompatibleBetween,
        Template.typeNotAssignable, Template.propertyTypesIncompatible,
        Template.parameterTypesIncompatible],
      IsolatesPlaces count template.text := by
  have hruns : ∀ template ∈ [Template.typesIncompatibleBetween,
      Template.returnedTypesIncompatibleBetween, Template.typeNotAssignable,
      Template.propertyTypesIncompatible, Template.parameterTypesIncompatible],
      ∀ run ∈ template.text.splitOnP (!isPlaceChar ·),
        run = placeholder 0 ∨ run = placeholder 1 ∨ '\x7b' ∉ run := by
    decide +kernel
  intro template htemplate run hrun index _ hoccurs
  rcases hruns template htemplate run hrun with rfl | rfl | hbrace
  · rw [eq_of_infix_placeholder hoccurs]
  · rw [eq_of_infix_placeholder hoccurs]
  · exact absurd (hoccurs.subset List.mem_cons_self) hbrace

theorem fillFrom_run {index : Nat} {arguments : List Text} {run : Text}
    (hrun : ∀ place, index ≤ place → place < index + arguments.length →
      placeholder place <:+: run → run = placeholder place) :
    fillFrom index run arguments =
      replaceEach (placesFrom index (filledFrom index arguments)) run := by
  induction arguments generalizing index with
  | nil => exact (Text.replaceEach_eq_self fun _ hentry => by cases hentry).symm
  | cons argument rest ih =>
      have hlength : index < index + (argument :: rest).length := by simp
      rw [fillFrom, filledFrom, placesFrom, Text.replaceAll_eq_replaceEach]
      by_cases hplace : placeholder index <:+: run
      · obtain rfl := hrun index (Nat.le_refl _) hlength hplace
        rw [Text.replaceEach_self (placeholder_ne_nil index),
          Text.replaceEach_self (placeholder_ne_nil index)]
      · have hstays : ∀ entry ∈ [(placeholder index, argument)], ¬ entry.1 <:+: run := by
          simpa using hplace
        rw [Text.replaceEach_eq_self hstays, Text.replaceEach_cons_of_absent hplace]
        refine ih fun place hle hlt => hrun place (by omega) ?_
        rw [List.length_cons]
        omega

theorem fillFrom_eq_self {index : Nat} {arguments : List Text} {text : Text}
    (htext : ∀ place, index ≤ place → place < index + arguments.length →
      ¬ placeholder place <:+: text) :
    fillFrom index text arguments = text := by
  rw [fillFrom_run fun place hle hlt hoccurs => absurd hoccurs (htext place hle hlt)]
  refine Text.replaceEach_eq_self fun entry hentry => ?_
  obtain ⟨place, hle, hlt, heq⟩ := mem_placesFrom hentry
  rw [length_filledFrom] at hlt
  rw [heq]
  exact htext place hle hlt

theorem formatMessage_eq_fillAtOnce {arguments : List Text} {template : Text}
    (htemplate : IsolatesPlaces arguments.length template) :
    formatMessage template arguments = fillAtOnce (filledFrom 0 arguments) template := by
  induction hlength : template.length using Nat.strongRecOn generalizing template with
  | ind length ih =>
      by_cases hchars : ∀ char ∈ template, isPlaceChar char
      · rw [IsolatesPlaces, splitOnP_of_forall hchars, List.forall_mem_singleton] at htemplate
        refine fillFrom_run fun place _ hlt => htemplate place ?_
        simpa using hlt
      · -- A character that no place has cuts the template in two.
        obtain ⟨char, hmem, hchar⟩ : ∃ char ∈ template, ¬ isPlaceChar char := by
          simpa using hchars
        obtain ⟨front, rest, rfl⟩ := List.append_of_mem hmem
        obtain ⟨hfront, hrest⟩ := (isolatesPlaces_append_cons hchar).mp htemplate
        rw [List.length_append, List.length_cons] at hlength
        have hfront := ih front.length (by omega) hfront rfl
        have hrest := ih rest.length (by omega) hrest rfl
        unfold formatMessage fillAtOnce at hfront hrest ⊢
        rw [fillFrom_append_cons hchar, replaceEach_placesFrom_append_cons hchar, hfront, hrest]

theorem fillAtOnce_placeholder {arguments : List Text} {place : Nat} {argument : Text}
    (hargument : arguments[place]? = some argument) :
    fillAtOnce arguments (placeholder place) = argument := by
  have hfrom : ∀ index, replaceEach (placesFrom index arguments) (placeholder (index + place)) =
      argument := by
    intro index
    induction arguments generalizing index place with
    | nil => cases hargument
    | cons first rest ih =>
        rw [placesFrom]
        cases place with
        | zero =>
            obtain rfl : first = argument := by simpa using hargument
            exact Text.replaceEach_self (placeholder_ne_nil index) _ _
        | succ place =>
            have hother : ¬ placeholder index <:+: placeholder (index + (place + 1)) := by
              intro hoccurs
              have := eq_of_infix_placeholder hoccurs
              omega
            have hrest := ih (by simpa using hargument) (index + 1)
            rw [Text.replaceEach_cons_of_absent hother, ← hrest]
            congr 2
            omega
  rw [fillAtOnce]
  simpa using hfrom 0

/-- No argument spells the place of a later one. -/
def SpellsNoLaterPlace (arguments : List Text) : Prop :=
  ∀ place argument, arguments[place]? = some argument →
    ∀ later, place < later → later < arguments.length → ¬ placeholder later <:+: argument

theorem filledFrom_eq_self {index : Nat} {arguments : List Text}
    (hplain : ∀ place argument, arguments[place]? = some argument →
      ∀ later, place < later → later < arguments.length →
        ¬ placeholder (index + later) <:+: argument) :
    filledFrom index arguments = arguments := by
  induction arguments generalizing index with
  | nil => rfl
  | cons argument rest ih =>
      have hargument : fillFrom (index + 1) argument rest = argument := by
        refine fillFrom_eq_self fun place hle hlt => ?_
        obtain ⟨later, rfl⟩ := Nat.exists_eq_add_of_le (Nat.le_of_succ_le hle)
        exact hplain 0 argument rfl later (by omega) (by rw [List.length_cons]; omega)
      have hrest : filledFrom (index + 1) rest = rest := by
        refine ih fun place other hother later hplace hlater => ?_
        have := hplain (place + 1) other (by simpa using hother) (later + 1) (by omega)
          (by simpa using hlater)
        rwa [Nat.add_assoc, Nat.add_comm 1 later]
      rw [filledFrom, hargument, hrest]

/-- A template that isolates its places gets the arguments put in at once, after each of them was
filled with the later ones.  So arguments are copied as they are, into whatever such template,
exactly if none of them changes when it is filled, and none does that spells no later place. -/
theorem formatMessage_of_isolatesPlaces (arguments : List Text) :
    (∀ template, IsolatesPlaces arguments.length template →
      formatMessage template arguments = fillAtOnce (filledFrom 0 arguments) template) ∧
    ((∀ template, IsolatesPlaces arguments.length template →
      formatMessage template arguments = fillAtOnce arguments template) ↔
        filledFrom 0 arguments = arguments) ∧
    (SpellsNoLaterPlace arguments → filledFrom 0 arguments = arguments) := by
  refine ⟨fun template => formatMessage_eq_fillAtOnce, ⟨fun hcopied => ?_, fun hfilled => ?_⟩,
    fun hplain => filledFrom_eq_self ?_⟩
  · refine List.ext_getElem (length_filledFrom 0 arguments) fun place hfilled hplace => ?_
    have hisolated := isolatesPlaces_placeholder arguments.length place
    have heq := (formatMessage_eq_fillAtOnce hisolated).symm.trans (hcopied _ hisolated)
    rwa [fillAtOnce_placeholder (List.getElem?_eq_getElem hfilled),
      fillAtOnce_placeholder (List.getElem?_eq_getElem hplace)] at heq
  · intro template htemplate
    rw [formatMessage_eq_fillAtOnce htemplate, hfilled]
  · simpa [SpellsNoLaterPlace] using hplain

theorem formatMessage_copies_arguments :
    IsolatesPlaces 2 Template.typeNotAssignable.text ∧
      SpellsNoLaterPlace ["\x7b0\x7d", "\x7b0\x7d\x7b1\x7d"] ∧
      formatMessage Template.typeNotAssignable.text ["\x7b0\x7d", "\x7b0\x7d\x7b1\x7d"] =
        "Type '\x7b0\x7d' is not assignable to type '\x7b0\x7d\x7b1\x7d'." := by
  have hisolated := isolatesPlaces_catalog 2 Template.typeNotAssignable (by simp)
  have hplain : SpellsNoLaterPlace ["\x7b0\x7d", "\x7b0\x7d\x7b1\x7d"] := by
    intro place argument hargument later hplace hlater
    obtain ⟨rfl, rfl⟩ : place = 0 ∧ later = 1 := by
      simp only [List.length_cons, List.length_nil] at hlater
      omega
    obtain rfl := Option.some.inj hargument
    decide
  obtain ⟨-, hcopied, hfilled⟩ :=
    formatMessage_of_isolatesPlaces ["\x7b0\x7d", "\x7b0\x7d\x7b1\x7d"]
  refine ⟨hisolated, hplain, ?_⟩
  rw [hcopied.mpr (hfilled hplain) _ hisolated]
  decide

/-- A type whose text is a place is replaced by the other type. -/
theorem formatMessage_fills_argument :
    formatMessage Template.typeNotAssignable.text ["\"\x7b1\x7d\"", "string"] =
        "Type '\"string\"' is not assignable to type 'string'." ∧
      fillAtOnce ["\"\x7b1\x7d\"", "string"] Template.typeNotAssignable.text =
        "Type '\"\x7b1\x7d\"' is not assignable to type 'string'." := by
  decide

end MismatchReport
