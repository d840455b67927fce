import MismatchReport.Command.Run
import MismatchReport.Proofs.Json.Decoding
import MismatchReport.Proofs.Text.Decimal
import MismatchReport.Proofs.Text.Trimming

/-!
# Merged options

The options of a run come from three places: the flags, the configuration file, the defaults.  Each
option is taken from the first of them that has it, whatever they say of the others.  Only an indent
that no text can have leaves a run without options.
-/

namespace MismatchReport.Command

open Json (Decoder)

structure Configuration where
  width : Option Nat := none
  indent : Option Text := none
  color : Option ColorMode := none

/-- The text is a document of the configuration.  A width of null is none. -/
def Configuration.IsRead (configuration : Configuration) (text : Text) : Prop :=
  ∃ json record width, Json.parse? text = some json ∧
    Decoder.record ["width", "indent", "color"] Json.documentScope json = some record ∧
    record.Holds "width" (Decoder.option Decoder.size) width ∧
    configuration.width = width.getD none ∧
    record.Holds "indent" Decoder.text configuration.indent ∧
    record.Holds "color" Document.decodeColor configuration.color

def Configuration.options (configuration : Configuration) : Options where
  width := configuration.width
  indent := configuration.indent.getD "  "
  color := configuration.color.getD .auto

theorem readOptions?_eq_some_iff {text : Text} {options : Options} :
    Document.readOptions? text = some options ↔
      ∃ configuration : Configuration, configuration.IsRead text ∧
        configuration.options = options := by
  simp only [Document.readOptions?, Document.decodeOptions, Option.bind_eq_bind,
    Option.bind_eq_some_iff, Decoder.Record.optional, Decoder.defaulted_eq_some_iff]
  constructor
  · rintro ⟨json, hjson, record, hrecord, width, ⟨held, hwidth, rfl⟩, indent,
      ⟨heldIndent, hindent, rfl⟩, color, ⟨heldColor, hcolor, rfl⟩, hoptions⟩
    exact ⟨⟨held.getD none, heldIndent, heldColor⟩,
      ⟨json, record, held, hjson, hrecord, hwidth, rfl, hindent, hcolor⟩,
      Option.some.inj hoptions⟩
  · rintro ⟨configuration, ⟨json, record, held, hjson, hrecord, hwidth, heq, hindent, hcolor⟩, rfl⟩
    exact ⟨json, hjson, record, hrecord, _, ⟨held, hwidth, heq.symm⟩, _, ⟨_, hindent, rfl⟩, _,
      ⟨_, hcolor, rfl⟩, rfl⟩

inductive IsConfigured (files : Files) : Option Text → Configuration → Prop
  | none : IsConfigured files none {}
  | file {path text : Text} {configuration : Configuration}
      (htext : files.readText? path = some text) (hread : configuration.IsRead text) :
      IsConfigured files (some path) configuration

inductive FailsToConfigure (files : Files) : Option Text → Failure → Prop
  | unreadable {path : Text} (htext : files.readText? path = none) :
      FailsToConfigure files (some path) (.unreadableConfig path)
  | malformed {path text : Text} (htext : files.readText? path = some text)
      (hread : ∀ configuration : Configuration, ¬ configuration.IsRead text) :
      FailsToConfigure files (some path) (.malformedConfig path)

theorem FailsToConfigure.code_eq {files : Files} {config : Option Text} {failure : Failure}
    (hfails : FailsToConfigure files config failure) : failure.code = 1 := by
  cases hfails <;> rfl

theorem isConfigured_or_failsToConfigure (files : Files) (config : Option Text) :
    (∃ configuration, IsConfigured files config configuration) ∨
      ∃ failure, FailsToConfigure files config failure := by
  cases config with
  | none => exact .inl ⟨{}, .none⟩
  | some path =>
      cases htext : files.readText? path with
      | none => exact .inr ⟨_, .unreadable htext⟩
      | some text =>
          by_cases hread : ∃ configuration : Configuration, configuration.IsRead text
          · obtain ⟨configuration, hread⟩ := hread
            exact .inl ⟨configuration, .file htext hread⟩
          · exact .inr ⟨_, .malformed htext (not_exists.mp hread)⟩

/-- Each option from its flag, else from the configuration, else its default.  Without a width
there is none before the surroundings are asked. -/
def mergedOptions (arguments : Arguments) (configuration : Configuration) : Options where
  width := arguments.width.or configuration.width
  indent := ((arguments.indent.map (List.replicate · ' ')).or configuration.indent).getD "  "
  color := (arguments.color.or configuration.color).getD .auto

/-- The flag asks for no indent, or for one of less than 2 ^ 63 spaces. -/
def Arguments.IndentFits (arguments : Arguments) : Prop :=
  ∀ count, arguments.indent = some count → count < 0x8000000000000000

variable {files : Files} {arguments : Arguments} {configuration : Configuration}

theorem override_options (hindent : arguments.IndentFits) :
    arguments.override configuration.options = .ok (mergedOptions arguments configuration) := by
  unfold Arguments.override Arguments.overrideIndent mergedOptions
  cases hcount : arguments.indent with
  | none =>
      simp only [Configuration.options, Except.map, Option.getD_or, Option.map_none]
      rfl
  | some count =>
      simp only [Text.spaces?_eq_some (hindent count hcount), Configuration.options, Except.map,
        Option.getD_or, Option.map_some]
      rfl

theorem override_of_wideIndent {count : Nat} (hcount : arguments.indent = some count)
    (hwide : 0x8000000000000000 ≤ count) (options : Options) :
    arguments.override options = .error .overflow := by
  have hspaces := Text.spaces?_eq_none_iff.mpr hwide
  simp only [Arguments.override, Arguments.overrideIndent, hcount, hspaces, Except.map]

theorem resolveOptions_of_isConfigured
    (hconfigured : IsConfigured files arguments.config configuration) :
    resolveOptions files arguments = arguments.override configuration.options := by
  unfold resolveOptions
  generalize arguments.config = config at hconfigured
  cases hconfigured with
  | none => rfl
  | file htext hread =>
      have hoptions := readOptions?_eq_some_iff.mpr ⟨configuration, hread, rfl⟩
      simp only [loadOptions, htext, hoptions, Except.bind]

theorem resolveOptions_of_failsToConfigure {failure : Failure}
    (hfails : FailsToConfigure files arguments.config failure) :
    resolveOptions files arguments = .error failure := by
  unfold resolveOptions
  generalize arguments.config = config at hfails
  cases hfails with
  | unreadable htext => simp only [loadOptions, htext, Except.bind]
  | @malformed path text htext hread =>
      have hoptions : Document.readOptions? text = none := by
        by_contra hsome
        obtain ⟨options, hoptions⟩ := Option.ne_none_iff_exists'.mp hsome
        obtain ⟨configuration, hconfiguration, -⟩ := readOptions?_eq_some_iff.mp hoptions
        exact hread configuration hconfiguration
      simp only [loadOptions, htext, hoptions, Except.bind]

/-- A number above zero with at most 64 bits, between white space. -/
def SpellsWidth (value : Text) (width : Nat) : Prop :=
  ∃ before number after : Text, value = before ++ number ++ after ∧
    (∀ char ∈ before, Text.isWhiteSpace char) ∧ (∀ char ∈ after, Text.isWhiteSpace char) ∧
    Text.SpellsNumber number width ∧ 0 < width ∧ width < UInt64.size

theorem not_isWhiteSpace_of_spellsNumber {number : Text} {width : Nat}
    (hnumber : Text.SpellsNumber number width) : ∀ char ∈ number, ¬ Text.isWhiteSpace char := by
  have hdigits : ∀ char : Char, char.isDigit → ¬ Text.isWhiteSpace char := by
    intro char hdigit
    have hrange := Text.toNat_of_isDigit hdigit
    simp only [Text.isWhiteSpace, Bool.or_eq_true, Bool.and_eq_true, decide_eq_true_eq, beq_iff_eq]
    omega
  obtain ⟨sign, zeros, hsign, hzeros, rfl⟩ := hnumber
  refine List.forall_mem_append.mpr ⟨?_, fun char hchar =>
    hdigits char (Text.isDigit_of_mem_zeros_append hzeros hchar)⟩
  rcases hsign with rfl | rfl
  · exact List.forall_mem_nil _
  · exact List.forall_mem_singleton.mpr (by decide)

theorem parseColumns_eq_some_iff {value : Option Text} {width : Nat} :
    parseColumns value = some width ↔ ∃ text, value = some text ∧ SpellsWidth text width := by
  simp only [parseColumns, Option.filter_eq_some_iff, Option.bind_eq_some_iff, decide_eq_true_eq,
    Text.readSize?_eq_some_iff]
  constructor
  · rintro ⟨⟨text, rfl, hnumber, hsize⟩, hpositive⟩
    obtain ⟨before, after, htext, hbefore, hafter⟩ := Text.exists_eq_append_trim_append text
    exact ⟨text, rfl, before, Text.trim text, after, htext, hbefore, hafter, hnumber, hpositive,
      hsize⟩
  · rintro ⟨_, rfl, before, number, after, rfl, hbefore, hafter, hnumber, hpositive, hsize⟩
    have hempty : number ≠ [] := by
      obtain ⟨sign, zeros, -, -, rfl⟩ := hnumber
      simp [Text.ofNat_ne_nil]
    have htrim := Text.trim_append_append hempty hbefore
      (not_isWhiteSpace_of_spellsNumber hnumber) hafter
    exact ⟨⟨_, rfl, by rwa [htrim], hsize⟩, hpositive⟩

end MismatchReport.Command
