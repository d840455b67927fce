import MismatchReport.Proofs.Command.Options
import MismatchReport.Proofs.Document.Reload
import MismatchReport.Proofs.Report.Batch

/-!
# What a run prints

A run needs its configuration and then its snapshot.  Without one of them it fails and prints
nothing; with both it prints all reports and, where there are errors, how many.  It does neither
where it would have to write 2 ^ 63 spaces or more, for the indent or in the header of a report.
-/

namespace MismatchReport

/-! ## Categories -/

def SnapshotDiagnostic.withCategory (diagnostic : SnapshotDiagnostic) (category : Category) :
    SnapshotDiagnostic :=
  { diagnostic with category }

/-- The snapshots have the same contents but for the categories of their diagnostics. -/
structure Snapshot.IsRecategorized (first second : Snapshot) : Prop where
  files_eq : second.files = first.files
  types_eq : second.types = first.types
  diagnostics : List.Forall₂ (fun original changed : SnapshotDiagnostic =>
    ∃ category, changed = original.withCategory category) first.diagnostics second.diagnostics

namespace Formatter

variable {first second : Snapshot}

theorem freshReport_withCategory (hrecategorized : first.IsRecategorized second)
    (formatter : Formatter) (diagnostic : SnapshotDiagnostic) (category : Category) :
    formatter.freshReport second (diagnostic.withCategory category) =
      formatter.freshReport first diagnostic := by
  obtain ⟨files, types, diagnostics⟩ := second
  obtain ⟨rfl, rfl, -⟩ := hrecategorized
  rfl

theorem renderAll_of_isRecategorized (hrecategorized : first.IsRecategorized second)
    (formatter : Formatter) (styler : Styler) :
    formatter.renderAll second styler = formatter.renderAll first styler := by
  have hreport := freshReport_withCategory hrecategorized formatter
  have hdiagnostics := hrecategorized.diagnostics
  rw [renderAll_eq_flatMap, renderAll_eq_flatMap]
  generalize first.diagnostics = originals at hdiagnostics
  generalize second.diagnostics = changed at hdiagnostics
  induction hdiagnostics with
  | nil => rfl
  | cons hchanged _ ih =>
      obtain ⟨category, rfl⟩ := hchanged
      rw [List.flatMap_cons, List.flatMap_cons, ih, printReport, printReport, hreport]

end Formatter

namespace Command

def sourceText? (surroundings : Surroundings) (path : Text) : Option Text :=
  if isStandardInput path then decodeUtf8? surroundings.input
  else surroundings.files.readText? path

def Loads (surroundings : Surroundings) (path : Text) (snapshot : Snapshot) : Prop :=
  ∃ text, sourceText? surroundings path = some text ∧ Document.readSnapshot text = .ok snapshot

inductive FailsToLoad (surroundings : Surroundings) (path : Text) : Failure → Prop
  | unreadableInput (hpath : isStandardInput path = true)
      (htext : sourceText? surroundings path = none) :
      FailsToLoad surroundings path .unreadableInput
  | unreadableFile (hpath : isStandardInput path = false)
      (htext : sourceText? surroundings path = none) :
      FailsToLoad surroundings path (.unreadableSnapshot path)
  | invalid {text : Text} {error : Document.SnapshotError}
      (htext : sourceText? surroundings path = some text)
      (hread : Document.readSnapshot text = .error error) :
      FailsToLoad surroundings path (.invalidSnapshot path error)

theorem FailsToLoad.code_eq {surroundings : Surroundings} {path : Text} {failure : Failure}
    (hfails : FailsToLoad surroundings path failure) : failure.code = 1 := by
  cases hfails <;> rfl

theorem loads_or_failsToLoad (surroundings : Surroundings) (path : Text) :
    (∃ snapshot, Loads surroundings path snapshot) ∨
      ∃ failure, FailsToLoad surroundings path failure := by
  cases htext : sourceText? surroundings path with
  | none =>
      cases hpath : isStandardInput path with
      | true => exact .inr ⟨_, .unreadableInput hpath htext⟩
      | false => exact .inr ⟨_, .unreadableFile hpath htext⟩
  | some text =>
      cases hread : Document.readSnapshot text with
      | error error => exact .inr ⟨_, .invalid htext hread⟩
      | ok snapshot => exact .inl ⟨snapshot, text, htext, hread⟩

variable {surroundings : Surroundings} {arguments : Arguments} {words : List Text}

theorem loadSnapshot_of_text {path text : Text}
    (htext : sourceText? surroundings path = some text) :
    loadSnapshot surroundings path =
      (Document.readSnapshot text).mapError (.invalidSnapshot path) := by
  have hsnapshot : snapshotText surroundings path = .ok text := by
    unfold sourceText? at htext
    unfold snapshotText
    split_ifs at htext ⊢ <;> rw [htext]
  rw [loadSnapshot, hsnapshot]
  rfl

theorem loadSnapshot_of_loads {path : Text} {snapshot : Snapshot}
    (hloads : Loads surroundings path snapshot) :
    loadSnapshot surroundings path = .ok snapshot := by
  obtain ⟨text, htext, hread⟩ := hloads
  rw [loadSnapshot_of_text htext, hread]
  rfl

theorem loadSnapshot_of_failsToLoad {path : Text} {failure : Failure}
    (hfails : FailsToLoad surroundings path failure) :
    loadSnapshot surroundings path = .error failure := by
  cases hfails with
  | unreadableInput hpath htext =>
      rw [sourceText?, if_pos hpath] at htext
      rw [loadSnapshot, snapshotText, if_pos hpath, htext]
      rfl
  | unreadableFile hpath htext =>
      rw [sourceText?, if_neg (by simp [hpath])] at htext
      rw [loadSnapshot, snapshotText, if_neg (by simp [hpath]), htext]
      rfl
  | invalid htext hread =>
      rw [loadSnapshot_of_text htext, hread]
      rfl

def reportWidth (surroundings : Surroundings) (options : Options) : Nat :=
  (options.width.or (parseColumns (surroundings.valueOf? "COLUMNS"))).getD 80

/-- The width of the options comes first, then that of the terminal, and then eighty columns. -/
inductive IsReportWidth (surroundings : Surroundings) : Option Nat → Nat → Prop
  | given {width : Nat} : IsReportWidth surroundings (some width) width
  | columns {value : Text} {width : Nat} (hvalue : surroundings.valueOf? "COLUMNS" = some value)
      (hspells : SpellsWidth value width) : IsReportWidth surroundings none width
  | default (hvalue : ∀ value width, surroundings.valueOf? "COLUMNS" = some value →
      ¬ SpellsWidth value width) : IsReportWidth surroundings none 80

theorem reportWidth_eq_iff {surroundings : Surroundings} {options : Options} {width : Nat} :
    reportWidth surroundings options = width ↔
      IsReportWidth surroundings options.width width := by
  unfold reportWidth
  constructor
  · rintro rfl
    cases options.width with
    | some width => exact .given
    | none =>
        cases hcolumns : parseColumns (surroundings.valueOf? "COLUMNS") with
        | some width =>
            obtain ⟨value, hvalue, hspells⟩ := parseColumns_eq_some_iff.mp hcolumns
            exact .columns hvalue hspells
        | none =>
            refine .default fun value width hvalue hspells => ?_
            rw [parseColumns_eq_some_iff.mpr ⟨value, hvalue, hspells⟩] at hcolumns
            cases hcolumns
  · intro hwidth
    generalize options.width = given at hwidth
    cases hwidth with
    | given => rfl
    | columns hvalue hspells =>
        rw [parseColumns_eq_some_iff.mpr ⟨_, hvalue, hspells⟩]
        rfl
    | default hvalue =>
        have hnone : parseColumns (surroundings.valueOf? "COLUMNS") = none := by
          refine Option.eq_none_iff_forall_ne_some.mpr fun width hsome => ?_
          obtain ⟨value, hfound, hspells⟩ := parseColumns_eq_some_iff.mp hsome
          exact hvalue value width hfound hspells
        rw [hnone]
        rfl

def reportText (surroundings : Surroundings) (options : Options) (snapshot : Snapshot) : Text :=
  Formatter.renderAll ⟨options.indent, reportWidth surroundings options⟩ snapshot
    (.forTerminal (usesColors surroundings options))

def errorsOf (snapshot : Snapshot) : List SnapshotDiagnostic :=
  snapshot.diagnostics.filter (·.category = .error)

def summaryLine (count : Nat) : Text :=
  if count = 1 then "Found 1 error.\n" else "Found " ++ Text.ofNat count ++ " errors.\n"

/-! ## Runs -/

/-- What a run does: how it ends and all that it prints.  The overflows are the ends that are
neither a failure nor a completion. -/
inductive Runs (surroundings : Surroundings) (arguments : Arguments) : Outcome → Prop
  | unconfigured {failure : Failure}
      (hfails : FailsToConfigure surroundings.files arguments.config failure) :
      Runs surroundings arguments { code := 1, output := [], failure := some failure }
  | wideIndent {configuration : Configuration} {count : Nat}
      (hconfigured : IsConfigured surroundings.files arguments.config configuration)
      (hcount : arguments.indent = some count) (hwide : 0x8000000000000000 ≤ count) :
      Runs surroundings arguments { code := 101, output := [], failure := some .overflow }
  | unloaded {configuration : Configuration} {failure : Failure}
      (hconfigured : IsConfigured surroundings.files arguments.config configuration)
      (hindent : arguments.IndentFits)
      (hfails : FailsToLoad surroundings arguments.snapshot failure) :
      Runs surroundings arguments { code := 1, output := [], failure := some failure }
  | wideHeader {configuration : Configuration} {snapshot : Snapshot}
      (hconfigured : IsConfigured surroundings.files arguments.config configuration)
      (hindent : arguments.IndentFits)
      (hloads : Loads surroundings arguments.snapshot snapshot)
      (hheader : Formatter.HasWideHeader
        (reportWidth surroundings (mergedOptions arguments configuration)) snapshot) :
      Runs surroundings arguments { code := 101, output := [], failure := some .overflow }
  | clean {configuration : Configuration} {snapshot : Snapshot}
      (hconfigured : IsConfigured surroundings.files arguments.config configuration)
      (hindent : arguments.IndentFits)
      (hloads : Loads surroundings arguments.snapshot snapshot)
      (hheaders : ¬ Formatter.HasWideHeader
        (reportWidth surroundings (mergedOptions arguments configuration)) snapshot)
      (hclean : ∀ diagnostic ∈ snapshot.diagnostics, diagnostic.category ≠ .error) :
      Runs surroundings arguments
        { code := 0
          output := reportText surroundings (mergedOptions arguments configuration) snapshot }
  | errors {configuration : Configuration} {snapshot : Snapshot}
      (hconfigured : IsConfigured surroundings.files arguments.config configuration)
      (hindent : arguments.IndentFits)
      (hloads : Loads surroundings arguments.snapshot snapshot)
      (hheaders : ¬ Formatter.HasWideHeader
        (reportWidth surroundings (mergedOptions arguments configuration)) snapshot)
      (herrors : ∃ diagnostic ∈ snapshot.diagnostics, diagnostic.category = .error) :
      Runs surroundings arguments
        { code := 1
          output := reportText surroundings (mergedOptions arguments configuration) snapshot ++
            summaryLine (errorsOf snapshot).length }

def renderingOf (surroundings : Surroundings) (options : Options) (snapshot : Snapshot) :
    Rendering where
  text := reportText surroundings options snapshot
  diagnosticCount := snapshot.diagnostics.length
  errorCount := (errorsOf snapshot).length

theorem render?_of_fits {options : Options} {snapshot : Snapshot}
    (hheaders : ¬ Formatter.HasWideHeader (reportWidth surroundings options) snapshot) :
    render? snapshot options (surroundings.valueOf? "COLUMNS")
      (.forTerminal (usesColors surroundings options)) =
      some (renderingOf surroundings options snapshot) := by
  have hcount : snapshot.diagnostics.countP isError = (errorsOf snapshot).length :=
    List.countP_eq_length_filter
  rw [render?, Formatter.renderAll?_eq_some hheaders, hcount]
  rfl

theorem render?_of_hasWideHeader {options : Options} {snapshot : Snapshot}
    (hheader : Formatter.HasWideHeader (reportWidth surroundings options) snapshot)
    (styler : Styler) :
    render? snapshot options (surroundings.valueOf? "COLUMNS") styler = none := by
  rw [render?, Formatter.renderAll?_eq_none hheader]
  rfl

theorem summary?_of_pos {count : Nat} (hcount : 0 < count) :
    (summary? count).map (· ++ ['\n']) = some (summaryLine count) := by
  unfold summary? summaryLine
  split
  · omega
  · simp
  · simp_all

theorem complete_of_clean {snapshot : Snapshot}
    (hclean : ∀ diagnostic ∈ snapshot.diagnostics, diagnostic.category ≠ .error)
    (options : Options) :
    complete (renderingOf surroundings options snapshot) =
      ⟨reportText surroundings options snapshot, 0⟩ := by
  have hnone : (errorsOf snapshot).length = 0 := by
    simpa [errorsOf] using hclean
  rw [complete, renderingOf, hnone]
  exact congrArg (Completion.mk · 0) (List.append_nil _)

theorem complete_of_errors {snapshot : Snapshot}
    (herrors : ∃ diagnostic ∈ snapshot.diagnostics, diagnostic.category = .error)
    (options : Options) :
    complete (renderingOf surroundings options snapshot) =
      ⟨reportText surroundings options snapshot ++ summaryLine (errorsOf snapshot).length, 1⟩ := by
  have hsome : 0 < (errorsOf snapshot).length := by
    obtain ⟨diagnostic, hdiagnostic, herror⟩ := herrors
    exact List.length_pos_of_mem (List.mem_filter.mpr ⟨hdiagnostic, by simpa using herror⟩)
  rw [complete, renderingOf, summary?_of_pos hsome, if_pos hsome]
  rfl

theorem exists_runs (surroundings : Surroundings) (arguments : Arguments) :
    ∃ outcome, Runs surroundings arguments outcome := by
  rcases isConfigured_or_failsToConfigure surroundings.files arguments.config with
    ⟨configuration, hconfigured⟩ | ⟨failure, hfails⟩
  · by_cases hindent : arguments.IndentFits
    · rcases loads_or_failsToLoad surroundings arguments.snapshot with
        ⟨snapshot, hloads⟩ | ⟨failure, hfails⟩
      · by_cases hheader : Formatter.HasWideHeader
          (reportWidth surroundings (mergedOptions arguments configuration)) snapshot
        · exact ⟨_, .wideHeader hconfigured hindent hloads hheader⟩
        · by_cases herrors : ∃ diagnostic ∈ snapshot.diagnostics, diagnostic.category = .error
          · exact ⟨_, .errors hconfigured hindent hloads hheader herrors⟩
          · push Not at herrors
            exact ⟨_, .clean hconfigured hindent hloads hheader herrors⟩
      · exact ⟨_, .unloaded hconfigured hindent hfails⟩
    · simp only [Arguments.IndentFits, not_forall, not_lt] at hindent
      obtain ⟨count, hcount, hwide⟩ := hindent
      exact ⟨_, .wideIndent hconfigured hcount hwide⟩
  · exact ⟨_, .unconfigured hfails⟩

theorem run_of_failsToConfigure {failure : Failure}
    (hfails : FailsToConfigure surroundings.files arguments.config failure) :
    run surroundings arguments = .error failure := by
  rw [run, resolveOptions_of_failsToConfigure hfails]
  rfl

section Configured

variable {configuration : Configuration}
  (hconfigured : IsConfigured surroundings.files arguments.config configuration)

include hconfigured

theorem run_of_wideIndent {count : Nat} (hcount : arguments.indent = some count)
    (hwide : 0x8000000000000000 ≤ count) : run surroundings arguments = .error .overflow := by
  rw [run, resolveOptions_of_isConfigured hconfigured, override_of_wideIndent hcount hwide]
  rfl

theorem run_of_failsToLoad (hindent : arguments.IndentFits) {failure : Failure}
    (hfails : FailsToLoad surroundings arguments.snapshot failure) :
    run surroundings arguments = .error failure := by
  rw [run, resolveOptions_of_isConfigured hconfigured, override_options hindent,
    loadSnapshot_of_failsToLoad hfails]
  rfl

theorem run_of_wideHeader (hindent : arguments.IndentFits) {snapshot : Snapshot}
    (hloads : Loads surroundings arguments.snapshot snapshot)
    (hheader : Formatter.HasWideHeader
      (reportWidth surroundings (mergedOptions arguments configuration)) snapshot) :
    run surroundings arguments = .error .overflow := by
  rw [run, resolveOptions_of_isConfigured hconfigured, override_options hindent,
    loadSnapshot_of_loads hloads]
  simp only [bind, Except.bind, render?_of_hasWideHeader hheader]

theorem run_of_loads (hindent : arguments.IndentFits) {snapshot : Snapshot}
    (hloads : Loads surroundings arguments.snapshot snapshot)
    (hheaders : ¬ Formatter.HasWideHeader
      (reportWidth surroundings (mergedOptions arguments configuration)) snapshot) :
    run surroundings arguments =
      .ok (complete
        (renderingOf surroundings (mergedOptions arguments configuration) snapshot)) := by
  rw [run, resolveOptions_of_isConfigured hconfigured, override_options hindent,
    loadSnapshot_of_loads hloads]
  simp only [bind, Except.bind, render?_of_fits hheaders]
  rfl

end Configured

theorem execute_of_error (hparse : parseArguments words = .ok arguments) {failure : Failure}
    (hrun : run surroundings arguments = .error failure) :
    execute surroundings words =
      { code := failure.code, output := [], failure := some failure } := by
  simp only [execute, hparse, hrun]

theorem execute_of_ok (hparse : parseArguments words = .ok arguments) {completion : Completion}
    (hrun : run surroundings arguments = .ok completion) :
    execute surroundings words = { code := completion.code, output := completion.output } := by
  simp only [execute, hparse, hrun]

theorem execute_of_runs (hparse : parseArguments words = .ok arguments) {outcome : Outcome}
    (hruns : Runs surroundings arguments outcome) :
    execute surroundings words = outcome := by
  cases hruns with
  | unconfigured hfails =>
      rw [execute_of_error hparse (run_of_failsToConfigure hfails), hfails.code_eq]
  | wideIndent hconfigured hcount hwide =>
      exact execute_of_error hparse (run_of_wideIndent hconfigured hcount hwide)
  | unloaded hconfigured hindent hfails =>
      rw [execute_of_error hparse (run_of_failsToLoad hconfigured hindent hfails), hfails.code_eq]
  | wideHeader hconfigured hindent hloads hheader =>
      exact execute_of_error hparse (run_of_wideHeader hconfigured hindent hloads hheader)
  | clean hconfigured hindent hloads hheaders hclean =>
      rw [execute_of_ok hparse (run_of_loads hconfigured hindent hloads hheaders),
        complete_of_clean hclean]
  | errors hconfigured hindent hloads hheaders herrors =>
      rw [execute_of_ok hparse (run_of_loads hconfigured hindent hloads hheaders),
        complete_of_errors herrors]

theorem decodeUtf8?_toUTF8 (text : String) : decodeUtf8? text.toUTF8 = some text.toList := by
  have hvalid : text.toUTF8.IsValidUTF8 := text.isValidUTF8
  rw [decodeUtf8?, String.fromUTF8?, dif_pos hvalid]
  rfl

def sampleConfig : String := "\x7b\"width\":30,\"color\":\"always\"\x7d"

def sampleWith (category : Category) : Snapshot where
  diagnostics := [{ code := 1, category, message := { text := "no" } }]

def placedSample : Snapshot where
  files := [⟨"a.ts", "x"⟩]
  diagnostics := [{ file := "a.ts", span := some ⟨0, 1⟩, code := 1, message := { text := "no" } }]

def writtenBytes (snapshot : Snapshot) : ByteArray :=
  (String.ofList (Document.writeSnapshot snapshot)).toUTF8

def sampleFiles : Files := fun path =>
  if path = ("c.json" : Text) then some sampleConfig.toUTF8
  else if path = ("s.json" : Text) then some (writtenBytes (sampleWith .error))
  else if path = ("p.json" : Text) then some (writtenBytes placedSample)
  else none

theorem isConfigured_sampleFiles :
    IsConfigured sampleFiles (some "c.json") { width := some 30, color := some .always } := by
  let fields : List (Text × Json) := [("width", .ofWord 30), ("color", .ofText "always")]
  let record : Json.Decoder.Record := { scope := { room := 126 }, fields }
  have hwidth : record.field? "width" = some (.ofWord 30) := rfl
  have hcolor : record.field? "color" = some (.ofText "always") := rfl
  have hfields : (Json.ofFields fields).IsSimple := .fields (List.forall_mem_cons.mpr
    ⟨.word 30, List.forall_mem_singleton.mpr (.text "always")⟩)
  have htext : (Json.ofFields fields).write = sampleConfig.toList := by decide
  refine .file (decodeUtf8?_toUTF8 sampleConfig) ⟨.ofFields fields, record, some (some 30),
    htext ▸ Json.parse?_write hfields, rfl, ?_, rfl, ?_, ?_⟩
  · exact .present hwidth (by decide)
  · exact .absent rfl
  · exact .present hcolor rfl

theorem decodeUtf8?_writtenBytes (snapshot : Snapshot) :
    decodeUtf8? (writtenBytes snapshot) = some (Document.writeSnapshot snapshot) := by
  rw [writtenBytes, decodeUtf8?_toUTF8, String.toList_ofList]

theorem loads_of_writtenBytes {path : Text} {snapshot : Snapshot}
    (hpath : isStandardInput path = false)
    (hfile : surroundings.files path = some (writtenBytes snapshot))
    (hread : Document.readSnapshot (Document.writeSnapshot snapshot) = .ok snapshot) :
    Loads surroundings path snapshot := by
  refine ⟨Document.writeSnapshot snapshot, ?_, hread⟩
  rw [sourceText?, if_neg (by simp [hpath]), Files.readText?, hfile]
  exact decodeUtf8?_writtenBytes snapshot

theorem loads_input :
    Loads { input := writtenBytes (sampleWith .warning) } "-" (sampleWith .warning) := by
  refine ⟨Document.writeSnapshot (sampleWith .warning), ?_,
    (Document.readSnapshot_writeSnapshot_iff (by decide)).mpr rfl⟩
  rw [sourceText?, if_pos (by decide)]
  exact decodeUtf8?_writtenBytes (sampleWith .warning)

theorem loads_sampleFiles : Loads { files := sampleFiles } "s.json" (sampleWith .error) :=
  loads_of_writtenBytes (by decide) rfl
    ((Document.readSnapshot_writeSnapshot_iff (by decide)).mpr rfl)

theorem loads_placedSample : Loads { files := sampleFiles } "p.json" placedSample :=
  loads_of_writtenBytes (by decide) rfl
    ((Document.readSnapshot_writeSnapshot_iff (by decide)).mpr rfl)

theorem not_hasWideHeader_sampleWith (width : Nat) (category : Category) :
    ¬ Formatter.HasWideHeader width (sampleWith category) := by
  rintro ⟨diagnostic, hdiagnostic, span, buffer, hspan, -⟩
  obtain rfl := List.mem_singleton.mp hdiagnostic
  cases hspan

end Command

end MismatchReport
