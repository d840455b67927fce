import MismatchReport.Proofs.Snapshot.Lookup
import MismatchReport.Proofs.Style.Line
import MismatchReport.Report.Basic

/-!
# Reports of a batch

The reports of a snapshot share the buffers that the earlier ones opened.  Each of them is the
report that its diagnostic gets alone, with a buffer opened for it.  There are all of them or, where
the header of one takes more spaces than a text can have, none.
-/

namespace MismatchReport.Formatter

/-- The buffer of a file, opened anew.  The empty name and an unknown one have none. -/
def freshBuffer? (snapshot : Snapshot) (name : Text) : Option Source.Buffer :=
  if name.isEmpty then none else snapshot.buffer? name

theorem mem_files_of_freshBuffer? {snapshot : Snapshot} {name : Text} {buffer : Source.Buffer}
    (hbuffer : freshBuffer? snapshot name = some buffer) :
    buffer.toSourceFile ∈ snapshot.files := by
  unfold freshBuffer? at hbuffer
  split at hbuffer
  · cases hbuffer
  · exact Snapshot.mem_files_of_buffer? hbuffer

def freshReport (formatter : Formatter) (snapshot : Snapshot) (diagnostic : SnapshotDiagnostic) :
    List StyledLine :=
  formatter.report snapshot.checker (freshBuffer? snapshot diagnostic.file)
    diagnostic.toDiagnostic diagnostic.relatedTypes

def printLines (styler : Styler) (lines : List StyledLine) : Text :=
  lines.flatMap fun line => styler.renderLine line ++ ['\n']

def printReport (formatter : Formatter) (snapshot : Snapshot) (styler : Styler)
    (diagnostic : SnapshotDiagnostic) : Text :=
  printLines styler (formatter.freshReport snapshot diagnostic)

theorem printLines_append (styler : Styler) (first second : List StyledLine) :
    printLines styler (first ++ second) = printLines styler first ++ printLines styler second :=
  List.flatMap_append

theorem renderLines_append_lineFeed (styler : Styler) {lines : List StyledLine}
    (hlines : lines ≠ []) : styler.renderLines lines ++ ['\n'] = printLines styler lines := by
  unfold Styler.renderLines Text.joinLines Text.joinWith printLines
  induction lines with
  | nil => exact absurd rfl hlines
  | cons line rest ih =>
      cases rest with
      | nil => simp
      | cons next rest =>
          have hrest := ih (by simp)
          rw [List.map_cons] at hrest
          rw [List.map_cons, List.map_cons, List.intercalate_cons_cons, List.flatMap_cons,
            List.append_assoc, hrest]

variable {τ : Type} [DecidableEq τ]

theorem report_eq_append_empty (formatter : Formatter) (checker : Checker τ)
    (buffer : Option Source.Buffer) (diagnostic : Diagnostic)
    (related : Option (RelatedTypes τ)) :
    ∃ lines, formatter.report checker buffer diagnostic related = lines ++ [.empty] :=
  ⟨_, rfl⟩

def AreFresh (snapshot : Snapshot) (buffers : OpenBuffers) : Prop :=
  ∀ name buffer, buffers.lookup name = some buffer → freshBuffer? snapshot name = some buffer

variable {snapshot : Snapshot} {buffers : OpenBuffers}

theorem AreFresh.openBuffer (hfresh : AreFresh snapshot buffers) (name : Text) :
    AreFresh snapshot (openBuffer snapshot name buffers) := by
  unfold Formatter.openBuffer
  split
  · exact hfresh
  · rename_i hclosed
    have hname : name.isEmpty = false := by
      simp only [Bool.or_eq_true, not_or, Bool.not_eq_true] at hclosed
      exact hclosed.1
    split
    · exact hfresh
    · rename_i buffer hbuffer
      intro other opened hopened
      rw [List.lookup_cons] at hopened
      split at hopened
      · rename_i hsame
        obtain rfl : other = name := by simpa using hsame
        rw [freshBuffer?, hname, ← hopened]
        exact hbuffer
      · exact hfresh other opened hopened

theorem AreFresh.lookup_openBuffer (hfresh : AreFresh snapshot buffers) (name : Text) :
    (Formatter.openBuffer snapshot name buffers).lookup name = freshBuffer? snapshot name := by
  unfold Formatter.openBuffer
  cases hopen : buffers.lookup name with
  | some buffer =>
      rw [if_pos (by simp), hopen, hfresh name buffer hopen]
  | none =>
      by_cases hname : name.isEmpty
      · rw [if_pos (by simp [hname]), hopen, freshBuffer?, if_pos hname]
      · rw [if_neg (by simpa using hname), freshBuffer?, if_neg hname]
        cases snapshot.buffer? name with
        | none => exact hopen
        | some buffer => simp

theorem renderFrom_eq_flatMap (formatter : Formatter) (styler : Styler)
    (hfresh : AreFresh snapshot buffers) (diagnostics : List SnapshotDiagnostic) :
    formatter.renderFrom snapshot styler buffers diagnostics =
      diagnostics.flatMap (formatter.printReport snapshot styler) := by
  induction diagnostics generalizing buffers with
  | nil => rfl
  | cons diagnostic rest ih =>
      have hrest := ih (hfresh.openBuffer diagnostic.file)
      obtain ⟨lines, hlines⟩ := formatter.report_eq_append_empty snapshot.checker
        (freshBuffer? snapshot diagnostic.file) diagnostic.toDiagnostic diagnostic.relatedTypes
      have hreport : formatter.freshReport snapshot diagnostic ≠ [] := by
        rw [freshReport, hlines]
        simp
      rw [renderFrom, hfresh.lookup_openBuffer, hrest, List.flatMap_cons, printReport,
        ← renderLines_append_lineFeed styler hreport, List.append_assoc]
      rfl

theorem renderAll_eq_flatMap (formatter : Formatter) (snapshot : Snapshot) (styler : Styler) :
    formatter.renderAll snapshot styler =
      snapshot.diagnostics.flatMap (formatter.printReport snapshot styler) := by
  refine formatter.renderFrom_eq_flatMap styler ?_ snapshot.diagnostics
  intro name buffer hopen
  cases hopen

/-- What a header says, without the spaces in front of the code. -/
def headerText (file : Text) (position : Source.Position) (code : UInt32) : Text :=
  List.flatten ["● ", file, ":", Text.ofNat (position.line + 1), ":",
    Text.ofNat (position.character + 1), "TS", Text.ofNat code.toNat]

theorem length_headerText (buffer : Source.Buffer) (span : Source.Span) (code : UInt32) :
    (placeLine buffer span).width + (codeText code).length =
      (headerText buffer.name (buffer.position span.start.toNat) code).length := by
  rw [StyledLine.width, ← List.length_append, placeLine, StyledLine.plainText_push,
    StyledLine.plainText_plain, placeText, codeText, headerText]
  simp only [List.flatten_cons, List.flatten_nil, List.append_assoc, List.append_nil]

/-- To end at the width, the header of the diagnostic would take 2 ^ 63 spaces or more. -/
def IsTooWide (width : Nat) (snapshot : Snapshot) (diagnostic : SnapshotDiagnostic) : Prop :=
  ∃ span buffer, diagnostic.location? = some span ∧
    snapshot.buffer? diagnostic.file = some buffer ∧
    (headerText buffer.name (buffer.position span.start.toNat) diagnostic.code).length +
      0x8000000000000000 ≤ width

def HasWideHeader (width : Nat) (snapshot : Snapshot) : Prop :=
  ∃ diagnostic ∈ snapshot.diagnostics, IsTooWide width snapshot diagnostic

theorem fits_eq_false_iff {formatter : Formatter} {diagnostic : SnapshotDiagnostic} :
    formatter.fits (snapshot.buffer? diagnostic.file) diagnostic.toDiagnostic = false ↔
      IsTooWide formatter.width snapshot diagnostic := by
  unfold fits IsTooWide
  cases diagnostic.location? with
  | none => simp
  | some span =>
      cases snapshot.buffer? diagnostic.file with
      | none => simp
      | some buffer =>
          simp only [Option.some.injEq, exists_and_left, exists_eq_left',
            Option.isSome_eq_false_iff, Option.isNone_iff_eq_none, Text.spaces?_eq_none_iff,
            headerGap, length_headerText]
          omega

theorem renderAll?_eq_some {formatter : Formatter}
    (hheaders : ¬ HasWideHeader formatter.width snapshot) (styler : Styler) :
    formatter.renderAll? snapshot styler = some (formatter.renderAll snapshot styler) := by
  refine if_pos (List.all_eq_true.mpr fun diagnostic hdiagnostic => ?_)
  rw [← Bool.not_eq_false, fits_eq_false_iff]
  exact fun hwide => hheaders ⟨diagnostic, hdiagnostic, hwide⟩

theorem renderAll?_eq_none {formatter : Formatter}
    (hheader : HasWideHeader formatter.width snapshot) (styler : Styler) :
    formatter.renderAll? snapshot styler = none := by
  obtain ⟨diagnostic, hdiagnostic, hwide⟩ := hheader
  refine if_neg fun hfits => ?_
  have hfit := List.all_eq_true.mp hfits diagnostic hdiagnostic
  rw [fits_eq_false_iff.mpr hwide] at hfit
  cases hfit

/-- A batch prints, in order, what each of its diagnostics prints alone.  A report prints its lines
one by one, the last of them empty, so that any choice of diagnostics, in any order and with any
repetitions, prints just their reports. -/
theorem renderAll_eq_flatten_reports (formatter : Formatter) (snapshot : Snapshot)
    (styler : Styler) :
    formatter.renderAll snapshot styler =
        (snapshot.diagnostics.map (formatter.printReport snapshot styler)).flatten ∧
      (∀ diagnostic, ∃ lines,
        formatter.freshReport snapshot diagnostic = lines ++ [.empty] ∧
        formatter.printReport snapshot styler diagnostic = printLines styler lines ++ ['\n']) ∧
      (∀ diagnostic,
        formatter.renderAll { snapshot with diagnostics := [diagnostic] } styler =
          formatter.printReport snapshot styler diagnostic) ∧
      (∀ first second,
        formatter.renderAll { snapshot with diagnostics := first ++ second } styler =
          formatter.renderAll { snapshot with diagnostics := first } styler ++
            formatter.renderAll { snapshot with diagnostics := second } styler) ∧
      ∀ chosen,
        formatter.renderAll { snapshot with diagnostics := chosen } styler =
          (chosen.map (formatter.printReport snapshot styler)).flatten := by
  have hbatch : ∀ chosen, formatter.renderAll { snapshot with diagnostics := chosen } styler =
      chosen.flatMap (formatter.printReport snapshot styler) :=
    fun chosen => formatter.renderAll_eq_flatMap { snapshot with diagnostics := chosen } styler
  refine ⟨?_, ?_, ?_, ?_, ?_⟩
  · rw [renderAll_eq_flatMap, List.flatMap_def]
  · intro diagnostic
    obtain ⟨lines, hlines⟩ := formatter.report_eq_append_empty snapshot.checker
      (freshBuffer? snapshot diagnostic.file) diagnostic.toDiagnostic diagnostic.relatedTypes
    refine ⟨lines, hlines, ?_⟩
    rw [printReport, freshReport, hlines, printLines_append]
    rfl
  · intro diagnostic
    rw [hbatch, List.flatMap_singleton]
  · intro first second
    rw [hbatch, hbatch, hbatch, List.flatMap_append]
  · intro chosen
    rw [hbatch, List.flatMap_def]

end MismatchReport.Formatter
