import MismatchReport.Proofs.Report.Batch
import MismatchReport.Proofs.Report.Characters
import MismatchReport.Proofs.Snapshot.Lookup
import MismatchReport.Proofs.Style.Terminal

/-!
# Colours of a report

What a terminal shows of a report with colours is the plain report, each of its characters under
the codes of its emphasis.
-/

namespace MismatchReport

def TypeEntry.texts (entry : TypeEntry) : List Text :=
  entry.text :: entry.members.flatMap Member.names ++
    (entry.declarations.getD []).flatMap Declaration.names

namespace Snapshot

def texts (snapshot : Snapshot) : List Text :=
  snapshot.files.flatMap (fun file => [file.name, file.text]) ++
    snapshot.types.flatMap TypeEntry.texts ++
    snapshot.diagnostics.flatMap fun diagnostic => diagnostic.message.texts

variable {snapshot : Snapshot} {char : Char}

theorem not_mem_of_get? (htexts : ∀ text ∈ snapshot.texts, char ∉ text) {id : TypeId}
    {entry : TypeEntry} (hentry : snapshot.get? id = some entry) :
    char ∉ entry.text ∧ (∀ member ∈ entry.members, ∀ name ∈ member.names, char ∉ name) ∧
      ∀ declarations ∈ entry.declarations, ∀ declaration ∈ declarations,
        ∀ name ∈ declaration.names, char ∉ name := by
  have hentries : ∀ text ∈ entry.texts, char ∉ text := by
    intro text htext
    refine htexts text (List.mem_append_left _ (List.mem_append_right _ ?_))
    exact List.mem_flatMap.mpr ⟨entry, (mem_of_get?_eq_some hentry).1, htext⟩
  rw [TypeEntry.texts, List.forall_mem_append, List.forall_mem_cons] at hentries
  obtain ⟨⟨htext, hmembers⟩, hnames⟩ := hentries
  refine ⟨htext, ?_, ?_⟩
  · intro member hmember name hname
    exact hmembers name (List.mem_flatMap.mpr ⟨member, hmember, hname⟩)
  · intro declarations hdeclarations declaration hdeclaration name hname
    refine hnames name (List.mem_flatMap.mpr ⟨declaration, ?_, hname⟩)
    rwa [Option.mem_def.mp hdeclarations]

theorem checker_lacks (hchar : char < ' ') (htexts : ∀ text ∈ snapshot.texts, char ∉ text) :
    snapshot.checker.Lacks char where
  names id member hmember := by
    obtain ⟨entry, hentry, hmember⟩ := exists_entry_of_mem_members hmember
    exact (not_mem_of_get? htexts hentry).2.1 member hmember
  project? id projection hprojection := by
    obtain ⟨entry, hentry, hprojection⟩ := Option.bind_eq_some_iff.mp hprojection
    obtain ⟨-, rfl⟩ : entry.projectable ∧ _ = projection := by
      simpa [TypeEntry.projection?] using hprojection
    exact (not_mem_of_get? htexts hentry).1
  print id := by
    cases hentry : snapshot.get? id with
    | none =>
        have hunknown : char ∉ unknownTypeText := Text.not_mem_of_isPrintable hchar (by decide)
        simpa [checker, hentry] using hunknown
    | some entry => simpa [checker, hentry] using (not_mem_of_get? htexts hentry).1
  declarations? id declarations hdeclarations := by
    obtain ⟨entry, hentry, hdeclarations⟩ := Option.bind_eq_some_iff.mp hdeclarations
    exact (not_mem_of_get? htexts hentry).2.2 declarations hdeclarations

theorem not_mem_of_mem_files (htexts : ∀ text ∈ snapshot.texts, char ∉ text)
    {file : Source.SourceFile} (hfile : file ∈ snapshot.files) :
    char ∉ file.name ∧ char ∉ file.text := by
  have hfiles : ∀ text ∈ [file.name, file.text], char ∉ text := by
    intro text htext
    refine htexts text (List.mem_append_left _ (List.mem_append_left _ ?_))
    exact List.mem_flatMap.mpr ⟨file, hfile, htext⟩
  exact ⟨hfiles file.name (by simp), hfiles file.text (by simp)⟩

end Snapshot

namespace Formatter

variable {formatter : Formatter} {snapshot : Snapshot} {char : Char}

theorem not_mem_freshReport (hchar : char < ' ') (hindent : char ∉ formatter.indent)
    (htexts : ∀ text ∈ snapshot.texts, char ∉ text) {diagnostic : SnapshotDiagnostic}
    (hdiagnostic : diagnostic ∈ snapshot.diagnostics) :
    ∀ line ∈ formatter.freshReport snapshot diagnostic, char ∉ line.plainText := by
  have hbuffer : ∀ opened ∈ freshBuffer? snapshot diagnostic.file,
      char ∉ opened.name ∧ ∀ line, char ∉ opened.lineText line := by
    intro opened hopened
    have hfile := mem_files_of_freshBuffer? hopened
    obtain ⟨hname, htext⟩ := Snapshot.not_mem_of_mem_files htexts hfile
    exact ⟨hname, fun line => mt Source.Buffer.mem_of_mem_lineText htext⟩
  have hmessage : ∀ text ∈ diagnostic.message.texts, char ∉ text := by
    intro text htext
    refine htexts text (List.mem_append_right _ ?_)
    exact List.mem_flatMap.mpr ⟨diagnostic, hdiagnostic, htext⟩
  exact not_mem_report hchar hindent hbuffer (fun _ => hmessage) fun types _ =>
    (Snapshot.checker_lacks hchar htexts).view hchar diagnostic.toDiagnostic types

theorem strip_printLines {lines : List StyledLine}
    (hclean : ∀ line ∈ lines, Terminal.escape ∉ line.plainText) :
    Terminal.strip (printLines .terminal lines) = printLines .plain lines := by
  let cells := lines.flatMap fun line => Terminal.lineCells line ++ [('\n', ∅)]
  have hshows : Terminal.Shows (printLines .terminal lines) cells :=
    Terminal.Shows.flatMap fun line hline =>
      (Terminal.shows_renderLine (hclean line hline)).append (Terminal.shows_text ['\n'])
  have hplain : cells.map Prod.fst = printLines .plain lines := by
    simp [cells, printLines, List.map_flatMap, Terminal.map_fst_lineCells,
      Terminal.renderLine_plain]
  have hescape : Terminal.escape ∉ cells.map Prod.fst := by
    rw [hplain, printLines, List.mem_flatMap]
    rintro ⟨line, hline, hmem⟩
    rw [Terminal.renderLine_plain, List.mem_append] at hmem
    rcases hmem with hmem | hmem
    · exact hclean line hline hmem
    · exact absurd hmem (by decide)
  rw [hshows.strip_eq hescape, hplain]

theorem renderAll_eq_printLines (formatter : Formatter) (snapshot : Snapshot) (styler : Styler) :
    formatter.renderAll snapshot styler =
      printLines styler (snapshot.diagnostics.flatMap (formatter.freshReport snapshot)) := by
  rw [renderAll_eq_flatMap, printLines, List.flatMap_assoc]
  rfl

/-- Colours change how a report is shown and not what it says: without its escape sequences it is
the plain report, and a terminal shows each character of a line under the codes of its emphasis and
has none of them active behind the line. -/
theorem terminal_shows_plain_report (formatter : Formatter) (snapshot : Snapshot)
    (hindent : Terminal.escape ∉ formatter.indent)
    (htexts : ∀ text ∈ snapshot.texts, Terminal.escape ∉ text) :
    Terminal.strip (formatter.renderAll snapshot .terminal) =
        formatter.renderAll snapshot .plain ∧
      ∀ diagnostic ∈ snapshot.diagnostics, ∀ line ∈ formatter.freshReport snapshot diagnostic,
        Terminal.display (Styler.terminal.renderLine line) = (Terminal.lineCells line, ∅) := by
  have hclean : ∀ diagnostic ∈ snapshot.diagnostics,
      ∀ line ∈ formatter.freshReport snapshot diagnostic, Terminal.escape ∉ line.plainText :=
    fun diagnostic hdiagnostic => not_mem_freshReport (by decide) hindent htexts hdiagnostic
  constructor
  · rw [renderAll_eq_printLines, renderAll_eq_printLines]
    refine strip_printLines fun line hline => ?_
    obtain ⟨diagnostic, hdiagnostic, hline⟩ := List.mem_flatMap.mp hline
    exact hclean diagnostic hdiagnostic line hline
  · intro diagnostic hdiagnostic line hline
    have hline := hclean diagnostic hdiagnostic line hline
    refine (Terminal.shows_renderLine hline).display_eq ?_
    rwa [Terminal.map_fst_lineCells]

def mismatchSnapshot : Snapshot where
  files := [⟨"a.ts", "let a: A = b;"⟩]
  types := [{ id := ⟨0⟩, text := "A", shape := .object [.property "x" ⟨1⟩] },
    { id := ⟨1⟩, text := "string" }]
  diagnostics := [{
    file := "a.ts"
    span := some ⟨4, 1⟩
    code := 2322
    message := { text := "Not assignable.", children := [{ text := "No." }] }
    relatedTypes := some { source := ⟨1⟩, target := ⟨0⟩ } }]

theorem terminal_shows_plain_report_mismatch :
    (∀ text ∈ mismatchSnapshot.texts, Terminal.escape ∉ text) ∧
      Terminal.strip (Formatter.renderAll ⟨"  ", 80⟩ mismatchSnapshot .terminal) =
        Formatter.renderAll ⟨"  ", 80⟩ mismatchSnapshot .plain ∧
      ∀ diagnostic ∈ mismatchSnapshot.diagnostics,
        ∀ line ∈ Formatter.freshReport ⟨"  ", 80⟩ mismatchSnapshot diagnostic,
          Terminal.display (Styler.terminal.renderLine line) = (Terminal.lineCells line, ∅) := by
  have htexts : ∀ text ∈ mismatchSnapshot.texts, Terminal.escape ∉ text := by decide
  exact ⟨htexts, terminal_shows_plain_report ⟨"  ", 80⟩ mismatchSnapshot (by decide) htexts⟩

end Formatter

end MismatchReport
