import MismatchReport.Proofs.Document.Reload
import MismatchReport.Proofs.Report.Batch
import MismatchReport.Proofs.Report.Characters
import MismatchReport.Proofs.Snapshot.Lookup
import MismatchReport.Proofs.Source.Partition
import MismatchReport.Proofs.Style.Terminal

/-!
# Line feeds of a report

Types may print on several lines.  A report puts them on one, in its trees and in the labels of
types that have none of their own.  Only a label that spells another type as it prints can break a
line of the report, the title that it stands in.
-/

namespace MismatchReport

theorem Text.lineFeed_not_mem_collapse (text : Text) : '\n' ∉ collapse text := by
  intro hmem
  rcases mem_collapse hmem with hspace | ⟨-, hblank⟩
  · exact absurd hspace (by decide)
  · exact hblank (by decide)

variable {τ : Type} [DecidableEq τ] {checker : Checker τ}

structure Checker.HasNamesOnOneLine (checker : Checker τ) : Prop where
  members : ∀ type, ∀ member ∈ checker.members type, ∀ name ∈ member.names, '\n' ∉ name
  declarations? : ∀ type, ∀ declarations ∈ checker.declarations? type,
    ∀ declaration ∈ declarations, ∀ name ∈ declaration.names, '\n' ∉ name

/-- The label of a type spells a type that prints on several lines. -/
def Label.SpellsLineFeed (checker : Checker τ) (type : τ) : Prop :=
  ∃ printed, Spells checker Guard.defaultMaxDepth [] type printed ∧ '\n' ∈ checker.print printed

theorem lineFeed_mem_titleOf_iff (hnames : checker.HasNamesOnOneLine) (type : τ) :
    '\n' ∈ titleOf checker type ↔ Label.SpellsLineFeed checker type := by
  rw [mem_titleOf_iff (by decide) hnames.declarations?, Label.SpellsLineFeed]
  simp only [Text.lineFeed_not_mem_collapse, and_false, or_false]

namespace Formatter

variable {formatter : Formatter}

/-- A view whose title spells one of its two types on several lines. -/
def BreaksTitle (checker : Checker τ) (diagnostic : Diagnostic)
    (related : Option (RelatedTypes τ)) (view : View) : Prop :=
  ∃ types ∈ related, View.build? checker diagnostic types = some view ∧
    (Label.SpellsLineFeed checker types.source ∨ Label.SpellsLineFeed checker types.target)

theorem lineFeed_mem_title_iff (hindent : '\n' ∉ formatter.indent)
    (hnames : checker.HasNamesOnOneLine) {diagnostic : Diagnostic} {types : RelatedTypes τ}
    {view : View} (hview : View.build? checker diagnostic types = some view) :
    '\n' ∈ (formatter.title view).plainText ↔
      Label.SpellsLineFeed checker types.source ∨ Label.SpellsLineFeed checker types.target := by
  obtain ⟨-, -, hsource, htarget⟩ := View.eq_of_build? hview
  rw [mem_title_iff (by decide) hindent, hsource, htarget, lineFeed_mem_titleOf_iff hnames,
    lineFeed_mem_titleOf_iff hnames]

theorem lineFeed_mem_report_iff (hindent : '\n' ∉ formatter.indent)
    {buffer : Option Source.Buffer} (hbuffer : ∀ opened ∈ buffer, '\n' ∉ opened.name)
    (hnames : checker.HasNamesOnOneLine) (diagnostic : Diagnostic)
    (related : Option (RelatedTypes τ)) :
    ∀ line ∈ formatter.report checker buffer diagnostic related,
      '\n' ∈ line.plainText ↔
        ∃ view, BreaksTitle checker diagnostic related view ∧ line = formatter.title view := by
  have hfeed : '\n' < ' ' := by decide
  have hlines : ∀ opened ∈ buffer, '\n' ∉ opened.name ∧ ∀ line, '\n' ∉ opened.lineText line := by
    intro opened hopened
    refine ⟨hbuffer opened hopened, fun line hmem => ?_⟩
    exact opened.not_isLineBreak_of_mem_lineText hmem rfl
  intro line hline
  constructor
  · intro hmem
    simp only [report, List.mem_append, List.mem_singleton] at hline
    rcases hline with ((hexcerpt | hcomparison) | hmessage) | rfl
    · exact absurd hmem (not_mem_excerptSection hfeed hindent hlines diagnostic line hexcerpt)
    · unfold comparisonSection at hcomparison
      split at hcomparison
      · cases hcomparison
      · rename_i view hbuilt
        obtain ⟨types, htypes, hview⟩ := Option.bind_eq_some_iff.mp hbuilt
        obtain ⟨hsource, htarget⟩ := View.hasTexts_of_build? hnames.members
          (fun _ => Text.lineFeed_not_mem_collapse _)
          (fun _ _ _ => Text.lineFeed_not_mem_collapse _) hview
        rcases List.mem_append.mp hcomparison with hrow | hrow
        · obtain ⟨rfl, -⟩ := mem_comparison hfeed hindent hsource htarget hrow hmem
          exact ⟨view, ⟨types, htypes, hview,
            (lineFeed_mem_title_iff hindent hnames hview).mp hmem⟩, rfl⟩
        · rw [List.mem_singleton.mp hrow] at hmem
          exact absurd hmem List.not_mem_nil
    · exact absurd hmem (not_mem_messageSection hfeed (fun hne => absurd rfl hne) line hmessage)
    · exact absurd hmem List.not_mem_nil
  · rintro ⟨view, ⟨types, -, hview, hspells⟩, rfl⟩
    exact (lineFeed_mem_title_iff hindent hnames hview).mpr hspells

theorem BreaksTitle.title_mem_report {diagnostic : Diagnostic} {related : Option (RelatedTypes τ)}
    {view : View} (hbreaks : BreaksTitle checker diagnostic related view) (formatter : Formatter)
    (buffer : Option Source.Buffer) :
    formatter.title view ∈ formatter.report checker buffer diagnostic related := by
  obtain ⟨types, htypes, hview, -⟩ := hbreaks
  have hbuilt : related.bind (View.build? checker diagnostic) = some view :=
    Option.bind_eq_some_iff.mpr ⟨types, htypes, hview⟩
  simp [report, comparisonSection, comparison, hbuilt]

theorem splitOn_printLines_iff (lines : List StyledLine) :
    (printLines .plain lines).splitOn '\n' = lines.map StyledLine.plainText ++ [[]] ↔
      ∀ line ∈ lines, '\n' ∉ line.plainText := by
  constructor
  · intro hsplit line hline hmem
    have hpiece : line.plainText ∈ (printLines .plain lines).splitOn '\n' := by
      rw [hsplit]
      exact List.mem_append_left _ (List.mem_map_of_mem hline)
    exact (Text.mem_of_mem_splitOnP hpiece hmem).2 (beq_self_eq_true '\n')
  · intro hlines
    induction lines with
    | nil => rfl
    | cons line rest ih =>
        rw [List.forall_mem_cons] at hlines
        have hline : line.plainText.splitOnP (· == '\n') = [line.plainText] :=
          List.splitOnP_eq_singleton fun char hchar =>
            beq_false_of_ne (ne_of_mem_of_not_mem hchar hlines.1)
        have hrest := ih hlines.2
        rw [List.splitOn_eq_splitOnP] at hrest ⊢
        rw [printLines, List.flatMap_cons, ← printLines, Terminal.renderLine_plain,
          List.append_assoc, List.singleton_append,
          List.splitOnP_append_cons _ _ (by simp), hline, hrest]
        rfl

end Formatter

/-! ## Snapshots -/

def TypeEntry.names (entry : TypeEntry) : List Text :=
  entry.members.flatMap Member.names ++ (entry.declarations.getD []).flatMap Declaration.names

namespace Snapshot

def names (snapshot : Snapshot) : List Text :=
  snapshot.files.map Source.SourceFile.name ++ snapshot.types.flatMap TypeEntry.names

variable {snapshot : Snapshot}

theorem checker_hasNamesOnOneLine (hnames : ∀ name ∈ snapshot.names, '\n' ∉ name) :
    snapshot.checker.HasNamesOnOneLine := by
  have hentry : ∀ {id entry}, snapshot.get? id = some entry →
      ∀ name ∈ entry.names, '\n' ∉ name := by
    intro id entry hget name hname
    refine hnames name (List.mem_append_right _ ?_)
    exact List.mem_flatMap.mpr ⟨entry, (mem_of_get?_eq_some hget).1, hname⟩
  constructor
  · intro id member hmember name hname
    obtain ⟨entry, hget, hmember⟩ := exists_entry_of_mem_members hmember
    exact hentry hget name (List.mem_append_left _ (List.mem_flatMap.mpr ⟨member, hmember, hname⟩))
  · intro id declarations hdeclarations declaration hdeclaration name hname
    obtain ⟨entry, hget, hdeclarations⟩ := Option.bind_eq_some_iff.mp hdeclarations
    refine hentry hget name (List.mem_append_right _ ?_)
    rw [hdeclarations]
    exact List.mem_flatMap.mpr ⟨declaration, hdeclaration, hname⟩

end Snapshot

namespace Formatter

variable {formatter : Formatter} {snapshot : Snapshot}

/-- With names on one line, a report breaks just the titles that spell a type on several lines, and
where no title does, it prints each of its lines as one. -/
theorem report_breaks_titles (hindent : '\n' ∉ formatter.indent)
    (hnames : ∀ name ∈ snapshot.names, '\n' ∉ name) {buffer : Option Source.Buffer}
    (hbuffer : ∀ opened ∈ buffer, opened.toSourceFile ∈ snapshot.files) (diagnostic : Diagnostic)
    (related : Option (RelatedTypes TypeId)) :
    let lines := formatter.report snapshot.checker buffer diagnostic related
    (∀ line ∈ lines, '\n' ∈ line.plainText ↔
      ∃ view, BreaksTitle snapshot.checker diagnostic related view ∧
        line = formatter.title view) ∧
    ((printLines .plain lines).splitOn '\n' = lines.map StyledLine.plainText ++ [[]] ↔
      ¬ ∃ view, BreaksTitle snapshot.checker diagnostic related view) := by
  have hopened : ∀ opened ∈ buffer, '\n' ∉ opened.name := by
    intro opened hopened
    refine hnames opened.name (List.mem_append_left _ ?_)
    exact List.mem_map_of_mem (hbuffer opened hopened)
  have hlines := lineFeed_mem_report_iff hindent hopened
    (Snapshot.checker_hasNamesOnOneLine hnames) diagnostic related
  intro lines
  refine ⟨hlines, (splitOn_printLines_iff lines).trans ⟨?_, ?_⟩⟩
  · rintro hclean ⟨view, hbreaks⟩
    have htitle := hbreaks.title_mem_report formatter buffer
    exact hclean _ htitle ((hlines _ htitle).mpr ⟨view, hbreaks, rfl⟩)
  · intro hnone line hline hmem
    obtain ⟨view, hbreaks, -⟩ := (hlines line hline).mp hmem
    exact hnone ⟨view, hbreaks⟩

def brokenSnapshot (source target : TypeId) : Snapshot where
  files := [⟨"a.ts", "x\ny"⟩]
  types := [{ id := ⟨0⟩, text := "a\nb" },
    { id := ⟨1⟩, text := "u", shape := .composite .union [⟨0⟩] }]
  diagnostics := [{
    file := "a.ts"
    span := some ⟨0, 3⟩
    code := 2322
    message := { text := "no" }
    relatedTypes := some { source, target } }]

theorem printLines_brokenSnapshot :
    (∀ name ∈ (brokenSnapshot ⟨0⟩ ⟨0⟩).names, '\n' ∉ name) ∧
      ∀ diagnostic ∈ (brokenSnapshot ⟨0⟩ ⟨0⟩).diagnostics,
        let lines := freshReport ⟨"  ", 80⟩ (brokenSnapshot ⟨0⟩ ⟨0⟩) diagnostic
        (printLines .plain lines).splitOn '\n' = lines.map StyledLine.plainText ++ [[]] := by
  have hnames : ∀ name ∈ (brokenSnapshot ⟨0⟩ ⟨0⟩).names, '\n' ∉ name := by decide
  have hindent : '\n' ∉ (⟨"  ", 80⟩ : Formatter).indent := by decide
  have hunlabelled : Label.IsUnlabelled (brokenSnapshot ⟨0⟩ ⟨0⟩).checker ⟨0⟩ := ⟨rfl, rfl⟩
  refine ⟨hnames, fun diagnostic hdiagnostic => ?_⟩
  obtain rfl := List.mem_singleton.mp hdiagnostic
  refine (report_breaks_titles hindent hnames (fun _ => mem_files_of_freshBuffer?) _ _).2.mpr ?_
  rintro ⟨view, types, htypes, -, hspells⟩
  obtain rfl := Option.some.inj htypes
  obtain ⟨printed, hprinted, -⟩ : Label.SpellsLineFeed _ (⟨0⟩ : TypeId) := or_self_iff.mp hspells
  exact Label.not_spells_of_isUnlabelled hunlabelled hprinted

/-- The label of a union spells its member on two lines, and breaks the title. -/
theorem title_brokenSnapshot :
    Document.readSnapshot (Document.writeSnapshot (brokenSnapshot ⟨1⟩ ⟨0⟩)) =
        .ok (brokenSnapshot ⟨1⟩ ⟨0⟩) ∧
      (∀ name ∈ (brokenSnapshot ⟨1⟩ ⟨0⟩).names, '\n' ∉ name) ∧
      ∃ diagnostic ∈ (brokenSnapshot ⟨1⟩ ⟨0⟩).diagnostics,
        ∃ line ∈ freshReport ⟨"  ", 80⟩ (brokenSnapshot ⟨1⟩ ⟨0⟩) diagnostic,
          line.plainText = "  Type of 'a\nb' is not assignable to type of 'a b'" ∧
            '\n' ∈ line.plainText :=
  ⟨(Document.readSnapshot_writeSnapshot_iff (by decide)).mpr rfl, by decide, by decide⟩

end Formatter

end MismatchReport
