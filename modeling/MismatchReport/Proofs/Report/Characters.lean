import MismatchReport.Proofs.Chain.Outline
import MismatchReport.Proofs.Label.Texts
import MismatchReport.Proofs.Renaming
import MismatchReport.Proofs.Report.Columns
import MismatchReport.Proofs.Source.Excerpt
import MismatchReport.Proofs.Text.Decimal
import MismatchReport.Proofs.Tree.Texts

/-!
# Characters of a report

A report adds no control characters of its own: one that it shows comes from a text that it was
given.
-/

namespace MismatchReport

variable {char : Char}

namespace MessageChain

variable {newLine : Text}

mutual

theorem not_mem_flattenAt (hchar : char < ' ') (hline : char ∉ newLine) (depth : Nat) :
    ∀ chain : MessageChain, (∀ text ∈ chain.texts, char ∉ text) →
      char ∉ flattenAt newLine depth chain
  | ⟨text, reason, children⟩, htexts => by
      rw [texts, List.forall_mem_cons] at htexts
      have hbelow := not_mem_flattenBelow hchar hline (depth + 1) children htexts.2
      rw [flattenAt, List.mem_append, not_or]
      exact ⟨htexts.1, hbelow⟩

theorem not_mem_flattenBelow (hchar : char < ' ') (hline : char ∉ newLine) (depth : Nat) :
    ∀ children : List MessageChain, (∀ text ∈ textsBelow children, char ∉ text) →
      char ∉ flattenBelow newLine depth children
  | [], _ => List.not_mem_nil
  | child :: rest, htexts => by
      rw [textsBelow, List.forall_mem_append] at htexts
      have hspaces := Text.not_mem_spaces hchar (2 * depth)
      have hchild := not_mem_flattenAt hchar hline depth child htexts.1
      have hrest := not_mem_flattenBelow hchar hline depth rest htexts.2
      simp only [flattenBelow, List.mem_append, not_or]
      exact ⟨⟨⟨hline, hspaces⟩, hchild⟩, hrest⟩

end

end MessageChain

namespace Source

theorem Buffer.mem_of_mem_lineText {buffer : Buffer} {line : Nat}
    (hmem : char ∈ buffer.lineText line) : char ∈ buffer.text := by
  rw [lineText] at hmem
  cases hline : buffer.lines[line]? with
  | none => simp [hline] at hmem
  | some found =>
      rw [hline] at hmem
      rw [← buffer.flatMap_text_lines]
      exact List.mem_flatMap.mpr ⟨found, List.mem_of_getElem? hline, List.mem_append_left _ hmem⟩

theorem not_mem_contentBehind (hchar : char < ' ') {line : Text} (hline : char ∉ line)
    (indent : Nat) : char ∉ contentBehind indent line := by
  intro hmem
  obtain ⟨source, hsource, rfl⟩ := List.mem_map.mp hmem
  have hmem := List.mem_of_mem_drop ((Text.trimEnd_isPrefix isBlank _).subset hsource)
  unfold tabToSpace at hchar hline
  split at hchar
  · exact absurd hchar (by decide)
  · rename_i htab
    exact hline (by rwa [if_neg htab])

theorem mem_rows {margin : Text} {excerpt : Excerpt} {row : StyledLine}
    (hrow : row ∈ excerpt.rows margin) :
    row = ellipsisRow margin ∨
      ∃ line ∈ excerpt.lines, row = codeRow margin line ∨ row = markRow margin line := by
  have hpair : ∀ lines ⊆ excerpt.lines, row ∈ lines.flatMap (rowPair margin) →
      ∃ line ∈ excerpt.lines, row = codeRow margin line ∨ row = markRow margin line := by
    intro lines hlines hmem
    obtain ⟨line, hline, hmem⟩ := List.mem_flatMap.mp hmem
    exact ⟨line, hlines hline, by simpa [rowPair] using hmem⟩
  unfold Excerpt.rows at hrow
  split at hrow
  · rcases List.mem_append.mp hrow with hrow | hrow
    · exact .inr (hpair _ (List.take_subset 2 _) hrow)
    · rcases List.mem_cons.mp hrow with heq | hrow
      · exact .inl heq
      · exact .inr (hpair _ (List.drop_subset 2 _) hrow)
  · exact .inr (hpair _ (List.Subset.refl _) hrow)

theorem not_mem_renderSpan (hchar : char < ' ') {buffer : Buffer} (span : Span) {margin : Text}
    (hmargin : char ∉ margin) (hlines : ∀ line, char ∉ buffer.lineText line) :
    ∀ row ∈ renderSpan buffer span margin, char ∉ row.plainText := by
  have hgutter : char ∉ ("| " : Text) := Text.not_mem_of_isPrintable hchar (by decide)
  have hgap : char ∉ ("  " : Text) := Text.not_mem_of_isPrintable hchar (by decide)
  have hdots : char ∉ ("... " : Text) := Text.not_mem_of_isPrintable hchar (by decide)
  have hmarks : ∀ count, char ∉ List.replicate count mark := fun count =>
    Text.not_mem_of_isPrintable hchar (Text.isPrintable_replicate (by decide) count)
  intro row hrow
  rcases mem_rows hrow with rfl | ⟨line, hline, rfl | rfl⟩
  · rw [plainText_ellipsisRow, List.mem_append, not_or]
    exact ⟨hmargin, hdots⟩
  · obtain ⟨number, -, rfl⟩ := List.mem_map.mp hline
    have hcontent := not_mem_contentBehind hchar (hlines number)
    simp only [plainText_codeRow, List.mem_append, not_or]
    exact ⟨⟨hmargin, hgutter⟩, hcontent _⟩
  · have hspaces := Text.not_mem_spaces hchar
    simp only [plainText_markRow, List.mem_append, not_or]
    exact ⟨⟨⟨⟨hmargin, hgap⟩, hspaces _⟩, hmarks _⟩, hspaces _⟩

end Source

/-! ## Sections -/

variable {τ : Type} [DecidableEq τ] {checker : Checker τ}

/-- No answer of the checker has the character. -/
structure Checker.Lacks (checker : Checker τ) (char : Char) : Prop where
  names : ∀ type, ∀ member ∈ checker.members type, ∀ name ∈ member.names, char ∉ name
  project? : ∀ type, ∀ projection ∈ checker.project? type, char ∉ projection.text
  print : ∀ type, char ∉ checker.print type
  declarations? : ∀ type, ∀ declarations ∈ checker.declarations? type,
    ∀ declaration ∈ declarations, ∀ name ∈ declaration.names, char ∉ name

structure View.Lacks (view : View) (char : Char) : Prop where
  sourceTree : view.sourceTree.HasTexts (char ∉ ·)
  targetTree : view.targetTree.HasTexts (char ∉ ·)
  sourceLabel : char ∉ view.sourceLabel
  targetLabel : char ∉ view.targetLabel

theorem mem_titleOf_iff (hchar : char < ' ')
    (hnames : ∀ type, ∀ declarations ∈ checker.declarations? type,
      ∀ declaration ∈ declarations, ∀ name ∈ declaration.names, char ∉ name) (type : τ) :
    char ∈ titleOf checker type ↔
      (∃ printed, Label.Spells checker Guard.defaultMaxDepth [] type printed ∧
        char ∈ checker.print printed) ∨
      Label.IsUnlabelled checker type ∧ char ∈ Text.collapse (checker.print type) := by
  have hlabel := Label.exists_mem_labelBelow_iff hchar hnames Guard.defaultMaxDepth [] type
  rw [titleOf, Label.ofType?_eq_labelBelow, ← hlabel, ← Label.labelBelow_eq_none_iff]
  cases Label.labelBelow checker Guard.defaultMaxDepth [] type with
  | none => simp
  | some label => simp

theorem Checker.Lacks.not_mem_titleOf (hchar : char < ' ') (hchecker : checker.Lacks char)
    (type : τ) : char ∉ titleOf checker type := by
  rw [mem_titleOf_iff hchar hchecker.declarations?]
  rintro (⟨printed, -, hmem⟩ | ⟨-, hmem⟩)
  · exact hchecker.print printed hmem
  · exact Text.not_mem_collapse hchar (hchecker.print type) hmem

theorem View.eq_of_build? {diagnostic : Diagnostic} {related : RelatedTypes τ} {view : View}
    (hview : View.build? checker diagnostic related = some view) :
    TreeBuilder.buildFresh checker related.source related.sourceStack = some view.sourceTree ∧
      TreeBuilder.buildFresh checker related.target related.targetStack = some view.targetTree ∧
      view.sourceLabel = titleOf checker related.source ∧
      view.targetLabel = titleOf checker related.target := by
  simp only [View.build?, Option.bind_eq_bind, Option.bind_eq_some_iff] at hview
  obtain ⟨-, -, source, hsource, target, htarget, hview⟩ := hview
  obtain rfl := Option.some.inj hview
  exact ⟨hsource, htarget, rfl, rfl⟩

theorem View.hasTexts_of_build? {p : Text → Prop}
    (hnames : ∀ type, ∀ member ∈ checker.members type, ∀ name ∈ member.names, p name)
    (hprint : ∀ type, p (Text.collapse (checker.print type)))
    (hproject : ∀ type, ∀ projection ∈ checker.project? type, p (Text.collapse projection.text))
    {diagnostic : Diagnostic} {related : RelatedTypes τ} {view : View}
    (hview : View.build? checker diagnostic related = some view) :
    view.sourceTree.HasTexts p ∧ view.targetTree.HasTexts p := by
  have htree : ∀ root expanding, ∀ tree ∈ TreeBuilder.buildFresh checker root expanding,
      tree.HasTexts p := by
    intro root expanding
    rw [TreeBuilder.buildFresh_eq_treeOf?]
    exact TreeBuilder.treeOf?_hasTexts hnames hprint hproject
  obtain ⟨hsource, htarget, -, -⟩ := View.eq_of_build? hview
  exact ⟨htree _ _ _ hsource, htree _ _ _ htarget⟩

theorem Checker.Lacks.view (hchar : char < ' ') (hchecker : checker.Lacks char)
    (diagnostic : Diagnostic) (related : RelatedTypes τ) :
    ∀ view ∈ View.build? checker diagnostic related, view.Lacks char := by
  intro view hview
  obtain ⟨hsource, htarget⟩ := View.hasTexts_of_build? hchecker.names
    (fun type => Text.not_mem_collapse hchar (hchecker.print type))
    (fun type projection hprojection =>
      Text.not_mem_collapse hchar (hchecker.project? type projection hprojection)) hview
  obtain ⟨-, -, hsourceLabel, htargetLabel⟩ := View.eq_of_build? hview
  exact ⟨hsource, htarget, hsourceLabel ▸ hchecker.not_mem_titleOf hchar related.source,
    htargetLabel ▸ hchecker.not_mem_titleOf hchar related.target⟩

namespace Formatter

variable {formatter : Formatter}

theorem plainText_header (formatter : Formatter) (buffer : Source.Buffer) (span : Source.Span)
    (code : UInt32) :
    ∃ gap, (formatter.header buffer span code).plainText =
      "● " ++ placeText buffer.name (buffer.position span.start.toNat) ++ Text.spaces gap ++
        ("TS" ++ Text.ofNat code.toNat) := by
  simp only [header, placeLine, codeText, StyledLine.plainText_push,
    StyledLine.plainText_pushPlain, StyledLine.plainText_plain]
  exact ⟨_, rfl⟩

theorem not_mem_header (hchar : char < ' ') {buffer : Source.Buffer} (hname : char ∉ buffer.name)
    (span : Source.Span) (code : UInt32) :
    char ∉ (formatter.header buffer span code).plainText := by
  have hbullet : char ∉ ("● " : Text) := Text.not_mem_of_isPrintable hchar (by decide)
  have hcolon : char ∉ (":" : Text) := Text.not_mem_of_isPrintable hchar (by decide)
  have hprefix : char ∉ ("TS" : Text) := Text.not_mem_of_isPrintable hchar (by decide)
  have hdigits := Text.not_mem_ofNat hchar
  have hspaces := Text.not_mem_spaces hchar
  obtain ⟨gap, htext⟩ := formatter.plainText_header buffer span code
  simp only [htext, placeText, List.mem_append, not_or]
  exact ⟨⟨⟨hbullet, ⟨⟨⟨hname, hcolon⟩, hdigits _⟩, hcolon⟩, hdigits _⟩, hspaces gap⟩, hprefix,
    hdigits _⟩

theorem not_mem_excerptSection (hchar : char < ' ') (hindent : char ∉ formatter.indent)
    {buffer : Option Source.Buffer}
    (hbuffer : ∀ opened ∈ buffer, char ∉ opened.name ∧ ∀ line, char ∉ opened.lineText line)
    (diagnostic : Diagnostic) :
    ∀ row ∈ formatter.excerptSection buffer diagnostic, char ∉ row.plainText := by
  unfold excerptSection
  split
  · rename_i span opened hspan
    obtain ⟨hname, hlines⟩ := hbuffer opened rfl
    rw [List.forall_mem_append, List.forall_mem_cons, List.forall_mem_singleton]
    exact ⟨⟨not_mem_header hchar hname span diagnostic.code,
      Source.not_mem_renderSpan hchar span hindent hlines⟩, List.not_mem_nil⟩
  · exact List.forall_mem_nil _

theorem mem_title_iff (hchar : char < ' ') (hindent : char ∉ formatter.indent) (view : View) :
    char ∈ (formatter.title view).plainText ↔
      char ∈ view.sourceLabel ∨ char ∈ view.targetLabel := by
  have hopen : char ∉ ("Type of '" : Text) := Text.not_mem_of_isPrintable hchar (by decide)
  have hmiddle : char ∉ ("' is not assignable to type of '" : Text) :=
    Text.not_mem_of_isPrintable hchar (by decide)
  have hclose : char ∉ ("'" : Text) := Text.not_mem_of_isPrintable hchar (by decide)
  simp only [plainText_title, List.mem_append, hindent, hopen, hmiddle, hclose, false_or,
    or_false]

theorem not_mem_row (hchar : char < ' ') (hindent : char ∉ formatter.indent) (leftWidth : Nat)
    {left right : Option StyledLine} (hleft : ∀ row ∈ left, char ∉ row.plainText)
    (hright : ∀ row ∈ right, char ∉ row.plainText) :
    char ∉ (formatter.row leftWidth left right).plainText := by
  have hseparator : char ∉ (" │ " : Text) := Text.not_mem_of_isPrintable hchar (by decide)
  have hspaces := Text.not_mem_spaces hchar
  have hcolumn : ∀ column : Option StyledLine, (∀ row ∈ column, char ∉ row.plainText) →
      char ∉ (column.map StyledLine.plainText).getD [] := by
    intro column hrows
    cases column with
    | none => exact List.not_mem_nil
    | some row => exact hrows row rfl
  simp only [plainText_row, List.mem_append, not_or]
  exact ⟨⟨⟨⟨hindent, hcolumn left hleft⟩, hspaces _⟩, hseparator⟩, hcolumn right hright⟩

theorem not_mem_rows (hchar : char < ' ') (hindent : char ∉ formatter.indent) (leftWidth : Nat)
    {left right : List StyledLine} (hleft : ∀ row ∈ left, char ∉ row.plainText)
    (hright : ∀ row ∈ right, char ∉ row.plainText) :
    ∀ row ∈ List.zipWithAll (formatter.row leftWidth) left right, char ∉ row.plainText := by
  intro row hrow
  obtain ⟨place, hplace⟩ := List.mem_iff_getElem?.mp hrow
  rw [eq_of_getElem?_zipWithAll hplace]
  exact not_mem_row hchar hindent _ (fun row hrow => hleft row (List.mem_of_getElem? hrow))
    (fun row hrow => hright row (List.mem_of_getElem? hrow))

theorem mem_comparison (hchar : char < ' ') (hindent : char ∉ formatter.indent) {view : View}
    (hsource : view.sourceTree.HasTexts (char ∉ ·)) (htarget : view.targetTree.HasTexts (char ∉ ·))
    {row : StyledLine} (hrow : row ∈ formatter.comparison view) (hmem : char ∈ row.plainText) :
    row = formatter.title view ∧ (char ∈ view.sourceLabel ∨ char ∈ view.targetLabel) := by
  have hrows := not_mem_rows hchar hindent
    ((((view.sourceTree.rows view.route).map StyledLine.width).max?).getD 0)
    (hsource.not_mem_rows hchar view.route) (htarget.not_mem_rows hchar view.route)
  rcases List.mem_cons.mp hrow with rfl | hrow
  · exact ⟨rfl, (mem_title_iff hchar hindent view).mp hmem⟩
  · rcases List.mem_cons.mp hrow with rfl | hrow
    · exact absurd hmem List.not_mem_nil
    · exact absurd hmem (hrows row hrow)

theorem not_mem_comparison (hchar : char < ' ') (hindent : char ∉ formatter.indent) {view : View}
    (hview : view.Lacks char) :
    ∀ row ∈ formatter.comparison view, char ∉ row.plainText := by
  intro row hrow hmem
  rcases (mem_comparison hchar hindent hview.sourceTree hview.targetTree hrow hmem).2 with
    hsource | htarget
  · exact hview.sourceLabel hsource
  · exact hview.targetLabel htarget

theorem not_mem_messageSection (hchar : char < ' ') {diagnostic : Diagnostic}
    (hmessage : char ≠ '\n' → ∀ text ∈ diagnostic.message.texts, char ∉ text) :
    ∀ row ∈ messageSection diagnostic, char ∉ row.plainText := by
  intro row hrow hmem
  obtain ⟨line, hline, rfl⟩ := List.mem_map.mp hrow
  rw [StyledLine.plainText_styled] at hmem
  -- Splitting into lines takes out the line feeds between the sentences.
  obtain ⟨hmem, hfeed⟩ := Text.mem_of_mem_printedLines hline hmem
  exact MessageChain.not_mem_flattenAt hchar (by simpa using hfeed) 0 diagnostic.message
    (hmessage hfeed) hmem

theorem not_mem_report (hchar : char < ' ') (hindent : char ∉ formatter.indent)
    {buffer : Option Source.Buffer}
    (hbuffer : ∀ opened ∈ buffer, char ∉ opened.name ∧ ∀ line, char ∉ opened.lineText line)
    {diagnostic : Diagnostic}
    (hmessage : char ≠ '\n' → ∀ text ∈ diagnostic.message.texts, char ∉ text)
    {related : Option (RelatedTypes τ)}
    (hview : ∀ types ∈ related, ∀ view ∈ View.build? checker diagnostic types, view.Lacks char) :
    ∀ line ∈ formatter.report checker buffer diagnostic related, char ∉ line.plainText := by
  have hcomparison : ∀ line ∈ formatter.comparisonSection
      (related.bind (View.build? checker diagnostic)), char ∉ line.plainText := by
    unfold comparisonSection
    split
    · exact List.forall_mem_nil _
    · rename_i view hbuilt
      obtain ⟨types, htypes, hbuilt⟩ := Option.bind_eq_some_iff.mp hbuilt
      rw [List.forall_mem_append, List.forall_mem_singleton]
      exact ⟨not_mem_comparison hchar hindent (hview types htypes view hbuilt), List.not_mem_nil⟩
  simp only [report, List.forall_mem_append, List.forall_mem_singleton]
  exact ⟨⟨⟨not_mem_excerptSection hchar hindent hbuffer diagnostic, hcomparison⟩,
    not_mem_messageSection hchar hmessage⟩, List.not_mem_nil⟩

end Formatter

end MismatchReport
