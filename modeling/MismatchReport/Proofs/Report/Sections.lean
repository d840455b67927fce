import MismatchReport.Proofs.Renaming
import MismatchReport.Proofs.Report.Batch
import MismatchReport.Proofs.Style.Line
import MismatchReport.Proofs.Style.Terminal
import MismatchReport.Proofs.Text.Pieces

/-!
# Sections of a report

A report shows what it can.  What is missing costs it the section that needs it and leaves the
other sections as they are, and the message is there whatever is missing.
-/

namespace MismatchReport

variable {τ : Type} [DecidableEq τ] {checker : Checker τ} {diagnostic other : Diagnostic}

theorem View.isSome_build?_iff {related : RelatedTypes τ} :
    (View.build? checker diagnostic related).isSome ↔
      diagnostic.code = 2322 ∧ (checker.project? related.source).isSome ∧
        (checker.project? related.target).isSome := by
  rw [View.build?, TreeBuilder.buildFresh_eq_treeOf?, TreeBuilder.buildFresh_eq_treeOf?,
    ← TreeBuilder.isSome_treeOf? checker Guard.defaultMaxDepth related.source related.sourceStack,
    ← TreeBuilder.isSome_treeOf? checker Guard.defaultMaxDepth related.target related.targetStack]
  by_cases hcode : diagnostic.code = 2322
  · cases TreeBuilder.treeOf? checker Guard.defaultMaxDepth related.source related.sourceStack <;>
      cases TreeBuilder.treeOf? checker Guard.defaultMaxDepth related.target related.targetStack <;>
        simp [hcode, Template.typeNotAssignable]
  · simp [hcode, Template.typeNotAssignable]

theorem View.build?_of_message (hcode : other.code = diagnostic.code)
    (hmessage : other.message = diagnostic.message) (related : RelatedTypes τ) :
    View.build? checker other related =
      (View.build? checker diagnostic related).map fun view =>
        { view with location := other.location? } := by
  simp [View.build?, hcode, hmessage]

namespace Formatter

variable {formatter : Formatter}

theorem excerptSection_ne_nil_iff {buffer : Option Source.Buffer} :
    formatter.excerptSection buffer diagnostic ≠ [] ↔
      diagnostic.file ≠ [] ∧ diagnostic.span.isSome ∧ buffer.isSome := by
  unfold excerptSection Diagnostic.location?
  cases diagnostic.file <;> cases diagnostic.span <;> cases buffer <;> simp

theorem comparisonSection_ne_nil_iff {view : Option View} :
    formatter.comparisonSection view ≠ [] ↔ view.isSome := by
  cases view <;> simp [comparisonSection]

theorem excerptSection_of_place (hplace : other.location? = diagnostic.location?)
    (hcode : other.code = diagnostic.code) (buffer : Option Source.Buffer) :
    formatter.excerptSection buffer other = formatter.excerptSection buffer diagnostic := by
  unfold excerptSection
  rw [hplace, hcode]

theorem comparisonSection_of_message (hcode : other.code = diagnostic.code)
    (hmessage : other.message = diagnostic.message) (related : Option (RelatedTypes τ)) :
    formatter.comparisonSection (related.bind (View.build? checker other)) =
      formatter.comparisonSection (related.bind (View.build? checker diagnostic)) := by
  cases related with
  | none => rfl
  | some related =>
      rw [Option.bind_some, Option.bind_some, View.build?_of_message hcode hmessage]
      cases View.build? checker diagnostic related <;> rfl

theorem messageSection_of_message (hmessage : other.message = diagnostic.message) :
    messageSection other = messageSection diagnostic := by
  rw [messageSection, messageSection, Diagnostic.flatMessage, Diagnostic.flatMessage, hmessage]

theorem printLines_messageSection (hne : diagnostic.flatMessage ≠ [])
    (hlast : diagnostic.flatMessage.getLast? ≠ some '\n')
    (hreturn : ¬ ['\r', '\n'] <:+: diagnostic.flatMessage) :
    printLines .plain (messageSection diagnostic) = diagnostic.flatMessage ++ ['\n'] := by
  have hlines : (messageSection diagnostic).map Styler.plain.renderLine =
      diagnostic.flatMessage.splitOn '\n' := by
    rw [messageSection, Text.printedLines_eq_splitOn hne hlast hreturn, List.map_map]
    refine (List.map_congr_left fun line _ => ?_).trans (List.map_id _)
    rw [Function.comp_apply, Terminal.renderLine_plain, StyledLine.plainText_styled, id]
  have hsection : messageSection diagnostic ≠ [] := by
    intro hnil
    rw [hnil] at hlines
    exact List.splitOn_ne_nil '\n' diagnostic.flatMessage hlines.symm
  rw [← renderLines_append_lineFeed .plain hsection, Styler.renderLines, hlines]
  exact congrArg (· ++ ['\n']) (List.intercalate_splitOn '\n')

/-- A report has an excerpt exactly if the diagnostic has a place and its buffer is given, and a
comparison exactly if an assignment error has two types that can be written as expressions; then
comes the message, and an empty line.  The excerpt depends on the place and the code alone, the
comparison on the code, the message and the types, and the trailer on the message.  A message
without a line feed at its end or behind a carriage return stands as it is at the end of the plain
report, which a batch closes by a line feed. -/
theorem report_sections (formatter : Formatter) (checker : Checker τ)
    (buffer : Option Source.Buffer) (diagnostic : Diagnostic)
    (related : Option (RelatedTypes τ)) :
    let excerpt := formatter.excerptSection buffer diagnostic
    let comparison := formatter.comparisonSection (related.bind (View.build? checker diagnostic))
    let trailer := messageSection diagnostic
    let lines := formatter.report checker buffer diagnostic related
    lines = excerpt ++ comparison ++ trailer ++ [.empty] ∧
    (excerpt ≠ [] ↔ diagnostic.file ≠ [] ∧ diagnostic.span.isSome ∧ buffer.isSome) ∧
    (comparison ≠ [] ↔ diagnostic.code = 2322 ∧ ∃ types ∈ related,
      (checker.project? types.source).isSome ∧ (checker.project? types.target).isSome) ∧
    (∀ other : Diagnostic,
      (other.location? = diagnostic.location? → other.code = diagnostic.code →
        formatter.excerptSection buffer other = excerpt) ∧
      (other.code = diagnostic.code → other.message = diagnostic.message →
        formatter.comparisonSection (related.bind (View.build? checker other)) = comparison) ∧
      (other.message = diagnostic.message → messageSection other = trailer)) ∧
    (diagnostic.flatMessage ≠ [] → diagnostic.flatMessage.getLast? ≠ some '\n' →
      ¬ ['\r', '\n'] <:+: diagnostic.flatMessage →
        diagnostic.flatMessage ++ ['\n', '\n'] <:+ Styler.plain.renderLines lines ++ ['\n']) := by
  intro excerpt comparison trailer lines
  refine ⟨rfl, excerptSection_ne_nil_iff, ?_, fun other => ⟨?_, ?_, ?_⟩, ?_⟩
  · rw [comparisonSection_ne_nil_iff]
    cases related with
    | none => simp
    | some types => simp [View.isSome_build?_iff]
  · intro hplace hcode
    exact excerptSection_of_place hplace hcode buffer
  · intro hcode hmessage
    exact comparisonSection_of_message hcode hmessage related
  · exact messageSection_of_message
  · intro hne hlast hreturn
    have htrailer := printLines_messageSection hne hlast hreturn
    have hlines : lines ≠ [] := List.concat_ne_nil _ _
    have hends : printLines .plain lines =
        printLines .plain (excerpt ++ comparison) ++
          (diagnostic.flatMessage ++ ['\n'] ++ ['\n']) := by
      rw [← htrailer]
      change printLines .plain (excerpt ++ comparison ++ trailer ++ [.empty]) = _
      rw [printLines_append, printLines_append, List.append_assoc]
      rfl
    rw [renderLines_append_lineFeed .plain hlines, hends, List.append_assoc]
    exact List.suffix_append _ _

def unknownName : Diagnostic where
  file := "a.ts"
  span := some ⟨8, 1⟩
  code := 2304
  message := ⟨"Cannot find name 'y'.", none, [⟨"Did you mean 'x'?", none, []⟩]⟩

theorem report_sections_unknownName :
    let formatter : Formatter := ⟨"  ", 40⟩
    let buffer := Source.Buffer.ofFile ⟨"a.ts", "let x = y;"⟩
    let lines := formatter.report ({} : Snapshot).checker (some buffer) unknownName none
    formatter.excerptSection (some buffer) unknownName ≠ [] ∧
      unknownName.flatMessage ++ ['\n', '\n'] <:+ Styler.plain.renderLines lines ++ ['\n'] := by
  intro formatter buffer lines
  obtain ⟨_, hexcerpt, _, _, hmessage⟩ :=
    report_sections formatter ({} : Snapshot).checker (some buffer) unknownName none
  exact ⟨hexcerpt.mpr (by decide), hmessage (by decide) (by decide) (by decide)⟩

end Formatter

end MismatchReport
