import MismatchReport.Proofs.Document.Reload
import MismatchReport.Proofs.Report.Batch
import MismatchReport.Proofs.Snapshot.Table

/-!
# Reports without gaps

A report of a snapshot that was read asks for no type that the table lacks and for no file that is
missing: it is a report on the table alone.
-/

namespace MismatchReport

namespace Snapshot

variable {snapshot : Snapshot}

theorem isClosed_of_validate (hvalid : snapshot.validate = .ok ()) : snapshot.IsClosed :=
  (validate_eq_ok_iff.mp hvalid).1

theorem knows_of_mem_related (hvalid : snapshot.validate = .ok ())
    {diagnostic : SnapshotDiagnostic} (hdiagnostic : diagnostic ∈ snapshot.diagnostics)
    {related : RelatedTypes TypeId} (hrelated : related ∈ diagnostic.relatedTypes) :
    ∀ id ∈ related.types, snapshot.knows id :=
  ((validate_eq_ok_iff.mp hvalid).2 diagnostic hdiagnostic).1 related hrelated

theorem exists_buffer_of_validate (hvalid : snapshot.validate = .ok ())
    {diagnostic : SnapshotDiagnostic} (hdiagnostic : diagnostic ∈ snapshot.diagnostics)
    (hfile : diagnostic.file ≠ []) :
    ∃ buffer, Formatter.freshBuffer? snapshot diagnostic.file = some buffer ∧
      buffer.name = diagnostic.file ∧
      ∀ span ∈ diagnostic.span, span.stop ≤ Text.byteSize buffer.text := by
  have hplace := ((validate_eq_ok_iff.mp hvalid).2 diagnostic hdiagnostic).2
  obtain ⟨file, hfound, hspan⟩ := placeDefects_eq_nil_iff.mp hplace hfile
  have hname : file.name = diagnostic.file := by simpa using List.find?_some hfound
  refine ⟨.ofFile file, ?_, hname, hspan⟩
  rw [Formatter.freshBuffer?, if_neg (by simpa using hfile), buffer?, hfound]
  rfl

theorem exists_related_of_validate (hvalid : snapshot.validate = .ok ())
    {diagnostic : SnapshotDiagnostic} (hdiagnostic : diagnostic ∈ snapshot.diagnostics) :
    ∃ related : Option (RelatedTypes snapshot.KnownType),
      related.map (RelatedTypes.map Subtype.val) = diagnostic.relatedTypes := by
  cases hrelated : diagnostic.relatedTypes with
  | none => exact ⟨none, rfl⟩
  | some related =>
      obtain ⟨attached, hattached⟩ := related.exists_map_val
        (knows_of_mem_related hvalid hdiagnostic hrelated)
      exact ⟨some attached, congrArg some hattached⟩

end Snapshot

namespace Document

variable {snapshot : Snapshot}

/-- In a snapshot that was read, every type in reach of a diagnostic has an entry and every named
file is there and holds the span.  So each report is that of a checker which has the types of the
table only, and the excerpt of a located diagnostic is there. -/
theorem report_of_readSnapshot {text : Text} (hread : readSnapshot text = .ok snapshot) :
    (∀ diagnostic ∈ snapshot.diagnostics, ∀ related ∈ diagnostic.relatedTypes,
      ∀ root ∈ related.types, ∀ id, snapshot.checker.Reaches root id →
        ∃ entry ∈ snapshot.types, entry.id = id ∧ snapshot.get? id = some entry) ∧
    (∀ diagnostic ∈ snapshot.diagnostics, diagnostic.file ≠ [] →
      ∃ buffer, Formatter.freshBuffer? snapshot diagnostic.file = some buffer ∧
        buffer.name = diagnostic.file ∧
        ∀ span ∈ diagnostic.span, span.stop ≤ Text.byteSize buffer.text) ∧
    ∃ hclosed : snapshot.IsClosed, ∀ formatter : Formatter,
      ∀ diagnostic ∈ snapshot.diagnostics,
        (∃ related : Option (RelatedTypes snapshot.KnownType),
          related.map (RelatedTypes.map Subtype.val) = diagnostic.relatedTypes ∧
          formatter.freshReport snapshot diagnostic =
            formatter.report (snapshot.tableChecker hclosed)
              (Formatter.freshBuffer? snapshot diagnostic.file) diagnostic.toDiagnostic related) ∧
        ∀ span, diagnostic.location? = some span →
          ∃ buffer, Formatter.freshBuffer? snapshot diagnostic.file = some buffer ∧
            formatter.header buffer span diagnostic.code ::
                Source.renderSpan buffer span formatter.indent ++ [.empty] <+:
              formatter.freshReport snapshot diagnostic := by
  obtain ⟨-, -, hcheck⟩ := decodeSnapshot_of_readSnapshot hread
  obtain ⟨-, -, hvalid⟩ := Snapshot.check_eq_ok_iff.mp hcheck
  have hclosed := Snapshot.isClosed_of_validate hvalid
  refine ⟨?_, ?_, hclosed, ?_⟩
  · intro diagnostic hdiagnostic related hrelated root hroot id hreaches
    have hknown := Snapshot.knows_of_mem_related hvalid hdiagnostic hrelated root hroot
    exact Snapshot.exists_entry_of_knows (hclosed.knows_of_reaches hknown hreaches)
  · intro diagnostic hdiagnostic hfile
    exact Snapshot.exists_buffer_of_validate hvalid hdiagnostic hfile
  · intro formatter diagnostic hdiagnostic
    constructor
    · obtain ⟨related, hrelated⟩ := Snapshot.exists_related_of_validate hvalid hdiagnostic
      refine ⟨related, hrelated, ?_⟩
      rw [Formatter.freshReport, ← hrelated]
      exact Formatter.report_rename (Snapshot.tableChecker_renames hclosed)
        Subtype.val_injective formatter _ _ related
    · intro span hlocation
      have hfile : diagnostic.file ≠ [] := by
        intro hempty
        simp [Diagnostic.location?, hempty] at hlocation
      obtain ⟨buffer, hbuffer, -⟩ :=
        Snapshot.exists_buffer_of_validate hvalid hdiagnostic hfile
      have hsection : formatter.excerptSection (some buffer) diagnostic.toDiagnostic =
          formatter.header buffer span diagnostic.code ::
            Source.renderSpan buffer span formatter.indent ++ [.empty] := by
        simp [Formatter.excerptSection, hlocation]
      refine ⟨buffer, hbuffer, ?_⟩
      rw [Formatter.freshReport, Formatter.report, hbuffer, hsection, List.append_assoc,
        List.append_assoc]
      exact List.prefix_append _ _

def cyclicDiagnostic : SnapshotDiagnostic where
  file := "a.ts"
  span := some ⟨4, 1⟩
  code := 2322
  message := { text := "no" }
  relatedTypes := some { source := ⟨7⟩, target := ⟨3⟩ }

def cyclicSnapshot : Snapshot where
  files := [⟨"a.ts", "let a"⟩]
  types := [{ id := ⟨7⟩, text := "A", shape := .object [.property "next" ⟨3⟩] },
    { id := ⟨3⟩, text := "A | B", shape := .composite .union [⟨7⟩] }]
  diagnostics := [cyclicDiagnostic]

theorem report_of_readSnapshot_cyclic :
    readSnapshot (writeSnapshot cyclicSnapshot) = .ok cyclicSnapshot ∧
      cyclicSnapshot.checker.Reaches ⟨7⟩ ⟨3⟩ ∧
      (∃ entry ∈ cyclicSnapshot.types, entry.id = ⟨3⟩ ∧
        cyclicSnapshot.get? ⟨3⟩ = some entry) ∧
      ∃ buffer, Formatter.freshBuffer? cyclicSnapshot "a.ts" = some buffer ∧
        buffer.name = "a.ts" ∧ 5 ≤ Text.byteSize buffer.text := by
  have hread : readSnapshot (writeSnapshot cyclicSnapshot) = .ok cyclicSnapshot :=
    (readSnapshot_writeSnapshot_iff (by decide)).mpr rfl
  have hdiagnostic : cyclicDiagnostic ∈ cyclicSnapshot.diagnostics := List.mem_singleton_self _
  have hreaches : cyclicSnapshot.checker.Reaches ⟨7⟩ ⟨3⟩ := .single (by decide)
  obtain ⟨hentries, hplaces, -⟩ := report_of_readSnapshot hread
  obtain ⟨buffer, hbuffer, hname, hspan⟩ := hplaces _ hdiagnostic (by decide)
  exact ⟨hread, hreaches, hentries _ hdiagnostic _ rfl ⟨7⟩ (by decide) ⟨3⟩ hreaches, buffer,
    hbuffer, hname, hspan ⟨4, 1⟩ rfl⟩

end Document

end MismatchReport
