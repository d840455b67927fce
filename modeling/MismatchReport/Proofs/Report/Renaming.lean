import MismatchReport.Proofs.Document.Reload
import MismatchReport.Proofs.Snapshot.Renaming

/-!
# Reports of renamed snapshots

The numbers of types, and the order in which the table has them, do not show in a report.
-/

namespace MismatchReport

variable {snapshot renamed : Snapshot} {f : TypeId → TypeId}

namespace Formatter

theorem openBuffer_rename (hrenaming : snapshot.IsRenaming f renamed) (name : Text)
    (buffers : OpenBuffers) :
    openBuffer renamed name buffers = openBuffer snapshot name buffers := by
  unfold openBuffer Snapshot.buffer? Snapshot.file?
  rw [hrenaming.files_eq]

theorem renderFrom_rename (hrenaming : snapshot.IsRenaming f renamed)
    (hnodup : (snapshot.types.map TypeEntry.id).Nodup) (hf : Function.Injective f)
    (formatter : Formatter) (styler : Styler) (buffers : OpenBuffers)
    (diagnostics : List SnapshotDiagnostic) :
    formatter.renderFrom renamed styler buffers
        (diagnostics.map (SnapshotDiagnostic.rename f)) =
      formatter.renderFrom snapshot styler buffers diagnostics := by
  have hchecker := hrenaming.renames_checker hnodup hf
  induction diagnostics generalizing buffers with
  | nil => rfl
  | cons diagnostic diagnostics ih =>
      rw [List.map_cons, renderFrom, renderFrom]
      simp only [SnapshotDiagnostic.rename, openBuffer_rename hrenaming,
        report_rename hchecker hf]
      rw [ih]

theorem renderAll_rename (hrenaming : snapshot.IsRenaming f renamed)
    (hnodup : (snapshot.types.map TypeEntry.id).Nodup) (hf : Function.Injective f)
    (formatter : Formatter) (styler : Styler) :
    formatter.renderAll renamed styler = formatter.renderAll snapshot styler := by
  unfold renderAll
  rw [hrenaming.diagnostics_eq]
  exact renderFrom_rename hrenaming hnodup hf formatter styler [] snapshot.diagnostics

end Formatter

namespace Document

open Json

theorem nesting_encodeSnapshot_rename (hrenaming : snapshot.IsRenaming f renamed)
    (hnesting : (encodeSnapshot snapshot).nesting ≤ nestingLimit) :
    (encodeSnapshot renamed).nesting ≤ nestingLimit := by
  rw [nesting_encodeSnapshot_le_iff (by decide)] at hnesting ⊢
  rw [hrenaming.diagnostics_eq, List.forall_mem_map]
  exact hnesting

/-- Type numbers are identities and nothing else: a snapshot that was read stays valid, is read
from its document, and gives the same reports, when its numbers are replaced by others that are as
distinct and its table is put in any order. -/
theorem renderAll_eq_of_isRenaming {text : Text} (hread : readSnapshot text = .ok snapshot)
    (hf : Set.InjOn f {id | snapshot.knows id}) (hrenaming : snapshot.IsRenaming f renamed) :
    renamed.check = .ok renamed ∧
      readSnapshot (writeSnapshot renamed) = .ok renamed ∧
      ∀ (formatter : Formatter) (styler : Styler),
        formatter.renderAll renamed styler = formatter.renderAll snapshot styler := by
  obtain ⟨json, hjson, hcheck⟩ := decodeSnapshot_of_readSnapshot hread
  obtain ⟨-, hnodup, hvalid⟩ := Snapshot.check_eq_ok_iff.mp hcheck
  have hchecked := hrenaming.check_eq hcheck hf
  have hnesting := nesting_encodeSnapshot_rename hrenaming (nesting_of_decodeSnapshot hjson)
  refine ⟨hchecked, (readSnapshot_writeSnapshot_iff hnesting).mpr hchecked, ?_⟩
  obtain ⟨g, hg, hrenaming⟩ := hrenaming.exists_injective hvalid hf
  exact Formatter.renderAll_rename hrenaming hnodup hg

def sampleRenaming (id : TypeId) : TypeId := if id = ⟨0⟩ then ⟨7⟩ else ⟨3⟩

def sampleRenamed : Snapshot where
  files := (Snapshot.build sampleSteps).files
  types := ((Snapshot.build sampleSteps).types.map (TypeEntry.rename sampleRenaming)).reverse
  diagnostics :=
    (Snapshot.build sampleSteps).diagnostics.map (SnapshotDiagnostic.rename sampleRenaming)

theorem renderAll_sampleRenamed :
    readSnapshot (writeSnapshot sampleRenamed) = .ok sampleRenamed ∧
      ∀ (formatter : Formatter) (styler : Styler),
        formatter.renderAll sampleRenamed styler =
          formatter.renderAll (Snapshot.build sampleSteps) styler := by
  have hread : readSnapshot (writeSnapshot (Snapshot.build sampleSteps)) =
      .ok (Snapshot.build sampleSteps) :=
    (readSnapshot_writeSnapshot_iff (by decide)).mpr rfl
  have hknown : ∀ id, (Snapshot.build sampleSteps).knows id → id = ⟨0⟩ ∨ id = ⟨1⟩ := by
    intro id hid
    have hmem : id ∈ [(⟨0⟩ : TypeId), ⟨1⟩] := Snapshot.knows_iff.mp hid
    simpa using hmem
  have hf : Set.InjOn sampleRenaming {id | (Snapshot.build sampleSteps).knows id} := by
    intro first hfirst second hsecond heq
    rcases hknown first hfirst with rfl | rfl <;> rcases hknown second hsecond with rfl | rfl
    · rfl
    · exact absurd heq (by decide)
    · exact absurd heq (by decide)
    · rfl
  have hrenaming : (Snapshot.build sampleSteps).IsRenaming sampleRenaming sampleRenamed :=
    ⟨rfl, List.reverse_perm _, rfl⟩
  exact (renderAll_eq_of_isRenaming hread hf hrenaming).2

end Document

end MismatchReport
