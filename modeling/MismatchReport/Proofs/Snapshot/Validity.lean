import Mathlib.Data.List.Nodup
import MismatchReport.Snapshot.Validity

/-!
# What a valid snapshot satisfies
-/

namespace MismatchReport

theorem repeatedIds_eq_nil_iff {seen : List TypeId} {types : List TypeEntry} :
    repeatedIds seen types = [] ↔
      (types.map TypeEntry.id).Nodup ∧ ∀ entry ∈ types, entry.id ∉ seen := by
  induction types generalizing seen with
  | nil => simp [repeatedIds]
  | cons entry types ih =>
      rw [repeatedIds, List.map_cons, List.nodup_cons, List.forall_mem_cons]
      by_cases hseen : entry.id ∈ seen
      · simp [hseen]
      · simp only [hseen, if_false, ih, List.mem_cons, List.mem_map, not_or]
        constructor
        · rintro ⟨hnodup, hrest⟩
          refine ⟨⟨?_, hnodup⟩, not_false, fun other hother => (hrest other hother).2⟩
          rintro ⟨other, hother, hid⟩
          exact (hrest other hother).1 hid
        · rintro ⟨⟨hentry, hnodup⟩, -, hrest⟩
          refine ⟨hnodup, fun other hother => ⟨?_, hrest other hother⟩⟩
          intro hid
          exact hentry ⟨other, hother, hid⟩

namespace Snapshot

variable {snapshot : Snapshot}

theorem duplicateTypes_eq_nil_iff :
    snapshot.duplicateTypes = [] ↔ (snapshot.types.map TypeEntry.id).Nodup := by
  simp [duplicateTypes, repeatedIds_eq_nil_iff]

theorem check_eq_ok_iff {checked : Snapshot} :
    snapshot.check = .ok checked ↔
      checked = snapshot ∧ (snapshot.types.map TypeEntry.id).Nodup ∧
        snapshot.validate = .ok () := by
  rw [← duplicateTypes_eq_nil_iff]
  unfold check
  split
  · rename_i hduplicates
    cases snapshot.validate with
    | error defect => simp [bind, Except.bind]
    | ok => simp [bind, Except.bind, pure, Except.pure, hduplicates, eq_comm]
  · rename_i defect rest hduplicates
    simp [bind, Except.bind, hduplicates]

theorem knows_iff {id : TypeId} :
    snapshot.knows id = true ↔ id ∈ snapshot.types.map TypeEntry.id := by
  simp [knows, List.mem_map]

theorem unknownTypes_eq_nil_iff {referrer : Referrer} {ids : List TypeId} :
    snapshot.unknownTypes referrer ids = [] ↔ ∀ id ∈ ids, snapshot.knows id = true := by
  simp [unknownTypes]

theorem diagnosticDefects_eq_nil_iff {index : Nat} {diagnostic : SnapshotDiagnostic} :
    snapshot.diagnosticDefects index diagnostic = [] ↔
      (∀ related ∈ diagnostic.relatedTypes, ∀ id ∈ related.types, snapshot.knows id = true) ∧
        snapshot.placeDefects diagnostic.toDiagnostic = [] := by
  rw [diagnosticDefects, List.append_eq_nil_iff, unknownTypes_eq_nil_iff]
  cases diagnostic.relatedTypes <;> simp

theorem placeDefects_eq_nil_iff {diagnostic : Diagnostic} :
    snapshot.placeDefects diagnostic = [] ↔
      (diagnostic.file ≠ [] → ∃ file, snapshot.file? diagnostic.file = some file ∧
        ∀ span ∈ diagnostic.span, span.stop ≤ Text.byteSize file.text) := by
  unfold placeDefects
  cases hname : diagnostic.file.isEmpty with
  | true => simp_all
  | false =>
      have hfile : diagnostic.file ≠ [] := by simpa using hname
      cases snapshot.file? diagnostic.file with
      | none => simp [hfile]
      | some file =>
          cases diagnostic.span with
          | none => simp
          | some span => simp [hfile]

theorem validate_eq_ok_iff :
    snapshot.validate = .ok () ↔
      (∀ entry ∈ snapshot.types, ∀ id ∈ entry.shape.types, snapshot.knows id = true) ∧
        ∀ diagnostic ∈ snapshot.diagnostics,
          (∀ related ∈ diagnostic.relatedTypes, ∀ id ∈ related.types,
            snapshot.knows id = true) ∧
          snapshot.placeDefects diagnostic.toDiagnostic = [] := by
  have hdefects : snapshot.validate = .ok () ↔ snapshot.defects = [] := by
    unfold validate
    split <;> simp_all
  rw [hdefects, defects, List.append_eq_nil_iff, List.flatMap_eq_nil_iff, List.flatMap_eq_nil_iff]
  simp only [typeDefects, unknownTypes_eq_nil_iff, diagnosticDefects_eq_nil_iff]
  refine and_congr_right fun _ => ?_
  conv_rhs => rw [← List.zipIdx_map_fst 0 snapshot.diagnostics, List.forall_mem_map]

end Snapshot

end MismatchReport
