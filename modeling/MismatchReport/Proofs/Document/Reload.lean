import MismatchReport.Proofs.Document.Loading
import MismatchReport.Proofs.Snapshot.Building

/-!
# Snapshots written and read again
-/

namespace MismatchReport.Document

open Json

theorem readSnapshot_write {json : Json} (hjson : json.IsSimple)
    {result : Except SnapshotError Snapshot} (hload : loadSnapshot json = result) :
    readSnapshot json.write = result := by
  rw [readSnapshot, parse?_write hjson]
  exact hload

theorem decodeSnapshot_of_readSnapshot {text : Text} {snapshot : Snapshot}
    (hread : readSnapshot text = .ok snapshot) :
    ∃ json, decodeSnapshot documentScope json = some snapshot ∧ snapshot.check = .ok snapshot := by
  unfold readSnapshot at hread
  split at hread
  · cases hread
  · rename_i json hjson
    unfold loadSnapshot at hread
    split at hread
    · cases hread
    · rename_i decoded hdecoded
      cases hcheck : decoded.check with
      | error defect =>
          rw [hcheck] at hread
          cases hread
      | ok checked =>
          rw [hcheck] at hread
          cases hread
          obtain ⟨rfl, -⟩ := Snapshot.check_eq_ok_iff.mp hcheck
          exact ⟨json, hdecoded, hcheck⟩

theorem readSnapshot_writeSnapshot_eq {snapshot : Snapshot}
    (hnesting : (encodeSnapshot snapshot).nesting ≤ nestingLimit) :
    readSnapshot (writeSnapshot snapshot) = snapshot.check.mapError .invalid :=
  readSnapshot_eq_of_decodes (decodes_writeSnapshot hnesting)

theorem readSnapshot_writeSnapshot_iff {snapshot : Snapshot}
    (hnesting : (encodeSnapshot snapshot).nesting ≤ nestingLimit) :
    readSnapshot (writeSnapshot snapshot) = .ok snapshot ↔ snapshot.check = .ok snapshot := by
  rw [readSnapshot_writeSnapshot_eq hnesting]
  cases snapshot.check with
  | error defect => simp [Except.mapError]
  | ok checked => simp [Except.mapError]

/-- Writing a snapshot and reading the text gives the snapshot again: any that was read, and any
that was built, validates and nests within the limit.  A built table numbers its types with 32
bits, so that it has distinct numbers for no more than `UInt32.size` of them. -/
theorem readSnapshot_writeSnapshot :
    (∀ text snapshot, readSnapshot text = .ok snapshot →
      readSnapshot (writeSnapshot snapshot) = .ok snapshot) ∧
    ∀ steps, (Snapshot.build steps).validate = .ok () →
      (encodeSnapshot (Snapshot.build steps)).nesting ≤ nestingLimit →
      (readSnapshot (writeSnapshot (Snapshot.build steps)) = .ok (Snapshot.build steps) ↔
        (Snapshot.build steps).types.length ≤ UInt32.size) := by
  constructor
  · intro text snapshot hread
    obtain ⟨json, hjson, hcheck⟩ := decodeSnapshot_of_readSnapshot hread
    exact (readSnapshot_writeSnapshot_iff (nesting_of_decodeSnapshot hjson)).mpr hcheck
  · intro steps hvalid hnesting
    rw [readSnapshot_writeSnapshot_iff hnesting, Snapshot.check_eq_ok_iff,
      (Snapshot.numbered_build steps).nodup_iff]
    simp [hvalid]

def sampleSteps : List BuildStep :=
  [.addFile "a.ts" "let a", .addType "A" .leaf, .addType "A | A" (.composite .union [⟨0⟩, ⟨0⟩]),
    .setDeclarations ⟨0⟩ [], .setProjectable ⟨1⟩ false,
    .addDiagnostic
      { file := "a.ts", span := some ⟨4, 1⟩, code := 2322,
        message := { text := "no", children := [{ text := "why" }] },
        relatedTypes := some { source := ⟨0⟩, target := ⟨1⟩ } }]

theorem readSnapshot_writeSnapshot_sample :
    readSnapshot (writeSnapshot { types := [{ id := ⟨7⟩, text := "x" }] }) =
        .ok { types := [{ id := ⟨7⟩, text := "x" }] } ∧
      readSnapshot (writeSnapshot (Snapshot.build sampleSteps)) =
        .ok (Snapshot.build sampleSteps) := by
  obtain ⟨hread, hbuilt⟩ := readSnapshot_writeSnapshot
  constructor
  · let entry : Json := .array [.ofWord 7, .ofText "x"]
    have hentry : entry.IsSimple :=
      .array (List.forall_mem_cons.mpr ⟨.word 7, List.forall_mem_singleton.mpr (.text "x")⟩)
    have hdocument : (Json.ofFields [("types", .array [entry])]).IsSimple :=
      .fields (List.forall_mem_singleton.mpr (.array (List.forall_mem_singleton.mpr hentry)))
    exact hread _ _ (readSnapshot_write hdocument rfl)
  · exact (hbuilt sampleSteps (by decide) (by decide)).mpr (by decide)

end MismatchReport.Document
