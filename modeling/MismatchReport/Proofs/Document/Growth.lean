import MismatchReport.Proofs.Document.Reload
import MismatchReport.Proofs.Snapshot.Growth

/-!
# Types added to new snapshots and to read ones

The numbers of a read document are arbitrary, and the number of an added type is its place in the
table.  The two can meet.
-/

namespace MismatchReport.Document

theorem keepsNumbers_empty_iff (steps : List BuildStep) :
    ({} : Snapshot).KeepsNumbers steps ↔ steps.countP BuildStep.addsType ≤ UInt32.size := by
  have hnodup : (({} : Snapshot).types.map TypeEntry.id).Nodup := List.nodup_nil
  have hunknown (id : TypeId) : ¬ ({} : Snapshot).knows id := Bool.false_ne_true
  rw [Snapshot.keepsNumbers_iff hnodup]
  simp [Snapshot.AddsNewNumbers, hunknown]

def IsStart (snapshot : Snapshot) : Prop :=
  snapshot = {} ∨ ∃ text, readSnapshot text = .ok snapshot

/-- The types of a new snapshot or of one that was read keep their numbers exactly if the steps
give out none that is taken. -/
theorem keepsNumbers_iff_addsNewNumbers {snapshot : Snapshot} (hstart : IsStart snapshot)
    (steps : List BuildStep) : snapshot.KeepsNumbers steps ↔ snapshot.AddsNewNumbers steps := by
  apply Snapshot.keepsNumbers_iff
  rcases hstart with rfl | ⟨text, hread⟩
  · exact List.nodup_nil
  · obtain ⟨-, -, hcheck⟩ := decodeSnapshot_of_readSnapshot hread
    exact (Snapshot.check_eq_ok_iff.mp hcheck).2.1

def snapshotOf (number : UInt32) : Snapshot := { types := [{ id := ⟨number⟩, text := "old" }] }

def jsonOf (number : UInt32) : Json :=
  .ofFields [("types", .array [.ofFields [("id", .ofWord number), ("text", .ofText "old")]])]

theorem isSimple_jsonOf (number : UInt32) : (jsonOf number).IsSimple := by
  refine .fields (List.forall_mem_singleton.mpr (.array (List.forall_mem_singleton.mpr
    (.fields ?_))))
  exact List.forall_mem_cons.mpr ⟨.word number, List.forall_mem_singleton.mpr (.text "old")⟩

theorem keepsNumbers_snapshotOf_seven :
    IsStart (snapshotOf 7) ∧
      (snapshotOf 7).KeepsNumbers [.addType "new" .leaf, .setProjectable ⟨7⟩ false] := by
  have hstart : IsStart (snapshotOf 7) := .inr ⟨_, readSnapshot_write (isSimple_jsonOf 7) rfl⟩
  exact ⟨hstart, (keepsNumbers_iff_addsNewNumbers hstart _).mpr ⟨by decide, by decide⟩⟩

/-- An added type takes the number of one that was read, and its place in every look-up. -/
theorem addType_hides_read_type :
    readSnapshot "\x7b\"types\":[\x7b\"id\":1,\"text\":\"old\"\x7d]\x7d" = .ok (snapshotOf 1) ∧
      (snapshotOf 1).knows ((snapshotOf 1).addType "new" .leaf).1 = true ∧
      ((snapshotOf 1).get? ⟨1⟩).map TypeEntry.text = some "old" ∧
      (((snapshotOf 1).addType "new" .leaf).2.get? ⟨1⟩).map TypeEntry.text = some "new" := by
  have htext : (jsonOf 1).write = "\x7b\"types\":[\x7b\"id\":1,\"text\":\"old\"\x7d]\x7d" := by
    decide
  rw [← htext]
  exact ⟨readSnapshot_write (isSimple_jsonOf 1) rfl, by decide, by decide, by decide⟩

end MismatchReport.Document
