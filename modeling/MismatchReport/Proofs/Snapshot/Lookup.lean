import MismatchReport.Proofs.Snapshot.Validity
import MismatchReport.Snapshot.Queries

/-!
# Look-up in the table

The entry that a number stands for, found and added.
-/

namespace MismatchReport.Snapshot

variable {snapshot : Snapshot}

theorem mem_of_get?_eq_some {id : TypeId} {entry : TypeEntry}
    (hget : snapshot.get? id = some entry) : entry ∈ snapshot.types ∧ entry.id = id := by
  rw [get?, List.findRev?_eq_find?_reverse] at hget
  exact ⟨List.mem_reverse.mp (List.mem_of_find?_eq_some hget), by simpa using List.find?_some hget⟩

theorem exists_entry_of_mem_members {id : TypeId} {member : Member TypeId}
    (hmember : member ∈ snapshot.checker.members id) :
    ∃ entry, snapshot.get? id = some entry ∧ member ∈ entry.members := by
  cases hget : snapshot.get? id with
  | none => simp [checker, hget] at hmember
  | some entry => exact ⟨entry, rfl, by simpa [checker, hget] using hmember⟩

theorem isSome_get? (snapshot : Snapshot) (id : TypeId) :
    (snapshot.get? id).isSome = snapshot.knows id := by
  rw [get?, List.findRev?_eq_find?_reverse, List.isSome_find?, List.any_reverse]
  rfl

theorem get?_eq_some_iff (hnodup : (snapshot.types.map TypeEntry.id).Nodup) {id : TypeId}
    {entry : TypeEntry} :
    snapshot.get? id = some entry ↔ entry ∈ snapshot.types ∧ entry.id = id := by
  constructor
  · exact mem_of_get?_eq_some
  · rintro ⟨hentry, hid⟩
    have hknown : snapshot.knows id := knows_iff.mpr (hid ▸ List.mem_map_of_mem hentry)
    rw [← isSome_get?] at hknown
    obtain ⟨found, hfound⟩ := Option.isSome_iff_exists.mp hknown
    obtain ⟨hmem, hfoundId⟩ := mem_of_get?_eq_some hfound
    rw [hfound, List.inj_on_of_nodup_map hnodup hmem hentry (hfoundId.trans hid.symm)]

theorem get?_addType (snapshot : Snapshot) (text : Text) (shape : Shape) (id : TypeId) :
    (snapshot.addType text shape).2.get? id =
      if snapshot.nextId = id then some { id := snapshot.nextId, text, shape }
      else snapshot.get? id := by
  rw [get?, get?, List.findRev?_eq_find?_reverse, List.findRev?_eq_find?_reverse, addType,
    List.reverse_append, List.reverse_singleton, List.singleton_append]
  by_cases hid : snapshot.nextId = id
  · rw [if_pos hid, List.find?_cons_of_pos (by simpa using hid)]
  · rw [if_neg hid, List.find?_cons_of_neg (by simpa using hid)]

theorem mem_files_of_buffer? {name : Text} {buffer : Source.Buffer}
    (hbuffer : snapshot.buffer? name = some buffer) : buffer.toSourceFile ∈ snapshot.files := by
  obtain ⟨file, hfile, rfl⟩ := Option.map_eq_some_iff.mp hbuffer
  exact List.mem_of_find?_eq_some hfile

end MismatchReport.Snapshot
