import Mathlib.Logic.Equiv.Fintype
import MismatchReport.Proofs.Renaming
import MismatchReport.Proofs.Snapshot.Lookup

/-!
# Renamed snapshots

A snapshot with new numbers for its types, and with its table in another order, is as valid as it
was and answers in the new numbers what it answered in the old ones.
-/

namespace MismatchReport

variable {f g : TypeId → TypeId}

def Shape.rename (f : TypeId → TypeId) : Shape → Shape
  | .leaf => .leaf
  | .object members => .object (members.map (Member.map f))
  | .composite kind types => .composite kind (types.map f)

def TypeEntry.rename (f : TypeId → TypeId) (entry : TypeEntry) : TypeEntry :=
  { entry with id := f entry.id, shape := entry.shape.rename f }

def SnapshotDiagnostic.rename (f : TypeId → TypeId) (diagnostic : SnapshotDiagnostic) :
    SnapshotDiagnostic :=
  { diagnostic with relatedTypes := diagnostic.relatedTypes.map (RelatedTypes.map f) }

namespace Snapshot

/-- The renamed snapshot has the new numbers throughout.  Its table may be in any order. -/
structure IsRenaming (snapshot : Snapshot) (f : TypeId → TypeId) (renamed : Snapshot) : Prop where
  files_eq : renamed.files = snapshot.files
  types_perm : renamed.types.Perm (snapshot.types.map (TypeEntry.rename f))
  diagnostics_eq : renamed.diagnostics = snapshot.diagnostics.map (SnapshotDiagnostic.rename f)

end Snapshot

theorem Shape.types_rename (f : TypeId → TypeId) (shape : Shape) :
    (shape.rename f).types = shape.types.map f := by
  cases shape with
  | leaf => rfl
  | object members =>
      simp [rename, types, List.flatMap_map, List.map_flatMap, Member.types_map]
  | composite kind types => rfl

theorem Shape.rename_congr {shape : Shape} (h : ∀ id ∈ shape.types, f id = g id) :
    shape.rename f = shape.rename g := by
  cases shape with
  | leaf => rfl
  | object members =>
      rw [rename, rename]
      congr 1
      apply List.map_congr_left
      intro member hmember
      refine Member.map_congr fun id hid => h id ?_
      exact List.mem_flatMap.mpr ⟨member, hmember, hid⟩
  | composite kind types =>
      rw [rename, rename]
      congr 1
      exact List.map_congr_left h

theorem RelatedTypes.types_map (f : TypeId → TypeId) (related : RelatedTypes TypeId) :
    (related.map f).types = related.types.map f := by
  simp [map, types]

theorem RelatedTypes.map_congr {related : RelatedTypes TypeId}
    (h : ∀ id ∈ related.types, f id = g id) : related.map f = related.map g := by
  have hsource : related.sourceStack.map f = related.sourceStack.map g :=
    List.map_congr_left fun id hid => h id (by simp [types, hid])
  have htarget : related.targetStack.map f = related.targetStack.map g :=
    List.map_congr_left fun id hid => h id (by simp [types, hid])
  rw [map, map, hsource, htarget, h related.source (by simp [types]),
    h related.target (by simp [types])]

namespace Snapshot

variable {snapshot renamed : Snapshot}

theorem IsRenaming.ids_perm (hrenaming : snapshot.IsRenaming f renamed) :
    (renamed.types.map TypeEntry.id).Perm ((snapshot.types.map TypeEntry.id).map f) := by
  have hperm := hrenaming.types_perm.map TypeEntry.id
  rwa [List.map_map] at hperm ⊢

theorem IsRenaming.nodup (hrenaming : snapshot.IsRenaming f renamed)
    (hnodup : (snapshot.types.map TypeEntry.id).Nodup)
    (hf : Set.InjOn f {id | snapshot.knows id}) : (renamed.types.map TypeEntry.id).Nodup := by
  rw [hrenaming.ids_perm.nodup_iff, List.nodup_map_iff_inj_on hnodup]
  intro first hfirst second hsecond heq
  exact hf (knows_iff.mpr hfirst) (knows_iff.mpr hsecond) heq

theorem IsRenaming.knows_of_knows (hrenaming : snapshot.IsRenaming f renamed) {id : TypeId}
    (hid : snapshot.knows id) : renamed.knows (f id) := by
  rw [knows_iff, hrenaming.ids_perm.mem_iff]
  exact List.mem_map_of_mem (knows_iff.mp hid)

theorem IsRenaming.get?_eq (hrenaming : snapshot.IsRenaming f renamed)
    (hnodup : (snapshot.types.map TypeEntry.id).Nodup) (hf : Function.Injective f) (id : TypeId) :
    renamed.get? (f id) = (snapshot.get? id).map (TypeEntry.rename f) := by
  have hnodup' := hrenaming.nodup hnodup hf.injOn
  ext entry
  rw [Option.map_eq_some_iff, get?_eq_some_iff hnodup', hrenaming.types_perm.mem_iff,
    List.mem_map]
  constructor
  · rintro ⟨⟨found, hfound, rfl⟩, hid⟩
    exact ⟨found, (get?_eq_some_iff hnodup).mpr ⟨hfound, hf hid⟩, rfl⟩
  · rintro ⟨found, hfound, rfl⟩
    obtain ⟨hmem, hid⟩ := (get?_eq_some_iff hnodup).mp hfound
    exact ⟨⟨found, hmem, rfl⟩, congrArg f hid⟩

theorem IsRenaming.renames_checker (hrenaming : snapshot.IsRenaming f renamed)
    (hnodup : (snapshot.types.map TypeEntry.id).Nodup) (hf : Function.Injective f) :
    snapshot.checker.Renames f renamed.checker := by
  have hget := hrenaming.get?_eq hnodup hf
  constructor
  all_goals
    intro id
    simp only [checker, hget]
    rcases snapshot.get? id with
      _ | ⟨id, text, _ | members | ⟨kind, types⟩, declarations, projectable⟩
  all_goals rfl

theorem IsRenaming.placeDefects_eq (hrenaming : snapshot.IsRenaming f renamed)
    (diagnostic : Diagnostic) :
    renamed.placeDefects diagnostic = snapshot.placeDefects diagnostic := by
  unfold placeDefects file?
  rw [hrenaming.files_eq]

theorem IsRenaming.check_eq (hrenaming : snapshot.IsRenaming f renamed)
    (hcheck : snapshot.check = .ok snapshot) (hf : Set.InjOn f {id | snapshot.knows id}) :
    renamed.check = .ok renamed := by
  obtain ⟨-, hnodup, hvalid⟩ := check_eq_ok_iff.mp hcheck
  obtain ⟨htypes, hdiagnostics⟩ := validate_eq_ok_iff.mp hvalid
  refine check_eq_ok_iff.mpr ⟨rfl, hrenaming.nodup hnodup hf, validate_eq_ok_iff.mpr ⟨?_, ?_⟩⟩
  · intro entry hentry
    rw [hrenaming.types_perm.mem_iff] at hentry
    obtain ⟨old, hold, rfl⟩ := List.mem_map.mp hentry
    rw [TypeEntry.rename, Shape.types_rename, List.forall_mem_map]
    exact fun id hid => hrenaming.knows_of_knows (htypes old hold id hid)
  · intro diagnostic hdiagnostic
    rw [hrenaming.diagnostics_eq] at hdiagnostic
    obtain ⟨old, hold, rfl⟩ := List.mem_map.mp hdiagnostic
    obtain ⟨hrelated, hplace⟩ := hdiagnostics old hold
    constructor
    · intro related hmem
      obtain ⟨oldRelated, holdRelated, rfl⟩ := Option.map_eq_some_iff.mp hmem
      rw [RelatedTypes.types_map, List.forall_mem_map]
      exact fun id hid => hrenaming.knows_of_knows (hrelated oldRelated holdRelated id hid)
    · rw [hrenaming.placeDefects_eq]
      exact hplace

theorem IsRenaming.exists_injective (hrenaming : snapshot.IsRenaming f renamed)
    (hvalid : snapshot.validate = .ok ()) (hf : Set.InjOn f {id | snapshot.knows id}) :
    ∃ g, Function.Injective g ∧ snapshot.IsRenaming g renamed := by
  obtain ⟨htypes, hdiagnostics⟩ := validate_eq_ok_iff.mp hvalid
  let known := {id // id ∈ snapshot.types.map TypeEntry.id}
  have hknown : Function.Injective fun id : known => f id.1 := by
    intro first second heq
    exact Subtype.ext (hf (knows_iff.mpr first.2) (knows_iff.mpr second.2) heq)
  obtain ⟨σ, hσ⟩ := Equiv.Perm.exists_extending_pair _ _ (Subtype.val_injective) hknown
  have hagree : ∀ id, snapshot.knows id → f id = σ id :=
    fun id hid => (hσ ⟨id, knows_iff.mp hid⟩).symm
  refine ⟨σ, σ.injective, hrenaming.files_eq, ?_, ?_⟩
  · have hentries : snapshot.types.map (TypeEntry.rename f) =
        snapshot.types.map (TypeEntry.rename σ) := by
      apply List.map_congr_left
      intro entry hentry
      have hid := hagree entry.id (knows_iff.mpr (List.mem_map_of_mem hentry))
      have hshape : entry.shape.rename f = entry.shape.rename σ :=
        Shape.rename_congr fun id hid => hagree id (htypes entry hentry id hid)
      rw [TypeEntry.rename, TypeEntry.rename, hid, hshape]
    exact hentries ▸ hrenaming.types_perm
  · rw [hrenaming.diagnostics_eq]
    apply List.map_congr_left
    intro diagnostic hdiagnostic
    have hrelated : diagnostic.relatedTypes.map (RelatedTypes.map f) =
        diagnostic.relatedTypes.map (RelatedTypes.map σ) :=
      Option.map_congr fun related hmem => RelatedTypes.map_congr fun id hid =>
        hagree id ((hdiagnostics diagnostic hdiagnostic).1 related hmem id hid)
    rw [SnapshotDiagnostic.rename, SnapshotDiagnostic.rename, hrelated]

end Snapshot

end MismatchReport
