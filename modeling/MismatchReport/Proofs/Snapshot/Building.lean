import MismatchReport.Proofs.Snapshot.Validity

/-!
# Built snapshots

A snapshot built step by step numbers its types by their places in the table, and an added type of
any snapshot gets the number of its place.
-/

namespace MismatchReport

/-- A step of building a snapshot.  Leaves, objects, unions and intersections are added by their
shapes. -/
inductive BuildStep where
  | addFile (name text : Text)
  | addType (text : Text) (shape : Shape)
  | setDeclarations (id : TypeId) (declarations : List Declaration)
  | setProjectable (id : TypeId) (projectable : Bool)
  | addDiagnostic (diagnostic : SnapshotDiagnostic)

def BuildStep.addsType : BuildStep → Bool
  | .addType _ _ => true
  | _ => false

namespace Snapshot

def buildStep (snapshot : Snapshot) : BuildStep → Snapshot
  | .addFile name text => snapshot.addFile name text
  | .addType text shape => (snapshot.addType text shape).2
  | .setDeclarations id declarations => snapshot.setDeclarations id declarations
  | .setProjectable id projectable => snapshot.setProjectable id projectable
  | .addDiagnostic diagnostic => snapshot.addDiagnostic diagnostic

def build (steps : List BuildStep) : Snapshot := steps.foldl buildStep {}

def run (snapshot : Snapshot) (steps : List BuildStep) : Snapshot := steps.foldl buildStep snapshot

def newPlaces (snapshot : Snapshot) (steps : List BuildStep) : List Nat :=
  List.range' snapshot.types.length (steps.countP BuildStep.addsType)

/-- The number of a place in the table, which wraps around at 32 bits. -/
def placeId (place : Nat) : TypeId := ⟨UInt32.ofNat place⟩

def Numbered (snapshot : Snapshot) : Prop :=
  snapshot.types.map TypeEntry.id = (List.range snapshot.types.length).map placeId

variable {snapshot : Snapshot}

theorem map_id_modifyLast (id : TypeId) {change : TypeEntry → TypeEntry}
    (hchange : ∀ entry, (change entry).id = entry.id) (types : List TypeEntry) :
    (modifyLast id change types).map TypeEntry.id = types.map TypeEntry.id := by
  induction types with
  | nil => rfl
  | cons entry types ih =>
      unfold modifyLast
      split_ifs
      · rw [List.map_cons, hchange, List.map_cons]
      · rw [List.map_cons, ih, List.map_cons]

theorem ids_buildStep (snapshot : Snapshot) (step : BuildStep) :
    (snapshot.buildStep step).types.map TypeEntry.id =
      snapshot.types.map TypeEntry.id ++ if step.addsType then [snapshot.nextId] else [] := by
  cases step with
  | addFile name text => exact (List.append_nil _).symm
  | addType text shape => exact List.map_append
  | setDeclarations id declarations =>
      simp [BuildStep.addsType, buildStep, setDeclarations, map_id_modifyLast]
  | setProjectable id projectable =>
      simp [BuildStep.addsType, buildStep, setProjectable, map_id_modifyLast]
  | addDiagnostic diagnostic => exact (List.append_nil _).symm

theorem ids_run (snapshot : Snapshot) (steps : List BuildStep) :
    (snapshot.run steps).types.map TypeEntry.id =
      snapshot.types.map TypeEntry.id ++ (snapshot.newPlaces steps).map placeId := by
  induction steps generalizing snapshot with
  | nil => exact (List.append_nil _).symm
  | cons step rest ih =>
      have hids := snapshot.ids_buildStep step
      have hlength := congrArg List.length hids
      rw [run, List.foldl_cons, ← run, ih, hids, List.append_assoc, newPlaces, newPlaces,
        List.countP_cons]
      by_cases hadds : step.addsType
      · have hgrown : (snapshot.buildStep step).types.length = snapshot.types.length + 1 := by
          simpa [hadds] using hlength
        rw [if_pos hadds, if_pos hadds, hgrown, List.range'_succ]
        rfl
      · have hsame : (snapshot.buildStep step).types.length = snapshot.types.length := by
          simpa [hadds] using hlength
        rw [if_neg hadds, if_neg hadds, hsame]
        rfl

theorem numbered_build (steps : List BuildStep) : (build steps).Numbered := by
  have hids : (build steps).types.map TypeEntry.id =
      (List.range' 0 (steps.countP BuildStep.addsType)).map placeId := ids_run {} steps
  have hlength : (build steps).types.length = steps.countP BuildStep.addsType := by
    simpa using congrArg List.length hids
  rw [Numbered, hids, hlength, List.range_eq_range']

theorem placeId_eq_iff {first second : Nat} :
    placeId first = placeId second ↔ first % UInt32.size = second % UInt32.size := by
  rw [placeId, placeId, TypeId.mk.injEq, ← UInt32.toNat_inj]
  rfl

theorem nodup_map_placeId_range'_iff (start count : Nat) :
    ((List.range' start count).map placeId).Nodup ↔ count ≤ UInt32.size := by
  rw [List.nodup_map_iff_inj_on List.nodup_range']
  constructor
  · intro hinj
    by_contra hcount
    have hwrap : placeId start = placeId (start + UInt32.size) := by
      rw [placeId_eq_iff, Nat.add_mod_right]
    have hsame := hinj start (by simp; omega) (start + UInt32.size) (by simp; omega) hwrap
    exact absurd hsame (Nat.ne_of_lt (Nat.lt_add_of_pos_right (by decide)))
  · intro hcount first hfirst second hsecond heq
    rw [placeId_eq_iff] at heq
    simp only [UInt32.size, List.mem_range'_1] at heq hfirst hsecond hcount
    omega

theorem Numbered.nodup_iff (hnumbered : snapshot.Numbered) :
    (snapshot.types.map TypeEntry.id).Nodup ↔ snapshot.types.length ≤ UInt32.size := by
  rw [hnumbered, List.range_eq_range', nodup_map_placeId_range'_iff]

end Snapshot

end MismatchReport
