import Mathlib.Data.List.Induction
import MismatchReport.Proofs.Snapshot.Building
import MismatchReport.Proofs.Snapshot.Lookup

/-!
# Snapshots that grow

An added type gets the number of its place in the table.  Numbers stay distinct as long as none of
those that are given out is already there, which a snapshot that was read does not ensure.
-/

namespace MismatchReport.Snapshot

variable {snapshot : Snapshot}

theorem run_append_cons (snapshot : Snapshot) (before after : List BuildStep) (step : BuildStep) :
    snapshot.run (before ++ step :: after) = ((snapshot.run before).buildStep step).run after := by
  rw [run, List.foldl_append, List.foldl_cons]
  rfl

/-- No more numbers are given out than there are, and none that a type has already. -/
def AddsNewNumbers (snapshot : Snapshot) (steps : List BuildStep) : Prop :=
  steps.countP BuildStep.addsType ≤ UInt32.size ∧
    ∀ place ∈ snapshot.newPlaces steps, ¬ snapshot.knows (placeId place)

theorem nodup_run_iff (hnodup : (snapshot.types.map TypeEntry.id).Nodup)
    (steps : List BuildStep) :
    ((snapshot.run steps).types.map TypeEntry.id).Nodup ↔ snapshot.AddsNewNumbers steps := by
  have hplaces := nodup_map_placeId_range'_iff snapshot.types.length
    (steps.countP BuildStep.addsType)
  rw [ids_run, List.nodup_append', newPlaces, hplaces, AddsNewNumbers, List.disjoint_right,
    List.forall_mem_map]
  simp only [newPlaces, knows_iff, hnodup, true_and]

/-- Along a run, an added type gets a number that no type has, the types known before keep theirs,
and in the end every place of the table holds the type of its number. -/
structure KeepsNumbers (snapshot : Snapshot) (steps : List BuildStep) : Prop where
  fresh : ∀ before text shape after, steps = before ++ .addType text shape :: after →
    ¬ (snapshot.run before).knows ((snapshot.run before).addType text shape).1
  unchanged : ∀ before text shape after, steps = before ++ .addType text shape :: after →
    ∀ id, (snapshot.run before).knows id →
      ((snapshot.run before).addType text shape).2.get? id = (snapshot.run before).get? id
  found : ∀ (place : Nat) (entry : TypeEntry), (snapshot.run steps).types[place]? = some entry →
    (snapshot.run steps).get? entry.id = some entry

theorem not_knows_nextId_run (hnodup : (snapshot.types.map TypeEntry.id).Nodup)
    {before after : List BuildStep} {text : Text} {shape : Shape}
    (hnew : snapshot.AddsNewNumbers (before ++ .addType text shape :: after)) :
    ¬ (snapshot.run before).knows (snapshot.run before).nextId := by
  have hrun := (nodup_run_iff hnodup _).mpr hnew
  rw [run_append_cons, ids_run, List.nodup_append', ids_buildStep, List.nodup_append'] at hrun
  obtain ⟨⟨-, -, hdisjoint⟩, -⟩ := hrun
  rw [knows_iff]
  exact fun hknown => hdisjoint hknown (by simp [BuildStep.addsType])

theorem addsNewNumbers_of_fresh (hnodup : (snapshot.types.map TypeEntry.id).Nodup)
    {steps : List BuildStep}
    (hfresh : ∀ before text shape after, steps = before ++ .addType text shape :: after →
      ¬ (snapshot.run before).knows ((snapshot.run before).addType text shape).1) :
    snapshot.AddsNewNumbers steps := by
  rw [← nodup_run_iff hnodup]
  -- From the end of the run, as a step is new to all the numbers before it.
  induction steps using List.reverseRecOn with
  | nil => simpa [run] using hnodup
  | append_singleton before step ih =>
      have hbefore := ih fun front text shape after heq =>
        hfresh front text shape (after ++ [step]) (by simp [heq])
      rw [run_append_cons, run, List.foldl_nil, ids_buildStep]
      cases step with
      | addType text shape =>
          have hnew : ¬ (snapshot.run before).knows (snapshot.run before).nextId :=
            hfresh before text shape [] rfl
          rw [knows_iff] at hnew
          simpa [BuildStep.addsType] using List.Nodup.concat hnew hbefore
      | addFile | setDeclarations | setProjectable | addDiagnostic =>
          simpa [BuildStep.addsType] using hbefore

theorem keepsNumbers_iff (hnodup : (snapshot.types.map TypeEntry.id).Nodup)
    (steps : List BuildStep) :
    snapshot.KeepsNumbers steps ↔ snapshot.AddsNewNumbers steps := by
  refine ⟨fun hkeeps => addsNewNumbers_of_fresh hnodup hkeeps.fresh, fun hnew => ?_⟩
  constructor
  · rintro before text shape after rfl
    exact not_knows_nextId_run hnodup hnew
  · rintro before text shape after rfl id hid
    have hnext := not_knows_nextId_run hnodup hnew
    rw [get?_addType, if_neg]
    rintro rfl
    exact hnext hid
  · intro place entry hentry
    exact (get?_eq_some_iff ((nodup_run_iff hnodup steps).mpr hnew)).mpr
      ⟨List.mem_of_getElem? hentry, rfl⟩

end MismatchReport.Snapshot
