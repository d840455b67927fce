import Mathlib.Logic.Relation
import MismatchReport.Proofs.Renaming
import MismatchReport.Proofs.Snapshot.Lookup
import MismatchReport.Snapshot.Queries

/-!
# Tables without gaps

The table of a valid snapshot refers to no types but its own.  Whatever is reached from one of them
is one of them, and the snapshot answers as a checker that has these types and no others.
-/

namespace MismatchReport

namespace Checker

variable {τ : Type}

def successors (checker : Checker τ) (type : τ) : List τ :=
  (checker.members type).flatMap Member.types ++
    ((checker.constituents? type).map Prod.snd).getD []

def Reaches (checker : Checker τ) : τ → τ → Prop :=
  Relation.ReflTransGen fun type next => next ∈ checker.successors type

end Checker

namespace TypeEntry

variable {entry : TypeEntry}

theorem flatMap_types_append_constituents (entry : TypeEntry) :
    entry.members.flatMap Member.types ++ (entry.constituents?.map Prod.snd).getD [] =
      entry.shape.types := by
  cases hshape : entry.shape <;> simp [members, constituents?, Shape.types, hshape]

theorem mem_types_of_mem_members {member : Member TypeId} {id : TypeId}
    (hmember : member ∈ entry.members) (hid : id ∈ member.types) : id ∈ entry.shape.types := by
  rw [← flatMap_types_append_constituents]
  exact List.mem_append_left _ (List.mem_flatMap.mpr ⟨member, hmember, hid⟩)

theorem mem_types_of_mem_constituents {composite : CompositeKind × List TypeId} {id : TypeId}
    (hcomposite : entry.constituents? = some composite) (hid : id ∈ composite.2) :
    id ∈ entry.shape.types := by
  rw [← flatMap_types_append_constituents, hcomposite]
  exact List.mem_append_right _ hid

end TypeEntry

namespace Snapshot

variable {snapshot : Snapshot}

def IsClosed (snapshot : Snapshot) : Prop :=
  ∀ entry ∈ snapshot.types, ∀ id ∈ entry.shape.types, snapshot.knows id

theorem exists_entry_of_knows {id : TypeId} (hid : snapshot.knows id) :
    ∃ entry ∈ snapshot.types, entry.id = id ∧ snapshot.get? id = some entry := by
  rw [← isSome_get?] at hid
  obtain ⟨entry, hentry⟩ := Option.isSome_iff_exists.mp hid
  obtain ⟨hmem, heq⟩ := mem_of_get?_eq_some hentry
  exact ⟨entry, hmem, heq, hentry⟩

theorem successors_eq {id : TypeId} {entry : TypeEntry} (hentry : snapshot.get? id = some entry) :
    snapshot.checker.successors id = entry.shape.types := by
  rw [← TypeEntry.flatMap_types_append_constituents]
  simp [Checker.successors, checker, hentry]

theorem IsClosed.knows_of_reaches (hclosed : snapshot.IsClosed) {root id : TypeId}
    (hroot : snapshot.knows root) (hreaches : snapshot.checker.Reaches root id) :
    snapshot.knows id := by
  induction hreaches with
  | refl => exact hroot
  | tail _ hstep hknown =>
      obtain ⟨entry, hmem, -, hentry⟩ := exists_entry_of_knows hknown
      rw [successors_eq hentry] at hstep
      exact hclosed entry hmem _ hstep

abbrev KnownType (snapshot : Snapshot) : Type := {id : TypeId // snapshot.knows id}

def entry (snapshot : Snapshot) (type : snapshot.KnownType) : TypeEntry :=
  (snapshot.get? type.1).get ((snapshot.isSome_get? type.1).trans type.2)

theorem get?_val (type : snapshot.KnownType) :
    snapshot.get? type.1 = some (snapshot.entry type) :=
  (Option.some_get _).symm

theorem IsClosed.knows_of_mem_types (hclosed : snapshot.IsClosed) (type : snapshot.KnownType) :
    ∀ id ∈ (snapshot.entry type).shape.types, snapshot.knows id :=
  hclosed _ (mem_of_get?_eq_some (get?_val type)).1

/-- The entries of the table as a checker of its types.  There is no type without an entry, so that
every answer is read from one. -/
def tableChecker (snapshot : Snapshot) (hclosed : snapshot.IsClosed) :
    Checker snapshot.KnownType where
  project? type := (snapshot.entry type).projection?
  members type := (snapshot.entry type).members.pmap (Member.attachWith _) fun _ hmember id hid =>
    hclosed.knows_of_mem_types type id (TypeEntry.mem_types_of_mem_members hmember hid)
  print type := (snapshot.entry type).text
  declarations? type := (snapshot.entry type).declarations
  constituents? type := (snapshot.entry type).constituents?.pmap
    (fun composite hknown => (composite.1, composite.2.attachWith _ hknown))
    fun _ hcomposite id hid =>
      hclosed.knows_of_mem_types type id (TypeEntry.mem_types_of_mem_constituents hcomposite hid)

theorem tableChecker_renames (hclosed : snapshot.IsClosed) :
    (snapshot.tableChecker hclosed).Renames Subtype.val snapshot.checker where
  project?_eq type := by simp [checker, tableChecker, get?_val]
  members_eq type := by
    simp [checker, tableChecker, get?_val, List.map_pmap, Member.map_val_attachWith]
  print_eq type := by simp [checker, tableChecker, get?_val]
  declarations?_eq type := by simp [checker, tableChecker, get?_val]
  constituents?_eq type := by
    simp [checker, tableChecker, get?_val, Option.map_pmap]

end Snapshot

theorem RelatedTypes.exists_map_val {p : TypeId → Prop} (related : RelatedTypes TypeId)
    (h : ∀ id ∈ related.types, p id) :
    ∃ attached : RelatedTypes {id // p id}, attached.map Subtype.val = related := by
  have hsource := h related.source (by simp [types])
  have htarget := h related.target (by simp [types])
  have hsourceStack : ∀ id ∈ related.sourceStack, p id := fun id hid => h id (by simp [types, hid])
  have htargetStack : ∀ id ∈ related.targetStack, p id := fun id hid => h id (by simp [types, hid])
  refine ⟨⟨⟨_, hsource⟩, ⟨_, htarget⟩, related.sourceStack.attachWith p hsourceStack,
    related.targetStack.attachWith p htargetStack⟩, ?_⟩
  simp [map]

end MismatchReport
