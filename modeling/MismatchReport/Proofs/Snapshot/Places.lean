import Mathlib.Data.List.Basic
import MismatchReport.Snapshot.Basic

/-!
# Places of types

Where a shape and a pair of related types use their types.  A place is a path of numbers, and the
places of a list of parts start with the number of the part, so that places in the order of their
numbers are places in the order of the text.
-/

namespace MismatchReport

abbrev Placed (α : Type) := List Nat × α

namespace Placed

variable {α β : Type}

def IsOrdered (items : List (Placed α)) : Prop :=
  items.Pairwise fun first second => first.1 < second.1

def number (items : Nat → α → List (Placed β)) (parts : List α) : List (Placed β) :=
  parts.zipIdx.flatMap fun (part, place) => (items place part).map (Prod.map (place :: ·) id)

theorem mem_number_iff {items : Nat → α → List (Placed β)} {parts : List α} {path : List Nat}
    {value : β} :
    (path, value) ∈ number items parts ↔
      ∃ place part below, path = place :: below ∧ parts[place]? = some part ∧
        (below, value) ∈ items place part := by
  simp only [number, List.mem_flatMap, List.mem_map, Prod.exists, List.mem_zipIdx_iff_getElem?,
    Prod.map_apply, Prod.mk.injEq, id]
  constructor
  · rintro ⟨part, place, hpart, below, item, hitem, rfl, rfl⟩
    exact ⟨place, part, below, rfl, hpart, hitem⟩
  · rintro ⟨place, part, below, rfl, hpart, hitem⟩
    exact ⟨part, place, hpart, below, value, hitem, rfl, rfl⟩

theorem mem_number {items : Nat → α → List (Placed β)} {parts : List α} {place : Nat} {part : α}
    {below : List Nat} {value : β} (hpart : parts[place]? = some part)
    (hvalue : (below, value) ∈ items place part) :
    (place :: below, value) ∈ number items parts :=
  mem_number_iff.mpr ⟨place, part, below, rfl, hpart, hvalue⟩

theorem map_snd_number (items : Nat → α → List (Placed β)) (parts : List α) :
    (number items parts).map Prod.snd =
      parts.zipIdx.flatMap fun (part, place) => (items place part).map Prod.snd := by
  simp [number, List.map_flatMap, Function.comp_def]

theorem map_snd_number_const (items : α → List (Placed β)) (parts : List α) :
    (number (fun _ => items) parts).map Prod.snd =
      parts.flatMap fun part => (items part).map Prod.snd := by
  rw [map_snd_number]
  conv_rhs => rw [← List.zipIdx_map_fst 0 parts, List.flatMap_map]

theorem isOrdered_number {items : Nat → α → List (Placed β)} {parts : List α}
    (hitems : ∀ part ∈ parts, ∀ place, IsOrdered (items place part)) :
    IsOrdered (number items parts) := by
  have hplaces : parts.zipIdx.Pairwise fun first second => first.2 < second.2 := by
    rw [← List.pairwise_map (f := Prod.snd), List.zipIdx_map_snd]
    exact List.pairwise_lt_range'
  refine List.pairwise_flatMap.mpr ⟨?_, hplaces.imp ?_⟩
  · rintro ⟨part, place⟩ hpart
    have hmem := List.mem_of_getElem? (List.mem_zipIdx_iff_getElem?.mp hpart)
    exact List.pairwise_map.mpr ((hitems part hmem place).imp List.cons_lt_cons_self.mpr)
  · rintro ⟨part, place⟩ ⟨other, later⟩ hlt first hfirst second hsecond
    obtain ⟨_, -, rfl⟩ := List.mem_map.mp hfirst
    obtain ⟨_, -, rfl⟩ := List.mem_map.mp hsecond
    exact List.cons_lt_cons_iff.mpr (.inl hlt)

theorem isOrdered_singleton (item : Placed α) : IsOrdered [item] := List.pairwise_singleton _ _

def ofOption (value : Option α) : List (Placed α) := (value.map ([], ·)).toList

theorem mem_ofOption_iff {item : Option α} {path : List Nat} {value : α} :
    (path, value) ∈ ofOption item ↔ path = [] ∧ item = some value := by
  cases item <;> simp [ofOption, eq_comm]

theorem map_snd_ofOption (value : Option α) : (ofOption value).map Prod.snd = value.toList := by
  cases value <;> rfl

theorem isOrdered_ofOption (value : Option α) : IsOrdered (ofOption value) := by
  cases value with
  | none => exact .nil
  | some value => exact isOrdered_singleton _

def enumerate (values : List α) : List (Placed α) := number (fun _ value => [([], value)]) values

theorem mem_enumerate_iff {values : List α} {path : List Nat} {value : α} :
    (path, value) ∈ enumerate values ↔ ∃ place, path = [place] ∧ values[place]? = some value := by
  rw [enumerate, mem_number_iff]
  constructor
  · rintro ⟨place, part, below, rfl, hpart, hbelow⟩
    cases List.mem_singleton.mp hbelow
    exact ⟨place, rfl, hpart⟩
  · rintro ⟨place, rfl, hvalue⟩
    exact ⟨place, value, [], rfl, hvalue, List.mem_singleton_self _⟩

theorem map_snd_enumerate (values : List α) : (enumerate values).map Prod.snd = values := by
  rw [enumerate, map_snd_number_const]
  exact List.flatMap_singleton' values

theorem isOrdered_enumerate (values : List α) : IsOrdered (enumerate values) :=
  isOrdered_number fun value _ _ => isOrdered_singleton ([], value)

theorem IsOrdered.head?_eq_some_iff {items : List (Placed α)} (hitems : IsOrdered items)
    {path : List Nat} {value : α} :
    items.head? = some (path, value) ↔
      (path, value) ∈ items ∧ ∀ other ∈ items, ¬ other.1 < path := by
  cases items with
  | nil => simp
  | cons first rest =>
      obtain ⟨hfirst, -⟩ := List.pairwise_cons.mp hitems
      rw [List.head?_cons, Option.some.injEq]
      constructor
      · rintro rfl
        refine ⟨List.mem_cons_self, ?_⟩
        rw [List.forall_mem_cons]
        exact ⟨List.lt_irrefl _, fun other hother => List.lt_asymm (hfirst other hother)⟩
      · rintro ⟨hmem, hleast⟩
        rcases List.mem_cons.mp hmem with heq | hrest
        · exact heq.symm
        · exact absurd (hfirst _ hrest) (hleast first List.mem_cons_self)

end Placed

open Placed

/-! ## Types of members -/

/-- A method uses the types of its parameters in order, and then that of its result. -/
inductive Member.UsesAt : Member TypeId → List Nat → TypeId → Prop
  | property {name : Text} {id : TypeId} : UsesAt (.property name id) [0] id
  | param {name : Text} {params : List (Param TypeId)} {result : TypeId} {place : Nat}
      {param : Param TypeId} {id : TypeId} (hparam : params[place]? = some param)
      (htype : param.type = some id) : UsesAt (.method name params result) [place] id
  | result {name : Text} {params : List (Param TypeId)} {id : TypeId} :
      UsesAt (.method name params id) [params.length] id

namespace Member

def placedTypes : Member TypeId → List (Placed TypeId)
  | .property _ type => [([0], type)]
  | .method _ params result =>
      number (fun _ param => ofOption param.type) params ++ [([params.length], result)]

variable {member : Member TypeId} {path : List Nat} {id : TypeId}

theorem map_snd_placedTypes (member : Member TypeId) :
    member.placedTypes.map Prod.snd = member.types := by
  cases member with
  | property name type => rfl
  | method name params result =>
      rw [placedTypes, List.map_append, map_snd_number_const, types]
      congr 1
      induction params with
      | nil => rfl
      | cons param params ih =>
          rw [List.flatMap_cons, ih, List.filterMap_cons, map_snd_ofOption]
          cases param.type <;> rfl

theorem isOrdered_placedTypes (member : Member TypeId) : IsOrdered member.placedTypes := by
  cases member with
  | property name type => exact isOrdered_singleton _
  | method name params result =>
      refine List.pairwise_append.mpr ⟨isOrdered_number ?_, isOrdered_singleton _, ?_⟩
      · exact fun param _ _ => isOrdered_ofOption param.type
      · rintro ⟨path, type⟩ htype last hlast
        obtain ⟨place, param, below, rfl, hparam, -⟩ := mem_number_iff.mp htype
        obtain ⟨hplace, -⟩ := List.getElem?_eq_some_iff.mp hparam
        rw [List.mem_singleton.mp hlast]
        exact List.cons_lt_cons_iff.mpr (.inl hplace)

theorem mem_placedTypes_iff : (path, id) ∈ member.placedTypes ↔ member.UsesAt path id := by
  constructor
  · intro hid
    cases member with
    | property name type =>
        cases List.mem_singleton.mp hid
        exact .property
    | method name params result =>
        rcases List.mem_append.mp hid with hparams | hresult
        · obtain ⟨place, param, below, rfl, hparam, hbelow⟩ := mem_number_iff.mp hparams
          obtain ⟨rfl, htype⟩ := mem_ofOption_iff.mp hbelow
          exact .param hparam htype
        · cases List.mem_singleton.mp hresult
          exact .result
  · intro huse
    cases huse with
    | property => exact List.mem_singleton_self _
    | param hparam htype =>
        exact List.mem_append_left _ (mem_number hparam (mem_ofOption_iff.mpr ⟨rfl, htype⟩))
    | result => exact List.mem_append_right _ (List.mem_singleton_self _)

end Member

inductive Shape.UsesAt : Shape → List Nat → TypeId → Prop
  | member {members : List (Member TypeId)} {place : Nat} {member : Member TypeId}
      {path : List Nat} {id : TypeId} (hmember : members[place]? = some member)
      (huse : member.UsesAt path id) : UsesAt (.object members) (place :: path) id
  | constituent {kind : CompositeKind} {types : List TypeId} {place : Nat} {id : TypeId}
      (htype : types[place]? = some id) : UsesAt (.composite kind types) [place] id

namespace Shape

def placedTypes : Shape → List (Placed TypeId)
  | .leaf => []
  | .object members => number (fun _ => Member.placedTypes) members
  | .composite _ types => enumerate types

variable {shape : Shape} {path : List Nat} {id : TypeId}

theorem map_snd_placedTypes (shape : Shape) :
    shape.placedTypes.map Prod.snd = shape.types := by
  cases shape with
  | leaf => rfl
  | object members =>
      rw [placedTypes, map_snd_number_const, types]
      simp only [Member.map_snd_placedTypes]
  | composite kind types => exact map_snd_enumerate types

theorem isOrdered_placedTypes (shape : Shape) : IsOrdered shape.placedTypes := by
  cases shape with
  | leaf => exact .nil
  | object members =>
      exact isOrdered_number fun member _ _ => Member.isOrdered_placedTypes member
  | composite kind types => exact isOrdered_enumerate types

theorem mem_placedTypes_iff : (path, id) ∈ shape.placedTypes ↔ shape.UsesAt path id := by
  constructor
  · intro hid
    cases shape with
    | leaf => cases hid
    | object members =>
        rw [placedTypes] at hid
        obtain ⟨place, member, below, rfl, hmember, hbelow⟩ := mem_number_iff.mp hid
        exact .member hmember (Member.mem_placedTypes_iff.mp hbelow)
    | composite kind types =>
        obtain ⟨place, rfl, htype⟩ := mem_enumerate_iff.mp hid
        exact .constituent htype
  · intro huse
    cases huse with
    | member hmember huse =>
        rw [placedTypes]
        exact mem_number hmember (Member.mem_placedTypes_iff.mpr huse)
    | constituent htype => exact mem_enumerate_iff.mpr ⟨_, rfl, htype⟩

end Shape

/-! ## Related types -/

/-- The source stands before the target, and both before the types around them. -/
inductive RelatedTypes.UsesAt (related : RelatedTypes TypeId) : List Nat → TypeId → Prop
  | source : UsesAt related [0] related.source
  | target : UsesAt related [1] related.target
  | aroundSource {place : Nat} {id : TypeId} (htype : related.sourceStack[place]? = some id) :
      UsesAt related [2, place] id
  | aroundTarget {place : Nat} {id : TypeId} (htype : related.targetStack[place]? = some id) :
      UsesAt related [3, place] id

namespace RelatedTypes

def placedTypes (related : RelatedTypes TypeId) : List (Placed TypeId) :=
  number (fun _ types => types)
    [[([], related.source)], [([], related.target)], enumerate related.sourceStack,
      enumerate related.targetStack]

variable {related : RelatedTypes TypeId} {path : List Nat} {id : TypeId}

theorem map_snd_placedTypes (related : RelatedTypes TypeId) :
    related.placedTypes.map Prod.snd = related.types := by
  simp [placedTypes, map_snd_number_const, map_snd_enumerate, types]

theorem isOrdered_placedTypes (related : RelatedTypes TypeId) : IsOrdered related.placedTypes := by
  refine isOrdered_number ?_
  simp only [List.forall_mem_cons]
  exact ⟨fun _ => isOrdered_singleton _, fun _ => isOrdered_singleton _,
    fun _ => isOrdered_enumerate _, fun _ => isOrdered_enumerate _, List.forall_mem_nil _⟩

theorem mem_placedTypes_iff : (path, id) ∈ related.placedTypes ↔ related.UsesAt path id := by
  constructor
  · intro hid
    obtain ⟨place, types, below, rfl, htypes, hbelow⟩ := mem_number_iff.mp hid
    match place, htypes with
    | 0, rfl =>
        cases List.mem_singleton.mp hbelow
        exact .source
    | 1, rfl =>
        cases List.mem_singleton.mp hbelow
        exact .target
    | 2, rfl =>
        obtain ⟨place, rfl, htype⟩ := mem_enumerate_iff.mp hbelow
        exact .aroundSource htype
    | 3, rfl =>
        obtain ⟨place, rfl, htype⟩ := mem_enumerate_iff.mp hbelow
        exact .aroundTarget htype
  · intro huse
    unfold placedTypes
    cases huse with
    | source => exact mem_number rfl (List.mem_singleton_self _)
    | target => exact mem_number rfl (List.mem_singleton_self _)
    | aroundSource htype =>
        exact mem_number rfl (mem_enumerate_iff.mpr ⟨_, rfl, htype⟩)
    | aroundTarget htype =>
        exact mem_number rfl (mem_enumerate_iff.mpr ⟨_, rfl, htype⟩)

end RelatedTypes

end MismatchReport
