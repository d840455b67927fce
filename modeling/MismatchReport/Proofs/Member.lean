import Mathlib.Data.List.Forall2
import MismatchReport.Checker
import MismatchReport.Proofs.Expansion

/-!
# Members under a function

A traversal whose actions restore the state applies a function to every type of the member.  Two
functions whose results are related make related members.
-/

namespace MismatchReport

variable {α β γ : Type}

def Param.map (f : α → β) (param : Param α) : Param β :=
  { name := param.name, type := param.type.map f }

def Member.map (f : α → β) : Member α → Member β
  | .property name type => .property name (f type)
  | .method name params result => .method name (params.map (Param.map f)) (f result)

theorem Param.map_map (g : β → γ) (f : α → β) (param : Param α) :
    (param.map f).map g = param.map (g ∘ f) := by
  simp [Param.map]

theorem Member.map_map (g : β → γ) (f : α → β) (member : Member α) :
    (member.map f).map g = member.map (g ∘ f) := by
  cases member with
  | property name type => rfl
  | method name params result => simp [Member.map, Function.comp_def, Param.map_map]

theorem Param.map_congr {f g : α → β} {param : Param α}
    (h : ∀ type ∈ param.type, f type = g type) : param.map f = param.map g := by
  rw [Param.map, Param.map, Option.map_congr h]

theorem Member.map_congr {f g : α → β} {member : Member α}
    (h : ∀ type ∈ member.types, f type = g type) : member.map f = member.map g := by
  cases member with
  | property name type => simp [Member.map, h type (by simp [types])]
  | method name params result =>
      have hparams : params.map (Param.map f) = params.map (Param.map g) := by
        apply List.map_congr_left
        intro param hparam
        refine Param.map_congr fun type htype => h type ?_
        simp only [types, List.mem_append, List.mem_filterMap]
        exact .inl ⟨param, hparam, htype⟩
      rw [Member.map, Member.map, hparams, h result (by simp [types])]

theorem Member.types_map (f : α → β) (member : Member α) :
    (member.map f).types = member.types.map f := by
  cases member with
  | property name type => rfl
  | method name params result =>
      simp [Member.map, types, List.map_filterMap, List.filterMap_map, Function.comp_def, Param.map]

section Attaching

variable (p : α → Prop)

def Param.attachWith (param : Param α) (h : ∀ type ∈ param.type, p type) : Param {type // p type} :=
  { name := param.name, type := param.type.attachWith p h }

def Member.attachWith : (member : Member α) → (∀ type ∈ member.types, p type) →
    Member {type // p type}
  | .property name type, h => .property name ⟨type, h type (by simp [types])⟩
  | .method name params result, h =>
      .method name
        (params.pmap (Param.attachWith p) fun param hparam type htype => h type <| by
          simp only [types, List.mem_append, List.mem_filterMap]
          exact .inl ⟨param, hparam, htype⟩)
        ⟨result, h result (by simp [types])⟩

theorem Param.map_val_attachWith (param : Param α) (h : ∀ type ∈ param.type, p type) :
    (param.attachWith p h).map Subtype.val = param := by
  rw [attachWith, Param.map, Option.attachWith_map_subtype_val]

theorem Member.map_val_attachWith (member : Member α) (h : ∀ type ∈ member.types, p type) :
    (member.attachWith p h).map Subtype.val = member := by
  cases member with
  | property name type => rfl
  | method name params result =>
      simp [attachWith, Member.map, List.map_pmap, Param.map_val_attachWith]

end Attaching

section Relating

inductive Param.Related (r : β → γ → Prop) : Param β → Param γ → Prop
  | untyped (name : Text) : Related r ⟨name, none⟩ ⟨name, none⟩
  | typed (name : Text) {first : β} {second : γ} (htype : r first second) :
      Related r ⟨name, some first⟩ ⟨name, some second⟩

/-- Members of one kind and name whose types are related one by one. -/
inductive Member.Related (r : β → γ → Prop) : Member β → Member γ → Prop
  | property (name : Text) {first : β} {second : γ} (htype : r first second) :
      Related r (.property name first) (.property name second)
  | method (name : Text) {params : List (Param β)} {others : List (Param γ)} {first : β}
      {second : γ} (hparams : List.Forall₂ (Param.Related r) params others)
      (hresult : r first second) :
      Related r (.method name params first) (.method name others second)

variable {r : β → γ → Prop} {f : α → β} {g : α → γ}

theorem Param.related_map (hrelated : ∀ type, r (f type) (g type)) (param : Param α) :
    Related r (param.map f) (param.map g) := by
  obtain ⟨name, type⟩ := param
  cases type with
  | none => exact .untyped name
  | some type => exact .typed name (hrelated type)

theorem Member.related_map (hrelated : ∀ type, r (f type) (g type)) (member : Member α) :
    Related r (member.map f) (member.map g) := by
  cases member with
  | property name type => exact .property name (hrelated type)
  | method name params result =>
      refine .method name ?_ (hrelated result)
      rw [List.forall₂_map_left_iff, List.forall₂_map_right_iff, List.forall₂_same]
      exact fun param _ => Param.related_map hrelated param

end Relating

section Restoring

variable {σ : Type} {state : σ} {action : α → StateM σ β} {result : α → β}

theorem Param.restores_traverse (haction : ∀ type, Restores state (action type) (result type))
    (param : Param α) : Restores state (param.traverse action) (param.map result) := by
  obtain ⟨name, type⟩ := param
  cases type with
  | none => exact restores_pure _
  | some type => exact (haction type).bind (restores_pure _)

theorem Member.restores_traverse (haction : ∀ type, Restores state (action type) (result type))
    (member : Member α) : Restores state (member.traverse action) (member.map result) := by
  cases member with
  | property name type => exact (haction type).bind (restores_pure _)
  | method name params type =>
      refine (restores_mapM fun param _ => Param.restores_traverse haction param).bind ?_
      exact (haction type).bind (restores_pure _)

end Restoring

end MismatchReport
