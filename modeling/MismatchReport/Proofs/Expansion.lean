import MismatchReport.Expansion

/-!
# Balanced expansion

An action under a guard restores it when it leaves every key that it enters.  Such actions
compose, and what they answer depends only on which keys are under way and how deep.
-/

namespace MismatchReport

/-- The action answers `value` and leaves the state as it was. -/
def Restores {σ α : Type} (state : σ) (action : StateM σ α) (value : α) : Prop :=
  action state = (value, state)

section Restoring

variable {σ α β : Type} {state : σ}

theorem bind_of_eq {action : StateM σ α} {value : α} {next : σ}
    (haction : action state = (value, next)) (rest : α → StateM σ β) :
    (action >>= rest) state = rest value next := by
  change rest (action state).1 (action state).2 = rest value next
  rw [haction]

theorem bind_get (rest : σ → StateM σ β) :
    ((get : StateM σ σ) >>= rest) state = rest state state := rfl

theorem restores_pure (value : α) : Restores state (pure value : StateM σ α) value := rfl

theorem Restores.bind {action : StateM σ α} {value : α} {rest : α → StateM σ β} {result : β}
    (haction : Restores state action value) (hrest : Restores state (rest value) result) :
    Restores state (action >>= rest) result :=
  (bind_of_eq haction rest).trans hrest

theorem restores_mapM {action : α → StateM σ β} {result : α → β} {values : List α}
    (haction : ∀ value ∈ values, Restores state (action value) (result value)) :
    Restores state (values.mapM action) (values.map result) := by
  induction values with
  | nil => exact restores_pure []
  | cons value rest ih =>
      rw [List.mapM_cons]
      refine (haction value (by simp)).bind ?_
      refine (ih fun below hbelow => haction below (by simp [hbelow])).bind ?_
      exact restores_pure _

end Restoring

namespace Guard

variable {κ : Type}

/-- The guard between the keys that were entered, the innermost first, and those that are marked. -/
structure Tracks (guard : Guard κ) (ancestors barred : List κ) : Prop where
  visiting_eq : guard.visiting = ancestors
  mem_marked_iff : ∀ key, key ∈ guard.marked ↔ key ∈ barred
  depth_eq : guard.depth = ancestors.length

def below (guard : Guard κ) (key : κ) : Guard κ :=
  { guard with visiting := key :: guard.visiting, depth := guard.depth + 1 }

variable {guard : Guard κ} {ancestors barred : List κ} {key : κ}

theorem Tracks.below (htracks : guard.Tracks ancestors barred) (key : κ) :
    (guard.below key).Tracks (key :: ancestors) barred where
  visiting_eq := congrArg (key :: ·) htracks.visiting_eq
  mem_marked_iff := htracks.mem_marked_iff
  depth_eq := congrArg (· + 1) htracks.depth_eq

theorem forM_mark (keys : List κ) (guard : Guard κ) :
    keys.forM mark guard = ((), { guard with marked := keys.reverse ++ guard.marked }) := by
  induction keys generalizing guard with
  | nil => rfl
  | cons key rest ih =>
      refine (bind_of_eq (rfl : mark key guard = _) _).trans ?_
      simpa using ih { guard with marked := key :: guard.marked }

variable [DecidableEq κ]

theorem Tracks.isVisiting_iff (htracks : guard.Tracks ancestors barred) (key : κ) :
    guard.isVisiting key ↔ key ∈ ancestors ∨ key ∈ barred := by
  simp [isVisiting, htracks.visiting_eq, htracks.mem_marked_iff]

theorem enter_of_isVisiting (hkey : guard.isVisiting key) : enter key guard = (.cycle, guard) := by
  rw [enter, if_pos hkey]

theorem enter_of_maxDepth_le (hkey : ¬ guard.isVisiting key)
    (hdepth : guard.maxDepth ≤ guard.depth) : enter key guard = (.tooDeep, guard) := by
  rw [enter, if_neg hkey, if_pos hdepth]

theorem enter_of_lt_maxDepth (hkey : ¬ guard.isVisiting key)
    (hdepth : guard.depth < guard.maxDepth) : enter key guard = (.entered, guard.below key) := by
  rw [enter, if_neg hkey, if_neg (Nat.not_le.mpr hdepth)]
  rfl

theorem enter_cases (guard : Guard κ) (key : κ) :
    (guard.isVisiting key ∧ enter key guard = (.cycle, guard)) ∨
      (¬ guard.isVisiting key ∧ guard.maxDepth ≤ guard.depth ∧
        enter key guard = (.tooDeep, guard)) ∨
      (¬ guard.isVisiting key ∧ guard.depth < guard.maxDepth ∧
        enter key guard = (.entered, guard.below key)) := by
  by_cases hkey : guard.isVisiting key
  · exact .inl ⟨hkey, enter_of_isVisiting hkey⟩
  · rcases Nat.lt_or_ge guard.depth guard.maxDepth with hdepth | hdepth
    · exact .inr (.inr ⟨hkey, hdepth, enter_of_lt_maxDepth hkey hdepth⟩)
    · exact .inr (.inl ⟨hkey, hdepth, enter_of_maxDepth_le hkey hdepth⟩)

theorem leave_below (guard : Guard κ) (key : κ) :
    leave key (guard.below key) = ((), guard) := by
  simp [leave, below]

end Guard

end MismatchReport
