import MismatchReport.Proofs.Style.Line
import MismatchReport.Proofs.Text.Joining
import MismatchReport.Proofs.Tree.Layout

/-!
# The row of a method

The cells of a method's row, parameter by parameter, and the step of a route that decides on their
emphasis.
-/

namespace MismatchReport

open StyledLine (Cell)

/-- Whether the first step of a route is a step to a parameter, or names the method and is followed
by one. -/
def Route.NamesParam (route : Route) (method param : Text) : Prop :=
  route[0]? = some (.param param) ∨
    (route[0]? = some (.field method) ∧ route[1]? = some (.param param))

theorem signatureStep?_eq_param_iff {route : Route} {method param : Text} :
    (∃ isLast, signatureStep? method route = some (.param param, isLast)) ↔
      route.NamesParam method param := by
  unfold Route.NamesParam
  cases route with
  | nil => simp [signatureStep?]
  | cons step rest =>
      by_cases hstep : step = .field method
      · subst hstep
        cases rest with
        | nil => simp [signatureStep?, Step.isField]
        | cons next rest => cases next <;> simp [signatureStep?, Step.isField]
      · have hskip : step.isField method = false := by simpa [Step.isField] using hstep
        cases step with
        | field name =>
            have hname : name ≠ method := by simpa using hstep
            simp [signatureStep?, hskip, hname]
        | param name => simp [signatureStep?, hskip]
        | result name => simp [signatureStep?, hskip]

theorem signatureStep?_singleton (name : Text) : signatureStep? name [.field name] = none := by
  simp [signatureStep?, Step.isField]

def paramCells (step : Option (Step × Bool)) (param : Param Tree) : List Cell :=
  (pushParam step .empty param).cells

def namedTypeCells (isLast : Bool) : Option Tree → List Cell
  | none => []
  | some type => (": " : Text).map (·, { bold := true }) ++ type.inline.map (·, faultOrBold isLast)

section

variable {step : Option (Step × Bool)} {param : Param Tree} {other : Text} {isLast : Bool}

theorem paramCells_of_name_eq (hname : param.name = other) :
    paramCells (some (.param other, isLast)) param =
      param.name.map (·, { bold := true }) ++ namedTypeCells isLast param.type := by
  obtain ⟨name, type⟩ := param
  subst hname
  cases type <;> simp [paramCells, pushParam, namedTypeCells]

theorem paramCells_of_name_ne (hname : param.name ≠ other) :
    paramCells (some (.param other, isLast)) param =
      param.inline.map (·, { muted := true }) := by
  simp [paramCells, pushParam, hname]

theorem paramCells_of_ne_param (hstep : ∀ other isLast, step ≠ some (.param other, isLast)) :
    paramCells step param = param.inline.map (·, .plain) := by
  unfold paramCells pushParam
  split
  · exact absurd rfl (hstep _ _)
  · simp

end

theorem map_fst_paramCells (step : Option (Step × Bool)) (param : Param Tree) :
    (paramCells step param).map Prod.fst = param.inline := by
  rw [paramCells, ← StyledLine.plainText_eq_cells, plainText_pushParam]
  simp

theorem length_paramCells (step : Option (Step × Bool)) (param : Param Tree) :
    (paramCells step param).length = param.inline.length := by
  rw [← map_fst_paramCells step param, List.length_map]

def separatorCells : List Cell := (", " : Text).map (·, .plain)

theorem cells_pushParam (step : Option (Step × Bool)) (line : StyledLine) (param : Param Tree) :
    (pushParam step line param).cells = line.cells ++ paramCells step param := by
  obtain ⟨name, type⟩ := param
  unfold paramCells pushParam
  split
  · split
    · cases type <;> simp
    · simp
  · simp

theorem cells_pushParams (step : Option (Step × Bool)) (line : StyledLine)
    (params : List (Param Tree)) :
    (pushParams step line params).cells =
      line.cells ++ separatorCells.intercalate (params.map (paramCells step)) := by
  cases params with
  | nil => simp [pushParams, List.intercalate]
  | cons first rest =>
      rw [List.map_cons, intercalate_cons, ← List.append_assoc, ← cells_pushParam, pushParams]
      generalize pushParam step line first = line
      induction rest generalizing line with
      | nil => simp
      | cons param rest ih =>
          rw [List.foldl_cons, ih, cells_pushParam]
          simp [separatorCells]

def signatureRow (depth : Nat) (route : Route) (name : Text) (params : List (Param Tree))
    (result : Tree) : StyledLine :=
  let step := signatureStep? name route
  let head := ((StyledLine.plain (indentation (depth + 1))).push name
    (nameEmphasis (route.head? == some (.field name)))).pushPlain "("
  ((pushParams step head params).pushPlain "): ").push result.inline (resultEmphasis step)

variable {depth : Nat} {route : Route} {name : Text} {params : List (Param Tree)} {result : Tree}

theorem methodRow_eq :
    methodRow depth route name params result =
      if route = [.field name] then
        (signatureRow depth route name params result).emphasizeContent .fault
      else signatureRow depth route name params result := rfl

def headCells (depth : Nat) (route : Route) (name : Text) : List Cell :=
  (indentation (depth + 1)).map (·, .plain) ++
    name.map (·, nameEmphasis (route.head? == some (.field name))) ++ ("(" : Text).map (·, .plain)

theorem cells_signatureRow :
    (signatureRow depth route name params result).cells =
      headCells depth route name ++
        (separatorCells.intercalate (params.map (paramCells (signatureStep? name route))) ++
          (("): " : Text).map (·, .plain) ++
            result.inline.map (·, resultEmphasis (signatureStep? name route)))) := by
  simp [signatureRow, headCells, cells_pushParams]

def paramColumn (depth : Nat) (name : Text) (params : List (Param Tree)) (index : Nat) : Nat :=
  (indentation (depth + 1) ++ name ++ "(" ++
    (params.take index).flatMap fun param => param.inline ++ (", " : Text)).length

theorem paramColumn_eq (route : Route) (index : Nat) :
    paramColumn depth name params index =
      (headCells depth route name).length +
        (((params.map (paramCells (signatureStep? name route))).take index).flatMap
          (· ++ separatorCells)).length := by
  have hhead : (headCells depth route name).map Prod.fst =
      indentation (depth + 1) ++ name ++ "(" := by
    simp [headCells, Function.comp_def]
  have hfront : (((params.map (paramCells (signatureStep? name route))).take index).flatMap
      (· ++ separatorCells)).map Prod.fst =
        (params.take index).flatMap fun param => param.inline ++ (", " : Text) := by
    rw [← List.map_take, List.map_flatMap, List.flatMap_map]
    simp only [List.map_append, map_fst_paramCells]
    rfl
  rw [paramColumn, ← hhead, ← hfront, ← List.map_append, List.length_map, List.length_append]

theorem paramCells_of_column {index : Nat} {param : Param Tree}
    (hparam : params[index]? = some param) :
    ((signatureRow depth route name params result).cells.drop
        (paramColumn depth name params index)).take param.inline.length =
      paramCells (signatureStep? name route) param := by
  have hcells : (params.map (paramCells (signatureStep? name route)))[index]? =
      some (paramCells (signatureStep? name route) param) := by
    rw [List.getElem?_map, hparam, Option.map_some]
  rw [paramColumn_eq route, cells_signatureRow, ← List.drop_drop, List.drop_left,
    ← length_paramCells (signatureStep? name route) param]
  exact take_drop_intercalate hcells separatorCells _

theorem getElem?_cells_signatureRow {column : Nat} {cell : Cell}
    (hcell : (signatureRow depth route name params result).cells[column]? = some cell) :
    (∃ index param, params[index]? = some param ∧
      paramColumn depth name params index ≤ column ∧
      column < paramColumn depth name params index + param.inline.length ∧
      cell ∈ paramCells (signatureStep? name route) param) ∨
      cell.2 = .plain ∨ cell.2 = nameEmphasis (route.head? == some (.field name)) ∨
        cell.2 = resultEmphasis (signatureStep? name route) := by
  rw [cells_signatureRow] at hcell
  by_cases hhead : column < (headCells depth route name).length
  · rw [List.getElem?_append_left hhead] at hcell
    have hmem := List.mem_of_getElem? hcell
    simp only [headCells, List.mem_append, List.mem_map] at hmem
    rcases hmem with (⟨char, -, rfl⟩ | ⟨char, -, rfl⟩) | ⟨char, -, rfl⟩
    · exact .inr (.inl rfl)
    · exact .inr (.inr (.inl rfl))
    · exact .inr (.inl rfl)
  · rw [List.getElem?_append_right (by omega), List.getElem?_append] at hcell
    split at hcell
    · rcases exists_getElem?_of_intercalate hcell with
        hseparator | ⟨index, cells, offset, hcells, hoffset, hcolumn⟩
      · obtain ⟨char, -, rfl⟩ := List.mem_map.mp hseparator
        exact .inr (.inl rfl)
      · rw [List.getElem?_map] at hcells
        obtain ⟨param, hparam, rfl⟩ := Option.map_eq_some_iff.mp hcells
        obtain ⟨hlt, -⟩ := List.getElem?_eq_some_iff.mp hoffset
        rw [length_paramCells] at hlt
        refine .inl ⟨index, param, hparam, ?_, ?_, List.mem_of_getElem? hoffset⟩
        · rw [paramColumn_eq route]
          omega
        · rw [paramColumn_eq route]
          omega
    · have hmem := List.mem_of_getElem? hcell
      simp only [List.mem_append, List.mem_map] at hmem
      rcases hmem with ⟨char, -, rfl⟩ | ⟨char, -, rfl⟩
      · exact .inr (.inl rfl)
      · exact .inr (.inr (.inr rfl))

theorem emphasis_signatureRow (hstep : signatureStep? name route = none) :
    ∀ cell ∈ (signatureRow depth route name params result).cells,
      cell.2 = .plain ∨ cell.2 = nameEmphasis (route.head? == some (.field name)) := by
  intro cell hcell
  obtain ⟨column, hcolumn⟩ := List.mem_iff_getElem?.mp hcell
  rcases getElem?_cells_signatureRow hcolumn with
    ⟨-, param, -, -, -, hparam⟩ | hplain | hname | hresult
  · rw [hstep, paramCells_of_ne_param (by simp)] at hparam
    obtain ⟨char, -, rfl⟩ := List.mem_map.mp hparam
    exact .inl rfl
  · exact .inl hplain
  · exact .inr hname
  · rw [hstep] at hresult
    exact .inl hresult

end MismatchReport
