import MismatchReport.Proofs.Tree.Route

/-!
# Muted parameters

A step to a parameter highlights the parameters of its name and mutes the others of the method.  It
mutes them all when the method has no parameter of that name.
-/

namespace MismatchReport

open StyledLine (Cell)

namespace StyledLine

def paramSlice (row : StyledLine) (depth : Nat) (name : Text) (params : List (Param Tree))
    (entry : Param Tree × Nat) : List Cell :=
  (row.cells.drop (paramColumn depth name params entry.2)).take entry.1.inline.length

def MutesParam (row : StyledLine) (depth : Nat) (name : Text) (params : List (Param Tree)) : Prop :=
  ∃ entry ∈ params.zipIdx, ∃ cell ∈ row.paramSlice depth name params entry, cell.2.has .muted

def HighlightsParam (row : StyledLine) (depth : Nat) (name : Text) (params : List (Param Tree)) :
    Prop :=
  ∃ entry ∈ params.zipIdx,
    ∃ cell ∈ (row.paramSlice depth name params entry).take entry.1.name.length, cell.2.has .bold

def OnlyMutesParams (row : StyledLine) (depth : Nat) (name : Text) (params : List (Param Tree)) :
    Prop :=
  ∀ column, ∀ cell ∈ row.cells[column]?, cell.2.has .muted →
    ∃ entry ∈ params.zipIdx, paramColumn depth name params entry.2 ≤ column ∧
      column < paramColumn depth name params entry.2 + entry.1.inline.length

instance (row : StyledLine) (depth : Nat) (name : Text) (params : List (Param Tree)) :
    Decidable (row.MutesParam depth name params) :=
  inferInstanceAs (Decidable (∃ entry ∈ params.zipIdx, _))

instance (row : StyledLine) (depth : Nat) (name : Text) (params : List (Param Tree)) :
    Decidable (row.HighlightsParam depth name params) :=
  inferInstanceAs (Decidable (∃ entry ∈ params.zipIdx, _))

theorem MutesParam.isMuted {row : StyledLine} {depth : Nat} {name : Text}
    {params : List (Param Tree)} (hrow : row.MutesParam depth name params) : row.IsMuted := by
  obtain ⟨entry, -, cell, hcell, hmuted⟩ := hrow
  exact ⟨cell, List.mem_of_mem_drop (List.mem_of_mem_take hcell), hmuted⟩

theorem onlyMutesParams_of_not_isMuted {row : StyledLine} {depth : Nat} {name : Text}
    {params : List (Param Tree)} (hrow : ¬ row.IsMuted) :
    row.OnlyMutesParams depth name params := by
  intro column cell hcell hmuted
  exact absurd ⟨cell, List.mem_of_getElem? hcell, hmuted⟩ hrow

end StyledLine

section

variable {step : Option (Step × Bool)} {param : Param Tree} {other : Text} {isLast : Bool}

theorem not_muted_namedTypeCells {type : Option Tree} :
    ∀ cell ∈ namedTypeCells isLast type, ¬ cell.2.has .muted := by
  cases type with
  | none => exact List.forall_mem_nil _
  | some type =>
      rw [namedTypeCells, List.forall_mem_append, List.forall_mem_map, List.forall_mem_map]
      cases isLast <;> simp [Emphasis.has, faultOrBold, Emphasis.fault]

theorem has_muted_nameEmphasis (named : Bool) : (nameEmphasis named).has .muted = false := by
  cases named <;> rfl

theorem has_muted_resultEmphasis (step : Option (Step × Bool)) :
    (resultEmphasis step).has .muted = false := by
  unfold resultEmphasis
  split
  · rename_i name isLast
    cases isLast <;> rfl
  · rfl

theorem exists_cell_map_iff {text : Text} {emphasis : Emphasis} {style : Style} :
    (∃ cell ∈ text.map (·, emphasis), cell.2.has style) ↔ emphasis.has style ∧ text ≠ [] := by
  cases text with
  | nil => simp
  | cons char text => simp

theorem exists_muted_paramCells_iff :
    (∃ cell ∈ paramCells step param, cell.2.has .muted) ↔
      ∃ other, (∃ isLast, step = some (.param other, isLast)) ∧ param.name ≠ other ∧
        param.inline ≠ [] := by
  by_cases hstep : ∃ other isLast, step = some (.param other, isLast)
  · obtain ⟨other, isLast, rfl⟩ := hstep
    by_cases hname : param.name = other
    · have hcells : ∀ cell ∈ paramCells (some (.param other, isLast)) param,
          ¬ cell.2.has .muted := by
        rw [paramCells_of_name_eq hname, List.forall_mem_append, List.forall_mem_map]
        exact ⟨fun char hchar => Bool.false_ne_true, not_muted_namedTypeCells⟩
      constructor
      · rintro ⟨cell, hcell, hmuted⟩
        exact absurd hmuted (hcells cell hcell)
      · rintro ⟨_, ⟨_, ⟨⟩⟩, hne, -⟩
        exact absurd hname hne
    · rw [paramCells_of_name_ne hname, exists_cell_map_iff]
      simp [hname, Emphasis.has]
  · rw [paramCells_of_ne_param fun other isLast heq => hstep ⟨other, isLast, heq⟩,
      exists_cell_map_iff]
    constructor
    · rintro ⟨⟨⟩, -⟩
    · rintro ⟨other, ⟨isLast, heq⟩, -, -⟩
      exact absurd ⟨other, isLast, heq⟩ hstep

theorem exists_bold_paramCells_iff :
    (∃ cell ∈ (paramCells step param).take param.name.length, cell.2.has .bold) ↔
      (∃ isLast, step = some (.param param.name, isLast)) ∧ param.name ≠ [] := by
  by_cases hstep : ∃ other isLast, step = some (.param other, isLast)
  · obtain ⟨other, isLast, rfl⟩ := hstep
    by_cases hname : param.name = other
    · rw [paramCells_of_name_eq hname, List.take_left' (List.length_map _), exists_cell_map_iff]
      simp [hname, Emphasis.has]
    · rw [paramCells_of_name_ne hname, ← List.map_take, exists_cell_map_iff]
      simp [Ne.symm hname, Emphasis.has]
  · rw [paramCells_of_ne_param fun other isLast heq => hstep ⟨other, isLast, heq⟩,
      ← List.map_take, exists_cell_map_iff]
    constructor
    · rintro ⟨⟨⟩, -⟩
    · rintro ⟨⟨isLast, heq⟩, -⟩
      exact absurd ⟨_, isLast, heq⟩ hstep

end

/-! ## Muted rows -/

section

variable {depth : Nat} {route : Route} {name : Text} {params : List (Param Tree)} {result : Tree}

theorem exists_paramSlice_signatureRow_iff (holds : List Cell → Param Tree → Prop) :
    (∃ entry ∈ params.zipIdx,
      holds ((signatureRow depth route name params result).paramSlice depth name params entry)
        entry.1) ↔
      ∃ param ∈ params, holds (paramCells (signatureStep? name route) param) param := by
  have hslice {entry : Param Tree × Nat} (hentry : entry ∈ params.zipIdx) :
      (signatureRow depth route name params result).paramSlice depth name params entry =
        paramCells (signatureStep? name route) entry.1 :=
    paramCells_of_column (List.mem_zipIdx_iff_getElem?.mp hentry)
  constructor
  · rintro ⟨entry, hentry, hholds⟩
    rw [hslice hentry] at hholds
    exact ⟨entry.1, List.fst_mem_of_mem_zipIdx hentry, hholds⟩
  · rintro ⟨param, hparam, hholds⟩
    obtain ⟨index, hindex⟩ := List.mem_iff_getElem?.mp hparam
    have hentry : (param, index) ∈ params.zipIdx := List.mem_zipIdx_iff_getElem?.mpr hindex
    rw [← hslice hentry] at hholds
    exact ⟨_, hentry, hholds⟩

theorem mutesParam_signatureRow_iff :
    (signatureRow depth route name params result).MutesParam depth name params ↔
      ∃ other, route.NamesParam name other ∧ ∃ param ∈ params, param.name ≠ other ∧
        param.inline ≠ [] := by
  rw [StyledLine.MutesParam,
    exists_paramSlice_signatureRow_iff fun cells _ => ∃ cell ∈ cells, cell.2.has .muted]
  simp only [exists_muted_paramCells_iff, signatureStep?_eq_param_iff]
  constructor
  · rintro ⟨param, hparam, other, hother, hmuted⟩
    exact ⟨other, hother, param, hparam, hmuted⟩
  · rintro ⟨other, hother, param, hparam, hmuted⟩
    exact ⟨param, hparam, other, hother, hmuted⟩

theorem highlightsParam_signatureRow_iff :
    (signatureRow depth route name params result).HighlightsParam depth name params ↔
      ∃ param ∈ params, route.NamesParam name param.name ∧ param.name ≠ [] := by
  rw [StyledLine.HighlightsParam, exists_paramSlice_signatureRow_iff fun cells param =>
    ∃ cell ∈ cells.take param.name.length, cell.2.has .bold]
  simp only [exists_bold_paramCells_iff, signatureStep?_eq_param_iff]

theorem onlyMutesParams_signatureRow :
    (signatureRow depth route name params result).OnlyMutesParams depth name params := by
  intro column cell hcell hmuted
  rcases getElem?_cells_signatureRow hcell with
    ⟨index, param, hparam, hstart, hstop, -⟩ | hplain | hname | hresult
  · exact ⟨(param, index), List.mem_zipIdx_iff_getElem?.mpr hparam, hstart, hstop⟩
  · rw [hplain] at hmuted
    cases hmuted
  · rw [hname, has_muted_nameEmphasis] at hmuted
    cases hmuted
  · rw [hresult, has_muted_resultEmphasis] at hmuted
    cases hmuted

end

/-! ## Rows of a tree -/

/-- The steps of a route name the properties that lead to a method, and then one of its
parameters. -/
def Route.StepsToParam (route : Route) (names : List Text) (method param : Text) : Prop :=
  route.Follows names ∧ Route.NamesParam (route.drop names.length) method param

theorem Route.NamesParam.unique {route : Route} {method param other : Text}
    (hparam : route.NamesParam method param) (hother : route.NamesParam method other) :
    param = other := by
  unfold Route.NamesParam at hparam hother
  grind

theorem Route.StepsToParam.length_lt {route : Route} {names : List Text} {method param : Text}
    (hsteps : route.StepsToParam names method param) : names.length < route.length := by
  have hdrop : route.drop names.length ≠ [] := by
    intro hnil
    have hnames := hsteps.2
    rw [hnil] at hnames
    simp [Route.NamesParam] at hnames
  rw [Ne, List.drop_eq_nil_iff] at hdrop
  omega

section

variable {depth : Nat} {route : Route} {names : List Text} {name : Text}
  {params : List (Param Tree)} {result : Tree}

theorem Member.not_isMuted_rowsBelow {member : Member Tree}
    (hroute : ¬ (route.Follows names ∧ names.length < route.length)) :
    ∀ row ∈ member.rowsBelow depth route names, ¬ row.IsMuted := by
  by_cases hfollows : route.Follows names
  · have hlength : route.length ≤ names.length := not_lt.mp fun hlt => hroute ⟨hfollows, hlt⟩
    by_cases hnil : route = []
    · subst hnil
      exact fun row hrow => (Member.isPlain_rowsBelow_nil row hrow).not_isMuted
    · rw [Member.rowsBelow_of_le hfollows hnil hlength, List.forall_mem_map]
      intro row hrow
      have hplain := Member.isPlain_rowsBelow_nil row hrow
      exact StyledLine.not_isMuted_emphasizeContent hplain.not_isMuted rfl
  · exact fun row hrow => (Member.isPlain_rowsBelow hfollows row hrow).not_isMuted

theorem not_isMuted_methodRow_singleton :
    ¬ (methodRow depth [.field name] name params result).IsMuted := by
  rw [methodRow_eq, if_pos rfl]
  apply StyledLine.not_isMuted_emphasizeContent _ rfl
  rintro ⟨cell, hcell, hmuted⟩
  rcases emphasis_signatureRow (signatureStep?_singleton name) cell hcell with hplain | hname
  · rw [hplain] at hmuted
    cases hmuted
  · rw [hname, has_muted_nameEmphasis] at hmuted
    cases hmuted

structure StyledLine.ShowsParams (row : StyledLine) (route : Route) (names : List Text)
    (name : Text) (params : List (Param Tree)) : Prop where
  only_mutes : row.OnlyMutesParams names.length name params
  mutes_iff : row.MutesParam names.length name params ↔
    ∃ other, route.StepsToParam names name other ∧
      ∃ param ∈ params, param.name ≠ other ∧ param.inline ≠ []
  highlights_iff : ∀ other, route.StepsToParam names name other →
    (row.HighlightsParam names.length name params ↔
      ∃ param ∈ params, param.name = other ∧ param.name ≠ [])

theorem StyledLine.showsParams_of_not_isMuted {row : StyledLine} (hrow : ¬ row.IsMuted)
    (hroute : ∀ other, ¬ route.StepsToParam names name other) :
    row.ShowsParams route names name params where
  only_mutes := StyledLine.onlyMutesParams_of_not_isMuted hrow
  mutes_iff := by
    constructor
    · intro hmutes
      exact absurd hmutes.isMuted hrow
    · rintro ⟨other, hother, -⟩
      exact absurd hother (hroute other)
  highlights_iff other hother := absurd hother (hroute other)

theorem showsParams_signatureRow (hfollows : route.Follows names) :
    (signatureRow names.length (route.drop names.length) name params result).ShowsParams
      route names name params where
  only_mutes := onlyMutesParams_signatureRow
  mutes_iff := by
    rw [mutesParam_signatureRow_iff]
    simp only [Route.StepsToParam, hfollows, true_and]
  highlights_iff other hother := by
    rw [highlightsParam_signatureRow_iff]
    have hname (param : Param Tree) :
        Route.NamesParam (route.drop names.length) name param.name ↔ param.name = other := by
      constructor
      · exact fun hparam => hparam.unique hother.2
      · rintro rfl
        exact hother.2
    simp only [hname]

theorem Member.exists_showsParams_rowsBelow (route : Route) (names : List Text) (name : Text)
    (params : List (Param Tree)) (result : Tree) :
    ∃ row, (Member.method name params result).rowsBelow names.length route names = [row] ∧
      row.ShowsParams route names name params := by
  obtain ⟨row, hrow, -⟩ := List.map_eq_singleton_iff.mp
    (Member.map_plainText_rowsBelow names.length (.method name params result) route names)
  refine ⟨row, hrow, ?_⟩
  by_cases hroute : route.Follows names ∧ names.length < route.length
  · rw [Member.rowsBelow_of_lt hroute.1 hroute.2, Member.rowsAt, Member.rowsAt,
      List.singleton_inj] at hrow
    by_cases hfault : route.drop names.length = [.field name]
    · apply StyledLine.showsParams_of_not_isMuted
      · rw [← hrow, hfault]
        exact not_isMuted_methodRow_singleton
      · rintro other ⟨-, hnames⟩
        rw [hfault] at hnames
        simp [Route.NamesParam] at hnames
    · rw [← hrow, methodRow_eq, if_neg hfault]
      exact showsParams_signatureRow hroute.1
  · apply StyledLine.showsParams_of_not_isMuted
    · exact Member.not_isMuted_rowsBelow hroute row (hrow ▸ List.mem_singleton_self row)
    · intro other hother
      exact hroute ⟨hother.1, hother.length_lt⟩

end

/-- Only parameters are muted in the row of a method, and some is when the route steps to a
parameter and the method has one of another name.  None is highlighted beside it when the method
has none of the name, an empty name aside. -/
theorem Tree.mutesParam_iff (tree : Tree) (route : Route) {names : List Text} {above : Nat}
    {name : Text} {params : List (Param Tree)} {result : Tree}
    (hreach : tree.Reaches 0 names above (.method name params result)) :
    ∃ row, (tree.rows route)[above]? = some row ∧
      row.plainText =
        indentation (names.length + 1) ++ (Member.method name params result).inline ∧
      row.OnlyMutesParams names.length name params ∧
      (row.MutesParam names.length name params ↔
        ∃ other, route.StepsToParam names name other ∧
          ∃ param ∈ params, param.name ≠ other ∧ param.inline ≠ []) ∧
      (row.MutesParam names.length name params ∧
          ¬ row.HighlightsParam names.length name params ↔
        ∃ other, route.StepsToParam names name other ∧
          (∃ param ∈ params, param.name ≠ other ∧ param.inline ≠ []) ∧
            ∀ param ∈ params, param.name = other → param.name = []) := by
  obtain ⟨front, back, hfront, hrows⟩ := hreach.exists_rowsAt route
  obtain ⟨row, hbelow, hrow⟩ := Member.exists_showsParams_rowsBelow route names name params result
  rw [Nat.zero_add, hbelow] at hrows
  refine ⟨row, ?_, ?_, hrow.only_mutes, hrow.mutes_iff, ?_⟩
  · rw [Tree.rows, hrows, ← hfront]
    simp
  · have htext := Member.map_plainText_rowsBelow names.length (.method name params result) route
      names
    rw [hbelow, List.map_singleton, Member.layoutAt, Member.layoutAt] at htext
    exact List.singleton_inj.mp htext
  · rw [hrow.mutes_iff]
    constructor
    · rintro ⟨⟨other, hother, hmuted⟩, hhighlights⟩
      refine ⟨other, hother, hmuted, ?_⟩
      rw [hrow.highlights_iff other hother] at hhighlights
      intro param hparam hname
      by_contra hne
      exact hhighlights ⟨param, hparam, hname, hne⟩
    · rintro ⟨other, hother, hmuted, hunnamed⟩
      refine ⟨⟨other, hother, hmuted⟩, ?_⟩
      rw [hrow.highlights_iff other hother]
      rintro ⟨param, hparam, hname, hne⟩
      exact hne (hunnamed param hparam hname)

theorem Tree.mutesParam_highlighted :
    let params : List (Param Tree) := [⟨"x", some (.leaf "string")⟩, ⟨"y", none⟩]
    let method := Member.method "f" params (.leaf "void")
    let tree := Tree.object [.property "a" (.object [method])]
    let route : Route := [.field "a", .field "f", .param "y"]
    tree.Reaches 0 ["a"] 2 method ∧ ∃ row, (tree.rows route)[2]? = some row ∧
      row.MutesParam 1 "f" params ∧ row.HighlightsParam 1 "f" params := by
  intro params method tree route
  have hreach : tree.Reaches 0 ["a"] 2 method := .through [] "a" [] (.own [] method [])
  have hsteps : route.StepsToParam ["a"] "f" "y" := by
    simp [Route.StepsToParam, Route.Follows, Route.NamesParam, route]
  obtain ⟨row, hrow, -, -, hmutes, hunnamed⟩ := tree.mutesParam_iff route hreach
  have hmuted : row.MutesParam 1 "f" params :=
    hmutes.mpr ⟨"y", hsteps, ⟨"x", some (.leaf "string")⟩, .head _, by decide, by decide⟩
  refine ⟨hreach, row, hrow, hmuted, ?_⟩
  by_contra hnone
  obtain ⟨other, hother, -, hempty⟩ := hunnamed.mp ⟨hmuted, hnone⟩
  have hname : "y" = other := hsteps.2.unique hother.2
  exact absurd (hempty ⟨"y", none⟩ (.tail _ (.head _)) hname) (by decide)

/-- The route steps to a parameter that the method does not have: its only one is muted, and none is
highlighted. -/
theorem Tree.mutesParam_unnamed :
    let params : List (Param Tree) := [⟨"y", some (.leaf "string")⟩]
    let method := Member.method "f" params (.leaf "void")
    let tree := Tree.object [method]
    tree.Reaches 0 [] 1 method ∧ ∃ row, (tree.rows [.field "f", .param "x"])[1]? = some row ∧
      row.MutesParam 0 "f" params ∧ ¬ row.HighlightsParam 0 "f" params :=
  ⟨.own [] _ [], _, rfl, by decide, by decide⟩

end MismatchReport
