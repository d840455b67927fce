import MismatchReport.Proofs.Style.Content
import MismatchReport.Proofs.Tree.Signature

/-!
# Emphasis along a route

Which rows of a tree a route emphasises, and how.  A member is told by the properties that lead to
it: it is on the route as far as the steps of the route name these properties.
-/

namespace MismatchReport

/-- A member of an object with its braces at `depth`, or a member below one of its properties: the
names of the properties that lead to it, and the number of rows above its own. -/
inductive Tree.Reaches : Nat → Tree → List Text → Nat → Member Tree → Prop
  | own {depth : Nat} (before : List (Member Tree)) (member : Member Tree)
      (after : List (Member Tree)) :
      Reaches depth (.object (before ++ member :: after)) []
        ((Member.layoutAt depth before).length + 1) member
  | through {depth above : Nat} {type : Tree} {names : List Text} {member : Member Tree}
      (before : List (Member Tree)) (name : Text) (after : List (Member Tree))
      (htype : Reaches (depth + 1) type names above member) :
      Reaches depth (.object (before ++ .property name type :: after)) (name :: names)
        ((Member.layoutAt depth before).length + 1 + above) member

/-- The rows of a member that properties lead to, with what the route leaves for it.  A fault that
ends at one of the properties marks them. -/
def Member.rowsBelow (depth : Nat) (member : Member Tree) : Route → List Text → List StyledLine
  | route, [] => Member.rowsAt depth route [member]
  | route, name :: names =>
      let rest := if route.head? == some (.field name) then route.tail else []
      let rows := member.rowsBelow depth rest names
      if route = [.field name] then rows.map (·.emphasizeContent .fault) else rows

theorem Member.rowsAt_append (depth : Nat) (route : Route) (front back : List (Member Tree)) :
    Member.rowsAt depth route (front ++ back) =
      Member.rowsAt depth route front ++ Member.rowsAt depth route back := by
  induction front with
  | nil => rfl
  | cons member front ih =>
      cases member with
      | property name type => simp [Member.rowsAt, ih]
      | method name params result => simp [Member.rowsAt, ih]

theorem Member.length_rowsAt (depth : Nat) (route : Route) (members : List (Member Tree)) :
    (Member.rowsAt depth route members).length = (Member.layoutAt depth members).length := by
  rw [← Member.map_plainText_rowsAt depth route members, List.length_map]

theorem Tree.rowsAt_object (depth : Nat) (route : Route) (before : List (Member Tree))
    (member : Member Tree) (after : List (Member Tree)) :
    (Tree.object (before ++ member :: after)).rowsAt depth route =
      (.plain "\x7b" :: Member.rowsAt depth route before) ++
        Member.rowsAt depth route [member] ++
        (Member.rowsAt depth route after ++ [.plain (indentation depth ++ "\x7d")]) := by
  have hmembers : Member.rowsAt depth route (before ++ member :: after) =
      Member.rowsAt depth route before ++ Member.rowsAt depth route [member] ++
        Member.rowsAt depth route after := by
    rw [← Member.rowsAt_append, ← Member.rowsAt_append, List.append_assoc, List.singleton_append]
  rw [Tree.rowsAt, hmembers]
  simp

theorem Member.exists_rowsAt_property {depth : Nat} {route : Route} {name : Text} {type : Tree}
    {first : StyledLine} {above rows below : List StyledLine}
    (htype : type.rowsAt (depth + 1)
      (if route.head? == some (.field name) then route.tail else []) =
        first :: above ++ rows ++ below) :
    ∃ head front back, front.length = above.length ∧
      Member.rowsAt depth route [.property name type] = head :: front ++
        (if route = [.field name] then rows.map (·.emphasizeContent .fault) else rows) ++ back := by
  let named := route.head? == some (.field name)
  let head := ((StyledLine.plain (indentation (depth + 1))).push name
    (nameEmphasis named)).pushPlain ": "
  rw [Member.rowsAt, Member.rowsAt, List.append_nil]
  simp only [htype]
  by_cases hfault : route = [.field name]
  · refine ⟨head ++ first.emphasize .fault, above.map (·.emphasizeContent .fault),
      below.map (·.emphasizeContent .fault), List.length_map .., ?_⟩
    rw [if_pos hfault, if_pos hfault]
    simp [markFault, propertyRows, head, named]
  · refine ⟨head ++ first, above, below, rfl, ?_⟩
    rw [if_neg hfault, if_neg hfault]
    simp [propertyRows, head, named]

theorem Tree.Reaches.pos {depth above : Nat} {tree : Tree} {names : List Text}
    {member : Member Tree} (hreach : tree.Reaches depth names above member) : 0 < above := by
  cases hreach <;> omega

theorem Tree.Reaches.exists_rowsAt {depth above : Nat} {tree : Tree} {names : List Text}
    {member : Member Tree} (hreach : tree.Reaches depth names above member) (route : Route) :
    ∃ front back, front.length = above ∧ tree.rowsAt depth route =
      front ++ member.rowsBelow (depth + names.length) route names ++ back := by
  induction hreach generalizing route with
  | own before member after =>
      refine ⟨_, _, ?_, Tree.rowsAt_object _ route before member after⟩
      rw [List.length_cons, Member.length_rowsAt]
  | @through depth above type names member before name after htype ih =>
      obtain ⟨front, back, hlength, hrows⟩ :=
        ih (if route.head? == some (.field name) then route.tail else [])
      -- The first row of the type is on the row of its property.
      obtain ⟨first, front, rfl⟩ : ∃ first rest, front = first :: rest := by
        apply List.exists_cons_of_length_pos
        rw [hlength]
        exact htype.pos
      obtain ⟨head, upper, lower, hupper, hproperty⟩ := Member.exists_rowsAt_property hrows
      refine ⟨(.plain "\x7b" :: Member.rowsAt depth route before) ++ head :: upper,
        lower ++ (Member.rowsAt depth route after ++ [.plain (indentation depth ++ "\x7d")]),
        ?_, ?_⟩
      · rw [List.length_cons] at hlength
        simp only [List.length_append, List.length_cons, Member.length_rowsAt]
        omega
      · have hdepth : depth + (name :: names).length = depth + 1 + names.length := by
          rw [List.length_cons]
          omega
        rw [Tree.rowsAt_object, hproperty, hdepth, Member.rowsBelow]
        simp only [List.append_assoc]

theorem Member.map_plainText_rowsBelow (depth : Nat) (member : Member Tree) (route : Route)
    (names : List Text) :
    (member.rowsBelow depth route names).map StyledLine.plainText =
      Member.layoutAt depth [member] := by
  induction names generalizing route with
  | nil => exact Member.map_plainText_rowsAt depth route [member]
  | cons name names ih =>
      rw [rowsBelow]
      split
      · rw [List.map_map, ← ih]
        apply List.map_congr_left
        intro row hrow
        exact row.plainText_emphasizeContent .fault
      · exact ih _

/-! ## Rows without a route -/

theorem isPlain_methodRow_nil (depth : Nat) (name : Text) (params : List (Param Tree))
    (result : Tree) : (methodRow depth [] name params result).IsPlain := by
  intro cell hcell
  rw [methodRow_eq, if_neg (List.cons_ne_nil _ _).symm] at hcell
  exact (emphasis_signatureRow rfl cell hcell).elim id id

theorem isPlain_propertyRows (depth : Nat) (name : Text) {typeRows : List StyledLine}
    (htype : ∀ row ∈ typeRows, row.IsPlain) :
    ∀ row ∈ propertyRows depth false name typeRows, row.IsPlain := by
  have hhead := ((StyledLine.isPlain_plain (indentation (depth + 1))).push name).push ": "
  cases typeRows with
  | nil => exact List.forall_mem_singleton.mpr hhead
  | cons first rest =>
      rw [List.forall_mem_cons] at htype
      exact List.forall_mem_cons.mpr ⟨hhead.append htype.1, htype.2⟩

mutual

theorem Tree.isPlain_rowsAt_nil (depth : Nat) :
    ∀ tree : Tree, ∀ row ∈ tree.rowsAt depth [], row.IsPlain
  | .leaf text => by
      rw [Tree.rowsAt, List.forall_mem_singleton]
      exact StyledLine.isPlain_plain text
  | .object members => by
      have hmembers := Member.isPlain_rowsAt_nil depth members
      rw [Tree.rowsAt, List.forall_mem_cons, List.forall_mem_append, List.forall_mem_singleton]
      exact ⟨StyledLine.isPlain_plain _, hmembers, StyledLine.isPlain_plain _⟩

theorem Member.isPlain_rowsAt_nil (depth : Nat) :
    ∀ members : List (Member Tree), ∀ row ∈ Member.rowsAt depth [] members, row.IsPlain
  | [] => List.forall_mem_nil _
  | .property name type :: rest => by
      have htype := Tree.isPlain_rowsAt_nil (depth + 1) type
      have hrest := Member.isPlain_rowsAt_nil depth rest
      rw [Member.rowsAt, List.forall_mem_append]
      exact ⟨isPlain_propertyRows depth name htype, hrest⟩
  | .method name params result :: rest => by
      have hrest := Member.isPlain_rowsAt_nil depth rest
      rw [Member.rowsAt, List.forall_mem_cons]
      exact ⟨isPlain_methodRow_nil depth name params result, hrest⟩

end

def Route.Follows (route : Route) (names : List Text) : Prop :=
  ∀ pair ∈ route.zip names, pair.1 = .field pair.2

theorem Route.follows_nil_left (names : List Text) : Route.Follows [] names :=
  List.forall_mem_nil _

theorem Route.follows_nil_right (route : Route) : route.Follows [] := by
  simp [Follows]

theorem Route.follows_cons_iff {step : Step} {route : Route} {name : Text} {names : List Text} :
    Route.Follows (step :: route) (name :: names) ↔ step = .field name ∧ route.Follows names := by
  simp [Follows]

section

variable {depth : Nat} {member : Member Tree} {route : Route} {names : List Text}

theorem Member.rowsBelow_cons_of_ne {step : Step} {name : Text} (hstep : step ≠ .field name) :
    member.rowsBelow depth (step :: route) (name :: names) = member.rowsBelow depth [] names := by
  simp [rowsBelow, hstep]

theorem Member.rowsBelow_cons (hroute : route ≠ []) (name : Text) :
    member.rowsBelow depth (.field name :: route) (name :: names) =
      member.rowsBelow depth route names := by
  simp [rowsBelow, hroute]

theorem Member.rowsBelow_singleton (name : Text) :
    member.rowsBelow depth [.field name] (name :: names) =
      (member.rowsBelow depth [] names).map (·.emphasizeContent .fault) := by
  simp [rowsBelow]

theorem Member.isPlain_rowsBelow_nil :
    ∀ row ∈ member.rowsBelow depth [] names, row.IsPlain := by
  induction names with
  | nil => exact Member.isPlain_rowsAt_nil depth [member]
  | cons name names ih => exact ih

theorem Member.isPlain_rowsBelow (hfollows : ¬ route.Follows names) :
    ∀ row ∈ member.rowsBelow depth route names, row.IsPlain := by
  induction names generalizing route with
  | nil => exact absurd route.follows_nil_right hfollows
  | cons name names ih =>
      cases route with
      | nil => exact absurd (Route.follows_nil_left _) hfollows
      | cons step route =>
          by_cases hstep : step = .field name
          · subst hstep
            rw [Route.follows_cons_iff, and_iff_right rfl] at hfollows
            have hroute : route ≠ [] := by
              rintro rfl
              exact hfollows (Route.follows_nil_left names)
            rw [Member.rowsBelow_cons hroute]
            exact ih hfollows
          · rw [Member.rowsBelow_cons_of_ne hstep]
            exact Member.isPlain_rowsBelow_nil

theorem Member.rowsBelow_of_le (hfollows : route.Follows names) (hroute : route ≠ [])
    (hlength : route.length ≤ names.length) :
    member.rowsBelow depth route names =
      (member.rowsBelow depth [] (names.drop route.length)).map (·.emphasizeContent .fault) := by
  induction names generalizing route with
  | nil => exact absurd (List.length_eq_zero_iff.mp (Nat.le_zero.mp hlength)) hroute
  | cons name names ih =>
      cases route with
      | nil => exact absurd rfl hroute
      | cons step route =>
          obtain ⟨rfl, hrest⟩ := Route.follows_cons_iff.mp hfollows
          rw [List.length_cons, List.length_cons, Nat.add_le_add_iff_right] at hlength
          rw [List.length_cons, List.drop_succ_cons]
          by_cases hnil : route = []
          · subst hnil
            exact Member.rowsBelow_singleton name
          · rw [Member.rowsBelow_cons hnil]
            exact ih hrest hnil hlength

theorem Member.hasContent_rowsBelow (hfollows : route.Follows names) (hroute : 1 ≤ route.length)
    (hlength : route.length ≤ names.length) :
    ∀ row ∈ member.rowsBelow depth route names, row.HasContent .fault := by
  rw [Member.rowsBelow_of_le hfollows (List.ne_nil_of_length_pos hroute) hlength,
    List.forall_mem_map]
  intro row hrow
  exact (Member.isPlain_rowsBelow_nil row hrow).hasContent_emphasizeContent .fault

theorem Member.rowsBelow_of_lt (hfollows : route.Follows names)
    (hlength : names.length < route.length) :
    member.rowsBelow depth route names =
      Member.rowsAt depth (route.drop names.length) [member] := by
  induction names generalizing route with
  | nil => rfl
  | cons name names ih =>
      cases route with
      | nil => exact absurd hlength (by simp)
      | cons step route =>
          obtain ⟨rfl, hrest⟩ := Route.follows_cons_iff.mp hfollows
          rw [List.length_cons, List.length_cons, Nat.add_lt_add_iff_right] at hlength
          have hroute : route ≠ [] := List.ne_nil_of_length_pos (by omega)
          rw [Member.rowsBelow_cons hroute, ih hrest hlength, List.length_cons, List.drop_succ_cons]

end

/-! ## Rows of a member on the route -/

theorem Tree.exists_rowsAt_eq_cons (depth : Nat) (route : Route) (type : Tree) :
    ∃ first rest, type.rowsAt depth route = first :: rest ∧ first.IsPlain ∧
      ∀ row ∈ rest.getLast?, row.IsPlain := by
  cases type with
  | leaf text => exact ⟨_, [], rfl, StyledLine.isPlain_plain text, by simp⟩
  | object members =>
      refine ⟨_, _, rfl, StyledLine.isPlain_plain _, ?_⟩
      rw [List.getLast?_concat]
      rintro row ⟨⟩
      exact StyledLine.isPlain_plain _

theorem Member.exists_rowsAt_property_eq (depth : Nat) (route : Route) (name : Text) (type : Tree) :
    ∃ text first below,
      type.layoutAt (depth + 1) = text :: below.map StyledLine.plainText ∧
      Member.rowsAt depth route [.property name type] = first :: below ∧
      first.cells = (indentation (depth + 1)).map (·, .plain) ++
        name.map (·, nameEmphasis (route.head? == some (.field name))) ++
        (": " : Text).map (·, .plain) ++
        text.map (·, if route = [.field name] then .fault else .plain) ∧
      (route = [.field name] → ∀ row ∈ below, row.HasContent .fault) ∧
      (route ≠ [.field name] → ∀ row ∈ below.getLast?, row.IsPlain) := by
  let named := route.head? == some (.field name)
  let head := ((StyledLine.plain (indentation (depth + 1))).push name
    (nameEmphasis named)).pushPlain ": "
  obtain ⟨first, below, htype, hfirst, hlast⟩ :=
    Tree.exists_rowsAt_eq_cons (depth + 1) (if named then route.tail else []) type
  have htext : type.layoutAt (depth + 1) =
      first.plainText :: below.map StyledLine.plainText := by
    rw [← Tree.map_plainText_rowsAt (depth + 1) _ type, htype, List.map_cons]
  rw [Member.rowsAt, Member.rowsAt, List.append_nil]
  simp only [named] at htype
  simp only [htype]
  by_cases hfault : route = [.field name]
  · have hplain : ∀ row ∈ first :: below, row.IsPlain := by
      subst hfault
      rw [← htype]
      simpa using type.isPlain_rowsAt_nil (depth + 1)
    rw [List.forall_mem_cons] at hplain
    refine ⟨first.plainText, head ++ first.emphasize .fault,
      below.map (·.emphasizeContent .fault), ?_, ?_, ?_, fun _ => ?_, fun hne => absurd hfault hne⟩
    · rw [htext, List.map_map]
      simp [Function.comp_def]
    · rw [if_pos hfault]
      rfl
    · rw [StyledLine.cells_append, hplain.1.cells_emphasize, if_pos hfault]
      simp [head, named]
    · rw [List.forall_mem_map]
      intro row hrow
      exact (hplain.2 row hrow).hasContent_emphasizeContent .fault
  · refine ⟨first.plainText, head ++ first, below, htext, ?_, ?_, fun heq => absurd heq hfault,
      fun _ => hlast⟩
    · rw [if_neg hfault]
      rfl
    · rw [StyledLine.cells_append, hfirst.cells_eq, if_neg hfault]
      simp [head, named]

theorem hasContent_methodRow (depth : Nat) (name : Text) (params : List (Param Tree))
    (result : Tree) :
    (methodRow depth [.field name] name params result).HasContent .fault := by
  rw [methodRow_eq, if_pos rfl]
  apply StyledLine.hasContent_emphasizeContent
  intro cell hcell
  rcases emphasis_signatureRow (signatureStep?_singleton name) cell hcell with hplain | hbold
  · rw [hplain, Emphasis.plain_union]
  · rw [hbold]
    simp [nameEmphasis]
    rfl

theorem drop_eq_singleton_iff {route : Route} {depth : Nat} {step : Step} :
    route.drop depth = [step] ↔ route[depth]? = some step ∧ depth + 1 = route.length := by
  constructor
  · intro hdrop
    have hlength := congrArg List.length hdrop
    rw [List.length_drop, List.length_singleton] at hlength
    rw [← List.head?_drop, hdrop]
    exact ⟨rfl, by omega⟩
  · rintro ⟨hstep, hlength⟩
    obtain ⟨hlt, rfl⟩ := List.getElem?_eq_some_iff.mp hstep
    rw [List.drop_eq_getElem_cons hlt, hlength, List.drop_length]

/-- What the rows of a member that properties lead to show of a route. -/
structure Member.FollowsRoute (route : Route) (names : List Text) (member : Member Tree)
    (rows : List StyledLine) : Prop where
  off_route : ¬ route.Follows names → ∀ row ∈ rows, row.IsPlain
  within_fault : route.Follows names → 1 ≤ route.length → route.length ≤ names.length →
    ∀ row ∈ rows, row.HasContent .fault
  property : ∀ name type, member = .property name type →
    route.Follows names → names.length < route.length →
      let named := route[names.length]? = some (.field name)
      let atFault := named ∧ names.length + 1 = route.length
      ∃ text first below,
        type.layoutAt (names.length + 1) = text :: below.map StyledLine.plainText ∧
        rows = first :: below ∧
        first.cells = (indentation (names.length + 1)).map (·, .plain) ++
          name.map (·, if named then { bold := true } else .plain) ++
          (": " : Text).map (·, .plain) ++ text.map (·, if atFault then .fault else .plain) ∧
        (atFault → ∀ row ∈ below, row.HasContent .fault) ∧
        (¬ atFault → ∀ row ∈ below.getLast?, row.IsPlain)
  method : ∀ name params result, member = .method name params result →
    route.Follows names → route[names.length]? = some (.field name) →
      names.length + 1 = route.length → ∀ row ∈ rows, row.HasContent .fault

theorem Member.followsRoute_rowsBelow (route : Route) (names : List Text)
    (member : Member Tree) :
    member.FollowsRoute route names (member.rowsBelow names.length route names) where
  off_route hfollows := Member.isPlain_rowsBelow hfollows
  within_fault hfollows := Member.hasContent_rowsBelow hfollows
  property name type hmember hfollows hlength := by
    subst hmember
    intro named atFault
    have hnamed : (route.drop names.length).head? = some (.field name) ↔ named := by
      rw [List.head?_drop]
    have hfault : route.drop names.length = [.field name] ↔ atFault := drop_eq_singleton_iff
    obtain ⟨text, first, below, htext, hrows, hcells, hmarked, hplain⟩ :=
      Member.exists_rowsAt_property_eq names.length (route.drop names.length) name type
    refine ⟨text, first, below, htext, ?_, ?_, fun hat => hmarked (hfault.mpr hat),
      fun hnot => hplain (mt hfault.mp hnot)⟩
    · rw [Member.rowsBelow_of_lt hfollows hlength, hrows]
    · rw [hcells]
      simp only [nameEmphasis, beq_iff_eq, hnamed, hfault]
  method name params result hmember hfollows hnamed hlength := by
    subst hmember
    have hroute : route.drop names.length = [.field name] :=
      drop_eq_singleton_iff.mpr ⟨hnamed, hlength⟩
    rw [Member.rowsBelow_of_lt hfollows (by omega), hroute, Member.rowsAt, Member.rowsAt,
      List.forall_mem_singleton]
    exact hasContent_methodRow names.length name params result

/-- Without a route no row is emphasised.  With one, a member off the route is not, a member within
the fault is from its name on, and on the way to the fault the names of the steps are bold, up to
the last of them, which marks the whole type of a property or the whole row of a method. -/
theorem Tree.rows_follow_route (tree : Tree) (route : Route) :
    (∀ row ∈ tree.rows [], row.IsPlain) ∧
    ∀ names above member, tree.Reaches 0 names above member →
      ∃ front rows back, tree.rows route = front ++ rows ++ back ∧ front.length = above ∧
        rows.map StyledLine.plainText = Member.layoutAt names.length [member] ∧
        member.FollowsRoute route names rows := by
  refine ⟨tree.isPlain_rowsAt_nil 0, ?_⟩
  intro names above member hreach
  obtain ⟨front, back, hfront, hrows⟩ := hreach.exists_rowsAt route
  rw [Nat.zero_add] at hrows
  exact ⟨front, _, back, hrows, hfront, member.map_plainText_rowsBelow _ route names,
    Member.followsRoute_rowsBelow route names member⟩

theorem Tree.rows_follow_route_nested :
    let type := Tree.object [.property "b" (.leaf "string")]
    let tree := Tree.object [.property "c" type, .property "a" type]
    let route : Route := [.field "a", .field "b"]
    tree.Reaches 0 ["c"] 2 (.property "b" (.leaf "string")) ∧ ¬ route.Follows ["c"] ∧
      tree.Reaches 0 ["a"] 5 (.property "b" (.leaf "string")) ∧ route.Follows ["a"] ∧
      (∃ row, (tree.rows route)[2]? = some row ∧ row.IsPlain) ∧
      ∃ row, (tree.rows route)[5]? = some row ∧
        row.cells = ("    " : Text).map (·, .plain) ++ [('b', { bold := true })] ++
          (": " : Text).map (·, .plain) ++ ("string" : Text).map (·, .fault) := by
  intro type tree route
  have hother : tree.Reaches 0 ["c"] 2 (.property "b" (.leaf "string")) :=
    .through [] "c" [.property "a" type] (.own [] _ [])
  have hreach : tree.Reaches 0 ["a"] 5 (.property "b" (.leaf "string")) :=
    .through [.property "c" type] "a" [] (.own [] _ [])
  have hoff : ¬ route.Follows ["c"] := by simp [Route.Follows, route]
  have hon : route.Follows ["a"] := by simp [Route.Follows, route]
  obtain ⟨-, hrows⟩ := tree.rows_follow_route route
  refine ⟨hother, hoff, hreach, hon, ?_, ?_⟩
  · obtain ⟨front, rows, back, heq, hlength, htext, hfollows⟩ := hrows _ _ _ hother
    obtain ⟨row, rfl, -⟩ := List.map_eq_singleton_iff.mp htext
    refine ⟨row, ?_, hfollows.off_route hoff row (List.mem_singleton_self row)⟩
    rw [heq, ← hlength]
    simp
  · obtain ⟨front, rows, back, heq, hlength, -, hfollows⟩ := hrows _ _ _ hreach
    obtain ⟨text, row, below, htext, rfl, hcells, -⟩ :=
      hfollows.property "b" (.leaf "string") rfl hon (by decide)
    obtain ⟨rfl, -⟩ := List.cons_eq_cons.mp htext
    refine ⟨row, ?_, hcells⟩
    rw [heq, ← hlength]
    simp

end MismatchReport
