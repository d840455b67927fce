import MismatchReport.Chain.Route
import MismatchReport.Style.Line
import MismatchReport.Tree.Inline

/-!
# Laid-out trees

Objects print one member a row, two spaces deeper at each level; methods take one row each.  A
route marks the member at fault: names along it are bold, and at its last step the whole type of a
property, or the whole signature of a method, is bold and underlined.  Each level of the tree
takes the first step of the route that is left to it, and members off the route are left none.
-/

namespace MismatchReport

def indentation (depth : Nat) : Text := Text.spaces (2 * depth)

/-- The step that applies inside the signature of a method, and whether it is the last: the next
step, or the one behind it when the next one names the method. -/
def signatureStep? (name : Text) : Route → Option (Step × Bool)
  | [] => none
  | step :: rest =>
      match (if step.isField name then rest else step :: rest) with
      | [] | .field _ :: _ => none
      | step :: rest => some (step, rest.isEmpty)

def faultOrBold (isLast : Bool) : Emphasis := if isLast then .fault else { bold := true }

/-- The parameter that a step names is bold, and its type too or at fault; the others of its method
are muted. -/
def pushParam (step : Option (Step × Bool)) (line : StyledLine) (param : Param Tree) :
    StyledLine :=
  match step with
  | some (.param name, isLast) =>
      if param.name = name then
        let named := line.push param.name { bold := true }
        match param.type with
        | none => named
        | some type => (named.push ": " { bold := true }).push type.inline (faultOrBold isLast)
      else line.push param.inline { muted := true }
  | _ => line.pushPlain param.inline

def pushParams (step : Option (Step × Bool)) (line : StyledLine) : List (Param Tree) → StyledLine
  | [] => line
  | first :: rest =>
      rest.foldl (fun line param => pushParam step (line.pushPlain ", ") param)
        (pushParam step line first)

def resultEmphasis : Option (Step × Bool) → Emphasis
  | some (.result _, isLast) => faultOrBold isLast
  | _ => .plain

def nameEmphasis (named : Bool) : Emphasis := if named then { bold := true } else .plain

def methodRow (depth : Nat) (route : Route) (name : Text) (params : List (Param Tree))
    (result : Tree) : StyledLine :=
  let step := signatureStep? name route
  let named := route.head? == some (.field name)
  let head := ((StyledLine.plain (indentation (depth + 1))).push name
    (nameEmphasis named)).pushPlain "("
  let row := ((pushParams step head params).pushPlain "): ").push result.inline
    (resultEmphasis step)
  if route = [.field name] then row.emphasizeContent .fault else row

def markFault : List StyledLine → List StyledLine
  | [] => []
  | first :: rest => first.emphasize .fault :: rest.map (·.emphasizeContent .fault)

def propertyRows (depth : Nat) (named : Bool) (name : Text) (typeRows : List StyledLine) :
    List StyledLine :=
  let head := ((StyledLine.plain (indentation (depth + 1))).push name
    (nameEmphasis named)).pushPlain ": "
  match typeRows with
  | [] => [head]
  | first :: rest => (head ++ first) :: rest

mutual

def Tree.rowsAt (depth : Nat) (route : Route) : Tree → List StyledLine
  | .leaf text => [.plain text]
  | .object members =>
      .plain "\x7b" ::
        (Member.rowsAt depth route members ++ [.plain (indentation depth ++ "\x7d")])

def Member.rowsAt (depth : Nat) (route : Route) : List (Member Tree) → List StyledLine
  | [] => []
  | .property name type :: rest =>
      let named := route.head? == some (.field name)
      let typeRows := type.rowsAt (depth + 1) (if named then route.tail else [])
      propertyRows depth named name
          (if route = [.field name] then markFault typeRows else typeRows) ++
        Member.rowsAt depth route rest
  | .method name params result :: rest =>
      methodRow depth route name params result :: Member.rowsAt depth route rest

end

def Tree.rows (tree : Tree) (route : Route) : List StyledLine := tree.rowsAt 0 route

end MismatchReport
