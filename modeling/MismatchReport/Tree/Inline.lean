import MismatchReport.Tree.Basic

/-!
# Trees on one line
-/

namespace MismatchReport

mutual

def Tree.inline : Tree → Text
  | .leaf text => text
  | .object members =>
      if members.isEmpty then "\x7b\x7d"
      else "\x7b " ++ Text.joinWith "; " (Member.inlineAll members) ++ " \x7d"

def Member.inline : Member Tree → Text
  | .property name type => name ++ ": " ++ type.inline
  | .method name params result =>
      name ++ "(" ++ Text.joinWith ", " (Param.inlineAll params) ++ "): " ++ result.inline

def Param.inline : Param Tree → Text
  | ⟨name, none⟩ => name
  | ⟨name, some type⟩ => name ++ ": " ++ type.inline

def Member.inlineAll : List (Member Tree) → List Text
  | [] => []
  | member :: rest => Member.inline member :: Member.inlineAll rest

def Param.inlineAll : List (Param Tree) → List Text
  | [] => []
  | param :: rest => Param.inline param :: Param.inlineAll rest

end

theorem Member.inlineAll_eq_map (members : List (Member Tree)) :
    Member.inlineAll members = members.map Member.inline := by
  induction members with
  | nil => rfl
  | cons member members ih => simp [Member.inlineAll, ih]

theorem Param.inlineAll_eq_map (params : List (Param Tree)) :
    Param.inlineAll params = params.map Param.inline := by
  induction params with
  | nil => rfl
  | cons param params ih => simp [Param.inlineAll, ih]

example : (Tree.object [.property "a" (.leaf "string"),
    .method "f" [⟨"x", some (.leaf "number")⟩, ⟨"y", none⟩] (.object [])]).inline =
    "\x7b a: string; f(x: number, y): \x7b\x7d \x7d" := by decide

end MismatchReport
