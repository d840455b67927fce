import MismatchReport.Report.Options

/-!
# Command-line arguments

The words of a command line, read from left to right.  An option waits for its value until the next
option, flag or operand comes, and the values that are complete by then are checked.  A word that
nothing accepts is refused whatever is waiting.
-/

namespace MismatchReport.Command

structure Arguments where
  snapshot : Text
  width : Option Nat := none
  color : Option ColorMode := none
  indent : Option Nat := none
  config : Option Text := none
  deriving DecidableEq, Repr

inductive Misuse where
  | missingSnapshot
  | unknownArgument
  | invalidValue
  | invalidNumber
  | repeatedOption
  | surplusValue
  deriving DecidableEq, Repr

inductive Stop where
  | help
  | version
  | misuse (misuse : Misuse)
  deriving DecidableEq, Repr

inductive Setting where
  | snapshot
  | width
  | color
  | indent
  | config
  deriving DecidableEq, Repr

structure Given where
  snapshot : Option Text := none
  width : Option Nat := none
  color : Option ColorMode := none
  indent : Option Nat := none
  config : Option Text := none
  deriving DecidableEq, Repr

def Given.has (given : Given) : Setting → Bool
  | .snapshot => given.snapshot.isSome
  | .width => given.width.isSome
  | .color => given.color.isSome
  | .indent => given.indent.isSome
  | .config => given.config.isSome

def readPath (value : Text) : Except Misuse Text :=
  if value.isEmpty then .error .invalidValue else .ok value

def readNumber (value : Text) : Except Misuse Nat :=
  match Text.readSize? value with
  | some number => .ok number
  | none => .error .invalidNumber

def readColor (value : Text) : Except Misuse ColorMode :=
  let names : List (Text × ColorMode) := [("auto", .auto), ("always", .always), ("never", .never)]
  match names.lookup (value.map Char.toLower) with
  | some mode => .ok mode
  | none => .error .invalidValue

/-- A setting cannot be given twice, whatever its second value. -/
def Given.assign (given : Given) (setting : Setting) (value : Text) : Except Misuse Given :=
  if given.has setting then .error .repeatedOption
  else match setting with
    | .snapshot => (readPath value).map fun path => { given with snapshot := some path }
    | .width => (readNumber value).map fun width => { given with width := some width }
    | .color => (readColor value).map fun color => { given with color := some color }
    | .indent => (readNumber value).map fun indent => { given with indent := some indent }
    | .config => (readPath value).map fun path => { given with config := some path }

inductive Word where
  | escape
  | option (setting : Setting) (value : Option Text)
  | help
  | version
  | valuedFlag
  | unknownFlag
  | operand (value : Text)
  deriving DecidableEq, Repr

def splitValue (text : Text) : Text × Option Text :=
  match text.span (· != '=') with
  | (name, _ :: value) => (name, some value)
  | (name, []) => (name, none)

def settingOfName? (name : Text) : Option Setting :=
  let names : List (Text × Setting) :=
    [("width", .width), ("color", .color), ("indent", .indent), ("config", .config)]
  names.lookup name

def Word.ofLong (text : Text) : Word :=
  match splitValue text with
  | (name, value) =>
      match settingOfName? name with
      | some setting => .option setting value
      | none =>
          if name = ("help" : Text) then if value.isSome then .valuedFlag else .help
          else if name = ("version" : Text) then if value.isSome then .valuedFlag else .version
          else .unknownFlag

def Word.ofText : Text → Word
  | ['-', '-'] => .escape
  | '-' :: '-' :: text => .ofLong text
  | '-' :: 'h' :: _ => .help
  | '-' :: 'V' :: _ => .version
  | '-' :: _ :: _ => .unknownFlag
  | text => .operand text

/-- `pending` is the setting that still waits to be checked, with its value if that has come. -/
structure Progress where
  given : Given := {}
  pending : Option (Setting × Option Text) := none
  operandsOnly : Bool := false
  deriving DecidableEq, Repr

namespace Progress

def settle (progress : Progress) : Except Misuse Progress :=
  match progress.pending with
  | none => .ok progress
  | some (_, none) => .error .invalidValue
  | some (setting, some value) =>
      (progress.given.assign setting value).map fun given =>
        { progress with given, pending := none }

def hasOperand (progress : Progress) : Bool :=
  progress.given.snapshot.isSome || progress.pending.any (·.1 == .snapshot)

def takeOperand (progress : Progress) (value : Text) : Except Misuse Progress :=
  if progress.hasOperand then .error .unknownArgument
  else progress.settle.map fun settled =>
    { settled with pending := some (.snapshot, some value) }

def takeOption (progress : Progress) (setting : Setting) (value : Option Text) :
    Except Misuse Progress := do
  let settled ← progress.settle
  match value with
  | none => return { settled with pending := some (setting, none) }
  | some value => return { settled with given := ← settled.given.assign setting value }

def takeWord (progress : Progress) (word : Word) : Except Stop Progress :=
  match word, progress.pending with
  | .escape, _ => .ok { progress with operandsOnly := true }
  | .option setting value, _ => (progress.takeOption setting value).mapError .misuse
  | .help, _ => (progress.settle.mapError .misuse).bind fun _ => .error .help
  | .version, _ => (progress.settle.mapError .misuse).bind fun _ => .error .version
  | .valuedFlag, _ => .error (.misuse .surplusValue)
  | .unknownFlag, _ => .error (.misuse .unknownArgument)
  | .operand value, some (setting, none) =>
      .ok { progress with pending := some (setting, some value) }
  | .operand value, _ => (progress.takeOperand value).mapError .misuse

def take (progress : Progress) (text : Text) : Except Stop Progress :=
  if progress.operandsOnly then (progress.takeOperand text).mapError .misuse
  else progress.takeWord (.ofText text)

def finish (progress : Progress) : Except Stop Arguments := do
  let settled ← progress.settle.mapError .misuse
  let given := settled.given
  match given.snapshot with
  | none => .error (.misuse .missingSnapshot)
  | some snapshot =>
      return { snapshot, width := given.width, color := given.color, indent := given.indent,
               config := given.config }

end Progress

def parseArguments (words : List Text) : Except Stop Arguments :=
  (words.foldlM Progress.take {}).bind Progress.finish

example : parseArguments ["--width", "7", "-"] = .ok { snapshot := ['-'], width := some 7 } :=
  rfl
example : parseArguments ["--width", "x", "-q"] = .error (.misuse .unknownArgument) := rfl

end MismatchReport.Command
