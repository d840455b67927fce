import MismatchReport.Command.Arguments
import MismatchReport.Command.Files
import MismatchReport.Command.Render
import MismatchReport.Document.Options
import MismatchReport.Document.Snapshot

/-!
# Running the command

The options come first, then the snapshot; only a run in which both can be had writes anything.  A
count of spaces that no text can have ends a run where it is met.
-/

namespace MismatchReport.Command

structure Surroundings where
  files : Files := fun _ => none
  input : ByteArray := ByteArray.empty
  environment : List (Text × Text) := []
  isTerminal : Bool := false

namespace Surroundings

def valueOf? (surroundings : Surroundings) (name : Text) : Option Text :=
  surroundings.environment.lookup name

end Surroundings

inductive LogFormat where
  | text
  | tree
  | json
  deriving DecidableEq, Repr

def LogFormat.ofName (name : Text) : LogFormat :=
  let name := (Text.trim name).map Char.toLower
  if name = ("tree" : Text) then .tree
  else if name = ("json" : Text) then .json
  else .text

inductive Failure where
  | unreadableConfig (path : Text)
  | malformedConfig (path : Text)
  | unreadableSnapshot (path : Text)
  | unreadableInput
  | invalidSnapshot (path : Text) (error : Document.SnapshotError)
  /-- A text would have to be larger than any can be. -/
  | overflow
  deriving DecidableEq, Repr

namespace Failure

def message : Failure → Text
  | unreadableConfig path => "failed to read config file " ++ path
  | malformedConfig path => "failed to parse config file " ++ path
  | unreadableSnapshot path => "failed to read snapshot " ++ path
  | unreadableInput => "failed to read snapshot from stdin"
  | invalidSnapshot path _ => "invalid snapshot " ++ path
  | overflow => "capacity overflow"

def cause? : Failure → Option Document.SnapshotError
  | malformedConfig _ => some .malformed
  | invalidSnapshot _ error => some error
  | _ => none

end Failure

def loadOptions (files : Files) (path : Text) : Except Failure Options :=
  match files.readText? path with
  | none => .error (.unreadableConfig path)
  | some text =>
      match Document.readOptions? text with
      | none => .error (.malformedConfig path)
      | some options => .ok options

def Arguments.overrideIndent (arguments : Arguments) (indent : Text) : Except Failure Text :=
  match arguments.indent with
  | none => .ok indent
  | some count =>
      match Text.spaces? count with
      | none => .error .overflow
      | some indent => .ok indent

/-- Each option from its flag, else from the file, else its default. -/
def Arguments.override (arguments : Arguments) (options : Options) : Except Failure Options :=
  (arguments.overrideIndent options.indent).map fun indent =>
    { width := arguments.width.or options.width
      indent
      color := arguments.color.getD options.color }

def resolveOptions (files : Files) (arguments : Arguments) : Except Failure Options :=
  match arguments.config with
  | none => arguments.override {}
  | some path => (loadOptions files path).bind arguments.override

def snapshotText (surroundings : Surroundings) (path : Text) : Except Failure Text :=
  if isStandardInput path then
    match decodeUtf8? surroundings.input with
    | none => .error .unreadableInput
    | some text => .ok text
  else match surroundings.files.readText? path with
    | none => .error (.unreadableSnapshot path)
    | some text => .ok text

def loadSnapshot (surroundings : Surroundings) (path : Text) : Except Failure Snapshot := do
  let text ← snapshotText surroundings path
  (Document.readSnapshot text).mapError (.invalidSnapshot path)

structure Completion where
  output : Text
  code : Nat
  deriving DecidableEq, Repr

def exitSuccess : Nat := 0

def exitErrors : Nat := 1

def exitMisuse : Nat := 2

def exitOverflow : Nat := 101

def Failure.code : Failure → Nat
  | overflow => exitOverflow
  | _ => exitErrors

def usesColors (surroundings : Surroundings) (options : Options) : Bool :=
  options.color.usesColors surroundings.isTerminal (surroundings.valueOf? "NO_COLOR").isSome

def complete (rendering : Rendering) : Completion where
  output := rendering.text ++ ((summary? rendering.errorCount).map (· ++ ['\n'])).getD []
  code := if rendering.errorCount > 0 then exitErrors else exitSuccess

def run (surroundings : Surroundings) (arguments : Arguments) : Except Failure Completion := do
  let options ← resolveOptions surroundings.files arguments
  let snapshot ← loadSnapshot surroundings arguments.snapshot
  let styler := Styler.forTerminal (usesColors surroundings options)
  match render? snapshot options (surroundings.valueOf? "COLUMNS") styler with
  | none => .error .overflow
  | some rendering => return complete rendering

def versionText : Text := "tsz-pretty 0.1.0\n"

def helpText : Text := Text.joinLines [
  "Render structural assignability diagnostics from a checker snapshot",
  "",
  "Usage: tsz-pretty [OPTIONS] <SNAPSHOT>",
  "",
  "Arguments:",
  "  <SNAPSHOT>  Checker snapshot (JSON). Use - to read standard input",
  "",
  "Options:",
  "      --width <WIDTH>    Display width for location headers. Defaults to $COLUMNS, then 80",
  "      --color <COLOR>    When to use colors and text styles: auto, always or never",
  "      --indent <INDENT>  Spaces before excerpt and type tree rows",
  "      --config <CONFIG>  JSON file with rendering options. Flags take precedence",
  "  -h, --help             Print help",
  "  -V, --version          Print version",
  ""]

def Misuse.message : Misuse → Text
  | missingSnapshot => "a snapshot is required"
  | unknownArgument => "unexpected argument"
  | invalidValue => "an option has a missing or invalid value"
  | invalidNumber => "an option has a value that is not a number"
  | repeatedOption => "an option cannot be used twice"
  | surplusValue => "a flag takes no value"

structure Outcome where
  code : Nat
  output : Text := []
  failure : Option Failure := none
  misuse : Option Misuse := none
  deriving DecidableEq, Repr

def execute (surroundings : Surroundings) (words : List Text) : Outcome :=
  match parseArguments words with
  | .error .help => { code := exitSuccess, output := helpText }
  | .error .version => { code := exitSuccess, output := versionText }
  | .error (.misuse misuse) => { code := exitMisuse, misuse := some misuse }
  | .ok arguments =>
      match run surroundings arguments with
      | .error failure => { code := failure.code, failure := some failure }
      | .ok completion => { code := completion.code, output := completion.output }

end MismatchReport.Command
