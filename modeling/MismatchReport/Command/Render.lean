import MismatchReport.Report.Basic

/-!
# Renderings

The reports of a whole snapshot, with the counts that a summary and an exit code need.
-/

namespace MismatchReport.Command

structure Rendering where
  text : Text
  diagnosticCount : Nat
  errorCount : Nat
  deriving DecidableEq, Repr

def isError (diagnostic : SnapshotDiagnostic) : Bool := diagnostic.category == .error

def render? (snapshot : Snapshot) (options : Options) (columns : Option Text) (styler : Styler) :
    Option Rendering :=
  ((Formatter.ofOptions options columns).renderAll? snapshot styler).map fun text =>
    { text
      diagnosticCount := snapshot.diagnostics.length
      errorCount := snapshot.diagnostics.countP isError }

def summary? : Nat → Option Text
  | 0 => none
  | 1 => some "Found 1 error."
  | count => some ("Found " ++ Text.ofNat count ++ " errors.")

end MismatchReport.Command
