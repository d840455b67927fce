import MismatchReport.Source.Buffer
import MismatchReport.Chain.Basic

/-!
# Diagnostics
-/

namespace MismatchReport

inductive Category where
  | warning
  | error
  | suggestion
  | message
  deriving DecidableEq, Repr

def Category.name : Category → Text
  | warning => "warning"
  | error => "error"
  | suggestion => "suggestion"
  | message => "message"

/-- A diagnostic without a file has the empty file name. -/
structure Diagnostic where
  file : Text := []
  span : Option Source.Span := none
  code : UInt32
  category : Category := .error
  message : MessageChain
  deriving Repr

namespace Diagnostic

def location? (diagnostic : Diagnostic) : Option Source.Span :=
  if diagnostic.file.isEmpty then none else diagnostic.span

def flatMessage (diagnostic : Diagnostic) : Text := diagnostic.message.flatten ['\n']

end Diagnostic

end MismatchReport
