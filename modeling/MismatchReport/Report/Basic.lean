import MismatchReport.Report.Options
import MismatchReport.Report.View
import MismatchReport.Snapshot.Queries
import MismatchReport.Source.Excerpt
import MismatchReport.Style.Styler
import MismatchReport.Tree.Layout

/-!
# Reports

The report of a diagnostic: a header with its place and the excerpt, the two types side by side,
and the message.  The first needs a place and its source text, the second a view; the message is
always there, and an empty line ends the report.
-/

namespace MismatchReport

structure Formatter where
  indent : Text
  width : Nat
  deriving DecidableEq, Repr

namespace Formatter

def ofOptions (options : Options) (columns : Option Text) : Formatter :=
  ⟨options.indent, options.resolvedWidth columns⟩

def placeText (file : Text) (position : Source.Position) : Text :=
  file ++ ":" ++ Text.ofNat (position.line + 1) ++ ":" ++ Text.ofNat (position.character + 1)

def placeLine (buffer : Source.Buffer) (span : Source.Span) : StyledLine :=
  (StyledLine.plain "● ").push (placeText buffer.name (buffer.position span.start.toNat))
    { bold := true }

def codeText (code : UInt32) : Text := "TS" ++ Text.ofNat code.toNat

def headerGap (formatter : Formatter) (buffer : Source.Buffer) (span : Source.Span)
    (code : UInt32) : Nat :=
  max (formatter.width - ((placeLine buffer span).width + (codeText code).length)) 1

/-- The place, and the code at the right end of the width, at least one space apart.  The spaces
between them are a text only where `fits` says so. -/
def header (formatter : Formatter) (buffer : Source.Buffer) (span : Source.Span) (code : UInt32) :
    StyledLine :=
  ((placeLine buffer span).pushPlain (Text.spaces (formatter.headerGap buffer span code))).push
    (codeText code) { dim := true }

/-- Whether the header of a diagnostic, where it has one, can be laid out.  It cannot be in a width
that takes more spaces than a text can have. -/
def fits (formatter : Formatter) (buffer : Option Source.Buffer) (diagnostic : Diagnostic) : Bool :=
  match diagnostic.location?, buffer with
  | some span, some buffer =>
      (Text.spaces? (formatter.headerGap buffer span diagnostic.code)).isSome
  | _, _ => true

def excerptSection (formatter : Formatter) (buffer : Option Source.Buffer)
    (diagnostic : Diagnostic) : List StyledLine :=
  match diagnostic.location?, buffer with
  | some span, some buffer =>
      formatter.header buffer span diagnostic.code ::
        Source.renderSpan buffer span formatter.indent ++ [.empty]
  | _, _ => []

def title (formatter : Formatter) (view : View) : StyledLine :=
  ((((StyledLine.plain formatter.indent).pushPlain "Type of '").push view.sourceLabel
    { bold := true }).pushPlain "' is not assignable to type of '").push view.targetLabel
    { bold := true } |>.pushPlain "'"

def row (formatter : Formatter) (leftWidth : Nat) (left right : Option StyledLine) : StyledLine :=
  ((StyledLine.plain formatter.indent ++ (left.getD .empty).padTo leftWidth).pushPlain " │ ") ++
    right.getD .empty

def comparison (formatter : Formatter) (view : View) : List StyledLine :=
  let left := view.sourceTree.rows view.route
  let right := view.targetTree.rows view.route
  let leftWidth := ((left.map StyledLine.width).max?).getD 0
  formatter.title view :: .empty :: List.zipWithAll (formatter.row leftWidth) left right

def comparisonSection (formatter : Formatter) (view : Option View) : List StyledLine :=
  match view with
  | none => []
  | some view => formatter.comparison view ++ [.empty]

def messageSection (diagnostic : Diagnostic) : List StyledLine :=
  (Text.printedLines diagnostic.flatMessage).map (StyledLine.styled · { dim := true })

variable {τ : Type} [DecidableEq τ]

def report (formatter : Formatter) (checker : Checker τ) (buffer : Option Source.Buffer)
    (diagnostic : Diagnostic) (related : Option (RelatedTypes τ)) : List StyledLine :=
  formatter.excerptSection buffer diagnostic ++
    formatter.comparisonSection (related.bind (View.build? checker diagnostic)) ++
    messageSection diagnostic ++ [.empty]

abbrev OpenBuffers := List (Text × Source.Buffer)

def openBuffer (snapshot : Snapshot) (name : Text) (buffers : OpenBuffers) : OpenBuffers :=
  if name.isEmpty || (buffers.lookup name).isSome then buffers
  else match snapshot.buffer? name with
    | none => buffers
    | some buffer => (name, buffer) :: buffers

def renderFrom (formatter : Formatter) (snapshot : Snapshot) (styler : Styler)
    (buffers : OpenBuffers) : List SnapshotDiagnostic → Text
  | [] => []
  | diagnostic :: rest =>
      let buffers := openBuffer snapshot diagnostic.file buffers
      let lines := formatter.report snapshot.checker (buffers.lookup diagnostic.file)
        diagnostic.toDiagnostic diagnostic.relatedTypes
      styler.renderLines lines ++ '\n' :: renderFrom formatter snapshot styler buffers rest

def renderAll (formatter : Formatter) (snapshot : Snapshot) (styler : Styler) : Text :=
  formatter.renderFrom snapshot styler [] snapshot.diagnostics

/-- All the reports, unless the header of one of them cannot be laid out. -/
def renderAll? (formatter : Formatter) (snapshot : Snapshot) (styler : Styler) : Option Text :=
  if snapshot.diagnostics.all fun diagnostic =>
      formatter.fits (snapshot.buffer? diagnostic.file) diagnostic.toDiagnostic
  then some (formatter.renderAll snapshot styler) else none

end Formatter

end MismatchReport
