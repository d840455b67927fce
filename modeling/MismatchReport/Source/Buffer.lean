import MismatchReport.Source.Line

/-!
# Source files and buffers

A buffer is a source file together with its lines, split once for all the positions asked of it.
-/

namespace MismatchReport.Source

structure SourceFile where
  name : Text
  text : Text
  deriving DecidableEq, Repr

/-- The starts of the lines are not bounded: a buffer stands for a text shorter than 2 ^ 32 bytes,
whose offsets are those that a span can have. -/
structure Buffer extends SourceFile where
  lines : List Line
  lines_eq : lines = linesOf text := by rfl

namespace Buffer

def ofFile (file : SourceFile) : Buffer :=
  { file with lines := linesOf file.text }

def lineCount (buffer : Buffer) : Nat := buffer.lines.length

def lineStart? (buffer : Buffer) (line : Nat) : Option Nat := (lineStarts buffer.lines)[line]?

def position (buffer : Buffer) (offset : Nat) : Position := locate offset buffer.lines

def lineText (buffer : Buffer) (line : Nat) : Text :=
  (buffer.lines[line]?.map Line.content).getD []

end Buffer

/-- A range of bytes.  Its end stays within 32 bits. -/
structure Span where
  start : UInt32
  length : UInt32
  deriving DecidableEq, Repr

namespace Span

def stop (span : Span) : Nat := min (span.start.toNat + span.length.toNat) (UInt32.size - 1)

def isEmpty (span : Span) : Bool := span.length == 0

end Span

end MismatchReport.Source
