import MismatchReport.Text.Basic

/-!
# Lines of a source text

A source text is a sequence of lines, each but the last closed by a terminator.  A carriage return
and the line feed behind it are one terminator.
-/

namespace MismatchReport.Source

inductive Terminator where
  | lineFeed
  | carriageReturn
  | carriageReturnLineFeed
  | lineSeparator
  | paragraphSeparator
  deriving DecidableEq, Repr

namespace Terminator

def text : Terminator → Text
  | lineFeed => ['\n']
  | carriageReturn => ['\r']
  | carriageReturnLineFeed => ['\r', '\n']
  | lineSeparator => ['\u2028']
  | paragraphSeparator => ['\u2029']

def ofChar? : Char → Option Terminator
  | '\n' => some lineFeed
  | '\r' => some carriageReturn
  | '\u2028' => some lineSeparator
  | '\u2029' => some paragraphSeparator
  | _ => none

end Terminator

/-- A line of a text shorter than 2 ^ 32 bytes, in which the start of every line is a 32-bit
number. -/
structure Line where
  content : Text
  terminator : Option Terminator
  deriving DecidableEq, Repr

namespace Line

def text (line : Line) : Text :=
  line.content ++ (line.terminator.map Terminator.text).getD []

def byteSize (line : Line) : Nat := Text.byteSize line.text

end Line

def linesOf : Text → List Line
  | [] => [⟨[], none⟩]
  | '\r' :: '\n' :: rest => ⟨[], some .carriageReturnLineFeed⟩ :: linesOf rest
  | char :: rest =>
      match Terminator.ofChar? char with
      | some terminator => ⟨[], some terminator⟩ :: linesOf rest
      | none => (linesOf rest).modifyHead fun line => { line with content := char :: line.content }

theorem linesOf_ne_nil (text : Text) : linesOf text ≠ [] := by
  fun_induction linesOf text <;> simp_all

theorem flatMap_text_linesOf (text : Text) : (linesOf text).flatMap Line.text = text := by
  fun_induction linesOf text with
  | case1 => rfl
  | case2 rest ih => simp [Line.text, Terminator.text, ih]
  | case3 char rest _ terminator h ih =>
      have spelled : terminator.text = [char] := by
        unfold Terminator.ofChar? at h
        split at h <;> simp_all [Terminator.text] <;> subst h <;> rfl
      simp [Line.text, spelled, ih]
  | case4 char rest _ _ ih =>
      cases split : linesOf rest with
      | nil => exact absurd split (linesOf_ne_nil rest)
      | cons line lines =>
          rw [split] at ih
          rw [← ih]
          simp only [List.modifyHead_cons, List.flatMap_cons, Line.text, List.cons_append]

def startsFrom (offset : Nat) : List Line → List Nat
  | [] => []
  | line :: rest => offset :: startsFrom (offset + line.byteSize) rest

def lineStarts (lines : List Line) : List Nat := startsFrom 0 lines

theorem length_startsFrom (offset : Nat) (lines : List Line) :
    (startsFrom offset lines).length = lines.length := by
  induction lines generalizing offset with
  | nil => rfl
  | cons line lines ih => simp [startsFrom, ih]

/-- Line and column, counted from zero.  Columns count characters. -/
structure Position where
  line : Nat
  character : Nat
  deriving DecidableEq, Repr

/-- The position of a byte offset: in the last line that starts at or before it, behind the
characters that fit between the two.  An offset past the end is that of the end. -/
def locate (offset : Nat) : List Line → Position
  | [] => ⟨0, 0⟩
  | [line] => ⟨0, (Text.takeBytes offset line.text).length⟩
  | line :: next :: rest =>
      if offset < line.byteSize then ⟨0, (Text.takeBytes offset line.text).length⟩
      else
        let below := locate (offset - line.byteSize) (next :: rest)
        { below with line := below.line + 1 }

example : locate 1 (linesOf "\r\n") = ⟨0, 1⟩ ∧ locate 2 (linesOf "\r\n") = ⟨1, 0⟩ := by decide

end MismatchReport.Source
