import MismatchReport.Style.Emphasis
import MismatchReport.Text.Basic

/-!
# Styled lines

One line of output as a list of segments, each a run of text under one emphasis.  Lines are built
by pushing text at the end, which keeps segments nonempty and neighbours of different emphasis.
The cells of a line, its characters each with an emphasis, are what the operations are about.
-/

namespace MismatchReport

structure Segment where
  text : Text
  emphasis : Emphasis
  deriving DecidableEq, Repr

structure StyledLine where
  segments : List Segment
  deriving DecidableEq, Repr

namespace StyledLine

def empty : StyledLine := ⟨[]⟩

instance : EmptyCollection StyledLine := ⟨empty⟩

abbrev Cell := Char × Emphasis

def cells (line : StyledLine) : List Cell :=
  line.segments.flatMap fun segment => segment.text.map (·, segment.emphasis)

def plainText (line : StyledLine) : Text := line.segments.flatMap Segment.text

def width (line : StyledLine) : Nat := line.plainText.length

def isEmpty (line : StyledLine) : Bool := line.segments.isEmpty

/-- Nonempty text at the end of a list of segments, in the last one if that has its emphasis. -/
def pushSegment (segment : Segment) : List Segment → List Segment
  | [] => [segment]
  | [last] =>
      if last.emphasis = segment.emphasis then [{ last with text := last.text ++ segment.text }]
      else [last, segment]
  | first :: next :: rest => first :: pushSegment segment (next :: rest)

def push (line : StyledLine) (text : Text) (emphasis : Emphasis) : StyledLine :=
  if text.isEmpty then line else ⟨pushSegment ⟨text, emphasis⟩ line.segments⟩

def pushPlain (line : StyledLine) (text : Text) : StyledLine := line.push text .plain

def pushAll (line : StyledLine) (segments : List Segment) : StyledLine :=
  segments.foldl (fun line segment => line.push segment.text segment.emphasis) line

def append (line other : StyledLine) : StyledLine := line.pushAll other.segments

instance : Append StyledLine := ⟨append⟩

def styled (text : Text) (emphasis : Emphasis) : StyledLine := empty.push text emphasis

def plain (text : Text) : StyledLine := styled text .plain

def padTo (line : StyledLine) (width : Nat) : StyledLine :=
  line.pushPlain (Text.spaces (width - line.width))

def emphasize (line : StyledLine) (extra : Emphasis) : StyledLine :=
  empty.pushAll (line.segments.map fun segment =>
    { segment with emphasis := segment.emphasis ∪ extra })

/-- `extra` on all characters behind the first `skip`; a segment may be cut in two for it. -/
def emphasizeAfter (extra : Emphasis) : Nat → List Segment → List Segment
  | _, [] => []
  | skip, segment :: rest =>
      ⟨segment.text.take skip, segment.emphasis⟩ ::
        ⟨segment.text.drop skip, segment.emphasis ∪ extra⟩ ::
        emphasizeAfter extra (skip - segment.text.length) rest

def leadingSpaces (line : StyledLine) : Nat := (line.plainText.takeWhile (· == ' ')).length

def emphasizeContent (line : StyledLine) (extra : Emphasis) : StyledLine :=
  empty.pushAll (emphasizeAfter extra line.leadingSpaces line.segments)

@[simp] theorem cells_empty : empty.cells = [] := rfl

theorem cells_pushSegment (segment : Segment) (segments : List Segment) :
    cells ⟨pushSegment segment segments⟩ =
      cells ⟨segments⟩ ++ segment.text.map (·, segment.emphasis) := by
  fun_induction pushSegment segment segments with
  | case1 => simp [cells]
  | case2 last same => simp [cells, same]
  | case3 last differ => simp [cells]
  | case4 first next rest ih =>
      simp only [cells, List.flatMap_cons, List.append_assoc] at ih ⊢
      rw [ih]

@[simp] theorem cells_push (line : StyledLine) (text : Text) (emphasis : Emphasis) :
    (line.push text emphasis).cells = line.cells ++ text.map (·, emphasis) := by
  cases text with
  | nil => simp [push]
  | cons char text => exact cells_pushSegment ⟨char :: text, emphasis⟩ line.segments

theorem cells_pushAll (line : StyledLine) (segments : List Segment) :
    (line.pushAll segments).cells = line.cells ++ cells ⟨segments⟩ := by
  induction segments generalizing line with
  | nil => simp [pushAll, cells]
  | cons segment segments ih =>
      have step := ih (line.push segment.text segment.emphasis)
      simp only [pushAll, List.foldl_cons] at step ⊢
      rw [step, cells_push, List.append_assoc]
      simp [cells]

theorem plainText_eq_cells (line : StyledLine) : line.plainText = line.cells.map Prod.fst := by
  cases line with
  | mk segments =>
      induction segments with
      | nil => rfl
      | cons segment segments ih =>
          simp only [plainText, cells, List.flatMap_cons, List.map_append, List.map_map] at ih ⊢
          rw [ih]
          simp [Function.comp_def]

end StyledLine

end MismatchReport
