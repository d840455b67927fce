import Mathlib.Data.List.Chain
import MismatchReport.Proofs.Style.Content

/-!
# Lines in canonical form

However a line is put together, its segments are not empty and neighbours differ in emphasis.  Its
cells are all there is to a line: each operation is a function of the cells, and lines with the
same cells are the same.
-/

namespace MismatchReport.StyledLine

/-- No segment is empty, and no two neighbours could be one segment. -/
structure IsCanonical (line : StyledLine) : Prop where
  text_ne_nil : ∀ segment ∈ line.segments, segment.text ≠ []
  emphasis_ne : line.segments.IsChain fun left right => left.emphasis ≠ right.emphasis

theorem isCanonical_empty : empty.IsCanonical where
  text_ne_nil := by simp [empty]
  emphasis_ne := .nil

theorem text_ne_nil_of_mem_pushSegment {segment : Segment} {segments : List Segment}
    (hsegment : segment.text ≠ []) (hsegments : ∀ other ∈ segments, other.text ≠ []) :
    ∀ other ∈ pushSegment segment segments, other.text ≠ [] := by
  fun_induction pushSegment segment segments with
  | case1 => simpa using hsegment
  | case2 last same => simp [hsegment]
  | case3 last differ => simpa using ⟨hsegments last (by simp), hsegment⟩
  | case4 first next rest ih =>
      rw [List.forall_mem_cons] at hsegments ⊢
      exact ⟨hsegments.1, ih hsegments.2⟩

theorem map_emphasis_pushSegment (segment : Segment) (segments : List Segment) :
    (pushSegment segment segments).map Segment.emphasis =
      segments.map Segment.emphasis ++
        if (segments.map Segment.emphasis).getLast? = some segment.emphasis then []
        else [segment.emphasis] := by
  fun_induction pushSegment segment segments with
  | case1 => simp
  | case2 last same => simp [same]
  | case3 last differ => simp [differ]
  | case4 first next rest ih =>
      rw [List.map_cons, ih]
      simp only [List.map_cons, List.getLast?_cons_cons, List.cons_append]

theorem IsCanonical.push {line : StyledLine} (hline : line.IsCanonical) (text : Text)
    (emphasis : Emphasis) : (line.push text emphasis).IsCanonical := by
  cases text with
  | nil => exact hline
  | cons char text =>
      refine ⟨text_ne_nil_of_mem_pushSegment (List.cons_ne_nil char text) hline.text_ne_nil, ?_⟩
      have hchain := (List.isChain_map Segment.emphasis).mpr hline.emphasis_ne
      refine (List.isChain_map Segment.emphasis).mp ?_
      change ((pushSegment _ line.segments).map Segment.emphasis).IsChain (· ≠ ·)
      rw [map_emphasis_pushSegment, List.isChain_append]
      refine ⟨hchain, ?_, ?_⟩
      · split_ifs <;> simp
      · intro last hlast next hnext heq
        split_ifs at hnext with hdiffer
        · cases hnext
        · cases hnext
          exact hdiffer (heq ▸ hlast)

theorem pushSegment_ne_nil (segment : Segment) (segments : List Segment) :
    pushSegment segment segments ≠ [] := by
  fun_cases pushSegment segment segments <;> exact List.cons_ne_nil _ _

theorem pushSegment_cons_of_ne_nil (segment first : Segment) {rest : List Segment}
    (hrest : rest ≠ []) :
    pushSegment segment (first :: rest) = first :: pushSegment segment rest := by
  obtain ⟨next, rest, rfl⟩ := List.exists_cons_of_ne_nil hrest
  rw [pushSegment]

theorem pushSegment_pushSegment (first second : Text) (emphasis : Emphasis)
    (segments : List Segment) :
    pushSegment ⟨second, emphasis⟩ (pushSegment ⟨first, emphasis⟩ segments) =
      pushSegment ⟨first ++ second, emphasis⟩ segments := by
  induction segments with
  | nil => simp [pushSegment]
  | cons segment rest ih =>
      rcases eq_or_ne rest [] with rfl | hrest
      · by_cases hsame : segment.emphasis = emphasis <;> simp [pushSegment, hsame]
      · rw [pushSegment_cons_of_ne_nil _ _ hrest, pushSegment_cons_of_ne_nil _ _ hrest,
          pushSegment_cons_of_ne_nil _ _ (pushSegment_ne_nil _ _), ih]

theorem push_append (line : StyledLine) (first second : Text) (emphasis : Emphasis) :
    line.push (first ++ second) emphasis = (line.push first emphasis).push second emphasis := by
  cases first with
  | nil => rfl
  | cons char first =>
      cases second with
      | nil => simp [push]
      | cons next second =>
          exact congrArg StyledLine.mk
            (pushSegment_pushSegment (char :: first) (next :: second) emphasis _).symm

def pushCells (line : StyledLine) (cells : List Cell) : StyledLine :=
  cells.foldl (fun line cell => line.push [cell.1] cell.2) line

def ofCells (cells : List Cell) : StyledLine := empty.pushCells cells

theorem pushCells_append (line : StyledLine) (first second : List Cell) :
    line.pushCells (first ++ second) = (line.pushCells first).pushCells second :=
  List.foldl_append

theorem ofCells_append (first second : List Cell) :
    ofCells (first ++ second) = (ofCells first).pushCells second :=
  pushCells_append empty first second

theorem cells_pushCells (line : StyledLine) (cells : List Cell) :
    (line.pushCells cells).cells = line.cells ++ cells := by
  induction cells generalizing line with
  | nil => simp [pushCells]
  | cons cell cells ih =>
      rw [pushCells, List.foldl_cons, ← pushCells, ih, cells_push]
      simp

theorem cells_ofCells (cells : List Cell) : (ofCells cells).cells = cells :=
  cells_pushCells empty cells

theorem isCanonical_ofCells (cells : List Cell) : (ofCells cells).IsCanonical := by
  induction cells using List.reverseRecOn with
  | nil => exact isCanonical_empty
  | append_singleton cells cell ih =>
      rw [ofCells_append]
      exact ih.push [cell.1] cell.2

theorem push_eq_pushCells (line : StyledLine) (text : Text) (emphasis : Emphasis) :
    line.push text emphasis = line.pushCells (text.map (·, emphasis)) := by
  induction text generalizing line with
  | nil => rfl
  | cons char text ih =>
      rw [← List.singleton_append, push_append, ih, List.map_append, pushCells_append]
      rfl

theorem pushPlain_eq_pushCells (line : StyledLine) (text : Text) :
    line.pushPlain text = line.pushCells (text.map (·, .plain)) :=
  push_eq_pushCells line text .plain

theorem pushAll_eq_pushCells (line : StyledLine) (segments : List Segment) :
    line.pushAll segments = line.pushCells (cells ⟨segments⟩) := by
  induction segments generalizing line with
  | nil => rfl
  | cons segment rest ih =>
      have hcells : cells ⟨segment :: rest⟩ =
          segment.text.map (·, segment.emphasis) ++ cells ⟨rest⟩ := by
        simp [cells]
      rw [pushAll, List.foldl_cons, ← pushAll, ih, push_eq_pushCells, hcells, pushCells_append]

theorem append_eq_pushCells (line other : StyledLine) :
    line ++ other = line.pushCells other.cells :=
  pushAll_eq_pushCells line other.segments

theorem pushAll_empty_eq_ofCells (segments : List Segment) :
    empty.pushAll segments = ofCells (empty.pushAll segments).cells := by
  rw [cells_pushAll, pushAll_eq_pushCells]
  rfl

theorem emphasize_eq_ofCells (line : StyledLine) (extra : Emphasis) :
    line.emphasize extra = ofCells (line.emphasize extra).cells :=
  pushAll_empty_eq_ofCells _

theorem emphasizeContent_eq_ofCells (line : StyledLine) (extra : Emphasis) :
    line.emphasizeContent extra = ofCells (line.emphasizeContent extra).cells :=
  pushAll_empty_eq_ofCells _

/-! ## Constructions -/

inductive Construction where
  | empty
  | plain (text : Text)
  | styled (text : Text) (emphasis : Emphasis)
  | push (line : Construction) (text : Text) (emphasis : Emphasis)
  | pushPlain (line : Construction) (text : Text)
  | append (line other : Construction)
  | emphasize (line : Construction) (extra : Emphasis)
  | emphasizeContent (line : Construction) (extra : Emphasis)
  | padTo (line : Construction) (width : Nat)

namespace Construction

def line : Construction → StyledLine
  | empty => .empty
  | plain text => .plain text
  | styled text emphasis => .styled text emphasis
  | push construction text emphasis => construction.line.push text emphasis
  | pushPlain construction text => construction.line.pushPlain text
  | append construction other => construction.line ++ other.line
  | emphasize construction extra => construction.line.emphasize extra
  | emphasizeContent construction extra => construction.line.emphasizeContent extra
  | padTo construction width => construction.line.padTo width

def cells : Construction → List Cell
  | empty => []
  | plain text => text.map (·, .plain)
  | styled text emphasis => text.map (·, emphasis)
  | push construction text emphasis => construction.cells ++ text.map (·, emphasis)
  | pushPlain construction text => construction.cells ++ text.map (·, .plain)
  | append construction other => construction.cells ++ other.cells
  | emphasize construction extra => construction.cells.map (emphasizeCell extra)
  | emphasizeContent construction extra =>
      construction.cells.takeWhile (·.1 == ' ') ++
        (construction.cells.dropWhile (·.1 == ' ')).map (emphasizeCell extra)
  | padTo construction width =>
      construction.cells ++ List.replicate (width - construction.cells.length) (' ', .plain)

theorem line_eq_ofCells (construction : Construction) :
    construction.line = ofCells construction.cells := by
  induction construction with
  | empty => rfl
  | plain text => exact push_eq_pushCells .empty text .plain
  | styled text emphasis => exact push_eq_pushCells .empty text emphasis
  | push construction text emphasis ih =>
      rw [line, cells, ofCells_append, ← ih, push_eq_pushCells]
  | pushPlain construction text ih =>
      rw [line, cells, ofCells_append, ← ih, pushPlain_eq_pushCells]
  | append construction other ih ihOther =>
      rw [line, cells, ofCells_append, ← ih, append_eq_pushCells, ihOther, cells_ofCells]
  | emphasize construction extra ih =>
      rw [line, cells, emphasize_eq_ofCells, cells_emphasize, ih, cells_ofCells]
  | emphasizeContent construction extra ih =>
      rw [line, cells, emphasizeContent_eq_ofCells, cells_emphasizeContent_eq, contentCells, ih,
        cells_ofCells]
  | padTo construction width ih =>
      rw [line, cells, ofCells_append, ← ih, StyledLine.padTo, pushPlain_eq_pushCells,
        Text.spaces, List.map_replicate, width_eq_length_cells, ih, cells_ofCells]

theorem cells_line (construction : Construction) :
    construction.line.cells = construction.cells := by
  rw [line_eq_ofCells, cells_ofCells]

/-- Every line that is put together is in canonical form, has the cells that its operations give on
lists of cells, and is the only one with them. -/
theorem line_isCanonical (construction : Construction) :
    construction.line.IsCanonical ∧ construction.line.cells = construction.cells ∧
      ∀ other : Construction,
        construction.line = other.line ↔ construction.line.cells = other.line.cells := by
  refine ⟨?_, cells_line construction, fun other => ⟨congrArg StyledLine.cells, fun heq => ?_⟩⟩
  · rw [line_eq_ofCells]
    exact isCanonical_ofCells _
  · rw [cells_line, cells_line] at heq
    rw [line_eq_ofCells, line_eq_ofCells, heq]

end Construction

end MismatchReport.StyledLine
