import Mathlib.Data.Finset.Image
import Mathlib.Data.Fintype.Defs
import MismatchReport.Proofs.Text.Decimal
import MismatchReport.Style.Styler

/-!
# What a terminal shows

A terminal takes a text as characters to show and codes that change how the next ones are shown.
A painted line shows its characters, each under the codes of its emphasis, and leaves no code
active.
-/

namespace MismatchReport

instance : Fintype Style where
  elems := {.bold, .underline, .dim, .muted, .gutter, .squiggle}
  complete style := by cases style <;> decide

namespace Emphasis

def codes (emphasis : Emphasis) : Finset Nat :=
  (Finset.univ.filter (emphasis.has ·)).image Styler.code

theorem codes_eq_paintOrder (emphasis : Emphasis) :
    emphasis.codes = ((Styler.paintOrder.filter emphasis.has).map Styler.code).toFinset := by
  ext code
  simp [codes, Styler.mem_paintOrder]

end Emphasis

namespace Terminal

inductive Signal where
  | print (char : Char)
  | switch (code : Nat)
  deriving DecidableEq, Repr

def escape : Char := '\x1b'

namespace Signal

def text : Signal → Text
  | print char => [char]
  | switch code => Styler.escapeSequence code

def char? : Signal → Option Char
  | print char => some char
  | switch _ => none

end Signal

def spell (signals : List Signal) : Text := signals.flatMap Signal.text

def shown (signals : List Signal) : Text := signals.filterMap Signal.char?

def readSequence? : Text → Option (Nat × Text)
  | '\x1b' :: '[' :: rest =>
      match rest.span Char.isDigit with
      | (digit :: digits, 'm' :: behind) => some (Text.natOfDigits (digit :: digits), behind)
      | _ => none
  | _ => none

theorem length_lt_of_readSequence? {text behind : Text} {code : Nat}
    (hread : readSequence? text = some (code, behind)) : behind.length < text.length := by
  unfold readSequence? at hread
  split at hread
  · rename_i rest
    split at hread
    · rename_i digit digits suffix hspan
      obtain ⟨-, rfl⟩ : _ ∧ suffix = behind := by simpa using hread
      rw [List.span_eq_takeWhile_dropWhile, Prod.mk.injEq] at hspan
      have hle := (List.dropWhile_suffix Char.isDigit (l := rest)).length_le
      rw [hspan.2] at hle
      simp only [List.length_cons] at hle ⊢
      omega
    · cases hread
  · cases hread

def signals (text : Text) : List Signal :=
  match text with
  | [] => []
  | char :: rest =>
      match _hread : readSequence? (char :: rest) with
      | some (code, behind) => .switch code :: signals behind
      | none => .print char :: signals rest
termination_by text.length
decreasing_by
  · exact length_lt_of_readSequence? _hread
  · simp

def strip (text : Text) : Text := shown (signals text)

example : strip "a\x1b[1m\x1b[04mb\x1b[0m\x1b[m" = "ab\x1b[m" := by cbv

theorem readSequence?_escapeSequence (code : Nat) (behind : Text) :
    readSequence? (Styler.escapeSequence code ++ behind) = some (code, behind) := by
  have hspan : (Text.ofNat code ++ 'm' :: behind).span Char.isDigit =
      (Text.ofNat code, 'm' :: behind) := Text.span_isDigit_ofNat_append code (by simp)
  cases hdigits : Text.ofNat code with
  | nil => exact absurd hdigits (Text.ofNat_ne_nil code)
  | cons digit digits =>
      have hvalue := Text.natOfDigits_ofNat code
      rw [hdigits] at hspan hvalue
      rw [Styler.escapeSequence, ← Text.ofNat, hdigits]
      simp only [List.cons_append, List.append_assoc, List.nil_append] at hspan ⊢
      rw [readSequence?, hspan]
      exact congrArg (fun value => some (value, behind)) hvalue

theorem readSequence?_of_ne {char : Char} (hchar : char ≠ escape) (rest : Text) :
    readSequence? (char :: rest) = none := by
  unfold readSequence?
  split
  · rename_i heq
    exact absurd (List.cons.inj heq).1 hchar
  · rfl

theorem signals_cons_of_ne {char : Char} (hchar : char ≠ escape) (rest : Text) :
    signals (char :: rest) = .print char :: signals rest := by
  rw [signals]
  split
  · rename_i hread
    rw [readSequence?_of_ne hchar] at hread
    cases hread
  · rfl

theorem signals_escapeSequence_append (code : Nat) (behind : Text) :
    signals (Styler.escapeSequence code ++ behind) = .switch code :: signals behind := by
  have hread := readSequence?_escapeSequence code behind
  cases htext : Styler.escapeSequence code ++ behind with
  | nil => simp [Styler.escapeSequence] at htext
  | cons char rest =>
      rw [htext] at hread
      rw [signals]
      split
      · rename_i found hfound
        obtain ⟨rfl, rfl⟩ : code = _ ∧ behind = _ := by simpa [hread] using hfound
        rfl
      · rename_i hfound
        rw [hread] at hfound
        cases hfound

theorem signals_spell {sent : List Signal} (hclean : escape ∉ shown sent) :
    signals (spell sent) = sent := by
  induction sent with
  | nil => rw [spell, List.flatMap_nil, signals]
  | cons signal rest ih =>
      rw [spell, List.flatMap_cons]
      cases signal with
      | print char =>
          obtain ⟨hchar, hrest⟩ : char ≠ escape ∧ escape ∉ shown rest := by
            simpa [shown, Signal.char?, eq_comm] using hclean
          exact (signals_cons_of_ne hchar _).trans (congrArg _ (ih hrest))
      | switch code =>
          have hrest : escape ∉ shown rest := by simpa [shown, Signal.char?] using hclean
          exact (signals_escapeSequence_append code _).trans (congrArg _ (ih hrest))

/-! ## Pens -/

abbrev Pen := Finset Nat

def Pen.switch (pen : Pen) (code : Nat) : Pen := if code = 0 then ∅ else insert code pen

abbrev Cell := Char × Pen

/-- The characters that are shown from a pen on, each with the pen that it is shown under, and the
pen in the end. -/
def displayFrom (pen : Pen) : List Signal → List Cell × Pen
  | [] => ([], pen)
  | .print char :: rest =>
      let (cells, last) := displayFrom pen rest
      ((char, pen) :: cells, last)
  | .switch code :: rest => displayFrom (pen.switch code) rest

def display (text : Text) : List Cell × Pen := displayFrom ∅ (signals text)

theorem map_fst_displayFrom (pen : Pen) (sent : List Signal) :
    (displayFrom pen sent).1.map Prod.fst = shown sent := by
  induction sent generalizing pen with
  | nil => rfl
  | cons signal rest ih =>
      cases signal with
      | print char => exact congrArg (char :: ·) (ih pen)
      | switch code => exact ih (pen.switch code)

theorem displayFrom_append (pen : Pen) (first second : List Signal) :
    displayFrom pen (first ++ second) =
      let (cells, next) := displayFrom pen first
      let (rest, last) := displayFrom next second
      (cells ++ rest, last) := by
  induction first generalizing pen with
  | nil => rfl
  | cons signal first ih =>
      cases signal with
      | print char => simp [displayFrom, ih]
      | switch code => exact ih (pen.switch code)

theorem displayFrom_print (pen : Pen) (text : Text) :
    displayFrom pen (text.map .print) = (text.map (·, pen), pen) := by
  induction text with
  | nil => rfl
  | cons char text ih => simp [displayFrom, ih]

def restart (code : Nat) : List Signal → List Signal
  | [] => []
  | .print char :: rest => .print char :: restart code rest
  | .switch 0 :: rest => .switch 0 :: .switch code :: restart code rest
  | .switch (other + 1) :: rest => .switch (other + 1) :: restart code rest

def wrap (code : Nat) (sent : List Signal) : List Signal :=
  .switch code :: restart code sent ++ [.switch 0]

theorem restartAfterResets_append (start : Text) {front : Text} (hfront : escape ∉ front)
    (rest : Text) :
    Styler.restartAfterResets start (front ++ rest) =
      front ++ Styler.restartAfterResets start rest := by
  induction front with
  | nil => rfl
  | cons char front ih =>
      obtain ⟨hchar, hfront⟩ : char ≠ escape ∧ escape ∉ front := by
        simpa [eq_comm] using hfront
      rw [List.cons_append, Styler.restartAfterResets, ih hfront, List.cons_append]
      rintro - heq
      exact absurd heq hchar

theorem restartAfterResets_escapeSequence_append (start : Text) {code : Nat} (hcode : 0 < code)
    (rest : Text) :
    Styler.restartAfterResets start (Styler.escapeSequence code ++ rest) =
      Styler.escapeSequence code ++ Styler.restartAfterResets start rest := by
  have hclean : escape ∉ '[' :: Text.ofNat code ++ ['m'] := by
    have hdigits : escape ∉ Text.ofNat code := fun hmem =>
      absurd (Text.isDigit_of_mem_ofNat hmem) (by decide)
    simpa [escape] using hdigits
  have hbehind := restartAfterResets_append start hclean rest
  have hhead := Text.head?_ofNat_ne_zero hcode
  change Styler.restartAfterResets start (escape :: ('[' :: Text.ofNat code ++ ['m'] ++ rest)) =
    escape :: ('[' :: Text.ofNat code ++ ['m'] ++ Styler.restartAfterResets start rest)
  rw [Styler.restartAfterResets, hbehind]
  rintro behind - heq
  cases hdigits : Text.ofNat code with
  | nil => exact Text.ofNat_ne_nil code hdigits
  | cons digit digits =>
      rw [hdigits] at heq hhead
      simp only [List.cons_append, List.cons.injEq, true_and] at heq
      exact hhead (congrArg some heq.1)

theorem restartAfterResets_spell (code : Nat) {sent : List Signal} (hclean : escape ∉ shown sent) :
    Styler.restartAfterResets (Styler.escapeSequence code) (spell sent) =
      spell (restart code sent) := by
  induction sent with
  | nil => rfl
  | cons signal rest ih =>
      rw [spell, List.flatMap_cons]
      cases signal with
      | print char =>
          obtain ⟨hchar, hrest⟩ : escape ≠ char ∧ escape ∉ shown rest := by
            simpa [shown, Signal.char?] using hclean
          have hfront : escape ∉ [char] := by simpa using hchar
          exact (restartAfterResets_append _ hfront _).trans (congrArg _ (ih hrest))
      | switch other =>
          have hrest : escape ∉ shown rest := by simpa [shown, Signal.char?] using hclean
          cases other with
          | zero =>
              exact congrArg (Styler.escapeSequence 0 ++ Styler.escapeSequence code ++ ·)
                (ih hrest)
          | succ other =>
              exact (restartAfterResets_escapeSequence_append _ (by omega) _).trans
                (congrArg _ (ih hrest))

theorem spell_wrap (code : Nat) (sent : List Signal) :
    spell (wrap code sent) =
      Styler.escapeSequence code ++ spell (restart code sent) ++ Styler.escapeSequence 0 := by
  simp [wrap, spell, Signal.text]

theorem wrap_spell (style : Style) {sent : List Signal} (hclean : escape ∉ shown sent) :
    Styler.terminal.wrap style (spell sent) = spell (wrap (Styler.code style) sent) := by
  rw [spell_wrap, ← restartAfterResets_spell _ hclean]
  rfl

/-- Under one more code throughout, signals with that code switched on again after each reset show
the same characters, with that code added to every pen. -/
theorem displayFrom_restart {code : Nat} (hcode : code ≠ 0) (pen : Pen) (sent : List Signal) :
    displayFrom (insert code pen) (restart code sent) =
      Prod.map (List.map (Prod.map id (insert code))) (insert code) (displayFrom pen sent) := by
  -- The pens stay one code apart: a reset empties both, and the restart puts the code back.
  induction sent generalizing pen with
  | nil => rfl
  | cons signal rest ih =>
      match signal with
      | .print char => simp [restart, displayFrom, ih]
      | .switch 0 => simpa [restart, displayFrom, Pen.switch, hcode] using ih ∅
      | .switch (other + 1) =>
          simpa [restart, displayFrom, Pen.switch, Finset.insert_comm]
            using ih (insert (other + 1) pen)

theorem displayFrom_wrap {code : Nat} (hcode : code ≠ 0) (sent : List Signal) :
    displayFrom ∅ (wrap code sent) =
      ((displayFrom ∅ sent).1.map (Prod.map id (insert code)), ∅) := by
  have hswitch : Pen.switch ∅ code = insert code ∅ := if_neg hcode
  rw [wrap, List.cons_append, displayFrom, hswitch, displayFrom_append, displayFrom_restart hcode]
  simp [displayFrom, Pen.switch]

/-! ## Painted text -/

/-- The text spells signals that show these cells, from no code active to no code active. -/
def Shows (text : Text) (cells : List Cell) : Prop :=
  ∃ sent, spell sent = text ∧ displayFrom ∅ sent = (cells, ∅)

theorem Shows.append {first second : Text} {cells rest : List Cell} (hfirst : Shows first cells)
    (hsecond : Shows second rest) : Shows (first ++ second) (cells ++ rest) := by
  obtain ⟨sent, rfl, hsent⟩ := hfirst
  obtain ⟨next, rfl, hnext⟩ := hsecond
  refine ⟨sent ++ next, List.flatMap_append, ?_⟩
  simp only [displayFrom_append, hsent, hnext]

theorem Shows.flatMap {α : Type} {values : List α} {text : α → Text} {cells : α → List Cell}
    (hvalues : ∀ value ∈ values, Shows (text value) (cells value)) :
    Shows (values.flatMap text) (values.flatMap cells) := by
  induction values with
  | nil => exact ⟨[], rfl, rfl⟩
  | cons value rest ih =>
      have hrest := ih fun value hvalue => hvalues value (List.mem_cons_of_mem _ hvalue)
      exact (hvalues value (by simp)).append hrest

theorem shows_text (text : Text) : Shows text (text.map (·, ∅)) := by
  refine ⟨text.map .print, ?_, displayFrom_print ∅ text⟩
  simp [spell, Signal.text, List.flatMap_map]

theorem Shows.exists_clean {text : Text} {cells : List Cell} (hshows : Shows text cells)
    (hclean : escape ∉ cells.map Prod.fst) :
    ∃ sent, spell sent = text ∧ displayFrom ∅ sent = (cells, ∅) ∧ escape ∉ shown sent := by
  obtain ⟨sent, htext, hsent⟩ := hshows
  refine ⟨sent, htext, hsent, ?_⟩
  rwa [← map_fst_displayFrom ∅, hsent]

theorem Shows.display_eq {text : Text} {cells : List Cell} (hshows : Shows text cells)
    (hclean : escape ∉ cells.map Prod.fst) : display text = (cells, ∅) := by
  obtain ⟨sent, rfl, hsent, hshown⟩ := hshows.exists_clean hclean
  rw [display, signals_spell hshown, hsent]

theorem Shows.strip_eq {text : Text} {cells : List Cell} (hshows : Shows text cells)
    (hclean : escape ∉ cells.map Prod.fst) : strip text = cells.map Prod.fst := by
  rw [strip, ← map_fst_displayFrom ∅, ← display, hshows.display_eq hclean]

theorem Shows.wrap {text : Text} {cells : List Cell} (hshows : Shows text cells)
    (hclean : escape ∉ cells.map Prod.fst) (style : Style) :
    Shows (Styler.terminal.wrap style text)
      (cells.map (Prod.map id (insert (Styler.code style)))) := by
  obtain ⟨sent, rfl, hsent, hshown⟩ := hshows.exists_clean hclean
  have hcode : Styler.code style ≠ 0 := by cases style <;> decide
  refine ⟨Terminal.wrap (Styler.code style) sent, (wrap_spell style hshown).symm, ?_⟩
  rw [displayFrom_wrap hcode, hsent]

theorem shows_foldl_wrap {text : Text} (hclean : escape ∉ text) (emphasis : Emphasis)
    (styles : List Style) {painted : Text} {pen : Pen}
    (hshows : Shows painted (text.map (·, pen))) :
    Shows (styles.foldl
        (fun painted style =>
          if emphasis.has style then Styler.terminal.wrap style painted else painted) painted)
      (text.map (·, ((styles.filter emphasis.has).map Styler.code).toFinset ∪ pen)) := by
  induction styles generalizing painted pen with
  | nil => simpa using hshows
  | cons style styles ih =>
      rw [List.foldl_cons]
      by_cases hstyle : emphasis.has style
      · have hwrap := hshows.wrap (by simpa [Function.comp_def] using hclean) style
        rw [List.map_map] at hwrap
        simpa [hstyle] using ih hwrap
      · simpa [hstyle] using ih hshows

theorem shows_paint {text : Text} (hclean : escape ∉ text) (emphasis : Emphasis) :
    Shows (Styler.terminal.paint text emphasis) (text.map (·, emphasis.codes)) := by
  rw [Styler.paint, emphasis.codes_eq_paintOrder]
  split
  · rename_i hempty
    rw [List.isEmpty_iff.mp hempty]
    exact ⟨[], rfl, rfl⟩
  · have hpaint := shows_foldl_wrap hclean emphasis Styler.paintOrder (shows_text text)
    rwa [Finset.union_empty] at hpaint

def lineCells (line : StyledLine) : List Cell := line.cells.map (Prod.map id Emphasis.codes)

theorem map_fst_lineCells (line : StyledLine) : (lineCells line).map Prod.fst = line.plainText := by
  rw [lineCells, List.map_map, StyledLine.plainText_eq_cells]
  rfl

theorem shows_renderLine {line : StyledLine} (hclean : escape ∉ line.plainText) :
    Shows (Styler.terminal.renderLine line) (lineCells line) := by
  have hcells : lineCells line =
      line.segments.flatMap fun segment => segment.text.map (·, segment.emphasis.codes) := by
    simp [lineCells, StyledLine.cells, List.map_flatMap, Function.comp_def]
  rw [hcells, Styler.renderLine]
  refine Shows.flatMap fun segment hsegment => shows_paint ?_ segment.emphasis
  exact fun hmem => hclean (List.mem_flatMap.mpr ⟨segment, hsegment, hmem⟩)

theorem renderLine_plain (line : StyledLine) : Styler.plain.renderLine line = line.plainText := by
  simp only [Styler.renderLine, Styler.paint_plain, StyledLine.plainText]

end Terminal

end MismatchReport
