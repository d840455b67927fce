import MismatchReport.Chain.Basic
import MismatchReport.Proofs.Text.Joining

/-!
# Outlines of chains

A flattened chain is its outline: each sentence on a line of its own, behind two spaces for each
level that it is down.  Where no sentence has a line feed or starts with a space, the levels can be
counted again, and the outline gives the chain back but for its reasons.
-/

namespace MismatchReport

namespace MessageChain

mutual

def texts : MessageChain → List Text
  | ⟨text, _, children⟩ => text :: textsBelow children

def textsBelow : List MessageChain → List Text
  | [] => []
  | child :: rest => texts child ++ textsBelow rest

end

mutual

def bare : MessageChain → MessageChain
  | ⟨text, _, children⟩ => ⟨text, none, bareAll children⟩

def bareAll : List MessageChain → List MessageChain
  | [] => []
  | child :: rest => bare child :: bareAll rest

end

/-- No sentence has a line feed, and none starts with a space. -/
def KeepsToLines (chain : MessageChain) : Prop :=
  ∀ text ∈ chain.texts, '\n' ∉ text ∧ text.head? ≠ some ' '

structure Item where
  level : Nat
  text : Text
  deriving DecidableEq, Repr

mutual

def outlineAt (level : Nat) : MessageChain → List Item
  | ⟨text, _, children⟩ => ⟨level, text⟩ :: outlineBelow (level + 1) children

def outlineBelow (level : Nat) : List MessageChain → List Item
  | [] => []
  | child :: rest => outlineAt level child ++ outlineBelow level rest

end

def outline (chain : MessageChain) : List Item := outlineAt 0 chain

def Item.line (item : Item) : Text := Text.spaces (2 * item.level) ++ item.text

mutual

theorem map_text_outlineAt (level : Nat) :
    ∀ chain : MessageChain, (outlineAt level chain).map Item.text = chain.texts
  | ⟨text, reason, children⟩ => by
      rw [outlineAt, texts, List.map_cons, map_text_outlineBelow (level + 1) children]

theorem map_text_outlineBelow (level : Nat) :
    ∀ children : List MessageChain,
      (outlineBelow level children).map Item.text = textsBelow children
  | [] => rfl
  | child :: rest => by
      rw [outlineBelow, textsBelow, List.map_append, map_text_outlineAt level child,
        map_text_outlineBelow level rest]

end

mutual

theorem flattenAt_eq (newLine : Text) (level : Nat) :
    ∀ chain : MessageChain,
      newLine ++ Text.spaces (2 * level) ++ flattenAt newLine level chain =
        (outlineAt level chain).flatMap fun item => newLine ++ item.line
  | ⟨text, reason, children⟩ => by
      rw [flattenAt, outlineAt, List.flatMap_cons, flattenBelow_eq newLine (level + 1) children,
        Item.line, List.append_assoc, List.append_assoc, List.append_assoc]

theorem flattenBelow_eq (newLine : Text) (level : Nat) :
    ∀ children : List MessageChain,
      flattenBelow newLine level children =
        (outlineBelow level children).flatMap fun item => newLine ++ item.line
  | [] => rfl
  | child :: rest => by
      rw [flattenBelow, outlineBelow, List.flatMap_append, flattenAt_eq newLine level child,
        flattenBelow_eq newLine level rest]

end

theorem flatten_eq_joinWith (newLine : Text) (chain : MessageChain) :
    chain.flatten newLine = Text.joinWith newLine (chain.outline.map Item.line) := by
  obtain ⟨text, reason, children⟩ := chain
  rw [flatten, flattenAt, flattenBelow_eq, outline, outlineAt, List.map_cons, Text.joinWith_cons,
    List.flatMap_map]
  rfl

/-! ## Reading an outline -/

/-- A line as the sentence behind its spaces and the level that they show. -/
def Item.ofLine (line : Text) : Item where
  level := (line.takeWhile (· == ' ')).length / 2
  text := line.dropWhile (· == ' ')

/-- A sentence before others, with the trees of deeper levels that follow it as its children. -/
def plant (item : Item) (forest : List (Nat × MessageChain)) : List (Nat × MessageChain) :=
  (item.level, ⟨item.text, none, (forest.takeWhile (item.level < ·.1)).map Prod.snd⟩) ::
    forest.dropWhile (item.level < ·.1)

def ofFlattened? (text : Text) : Option MessageChain :=
  let items := (text.splitOn '\n').map Item.ofLine
  (items.foldr plant []).head?.map Prod.snd

theorem Item.ofLine_line {item : Item} (hitem : item.text.head? ≠ some ' ') :
    ofLine item.line = item := by
  obtain ⟨level, text⟩ := item
  have hspaces : ∀ char ∈ Text.spaces (2 * level), char == ' ' := by
    intro char hchar
    exact beq_iff_eq.mpr (List.eq_of_mem_replicate hchar)
  have htext : ∀ char ∈ text.head?, ¬ (char == ' ') := by
    rintro char hchar hspace
    rw [beq_iff_eq.mp hspace] at hchar
    exact hitem hchar
  obtain ⟨htake, hdrop⟩ := takeWhile_append_of_head hspaces htext
  rw [ofLine, line, htake, hdrop, Text.spaces, List.length_replicate,
    Nat.mul_div_cancel_left level (by decide)]

mutual

theorem foldr_plant_outlineAt (level : Nat) {forest : List (Nat × MessageChain)}
    (hforest : ∀ tree ∈ forest.head?, tree.1 ≤ level) :
    ∀ chain : MessageChain,
      (outlineAt level chain).foldr plant forest = (level, chain.bare) :: forest
  | ⟨text, reason, children⟩ => by
      have hbelow := foldr_plant_outlineBelow (level + 1)
        (fun tree htree => Nat.le_succ_of_le (hforest tree htree)) children
      have hdeeper : ∀ tree ∈ (bareAll children).map (level + 1, ·), decide (level < tree.1) := by
        intro tree htree
        obtain ⟨child, -, rfl⟩ := List.mem_map.mp htree
        exact decide_eq_true (Nat.lt_succ_self level)
      obtain ⟨htake, hdrop⟩ := takeWhile_append_of_head hdeeper fun tree htree => by
        simpa using hforest tree htree
      rw [outlineAt, List.foldr_cons, hbelow, plant, htake, hdrop, bare, List.map_map]
      simp [Function.comp_def]

theorem foldr_plant_outlineBelow (level : Nat) {forest : List (Nat × MessageChain)}
    (hforest : ∀ tree ∈ forest.head?, tree.1 ≤ level) :
    ∀ children : List MessageChain,
      (outlineBelow level children).foldr plant forest =
        (bareAll children).map (level, ·) ++ forest
  | [] => rfl
  | child :: rest => by
      have hrest := foldr_plant_outlineBelow level hforest rest
      -- The next sibling is as deep as the child, so the child does not take it for its own.
      have hhead : ∀ tree ∈ ((bareAll rest).map (level, ·) ++ forest).head?, tree.1 ≤ level := by
        cases rest with
        | nil => exact hforest
        | cons next rest =>
            rintro tree htree
            obtain rfl := Option.some.inj htree
            exact Nat.le_refl level
      rw [outlineBelow, List.foldr_append, hrest, foldr_plant_outlineAt level hhead child, bareAll]
      rfl

end

mutual

theorem outlineAt_bare (level : Nat) :
    ∀ chain : MessageChain, outlineAt level chain.bare = outlineAt level chain
  | ⟨text, reason, children⟩ => by
      rw [bare, outlineAt, outlineAt, outlineBelow_bareAll (level + 1) children]

theorem outlineBelow_bareAll (level : Nat) :
    ∀ children : List MessageChain,
      outlineBelow level (bareAll children) = outlineBelow level children
  | [] => rfl
  | child :: rest => by
      rw [bareAll, outlineBelow, outlineBelow, outlineAt_bare level child,
        outlineBelow_bareAll level rest]

end

theorem flatten_bare (newLine : Text) (chain : MessageChain) :
    chain.bare.flatten newLine = chain.flatten newLine := by
  rw [flatten_eq_joinWith, flatten_eq_joinWith, outline, outlineAt_bare, ← outline]

theorem KeepsToLines.item {chain : MessageChain} (hchain : chain.KeepsToLines) {item : Item}
    (hitem : item ∈ chain.outline) : '\n' ∉ item.line ∧ item.text.head? ≠ some ' ' := by
  have htext : item.text ∈ chain.texts := by
    rw [← map_text_outlineAt 0 chain]
    exact List.mem_map_of_mem hitem
  obtain ⟨hfeed, hspace⟩ := hchain item.text htext
  have hspaces : '\n' ∉ Text.spaces (2 * item.level) := fun hmem =>
    absurd (List.eq_of_mem_replicate hmem) (by decide)
  rw [Item.line, List.mem_append, not_or]
  exact ⟨⟨hspaces, hfeed⟩, hspace⟩

theorem KeepsToLines.splitOn_flatten {chain : MessageChain} (hchain : chain.KeepsToLines) :
    (chain.flatten ['\n']).splitOn '\n' = chain.outline.map Item.line := by
  have hne : chain.outline.map Item.line ≠ [] := by
    obtain ⟨text, reason, children⟩ := chain
    exact List.cons_ne_nil _ _
  have hlines : ∀ line ∈ chain.outline.map Item.line, '\n' ∉ line := by
    intro line hline
    obtain ⟨item, hitem, rfl⟩ := List.mem_map.mp hline
    exact (hchain.item hitem).1
  rw [flatten_eq_joinWith]
  exact List.splitOn_intercalate '\n' hlines hne

theorem KeepsToLines.ofFlattened?_flatten {chain : MessageChain} (hchain : chain.KeepsToLines) :
    ofFlattened? (chain.flatten ['\n']) = some chain.bare := by
  have hitems : (chain.outline.map Item.line).map Item.ofLine = chain.outline := by
    rw [List.map_map]
    exact (List.map_congr_left fun item hitem => Item.ofLine_line (hchain.item hitem).2).trans
      (List.map_id chain.outline)
  have hnone : ∀ tree ∈ ([] : List (Nat × MessageChain)).head?, tree.1 ≤ 0 := by simp
  have hgrown := foldr_plant_outlineAt 0 hnone chain
  rw [ofFlattened?, hchain.splitOn_flatten, hitems, outline, hgrown]
  rfl

/-- Flattened chains are the same exactly if the chains are but for their reasons.  The lines of a
flattened chain are its sentences in preorder, each behind two spaces for each level, and give the
chain back. -/
theorem flatten_eq_flatten_iff {chain other : MessageChain} (hchain : chain.KeepsToLines)
    (hother : other.KeepsToLines) :
    (chain.flatten ['\n'] = other.flatten ['\n'] ↔ chain.bare = other.bare) ∧
      (chain.flatten ['\n']).splitOn '\n' =
        chain.outline.map (fun item => Text.spaces (2 * item.level) ++ item.text) ∧
      ofFlattened? (chain.flatten ['\n']) = some chain.bare := by
  have hread := hchain.ofFlattened?_flatten
  refine ⟨⟨fun hflat => ?_, fun hbare => ?_⟩, hchain.splitOn_flatten, hread⟩
  · rw [hflat, hother.ofFlattened?_flatten] at hread
    exact (Option.some.inj hread).symm
  · rw [← flatten_bare, hbare, flatten_bare]

def sampleOutline (reason : Option Reason) : MessageChain :=
  ⟨"a", none, [⟨"", reason, [⟨"b c", none, []⟩]⟩, ⟨"d", none, []⟩]⟩

theorem flatten_eq_flatten_iff_sample :
    let chain := sampleOutline (some .returnIncompatible)
    let other := sampleOutline none
    chain.KeepsToLines ∧ other.KeepsToLines ∧
      chain.flatten ['\n'] = other.flatten ['\n'] ∧
      (chain.flatten ['\n']).splitOn '\n' = [("a" : Text), "  ", "    b c", "  d"] ∧
      ofFlattened? (chain.flatten ['\n']) = some other := by
  intro chain other
  have hchain : chain.KeepsToLines := by
    unfold KeepsToLines
    decide
  have hother : other.KeepsToLines := by
    unfold KeepsToLines
    decide
  obtain ⟨hiff, hlines, hread⟩ := flatten_eq_flatten_iff hchain hother
  exact ⟨hchain, hother, hiff.mpr rfl, hlines, hread⟩

end MessageChain

end MismatchReport
