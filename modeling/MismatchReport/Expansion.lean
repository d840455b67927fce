/-!
# Guarded expansion

A type that is being expanded stays in the guard until its members are done, and the number of
such types is bounded.  Types can also be marked up front: they are refused like the others but
take up no depth.
-/

namespace MismatchReport

inductive Expansion where
  | entered
  | cycle
  | tooDeep
  deriving DecidableEq, Repr

structure Guard (κ : Type) where
  visiting : List κ := []
  marked : List κ := []
  depth : Nat := 0
  maxDepth : Nat
  deriving DecidableEq, Repr

namespace Guard

variable {κ : Type} [DecidableEq κ]

def defaultMaxDepth : Nat := 32

def ofMaxDepth (maxDepth : Nat) : Guard κ := { maxDepth }

def isVisiting (guard : Guard κ) (key : κ) : Bool :=
  guard.visiting.contains key || guard.marked.contains key

def enter (key : κ) : StateM (Guard κ) Expansion := fun guard =>
  if guard.isVisiting key then (.cycle, guard)
  else if guard.maxDepth ≤ guard.depth then (.tooDeep, guard)
  else (.entered, { guard with visiting := key :: guard.visiting, depth := guard.depth + 1 })

def leave (key : κ) : StateM (Guard κ) Unit := fun guard =>
  ((), { guard with visiting := guard.visiting.erase key, depth := guard.depth - 1 })

def mark (key : κ) : StateM (Guard κ) Unit := fun guard =>
  ((), { guard with marked := key :: guard.marked })

def clearMarks : StateM (Guard κ) Unit := fun guard => ((), { guard with marked := [] })

end Guard

end MismatchReport
