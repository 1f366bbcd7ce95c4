import DirectSearch.Entries
import DirectSearch.Point
/-!
# Problems — what is minimised, and subject to what

A problem is an objective over points of a fixed dimension, with bounds
on the variables and constraints in three blocks: one function with a
vector of values, then functions that must not be positive, then
functions that must vanish. The constraint bounds list the three blocks
in that order.

An evaluation may depend on how often it has been asked before: the
functions of a problem see the counters, already advanced for the
evaluation under way. The counters, with the evaluations that returned,
are kept in a `Tally`.
-/

namespace DirectSearch

/-- How often the objective and the constraints have been asked for. -/
structure Counters where
  objective : Nat
  constraint : Nat
deriving DecidableEq

namespace Counters

/-- Nothing has been asked for. -/
def zero : Counters := ⟨0, 0⟩

/-- One more objective evaluation asked for. -/
def askObjective (c : Counters) : Counters := { c with objective := c.objective + 1 }

/-- One more constraint evaluation asked for. -/
def askConstraint (c : Counters) : Counters := { c with constraint := c.constraint + 1 }

end Counters

/-- A value of the objective, and where it was taken. -/
structure Evaluation (α : Type) where
  point : Grid α
  value : α

/-- The evaluations so far. -/
structure Tally (α : Type) where
  /-- How many were asked for. -/
  counters : Counters
  /-- The objective evaluations that returned, in order. -/
  evaluations : Array (Evaluation α)

namespace Tally

variable {α : Type}

/-- No evaluation yet. -/
def empty : Tally α := ⟨.zero, #[]⟩

/-- The counters set back; what was evaluated stays on record. -/
def reset (t : Tally α) : Tally α := { t with counters := .zero }

end Tally

/-- A function that evaluations call: it sees the counters and an array,
and returns a value or fails. -/
abbrev Callback (α β : Type) : Type := Counters → Grid α → Except Fault β

/-- A problem in `n` variables. -/
structure Problem (α : Type) (n : Nat) where
  name : Value
  /-- What is minimised. -/
  objective : Callback α α
  /-- The vector-valued constraint, if there is one. -/
  block : Option (Callback α (Entries α))
  /-- The number of values the vector-valued constraint is to return. -/
  blockSize : Nat
  /-- Functions that must not be positive. -/
  inequalities : List (Callback α (Entries α))
  /-- Functions that must vanish. -/
  equalities : List (Callback α (Entries α))
  /-- Where a search starts unless told otherwise. -/
  start : Point α n
  /-- The lower bounds of the variables. -/
  lower : Point α n
  /-- The upper bounds of the variables. -/
  upper : Point α n
  /-- The lower bounds of the constraints, block after block. -/
  constraintLower : Vector α (blockSize + inequalities.length + equalities.length)
  /-- The upper bounds of the constraints, block after block. -/
  constraintUpper : Vector α (blockSize + inequalities.length + equalities.length)

namespace Problem

variable {α : Type} {n : Nat}

/-- The number of constraint values. -/
abbrev constraintCount (p : Problem α n) : Nat :=
  p.blockSize + p.inequalities.length + p.equalities.length

/-- A problem without constraints and without a finite bound. -/
def isUnconstrained [Scalar α] (p : Problem α n) : Bool :=
  p.constraintCount == 0 && !p.lower.any Scalar.isFinite && !p.upper.any Scalar.isFinite

/-- One line that names the problem. -/
def describe (p : Problem α n) : String :=
  "Model(name=" ++ p.name.innerText ++ s!", n={n}, m={p.constraintCount})"

end Problem

end DirectSearch
