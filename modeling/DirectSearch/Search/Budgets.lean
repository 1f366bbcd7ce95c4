import DirectSearch.Number
import DirectSearch.Report
/-!
# Search — budgets

A run may be limited in evaluations, in time and in iterations. A
negative or missing limit does not count. Evaluations and iterations are
spent when the limit is reached, time when it is exceeded. The limits are
looked at in this order, and one is looked at only if none before it is
spent; the status of a run that a budget ended is the first spent one.
-/

namespace DirectSearch

open Scalar

/-- The limits of a run. -/
structure Budgets (α : Type) where
  evaluations : Except Fault (Option (Number α))
  time : Stated α
  iterations : Except Fault (Option (Number α))

namespace Budgets

variable {α : Type} [Scalar α]

/-- The evaluation limit is reached. -/
def evaluationsSpent (b : Budgets α) (count : Nat) : Except Fault Bool :=
  b.evaluations.map (isSpent (.whole count))

/-- The time limit is exceeded. -/
def timeSpent (b : Budgets α) (elapsed : α) : Except Fault Bool :=
  b.time.map fun limit => (Number.whole 0).le limit && limit.lt (.real elapsed)

/-- The iteration limit is reached. -/
def iterationsSpent (b : Budgets α) (iterations : Int) : Except Fault Bool :=
  b.iterations.map (isSpent (.whole iterations))

/-- Some limit ends the run. -/
def spent (b : Budgets α) (count : Nat) (elapsed : α) (iterations : Int) : Except Fault Bool := do
  if ← b.evaluationsSpent count then return true
  if ← b.timeSpent elapsed then return true
  b.iterationsSpent iterations

/-- The status of a run that a limit ended. -/
def status (b : Budgets α) (count : Nat) (elapsed : α) : Except Fault Status := do
  if ← b.evaluationsSpent count then return .maxEval
  if ← b.timeSpent elapsed then return .maxTime
  return .maxIter

end Budgets

end DirectSearch
