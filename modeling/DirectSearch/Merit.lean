import DirectSearch.Problem.Evaluate
/-!
# Merit — violation and penalty

How far a point is from satisfying the bounds and the constraints is
measured by the sum of the squared excesses, one for each variable and
one for each constraint value; constraint values in a column are compared
with every bound. A search with constraints compares points
by their merit, the objective plus the violation times a weight. The
weight starts at one and is doubled, up to a cap, when the search fails
at a point that violates something.

A problem without constraints and without a finite bound has no
violation, and then nothing is computed or counted.
-/

namespace DirectSearch

open Scalar

section

variable {α : Type} [Scalar α] {n : Nat}

/-! ## Violation -/

/-- The excess over either bound, the larger one of the two. What is
combined need only fit in shape. -/
def excesses (v lo hi : Grid α) : Except Fault (Grid α) := do
  let below ← Grid.zipWith (fun l x => maximum (l - x) zero) lo v
  let above ← Grid.zipWith (fun x h => maximum (x - h) zero) v hi
  Grid.zipWith maximum below above

/-- The sum of the squared excesses of an array over its bounds. -/
def totalExcess (v lo hi : Grid α) : Except Fault α :=
  (excesses v lo hi).map fun g => sum (g.entries.map square)

namespace Problem

/-- **The violation of bounds and constraints** at an array. The
constraints are evaluated only if there are any. -/
def violationOf (p : Problem α n) (x : Grid α) : Counting α := do
  if p.isUnconstrained then return zero
  let bounds ← demand (totalExcess x p.lower.toGrid p.upper.toGrid)
  if p.constraintCount = 0 then return bounds
  let values ← p.constraintsOf x
  let excess ← demand
    (totalExcess values (Point.toGrid p.constraintLower) (Point.toGrid p.constraintUpper))
  return bounds + excess

/-- The violation at a point of a search. -/
def violationAt (p : Problem α n) (x : Point α n) : Evaluating α α :=
  Counting.inSearch (p.violationOf x.toGrid)

end Problem

/-! ## Penalty weight -/

/-- The largest weight, `2⁵²`. -/
def weightCap : α := one / eps

/-- A weight to start with: at least one. -/
def startWeight? (w : α) : Option α := if lt w one then none else some w

/-- The weight doubled, up to the cap. -/
def raiseWeight (w : α) : α := least (two * w) weightCap

/-- Objective plus weighted violation. -/
def merit (w f violation : α) : α := f + w * violation

/-- An objective, a violation, and the merit that they make up. -/
structure Score (α : Type) where
  value : α
  violation : α
  merit : α

/-- A point with its score. -/
structure Appraisal (α : Type) (n : Nat) extends Score α where
  point : Point α n

namespace Problem

/-- The score of an array under a weight: the objective is evaluated
first, then the violation. -/
def scoreOf (p : Problem α n) (w : α) (x : Grid α) : Counting (Score α) := do
  let f ← p.objectiveOf x
  let violation ← p.violationOf x
  return ⟨f, violation, merit w f violation⟩

/-- A point appraised under a weight, in the course of a search. -/
def appraise (p : Problem α n) (w : α) (x : Point α n) : Evaluating α (Appraisal α n) := do
  let f ← p.objectiveAt x.toGrid
  let violation ← p.violationAt x
  return ⟨⟨f, violation, merit w f violation⟩, x⟩

end Problem

end

end DirectSearch
