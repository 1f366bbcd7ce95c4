import DirectSearch.Merit
import DirectSearch.Number
import DirectSearch.Simplex.Gradient
/-!
# Simplex search — options and state

A simplex search holds `n + 1` vertices, from the best to the worst. An
iteration tries points on the line through the worst vertex and the
centroid of the others; where on the line is a coefficient, the weight of
the worst vertex.
-/

namespace DirectSearch.SimplexSearch

open Simplex

/-- What the user of a simplex search may choose. -/
structure Options (α : Type) where
  /-- The search has converged when best and worst are closer than
  this. -/
  tolerance : Stated α
  /-- The coefficient of a reflection. -/
  reflection : Stated α
  /-- The coefficient of an expansion. -/
  expansion : Stated α
  /-- The coefficient of a contraction beyond the centroid. -/
  outside : Stated α
  /-- The coefficient of a contraction towards the worst vertex. -/
  inside : Stated α
  /-- Rebuild the simplex when it stagnates. -/
  orientedRestart : Bool
  /-- How often it may be rebuilt. -/
  maxRestart : Stated α
  /-- How much the mean must fall for each unit of squared gradient. -/
  decrease : Stated α

/-- What an iteration did. -/
inductive Move where
  | reflection
  | expansion
  | outsideContraction
  | insideContraction
  | shrink
  | orientedRestart
deriving DecidableEq

namespace Move

/-- A move in words. -/
def text : Move → String
  | reflection => "reflection"
  | expansion => "expansion"
  | outsideContraction => "outside contraction"
  | insideContraction => "inside contraction"
  | shrink => "shrink"
  | orientedRestart => "oriented restart"

end Move

/-- The state of a simplex search, with vertices among the points of `P`
and perhaps extra ones. -/
structure StateOn (α : Type) (n : Nat) (P : Type) (extra : Nat) where
  vertices : Vertices α n P extra
  /-- The mean of the values against which stagnation is measured. -/
  mean : α
  /-- How often the simplex was rebuilt. -/
  restarts : Int
  /-- The distance from the best vertex to the worst. -/
  diameter : α

/-- The state of a simplex search: `n + 1` vertices in its space. -/
abbrev State (α : Type) (n : Nat) : Type := StateOn α n (Point α n) 0

end DirectSearch.SimplexSearch
