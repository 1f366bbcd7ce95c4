import DirectSearch.PollSet
import DirectSearch.Merit
/-!
# Mesh search — options and state

A mesh search holds an incumbent and a mesh size. It polls the `2n`
points around the incumbent that its current direction spans; the mesh
grows the faster the longer a run of successes has lasted, and shrinks by
less and less along a run of failures. The run is kept as one integer,
the streak: positive for successes, negative for failures.

The incumbent is a point of the space. A state put together by hand may
have an array of another shape in its place, and keeps it until a poll
succeeds.
-/

namespace DirectSearch.MeshSearch

open Scalar

/-- What the user of a mesh search may choose. -/
structure Options (α : Type) where
  /-- The absolute part of the stall tolerance. -/
  absolute : Stated α
  /-- The part of the stall tolerance per unit of the first objective. -/
  relative : Stated α
  /-- Look at all `2n` points even after an improvement. -/
  greedy : Bool
  /-- Stop when the mesh is fine enough, and let it become that fine. -/
  stopWhenSmall : Bool
  /-- What counts as a fine mesh. It is looked at only if the search may
  stop for it. -/
  smallStep : Stated α
  /-- Estimate the slope around the incumbent in every poll. -/
  estimateSlope : Bool

/-- What a poll has come to so far. -/
inductive PollOutcome (n : Nat) where
  /-- There was no poll. -/
  | none
  /-- No point has improved on the incumbent. -/
  | noDecrease
  /-- The last point to improve on the best one lies along a heading. -/
  | decrease (heading : Heading n)
  /-- A word that somebody else has put down. -/
  | noted (text : String)
deriving DecidableEq

namespace PollOutcome

variable {n : Nat}

/-- The outcome in words. Axes are counted from one. -/
def text : PollOutcome n → String
  | none => ""
  | noDecrease => "No decrease"
  | decrease d => s!"Decrease at i = {d.axis.val + 1}, s = {d.sign}"
  | noted text => text

end PollOutcome

/-- The state of a mesh search, with an incumbent among the points of
`P`. -/
structure StateOn (α : Type) (n : Nat) (P : Type) where
  /-- The incumbent. -/
  point : P
  /-- Its objective. -/
  value : α
  /-- Its violation. -/
  violation : α
  /-- Its merit under the weight in force. -/
  merit : α
  /-- The penalty weight. -/
  weight : α
  /-- The mesh size. -/
  mesh : α
  /-- Successes in a row, or failures in a row as a negative number. -/
  streak : Int
  /-- The vector that spans the next poll, as it was delivered. -/
  direction : Grid α
  /-- The slope below which the search has stalled. -/
  tolerance : α
  /-- The steepest slope of the last poll, where slopes are estimated. -/
  slope : Option α
  /-- The last poll improved on the incumbent. -/
  improved : Bool
  /-- What the last poll came to. -/
  outcome : PollOutcome n

/-- The state of a mesh search, whose incumbent is a point of the space. -/
abbrev State (α : Type) (n : Nat) : Type := StateOn α n (Point α n)

namespace StateOn

variable {α : Type} {n : Nat} {P Q : Type}

/-- The state with another incumbent, which has the same values. -/
def withPoint (st : StateOn α n P) (point : Q) : StateOn α n Q := { st with point }

variable [Scalar α]

/-- Whether the slope is within the tolerance. A slope that was never
estimated counts as infinite, and is within an infinite tolerance only. -/
def isFlat (st : StateOn α n P) : Bool :=
  match st.slope with
  | some slope => le slope st.tolerance
  | none => isInfinity st.tolerance

/-- Whether the mesh is as fine as asked for. -/
def isSmall (o : Options α) (st : StateOn α n P) : Except Fault Bool :=
  if o.stopWhenSmall then o.smallStep.map fun bound => (Number.real st.mesh).le bound
  else .ok false

/-- The search has reached what it was after: a fine mesh, or a poll
without success on flat ground. -/
def isSettled (o : Options α) (st : StateOn α n P) : Except Fault Bool :=
  (st.isSmall o).map fun small => small || (!st.improved && st.isFlat)

end StateOn

/-- The smallest of the widths `upper - lower`, undefined if one is. -/
def narrowest {α : Type} [Scalar α] {n : Nat} (lower upper : Point α n) : Option α :=
  match (Point.sub upper lower).toList with
  | [] => none
  | w :: ws => some (ws.foldl minimum w)

/-- The stall tolerance, by the first objective value. -/
def stallTolerance {α : Type} [Scalar α] (o : Options α) (value : α) : Except Fault α := do
  let relative ← o.relative.toScalar
  let absolute ← o.absolute.toScalar
  return absolute + abs value * relative

/-- **The mesh to start with**: one, or a tenth of the narrowest pair of
bounds if that is less. -/
def startMesh {α : Type} [Scalar α] {n : Nat} (lower upper : Point α n) : α :=
  match narrowest lower upper with
  | none => one
  | some w => least one (w / ofInt 10)

end DirectSearch.MeshSearch
