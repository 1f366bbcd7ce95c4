import DirectSearch.MeshSearch.State
import DirectSearch.Search.Session
/-!
# Mesh search — the first state and the poll

A poll goes through the headings in order and appraises one point for
each. Unless it is greedy it ends at the first point whose merit is below
the incumbent's; a greedy poll goes on and keeps the best. The move, the
mesh, the weight, the next direction and at last the incumbent's merit
under the new weight are settled when the scan is over, so that a fault
in the scan leaves them as they were.
-/

namespace DirectSearch.MeshSearch

open Scalar Session

variable {α : Type} [Scalar α] {n : Nat} {ρ : Type}

/-- The directions that a search draws: an array for every size that is
asked for and every count of those drawn before. -/
abbrev Directions (α : Type) : Type := Nat → Nat → Except Fault (Grid α)

/-- The first state: the starting point appraised under weight one, and
the first direction drawn. -/
def initial (p : Problem α n) (o : Options α) (directions : Directions α)
    (start : Point α n) : Step α ρ Unit (State α n) := do
  let a ← evaluate (p.appraise one start)
  let q ← draw (directions n)
  let tolerance ← demand (stallTolerance o a.value)
  return {
    point := a.point
    value := a.value
    violation := a.violation
    merit := a.merit
    weight := one
    mesh := startMesh p.lower p.upper
    streak := 0
    direction := q
    tolerance
    slope := none
    improved := false
    outcome := .none }

/-! ## The scan -/

variable {P : Type} [Coordinates α P] [Includes α n P]

/-- The headings of a poll: those along the axes that the incumbent
has. -/
def headings (n : Nat) (x : P) : List (Heading n) :=
  (Heading.all n).filter fun d => d.axis.val < (Coordinates.toGrid x).size

/-- The point that a heading leads to, where the direction serves and the
incumbent fills the space. -/
def trialPoint (st : StateOn α n P) (d : Heading n) : Except Fault (Point α n) := do
  let step ← Displacement.ofArray n [n] st.direction d.axis.val
    (ofInt (2 * d.sign)) (ofInt d.sign) st.mesh
  return step.apply (← filled n [n] (Coordinates.toGrid st.point))

/-- A point of the space is polled along every axis. -/
theorem headings_point (x : Point α n) : headings n x = Heading.all n := by
  refine List.filter_eq_self.2 fun d _ => ?_
  simp [d.axis.isLt]

/-- The trial from a point of the space along a vector of its size. -/
theorem trialPoint_point (st : State α n) {q : Point α n} (h : st.direction = q.toGrid)
    (d : Heading n) : trialPoint st d = .ok (pointAlong st.point q d.axis d.sign st.mesh) := by
  have whole : filled n [n] (Coordinates.toGrid st.point) = .ok st.point := filled_point _
  simp only [trialPoint, h, Displacement.ofArray_point, whole]
  rfl

/-- The slope from the incumbent to a trial value. The mesh size in the
divisor is at least `2⁻⁵²`. -/
def slopeTo (st : StateOn α n P) (value : α) : α :=
  abs (value - st.value) / greatest st.mesh eps

/-- A trial's slope taken into the running maximum. -/
def noteSlope (slope : α) (st : StateOn α n P) : StateOn α n P :=
  { st with slope := some (greatest (st.slope.getD zero) slope) }

/-- A trial's success put down. -/
def noteDecrease (d : Heading n) (st : StateOn α n P) : StateOn α n P :=
  { st with improved := true, outcome := .decrease d }

/-- The merit that a trial has to beat. -/
def bar (st : StateOn α n P) (best : Option (Appraisal α n)) : α :=
  match best with
  | some a => a.merit
  | none => st.merit

/-- **The scan of the headings** from the incumbent `st`: the trial that
is to become the incumbent, if one improved. -/
def scan (p : Problem α n) (o : Options α) (st : StateOn α n P) :
    List (Heading n) → Option (Appraisal α n) →
      Step α ρ (StateOn α n P) (Option (Appraisal α n))
  | [], best => pure best
  | d :: ds, best => do
    let x ← demand (trialPoint st d)
    let a ← evaluate (p.appraise st.weight x)
    if o.estimateSlope then modifyState (noteSlope (slopeTo st a.value))
    if lt a.merit (bar st best) then
      modifyState (noteDecrease d)
      if o.greedy then scan p o st ds (some a) else pure (some a)
    else scan p o st ds best

/-! ## Mesh and weight -/

/-- The streak after a success. -/
def streakUp (k : Int) : Int := max (k + 1) 1

/-- The streak after a failure. -/
def streakDown (k : Int) : Int := min (k - 1) (-1)

/-- The mesh after the `k`-th success in a row: `4 ^ k` times as wide,
unless the power is out of range. -/
def widened (mesh : α) (k : Nat) : Except Fault α :=
  let power : α := power (ofInt 4) k
  if isFinite power then .ok (mesh * power) else .error .overflow

/-- The mesh after the `k`-th failure in a row: divided by the `k`-th root
of two, unless `k` is out of range. -/
def narrowed (mesh : α) (k : Nat) : Except Fault α :=
  (Number.scalarOfInt k : Except Fault α).map fun _ => mesh / rootOfTwo k

/-- The mesh kept at `2⁻⁵²` or above, unless it may become small. -/
def clamped (o : Options α) (mesh : α) : α :=
  if o.stopWhenSmall then mesh else greatest eps mesh

/-- The state before the scan. -/
def beginPoll (o : Options α) (st : StateOn α n P) : StateOn α n P :=
  { st with
    improved := false
    outcome := .noDecrease
    slope := if o.estimateSlope then some zero else st.slope }

/-- The incumbent moved to a trial, and the streak prolonged. -/
def moveTo (a : Appraisal α n) (st : StateOn α n P) : StateOn α n P :=
  { st with
    point := Includes.ofPoint a.point, value := a.value, violation := a.violation
    streak := streakUp st.streak }

/-- After a success: the incumbent moves, then the mesh widens. -/
def succeed (a : Appraisal α n) : Step α ρ (StateOn α n P) Unit := do
  modifyState (moveTo a)
  let st ← getState
  let mesh ← demand (widened st.mesh st.streak.toNat)
  modifyState fun st => { st with mesh }

/-- After a failure: the mesh narrows, and at a point that violates
something the weight is raised. -/
def fail : Step α ρ (StateOn α n P) Unit := do
  modifyState fun st => { st with streak := streakDown st.streak }
  let st ← getState
  let mesh ← demand (narrowed st.mesh st.streak.natAbs)
  modifyState fun st => { st with mesh }
  if lt zero st.violation then
    let weight := raiseWeight st.weight
    if !same weight st.weight then report (.weightRaised st.weight weight)
    modifyState fun st => { st with weight }

/-- What a poll reports. -/
structure PollReport (α : Type) (n : Nat) where
  accepted : Bool
  meshBefore : α
  mesh : α
  streak : Int
  weight : α
  outcome : PollOutcome n

/-- **One poll.** -/
def poll (p : Problem α n) (o : Options α) (directions : Directions α) :
    Step α ρ (StateOn α n P) (PollReport α n) := do
  let before ← getState
  modifyState (beginPoll o)
  let found ← scan p o before (headings n before.point) none
  match found with
  | some a => succeed a
  | none => fail
  countIteration
  modifyState fun st => { st with mesh := clamped o st.mesh }
  let q ← draw (directions (Coordinates.toGrid before.point).size)
  modifyState fun st =>
    { st with direction := q, merit := merit st.weight st.value st.violation }
  let st ← getState
  return {
    accepted := st.improved
    meshBefore := before.mesh
    mesh := st.mesh
    streak := st.streak
    weight := st.weight
    outcome := st.outcome }

end DirectSearch.MeshSearch
