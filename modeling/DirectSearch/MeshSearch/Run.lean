import DirectSearch.MeshSearch.Poll
import DirectSearch.Problem.Statement
import DirectSearch.Search.Method
import DirectSearch.Settings
/-!
# Mesh search — setting up and running

A mesh search is set up from a problem, a starting point, a table of
settings and a sequence of directions, and is then a method for the
driving loop. The evaluation budget is a whole number: two hundred
evaluations for each variable unless told otherwise.
-/

namespace DirectSearch

namespace MeshSearch

open Scalar

/-- A row of the journal. -/
structure Row (α : Type) (n : Nat) where
  iteration : Int
  evaluations : Nat
  value : α
  violation : α
  mesh : α
  weight : α
  /-- The outcome of the poll before the row; the first row has none. -/
  outcome : Option (PollOutcome n)
  improved : Bool

end MeshSearch

/-- A mesh search that is ready to run. -/
structure MeshSearch (α : Type) (n : Nat) where
  problem : Problem α n
  start : Point α n
  options : MeshSearch.Options α
  budgets : Budgets α
  /-- The directions that the search will draw. -/
  directions : MeshSearch.Directions α

namespace MeshSearch

variable {α : Type} [Scalar α] {n : Nat}

open Scalar

/-- The row that describes a session. -/
def rowOf (s : Session α (Row α n) (State α n)) (report : Option (PollReport α n)) :
    Row α n :=
  { iteration := s.iterations
    evaluations := s.tally.counters.objective
    value := s.state.value
    violation := s.state.violation
    mesh := s.state.mesh
    weight := s.state.weight
    outcome := report.map (·.outcome)
    improved := s.state.improved }

/-- The status of a run that ends in this state. The tests are made in
another order than in the loop, and the last one names the budget. -/
def verdict {P : Type} (o : Options α) (b : Budgets α)
    (s : Session α (Row α n) (StateOn α n P)) (exhausted : Bool) : Except Fault Status := do
  if ← s.state.isSmall o then return .smallStep
  else if s.state.isFlat then return .stalled
  else if exhausted then b.status s.tally.counters.objective s.elapsed
  else return .unknown

/-- **The mesh search as a method of the driving loop.** -/
def method (m : MeshSearch α n) : Method α n (Row α n) (State α n) (PollReport α n) :=
  { kind := .mesh
    name := SearchKind.mesh.name
    budgets := m.budgets
    initial := initial m.problem m.options m.directions m.start
    iterate := poll m.problem m.options m.directions
    entry := rowOf
    settled := fun s => s.state.isSettled m.options
    verdict := verdict m.options m.budgets
    solution := fun st => st.point
    objective := fun st => st.value
    violation := fun st => some st.violation
    restarts := fun _ => none }

/-! ## Set-up -/

/-- The options that a table of settings states. -/
def optionsOf (s : Settings) : Options Float :=
  { absolute := (s.get "atol").toNumber
    relative := (s.get "rtol").toNumber
    greedy := (s.get "greedy").isSet
    stopWhenSmall := (s.get "stop_with_small_step").isSet
    smallStep := (s.get "steptol").toNumber
    estimateSlope := (s.get "estimate_slope").isSet }

/-- The evaluation budget of a search in `n` variables. -/
def evaluationBudget (n : Nat) (s : Settings) : Except Fault Int :=
  let limit := s.get "max_eval"
  if limit.isPresent then limit.toWhole else .ok (200 * n)

/-- A mesh search set up from its settings with the directions that it is
given, at the given start or at the problem's own. The start is read before
the directions, and the budget after them. -/
def setUpAlong (p : Problem Float n) (x : Option (Entries Float)) (s : Settings)
    (directions : Except Fault (Directions Float)) : Except Fault (MeshSearch Float n) := do
  let start ← p.startAt x
  let directions ← directions
  let evaluations ← evaluationBudget n s
  return {
    problem := p
    start
    options := optionsOf s
    budgets := {
      evaluations := .ok (some (.whole evaluations))
      time := (s.get "max_time").toNumber
      iterations := (s.get "max_iter").toNumber? }
    directions }

end MeshSearch

end DirectSearch
