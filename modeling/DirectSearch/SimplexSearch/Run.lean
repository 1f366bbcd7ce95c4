import DirectSearch.Problem.Statement
import DirectSearch.Search.Method
import DirectSearch.Settings
import DirectSearch.SimplexSearch.Iterate
/-!
# Simplex search — setting up and running

A simplex search is set up from a problem, a starting point and a table
of settings, which may state all `n + 1` vertices to start with. It is
then a method for the driving loop, and has converged when the distance
from the best vertex to the worst is below the tolerance.
-/

namespace DirectSearch

namespace SimplexSearch

/-- A row of the journal. -/
structure Row (α : Type) where
  iteration : Int
  evaluations : Nat
  value : α
  diameter : α
  /-- The move before the row; the first row has none. -/
  move : Option Move

end SimplexSearch

/-- A simplex search that is ready to run. -/
structure SimplexSearch (α : Type) (n : Nat) where
  problem : Problem α n
  vertices : Vector (Point α n) (n + 1)
  options : SimplexSearch.Options α
  budgets : Budgets α

namespace SimplexSearch

open Simplex

section

variable {α : Type} [Scalar α] {n : Nat}

open Scalar

/-- The row that describes a session. -/
def rowOf (s : Session α (Row α) (State α n)) (report : Option MoveReport) : Row α :=
  { iteration := s.iterations
    evaluations := s.tally.counters.objective
    value := s.state.vertices.best.value
    diameter := s.state.diameter
    move := report.map (·.move) }

/-- The simplex is smaller than the tolerance. -/
def isConverged (o : Options α) (s : Session α (Row α) (State α n)) : Except Fault Bool :=
  o.tolerance.map fun bound => (Number.real s.state.diameter).lt bound

/-- The status of a run that ends in this state. -/
def verdict (o : Options α) (b : Budgets α) (s : Session α (Row α) (State α n))
    (exhausted : Bool) : Except Fault Status := do
  if ← isConverged o s then return .acceptable
  else if exhausted then b.status s.tally.counters.objective s.elapsed
  else return .unknown

/-- The simplex search as a method of the driving loop, where vertices are
sorted in a given way. -/
def methodBy (sorter : Sorter (Vertex α (Point α n))) (m : SimplexSearch α n) :
    Method α n (Row α) (State α n) MoveReport :=
  { kind := .simplex
    name := SearchKind.simplex.name
    budgets := m.budgets
    initial := initialBy sorter m.problem m.vertices
    iterate := iterateBy sorter m.problem m.options
    entry := rowOf
    settled := isConverged m.options
    verdict := verdict m.options m.budgets
    solution := fun st => st.vertices.best.point
    objective := fun st => st.vertices.best.value
    violation := fun _ => none
    restarts := fun st => some st.restarts }

/-- **The simplex search as a method of the driving loop.** -/
def method (m : SimplexSearch α n) : Method α n (Row α) (State α n) MoveReport :=
  m.methodBy Vertex.sorter

end

/-! ## Set-up -/

/-- The options that a table of settings states. -/
def optionsOf (s : Settings) : Options Float :=
  { tolerance := (s.get "tol").toNumber
    reflection := (s.get "ref").toNumber
    expansion := (s.get "exp").toNumber
    outside := (s.get "ocn").toNumber
    inside := (s.get "icn").toNumber
    orientedRestart := (s.get "oriented_restart").isSet
    maxRestart := (s.get "max_restart").toNumber
    decrease := (s.get "alpha").toNumber }

variable {n : Nat}

/-- The parts of a value that states vertices: those of a list, or the
characters of a text. -/
def statedParts : Value → Except Fault (List Value)
  | .absent => .ok []
  | .list parts => .ok parts
  | .text s => .ok (s.toList.map fun c => .text (String.singleton c))
  | .flag _ | .whole _ | .real _ => .error .wrongType

/-- The vertices that a table of settings states, if it states any. There
must be `n + 1` of them, each of size `n`; the number is checked before
the sizes. -/
def statedVertices (n : Nat) (s : Settings) :
    Except Fault (Option (Vector (Point Float n) (n + 1))) := do
  let parts ← statedParts (s.get "vertices")
  if parts.isEmpty then return none
  if parts.length < n + 1 then throw .simplexTooSmall
  if n + 1 < parts.length then throw .simplexTooLarge
  let lists ← parts.mapM fun v => v.toEntries.ravel
  let points ← lists.mapM fun xs => sized (.vertexSize xs.length n) n xs
  return some (← sized .simplexTooLarge (n + 1) points)

/-- A simplex search set up from its settings, at the given start or at
the problem's own. -/
def setUp (p : Problem Float n) (x : Option (Entries Float)) (s : Settings) :
    Except Fault (SimplexSearch Float n) := do
  let start ← p.startAt x
  let vertices := (← statedVertices n s).getD (around start)
  return {
    problem := p
    vertices
    options := optionsOf s
    budgets := {
      evaluations := (s.get "max_eval").toNumber?
      time := (s.get "max_time").toNumber
      iterations := (s.get "max_iter").toNumber? } }

end SimplexSearch

end DirectSearch
