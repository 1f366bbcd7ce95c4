import DirectSearch.Search.Session
import DirectSearch.SimplexSearch.State
/-!
# Simplex search — the first state and the iteration

An iteration has three parts. First a step is tried: a reflection, and
depending on its value an expansion or a contraction; a step that is
accepted replaces the worst vertex. Then, if restarts are on and left,
the simplex is examined for stagnation and may be rebuilt around its best
vertex, along the axes and against the simplex gradient. Last, if no step
was accepted and the simplex was not rebuilt, all vertices move halfway
to the best one.

How vertices are sorted is a parameter of the first state and of the
iteration (`initialBy`, `iterateBy`); the search itself sorts them in the
way of `Vertex.sorter`.
-/

namespace DirectSearch.SimplexSearch

open Scalar Session Simplex

variable {α : Type} [Scalar α] {n : Nat} {P : Type} [Coordinates α P] {extra : Nat} {ρ : Type}

/-- The objective at a point, as a vertex. -/
def vertexAt (p : Problem α n) (x : P) : Evaluating α (Vertex α P) := do
  return ⟨x, ← p.objectiveAt (Coordinates.toGrid x)⟩

/-- The vertices evaluated one after the other. -/
def evaluateAll (p : Problem α n) {k : Nat} (xs : Vector P k) :
    Evaluating α (Vector (Vertex α P) k) := xs.mapM (vertexAt p)

/-- The first state, its vertices sorted in a given way. -/
def initialBy (sorter : Sorter (Vertex α (Point α n))) (p : Problem α n)
    (xs : Vector (Point α n) (n + 1)) : Step α ρ Unit (State α n) := do
  let vs ← evaluate (evaluateAll p xs)
  let vs : Vertices α n (Point α n) 0 := sorter.onVector vs
  let diameter ← demand vs.diameter
  return { vertices := vs, mean := vs.meanValue, restarts := 0, diameter }

/-- The first state. -/
def initial (p : Problem α n) (xs : Vector (Point α n) (n + 1)) : Step α ρ Unit (State α n) :=
  initialBy Vertex.sorter p xs

/-! ## The step -/

/-- The point of the line through centroid and worst vertex, by the
stated weight of the worst vertex. -/
def trial (vs : Vertices α n P extra) (weight : Stated α) : Except Fault P := do
  let centroid ← vs.centroid
  let c ← weight
  let away ← c.complement.toScalar
  let towards ← c.toScalar
  Coordinates.blend away centroid towards vs.worst.point

/-- The trial as a vertex. -/
def tryVertex (p : Problem α n) (vs : Vertices α n P extra) (weight : Stated α) :
    Evaluating α (Vertex α P) := do
  vertexAt p (← demand (trial vs weight))

/-- The step that an iteration tries, and the vertex that is to replace
the worst one; no vertex if the simplex is to shrink. -/
def tryStep (p : Problem α n) (o : Options α) (vs : Vertices α n P extra) :
    Evaluating α (Move × Option (Vertex α P)) := do
  let reflected ← tryVertex p vs o.reflection
  if le vs.best.value reflected.value && lt reflected.value vs.nextToWorst.value then
    return (.reflection, some reflected)
  else if lt reflected.value vs.best.value then
    let expanded ← tryVertex p vs o.expansion
    if lt expanded.value reflected.value then return (.expansion, some expanded)
    else return (.reflection, some reflected)
  else if le vs.nextToWorst.value reflected.value then
    if lt reflected.value vs.worst.value then
      let contracted ← tryVertex p vs o.outside
      if le contracted.value reflected.value then
        return (.outsideContraction, some contracted)
      else return (.shrink, none)
    else
      let contracted ← tryVertex p vs o.inside
      if lt contracted.value vs.worst.value then
        return (.insideContraction, some contracted)
      else return (.shrink, none)
  else return (.shrink, none)

/-- The vertices after a step, sorted in a given way. -/
def acceptBy (sorter : Sorter (Vertex α P)) (vs : Vertices α n P extra) :
    Option (Vertex α P) → Vertices α n P extra
  | some v => sorter.onVector (vs.replaceWorst v)
  | none => sorter.onVector vs

/-- The vertices after a step, sorted. -/
def accept (vs : Vertices α n P extra) (accepted : Option (Vertex α P)) : Vertices α n P extra :=
  acceptBy Vertex.sorter vs accepted

omit [Coordinates α P] in
theorem accept_some (vs : Vertices α n P extra) (v : Vertex α P) :
    accept vs (some v) = sortVertices (vs.replaceWorst v) := rfl

/-! ## The restart -/

/-- **Stagnation.** The mean has fallen, but by no more than the required
share of the squared gradient; or the edges do not span the space. A
simplex with a vertex on top of the best one does not count: it could
only be rebuilt with radius zero. -/
def stagnates (o : Options α) (before now radius : α) (g : Gradient α n) : Except Fault Bool :=
  if same radius zero then .ok false
  else if g.singular then .ok true
  else do
    let share ← (← o.decrease).neg.toScalar
    let change := now - before
    return le (share * Point.dot g.vector g.vector) change && lt change zero

/-- Whether the search may rebuild the simplex once more. The limit is
looked at only if it rebuilds at all. -/
def mayRestart (o : Options α) (restarts : Int) : Except Fault Bool :=
  if o.orientedRestart then o.maxRestart.map fun limit => (Number.whole restarts).lt limit
  else .ok false

/-- Minus one for a negative number, one for any other. -/
def orientation (c : α) : α := if lt c zero then -one else one

/-- The vertex of a rebuilt simplex along an axis. -/
def rebuiltPoint {k : Nat} (best : P) (g : Point α k) (radius : α) (i : Nat) : Except Fault P :=
  if h : i < k then Coordinates.shift best i (orientation g[i] * radius / two)
  else .error .indexOutside

/-- One vertex after the other evaluated and put in place. -/
def replaceEach (p : Problem α n) (place : Vertices α n P extra → Fin n → Except Fault P) :
    List (Fin n) → Step α ρ (StateOn α n P extra) Unit
  | [] => pure ()
  | i :: is => do
    let st ← getState
    let x ← demand (place st.vertices i)
    let v ← evaluate (vertexAt p x)
    modifyState fun st => { st with vertices := st.vertices.replaceOther i v }
    replaceEach p place is

/-- Stagnation looked for, and the simplex rebuilt if it is found:
whether it was. -/
def considerRestart (p : Problem α n) (o : Options α) : Step α ρ (StateOn α n P extra) Bool := do
  let st ← getState
  if ← demand (mayRestart o st.restarts) then
    let now := st.vertices.meanValue
    let radius ← demand st.vertices.nearest
    let ⟨_, g⟩ ← demand (gradientOf st.vertices.toList)
    let rebuild ← demand (stagnates o st.mean now radius g)
    if rebuild then
      let best := st.vertices.best.point
      replaceEach p (fun _ i => rebuiltPoint best g.vector radius i.val) (List.finRange n)
      modifyState fun st => { st with restarts := st.restarts + 1 }
      let restarts := (← getState).restarts
      fun s => report (.restarted restarts s.iterations radius g.singular) s
    modifyState fun st => { st with mean := now }
    return rebuild
  else return false

/-! ## The iteration -/

/-- All vertices moved halfway to the best one. -/
def shrink (p : Problem α n) : Step α ρ (StateOn α n P extra) Unit :=
  replaceEach p (fun vs i => Coordinates.midpoint (vs.other i).point vs.best.point)
    (List.finRange n)

/-- What an iteration reports. -/
structure MoveReport where
  move : Move
  shrunk : Bool
  restarted : Bool

/-- **One iteration,** in which vertices are sorted in a given way. -/
def iterateBy (sorter : Sorter (Vertex α P)) (p : Problem α n) (o : Options α) :
    Step α ρ (StateOn α n P extra) MoveReport := do
  let before ← getState
  let (move, accepted) ← evaluate (tryStep p o before.vertices)
  modifyState fun st => { st with vertices := acceptBy sorter st.vertices accepted }
  let restarted ← considerRestart p o
  let shrunk := accepted.isNone && !restarted
  if shrunk then shrink p
  countIteration
  modifyState fun st => { st with vertices := sorter.onVector st.vertices }
  let diameter ← demand (← getState).vertices.diameter
  modifyState fun st => { st with diameter }
  return { move := if restarted then .orientedRestart else move, shrunk, restarted }

/-- **One iteration.** -/
def iterate (p : Problem α n) (o : Options α) : Step α ρ (StateOn α n P extra) MoveReport :=
  iterateBy Vertex.sorter p o

end DirectSearch.SimplexSearch
