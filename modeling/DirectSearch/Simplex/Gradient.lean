import DirectSearch.Entries
import DirectSearch.Simplex.Vertices
/-!
# Simplex — the simplex gradient

The gradient of the linear function that takes the values of the vertices
solves one equation for each edge leaving the first vertex: the edge
times the gradient is the difference of the values. The equations are
solved by elimination with partial pivoting: in every column the equation
with the largest coefficient is used to clear the others, the first one
if several are largest. A zero pivot, data that is not finite, a number of
edges other than the dimension, and a result that is not finite are
reported as a singular system.
-/

namespace DirectSearch.Simplex

open Scalar

variable {α : Type} [Scalar α] {n : Nat}

/-- A linear equation. -/
structure Equation (α : Type) (n : Nat) where
  coefficients : Point α n
  right : α

namespace Equation

/-- A multiple of the pivot equation taken away, so that the coefficient
in column `k` goes. -/
def clear (k : Fin n) (pivot e : Equation α n) : Equation α n :=
  let c := e.coefficients.get k / pivot.coefficients.get k
  { coefficients := Vector.zipWith (fun a b => a - c * b) e.coefficients pivot.coefficients
    right := e.right - c * pivot.right }

end Equation

/-! ## Elimination -/

/-- The place of the equation with the largest coefficient in column `k`,
given the best place so far and its size. -/
def largestFrom (k : Fin n) : List (Equation α n) → Nat → Nat → α → Nat
  | [], _, best, _ => best
  | e :: es, i, best, size =>
    let c := abs (e.coefficients.get k)
    if lt size c then largestFrom k es (i + 1) i c else largestFrom k es (i + 1) best size

/-- The pivot equation for column `k` and the others. The first equation
takes the place of the pivot. -/
def choosePivot (k : Fin n) : List (Equation α n) → Option (Equation α n × List (Equation α n))
  | [] => none
  | e :: es =>
    match largestFrom k es 1 0 (abs (e.coefficients.get k)) with
    | 0 => some (e, es)
    | i + 1 => match es[i]? with
      | some pivot => some (pivot, es.set i e)
      | none => none

/-- The pivot equations, column by column; none if a pivot is zero. -/
def eliminate : List (Fin n) → List (Equation α n) → Option (List (Fin n × Equation α n))
  | [], _ => some []
  | k :: ks, es => do
    let (pivot, others) ← choosePivot k es
    if same (pivot.coefficients.get k) zero then none
    else
      let rest ← eliminate ks (others.map (Equation.clear k pivot))
      return (k, pivot) :: rest

/-- The unknowns of the pivot equations, the last one first. -/
def substitute : List (Fin n × Equation α n) → List (Fin n × α)
  | [] => []
  | (k, e) :: rest =>
    let known := substitute rest
    let right := known.foldl (fun b (j, x) => b - e.coefficients.get j * x) e.right
    known ++ [(k, right / e.coefficients.get k)]

/-- The solution of a system of `n` equations, if elimination finds
one. -/
def solveLinear (es : List (Equation α n)) : Option (Point α n) := do
  let pivots ← eliminate (List.finRange n) es
  let known := substitute pivots
  return Vector.ofFn fun i => (known.lookup i).getD zero

/-! ## The gradient -/

/-- A simplex gradient, or the zero vector of a singular system. -/
structure Gradient (α : Type) (n : Nat) where
  vector : Point α n
  singular : Bool

namespace Gradient

/-- The answer to a singular system. -/
def degenerate : Gradient α n := ⟨Point.origin, true⟩

end Gradient

/-- The equation of the edge from one vertex to another. -/
def edge (first other : Vertex α (Point α n)) : Equation α n :=
  ⟨Point.sub other.point first.point, other.value - first.value⟩

/-- The gradient that equations determine, if there are as many as
unknowns and all is finite. -/
def solved (edges : List (Equation α n)) : Gradient α n :=
  if edges.length = n && edges.all (fun e => e.coefficients.isFinite && isFinite e.right) then
    match solveLinear edges with
    | some x => if Point.isFinite x then ⟨x, false⟩ else .degenerate
    | none => .degenerate
  else .degenerate

/-- **The simplex gradient** at the first vertex. -/
def gradient (first : Vertex α (Point α n)) (others : List (Vertex α (Point α n))) :
    Gradient α n := solved (others.map (edge first))

/-! ## Points in a wider sense -/

/-- The columns of an array with one or two axes. A number is a column of
its own. -/
def columns (g : Grid α) : Except Fault (List (List α)) :=
  match g.shape with
  | [] | [_] => .ok [g.entries]
  | [rows, count] => .ok ((List.range count).map fun j =>
      (List.range rows).filterMap fun i => g.entries[i * count + j]?)
  | _ => .error .shapesDiffer

/-- The gradient that columns of one length determine, with the
differences of the values. -/
def solvedColumns (n : Nat) (columns : List (List α)) (differences : List α) :
    Except Fault (Gradient α n) := do
  let rows ← columns.mapM (sized .shapesDiffer n)
  return if rows.length = differences.length then solved (List.zipWith Equation.mk rows differences)
    else .degenerate

/-- The columns of the edges from one vertex to others. -/
def edgeColumns {P : Type} [Coordinates α P] (first : Vertex α P) (others : List (Vertex α P)) :
    Except Fault (List (List α)) := do
  let edges ← others.mapM fun v => Coordinates.zipWith (· - ·) v.point first.point
  return (← (edges.map Coordinates.toGrid).mapM columns).flatten

/-- The simplex gradient of vertices whose points may not fit each other,
with its size. There must be an edge, and all edges must have the same
size. -/
def gradientOf {P : Type} [Coordinates α P] :
    List (Vertex α P) → Except Fault ((n : Nat) × Gradient α n)
  | [] => .error .indexOutside
  | [_] => .error .noEdges
  | first :: others => do
    let columns ← edgeColumns first others
    let n := (columns.headD []).length
    let g ← solvedColumns n columns (others.map fun v => v.value - first.value)
    return if g.singular then ⟨(Coordinates.toGrid first.point).size, .degenerate⟩ else ⟨n, g⟩

/-- A singular system has the answer zero. -/
theorem solved_eq_degenerate {edges : List (Equation α n)} (h : (solved edges).singular) :
    solved edges = .degenerate := by
  unfold solved at h ⊢
  split
  · rename_i regular
    rw [if_pos regular] at h
    split at h
    · split at h
      · cases h
      · rename_i infinite
        exact if_neg infinite
    · rfl
  · rfl

theorem solvedColumns_point (first : Vertex α (Point α n)) (others : List (Vertex α (Point α n))) :
    solvedColumns n (others.map fun v => (Point.sub v.point first.point).toList)
      (others.map fun v => v.value - first.value) = .ok (gradient first others) := by
  have rows : (others.map fun v => (Point.sub v.point first.point).toList).mapM
      (sized Fault.shapesDiffer n)
        = .ok (others.map fun v => Point.sub v.point first.point) := by
    rw [List.mapM_map]
    simp only [Function.comp_def, sized_toList]
    exact List.mapM_pure
  simp only [solvedColumns, rows, bind, Except.bind, List.length_map, if_true, pure, Except.pure,
    gradient, List.zipWith_map, List.zipWith_self]
  rfl

theorem edgeColumns_point (first : Vertex α (Point α n)) (others : List (Vertex α (Point α n))) :
    edgeColumns first others
      = .ok (others.map fun v => (Point.sub v.point first.point).toList) := by
  have edges : others.mapM (fun v => Coordinates.zipWith (· - ·) v.point first.point)
      = Except.ok (ε := Fault) (others.map fun v => Point.sub v.point first.point) :=
    List.mapM_pure
  have grids : ((others.map fun v => Point.sub v.point first.point).map
      Coordinates.toGrid).mapM columns
        = .ok (others.map fun v => [(Point.sub v.point first.point).toList]) := by
    rw [List.map_map, List.mapM_map]
    exact List.mapM_pure
  simp only [edgeColumns, edges, grids, bind, Except.bind, pure, Except.pure]
  rw [← List.flatMap_def, List.map_eq_flatMap]

/-- At points of one space it is the simplex gradient. -/
theorem gradientOf_point (first : Vertex α (Point α n)) {others : List (Vertex α (Point α n))}
    (h : others ≠ []) : gradientOf (first :: others) = .ok ⟨n, gradient first others⟩ := by
  obtain ⟨v, vs, rfl⟩ := List.exists_cons_of_ne_nil h
  have size : (((v :: vs).map fun v => (Point.sub v.point first.point).toList).headD []).length
      = n := by simp
  simp only [gradientOf, edgeColumns_point, bind, Except.bind]
  rw [size, solvedColumns_point]
  dsimp only [pure, Except.pure]
  split
  · rename_i singular
    rw [gradient] at singular ⊢
    rw [solved_eq_degenerate singular, Coordinates.size_toGrid_point]
  · rfl

end DirectSearch.Simplex
