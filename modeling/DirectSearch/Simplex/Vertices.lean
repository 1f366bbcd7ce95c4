import DirectSearch.Coordinates
import DirectSearch.Sorting.RunSort
/-!
# Simplex — the vertices

A simplex in `n` dimensions has `n + 1` vertices, and is kept with the
best one first and the worst one last. The centroid that a search
reflects in is that of all vertices but the worst.

Vertices put together by hand may be more than `n + 1`. The extra ones
come behind the worst, and take part in sorting, in the mean and in the
measures, but no step replaces them.
-/

namespace DirectSearch.Simplex

open Scalar

/-- A point and the value of the objective there. -/
structure Vertex (α P : Type) where
  point : P
  value : α

/-- The vertices of a simplex in `n` dimensions, and extra ones. -/
abbrev Vertices (α : Type) (n : Nat) (P : Type) (extra : Nat) : Type :=
  Vector (Vertex α P) (n + 1 + extra)

variable {α : Type} [Scalar α] {n : Nat} {P : Type} {extra k : Nat}

/-- One vertex is strictly better than another. -/
def Vertex.isBetter (v w : Vertex α P) : Bool := lt v.value w.value

/-- The way in which vertices are sorted. A vertex compares with others
if its value is defined. -/
def Vertex.sorter : Sorter (Vertex α P) := .byRuns isBetter fun v => !isUndefined v.value

/-- The vertices from the best to the worst. -/
def sortVertices (vs : Vector (Vertex α P) k) : Vector (Vertex α P) k :=
  Vertex.sorter.onVector vs

theorem toList_sortVertices (vs : Vector (Vertex α P) k) : (sortVertices vs).toList =
    Sorting.sorted Vertex.isBetter (fun v => !isUndefined v.value) vs.toList :=
  Vertex.sorter.toList_onVector vs

namespace Vertices

/-! ## Places -/

/-- The best vertex. -/
def best (vs : Vertices α n P extra) : Vertex α P := vs[0]

/-- The worst vertex of the simplex. -/
def worst (vs : Vertices α n P extra) : Vertex α P := vs[n]

/-- The last vertex of all: the worst one, where there is none extra. -/
def last (vs : Vertices α n P extra) : Vertex α P := vs[n + extra]

/-- The worst vertex but one, or the best one if there is no other. -/
def nextToWorst (vs : Vertices α n P extra) : Vertex α P := vs[n - 1]

/-- The `i`-th vertex behind the best one. -/
def other (vs : Vertices α n P extra) (i : Fin n) : Vertex α P := vs[i.val + 1]

/-- The vertices behind the best one. -/
def others (vs : Vertices α n P extra) : List (Vertex α P) := vs.toList.tail

/-- The vertices with the worst one replaced. -/
def replaceWorst (vs : Vertices α n P extra) (v : Vertex α P) : Vertices α n P extra :=
  vs.set n v

/-- The vertices with the `i`-th behind the best one replaced. -/
def replaceOther (vs : Vertices α n P extra) (i : Fin n) (v : Vertex α P) :
    Vertices α n P extra := vs.set (i.val + 1) v

/-! ## Measures -/

/-- The mean of the values. -/
def meanValue (vs : Vertices α n P extra) : α := mean (vs.toList.map (·.value))

section

variable [Coordinates α P]

/-- The centroid of all vertices but the worst. -/
def centroid (vs : Vertices α n P extra) : Except Fault P :=
  Coordinates.centroid ((vs.toList.take n).map (·.point))

/-- The distance from the best vertex to the last. -/
def diameter (vs : Vertices α n P extra) : Except Fault α :=
  Coordinates.distance vs.last.point vs.best.point

/-- The distance from the best vertex to the nearest other one. -/
def nearest (vs : Vertices α n P extra) : Except Fault α :=
  (vs.others.mapM fun v => Coordinates.distance v.point vs.best.point).map fun
    | [] => zero
    | d :: ds => ds.foldl least d

end

end Vertices

/-- **The simplex around a point**: the point itself, and for every axis
the point moved along it, by a twentieth of its coordinate, or by `2⁻¹³`
where that is zero. -/
def around (x : Point α n) : Vector (Point α n) (n + 1) :=
  Vector.ofFn fun j =>
    if h : 0 < j.val then
      let i : Fin n := ⟨j.val - 1, by omega⟩
      Point.shift x i
        (if same (x.get i) zero then one / ofInt (Int.pow 2 13) else one / ofInt 20 * x.get i)
    else x

end DirectSearch.Simplex
