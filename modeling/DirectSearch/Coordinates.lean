import DirectSearch.Point
/-!
# Coordinates — what a search needs of the points that it holds

A search holds points of its space, and what it does with them cannot
fail. It can also be made to hold arrays of any shape in their place:
two of them may not fit each other, and an array may lack an axis that is
to be moved along. `Coordinates` is what both have in common, and
`Includes` says that the points of a space are among them.

Whatever is built on it never fails at points; the lemmas at the end say
what it comes to there.
-/

namespace DirectSearch

open Scalar

/-- Points, in a wide sense, with coordinates in a scalar type. -/
class Coordinates (α : outParam Type) (P : Type) where
  /-- The point as an array. -/
  toGrid : P → Grid α
  /-- A neutral point to start a sum with. -/
  origin : P
  /-- Every coordinate changed. -/
  map : (α → α) → P → P
  /-- Two points combined, coordinate by coordinate. -/
  zipWith : (α → α → α) → P → P → Except Fault P
  /-- A point moved along one axis. -/
  shift : P → Nat → α → Except Fault P

/-- The points of `n`-dimensional space are among the points of `P`. -/
class Includes (α : outParam Type) (n : Nat) (P : Type) where
  ofPoint : Point α n → P

variable {α : Type} [Scalar α] {n : Nat}

instance : Coordinates α (Point α n) where
  toGrid := Point.toGrid
  origin := Point.origin
  map f x := Vector.map f x
  zipWith f x y := .ok (Vector.zipWith f x y)
  shift x i c := if h : i < n then .ok (Point.shift x ⟨i, h⟩ c) else .error .indexOutside

instance : Includes α n (Point α n) := ⟨id⟩

instance : Coordinates α (Grid α) where
  toGrid := id
  origin := .ofScalar zero
  map := Grid.map
  zipWith := Grid.zipWith
  shift g i c := g.modifyRow (· + c) i

instance : Includes α n (Grid α) := ⟨Point.toGrid⟩

namespace Coordinates

variable {P : Type} [Coordinates α P]

/-- The Euclidean length. -/
def norm (x : P) : α := sqrt (sum ((toGrid x).entries.map square))

/-- The Euclidean distance. -/
def distance (x y : P) : Except Fault α := (zipWith (· - ·) x y).map norm

/-- The point with weight `u` on `x` and `v` on `y`. -/
def blend (u : α) (x : P) (v : α) (y : P) : Except Fault P :=
  zipWith (fun a b => a * u + v * b) x y

/-- The point halfway between two points. -/
def midpoint (x y : P) : Except Fault P := (zipWith (· + ·) x y).map (map (· / two))

/-- The mean of a list of points, summed from the origin. -/
def centroid (xs : List P) : Except Fault P :=
  (xs.foldlM (zipWith (· + ·)) origin).map (map (· / ofInt xs.length))

/-! ## At points -/

omit [Coordinates α P] in
@[simp] theorem size_toGrid_point (x : Point α n) : (toGrid x).size = n := by
  simp [toGrid, Point.toGrid, Grid.ofList, Grid.size]

@[simp] theorem shift_point (x : Point α n) (i : Fin n) (c : α) :
    shift x i.val c = .ok (Point.shift x i c) := dif_pos i.isLt

@[simp] theorem norm_point (x : Point α n) : norm x = Point.norm x := by
  simp only [norm, Point.norm, Point.dot, Vector.zipWith_self, Vector.toList_map]
  rfl

@[simp] theorem distance_point (x y : Point α n) : distance x y = .ok (Point.distance x y) :=
  congrArg Except.ok (norm_point _)

@[simp] theorem blend_point (u : α) (x : Point α n) (v : α) (y : Point α n) :
    blend u x v y = .ok (Point.blend u x v y) := rfl

@[simp] theorem midpoint_point (x y : Point α n) : midpoint x y = .ok (Point.midpoint x y) := rfl

@[simp] theorem centroid_point (xs : List (Point α n)) :
    centroid xs = .ok (Point.centroid xs) := by
  have h (ys : List (Point α n)) (y : Point α n) :
      ys.foldlM (zipWith (· + ·)) y = Except.ok (ε := Fault) (ys.foldl Point.add y) := by
    induction ys generalizing y with
    | nil => rfl
    | cons z zs ih => exact ih _
  simp only [centroid, h]
  rfl

end Coordinates

end DirectSearch
