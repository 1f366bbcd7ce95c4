import DirectSearch.Grid
import DirectSearch.Scalar.Basic
/-!
# Points — vectors of scalars

A point of an `n`-dimensional search space, with the few operations the
searches use. Products and norms are sums from left to right, so that
their value is fixed down to the rounding.
-/

namespace DirectSearch

/-- A point of an `n`-dimensional space. -/
abbrev Point (α : Type) (n : Nat) : Type := Vector α n

namespace Point

variable {α : Type} {n : Nat}

/-- The point as an array with one axis. -/
def toGrid (x : Point α n) : Grid α := .ofList x.toList

variable [Scalar α]

open Scalar

/-- The origin. -/
def origin : Point α n := Vector.replicate n zero

/-- The difference, entry by entry. -/
def sub (x y : Point α n) : Point α n := Vector.zipWith (· - ·) x y

/-- The sum, entry by entry. -/
def add (x y : Point α n) : Point α n := Vector.zipWith (· + ·) x y

/-- Every entry divided by a scalar. -/
def quotient (x : Point α n) (c : α) : Point α n := x.map (· / c)

/-- The inner product. -/
def dot (x y : Point α n) : α := sum (Vector.zipWith (· * ·) x y).toList

/-- The Euclidean length. -/
def norm (x : Point α n) : α := sqrt (dot x x)

/-- The Euclidean distance. -/
def distance (x y : Point α n) : α := norm (sub x y)

/-- One entry moved by `c`. -/
def shift (x : Point α n) (i : Fin n) (c : α) : Point α n := x.set i.val (x.get i + c) i.isLt

/-- The point with weight `u` on `x` and `v` on `y`. -/
def blend (u : α) (x : Point α n) (v : α) (y : Point α n) : Point α n :=
  Vector.zipWith (fun a b => a * u + v * b) x y

/-- The point halfway between two points. -/
def midpoint (x y : Point α n) : Point α n := (add x y).quotient two

/-- The mean of a list of points, summed from the origin. -/
def centroid (xs : List (Point α n)) : Point α n :=
  (xs.foldl add origin).quotient (ofInt xs.length)

/-- Every entry is finite. -/
def isFinite (x : Point α n) : Bool := x.all Scalar.isFinite

end Point

end DirectSearch
