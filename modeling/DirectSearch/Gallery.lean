import DirectSearch.Grid
import DirectSearch.Number
import DirectSearch.Scalar.Binary64
/-!
# Gallery — functions to try a search on

Two functions of the plane with known minima, and a constraint that keeps
a point inside a circle. They take arrays; what an index along the first
axis leads to must be a number.
-/

namespace DirectSearch.Gallery

/-- Half the circumference of the unit circle. -/
def pi : Float := 3.141592653589793

/-- The two coordinates of a point of the plane. -/
def plane (point : Grid Float) : Except Fault (Float × Float) :=
  match point.shape with
  | [] => .error .wrongType
  | 2 :: _ => do return (← (← point.row 0).single, ← (← point.row 1).single)
  | _ => .error .planeExpected

/-- The curved valley `(a - x)² + b (y - x²)²`, whose minimum `0` lies at
`(a, a²)`. -/
def rosenbrock (a b : Number Float) (point : Grid Float) : Except Fault Float := do
  let a ← a.toScalar
  let b ← b.toScalar
  let (x, y) ← plane point
  let u := a - x
  let v := y - x * x
  return u * u + b * (v * v)

/-- The Branin function, whose minimum is taken at three points of
`[-5, 10] × [0, 15]`. Its cosine has no value at an infinite abscissa. -/
def branin (point : Grid Float) : Except Fault Float := do
  let (x, y) ← plane point
  if x.isInf then throw .cosineOfInfinity
  let b := 5.1 / (4.0 * (pi * pi))
  let c := 5.0 / pi
  let t := 1.0 / (8.0 * pi)
  let u := y - b * (x * x) + c * x - 6.0
  return 1.0 * (u * u) + 10.0 * (1.0 - t) * x.cos + 10.0

/-- The square of a number; that of a finite one must be finite. -/
def squareOf (x : Float) : Except Fault Float :=
  if x.isFinite && !(x * x).isFinite then .error .overflow else .ok (x * x)

/-- `x² + y² - r²`, not positive inside the circle of radius `r` around
the origin; further coordinates do not matter. -/
def circle (r : Number Float) (point : Grid Float) : Except Fault Float := do
  let r ← r.toScalar
  let x ← point.row 0
  let y ← point.row 1
  let square ← squareOf r
  let (x, y) := (← x.single, ← y.single)
  return x * x + y * y - square

end DirectSearch.Gallery
