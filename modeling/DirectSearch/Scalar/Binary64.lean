import DirectSearch.Scalar.Basic
import DirectSearch.Scalar.Exact
/-!
# Scalars — the arithmetic of 64-bit floating point

The instance the programs run at. Sums, products, quotients, square
roots and comparisons are those of `Float`, one rounding each; the root
of two is the platform's power function, which is why it is an operation
of its own and a parameter here. Integers are compared with the exact
value of a float.
-/

namespace DirectSearch

/-- The arithmetic of 64-bit floats with given roots of two. -/
@[reducible] def binary64 (root : Nat → Float) : Extended Float where
  ofInt := Float.ofInt
  sqrt := Float.sqrt
  le := Float.le
  lt := Float.lt
  leInt x k := match Exact.compareInt k (.ofFloat x) with
    | some order => order.isGE
    | none => false
  intLe k x := match Exact.compareInt k (.ofFloat x) with
    | some order => order.isLE
    | none => false
  isFinite := Float.isFinite
  rootOfTwo := root
  infinity := 1.0 / 0.0

/-- The root of two as the platform's power function has it. -/
def platformRoot (k : Nat) : Float := Float.pow 2.0 (1.0 / Float.ofNat k)

instance : Extended Float := binary64 platformRoot

/-- The value that is not a number. -/
def notANumber : Float := 0.0 / 0.0

end DirectSearch
