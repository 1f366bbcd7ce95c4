/-!
# Scalars — the arithmetic a search is carried out in

Every algorithm of this library is written once, over a `Scalar`, in the
order of operations in which it is meant to be run. Read at `Float` it is
the program; read at an exact field it is the mathematics the program
rounds. A `Scalar` therefore promises no laws: comparisons are Boolean
tests, so that a value which is not a number can fail both `le x x` and
`lt x x`, and whatever a theorem needs of the order or of the field it
asks for by name.

The selections differ in what they do with such a value. `least` and
`greatest` keep their first argument unless the second beats it, while
`minimum` and `maximum` hand a value that is not a number through.

An integer of any size is compared with a scalar exactly, by
`leInt` and `intLe`, and is not rounded first.
-/

namespace DirectSearch

/-- The operations of an arithmetic, without any law. -/
class Scalar (α : Type) extends Add α, Sub α, Mul α, Div α, Neg α where
  /-- The scalar nearest to an integer. -/
  ofInt : Int → α
  /-- The square root. -/
  sqrt : α → α
  /-- The test `a ≤ b`. -/
  le : α → α → Bool
  /-- The test `a < b`. -/
  lt : α → α → Bool
  /-- The test `a ≤ k`. -/
  leInt : α → Int → Bool
  /-- The test `k ≤ a`. -/
  intLe : Int → α → Bool
  /-- Neither infinite nor undefined. -/
  isFinite : α → Bool
  /-- The `k`-th root of two, for `k ≥ 1`. -/
  rootOfTwo : Nat → α

/-- An arithmetic with a value above every finite one, which stands for
an absent bound. -/
class Extended (α : Type) extends Scalar α where
  /-- Positive infinity. -/
  infinity : α

namespace Scalar

variable {α : Type} [Scalar α]

/-! ## Constants -/

/-- Zero. -/
def zero : α := ofInt 0

/-- One. -/
def one : α := ofInt 1

/-- Two. -/
def two : α := ofInt 2

/-- The spacing of the 53-bit numbers just above one, `2⁻⁵²`. -/
def eps : α := one / ofInt (Int.pow 2 52)

/-! ## Tests -/

/-- Equality as the two orders see it: both zeros are equal, and what is
not a number equals nothing. -/
def same (a b : α) : Bool := le a b && le b a

/-- A value that does not even compare with itself. -/
def isUndefined (a : α) : Bool := !le a a

/-- Above every finite value. -/
def isInfinity (a : α) : Bool := !isFinite a && lt zero a

/-! ## Selections -/

/-- The second argument if it is below the first, else the first. -/
def least (a b : α) : α := if lt b a then b else a

/-- The second argument if it is above the first, else the first. -/
def greatest (a b : α) : α := if lt a b then b else a

/-- The smaller argument, or one that is not a number if there is any. -/
def minimum (a b : α) : α :=
  if isUndefined a then a else if isUndefined b then b else if lt b a then b else a

/-- The larger argument, or one that is not a number if there is any. -/
def maximum (a b : α) : α :=
  if isUndefined a then a else if isUndefined b then b else if lt a b then b else a

/-- The absolute value. -/
def abs (a : α) : α := if lt a zero then -a else a

/-! ## Sums and powers -/

/-- The sum from left to right, starting at zero. -/
def sum (xs : List α) : α := xs.foldl (· + ·) zero

/-- The arithmetic mean: the sum divided by the count. -/
def mean (xs : List α) : α := sum xs / ofInt xs.length

/-- The square. -/
def square (a : α) : α := a * a

/-- The `k`-th power, by repeated squaring. -/
def power (a : α) (k : Nat) : α :=
  if k = 0 then one
  else if k % 2 = 0 then power (a * a) (k / 2)
  else a * power (a * a) (k / 2)
termination_by k
decreasing_by all_goals omega

end Scalar

end DirectSearch
