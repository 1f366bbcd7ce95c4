import DirectSearch.Fault
import DirectSearch.Scalar.Basic
/-!
# Numbers — whole or real, as they were given

A setting or a budget is given either as a whole number of any size or as
a scalar, and keeps that form. The order of numbers is the order of their
exact values: a whole number is never rounded to be compared. It is
rounded when arithmetic needs a scalar, and one that is too large then is
a fault.
-/

namespace DirectSearch

/-- A number in the form it was given. -/
inductive Number (α : Type) where
  | whole (k : Int)
  | real (x : α)

namespace Number

variable {α : Type} [Scalar α]

/-! ## Order -/

/-- At most. -/
def le : Number α → Number α → Bool
  | whole j, whole k => j ≤ k
  | whole j, real y => Scalar.intLe j y
  | real x, whole k => Scalar.leInt x k
  | real x, real y => Scalar.le x y

/-- Below. -/
def lt : Number α → Number α → Bool
  | whole j, whole k => j < k
  | whole j, real y => Scalar.intLe j y && !Scalar.leInt y j
  | real x, whole k => Scalar.leInt x k && !Scalar.intLe k x
  | real x, real y => Scalar.lt x y

/-- Equal in value. -/
def same (a b : Number α) : Bool := le a b && le b a

/-! ## Arithmetic -/

/-- The number turned round. -/
def neg : Number α → Number α
  | whole k => whole (-k)
  | real x => real (-x)

/-- What is missing to one. -/
def complement : Number α → Number α
  | whole k => whole (1 - k)
  | real x => real (Scalar.one - x)

/-- Twice the number. -/
def double : Number α → Number α
  | whole k => whole (2 * k)
  | real x => real (Scalar.two * x)

/-- The scalar nearest to a whole number, unless it is out of range. -/
def scalarOfInt (k : Int) : Except Fault α :=
  let x : α := Scalar.ofInt k
  if Scalar.isFinite x then .ok x else .error .overflow

/-- The number as a scalar. -/
def toScalar : Number α → Except Fault α
  | whole k => scalarOfInt k
  | real x => .ok x

/-- The order of whole numbers is that of the integers. -/
@[simp] theorem le_whole (j k : Int) : le (whole j : Number α) (whole k) = decide (j ≤ k) := rfl

end Number

/-- A number that a caller states and that is looked at when it is needed:
what he states may be no number. -/
abbrev Stated (α : Type) : Type := Except Fault (Number α)

namespace Stated

variable {α : Type} [Scalar α]

/-- The stated number as a scalar. -/
def toScalar (s : Stated α) : Except Fault α := s.bind Number.toScalar

end Stated

/-- **When a limit is reached.** The count has reached the limit, and the
limit is not negative; a negative or a missing limit is never reached. -/
def isSpent {α : Type} [Scalar α] (count : Number α) (limit : Option (Number α)) : Bool :=
  match limit with
  | none => false
  | some l => l.le count && (Number.whole 0).le l

/-- The same for a stated count, which is looked at only if the limit is
not negative. -/
def isSpent? {α : Type} [Scalar α] (count : Stated α) (limit : Option (Number α)) :
    Except Fault Bool :=
  if limit.any (Number.whole 0).le then count.map (isSpent · limit) else .ok false

end DirectSearch
