/-!
# Scalars — the exact value of a float

A finite `Float` is a whole number times a power of two. Everything that
is decided about a float outside its own arithmetic — its decimal digits,
how it compares with an integer of any size — is decided on that value,
in natural numbers, so that no second rounding is involved.
-/

namespace DirectSearch

/-- What a float stands for. -/
inductive Exact where
  /-- Not a number. -/
  | undefined
  /-- An infinity. -/
  | infinite (negative : Bool)
  /-- The number `± mantissa · 2 ^ exponent`. -/
  | dyadic (negative : Bool) (mantissa : Nat) (exponent : Int)
deriving DecidableEq

namespace Exact

/-- The value of a float, read off its sign, exponent and fraction bits. -/
def ofFloat (x : Float) : Exact :=
  let bits : Nat := x.toBits.toNat
  let negative := decide (Nat.pow 2 63 ≤ bits)
  let exponent : Nat := bits / Nat.pow 2 52 % Nat.pow 2 11
  let fraction : Nat := bits % Nat.pow 2 52
  if exponent = 2047 then
    if fraction = 0 then .infinite negative else .undefined
  else if exponent = 0 then .dyadic negative fraction (-1074)
  else .dyadic negative (Nat.pow 2 52 + fraction) ((exponent : Int) - 1075)

end Exact

/-- A quotient of natural numbers, the divisor not zero. -/
structure Ratio where
  num : Nat
  den : Nat
deriving DecidableEq

namespace Ratio

/-- `m · b ^ e` as a quotient. -/
def power (m b : Nat) (e : Int) : Ratio :=
  ⟨m * b.pow e.toNat, b.pow (-e).toNat⟩

/-- The order of quotients, by cross-multiplication. -/
def le (a b : Ratio) : Bool := decide (a.num * b.den ≤ b.num * a.den)

/-- The strict order of quotients. -/
def lt (a b : Ratio) : Bool := decide (a.num * b.den < b.num * a.den)

/-- The whole part. -/
def floor (a : Ratio) : Nat := a.num / a.den

/-- The product with `10 ^ g`. -/
def shiftTen (a : Ratio) (g : Int) : Ratio :=
  ⟨a.num * Nat.pow 10 g.toNat, a.den * Nat.pow 10 (-g).toNat⟩

/-- The nearest whole number; a half goes to the even neighbour. -/
def round (a : Ratio) : Nat :=
  let q := a.num / a.den
  let twice := 2 * (a.num % a.den)
  if twice < a.den then q
  else if a.den < twice then q + 1
  else if q % 2 = 0 then q else q + 1

end Ratio

namespace Exact

/-- How an integer stands to an exact value, if the two compare. -/
def compareInt (k : Int) : Exact → Option Ordering
  | .undefined => none
  | .infinite negative => some (if negative then .gt else .lt)
  | .dyadic negative m e =>
    let r := Ratio.power m 2 e
    some (compare (k * r.den) (if negative then -(r.num : Int) else r.num))

/-- The whole part of a dyadic number, the fraction dropped. -/
def wholePart (negative : Bool) (m : Nat) (e : Int) : Int :=
  let k : Int := (Ratio.power m 2 e).floor
  if negative then -k else k

end Exact

end DirectSearch
