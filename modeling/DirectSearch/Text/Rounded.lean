import DirectSearch.Scalar.Exact
import DirectSearch.Text.Align
/-!
# Text — a float rounded to a number of places

Three forms: scientific, with a given number of digits after the point of
the mantissa; fixed, with a given number of digits after the decimal
point; and general, with a given number of significant digits, of which
zeros at the end are dropped. All round the exact value of the float once,
and a half goes to the even neighbour. The exponent has a sign and at
least two digits.
-/

namespace DirectSearch.Text

/-- The decimal exponent of a positive quotient: the `k` for which it is
at least `10 ^ k` and below `10 ^ (k + 1)`. The lengths of the two
decimal numerals give it up to one. -/
def decimalExponent (r : Ratio) : Int :=
  let guess : Int := (toString r.num).length - (toString r.den).length
  if (Ratio.power 1 10 guess).le r then guess else guess - 1

/-- The first `places + 1` significant digits of a positive quotient, as
a whole number, with the decimal exponent of the rounded value. -/
def significant (places : Nat) (r : Ratio) : Nat × Int :=
  let k := decimalExponent r
  let q := (r.shiftTen (places - k)).round
  if q = Nat.pow 10 (places + 1) then (Nat.pow 10 places, k + 1) else (q, k)

/-- An exponent of at least `width` digits behind a mantissa. -/
def exponentOf (width : Nat) (k : Int) : String :=
  (if k < 0 then "e-" else "e+") ++ digits width k.natAbs

/-- The exponent of a number in scientific form: `e+07`, `e-123`. -/
def exponentMark (k : Int) : String := exponentOf 2 k

/-- Digits with a point after the first of them. -/
def mantissa (places q : Nat) : String :=
  if places = 0 then toString q else pointAfter 1 (toString q)

/-- The sign of a number in front of its text. -/
def withSign (negative : Bool) (s : String) : String := if negative then "-" ++ s else s

/-- The text of a float in scientific form. -/
def scientific (places : Nat) (x : Float) : String :=
  match Exact.ofFloat x with
  | .undefined => "nan"
  | .infinite negative => withSign negative "inf"
  | .dyadic negative m e =>
    withSign negative <|
      if m = 0 then (if places = 0 then "0" else "0." ++ fill '0' places) ++ exponentMark 0
      else
        let (q, k) := significant places (Ratio.power m 2 e)
        mantissa places q ++ exponentMark k

/-- A whole number of `10 ^ -places` units, with its point. -/
def pointed (places q : Nat) : String :=
  let s := digits (places + 1) q
  if places = 0 then s else pointAfter (s.length - places) s

/-- The text of a float with a fixed number of decimals. -/
def fixed (places : Nat) (x : Float) : String :=
  match Exact.ofFloat x with
  | .undefined => "nan"
  | .infinite negative => withSign negative "inf"
  | .dyadic negative m e =>
    withSign negative (pointed places ((Ratio.power m 2 e).shiftTen places).round)

/-! ## The general form -/

/-- How a number with a given count of significant digits is written. -/
structure General where
  /-- The count of significant digits; none at all counts as one. -/
  figures : Nat
  /-- Zeros at the end are kept. -/
  keepZeros : Bool
  /-- A number without exponent has a decimal in any case. -/
  needsDecimal : Bool

/-- The first significant digits of `m · 2 ^ e`, without zeros at the
end, and how many of them stand before the point. -/
def significantDigits (figures m : Nat) (e : Int) : String × Int :=
  if m = 0 then ("0", 1)
  else
    let (q, k) := significant (figures - 1) (Ratio.power m 2 e)
    (dropTrailing (· == '0') (toString q), k + 1)

/-- Two parts with a point between them, or the first part alone. -/
def joinPoint (whole fraction : String) : String :=
  if fraction.isEmpty then whole else whole ++ "." ++ fraction

namespace General

/-- The text of significant digits, `point` of which stand before the
point. An exponent is written for a number below `10⁻⁴`, and for one with
more digits before the point than are significant. -/
def text (g : General) (ds : String) (point : Int) : String :=
  let figures := max g.figures 1
  let decimals : Int := if g.needsDecimal then 1 else 0
  let kept := if g.keepZeros then figures else ds.length
  if point ≤ -4 || figures - decimals < point then
    let cs := (padRight '0' kept ds).toList
    joinPoint (String.ofList (cs.take 1)) (String.ofList (cs.drop 1)) ++ exponentMark (point - 1)
  else if point ≤ 0 then
    "0." ++ fill '0' (-point).toNat ++ padRight '0' kept ds
  else
    let cs := (padRight '0' (max kept (point + decimals).toNat) ds).toList
    joinPoint (String.ofList (cs.take point.toNat)) (String.ofList (cs.drop point.toNat))

end General

/-- The text of a float in general form. -/
def general (g : General) (x : Float) : String :=
  match Exact.ofFloat x with
  | .undefined => "nan"
  | .infinite negative => withSign negative "inf"
  | .dyadic negative m e =>
    let (ds, point) := significantDigits (max g.figures 1) m e
    withSign negative (g.text ds point)

end DirectSearch.Text
