import DirectSearch.Text.Rounded
/-!
# Text — the shortest decimal that reads back

The reals that round to a float form an interval around it, whose ends
belong to it exactly when the mantissa is even. Among the decimals in
that interval the shortest is taken, and among those of its length the
nearest: for one digit, two digits, … the two neighbours of the value on
the decimal grid are tried, and the first grid with a hit wins.
-/

namespace DirectSearch.Text

/-- The reals that round to one float. -/
structure Reach where
  low : Ratio
  high : Ratio
  closed : Bool

namespace Reach

/-- The interval of `m · 2 ^ e`. Below a power of two the floats lie
twice as dense, unless it is the smallest exponent. -/
def ofDyadic (m : Nat) (e : Int) : Reach :=
  let below := if m = Nat.pow 2 52 && decide (-1074 < e) then 1 else 2
  { low := .power (4 * m - below) 2 (e - 2)
    high := .power (4 * m + 2) 2 (e - 2)
    closed := m % 2 = 0 }

/-- Whether a number lies in the interval. -/
def holds (r : Reach) (v : Ratio) : Bool :=
  if r.closed then r.low.le v && v.le r.high else r.low.lt v && v.lt r.high

end Reach

/-- The neighbour of `v` on the grid of multiples of `10 ^ g` that lies
in the interval, the nearer one if both do. -/
def gridPoint (r : Reach) (v : Ratio) (g : Int) : Option Nat :=
  let scaled := v.shiftTen (-g)
  let down := scaled.floor
  let point (c : Nat) : Ratio := Ratio.power c 10 g
  match r.holds (point down), r.holds (point (down + 1)) with
  | true, true => some scaled.round
  | true, false => some down
  | false, true => some (down + 1)
  | false, false => none

/-- Digits and the power of ten they count, with the fewest digits. -/
def shortestFrom (r : Reach) (v : Ratio) (k : Int) : Nat → Nat → Nat × Int
  | _, 0 => (v.shiftTen (16 - k) |>.round, k - 16)
  | count, left + 1 =>
    let g := k - count
    match gridPoint r v g with
    | some c => (c, g)
    | none => shortestFrom r v k (count + 1) left

/-- Digits without trailing zeros, and the power of ten they count. -/
def trimZeros : Nat → Nat → Int → Nat × Int
  | 0, c, g => (c, g)
  | fuel + 1, c, g => if c ≠ 0 && c % 10 = 0 then trimZeros fuel (c / 10) (g + 1) else (c, g)

/-- The shortest digits of `m · 2 ^ e`, for `m` not zero. -/
def shortest (m : Nat) (e : Int) : Nat × Int :=
  let v := Ratio.power m 2 e
  let (c, g) := shortestFrom (.ofDyadic m e) v (decimalExponent v) 0 17
  trimZeros 20 c g

/-- Digits `c` counting `10 ^ g`, written without an exponent and with at
least one digit after the point. -/
def positional (c : Nat) (g : Int) : String :=
  if 0 ≤ g then toString (c * Nat.pow 10 g.toNat) ++ ".0" else pointed (-g).toNat c

/-- Digits `c` counting `10 ^ g`, written with an exponent. -/
def exponential (c : Nat) (g : Int) : String :=
  let s := toString c
  (if s.length = 1 then s else pointAfter 1 s) ++ exponentMark (g + s.length - 1)

/-- **The shortest text that reads back as the float.** Positional from
`10⁻⁴` up to `10¹⁶`, where `1.0` keeps its zero; with an exponent
outside. -/
def plain (x : Float) : String :=
  match Exact.ofFloat x with
  | .undefined => "nan"
  | .infinite negative => withSign negative "inf"
  | .dyadic negative m e =>
    withSign negative <|
      if m = 0 then "0.0"
      else
        let (c, g) := shortest m e
        let k := g + (toString c).length - 1
        if -4 ≤ k && k < 16 then positional c g else exponential c g

end DirectSearch.Text
