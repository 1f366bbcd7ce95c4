import DirectSearch.Point
import DirectSearch.Reading
/-!
# Direction streams — seeded sequences of vectors

A stream delivers vectors one after the other, the same ones for the same
seed. A Gaussian stream consists of independent normal numbers, and a
vector takes the next `n` of them. A Halton stream walks a shifted
low-discrepancy sequence in `n` dimensions, mapped through the normal
quantile, and starts over when the dimension changes.

The number at a position is a function of the seed and the position, so
that a stream is a seed and a place and nothing else. A seed is a whole
number that is not negative; a Gaussian stream also takes lists of such,
in which a number may be written out, and lists of lists. It refuses any
other seed at once, a Halton stream when the first vector is drawn. A
stream without a seed takes its key from outside.

The numbers themselves are this program's own. The streams stand in its
outer layer, and a search takes whatever sequence of directions it is given.
-/

namespace DirectSearch

/-! ## Random words -/

/-- A word mixed so that neighbouring inputs have unrelated outputs. -/
def mixWord (x : UInt64) : UInt64 :=
  let x := (x ^^^ (x >>> 30)) * 0xBF58476D1CE4E5B9
  let x := (x ^^^ (x >>> 27)) * 0x94D049BB133111EB
  x ^^^ (x >>> 31)

/-- The word at a position of the stream of a key. -/
def wordAt (key position : UInt64) : UInt64 :=
  mixWord (key + (position + 1) * 0x9E3779B97F4A7C15)

/-- The words of 32 bits that a number is made of, the last ones first. -/
def wordsOf (k : Nat) : List Nat := go (k.log2 / 32 + 1) k
where
  /-- The given count of words. -/
  go : Nat → Nat → List Nat
  | 0, _ => []
  | count + 1, k => k % Nat.pow 2 32 :: go count (k / Nat.pow 2 32)

/-- Words folded into a key. Fewer than four are filled up with zeros. -/
def keyOf (tag : UInt64) (words : List Nat) : UInt64 :=
  (words ++ List.replicate (4 - words.length) 0).foldl
    (fun key (w : Nat) => mixWord (mixWord (key + 0x9E3779B97F4A7C15) ^^^ w.toUInt64))
    (mixWord tag)

/-- A word as a number of the open unit interval. -/
def unitInterval (w : UInt64) : Float :=
  ((w >>> 11).toFloat + 0.5) / 9007199254740992.0

/-! ## Normal numbers -/

/-- The normal number at a position: two uniform numbers turned into one
by their angle and radius. -/
def normalAt (key : UInt64) (position : Nat) : Float :=
  let u := unitInterval (wordAt key (2 * position).toUInt64)
  let v := unitInterval (wordAt key (2 * position + 1).toUInt64)
  Float.sqrt (-2.0 * Float.log u) * Float.cos (6.283185307179586 * v)

/-- The quotient of two polynomials, coefficients from the highest. -/
def rational (num den : List Float) (t : Float) : Float :=
  num.foldl (fun acc c => acc * t + c) 0.0 / den.foldl (fun acc c => acc * t + c) 0.0

/-- The normal quantile of a number of the open unit interval, by
rational approximation in the middle and in the tails. -/
def normalQuantile (u : Float) : Float :=
  let tailNum := [-7.784894002430293e-03, -3.223964580411365e-01, -2.400758277161838e+00,
    -2.549732539343734e+00, 4.374664141464968e+00, 2.938163982698783e+00]
  let tailDen := [7.784695709041462e-03, 3.224671290700398e-01, 2.445134137142996e+00,
    3.754408661907416e+00, 1.0]
  if u.lt 0.02425 then rational tailNum tailDen (Float.sqrt (-2.0 * Float.log u))
  else if Float.lt 0.97575 u then
    -(rational tailNum tailDen (Float.sqrt (-2.0 * Float.log (1.0 - u))))
  else
    let t := u - 0.5
    t * rational
      [-3.969683028665376e+01, 2.209460984245205e+02, -2.759285104469687e+02,
        1.383577518672690e+02, -3.066479806614716e+01, 2.506628277459239e+00]
      [-5.447609879822406e+01, 1.615858368580409e+02, -1.556989798598866e+02,
        6.680131188771972e+01, -1.328068155288572e+01, 1.0] (t * t)

/-! ## Low-discrepancy numbers -/

/-- The digits of `k` in a base, reflected at the point. -/
def radicalInverse (base : Nat) : Nat → Nat → Float → Float
  | 0, _, _ => 0.0
  | fuel + 1, k, unit =>
    if k = 0 then 0.0
    else
      let step := unit / Float.ofNat base
      Float.ofNat (k % base) * step + radicalInverse base fuel (k / base) step

/-- The first `count` primes. The `n`-th prime is below
`n (log₂ n + 2) + 3`. -/
def primes (count : Nat) : List Nat :=
  let candidates := (List.range (count * (count.log2 + 2) + 3)).drop 2
  (candidates.foldl (fun ps k => if ps.any (k % · = 0) then ps else ps ++ [k]) []).take count

/-- The `k`-th vector of the sequence of a key in `n` dimensions. -/
def haltonAt (key : UInt64) (n k : Nat) : Point Float n :=
  let bases := (primes n).toArray
  Vector.ofFn fun i =>
    let shift := unitInterval (wordAt key i.val.toUInt64)
    let u := radicalInverse (bases.getD i 2) 64 (k + 1) 1.0 + shift
    let u := u - u.floor
    normalQuantile (Scalar.least (Scalar.greatest u 1e-12) (1.0 - 1e-12))

/-! ## Streams -/

/-- The kinds of streams. -/
inductive StreamKind where
  | gaussian
  | halton
deriving DecidableEq

namespace StreamKind

/-- The kind that a value names. -/
def named : Value → Except Fault StreamKind
  | .text "gaussian" => .ok .gaussian
  | .text "halton" => .ok .halton
  | kind => .error (.unknownStream kind)

end StreamKind

/-- A stream of directions, at a place in it. -/
structure DirectionStream where
  kind : StreamKind
  /-- The seed as it was given. -/
  seed : Value
  /-- What the numbers are made of, if the seed serves. -/
  key : Except Fault UInt64
  /-- Numbers drawn so far, or vectors of a Halton stream. -/
  position : Nat
  /-- The dimension that a Halton stream is walking. -/
  dimension : Nat

namespace DirectionStream

/-- The words of a seed that is one whole number. -/
def numberWords (k : Int) : Except Fault (List Nat) :=
  if k < 0 then .error .badSeed else .ok (wordsOf k.toNat)

/-- The number that a text in a seed stands for: with sixteen digits
behind their mark, or with ten, the first of which opens the text. -/
def textNumber (s : String) : Except Fault Int :=
  let number? := if s.startsWith "0x" then (Text.hexNumeral? s).map Int.ofNat
    else if s.toList.head?.any Char.isDigit then Text.wholeNumeral? s
    else none
  match number? with
  | some k => .ok k
  | none => .error .badSeed

/-- The words of a seed or of a part of one, in order. -/
def seedWords : Value → Except Fault (List Nat)
  | .whole k => numberWords k
  | .flag b => numberWords (if b then 1 else 0)
  | .text s => textNumber s >>= numberWords
  | .list parts => all parts
  | .absent | .real _ => .error .wrongType
where
  /-- The words of all parts. -/
  all : List Value → Except Fault (List Nat)
  | [] => .ok []
  | p :: ps => do
    let words ← seedWords p
    return words ++ (← all ps)

/-- The key of a Gaussian stream. -/
def gaussianKey (fresh : Nat) : Value → Except Fault UInt64
  | .absent => .ok (keyOf 2 (wordsOf fresh))
  | .text _ => .error .wrongType
  | seed => (seedWords seed).map (keyOf 1)

/-- The key of a Halton stream. -/
def haltonKey (fresh : Nat) : Value → Except Fault UInt64
  | .absent => .ok (keyOf 2 (wordsOf fresh))
  | .whole k => (numberWords k).map (keyOf 1)
  | .flag b => (numberWords (if b then 1 else 0)).map (keyOf 1)
  | .real _ | .text _ | .list _ => .error .badSeed

/-- A stream at its beginning. -/
def make (kind : StreamKind) (seed : Value) (fresh : Nat) : Except Fault DirectionStream :=
  match kind with
  | .gaussian => do return ⟨kind, seed, .ok (← gaussianKey fresh seed), 0, 0⟩
  | .halton => .ok ⟨kind, seed, haltonKey fresh seed, 0, 0⟩

/-- The stream of the same kind that begins with another seed. -/
def reseed (s : DirectionStream) (seed : Value) (fresh : Nat) :
    Except Fault DirectionStream := make s.kind seed fresh

/-- A Halton stream at the beginning of its walk in `n` dimensions. With a
seed it is the same walk every time, without one another. -/
def walk (s : DirectionStream) (n : Nat) : DirectionStream :=
  { s with
    key := if s.seed.isPresent then s.key else s.key.map mixWord
    position := 0
    dimension := n }

/-- A size for the next vector, in the form it was stated. A Gaussian
stream takes whole numbers and truth values. A Halton stream takes whole
numbers, and whatever is equal to the dimension it is walking in. -/
def sizeOf (s : DirectionStream) (size : Value) : Except Fault Nat :=
  match s.kind, size with
  | _, .whole k => arraySize k
  | .gaussian, v => v.toSize
  | .halton, v =>
    if s.position ≠ 0 && v.isWhole s.dimension then .ok s.dimension else .error .impossibleSize

/-- The next vector. -/
def draw (s : DirectionStream) (n : Nat) : Except Fault (Point Float n × DirectionStream) :=
  match s.kind with
  | .gaussian => do
    let key ← s.key
    return (Vector.ofFn fun i => normalAt key (s.position + i),
      { s with position := s.position + n })
  | .halton => do
    let s := if s.position ≠ 0 && s.dimension = n then s else s.walk n
    return (haltonAt (← s.key) n s.position, { s with position := s.position + 1 })

/-- The `k`-th vector that a new stream delivers in `n` dimensions. -/
def vectorAt (s : DirectionStream) (n k : Nat) : Except Fault (Point Float n) :=
  match s.kind with
  | .gaussian => do
    let key ← s.key
    return Vector.ofFn fun i => normalAt key (k * n + i)
  | .halton => do return haltonAt (← (s.walk n).key) n k

end DirectionStream

/-- The arrays of a list, over and over. -/
def replayed {α : Type} (arrays : Array (Grid α)) (k : Nat) : Grid α :=
  arrays.getD (k % arrays.size) (.ofList [])

end DirectSearch
