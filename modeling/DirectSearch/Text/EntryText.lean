import DirectSearch.Text.Shortest
/-!
# Text — the entries of an array

The entries of an array are written in one style, with at most a given
number of decimals. Plain entries keep their point but no trailing zeros,
and are padded so that the points stand in a column: on the left to the
longest whole part, sign included, on the right to the longest fraction.
Where the sizes of the entries lie too far apart all of them have
exponents, as many decimals as the longest mantissa needs, and exponents
of one length. An entry that is not finite is set to the right of the
whole field.
-/

namespace DirectSearch.Text

/-- The text of one entry in two parts, before and after the point. An
entry that is not finite has no point. -/
structure EntryText where
  whole : String
  fraction : Option String

/-- How the entries of one array are written. -/
inductive EntryStyle where
  /-- With at most so many decimals. -/
  | plain (places : Nat)
  /-- With so many decimals and an exponent of so many digits. -/
  | withExponent (places width : Nat)

/-- The digits that tell `m · 2 ^ e` from its neighbours, or its first
`figures` digits where more would be needed, and the decimal exponent of
the first of them. -/
def briefDigits (figures m : Nat) (e : Int) : String × Int :=
  if m = 0 then ("0", 0)
  else
    let (c, g) := shortest m e
    let s := toString c
    if s.length ≤ figures then (s, g + s.length - 1)
    else
      let (s, point) := significantDigits figures m e
      (s, point - 1)

namespace EntryStyle

/-- Whether exponents are called for: an entry of `10⁸` or more, one below
`10⁻⁴`, or one more than a thousand times another. Zeros and entries that
are not finite do not count. -/
def needsExponents (xs : List Float) : Bool :=
  let sizes := (xs.filter fun x => x.isFinite && x != 0.0).map Float.abs
  sizes.any (1e8 ≤ ·) || sizes.any (· < 1e-4) ||
    sizes.any fun x => sizes.any fun y => 1000.0 < x / y

/-- The decimals and the digits of the exponent that an entry takes. -/
def needs (places : Nat) (x : Float) : Nat × Nat :=
  match Exact.ofFloat x with
  | .dyadic _ m e =>
    let (s, k) := briefDigits (places + 1) m e
    (s.length - 1, max 2 (toString k.natAbs).length)
  | _ => (0, 0)

/-- The style of entries with at most `places` decimals. -/
def ofEntries (places : Nat) (xs : List Float) : EntryStyle :=
  if needsExponents xs then
    let sizes := xs.map (needs places)
    .withExponent ((sizes.map Prod.fst).foldl max 0) ((sizes.map Prod.snd).foldl max 0)
  else .plain places

end EntryStyle

namespace EntryText

/-- A text with a point, split there; zeros at its end are dropped. -/
def ofPlain (s : String) : EntryText :=
  ⟨String.ofList (s.toList.takeWhile (· != '.')),
    some (dropTrailing (· == '0') (String.ofList ((s.toList.dropWhile (· != '.')).drop 1)))⟩

/-- The entry `m · 2 ^ e` in a style, without its sign. A plain entry has
the fewest decimals that tell it from its neighbours, if these are not too
many. -/
def ofDyadic (m : Nat) (e : Int) : EntryStyle → EntryText
  | .plain places =>
    let (c, g) := if m = 0 then (0, 0) else shortest m e
    ofPlain (if -(places : Int) ≤ g then positional c g
      else pointed places ((Ratio.power m 2 e).shiftTen places).round)
  | .withExponent places width =>
    let (q, k) := if m = 0 then (0, 0) else significant places (Ratio.power m 2 e)
    let s := padRight '0' (places + 1) (toString q)
    ⟨String.ofList (s.toList.take 1),
      some (String.ofList (s.toList.drop 1) ++ exponentOf width k)⟩

/-- An entry in a style. -/
def ofFloat (style : EntryStyle) (x : Float) : EntryText :=
  match Exact.ofFloat x with
  | .undefined => ⟨"nan", none⟩
  | .infinite negative => ⟨withSign negative "inf", none⟩
  | .dyadic negative m e =>
    let t := ofDyadic m e style
    { t with whole := withSign negative t.whole }

/-- The columns that an entry takes before the point, when the longest
fraction has `right` digits. -/
def left (right : Nat) (t : EntryText) : Nat :=
  match t.fraction with
  | some _ => t.whole.length
  | none => t.whole.length - (right + 1)

/-- The entry in a field of `left` columns, the point and `right`
columns. -/
def padded (left right : Nat) (t : EntryText) : String :=
  match t.fraction with
  | some f => padLeft ' ' left t.whole ++ "." ++ padRight ' ' right f
  | none => padLeft ' ' (left + 1 + right) t.whole

/-- How the entries of one array are written: their style, and the columns
before and behind the point. -/
def writer (places : Nat) (xs : List Float) : Float → String :=
  let style := EntryStyle.ofEntries places xs
  let texts := xs.map (ofFloat style)
  let right := (texts.map fun t => (t.fraction.getD "").length).foldl max 0
  let left := (texts.map (EntryText.left right)).foldl max 0
  fun x => (ofFloat style x).padded left right

end EntryText

end DirectSearch.Text
