import DirectSearch.Text.Blank
/-!
# Text — digits and numerals

The decimal digits of every script have a value. A numeral is read from a
text whose white space at both ends does not count and in which a low
line may stand between two digits: a whole number, or a decimal number
with or without point and exponent, or a word for what is infinite or not
a number. A whole number may also be written with sixteen digits, behind
a mark.
-/

namespace DirectSearch.Text

/-! ## Digits -/

/-- The zeros of the decimal systems. The other nine digits of a system
follow its zero. -/
def decimalZeros : List Nat := [
  0x30, 0x660, 0x6F0, 0x7C0, 0x966, 0x9E6, 0xA66, 0xAE6, 0xB66, 0xBE6, 0xC66, 0xCE6, 0xD66,
  0xDE6, 0xE50, 0xED0, 0xF20, 0x1040, 0x1090, 0x17E0, 0x1810, 0x1946, 0x19D0, 0x1A80, 0x1A90,
  0x1B50, 0x1BB0, 0x1C40, 0x1C50, 0xA620, 0xA8D0, 0xA900, 0xA9D0, 0xA9F0, 0xAA50, 0xABF0,
  0xFF10, 0x104A0, 0x10D30, 0x11066, 0x110F0, 0x11136, 0x111D0, 0x112F0, 0x11450, 0x114D0,
  0x11650, 0x116C0, 0x11730, 0x118E0, 0x11950, 0x11C50, 0x11D50, 0x11DA0, 0x16A60, 0x16AC0,
  0x16B50, 0x1D7CE, 0x1D7D8, 0x1D7E2, 0x1D7EC, 0x1D7F6, 0x1E140, 0x1E2F0, 0x1E950, 0x1FBF0]

/-- Stretches of characters that are digits of no decimal system, such as
raised and circled ones. -/
def otherDigits : List (Nat × Nat) := [
  (0xB2, 0xB3), (0xB9, 0xB9), (0x1369, 0x1371), (0x19DA, 0x19DA), (0x2070, 0x2070),
  (0x2074, 0x2079), (0x2080, 0x2089), (0x2460, 0x2468), (0x2474, 0x247C), (0x2488, 0x2490),
  (0x24EA, 0x24EA), (0x24F5, 0x24FD), (0x24FF, 0x24FF), (0x2776, 0x277E), (0x2780, 0x2788),
  (0x278A, 0x2792), (0x10A40, 0x10A43), (0x10E60, 0x10E68), (0x11052, 0x1105A),
  (0x1F100, 0x1F10A)]

/-- The value of a decimal digit. -/
def digitValue? (c : Char) : Option Nat :=
  (decimalZeros.find? fun z => z ≤ c.toNat && c.toNat < z + 10).map (c.toNat - ·)

/-- Whether a character is a decimal digit. -/
def isDecimal (c : Char) : Bool := (digitValue? c).isSome

/-- Whether a character is a digit of any kind. -/
def isDigit (c : Char) : Bool :=
  isDecimal c || otherDigits.any fun (first, last) => first ≤ c.toNat && c.toNat ≤ last

/-- The number that decimal digits stand for. -/
def ofDigits (ds : List Char) : Nat := ds.foldl (fun k c => 10 * k + (digitValue? c).getD 0) 0

/-! ## Numerals -/

/-- The text without the low lines between digits; none if one stands
elsewhere. The flag says whether a digit comes right before. -/
def withoutSeparators (isPart : Char → Bool) : Bool → List Char → Option (List Char)
  | _, [] => some []
  | afterDigit, c :: cs =>
    if c == '_' then
      if afterDigit && cs.head?.any isPart then withoutSeparators isPart false cs else none
    else (withoutSeparators isPart (isPart c) cs).map (c :: ·)

/-- White space around a numeral. The four separators of information are
no part of it. -/
def surroundsNumeral (c : Char) : Bool := isBlank c && !(0x1C ≤ c.toNat && c.toNat ≤ 0x1F)

/-- The text without white space at its end. -/
def withoutEnd (cs : List Char) : List Char := (cs.reverse.dropWhile surroundsNumeral).reverse

/-- The characters of a numeral: no white space at the ends, no
separators. -/
def numeralChars (s : String) : Option (List Char) :=
  withoutSeparators isDecimal false (withoutEnd (s.toList.dropWhile surroundsNumeral))

/-- The sign at the front: whether it is negative, and the rest. -/
def takeSign : List Char → Bool × List Char
  | '-' :: cs => (true, cs)
  | '+' :: cs => (false, cs)
  | cs => (false, cs)

/-- The most digits of a whole number that is read. -/
def maxDigits : Nat := 4300

/-- The whole number that a text stands for. -/
def wholeNumeral? (s : String) : Option Int := do
  let (negative, ds) := takeSign (← numeralChars s)
  if ds.isEmpty || !ds.all isDecimal || maxDigits < ds.length then none
  else some (if negative then -(ofDigits ds : Int) else ofDigits ds)

/-- The value of one of sixteen digits. -/
def hexValue? (c : Char) : Option Nat :=
  if 'a' ≤ c && c ≤ 'f' then some (c.toNat - 'a'.toNat + 10)
  else if 'A' ≤ c && c ≤ 'F' then some (c.toNat - 'A'.toNat + 10)
  else digitValue? c

/-- The whole number that sixteen digits behind the mark `0x` stand for.
A low line may also stand right behind the mark. -/
def hexNumeral? (s : String) : Option Nat :=
  match s.toList with
  | '0' :: 'x' :: cs => do
    let cs ← withoutSeparators (hexValue? · |>.isSome) true (withoutEnd cs)
    let digits ← cs.mapM hexValue?
    if digits.isEmpty then none else some (digits.foldl (16 * · + ·) 0)
  | _ => none

/-- The float nearest to `m · 10 ^ e`. Exponents that lead out of the
range are not computed with. -/
def nearest (m : Nat) (e : Int) : Float :=
  let top := e + (toString m).length
  if m = 0 || top < -400 then 0.0
  else if 400 < top then 1.0 / 0.0
  else Float.ofScientific m (decide (e < 0)) e.natAbs

/-- The exponent at the front: none if it has no digits. -/
def takeExponent : List Char → Option (Int × List Char)
  | c :: cs =>
    if c == 'e' || c == 'E' then
      let (negative, cs) := takeSign cs
      let ds := cs.takeWhile isDecimal
      if ds.isEmpty then none
      else some (if negative then -(ofDigits ds : Int) else ofDigits ds, cs.drop ds.length)
    else some (0, c :: cs)
  | [] => some (0, [])

/-- The float that digits with a point and an exponent stand for. -/
def unsignedDecimal? (cs : List Char) : Option Float := do
  let whole := cs.takeWhile isDecimal
  let rest := cs.drop whole.length
  let fraction := if rest.head? == some '.' then (rest.drop 1).takeWhile isDecimal else []
  let rest := if rest.head? == some '.' then rest.drop (fraction.length + 1) else rest
  let (e, rest) ← takeExponent rest
  if whole.isEmpty && fraction.isEmpty || !rest.isEmpty then none
  else some (nearest (ofDigits (whole ++ fraction)) (e - fraction.length))

/-- The float that a text stands for. -/
def decimalNumeral? (s : String) : Option Float := do
  let (negative, cs) := takeSign (← numeralChars s)
  let word := (String.ofList cs).toLower
  let x ← if word == "inf" || word == "infinity" then some (1.0 / 0.0)
    else if word == "nan" then some (0.0 / 0.0)
    else unsignedDecimal? cs
  return if negative then -x else x

end DirectSearch.Text
