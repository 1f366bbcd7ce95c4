import DirectSearch.Fault
import DirectSearch.Text.Numeral
/-!
# Journal — formats

A format says how a value is written: a filling and a side, a sign, a
width, a separator of groups, a precision and a presentation. Whole
numbers are presented decimally (`d`, `n`), in binary, octal or
hexadecimal digits (`b`, `o`, `x`, `X`), or as the character they number
(`c`); whole numbers and floats in scientific, fixed, general or
percentage form (`e`, `f`, `g`, `%` and capitals); texts as they are
(`s`). A value that its format does not take is a fault.
-/

namespace DirectSearch

/-- The side a text is set to. -/
inductive Side where
  | left
  | right
  | centre
  /-- Like `right`, with the filling between sign and digits. -/
  | afterSign
deriving DecidableEq

/-- How a value is to be written. -/
structure Format where
  /-- What a field is filled with, where that is stated. -/
  filling : Option Char := none
  side : Option Side := none
  /-- What stands before a number that is not negative. -/
  sign : Option Char := none
  /-- A negative number that is rounded to zero loses its sign. -/
  plainZero : Bool := false
  /-- Numbers show their base, their point and all their digits. -/
  explicit : Bool := false
  /-- Zeros fill the field, for numbers behind the sign. -/
  zeros : Bool := false
  width : Nat := 0
  /-- What stands between groups of digits. -/
  separator : Option Char := none
  precision : Option Nat := none
  presentation : Option Char := none

namespace Format

/-! ## Reading a format -/

/-- The side that a character stands for. -/
def sideOf : Char → Option Side
  | '<' => some .left
  | '>' => some .right
  | '^' => some .centre
  | '=' => some .afterSign
  | _ => none

/-- The filling and the side at the front of a format. A filling stands
before a side. -/
def takeSide : List Char → (Option Char × Option Side) × List Char
  | fill :: c :: rest =>
    match sideOf c, sideOf fill with
    | some side, _ => ((some fill, some side), rest)
    | none, some side => ((none, some side), c :: rest)
    | none, none => ((none, none), fill :: c :: rest)
  | [c] => match sideOf c with
    | some side => ((none, some side), [])
    | none => ((none, none), [c])
  | [] => ((none, none), [])

/-- One of the given characters at the front of a format. -/
def takeOne (allowed : List Char) : List Char → Option Char × List Char
  | c :: rest => if allowed.contains c then (some c, rest) else (none, c :: rest)
  | [] => (none, [])

/-- A number at the front of a format, which must be below `2 ^ 63`. -/
def takeNumber (cs : List Char) : Except Fault (Option Nat × List Char) :=
  let ds := cs.takeWhile Text.isDecimal
  if ds.isEmpty then .ok (none, cs)
  else if Nat.pow 2 63 ≤ Text.ofDigits ds then .error .badFormat
  else .ok (some (Text.ofDigits ds), cs.drop ds.length)

/-- The precision at the front of a format, which follows a point. -/
def takePrecision : List Char → Except Fault (Option Nat × List Char)
  | '.' :: rest => do
    match ← takeNumber rest with
    | (some k, rest) => return (some k, rest)
    | (none, _) => throw .badFormat
  | rest => .ok (none, rest)

/-- **A format read from its text.** -/
def parse (s : String) : Except Fault Format := do
  let ((filling, side), rest) := takeSide s.toList
  let (sign, rest) := takeOne ['+', '-', ' '] rest
  let (plainZero, rest) := takeOne ['z'] rest
  let (explicit, rest) := takeOne ['#'] rest
  let (zeros, rest) := if filling.isSome then (none, rest) else takeOne ['0'] rest
  let (width, rest) ← takeNumber rest
  let (separator, rest) := takeOne [',', '_'] rest
  let (precision, rest) ← takePrecision rest
  let presentation ← match rest with
    | [] => pure none
    | [c] => pure (some c)
    | _ => throw .badFormat
  return {
    filling, side, sign
    plainZero := plainZero.isSome
    explicit := explicit.isSome
    zeros := zeros.isSome
    width := width.getD 0
    separator, precision, presentation }

/-! ## Setting a text in its field -/

/-- What the field is filled with. -/
def fillChar (f : Format) : Char := f.filling.getD (if f.zeros then '0' else ' ')

/-- A text set to a side of the field. -/
def place (f : Format) (side : Side) (s : String) : String :=
  match side with
  | .left => Text.padRight f.fillChar f.width s
  | .right | .afterSign => Text.padLeft f.fillChar f.width s
  | .centre => Text.centre f.fillChar f.width s

/-- The parts of a number's text. -/
structure NumberText where
  negative : Bool
  /-- The mark of the base. -/
  base : String := ""
  /-- The digits that may be grouped. -/
  digits : String
  /-- What follows them. -/
  rest : String := ""

/-- The size of a group of digits, where digits are grouped. -/
def groupSize (f : Format) : Nat :=
  if ['b', 'o', 'x', 'X'].contains (f.presentation.getD 'd') then 4 else 3

/-- Digits with a separator before every group but the first, the groups
counted from the end. -/
def separated (size : Nat) (separator : Char) : List Char → List Char
  | [] => []
  | c :: cs =>
    if !cs.isEmpty && cs.length % size = 0 then c :: separator :: separated size separator cs
    else c :: separated size separator cs

/-- The fewest digits that take at least `width` characters when there is
a separator between groups. -/
def digitsFor (size width : Nat) : Nat :=
  if width = 0 then 0 else size * ((width - 1) / (size + 1)) + (width - 1) % (size + 1) + 1

/-- Digits filled up with zeros to a width, and grouped. -/
def grouped (f : Format) (width : Nat) (ds : String) : String :=
  if ds.isEmpty then ""
  else match f.separator with
    | none => Text.padLeft '0' width ds
    | some c =>
      let ds := Text.padLeft '0' (digitsFor f.groupSize width) ds
      String.ofList (separated f.groupSize c ds.toList)

/-- The sign of a number in this format. -/
def signText (f : Format) (negative : Bool) : String :=
  if negative then "-" else match f.sign with
    | some '+' => "+"
    | some ' ' => " "
    | _ => ""

/-- A number set in its field. Zeros behind the sign are digits of the
number; any other filling is not. -/
def placeNumber (f : Format) (t : NumberText) : String :=
  let side := f.side.getD (if f.zeros then .afterSign else .right)
  let sign := f.signText t.negative ++ t.base
  let width := if f.fillChar == '0' && side = .afterSign then
    f.width - (sign.length + t.rest.length) else 0
  let body := f.grouped width t.digits ++ t.rest
  match side with
  | .afterSign => sign ++ Text.padLeft f.fillChar (f.width - sign.length) body
  | side => f.place side (sign ++ body)

/-- Whether groups may be separated in the presentation. -/
def allowsSeparator (f : Format) (default : Char) : Bool :=
  match f.separator with
  | none => true
  | some c =>
    let p := f.presentation.getD default
    "deEfFgG%".toList.contains p || (c == '_' && ['b', 'o', 'x', 'X'].contains p)

/-! ## Floats -/

/-- A number with a point behind its first digits, if it has none. -/
def withPoint (s : String) : String :=
  let cs := s.toList
  if cs.contains '.' || !cs.any Text.isDecimal then s
  else String.ofList (cs.takeWhile (· != 'e') ++ '.' :: cs.dropWhile (· != 'e'))

/-- The text of a float in its presentation, in small letters and without
the sign of percentage. -/
def realForm (f : Format) (x : Float) : Except Fault String :=
  match f.presentation, f.precision with
  | none, none => .ok (Text.plain x)
  | none, some p => .ok (Text.general ⟨p, f.explicit, true⟩ x)
  | some 'e', p | some 'E', p => .ok (Text.scientific (p.getD 6) x)
  | some 'f', p | some 'F', p | some '%', p => .ok (Text.fixed (p.getD 6) x)
  | some 'g', p | some 'G', p | some 'n', p => .ok (Text.general ⟨p.getD 6, f.explicit, false⟩ x)
  | some _, _ => .error .badFormat

/-- Whether the number that a text stands for is zero. -/
def isZeroText (s : String) : Bool :=
  let ds := (s.toList.takeWhile (· != 'e')).filter Text.isDecimal
  !ds.isEmpty && ds.all (· == '0')

/-- A float in its format. No precision is above `2 ^ 31 - 1`. -/
def realText (f : Format) (x : Float) : Except Fault String := do
  if !f.allowsSeparator 'g' || f.precision.any (Nat.pow 2 31 ≤ ·) then throw .badFormat
  let percent := f.presentation == some '%'
  let form ← f.realForm (if percent then x * 100.0 else x)
  let negative := form.toList.head? == some '-'
  let body := if negative then String.ofList (form.toList.drop 1) else form
  let body := if f.explicit then withPoint body else body
  let negative := negative && !(f.plainZero && isZeroText body)
  let capital := f.presentation.any fun p => p == 'E' || p == 'F' || p == 'G'
  let body := (if capital then body.toUpper else body) ++ (if percent then "%" else "")
  let digits := body.toList.takeWhile Text.isDecimal
  return f.placeNumber
    { negative
      digits := String.ofList digits
      rest := String.ofList (body.toList.drop digits.length) }

/-! ## Whole numbers -/

/-- The base of a presentation, with its mark. -/
def baseOf : Char → Option (Nat × String)
  | 'd' | 'n' => some (10, "")
  | 'b' => some (2, "0b")
  | 'o' => some (8, "0o")
  | 'x' => some (16, "0x")
  | 'X' => some (16, "0X")
  | _ => none

/-- A whole number by its digits in a base. -/
def digitsText (f : Format) (base : Nat) (mark : String) (k : Int) : String :=
  let ds := String.ofList (Nat.toDigits base k.natAbs)
  f.placeNumber
    { negative := k < 0
      base := if f.explicit then mark else ""
      digits := if f.presentation == some 'X' then ds.toUpper else ds }

/-- The character that a whole number stands for. -/
def characterText (f : Format) (k : Int) : Except Fault String :=
  if f.sign.isSome || f.explicit then .error .badFormat
  else if k < 0 || 0x110000 ≤ k then .error .overflow
  else .ok (f.placeNumber
    { negative := false, digits := "", rest := String.singleton (Char.ofNat k.toNat) })

/-- A whole number in its format. The presentations of floats are taken of
the nearest float. -/
def wholeText (f : Format) (k : Int) : Except Fault String := do
  if !f.allowsSeparator 'd' then throw .badFormat
  let p := f.presentation.getD 'd'
  if "eEfFgG%".toList.contains p then
    let x := Float.ofInt k
    if x.isFinite then f.realText x else throw .overflow
  else if f.precision.isSome || f.plainZero then throw .badFormat
  else if p == 'c' then f.characterText k
  else match baseOf p with
    | some (base, mark) => return f.digitsText base mark k
    | none => throw .badFormat

/-! ## Texts -/

/-- A text in its format, cut to the precision. -/
def textText (f : Format) (s : String) : Except Fault String :=
  if f.sign.isSome || f.plainZero || f.explicit || f.side == some .afterSign
    || !f.allowsSeparator 's' || (f.presentation.getD 's') != 's' then .error .badFormat
  else .ok (f.place (f.side.getD .left) (match f.precision with
    | some p => String.ofList (s.toList.take p)
    | none => s))

end Format

/-- **A value in a format.** The empty format takes every value and writes
it plainly; any other takes neither nothing nor a list. -/
def Value.formatted (v : Value) (format : String) : Except Fault String :=
  if format.isEmpty then .ok v.plainText
  else match v with
    | .absent | .list _ => .error .wrongType
    | .flag b => do (← Format.parse format).wholeText (if b then 1 else 0)
    | .whole k => do (← Format.parse format).wholeText k
    | .real x => do (← Format.parse format).realText x
    | .text s => do (← Format.parse format).textText s

end DirectSearch
