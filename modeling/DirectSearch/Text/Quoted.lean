import DirectSearch.Text.Printed
/-!
# Text — a name in quotes

A name is put between single quotes, or between double quotes if it holds
a single quote and no double one. The quote in use and the backslash are
escaped, line breaks and tabs have escapes of their own, other characters
that are not printed are written by their code, in two, four or eight
hexadecimal digits, and every other character stands for itself.
-/

namespace DirectSearch.Text

/-- A digit below sixteen. -/
def hexDigit (k : Nat) : Char :=
  if k < 10 then Char.ofNat (48 + k) else Char.ofNat (87 + k)

/-- The last `width` hexadecimal digits of a number. -/
def hexDigits : Nat → Nat → List Char
  | 0, _ => []
  | width + 1, k => hexDigits width (k / 16) ++ [hexDigit (k % 16)]

/-- The escape of a character by its code. -/
def escapedCode (c : Char) : List Char :=
  if c.toNat < 0x100 then '\\' :: 'x' :: hexDigits 2 c.toNat
  else if c.toNat < 0x10000 then '\\' :: 'u' :: hexDigits 4 c.toNat
  else '\\' :: 'U' :: hexDigits 8 c.toNat

/-- One character of a name between quotes `quote`. -/
def escaped (quote c : Char) : List Char :=
  if c == '\\' || c == quote then ['\\', c]
  else if c == '\n' then ['\\', 'n']
  else if c == '\r' then ['\\', 'r']
  else if c == '\t' then ['\\', 't']
  else if isPrinted c then [c]
  else escapedCode c

/-- The quote a name is written with. -/
def quoteFor (s : String) : Char :=
  if s.toList.contains '\'' && !s.toList.contains '"' then '"' else '\''

/-- A name between quotes. -/
def quoted (s : String) : String :=
  let q := quoteFor s
  String.ofList (q :: s.toList.flatMap (escaped q) ++ [q])

end DirectSearch.Text
