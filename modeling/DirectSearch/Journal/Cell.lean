import DirectSearch.Journal.Format
/-!
# Journal — cells

A cell holds a value and is written in the format of its column. A value
that the format does not take is written plainly, to the right of a field
of the column's width, and an absent one is blank. The width of a column
is read off its format: the digits before the first point, and eight if
there are none.
-/

namespace DirectSearch

/-- A width that the field of a text may have. -/
def fieldWidth (width : Nat) : Except Fault Nat :=
  if width < Nat.pow 2 63 then .ok width else .error .badFormat

/-- The width of a column by its format. -/
def columnWidth (format : String) : Except Fault Nat :=
  let head := (format.toList.filter fun c => Text.isDigit c || c == '.').takeWhile (· != '.')
  if head.isEmpty then .ok 8
  else match Text.wholeNumeral? (String.ofList head) with
    | some k => .ok k.toNat
    | none => .error .unreadable

/-- **The text of a cell in a column.** A result that is out of range is
not written plainly but a fault. -/
def Value.inColumn (v : Value) (format : String) : Except Fault String := do
  let width ← columnWidth format
  match v with
  | .absent => if width < Nat.pow 2 63 then return Text.fill ' ' width else throw .overflow
  | v => match v.formatted format with
    | .ok s => return s
    | .error .overflow => throw .overflow
    | .error _ => return Text.padLeft ' ' (← fieldWidth width) v.plainText

end DirectSearch
