import DirectSearch.Entries
import DirectSearch.Number
import DirectSearch.Scalar.Binary64
import DirectSearch.Text.Numeral
/-!
# Readings — values read as numbers

A value is read as a number, as a whole number or as an array of numbers.
A truth value counts as one or zero. A text is no number, but it may stand
for one where a number is made of it: a whole number, a float, or an entry
of an array.
-/

namespace DirectSearch

/-- A whole number as a float, or a fault if it is out of range. -/
def Entries.ofInt (k : Int) : Entries Float :=
  match Number.scalarOfInt k with
  | .ok x => .one x
  | .error fault => .broken fault

namespace Value

/-- A value read as a number. -/
def toNumber : Value → Stated Float
  | whole k => .ok (.whole k)
  | real x => .ok (.real x)
  | flag b => .ok (.whole (if b then 1 else 0))
  | absent | text _ | list _ => .error .wrongType

/-- A value read as a number that may be absent. -/
def toNumber? : Value → Except Fault (Option (Number Float))
  | absent => .ok none
  | v => v.toNumber.map some

/-- A float made of a value: a text is read. -/
def toFloat : Value → Except Fault Float
  | text s => match Text.decimalNumeral? s with
    | some x => .ok x
    | none => .error .unreadable
  | v => v.toNumber.toScalar

/-- A whole number made of a value: the fraction of a float is dropped,
and a text is read. -/
def toWhole : Value → Except Fault Int
  | whole k => .ok k
  | flag b => .ok (if b then 1 else 0)
  | real x => match Exact.ofFloat x with
    | .undefined => .error .notWhole
    | .infinite _ => .error .overflow
    | .dyadic negative m e => .ok (Exact.wholePart negative m e)
  | text s => match Text.wholeNumeral? s with
    | some k => .ok k
    | none => .error .unreadable
  | absent | list _ => .error .wrongType

/-- A value read as a size: a whole number or a truth value. -/
def toSize : Value → Except Fault Nat
  | whole k => arraySize k
  | flag b => .ok (if b then 1 else 0)
  | absent | real _ | text _ | list _ => .error .wrongType

/-- Whether a value is equal to a whole number. -/
def isWhole (v : Value) (k : Int) : Bool :=
  match v.toNumber with
  | .ok x => x.same (.whole k)
  | .error _ => false

/-- A whole number is equal to itself alone. -/
@[simp] theorem isWhole_whole (j k : Int) : (whole j).isWhole k = decide (j = k) := by
  simp only [isWhole, toNumber, Number.same, Number.le_whole, ← Bool.decide_and]
  exact decide_eq_decide.2 (by omega)

/-- A value read as an index. A number that is not whole is none, nor is a
text; anything else stands for a choice of several places, which makes no
single one. -/
def toIndex : Value → Except Fault Int
  | whole k => .ok k
  | real _ | text _ => .error .indexOutside
  | absent | flag _ | list _ => .error .shapesDiffer

/-- How many parts a value has: those of a list or the characters of a
text. -/
def count : Value → Except Fault Nat
  | list parts => .ok parts.length
  | text s => .ok s.length
  | absent | flag _ | whole _ | real _ => .error .wrongType

/-- A value read as an array of numbers. An absent entry is no number,
and stands in the array as such. -/
def toEntries : Value → Entries Float
  | absent => .one notANumber
  | flag b => .one (if b then 1.0 else 0.0)
  | whole k => .ofInt k
  | real x => .one x
  | text s => match Text.decimalNumeral? s with
    | some x => .one x
    | none => .broken .unreadable
  | list parts => .many (all parts)
where
  /-- All parts. -/
  all : List Value → List (Entries Float)
  | [] => []
  | p :: ps => toEntries p :: all ps

end Value

end DirectSearch
