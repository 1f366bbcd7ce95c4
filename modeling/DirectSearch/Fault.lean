import DirectSearch.Value
/-!
# Faults — why a problem, a setting or an evaluation is refused

Every refusal is a cause with its data. `Fault.category` sorts the causes
into families, and `Fault.message` gives the text of those that have one
of their own; a fault of the data or of the arithmetic itself is known by
its family alone.
-/

namespace DirectSearch

/-- The families of faults. -/
inductive Category where
  /-- A value that cannot be used. -/
  | value
  /-- A value of the wrong type. -/
  | type
  /-- An index outside its range. -/
  | index
  /-- A result outside the range of the arithmetic. -/
  | overflow
  /-- A failure reported by an evaluation. -/
  | runtime
  /-- An arithmetic failure reported by an evaluation. -/
  | arithmetic
deriving DecidableEq

/-- What can go wrong. -/
inductive Fault where
  /-- The objective is not a function. -/
  | objectiveNotCallable
  /-- The vector constraint is not a function. -/
  | constraintNotCallable
  /-- One of the inequality constraints is not a function. -/
  | inequalityNotCallable
  /-- One of the equality constraints is not a function. -/
  | equalityNotCallable
  /-- Neither a starting point nor a dimension is given. -/
  | dimensionMissing
  /-- The dimension is not positive. -/
  | dimensionNotPositive (n : Value)
  /-- The starting point has another size than the dimension given. -/
  | startSize (given : Nat) (expected : Value)
  /-- A named vector has another size than it should have. -/
  | vectorSize (name : String) (given : Nat) (expected : Value)
  /-- A lower bound lies above the upper one. -/
  | boundsCrossed (lower upper : String)
  /-- A vector constraint without a size. -/
  | constraintSizeMissing
  /-- Constraints are asked for where there are none. -/
  | noConstraints (name : Value)
  /-- The constraints returned another number of values than announced. -/
  | constraintSize (given expected : Nat)
  /-- A penalty weight below one. -/
  | weightBelowOne (weight : Float)
  /-- A setting that its owner does not know. -/
  | unknownSetting (key owner : String)
  /-- A field that a table of settings is built with and does not know. -/
  | unknownField
  /-- A search method that does not exist. -/
  | unknownMethod (name : Value)
  /-- A source of directions that does not exist. -/
  | unknownStream (kind : Value)
  /-- A search is started at a point of the wrong size. -/
  | searchStartSize (given expected : Nat)
  /-- Fewer vertices than a simplex has. -/
  | simplexTooSmall
  /-- More vertices than a simplex has. -/
  | simplexTooLarge
  /-- A vertex of the wrong size. -/
  | vertexSize (given expected : Nat)
  /-- Nested data that is no array of numbers. -/
  | malformedArray
  /-- An array of a size that no array has. -/
  | impossibleSize
  /-- Arrays whose shapes do not fit each other. -/
  | shapesDiffer
  /-- A value of another type than the one needed. -/
  | wrongType
  /-- A text that stands for no number where one is needed. -/
  | unreadable
  /-- A format that does not take the value, or is none. -/
  | badFormat
  /-- A coordinate or an axis that the point does not have. -/
  | indexOutside
  /-- A result too large for the arithmetic. -/
  | overflow
  /-- A whole number wanted of what is not a number. -/
  | notWhole
  /-- A function of the plane at a point that is not in it. -/
  | planeExpected
  /-- The cosine of an infinity. -/
  | cosineOfInfinity
  /-- A simplex gradient without edges. -/
  | noEdges
  /-- A seed that no generator takes. -/
  | badSeed
  /-- A word that names no status. -/
  | unknownStatus
  /-- A failure that an evaluation reports in its own words. -/
  | raised (category : Category) (text : String)

namespace Fault

/-- The family a fault belongs to. -/
def category : Fault → Category
  | wrongType | unknownField => .type
  | indexOutside => .index
  | overflow => .overflow
  | raised c _ => c
  | _ => .value

/-- The text of a fault, where it has one of its own. -/
def message : Fault → Option String
  | objectiveNotCallable => "Objective function f must be callable"
  | constraintNotCallable => "Constraint function c must be callable"
  | inequalityNotCallable => "All inequality constraints must be callable"
  | equalityNotCallable => "All equality constraints must be callable"
  | dimensionMissing => "Either x0 or n must be given"
  | dimensionNotPositive n => "Number of variables n must be positive, got " ++ n.plainText
  | startSize given expected => s!"x0 has {given} entries, expected n=" ++ expected.plainText
  | vectorSize name given expected =>
    s!"{name} has {given} entries, expected " ++ expected.plainText
  | boundsCrossed lower upper => s!"{lower} must not exceed {upper}"
  | constraintSizeMissing => "ncon (or lcon/ucon) is required with c"
  | noConstraints name => "Model '" ++ name.plainText ++ "' has no constraints"
  | constraintSize given expected =>
    s!"Constraint vector has {given} entries, expected {expected}"
  | weightBelowOne weight => "Penalty weight must be >= 1, got " ++ Text.plain weight
  | unknownSetting key owner => s!"Unknown option '{key}' for {owner}"
  | unknownMethod name =>
    "Unknown method '" ++ name.plainText ++ "', expected one of ['mads', 'nelder_mead']"
  | unknownStream kind => "Unknown direction source '" ++ kind.plainText ++ "'"
  | searchStartSize given expected => s!"x has {given} entries, expected n={expected}"
  | simplexTooSmall => "Invalid Simplex : The number of initial vertices is less than n + 1"
  | simplexTooLarge =>
    "Invalid Simplex : The number of initial vertices is greater than n + 1"
  | vertexSize given expected =>
    s!"Invalid Simplex : vertex has {given} entries, expected n={expected}"
  | raised _ text => text
  | unknownField | malformedArray | impossibleSize | shapesDiffer | wrongType | unreadable
  | badFormat | indexOutside | overflow | notWhole | planeExpected | cosineOfInfinity
  | noEdges | badSeed | unknownStatus => none

end Fault

/-- What is given, or the fault, as a step of any computation that may
fail. -/
def demand {σ β : Type} (given : Except Fault β) : EStateM Fault σ β := fun s =>
  match given with
  | .ok b => .ok b s
  | .error fault => .error fault s

end DirectSearch
