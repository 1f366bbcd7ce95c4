import DirectSearch.Problem.Basic
import DirectSearch.Reading
/-!
# Problems — from a caller's statement

A `Statement` is what a caller says: functions that may be missing or
unusable, and vectors in any of the forms of `Entries`. `Statement.build`
makes a problem of it or says what is wrong, in a fixed order: the
functions first, then the start and the dimension, the bounds of the
variables, and the constraints.

An absent bound is infinite, and a single number stands for a whole
vector. The size of the vector constraint is the one stated, or else that
of its lower bounds, or else that of its upper bounds.
-/

namespace DirectSearch

/-- What a caller passes where a function is wanted. -/
inductive Supplied (φ : Type) where
  | function (f : φ)
  | unusable

namespace Supplied

/-- The function, or the given fault. -/
def need {φ : Type} (fault : Fault) : Supplied φ → Except Fault φ
  | function f => .ok f
  | unusable => .error fault

end Supplied

/-- A problem as a caller states it. -/
structure Statement (α : Type) where
  objective : Supplied (Callback α α)
  start : Option (Entries α) := none
  dimension : Value := .absent
  lower : Option (Entries α) := none
  upper : Option (Entries α) := none
  block : Option (Supplied (Callback α (Entries α))) := none
  constraintLower : Option (Entries α) := none
  constraintUpper : Option (Entries α) := none
  constraintSize : Value := .absent
  inequalities : List (Supplied (Callback α (Entries α))) := []
  equalities : List (Supplied (Callback α (Entries α))) := []
  name : Value := .text "generic"

/-- **The vector a bound stands for**, `m` entries long: the filling if
nothing is given, a single entry repeated, and otherwise the entries
themselves, which must then be `m` in number. Entries in the right number
are kept even if `m` is no size that a vector can be made of. -/
def spreadBound {α : Type} (v : Option (Entries α)) (m : Value) (filling : α) (name : String) :
    Except Fault (List α) :=
  match v with
  | none => m.toSize.map fun size => List.replicate size filling
  | some e => do
    let xs ← e.ravel
    if m.isWhole xs.length then return xs
    match xs with
    | [x] => return List.replicate (← m.toSize) x
    | xs => throw (.vectorSize name xs.length m)

namespace Statement

variable {α : Type} [Extended α]

open Scalar

/-- The numbers to start with. Where there are none, as many zeros as
there are variables. -/
def startNumbers (s : Statement α) : Except Fault (List α) :=
  match s.start with
  | some e => e.ravel
  | none =>
    if s.dimension.isPresent then do
      return List.replicate (← arraySize (← s.dimension.toWhole)) zero
    else .error .dimensionMissing

/-- The starting point. Its size must be positive, and the number of
variables if that is stated. -/
def startVector (s : Statement α) : Except Fault (List α) := do
  let xs ← s.startNumbers
  let stated := if s.dimension.isPresent then s.dimension else .whole xs.length
  let n ← stated.toNumber
  if n.le (.whole 0) then throw (.dimensionNotPositive stated)
  if !(Number.whole xs.length).same n then throw (.startSize xs.length stated)
  return xs

/-- Whether some lower bound lies above the upper one. -/
def crossed (lower upper : List α) : Bool :=
  (List.zipWith (fun l u => lt u l) lower upper).any id

/-- The size of the vector constraint. -/
def blockSize (s : Statement α) : Except Fault Int :=
  if s.block.isNone then .ok 0
  else if s.constraintSize.isPresent then s.constraintSize.toWhole
  else match s.constraintLower, s.constraintUpper with
    | some e, _ | none, some e => e.ravel.map (·.length)
    | none, none => .error .constraintSizeMissing

/-- **The problem that a statement describes.** -/
def build (s : Statement α) : Except Fault ((n : Nat) × Problem α n) := do
  let objective ← s.objective.need .objectiveNotCallable
  let block ← s.block.mapM (Supplied.need .constraintNotCallable)
  let inequalities ← s.inequalities.mapM (Supplied.need .inequalityNotCallable)
  let equalities ← s.equalities.mapM (Supplied.need .equalityNotCallable)
  let xs ← s.startVector
  let n := xs.length
  let lower ← spreadBound s.lower (.whole n) (-Extended.infinity) "lvar"
  let upper ← spreadBound s.upper (.whole n) Extended.infinity "uvar"
  if crossed lower upper then throw (.boundsCrossed "lvar" "uvar")
  let m ← s.blockSize
  let blockLower ← spreadBound s.constraintLower (.whole m) (-Extended.infinity) "lcon"
  let blockUpper ← spreadBound s.constraintUpper (.whole m) Extended.infinity "ucon"
  let constraintLower := blockLower ++ inequalities.map (fun _ => -Extended.infinity)
    ++ equalities.map (fun _ => zero)
  let constraintUpper := blockUpper ++ inequalities.map (fun _ => zero)
    ++ equalities.map (fun _ => zero)
  if crossed constraintLower constraintUpper then throw (.boundsCrossed "lcon" "ucon")
  let count := m.toNat + inequalities.length + equalities.length
  let lower ← sized .shapesDiffer n lower
  let upper ← sized .shapesDiffer n upper
  let constraintLower ← sized .shapesDiffer count constraintLower
  let constraintUpper ← sized .shapesDiffer count constraintUpper
  return ⟨n, {
    name := s.name
    objective, block
    blockSize := m.toNat
    inequalities, equalities
    start := ⟨xs.toArray, by simp [n]⟩
    lower, upper, constraintLower, constraintUpper }⟩

end Statement

/-- Where a search of a problem starts: at the problem's own start unless
another point is given, which must have the right size. -/
def Problem.startAt {α : Type} {n : Nat} (p : Problem α n) (x : Option (Entries α)) :
    Except Fault (Point α n) :=
  match x with
  | none => .ok p.start
  | some e => do
    let xs ← e.ravel
    sized (.searchStartSize xs.length n) n xs

end DirectSearch
