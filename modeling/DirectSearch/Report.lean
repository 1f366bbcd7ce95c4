import DirectSearch.Fault
import DirectSearch.Journal.Basic
import DirectSearch.Point
import DirectSearch.Text.PointText
/-!
# Reports — how a run ended

A run ends for one of the reasons of `Status`, three of which count as
success. The report has the best point found, what it cost, and the
records of the journal; `Report.summary` is its text.
-/

namespace DirectSearch

/-- Why a run ended. -/
inductive Status where
  /-- The simplex has shrunk below its tolerance. -/
  | acceptable
  /-- The mesh has become as fine as asked for. -/
  | smallStep
  /-- No trial changes the objective by more than the tolerance. -/
  | stalled
  /-- The evaluation budget is spent. -/
  | maxEval
  /-- The time budget is spent. -/
  | maxTime
  /-- The iteration budget is spent. -/
  | maxIter
  /-- None of these. -/
  | unknown
deriving DecidableEq

namespace Status

/-- All reasons. -/
def all : List Status := [acceptable, smallStep, stalled, maxEval, maxTime, maxIter, unknown]

/-- The word for a reason. -/
def word : Status → String
  | acceptable => "acceptable"
  | smallStep => "small_step"
  | stalled => "stalled"
  | maxEval => "max_eval"
  | maxTime => "max_time"
  | maxIter => "max_iter"
  | unknown => "unknown"

/-- The symbol of a reason, its word in capitals. -/
def symbol (s : Status) : String := s.word.toUpper

/-- A reason in words. -/
def message : Status → String
  | acceptable => "solved to within acceptable tolerances"
  | smallStep => "step too small"
  | stalled => "stalled"
  | maxEval => "maximum number of function evaluations"
  | maxTime => "maximum elapsed time"
  | maxIter => "maximum iteration"
  | unknown => "unknown"

/-- The reasons that count as success. -/
def isSuccess : Status → Bool
  | acceptable | smallStep | stalled => true
  | _ => false

/-- The reason that a word stands for. -/
def ofWord (w : String) : Except Fault Status :=
  match all.find? (·.word == w) with
  | some s => .ok s
  | none => .error .unknownStatus

/-- Every reason is read back from its word. -/
theorem ofWord_word (s : Status) : ofWord s.word = .ok s := by
  cases s <;> rfl

end Status

/-- The outcome of a run. -/
structure Report (α : Type) (n : Nat) (ρ : Type) where
  status : Status
  solution : Point α n
  objective : α
  iterations : Int
  elapsed : α
  /-- The violation at the solution, where the search knows it. -/
  violation : Option α := none
  /-- The name of the search. -/
  solver : String := ""
  objectiveCount : Nat := 0
  constraintCount : Nat := 0
  /-- How often the simplex was rebuilt, where there is one. -/
  restarts : Option Int := none
  history : Array (Record α ρ) := #[]

/-- A report in texts, field by field. -/
structure Summary where
  status : Status
  solver : String
  objective : String
  /-- The violation, where there is one. -/
  violation : Option String
  solution : String
  iterations : String
  objectiveCount : String
  constraintCount : String
  elapsed : String
  /-- The count of restarts, where there is one. -/
  restarts : Option String

namespace Summary

/-- The summary line by line. -/
def lines (s : Summary) : List String :=
  [s!"Execution stats ({s.solver}): {s.status.message}",
    s!"  status          : {s.status.word}",
    s!"  objective       : {s.objective}"] ++
  (match s.violation with
    | some v => [s!"  primal feas.    : {v}"]
    | none => []) ++
  [s!"  solution        : {s.solution}",
    s!"  iterations      : {s.iterations}",
    s!"  #f / #c         : {s.objectiveCount} / {s.constraintCount}",
    s!"  elapsed time    : {s.elapsed}s"] ++
  (match s.restarts with
    | some k => [s!"  restarts        : {k}"]
    | none => [])

/-- The summary as one text. -/
def text (s : Summary) : String := String.intercalate "\n" s.lines

end Summary

/-- The decimals of a solution in a report. -/
def solutionPlaces : Nat := 6

/-- The fields of a report in texts. -/
def Report.summary {n : Nat} {ρ : Type} (r : Report Float n ρ) : Summary :=
  { status := r.status
    solver := r.solver
    objective := Text.scientific 8 r.objective
    violation := r.violation.map (Text.scientific 2)
    solution := Text.pointText solutionPlaces r.solution.toList
    iterations := toString r.iterations
    objectiveCount := toString r.objectiveCount
    constraintCount := toString r.constraintCount
    elapsed := Text.fixed 3 r.elapsed
    restarts := r.restarts.map toString }

end DirectSearch
