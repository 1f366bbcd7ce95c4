import DirectSearch.Gallery
import DirectSearch.MeshSearch.Seeded
import DirectSearch.Problem.Statement
import DirectSearch.Report
import DirectSearch.Search.Session
import DirectSearch.Settings
/-!
# Demonstration — three small runs

Two runs in the curved valley, one for each search, and one on the Branin
function inside a circle. Every run is introduced by a rule and a line
with its title and start, and is followed by its report.
-/

namespace DirectSearch

/-- A run to be shown. -/
structure Demo where
  title : String
  statement : Statement Float
  kind : SearchKind
  options : List (String × Value)

namespace Demo

/-- A function of the gallery as an objective. -/
def objective (f : Grid Float → Except Fault Float) : Supplied (Callback Float Float) :=
  .function fun _ x => f x

/-- A function of the gallery as a constraint. -/
def constraint (f : Grid Float → Except Fault Float) :
    Supplied (Callback Float (Entries Float)) :=
  .function fun _ x => (f x).map .one

/-- The curved valley from its usual start. -/
def valley : Statement Float :=
  { objective := objective (Gallery.rosenbrock (.real 1.0) (.real 100.0))
    start := some (.ofList [-1.2, 1.0])
    name := .text "rosenbrock" }

/-- The Branin function in its box and in a circle. -/
def braninInCircle : Statement Float :=
  { objective := objective Gallery.branin
    start := some (.ofList [3.0, 0.5])
    lower := some (.ofList [-5.0, 0.0])
    upper := some (.ofList [10.0, 15.0])
    inequalities := [constraint (Gallery.circle (.real 3.0))]
    name := .text "branin-circle" }

/-- The runs of the demonstration. -/
def all : List Demo := [
  { title := "Rosenbrock (nelder_mead)"
    statement := valley
    kind := .simplex
    options := [("tol", .real 1e-8), ("max_eval", .whole 5000)] },
  { title := "Rosenbrock (mads)"
    statement := valley
    kind := .mesh
    options := [("seed", .whole 0), ("max_eval", .whole 4000),
      ("stop_with_small_step", .flag true), ("steptol", .real 1e-10)] },
  { title := "Branin + circle g<=0 (mads)"
    statement := braninInCircle
    kind := .mesh
    options := [("seed", .whole 1), ("greedy", .flag true), ("verbose", .flag true),
      ("max_eval", .whole 2000)] }]

/-- The names under which a demonstration is handed something other than
an option of its search. -/
def reserved : List String := [Value.itself, "name", "model", "solver", "config"]

/-- The settings of a run, and where it starts if its options say so. -/
def settings (d : Demo) : Except Fault (Settings × Option (Entries Float)) := do
  let kind := match d.kind with
    | .mesh => SettingsKind.mesh
    | .simplex => SettingsKind.simplex
  let start := match (d.options.lookup "x").getD .absent with
    | .absent => none
    | x => some x.toEntries
  return (← (Settings.default kind).overridden reserved (d.options.filter (·.1 != "x")), start)

/-- The lines before a run: a rule, and the title with the start, whose
entries have at most `places` decimals. -/
def opening (title : String) (places : Nat) (start : List Float) : List String :=
  [Text.fill '=' 80, s!"{title}: x0=" ++ Text.pointText places start]

/-- The lines after a run: its report, and a note unless the search
itself came to its end. -/
def closing {n : Nat} {ρ : Type} (r : Report Float n ρ) : List String :=
  r.summary.lines ++
    (if r.status = .acceptable || r.status = .smallStep then []
     else [s!"-> stopped on budget: {r.status.word}"])

end Demo

end DirectSearch
