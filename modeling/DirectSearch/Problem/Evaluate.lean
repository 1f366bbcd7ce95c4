import DirectSearch.Problem.Basic
/-!
# Problems — evaluation

Every evaluation is counted. Asking is counted before the function runs,
so a function that fails has been counted. The functions take arrays of
any shape, and it is theirs to refuse one. What the objective returns in
the course of a search is put on record.
-/

namespace DirectSearch

/-- A computation that asks for evaluations: whether it ends with a value
or with a fault, it says what the counters have become. -/
abbrev Counting (β : Type) : Type := EStateM Fault Counters β

/-- A computation that evaluates in the course of a search: whether it
ends with a value or with a fault, it says what the tally has become. -/
abbrev Evaluating (α β : Type) : Type := EStateM Fault (Tally α) β

/-- A computation that asks for evaluations, as one of a search. -/
def Counting.inSearch {α β : Type} (act : Counting β) : Evaluating α β := fun t =>
  match act t.counters with
  | .ok b counters => .ok b { t with counters }
  | .error fault counters => .error fault { t with counters }

namespace Problem

variable {α : Type} {n : Nat}

/-! ## The objective -/

/-- The objective at an array: counted, then evaluated. -/
def objectiveOf (p : Problem α n) (x : Grid α) : Counting α := fun c =>
  let c := c.askObjective
  match p.objective c x with
  | .ok v => .ok v c
  | .error fault => .error fault c

/-- The objective in a search: counted, then evaluated, then recorded. -/
def objectiveAt (p : Problem α n) (x : Grid α) : Evaluating α α := fun t =>
  match p.objectiveOf x t.counters with
  | .ok v counters => .ok v ⟨counters, t.evaluations.push ⟨x, v⟩⟩
  | .error fault counters => .error fault { t with counters }

/-! ## The constraints -/

/-- The values of several constraint functions as one array, if there are
functions. All are evaluated before their values are put together. -/
def gather (counters : Counters) (x : Grid α) (fs : List (Callback α (Entries α))) :
    Except Fault (List (Grid α)) :=
  match fs with
  | [] => .ok []
  | fs => do
    let values ← fs.mapM fun f => f counters x
    return [← (Entries.many values).toGrid]

/-- The values of all constraint functions, block after block. -/
def constraintValues (p : Problem α n) (counters : Counters) (x : Grid α) :
    Except Fault (Grid α) := do
  let vector ← match p.block with
    | none => pure []
    | some c => do pure [Grid.ofList (← (← c counters x).ravel)]
  let inequalities ← gather counters x p.inequalities
  let equalities ← gather counters x p.equalities
  Grid.concat (vector ++ inequalities ++ equalities)

/-- **The constraints at an array:** counted, then evaluated. A
problem without constraints refuses before it counts, and a wrong number
of values is refused afterwards. -/
def constraintsOf (p : Problem α n) (x : Grid α) : Counting (Grid α) := fun c =>
  if p.constraintCount = 0 then .error (.noConstraints p.name) c
  else
    let c := c.askConstraint
    match p.constraintValues c x with
    | .error fault => .error fault c
    | .ok values =>
      if values.entries.length = p.constraintCount then .ok values c
      else .error (.constraintSize values.entries.length p.constraintCount) c

end Problem

end DirectSearch
