import DirectSearch.Search.Budgets
import DirectSearch.Search.Session
/-!
# Search — the loop that drives a method

Both searches are driven by one loop. A run opens a journal, takes its
first state, sends a row and then iterates until the method has settled
or a budget is spent; after every iteration it sends a row and reads the
clock. The loop takes a number of turns that it may not exceed: a run
without any limit need not end.
-/

namespace DirectSearch

/-- What the loop needs to know of a search: how it takes its first
state, how it iterates, and when it is done. -/
structure Method (α : Type) (n : Nat) (ρ σ ι : Type) where
  kind : SearchKind
  /-- The name under which the search reports. -/
  name : String
  budgets : Budgets α
  /-- The first state. -/
  initial : Step α ρ Unit σ
  /-- One iteration. -/
  iterate : Step α ρ σ ι
  /-- The row for the journal, after an iteration or before the first. -/
  entry : Session α ρ σ → Option ι → ρ
  /-- The search has reached what it was after. -/
  settled : Session α ρ σ → Except Fault Bool
  /-- The status of a run that ends here, by budget or not. -/
  verdict : Session α ρ σ → Bool → Except Fault Status
  /-- The best point. -/
  solution : σ → Point α n
  /-- The objective at the best point. -/
  objective : σ → α
  /-- The violation at the best point, where the search knows it. -/
  violation : σ → Option α
  /-- How often the simplex was rebuilt, where there is one. -/
  restarts : σ → Option Int

/-- A run that ended, and what it left behind. -/
structure Ended (α : Type) (n : Nat) (ρ : Type) where
  result : Except Fault (Report α n ρ)
  desk : Desk α ρ

namespace Method

variable {α : Type} [Scalar α] {n : Nat} {ρ σ ι : Type}

/-- A budget is spent. -/
def exhausted (m : Method α n ρ σ ι) (s : Session α ρ σ) : Except Fault Bool :=
  m.budgets.spent s.tally.counters.objective s.elapsed s.iterations

/-- The loop ends here. Both reasons are looked at in any case. -/
def finished (m : Method α n ρ σ ι) (s : Session α ρ σ) : Except Fault Bool := do
  let settled ← m.settled s
  let exhausted ← m.exhausted s
  return settled || exhausted

/-- The start of a run, up to its first row. -/
def start (m : Method α n ρ σ ι) (clock : Nat → α) (d : Desk α ρ) :
    Except (Fault × Desk α ρ) (Session α ρ σ) :=
  match m.initial (d.openJournal clock) with
  | .error fault d => .error (fault, d)
  | .ok state d =>
    let s := (d.withState state).startClock clock
    .ok (s.sendRow clock (m.entry s none))

/-- One turn of the loop: an iteration, its row, and a look at the
clock. -/
def turn (m : Method α n ρ σ ι) (clock : Nat → α) : Step α ρ σ Unit := fun s =>
  match m.iterate s with
  | .error fault s => .error fault s
  | .ok i s => .ok () ((s.sendRow clock (m.entry s (some i))).readClock clock)

/-- The loop, for at most `fuel` turns: whether it came to its end. -/
def loop (m : Method α n ρ σ ι) (clock : Nat → α) : Nat → Step α ρ σ Bool
  | 0 => fun s => demand (m.finished s) s
  | fuel + 1 => fun s =>
    match m.finished s with
    | .error fault => .error fault s
    | .ok true => .ok true s
    | .ok false =>
      match m.turn clock s with
      | .error fault s => .error fault s
      | .ok _ s => m.loop clock fuel s

/-- The report of a run that ends here with a status. -/
def reportOf (m : Method α n ρ σ ι) (s : Session α ρ σ) (status : Status) : Report α n ρ :=
  { status
    solution := m.solution s.state
    objective := m.objective s.state
    iterations := s.iterations
    elapsed := s.elapsed
    violation := m.violation s.state
    solver := m.name
    objectiveCount := s.tally.counters.objective
    constraintCount := s.tally.counters.constraint
    restarts := m.restarts s.state
    history := s.journal.history }

/-- The end of a run: its status, the last event and its report. -/
def close (m : Method α n ρ σ ι) : Step α ρ σ (Report α n ρ) := fun s =>
  match m.exhausted s >>= m.verdict s with
  | .error fault => .error fault s
  | .ok status => .ok (m.reportOf s status) (s.happened (.stopped m.kind status s.iterations))

/-- **A whole run,** from a desk to a report or a fault, and to the desk
that the next run finds. There is no answer if the run has not come to
its end within `fuel` turns. -/
def run (m : Method α n ρ σ ι) (clock : Nat → α) (fuel : Nat) (d : Desk α ρ) :
    Option (Ended α n ρ) :=
  match m.start clock d with
  | .error (fault, d) => some ⟨.error fault, d⟩
  | .ok s =>
    match m.loop clock fuel s with
    | .error fault s => some ⟨.error fault, s.desk⟩
    | .ok false _ => none
    | .ok true s =>
      match m.close s with
      | .error fault s => some ⟨.error fault, s.desk⟩
      | .ok report s => some ⟨.ok report, s.desk⟩

end Method

end DirectSearch
