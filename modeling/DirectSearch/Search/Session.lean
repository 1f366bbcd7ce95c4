import DirectSearch.Problem.Evaluate
import DirectSearch.Report
/-!
# Search — what a run leaves behind

A `Session` is the state of a search with everything that the run has
left around it: the tally of evaluations, how many directions were drawn,
how often the two clocks were read, the journal and the events in the order
they happened. Before the search has a state, the session has none
either, and is called a `Desk`; a desk is what one run hands to the next.

Nothing here feeds back into the search except the tally, the drawn
directions and the elapsed time.
-/

namespace DirectSearch

open Scalar

/-- The two searches. -/
inductive SearchKind where
  | mesh
  | simplex
deriving DecidableEq

namespace SearchKind

/-- The name of a search. -/
def name : SearchKind → String
  | mesh => "mads"
  | simplex => "nelder_mead"

/-- All searches, in the order of their names. -/
def all : List SearchKind := [mesh, simplex]

/-- The search that a value names. A list names nothing. -/
def named : Value → Except Fault SearchKind
  | .text name => match all.find? (·.name == name) with
    | some kind => .ok kind
    | none => .error (.unknownMethod (.text name))
  | .list _ => .error .wrongType
  | v => .error (.unknownMethod v)

/-- Every search is found by its name. -/
theorem named_name (kind : SearchKind) : named (.text kind.name) = .ok kind := by
  cases kind <;> rfl

end SearchKind

/-- Something that happened in a run. -/
inductive Event (α ρ : Type) where
  /-- The journal sent a line. -/
  | line (l : Line α ρ)
  /-- The penalty weight was raised. -/
  | weightRaised (before after : α)
  /-- The simplex was rebuilt, for the `count`-th time. -/
  | restarted (count iteration : Int) (radius : α) (singular : Bool)
  /-- The run ended. -/
  | stopped (kind : SearchKind) (status : Status) (iterations : Int)

/-- A search under way. -/
structure Session (α ρ σ : Type) where
  tally : Tally α
  /-- How many directions were drawn. -/
  drawn : Nat
  /-- How often the clock of the run was read. -/
  clockReadings : Nat
  /-- How often the clock of the journal was read. -/
  journalReadings : Nat
  journal : Journal α ρ
  events : Array (Event α ρ)
  /-- Iterations of this run. -/
  iterations : Int
  /-- The clock reading at the start of this run. -/
  started : α
  /-- The time that this run has taken. -/
  elapsed : α
  state : σ

/-- A session without a state of the search. -/
abbrev Desk (α ρ : Type) : Type := Session α ρ Unit

/-- A step of a search: it ends with a value or with a fault, and either
way says what the session has become. -/
abbrev Step (α ρ σ β : Type) : Type := EStateM Fault (Session α ρ σ) β

namespace Session

variable {α ρ σ τ β : Type}

/-- The session with another state of the search. -/
def withState (s : Session α ρ σ) (state : τ) : Session α ρ τ :=
  { s with state := state }

/-- The session without the state of the search. -/
def desk (s : Session α ρ σ) : Desk α ρ := s.withState ()

/-- The session with one more event. -/
def happened (s : Session α ρ σ) (e : Event α ρ) : Session α ρ σ :=
  { s with events := s.events.push e }

/-! ## Steps -/

/-- The state of the search. -/
def getState : Step α ρ σ σ := fun s => .ok s.state s

/-- The state of the search changed. -/
def modifyState (f : σ → σ) : Step α ρ σ Unit := fun s => .ok () { s with state := f s.state }

/-- An evaluation, as a step. -/
def evaluate (act : Evaluating α β) : Step α ρ σ β := fun s =>
  match act s.tally with
  | .ok b t => .ok b { s with tally := t }
  | .error fault t => .error fault { s with tally := t }

/-- An event, as a step. -/
def report (e : Event α ρ) : Step α ρ σ Unit := fun s => .ok () (s.happened e)

/-- The next direction of a sequence of them, which may fail to come. -/
def draw (directions : Nat → Except Fault (Grid α)) : Step α ρ σ (Grid α) := fun s =>
  match directions s.drawn with
  | .ok q => .ok q { s with drawn := s.drawn + 1 }
  | .error fault => .error fault s

/-- One more iteration counted. -/
def countIteration : Step α ρ σ Unit := fun s =>
  .ok () { s with iterations := s.iterations + 1 }

/-! ## Clocks and journal -/

variable [Scalar α]

/-- A desk at which nothing has been done. The clock of the journal has
been read once, by the search that is set up at it. -/
def fresh (tally : Tally α) : Desk α ρ :=
  { tally, drawn := 0, clockReadings := 0, journalReadings := 1
    journal := Journal.new zero 20, events := #[]
    iterations := 0, started := zero, elapsed := zero, state := () }

/-- A new journal, opened now, for a run that starts now. -/
def openJournal (clock : Nat → α) (s : Desk α ρ) : Desk α ρ :=
  { s with
    journal := Journal.new (clock s.journalReadings) 20
    journalReadings := s.journalReadings + 1
    iterations := 0, elapsed := zero }

/-- The clock read for the start of the run. -/
def startClock (clock : Nat → α) (s : Session α ρ σ) : Session α ρ σ :=
  { s with started := clock s.clockReadings, clockReadings := s.clockReadings + 1 }

/-- The clock read for the time that the run has taken. -/
def readClock (clock : Nat → α) (s : Session α ρ σ) : Session α ρ σ :=
  { s with
    elapsed := clock s.clockReadings - s.started
    clockReadings := s.clockReadings + 1 }

/-- A row put on the journal and sent out. -/
def sendRow (clock : Nat → α) (entry : ρ) (s : Session α ρ σ) : Session α ρ σ :=
  let (journal, lines) := s.journal.add entry (clock s.journalReadings)
  { s with
    journal, journalReadings := s.journalReadings + 1
    events := s.events ++ (lines.map Event.line).toArray }

end Session

end DirectSearch
