import DirectSearch.Demo
import DirectSearch.Search.Messages
/-!
# The demonstration program

Runs the demonstration with the clock of the machine. Reports go to the
standard output, and what a run says at the level of information goes to
the standard error. Each turn of the loop is given the time at which it
is made.
-/

namespace DirectSearch

/-- The time in seconds since an unspecified moment. -/
def secondsNow : IO Float := return Float.ofNat (← IO.monoNanosNow) / 1e9

/-- A method driven to its end by the machine's clock; events are told as
they happen. -/
partial def driveFrom {n : Nat} {ρ σ ι : Type} (m : Method Float n ρ σ ι)
    (tell : Event Float ρ → IO Unit) (s : Session Float ρ σ) :
    IO (Except Fault (Report Float n ρ)) := do
  for e in s.events do tell e
  let s := { s with events := #[] }
  match m.finished s with
  | .error fault => return .error fault
  | .ok true => match m.close s with
    | .error fault _ => return .error fault
    | .ok report _ => return .ok report
  | .ok false =>
    let now ← secondsNow
    match m.turn (fun _ => now) s with
    | .error fault _ => return .error fault
    | .ok _ s => driveFrom m tell s

/-- A run from its first state on. -/
def drive {n : Nat} {ρ σ ι : Type} (m : Method Float n ρ σ ι) (tell : Event Float ρ → IO Unit) :
    IO (Except Fault (Report Float n ρ)) := do
  let now ← secondsNow
  match m.start (fun _ => now) (Session.fresh .empty) with
  | .error (fault, _) => return .error fault
  | .ok s => driveFrom m tell s

/-- A message told if it is meant to be heard. -/
def tellMessage (message : Except Fault Message) : IO Unit := do
  match message with
  | .ok message => if message.level = .info then IO.eprintln message.text
  | .error _ => return ()

/-- The lines of a run, or what is wrong with it. -/
def showEnd {n : Nat} {ρ : Type} (result : Except Fault (Report Float n ρ)) : IO Unit := do
  match result with
  | .ok report => for line in Demo.closing report do IO.println line
  | .error fault => throw (IO.userError ((fault.message).getD "the run failed"))

/-- A computation that may be refused, in the outer layer. -/
def orFail {β : Type} : Except Fault β → IO β
  | .ok b => return b
  | .error fault => throw (IO.userError ((fault.message).getD "the run failed"))

/-- One run of the demonstration. -/
def showDemo (d : Demo) : IO Unit := do
  let ⟨_, p⟩ ← orFail d.statement.build
  for line in Demo.opening d.title 6 p.start.toList do IO.println line
  let (settings, start) ← orFail d.settings
  match d.kind with
  | .mesh =>
    let m ← orFail (MeshSearch.setUp p start settings none (← IO.rand 0 (Nat.pow 2 62)))
    let level := journalLevel (settings.get "verbose").isSet
    showEnd (← drive m.method fun e =>
      tellMessage (e.message meshColumns MeshSearch.Row.cells level))
  | .simplex =>
    let m ← orFail (SimplexSearch.setUp p start settings)
    let level := journalLevel (settings.get "verbose").isSet
    showEnd (← drive m.method fun e =>
      tellMessage (e.message simplexColumns SimplexSearch.Row.cells level))

end DirectSearch

/-- All runs of the demonstration, one after the other. -/
def main : IO Unit := do
  for d in DirectSearch.Demo.all do DirectSearch.showDemo d
