import DirectSearch.MeshSearch.Run
import DirectSearch.SimplexSearch.Run
import DirectSearch.Journal.Table
/-!
# Search — the events of a run in words

Every event of a run is a message. The lines of the journal go out at the
journal's own level, all other events at the level of details.
-/

namespace DirectSearch

/-- A mesh search's row as cells. -/
def MeshSearch.Row.cells {n : Nat} (r : MeshSearch.Row Float n) : Cells := [
  ("iter", .whole r.iteration),
  ("nf", .whole r.evaluations),
  ("f", .real r.value),
  ("P", .real r.violation),
  ("delta", .real r.mesh),
  ("mu", .real r.weight),
  ("status", match r.outcome with
    | some o => .text o.text
    | none => .absent),
  ("decrease", .flag r.improved)]

/-- A simplex search's row as cells. -/
def SimplexSearch.Row.cells (r : SimplexSearch.Row Float) : Cells := [
  ("iter", .whole r.iteration),
  ("nf", .whole r.evaluations),
  ("f", .real r.value),
  ("diam", .real r.diameter),
  ("status", match r.move with
    | some m => .text m.text
    | none => .absent)]

/-- The tag of a search in its messages. -/
def SearchKind.tag : SearchKind → String
  | mesh => "[MADS]"
  | simplex => "[NelderMead]"

/-- The level of a journal, by whether it was asked to be heard. -/
def journalLevel (verbose : Bool) : Level := if verbose then .info else .debug

/-- A penalty weight going up, in words. -/
def weightMessage (before after : Float) : Message :=
  ⟨.debug, "[Penalty] μ: " ++ Text.scientific 3 before ++ " -> " ++ Text.scientific 3 after⟩

/-- **The message of an event.** -/
def Event.message {ρ : Type} (columns : List Column) (cells : ρ → Cells) (level : Level) :
    Event Float ρ → Except Fault Message
  | .line l => l.message columns cells level
  | .weightRaised before after => .ok (weightMessage before after)
  | .restarted count iteration radius singular =>
    .ok ⟨.debug, s!"[NelderMead] oriented restart #{count} at iter {iteration} (σ₋=" ++
      Text.scientific 3 radius ++ ", singular=" ++ Value.word singular ++ ")"⟩
  | .stopped kind status iterations =>
    .ok ⟨.debug, s!"{kind.tag} stop: {status.word} after {iterations} iterations"⟩

/-- The messages of a mesh search. -/
def MeshSearch.messages {n : Nat} (verbose : Bool)
    (events : Array (Event Float (MeshSearch.Row Float n))) : Except Fault (List Message) :=
  events.toList.mapM (Event.message meshColumns MeshSearch.Row.cells (journalLevel verbose))

/-- The messages of a simplex search. -/
def SimplexSearch.messages (verbose : Bool)
    (events : Array (Event Float (SimplexSearch.Row Float))) : Except Fault (List Message) :=
  events.toList.mapM (Event.message simplexColumns SimplexSearch.Row.cells (journalLevel verbose))

end DirectSearch
