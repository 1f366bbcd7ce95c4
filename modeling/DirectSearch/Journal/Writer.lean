import DirectSearch.Journal.Table
/-!
# Journal — written line by line

A writer keeps a journal of rows and sends out their lines as they come.
A row is on record before its lines are written. Where a line cannot be
written the fault ends the step there: a header that fails is due again,
and a row whose line fails does not count towards the next header.
-/

namespace DirectSearch

/-- A journal, how it is written, and what was sent. -/
structure Writer where
  columns : List Column
  level : Level
  journal : Journal Float Cells
  sent : Array Message := #[]

/-- A step of a writer, which ends with a line or with a fault. -/
abbrev Writing : Type := EStateM Fault Writer String

namespace Writer

/-- A header written and sent. -/
def header : Writing := fun w =>
  match headerLine w.columns with
  | .error fault => .error fault w
  | .ok line =>
    .ok line { w with journal := w.journal.afterHeader, sent := w.sent.push ⟨w.level, line⟩ }

/-- The line of a record written and sent. -/
def line (record : Record Float Cells) : Writing := fun w =>
  match Cells.line w.columns (record.cells id) with
  | .error fault => .error fault w
  | .ok line =>
    .ok line { w with
      journal := w.journal.afterLine
      sent := w.sent.push ⟨w.level, stripEnd line⟩ }

/-- **A row**: put on record, then sent after the header that may be
due. A row with a cell under the writer's own name is refused. -/
def row (cells : Cells) (now : Float) : Writing := fun w =>
  if cells.any (·.1 == Value.itself) then .error .unknownField w
  else
    let (journal, record) := w.journal.keep (Cells.completed w.columns cells) now
    let w := { w with journal }
    if journal.isHeaderDue then
      match header w with
      | .error fault w => .error fault w
      | .ok _ w => line record w
    else line record w

end Writer

end DirectSearch
