/-!
# Journal — the rows of a run, and where headers stand

A journal keeps one record for every row, stamped with the time since the
journal was opened, and sends lines out: a header line before the first
row, and again once a number of rows has passed since the last header,
however that header came about. A journal that asks for a header every
zero or fewer rows has one before every row.
-/

namespace DirectSearch

/-- An entry with the time it was made. -/
structure Record (α ρ : Type) where
  entry : ρ
  time : α

/-- A line that a journal sends out. -/
inductive Line (α ρ : Type) where
  | header
  | row (record : Record α ρ)

/-- The rows so far. -/
structure Journal (α ρ : Type) where
  /-- How many rows go by from one header to the next. -/
  headerEvery : Int
  /-- The clock reading that times count from. -/
  opened : α
  /-- One record for every row, in order. -/
  history : Array (Record α ρ)
  /-- The rows sent since the last header, if there has been one. -/
  sinceHeader : Option Nat

namespace Journal

variable {α ρ : Type}

/-- A journal without rows, opened at a clock reading. -/
def new (opened : α) (headerEvery : Int) : Journal α ρ := ⟨headerEvery, opened, #[], none⟩

/-- Whether a row sent now has a header before it. -/
def isHeaderDue (t : Journal α ρ) : Bool :=
  match t.sinceHeader with
  | none => true
  | some k => t.headerEvery ≤ k

/-- The journal after a header has been sent. -/
def afterHeader (t : Journal α ρ) : Journal α ρ := { t with sinceHeader := some 0 }

/-- The journal after the line of a row has been sent. -/
def afterLine (t : Journal α ρ) : Journal α ρ :=
  { t with sinceHeader := t.sinceHeader.map (· + 1) }

/-- The journal with one more record, and the record. -/
def keep [Sub α] (t : Journal α ρ) (entry : ρ) (now : α) : Journal α ρ × Record α ρ :=
  let record := ⟨entry, now - t.opened⟩
  ({ t with history := t.history.push record }, record)

/-- The journal after a header, and the line that was sent for it. -/
def sendHeader (t : Journal α ρ) : Journal α ρ × List (Line α ρ) := (t.afterHeader, [.header])

/-- The journal after a row, and the lines that were sent for it. -/
def add [Sub α] (t : Journal α ρ) (entry : ρ) (now : α) : Journal α ρ × List (Line α ρ) :=
  let (t, record) := t.keep entry now
  let (t, header) := if t.isHeaderDue then t.sendHeader else (t, [])
  (t.afterLine, header ++ [.row record])

end Journal

end DirectSearch
