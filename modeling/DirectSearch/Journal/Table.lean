import DirectSearch.Journal.Basic
import DirectSearch.Journal.Cell
import DirectSearch.Text.Blank
/-!
# Journal — the columns of a journal and its lines of text

A column has a key, under which a row holds its cell, a title and a
format. Titles are set to the side that their format begins with, and
cells and titles are two spaces apart. A column whose format has no width
that a field can have spoils the line.
-/

namespace DirectSearch

/-- A column of a journal. -/
structure Column where
  key : String
  title : String
  format : String

/-- The cells of one row, by key. -/
abbrev Cells : Type := List (String × Value)

/-- How much attention a message asks for. -/
inductive Level where
  | debug
  | info
deriving DecidableEq

/-- A message of a run. -/
structure Message where
  level : Level
  text : String

namespace Cells

/-- The cell under a key; a missing one is absent. -/
def cell (r : Cells) (key : String) : Value := (r.lookup key).getD .absent

/-- The row with an absent cell for every column that it lacks. -/
def completed (columns : List Column) (r : Cells) : Cells :=
  (columns.filter fun c => !(r.any fun e => e.1 == c.key)).map (fun c => (c.key, .absent)) ++ r

/-- The line of a row. -/
def line (columns : List Column) (r : Cells) : Except Fault String := do
  return String.intercalate "  " (← columns.mapM fun c => (r.cell c.key).inColumn c.format)

end Cells

/-- The title of a column in its field. -/
def Column.heading (c : Column) : Except Fault String := do
  let width ← fieldWidth (← columnWidth c.format)
  return if c.format.startsWith "<" then Text.padRight ' ' width c.title
    else Text.padLeft ' ' width c.title

/-- The header line of a table. -/
def headerLine (columns : List Column) : Except Fault String := do
  return String.intercalate "  " (← columns.mapM Column.heading)

/-- A text without the white space at its end. -/
def stripEnd (s : String) : String := Text.dropTrailing Text.isBlank s

/-- A record as cells: its entry, and its time under a key of its own. -/
def Record.cells {ρ : Type} (cells : ρ → Cells) (r : Record Float ρ) : Cells :=
  (cells r.entry).filter (fun e => e.1 != "time") ++ [("time", .real r.time)]

/-- The message that a line of a journal is sent out as: rows without the
white space at their end, everything at the journal's own level. -/
def Line.message {ρ : Type} (columns : List Column) (cells : ρ → Cells) (level : Level) :
    Line Float ρ → Except Fault Message
  | .header => (headerLine columns).map (⟨level, ·⟩)
  | .row record => ((record.cells cells).line columns).map fun s => ⟨level, stripEnd s⟩

/-- The columns of the mesh search. -/
def meshColumns : List Column := [
  ⟨"iter", "k", ">5d"⟩,
  ⟨"nf", "#f", ">6d"⟩,
  ⟨"f", "f(x)", ">13.6e"⟩,
  ⟨"P", "P(x)", ">9.2e"⟩,
  ⟨"delta", "Δ", ">9.2e"⟩,
  ⟨"mu", "μ", ">9.2e"⟩,
  ⟨"status", "status", "<s"⟩]

/-- The columns of the simplex search. -/
def simplexColumns : List Column := [
  ⟨"iter", "k", ">5d"⟩,
  ⟨"nf", "#f", ">6d"⟩,
  ⟨"f", "f(x)", ">13.6e"⟩,
  ⟨"diam", "‖x₁ - xₙ₊₁‖", ">12.4e"⟩,
  ⟨"status", "status", "<s"⟩]

end DirectSearch
