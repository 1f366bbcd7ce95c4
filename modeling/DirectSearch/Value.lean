import DirectSearch.Text.Quoted
import DirectSearch.Text.Shortest
/-!
# Values — what a caller may hand over

A setting, a cell of a journal and a field of a report may each be
nothing, a truth value, a whole number, a float, a text or a list, and
keep the form in which they were given. Every value has a plain text, and
every value can be read as yes or no.
-/

namespace DirectSearch

/-- A value in the form it was given. -/
inductive Value where
  | absent
  | flag (b : Bool)
  | whole (k : Int)
  | real (x : Float)
  | text (s : String)
  | list (parts : List Value)

namespace Value

/-- The name under which a table, a journal or a search is handed itself.
No value goes under it. -/
def itself : String := "self"

/-- Whether there is a value. -/
def isPresent : Value → Bool
  | absent => false
  | _ => true

/-- A value read as yes or no: nothing, zero and what is empty say no. -/
def isSet : Value → Bool
  | absent => false
  | flag b => b
  | whole k => k != 0
  | real x => x != 0.0
  | text s => s != ""
  | list parts => !parts.isEmpty

/-- The word for a truth value. -/
def word (b : Bool) : String := if b then "True" else "False"

/-- The text of a value inside a list, where texts stand in quotes. -/
def innerText : Value → String
  | absent => "None"
  | flag b => word b
  | whole k => toString k
  | real x => Text.plain x
  | text s => Text.quoted s
  | list parts => "[" ++ String.intercalate ", " (all parts) ++ "]"
where
  /-- The texts of all parts. -/
  all : List Value → List String
  | [] => []
  | p :: ps => innerText p :: all ps

/-- The plain text of a value. -/
def plainText : Value → String
  | text s => s
  | v => v.innerText

end Value

end DirectSearch
