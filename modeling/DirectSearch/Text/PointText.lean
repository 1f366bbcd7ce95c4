import DirectSearch.Grid
import DirectSearch.Text.EntryText
/-!
# Text — an array on the page

The rows of an array stand in brackets, and brackets around them for every
further axis. The entries of a row are separated by a space, and a line is
broken before it would pass the page width; what goes on is set below the
first entry. Rows stand on lines of their own, with an empty line between
them for every axis beyond the second. Of an array with more than a
thousand entries only three places are shown at each end of an axis that
has more than six. An array without entries is a pair of brackets.
-/

namespace DirectSearch.Text

/-- The widest line of an array's text. -/
def pageWidth : Nat := 75

/-- The places that are shown along an axis, before and behind a gap. -/
def shownPlaces (short : Bool) (k : Nat) : List Nat × List Nat :=
  if short && 6 < k then (List.range 3, List.range' (k - 3) 3) else (List.range k, [])

/-- The entries of a part of an array, `size` at a time. -/
def part (size : Nat) (xs : List Float) (k : Nat) : List Float := (xs.drop (k * size)).take size

/-- The entries that are shown of an array. -/
def shownEntries (short : Bool) : List Nat → List Float → List Float
  | [], xs => xs
  | k :: shape, xs =>
    let (first, last) := shownPlaces short k
    (first ++ last).flatMap fun i => shownEntries short shape (part (Grid.places shape) xs i)

/-- Words joined by a space, a new line begun where the next word would
pass the width; every line after the first is indented. -/
def wrap (indent width : Nat) : String → List String → List String
  | line, [] => [line]
  | line, w :: ws =>
    if width < line.length + 1 + w.length then
      dropTrailing (· == ' ') line :: wrap indent width (fill ' ' indent ++ w) ws
    else wrap indent width (line ++ " " ++ w) ws

/-- A row in brackets. The bracket takes the last column of the
indentation. -/
def rowText (indent width : Nat) : List String → String
  | [] => "[]"
  | w :: ws => String.intercalate "\n" (wrap indent width (fill ' ' (indent - 1) ++ "[" ++ w) ws)
      ++ "]"

/-- An array in brackets, for an indentation and a width of the page. The
first line is not indented. -/
def blockText (entry : Float → String) (short : Bool) (indent width : Nat) :
    List Nat → List Float → String
  | [], xs => String.join (xs.map entry)
  | [k], xs =>
    let (first, last) := shownPlaces short k
    let entries (places : List Nat) := places.flatMap fun i => (part 1 xs i).map entry
    let words := entries first ++ if last.isEmpty then [] else "..." :: entries last
    String.ofList ((rowText indent (width - 1) words).toList.drop (indent - 1))
  | k :: shape, xs =>
    let (first, last) := shownPlaces short k
    let blocks (places : List Nat) := places.map fun i =>
      blockText entry short (indent + 1) (width - 1) shape (part (Grid.places shape) xs i)
    let parts := blocks first ++ if last.isEmpty then [] else "..." :: blocks last
    "[" ++ String.intercalate (fill '\n' shape.length ++ fill ' ' indent) parts ++ "]"

/-- The text of an array with at most `places` decimals. -/
def gridText (places : Nat) (g : Grid Float) : String :=
  let short := 1000 < g.size
  if g.entries.isEmpty then "[]"
  else
    let entry := EntryText.writer places (shownEntries short g.shape g.entries)
    blockText entry short 1 pageWidth g.shape g.entries

/-- The text of a vector with at most `places` decimals. -/
def pointText (places : Nat) (xs : List Float) : String := gridText places (.ofList xs)

end DirectSearch.Text
