import DirectSearch.Grid
/-!
# Entries — numbers as a caller hands them over

A start point or a bound may be handed over as a single number, a list or
lists within lists. It is an array of numbers when all parts at one depth
have the same shape, and is then read row by row. An entry that is no
number spoils the array, but only where its shape is right.
-/

namespace DirectSearch

/-- A number, something that is no number and why, or a list of such. -/
inductive Entries (α : Type) where
  | one (x : α)
  | broken (fault : Fault)
  | many (parts : List (Entries α))

namespace Entries

variable {α : Type}

/-- The lengths along each depth, where there is a shape. -/
def shape : Entries α → Option (List Nat)
  | one _ | broken _ => some []
  | many parts =>
    match shapes parts with
    | none => none
    | some [] => some [0]
    | some (s :: rest) => if rest.all (· == s) then some ((rest.length + 1) :: s) else none
where
  /-- The shapes of all parts, if each has one. -/
  shapes : List (Entries α) → Option (List (List Nat))
  | [] => some []
  | p :: ps =>
    match shape p, shapes ps with
    | some s, some rest => some (s :: rest)
    | _, _ => none

/-- The numbers, row by row, or the first fault. -/
def numbers : Entries α → Except Fault (List α)
  | one x => .ok [x]
  | broken fault => .error fault
  | many parts => all parts
where
  /-- The numbers of all parts. -/
  all : List (Entries α) → Except Fault (List α)
  | [] => .ok []
  | p :: ps => do
    let xs ← numbers p
    return xs ++ (← all ps)

/-- The most depths that an array has. -/
def maxDepth : Nat := 64

/-- The array that the data make up. -/
def toGrid (e : Entries α) : Except Fault (Grid α) :=
  match e.shape with
  | none => .error .malformedArray
  | some shape =>
    if maxDepth < shape.length then .error .malformedArray
    else e.numbers.map fun xs => ⟨shape, xs⟩

/-- The numbers of an array; data without a shape is refused. -/
def ravel (e : Entries α) : Except Fault (List α) := e.toGrid.map (·.entries)

/-- A flat list of numbers. -/
def ofList (xs : List α) : Entries α := many (xs.map one)

end Entries

/-- A list as a vector of size `n`, or a fault if it has another size. -/
def sized {α : Type} (fault : Fault) (n : Nat) (xs : List α) : Except Fault (Vector α n) :=
  if h : xs.length = n then .ok ⟨xs.toArray, by simpa using h⟩ else .error fault

/-- A vector is read back from its list. -/
@[simp] theorem sized_toList {α : Type} (fault : Fault) {n : Nat} (x : Vector α n) :
    sized fault n x.toList = .ok x := by
  rcases x with ⟨a, size⟩
  simp [sized, Vector.toList, size]

/-- A size that an array may have: eight bytes for every entry must be
countable in 63 bits. -/
def arraySize (m : Int) : Except Fault Nat :=
  if m < 0 || Int.pow 2 60 ≤ m then .error .impossibleSize else .ok m.toNat

end DirectSearch
