import DirectSearch.Fault
/-!
# Grids — arrays of any shape

A grid has a shape, the lengths along its axes, and its entries row by
row. Two grids are combined entry by entry. Their shapes are aligned at
the last axis, and along an axis where one of them has a single place that
place is repeated; lengths that differ otherwise do not fit.

A row is what an index along the first axis leads to. An array without
axes has no rows.
-/

namespace DirectSearch

/-- A place named by an index that may count from the end. -/
def placeOf (size : Nat) (i : Int) : Option (Fin size) :=
  let j := if i < 0 then i + size else i
  if h : 0 ≤ j ∧ j < size then some ⟨j.toNat, by omega⟩ else none

/-- A place is named by its own index. -/
theorem placeOf_val {size : Nat} (k : Fin size) : placeOf size k.val = some k := by
  have h : ¬ (k.val : Int) < 0 := by omega
  simp [placeOf, h]

/-- An array: the lengths along its axes, and its entries row by row. -/
structure Grid (α : Type) where
  shape : List Nat
  entries : List α

namespace Grid

variable {α β γ : Type}

/-- A row of numbers. -/
def ofList (xs : List α) : Grid α := ⟨[xs.length], xs⟩

/-- A single number, without axes. -/
def ofScalar (x : α) : Grid α := ⟨[], [x]⟩

/-- The number of places of a shape. -/
def places (shape : List Nat) : Nat := shape.foldl (· * ·) 1

/-- The number of entries. -/
def size (g : Grid α) : Nat := g.entries.length

/-- The entry of an array that has no other. -/
def single (g : Grid α) : Except Fault α :=
  match g.entries with
  | [x] => .ok x
  | _ => .error .wrongType

/-- Another entry in every place. -/
def map (f : α → β) (g : Grid α) : Grid β := ⟨g.shape, g.entries.map f⟩

/-! ## Rows -/

/-- The place of a row that an index leads to. -/
def rowPlace (shape : List Nat) (i : Int) : Except Fault Nat :=
  match (placeOf (shape.headD 0) i).map (·.val) with
  | some k => .ok k
  | none => .error .indexOutside

/-- The row that an index leads to. -/
def row (g : Grid α) (i : Int) : Except Fault (Grid α) := do
  let k ← rowPlace g.shape i
  let size := places g.shape.tail
  return ⟨g.shape.tail, (g.entries.drop (k * size)).take size⟩

/-- Every entry of a row changed. -/
def modifyRow (f : α → α) (g : Grid α) (i : Int) : Except Fault (Grid α) := do
  let k ← rowPlace g.shape i
  let size := places g.shape.tail
  return { g with entries := g.entries.mapIdx fun j x => if j / size = k then f x else x }

/-! ## Combining -/

/-- The length along an axis that two lengths make up. -/
def commonLength (j k : Nat) : Except Fault Nat :=
  if j = k || k = 1 then .ok j else if j = 1 then .ok k else .error .shapesDiffer

/-- The shape that two shapes make up, all of them given from the last
axis to the first. -/
def commonShape : List Nat → List Nat → Except Fault (List Nat)
  | [], t => .ok t
  | s, [] => .ok s
  | j :: s, k :: t => do
    let l ← commonLength j k
    return l :: (← commonShape s t)

/-- Where the entry at place `k` of a shape is found in a grid that is
repeated to this shape, both given from the last axis to the first. -/
def sourcePlace : List Nat → List Nat → Nat → Nat
  | l :: shape, j :: source, k =>
    (if j = 1 then 0 else k % l) + j * sourcePlace shape source (k / l)
  | _, _, _ => 0

/-- The entries of a grid repeated to a shape, given from the last axis
to the first. -/
def repeated (shape : List Nat) (g : Grid α) : List α :=
  (List.range (places shape)).filterMap fun k =>
    g.entries[sourcePlace shape g.shape.reverse k]?

/-- **Two grids combined,** entry by entry. -/
def zipWith (f : α → β → γ) (a : Grid α) (b : Grid β) : Except Fault (Grid γ) :=
  if a.shape = b.shape then .ok ⟨a.shape, List.zipWith f a.entries b.entries⟩
  else match a, b with
    | ⟨[], [x]⟩, b => .ok (b.map (f x))
    | a, ⟨[], [y]⟩ => .ok (a.map (f · y))
    | a, b => do
      let shape ← commonShape a.shape.reverse b.shape.reverse
      return ⟨shape.reverse, List.zipWith f (a.repeated shape) (b.repeated shape)⟩

/-- A grid repeated so as to fill a shape. -/
def fill (shape : List Nat) (g : Grid α) : Except Fault (Grid α) :=
  if g.shape = shape then .ok g
  else do
    let common ← commonShape g.shape.reverse shape.reverse
    if common = shape.reverse then return ⟨shape, g.repeated common⟩ else throw .shapesDiffer

/-- Grids put one after the other along the first axis. Along all others
their lengths must be the same. -/
def concat : List (Grid α) → Except Fault (Grid α)
  | [] => .ok ⟨[0], []⟩
  | g :: gs =>
    if gs.all fun h => h.shape.tail = g.shape.tail && h.shape.length = g.shape.length then
      .ok ⟨((g :: gs).map (·.shape.headD 0)).foldl (· + ·) 0 :: g.shape.tail,
        (g :: gs).flatMap (·.entries)⟩
    else .error .shapesDiffer

/-- A grid fills its own shape. -/
theorem fill_of_shape {g : Grid α} {shape : List Nat} (h : g.shape = shape) :
    g.fill shape = .ok g := by
  simp [fill, h]

/-- A number is combined with every entry. -/
theorem zipWith_ofScalar (f : α → β → γ) (x : α) {b : Grid β} (h : b.shape ≠ []) :
    zipWith f (ofScalar x) b = .ok (b.map (f x)) := by
  simp [zipWith, ofScalar, h.symm]

/-- The row of a list is one of its entries. -/
theorem row_ofList (xs : List α) (k : Fin xs.length) :
    (ofList xs).row k.val = .ok (ofScalar xs[k]) := by
  have one : (xs.drop k.val).take 1 = [xs[k]] := by
    simp [List.take_one, List.head?_drop]
  simp [row, rowPlace, ofList, placeOf_val, places, one, ofScalar, bind, Except.bind, pure,
    Except.pure]

/-- Grids of one shape are combined place by place. -/
theorem zipWith_of_shape (f : α → β → γ) {a : Grid α} {b : Grid β} (h : a.shape = b.shape) :
    zipWith f a b = .ok ⟨a.shape, List.zipWith f a.entries b.entries⟩ := by
  simp [zipWith, h]

end Grid

end DirectSearch
