import DirectSearch.Entries
import DirectSearch.Number
import DirectSearch.Coordinates
/-!
# Poll set — the directions that one vector spans

A vector `q` spans an orthogonal basis, the columns of
`H = (q·q) I - 2 q qᵀ`. A poll looks at the `2n` points that lie a mesh
size along the columns and against them. Such a point is reached by a
`Displacement`, without the matrix; `orthogonalBasis` is the matrix.

A displaced point may also be written into a place that already holds a
vector, even over the point it starts from. `Places.write` does that entry
by entry, in the order in which memory would be overwritten.

An array may stand in place of the vector or of the point, if what is to
be taken away fills the shape of the point.
-/

namespace DirectSearch

open Scalar

/-- One of the `2n` directions: a column, and which way along it. -/
structure Heading (n : Nat) where
  axis : Fin n
  forward : Bool
deriving DecidableEq

namespace Heading

variable {n : Nat}

/-- `1` along the column, `-1` against it. -/
def sign (d : Heading n) : Int := if d.forward then 1 else -1

/-- All headings in the order of a poll: every column forwards, then
every column backwards. -/
def all (n : Nat) : List (Heading n) :=
  (List.finRange n).map (⟨·, true⟩) ++ (List.finRange n).map (⟨·, false⟩)

/-- There are two headings for every axis. -/
theorem length_all (n : Nat) : (all n).length = 2 * n := by
  simp only [all, List.length_append, List.length_map, List.length_finRange]
  omega

/-- No heading comes twice. -/
theorem nodup_all (n : Nat) : (all n).Nodup := by
  refine List.nodup_append.2 ⟨?_, ?_, ?_⟩
  · exact List.Pairwise.map _ (fun i j h he => h (congrArg axis he)) (List.nodup_finRange n)
  · exact List.Pairwise.map _ (fun i j h he => h (congrArg axis he)) (List.nodup_finRange n)
  · simp

/-- None is left out. -/
theorem mem_all (d : Heading n) : d ∈ all n := by
  obtain ⟨i, b⟩ := d
  cases b <;> simp [all]

end Heading

variable {α : Type} [Scalar α] {n : Nat}

/-! ## Displacements -/

/-- A vector to be taken away from a point, and a number to be added to
some of its entries. -/
structure Displacement (α : Type) (n : Nat) where
  taken : Point α n
  raised : List (Fin n)
  added : α

namespace Displacement

/-- **The step `s δ H eᵢ`**, as the multiple `2 s δ qᵢ` of `q` to be taken
away and `s δ (q·q)` to be added at the axis. -/
def along (q : Point α n) (i : Fin n) (s : Int) (delta : α) : Displacement α n :=
  let c := ofInt (2 * s) * delta * q.get i
  ⟨q.map (c * ·), [i], Point.dot q q * ofInt s * delta⟩

/-- The point that a displacement leads to. -/
def apply (d : Displacement α n) (x : Point α n) : Point α n :=
  d.raised.foldl (fun y k => Point.shift y k d.added) (Point.sub x d.taken)

end Displacement

/-- **The point `x + s δ H eᵢ`.** -/
def pointAlong (x q : Point α n) (i : Fin n) (s : Int) (delta : α) : Point α n :=
  (Displacement.along q i s delta).apply x

/-! ## Arrays in place of vectors -/

/-- The matrix product of an array with itself, where it is a number. -/
def selfProduct (q : Grid α) : Except Fault α :=
  match q.shape.reverse with
  | [] => .error .shapesDiffer
  | [_] => .ok (sum (q.entries.map square))
  | j :: k :: _ =>
    if j = k then q.single.map fun x => sum [square x] else .error .shapesDiffer

/-- An array repeated to a shape, its `n` entries in one row. -/
def filled (n : Nat) (shape : List Nat) (g : Grid α) : Except Fault (Point α n) := do
  sized .shapesDiffer n (← g.fill shape).entries

omit [Scalar α] in
/-- A point fills its own space. -/
theorem filled_point (x : Point α n) : filled n [n] x.toGrid = .ok x := by
  rw [filled, Grid.fill_of_shape (by simp [Point.toGrid, Grid.ofList])]
  exact sized_toList _ x

namespace Displacement

/-- The step of an array `q`, given `2 s` and `s` as scalars, from an
array of a shape with `n` entries. What is taken away must fill the shape,
and the number is added to all entries of a row. -/
def ofArray (n : Nat) (shape : List Nat) (q : Grid α) (i : Int) (twice once delta : α) :
    Except Fault (Displacement α n) := do
  let row ← q.row i
  let product ← Grid.zipWith (· * ·) (row.map (twice * delta * ·)) q
  let taken ← filled n shape product
  let k ← Grid.rowPlace shape i
  let size := Grid.places shape.tail
  let added := (← selfProduct q) * once * delta
  let raised := (List.range size).filterMap fun j =>
    if h : k * size + j < n then some ⟨k * size + j, h⟩ else none
  return ⟨taken, raised, added⟩

/-- An array that is a vector gives the step along the vector. -/
theorem ofArray_point (q : Point α n) (i : Fin n) (s : Int) (delta : α) :
    ofArray n [n] q.toGrid i.val (ofInt (2 * s)) (ofInt s) delta = .ok (along q i s delta) := by
  have size : q.toList.length = n := by simp
  have row : q.toGrid.row i.val = .ok (.ofScalar q[i]) := by
    have h := Grid.row_ofList q.toList (i.cast size.symm)
    simpa [Point.toGrid] using h
  have product (c : α) : Grid.zipWith (· * ·) (Grid.ofScalar c) q.toGrid
      = .ok (Point.toGrid (q.map (c * ·))) := by
    rw [Grid.zipWith_ofScalar _ _ (by simp [Point.toGrid, Grid.ofList])]
    simp [Point.toGrid, Grid.ofList, Grid.map, Vector.toList_map]
  have self : selfProduct q.toGrid = .ok (Point.dot q q) := by
    simp only [selfProduct, Point.toGrid, Grid.ofList, Point.dot, Vector.zipWith_self,
      Vector.toList_map]
    rfl
  have place : Grid.rowPlace [n] i.val = .ok i.val := by
    simp [Grid.rowPlace, placeOf_val]
  simp only [ofArray, row, bind, Except.bind]
  rw [show (Grid.ofScalar q[i]).map (ofInt (2 * s) * delta * ·)
    = Grid.ofScalar (ofInt (2 * s) * delta * q.get i) from rfl, product]
  simp only [filled_point, place, self]
  simp [along, Grid.places, pure, Except.pure]

/-- The same step for an index and a number `s` in any form. -/
def ofStated (n : Nat) (shape : List Nat) (q : Grid α) (i : Except Fault Int) (s : Number α)
    (delta : α) : Except Fault (Displacement α n) := do
  let twice ← s.double.toScalar
  ofArray n shape q (← i) twice (← s.toScalar) delta

end Displacement

/-! ## The matrix -/

/-- The entry of `(q·q) I - 2 q qᵀ` in one row and column. -/
def basisEntry (q : Point α n) (i j : Fin n) : α :=
  Point.dot q q * (if i = j then one else zero) - two * (q.get i * q.get j)

/-- The matrix `(q·q) I - 2 q qᵀ`, row by row. -/
def orthogonalBasis (q : Point α n) : Vector (Vector α n) n :=
  Vector.ofFn fun i => Vector.ofFn fun j => basisEntry q i j

/-- The matrix of the entries of an array, if its product with itself is
a number. -/
def basisOf (q : Grid α) : Except Fault (Vector (Vector α q.size) q.size) :=
  (selfProduct q).map fun _ => orthogonalBasis ⟨q.entries.toArray, by simp [Grid.size]⟩

/-! ## Writing into a place -/

/-- Where a point is written. -/
inductive Target where
  /-- Over the point it starts from. -/
  | start
  /-- Into another vector. -/
  | buffer
deriving DecidableEq

/-- The point that a step starts from, and another vector. -/
structure Places (α : Type) (n : Nat) where
  start : Point α n
  buffer : Point α n

namespace Places

/-- What a place holds. -/
def read (p : Places α n) : Target → Point α n
  | .start => p.start
  | .buffer => p.buffer

/-- One entry of a place overwritten. -/
def writeEntry (p : Places α n) (t : Target) (k : Fin n) (v : α) : Places α n :=
  match t with
  | .start => { p with start := p.start.set k.val v k.isLt }
  | .buffer => { p with buffer := p.buffer.set k.val v k.isLt }

/-- **The displaced point written into a place**: first every entry of
the difference, one after the other, then the number at every place that
is raised. -/
def write (p : Places α n) (t : Target) (d : Displacement α n) : Places α n :=
  let p := (List.finRange n).foldl (fun p k => p.writeEntry t k (p.start.get k - d.taken.get k)) p
  d.raised.foldl (fun p k => p.writeEntry t k ((p.read t).get k + d.added)) p

end Places

end DirectSearch
