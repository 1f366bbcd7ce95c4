import DirectSearch.SimplexSearch.Iterate
/-!
# Simplex search — vertices put together by hand

A state may be given vertices by hand: any number of them, at arrays of
any shape. An iteration on more than `n` of them is the iteration on a
simplex with extra vertices. With fewer it ends where the worst vertex is
looked for, after the centroid.
-/

namespace DirectSearch.SimplexSearch

open Session Simplex

/-- A state with vertices put together by hand. -/
structure HandMade (α : Type) where
  vertices : List (Vertex α (Grid α))
  /-- The mean of the values against which stagnation is measured. -/
  mean : α
  /-- How often the simplex was rebuilt. -/
  restarts : Int
  /-- The distance from the best vertex to the last. -/
  diameter : α

namespace HandMade

variable {α : Type} [Scalar α] {n : Nat} {P : Type} {extra : Nat} {ρ : Type}

/-- The state of a search as if put together by hand. -/
def ofState [Coordinates α P] (st : StateOn α n P extra) : HandMade α :=
  { st with vertices := st.vertices.toList.map fun v => ⟨Coordinates.toGrid v.point, v.value⟩ }

/-- The state that more than `n` vertices make up. -/
def toState (st : HandMade α) (h : n < st.vertices.length) :
    StateOn α n (Grid α) (st.vertices.length - (n + 1)) :=
  { st with vertices := ⟨st.vertices.toArray, by simp; omega⟩ }

/-- **One iteration.** -/
def iterate (p : Problem α n) (o : Options α) : Step α ρ (HandMade α) MoveReport := fun s =>
  if h : n < s.state.vertices.length then
    match SimplexSearch.iterate p o (s.withState (s.state.toState h)) with
    | .ok r t => .ok r (t.withState (ofState t.state))
    | .error fault t => .error fault (t.withState (ofState t.state))
  else
    match Coordinates.centroid (s.state.vertices.map (·.point)) with
    | .ok _ => .error .indexOutside s
    | .error fault => .error fault s

end HandMade

end DirectSearch.SimplexSearch
