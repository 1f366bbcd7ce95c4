import DirectSearch.DirectionStream
import DirectSearch.MeshSearch.Run
/-!
# Mesh search — directions from a seed

A caller may leave the directions to the settings, which name a kind of
stream and a seed. The streams are this program's own and belong to its
outer layer: the search takes any sequence of directions, and nothing that
is proved of it looks into a stream.
-/

namespace DirectSearch.MeshSearch

variable {n : Nat}

/-- The stream of directions that a table of settings asks for. -/
def streamOf (s : Settings) (fresh : Nat) : Except Fault DirectionStream := do
  DirectionStream.make (← StreamKind.named (s.get "directions")) (s.get "seed") fresh

/-- The directions of the stream that a table of settings asks for. -/
def streamed (s : Settings) (fresh : Nat) : Except Fault (Directions Float) := do
  let stream ← streamOf s fresh
  return fun size k => (stream.vectorAt size k).map Point.toGrid

/-- A mesh search set up with given directions, or with those of the
stream that the settings ask for. -/
def setUp (p : Problem Float n) (x : Option (Entries Float)) (s : Settings)
    (directions : Option (Directions Float)) (fresh : Nat) :
    Except Fault (MeshSearch Float n) :=
  setUpAlong p x s (directions.elim (streamed s fresh) .ok)

end DirectSearch.MeshSearch
