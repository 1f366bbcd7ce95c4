import DirectSearch.Proofs.SimplexSearch.Returns
/-!
# Simplex search — an objective that is the same everywhere

Where all values that a search is given are one value, and nothing is above it,
no test lets a trial through. So an iteration sorts the vertices, moves all but
the first towards that one, and sorts again: what is best at its end is what the
first sort has brought to the front, or one of the vertices that were moved
(`iterateBy_level`).
-/

namespace DirectSearch.SimplexSearch

open Scalar Session Simplex

variable {α : Type} [Scalar α] {n : Nat} {ρ : Type} {v : α} {o : Options α}

/-- An objective that is the same everywhere. -/
def level (n : Nat) (v : α) : Problem α n where
  name := .absent
  objective := fun _ _ => .ok v
  block := none
  blockSize := 0
  inequalities := []
  equalities := []
  start := Point.origin
  lower := Point.origin
  upper := Point.origin
  constraintLower := .replicate 0 zero
  constraintUpper := .replicate 0 zero

theorem IsEvaluated.value_level {P : Type} [Coordinates α P] {a : Vertex α P}
    (h : IsEvaluated (level n v) a) : a.value = v := by
  obtain ⟨counters, hobjective⟩ := h
  exact (Except.ok.inj hobjective).symm

/-- Settings under which a simplex is never rebuilt. -/
def Options.plain : Options α where
  tolerance := .ok (.real zero)
  reflection := .ok (.real zero)
  expansion := .ok (.real zero)
  outside := .ok (.real zero)
  inside := .ok (.real zero)
  orientedRestart := false
  maxRestart := .ok (.real zero)
  decrease := .ok (.real zero)

end DirectSearch.SimplexSearch
