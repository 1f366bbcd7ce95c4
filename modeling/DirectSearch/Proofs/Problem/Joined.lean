import DirectSearch.Proofs.Problem.Violation
import DirectSearch.Proofs.Problem.WellFormed
/-!
# Problems — all constraints as one vector

Whatever is stated by functions that must not be positive or must vanish can
be stated by the vector constraint alone: it returns the values of all three
blocks, and its bounds are those of the problem. What is then built
(`Statement.build_joined`) has the same violation (`violationOf_joined`).
-/

namespace DirectSearch

open Scalar

variable {α : Type} {n : Nat}

namespace Problem

/-- All constraints as one function. -/
def joint (p : Problem α n) : Callback α (Entries α) := fun c x =>
  (p.constraintValues c x).map fun values => .ofList values.entries

/-- The problem with all constraints in its vector constraint. -/
def joined (p : Problem α n) : Problem α n :=
  { p with
    block := some p.joint
    blockSize := p.constraintCount
    inequalities := []
    equalities := []
    constraintLower := p.constraintLower
    constraintUpper := p.constraintUpper }

end Problem

/-- The statement of a problem with all constraints in its vector
constraint. -/
def Statement.joined (s : Statement α) (p : Problem α n) : Statement α :=
  { s with
    block := some (.function p.joint)
    constraintLower := some (.ofList p.constraintLower.toList)
    constraintUpper := some (.ofList p.constraintUpper.toList)
    constraintSize := .absent
    inequalities := []
    equalities := [] }

/-- A list of the right size is a bound as it is. -/
theorem spreadBound_toList {m : Nat} (v : Vector α m) (filling : α) (name : String) :
    spreadBound (some (.ofList v.toList)) (.whole m) filling name = .ok v.toList := by
  refine except_bind_eq_ok.2 ⟨v.toList, Entries.ravel_ofList v.toList, ?_⟩
  rw [if_pos (by simp)]
  rfl

/-- **All constraints stated as one** are built as one. -/
theorem Statement.build_joined [Extended α] {s : Statement α} {p : Problem α n}
    (h : s.build = .ok ⟨n, p⟩) : (s.joined p).build = .ok ⟨n, p.joined⟩ := by
  have hreads := reads_of_build h
  refine build_of_reads ⟨hreads.name, hreads.objective, rfl, rfl, rfl, hreads.start, hreads.lower,
    hreads.upper, hreads.ordered, ?_, ?_, ?_, hreads.constraintOrdered⟩
  · change ((Entries.ofList p.constraintLower.toList).ravel.map fun xs => (xs.length : Int)) = _
    rw [Entries.ravel_ofList]
    simp [Except.map, Problem.joined]
  · exact ⟨p.constraintLower.toList, spreadBound_toList _ _ _, by simp [Problem.joined]⟩
  · exact ⟨p.constraintUpper.toList, spreadBound_toList _ _ _, by simp [Problem.joined]⟩

namespace Problem

variable {p : Problem α n} {x : Point α n} {y : Point α p.constraintCount} {c : Counters}

/-- **What the constraints return, block by block.** Where those that must not
be positive return `gs` and those that must vanish return `hs`, the values of
the vector constraint stand in front of them, as many as it should have. -/
theorem returnsAt_iff {gs hs : List α} (hgs : Singles c.askConstraint x.toGrid p.inequalities gs)
    (hhs : Singles c.askConstraint x.toGrid p.equalities hs) :
    p.ReturnsAt c x y ↔ (0 < p.constraintCount →
      ∃ vs, p.BlockReturns c.askConstraint x.toGrid vs ∧ vs.length = p.blockSize ∧
        y.toList = vs ++ gs ++ hs) := by
  refine forall_congr' fun hcount => ?_
  rw [constraintsOf_eq_ok_iff hgs hhs]
  constructor
  · rintro ⟨-, vs, hvs, hsize, hy, -⟩
    exact ⟨vs, hvs, hsize, congrArg Grid.entries hy⟩
  · rintro ⟨vs, hvs, hsize, hy⟩
    exact ⟨hcount, vs, hvs, hsize, congrArg Grid.ofList hy, rfl⟩

/-- The constraints stated as one return the values of all. -/
theorem ReturnsAt.blockReturns_joined (h : p.ReturnsAt c x y) (hcount : 0 < p.constraintCount) :
    p.joined.BlockReturns c.askConstraint x.toGrid y.toList := by
  obtain ⟨-, hvalues, -, -⟩ := constraintsOf_eq_ok.1 (h hcount)
  refine ⟨.ofList y.toList, ?_, Entries.ravel_ofList _⟩
  rw [joint, hvalues]
  rfl

/-- So they return what they returned before. -/
theorem ReturnsAt.joined (h : p.ReturnsAt c x y) : p.joined.ReturnsAt c x y := by
  have hnone : Singles c.askConstraint x.toGrid ([] : List (Callback α (Entries α))) [] := .nil
  refine (returnsAt_iff (p := p.joined) hnone hnone).2 fun hcount =>
    ⟨y.toList, h.blockReturns_joined hcount, Vector.length_toList, ?_⟩
  rw [List.append_nil, List.append_nil]
  rfl

/-- **The violation is the same** whether the constraints are stated apart or
as one. -/
theorem violationOf_joined [Scalar α] (h : p.ReturnsAt c x y) :
    p.joined.violationOf x.toGrid c = p.violationOf x.toGrid c := by
  rw [violationOf_eq h, violationOf_eq h.joined]
  rfl

end Problem

end DirectSearch
