import DirectSearch.Merit
import DirectSearch.Proofs.Search.Steps
/-!
# Problems — the violation at a point

At a point, where the constraints return as many values as there are bounds,
nothing fails: the violation is the sum of the squared excesses of the point
over its bounds, and that of the constraint values over theirs after it
(`Problem.violationOf_eq`). A problem without constraints and without a finite
bound has none, and does without the sum.
-/

namespace DirectSearch

open Scalar

variable {α : Type} [Scalar α] {n : Nat}

/-! ## Between bounds -/

namespace Point

/-- Every entry is a number. -/
def IsDefined (x : Point α n) : Prop := ∀ i, le (x.get i) (x.get i)

instance (x : Point α n) : Decidable x.IsDefined :=
  inferInstanceAs (Decidable (∀ i, le (x.get i) (x.get i)))

/-- Every entry lies between its bounds. -/
def Within (x lo hi : Point α n) : Prop :=
  ∀ i, le (lo.get i) (x.get i) ∧ le (x.get i) (hi.get i)

instance (x lo hi : Point α n) : Decidable (x.Within lo hi) :=
  inferInstanceAs (Decidable (∀ i, le (lo.get i) (x.get i) ∧ le (x.get i) (hi.get i)))

end Point

namespace Problem

/-- A point within its bounds whose constraint values are within theirs. -/
def IsFeasible (p : Problem α n) (x : Point α n) (y : Point α p.constraintCount) : Prop :=
  x.Within p.lower p.upper ∧ y.Within p.constraintLower p.constraintUpper

/-- No bound is anything but a number. -/
structure HasBounds (p : Problem α n) : Prop where
  lower : p.lower.IsDefined
  upper : p.upper.IsDefined
  constraintLower : Point.IsDefined p.constraintLower
  constraintUpper : Point.IsDefined p.constraintUpper

end Problem

/-! ## Excesses -/

/-- The excess of a value over its lower or its upper bound, the larger
one. -/
def excess (lo v hi : α) : α := maximum (maximum (lo - v) zero) (maximum (v - hi) zero)

namespace Point

/-- The sum of the squared excesses of a point over its bounds. -/
def excessOver (x lo hi : Point α n) : α :=
  sum (List.ofFn fun i => square (excess (lo.get i) (x.get i) (hi.get i)))

/-- Between points all shapes are the same. -/
theorem totalExcess_toGrid (x lo hi : Point α n) :
    totalExcess x.toGrid lo.toGrid hi.toGrid = .ok (x.excessOver lo hi) := by
  have hentries : (List.zipWith maximum
      (List.zipWith (fun l v => maximum (l - v) zero) lo.toList x.toList)
      (List.zipWith (fun v h => maximum (v - h) zero) x.toList hi.toList)).map square =
        List.ofFn fun i => square (excess (lo.get i) (x.get i) (hi.get i)) := by
    refine List.ext_getElem (by simp) fun i _ _ => ?_
    simp [excess, Vector.get]
  have hshape (y z : Point α n) : y.toGrid.shape = z.toGrid.shape := by
    simp [toGrid, Grid.ofList]
  have hexcesses : excesses x.toGrid lo.toGrid hi.toGrid =
      .ok ⟨lo.toGrid.shape, List.zipWith maximum
        (List.zipWith (fun l v => maximum (l - v) zero) lo.toList x.toList)
        (List.zipWith (fun v h => maximum (v - h) zero) x.toList hi.toList)⟩ := by
    rw [excesses, Grid.zipWith_of_shape _ (hshape lo x), Grid.zipWith_of_shape _ (hshape x hi)]
    exact Grid.zipWith_of_shape _ (hshape lo x)
  rw [totalExcess, hexcesses, excessOver, ← hentries]
  rfl

end Point

/-! ## The violation -/

namespace Problem

variable {p : Problem α n} {x : Point α n} {y : Point α p.constraintCount} {c : Counters}

/-- At a point the constraints return these values, if there are any. -/
def ReturnsAt (p : Problem α n) (c : Counters) (x : Point α n) (y : Point α p.constraintCount) :
    Prop :=
  0 < p.constraintCount → p.constraintsOf x.toGrid c = .ok y.toGrid c.askConstraint

/-- The sum of all squared excesses, of the point and of the constraint
values. -/
def totalViolation (p : Problem α n) (x : Point α n) (y : Point α p.constraintCount) : α :=
  if p.constraintCount = 0 then x.excessOver p.lower p.upper
  else x.excessOver p.lower p.upper + y.excessOver p.constraintLower p.constraintUpper

theorem constraintCount_of_isUnconstrained (h : p.isUnconstrained) : p.constraintCount = 0 := by
  simp only [isUnconstrained, Bool.and_eq_true, beq_iff_eq] at h
  exact h.1.1

theorem bounds_of_isUnconstrained (h : p.isUnconstrained) (i : Fin n) :
    ¬ isFinite (p.lower.get i) ∧ ¬ isFinite (p.upper.get i) := by
  simp only [isUnconstrained, Bool.and_eq_true, Bool.not_eq_true', Vector.any_eq_false] at h
  exact ⟨h.1.2 i.val i.isLt, h.2 i.val i.isLt⟩

/-- Where a problem is unconstrained, nothing is computed or counted. -/
theorem violationOf_of_isUnconstrained {g : Grid α} (h : p.isUnconstrained) :
    p.violationOf g c = .ok zero c := by
  simp only [violationOf, if_pos h]
  rfl

/-- **The violation at a point** is the sum of all squared excesses, or zero
where the problem is unconstrained; the constraints are asked for once, if
there are any. -/
theorem violationOf_eq (h : p.ReturnsAt c x y) :
    p.violationOf x.toGrid c = .ok (if p.isUnconstrained then zero else p.totalViolation x y)
      (if p.constraintCount = 0 then c else c.askConstraint) := by
  by_cases hfree : p.isUnconstrained
  · rw [violationOf_of_isUnconstrained hfree, if_pos hfree,
      if_pos (constraintCount_of_isUnconstrained hfree)]
  simp only [violationOf, if_neg hfree, totalViolation]
  refine bind_eq_ok.2 ⟨_, c, demand_eq_ok.2 ⟨Point.totalExcess_toGrid x _ _, rfl⟩, ?_⟩
  by_cases hcount : p.constraintCount = 0
  · rw [if_pos hcount, if_pos hcount, if_pos hcount]
    rfl
  · rw [if_neg hcount, if_neg hcount, if_neg hcount]
    refine bind_eq_ok.2 ⟨_, _, h (Nat.pos_of_ne_zero hcount), ?_⟩
    exact bind_eq_ok.2 ⟨_, _, demand_eq_ok.2 ⟨Point.totalExcess_toGrid y _ _, rfl⟩, rfl⟩

end Problem

end DirectSearch
