import DirectSearch.Proofs.Binary64.Differences
import DirectSearch.Proofs.Problem.Violation
import DirectSearch.Proofs.Problem.WellFormed
/-!
# Problems — when the violation vanishes

In 64-bit arithmetic the violation at a finite point is a number, and not a
negative one. It is zero where the point is feasible, but not only there. It
is zero wherever an unconstrained problem is looked at, even where a bound is
infinite in the wrong direction and no point is feasible; and it is zero where
every excess is so small that its square is rounded to zero. Nowhere else
(`violation_vanishes_iff`).
-/

namespace DirectSearch

open Scalar Binary64

/-! ## A single excess -/

section

variable {lo v hi : Float}

theorem value_excess (hlo : IsNumber lo) (hhi : IsNumber hi) (hv : v.isFinite) :
    IsNumber (excess lo v hi) ∧
      value (excess lo v hi) = max (max (value (lo - v)) 0) (max (value (v - hi)) 0) := by
  have hnumber := (isFinite_iff.1 hv).1
  obtain ⟨hbelow, -⟩ := value_sub hlo hnumber (.inr hv)
  obtain ⟨habove, -⟩ := value_sub hnumber hhi (.inl hv)
  obtain ⟨hbelow, hbelow'⟩ := value_maximum hbelow isNumber_zero
  obtain ⟨habove, habove'⟩ := value_maximum habove isNumber_zero
  obtain ⟨hexcess, hexcess'⟩ := value_maximum hbelow habove
  exact ⟨hexcess, hexcess'.trans (by rw [hbelow', habove']; rfl)⟩

theorem value_excess_nonneg (hlo : IsNumber lo) (hhi : IsNumber hi) (hv : v.isFinite) :
    0 ≤ value (excess lo v hi) := by
  rw [(value_excess hlo hhi hv).2]
  exact (le_max_right _ _).trans (le_max_left _ _)

/-- **No excess is left** just where the value is between its bounds. -/
theorem value_excess_eq_zero_iff (hlo : IsNumber lo) (hhi : IsNumber hi) (hv : v.isFinite) :
    value (excess lo v hi) = 0 ↔ lo.le v ∧ v.le hi := by
  have hnumber := (isFinite_iff.1 hv).1
  have hbelow : value (lo - v) ≤ 0 ↔ lo.le v := by
    rw [← not_lt, sub_pos_iff hlo hnumber (.inr hv), not_lt, Binary64.le_iff]
    exact ⟨fun h => ⟨hlo, hnumber, h⟩, fun h => h.2.2⟩
  have habove : value (v - hi) ≤ 0 ↔ v.le hi := by
    rw [← not_lt, sub_pos_iff hnumber hhi (.inl hv), not_lt, Binary64.le_iff]
    exact ⟨fun h => ⟨hnumber, hhi, h⟩, fun h => h.2.2⟩
  have hnonneg := value_excess_nonneg hlo hhi hv
  rw [← hbelow, ← habove, ← hnonneg.ge_iff_eq', (value_excess hlo hhi hv).2]
  simp

/-- A bound that is infinite is kept, or exceeded by infinitely much. -/
theorem value_excess_infinite (hlo : IsNumber lo) (hhi : IsNumber hi) (hv : v.isFinite)
    (hlo' : ¬ lo.isFinite) (hhi' : ¬ hi.isFinite) :
    value (excess lo v hi) = 0 ∨ value (excess lo v hi) = ⊤ := by
  have hinfinite {z : Float} (hz : IsNumber z) (hz' : ¬ z.isFinite) :
      value z = ⊤ ∨ value z = ⊥ := by
    by_contra hne
    exact hz' (isFinite_iff.2 ⟨hz, fun h => hne (.inl h), fun h => hne (.inr h)⟩)
  have hnumber := (isFinite_iff.1 hv).1
  -- what is finite less what is infinite is infinite, and rounding leaves it alone
  rw [(value_excess hlo hhi hv).2, (value_sub hlo hnumber (.inr hv)).2,
    (value_sub hnumber hhi (.inl hv)).2, ← coe_real hv]
  rcases hinfinite hlo hlo' with h | h <;> rcases hinfinite hhi hhi' with h' | h' <;> rw [h, h'] <;>
    simp

end

/-! ## All of them -/

section

variable {n : Nat} {x lo hi : Point Float n}

namespace Point

/-- Every excess is so small that its square is at most half the least
positive float. -/
def IsFaint (x lo hi : Point Float n) : Prop :=
  ∀ i, value (excess (lo.get i) (x.get i) (hi.get i)) *
    value (excess (lo.get i) (x.get i) (hi.get i)) ≤ ((scaled 1 (-1075) : ℝ) : EReal)

theorem isFinite_get (hx : x.isFinite) (i : Fin n) : (x.get i).isFinite := by
  have hall := Vector.all_eq_true.1 hx i.val i.isLt
  exact hall

theorem IsDefined.isNumber (h : x.IsDefined) (i : Fin n) : IsNumber (x.get i) :=
  le_self_iff.1 (h i)

/-- **The sum of the squared excesses** is zero just where all of them are
faint. -/
theorem value_excessOver (hlo : lo.IsDefined) (hhi : hi.IsDefined) (hx : x.isFinite) :
    IsNumber (x.excessOver lo hi) ∧ 0 ≤ value (x.excessOver lo hi) ∧
      (value (x.excessOver lo hi) = 0 ↔ x.IsFaint lo hi) := by
  have hexcess (i : Fin n) := value_excess (hlo.isNumber i) (hhi.isNumber i) (isFinite_get hx i)
  have hnonneg (i : Fin n) :=
    value_excess_nonneg (hlo.isNumber i) (hhi.isNumber i) (isFinite_get hx i)
  have hsquares : ∀ z ∈ List.ofFn fun i => square (excess (lo.get i) (x.get i) (hi.get i)),
      IsNumber z ∧ 0 ≤ value z := by
    rw [List.forall_mem_ofFn_iff]
    intro i
    exact ⟨(value_square (hexcess i).1).1, value_square_nonneg (hexcess i).1 (hnonneg i)⟩
  obtain ⟨hnumber, hsum, hiff⟩ := value_sum hsquares
  refine ⟨hnumber, hsum, hiff.trans ?_⟩
  have hhalf : scaled 1 (-1075) = 2 ^ (-1075 : ℤ) := by simp [scaled]
  rw [List.forall_mem_ofFn_iff, IsFaint, hhalf]
  exact forall_congr' fun i => value_square_eq_zero_iff (hexcess i).1 (hnonneg i)

/-- Within its bounds a point exceeds none of them. -/
theorem Within.isFaint (hlo : lo.IsDefined) (hhi : hi.IsDefined) (hx : x.isFinite)
    (h : x.Within lo hi) : x.IsFaint lo hi := by
  intro i
  rw [(value_excess_eq_zero_iff (hlo.isNumber i) (hhi.isNumber i) (isFinite_get hx i)).2 (h i),
    zero_mul]
  exact EReal.coe_nonneg.2 (scaled_nonneg 1 (-1075))

/-- Infinite bounds are exceeded by infinitely much or not at all. -/
theorem IsFaint.within_of_infinite (hlo : lo.IsDefined) (hhi : hi.IsDefined) (hx : x.isFinite)
    (hlo' : ∀ i, ¬ (lo.get i).isFinite) (hhi' : ∀ i, ¬ (hi.get i).isFinite)
    (h : x.IsFaint lo hi) : x.Within lo hi := by
  intro i
  refine (value_excess_eq_zero_iff (hlo.isNumber i) (hhi.isNumber i) (isFinite_get hx i)).1 ?_
  refine (value_excess_infinite (hlo.isNumber i) (hhi.isNumber i) (isFinite_get hx i) (hlo' i)
    (hhi' i)).resolve_right fun htop => ?_
  have hle := h i
  rw [htop, EReal.top_mul_top] at hle
  exact absurd (top_le_iff.1 hle) (EReal.coe_ne_top _)

end Point

namespace Problem

variable {p : Problem Float n} {y : Point Float p.constraintCount} {c : Counters}

/-- All excesses are faint, of the point and of the constraint values. -/
def IsFaint (p : Problem Float n) (x : Point Float n) (y : Point Float p.constraintCount) : Prop :=
  x.IsFaint p.lower p.upper ∧ y.IsFaint p.constraintLower p.constraintUpper

theorem value_totalViolation (hp : p.HasBounds) (hx : x.isFinite) (hy : Point.isFinite y) :
    IsNumber (p.totalViolation x y) ∧ 0 ≤ value (p.totalViolation x y) ∧
      (value (p.totalViolation x y) = 0 ↔ p.IsFaint x y) := by
  obtain ⟨hnumber, hnonneg, hiff⟩ := Point.value_excessOver hp.lower hp.upper hx
  obtain ⟨hnumber', hnonneg', hiff'⟩ :=
    Point.value_excessOver hp.constraintLower hp.constraintUpper hy
  unfold totalViolation IsFaint
  by_cases hcount : p.constraintCount = 0
  · rw [if_pos hcount]
    refine ⟨hnumber, hnonneg, hiff.trans (and_iff_left fun i => ?_).symm⟩
    exact absurd i.isLt (by omega)
  · rw [if_neg hcount]
    obtain ⟨hsum, hle, -⟩ := value_add_nonneg hnumber hnumber' hnonneg hnonneg'
    refine ⟨hsum, hnonneg.trans hle, ?_⟩
    rw [value_add_eq_zero_iff hnumber hnumber' hnonneg hnonneg', hiff, hiff']

theorem IsFeasible.isFaint (hp : p.HasBounds) (hx : x.isFinite) (hy : Point.isFinite y)
    (h : p.IsFeasible x y) : p.IsFaint x y :=
  ⟨h.1.isFaint hp.lower hp.upper hx, h.2.isFaint hp.constraintLower hp.constraintUpper hy⟩

/-- Where a problem is unconstrained, nothing infeasible is faint. -/
theorem IsFaint.isFeasible (hp : p.HasBounds) (hx : x.isFinite) (hfree : p.isUnconstrained)
    (h : p.IsFaint x y) : p.IsFeasible x y := by
  have hcount := constraintCount_of_isUnconstrained hfree
  have hbounds := bounds_of_isUnconstrained hfree
  refine ⟨h.1.within_of_infinite hp.lower hp.upper hx (fun i => (hbounds i).1)
    (fun i => (hbounds i).2), fun i => ?_⟩
  exact absurd i.isLt (by omega)

end Problem

theorem same_zero_iff {v : Float} (h : IsNumber v) : same v zero ↔ value v = 0 := by
  rw [same, Bool.and_eq_true]
  change v.le zero ∧ (zero : Float).le v ↔ _
  rw [Binary64.le_iff, Binary64.le_iff]
  constructor
  · rintro ⟨⟨-, -, hle⟩, -, -, hge⟩
    exact hle.antisymm hge
  · intro hzero
    exact ⟨⟨h, isNumber_zero, hzero.le⟩, isNumber_zero, h, hzero.ge⟩

theorem same_comm {a b : Float} : same a b = same b a := Bool.and_comm _ _

/-- **When the violation vanishes.** At a finite point with finite constraint
values, between bounds that are numbers, the violation is not negative. It is
zero where the point is feasible, and otherwise only where the problem is
unconstrained or all excesses are faint. That of an unconstrained problem is
the sum of its squared excesses just where the point is feasible. -/
theorem violation_vanishes_iff {p : Problem Float n} {x : Point Float n}
    {y : Point Float p.constraintCount} {c : Counters} (hp : p.HasBounds) (hx : x.isFinite)
    (hy : Point.isFinite y) (hreturns : p.ReturnsAt c x y) :
    ∃ v c', p.violationOf x.toGrid c = .ok v c' ∧ le zero v ∧
      (same v zero ↔ p.isUnconstrained ∨ p.IsFaint x y) ∧
      (p.IsFeasible x y → same v zero) ∧
      (p.isUnconstrained → (same v (p.totalViolation x y) ↔ p.IsFeasible x y)) := by
  obtain ⟨hnumber, hnonneg, hiff⟩ := Problem.value_totalViolation hp hx hy
  have hvanishes : same (p.totalViolation x y) zero ↔ p.IsFaint x y :=
    (same_zero_iff hnumber).trans hiff
  refine ⟨_, _, Problem.violationOf_eq hreturns, ?_⟩
  by_cases hfree : p.isUnconstrained
  · rw [if_pos hfree]
    refine ⟨rfl, iff_of_true rfl (.inl hfree), fun _ => rfl, fun _ => ?_⟩
    rw [same_comm, hvanishes]
    exact ⟨fun h => h.isFeasible hp hx hfree, fun h => h.isFaint hp hx hy⟩
  · rw [if_neg hfree]
    refine ⟨Binary64.le_iff.2 ⟨isNumber_zero, hnumber, hnonneg⟩, ?_, ?_, fun h => absurd h hfree⟩
    · rw [hvanishes]
      exact (or_iff_right hfree).symm
    · exact fun h => hvanishes.2 (h.isFaint hp hx hy)

/-- A line of which the part up to zero is allowed. -/
def Problem.halfLine : Problem Float 1 where
  name := .text "halfLine"
  objective _ _ := .ok zero
  block := none
  blockSize := 0
  inequalities := [fun _ x => .ok (.one (x.entries.headD zero))]
  equalities := []
  start := #v[zero]
  lower := #v[-Extended.infinity]
  upper := #v[Extended.infinity]
  constraintLower := #v[-Extended.infinity]
  constraintUpper := #v[zero]

/-- At zero nothing is violated. -/
theorem halfLine_vanishes_at_zero :
    ∃ v c', Problem.halfLine.violationOf (Point.toGrid #v[zero]) .zero = .ok v c' ∧
      same v zero := by
  have hp : Problem.halfLine.HasBounds := ⟨by decide +kernel, by decide +kernel,
    by decide +kernel, by decide +kernel⟩
  obtain ⟨v, c', hv, -, -, hfeasible, -⟩ := violation_vanishes_iff (p := .halfLine)
    (x := #v[zero]) (y := #v[zero]) (c := .zero) hp (by decide +kernel) (by decide +kernel)
    fun _ => rfl
  have hwithin : Point.Within (α := Float) (n := 1) #v[zero] #v[-Extended.infinity] #v[zero] := by
    decide +kernel
  exact ⟨v, c', hv, hfeasible ⟨by decide +kernel, hwithin⟩⟩

/-- A variable that is to be at least infinite. -/
def Statement.beyond : Statement Float where
  objective := .function fun _ _ => .ok zero
  dimension := .whole 1
  lower := some (.one Extended.infinity)
  upper := some (.one Extended.infinity)

/-- Nothing is feasible there, and nothing is violated either, though the
excess is infinite. -/
theorem beyond_not_feasible : ∃ p : Problem Float 1, Statement.beyond.build = .ok ⟨1, p⟩ ∧
    p.HasBounds ∧ Point.isFinite (Point.origin : Point Float 1) ∧
    p.violationOf (Point.origin : Point Float 1).toGrid .zero = .ok zero .zero ∧
    ∀ y, ¬ p.IsFeasible Point.origin y ∧
      same (p.totalViolation Point.origin y) Extended.infinity := by
  have hexcess : same (Point.excessOver (Point.origin : Point Float 1) #v[Extended.infinity]
      #v[Extended.infinity]) Extended.infinity := by decide +kernel
  refine ⟨_, rfl, ⟨by decide +kernel, by decide +kernel, by decide +kernel, by decide +kernel⟩,
    by decide +kernel, Problem.violationOf_of_isUnconstrained (by decide +kernel), ?_⟩
  intro y
  refine ⟨?_, hexcess⟩
  rintro ⟨hwithin, -⟩
  exact absurd hwithin (by decide +kernel)

end

end DirectSearch
