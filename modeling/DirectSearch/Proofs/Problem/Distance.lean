import DirectSearch.Proofs.Problem.Joined
import DirectSearch.Proofs.Scalar.Real
import DirectSearch.Proofs.Scalar.Unrounded
/-!
# Problems — the violation as a distance

Without rounding, the violation at a point is the square of its distance from
the box of its bounds, together with that of the constraint values from the box
of theirs. Both are attained at the points that come of moving every entry to
the nearest value between its bounds. That is so for bounds of every kind,
as long as either box contains a real point, and however the constraints are
stated (`violation_eq_distance`).
-/

namespace DirectSearch

open Scalar

/-- A value moved to the nearest one between its bounds. -/
def clamped {α : Type} [Scalar α] (lo v hi : α) : α :=
  if lt v lo then lo else if lt hi v then hi else v

namespace Unrounded

/-! ## One entry -/

section

variable {lo hi : Unrounded} {x : ℝ}

theorem below_of_le (h : le lo (real x)) : maximum (lo - real x) zero = real 0 := by
  rw [zero_eq]
  rcases cases_of_le_real h with rfl | ⟨l, rfl, hl⟩
  · rw [bot_sub_real, maximum_bot_real]
  · rw [real_sub_real, maximum_real_real, max_eq_right (by linarith)]

theorem above_of_le (h : le (real x) hi) : maximum (real x - hi) zero = real 0 := by
  rw [zero_eq]
  rcases cases_of_real_le h with rfl | ⟨u, rfl, hu⟩
  · rw [real_sub_top, maximum_bot_real]
  · rw [real_sub_real, maximum_real_real, max_eq_right (by linarith)]

theorem le_of_le_real {r : ℝ} (h : le lo (real r)) (hx : r ≤ x) : le lo (real x) := by
  rcases cases_of_le_real h with rfl | ⟨l, rfl, hl⟩
  · exact decide_eq_true bot_le
  · simpa using hl.trans hx

theorem le_of_real_le {r : ℝ} (h : le (real r) hi) (hx : x ≤ r) : le (real x) hi := by
  rcases cases_of_real_le h with rfl | ⟨u, rfl, hu⟩
  · exact decide_eq_true le_top
  · simpa using hx.trans hu

/-- **The excess of an entry** is its distance from where it is moved to, and
no value between the bounds is nearer. -/
theorem excess_eq_distance {r : ℝ} (hlo : le lo (real r)) (hhi : le (real r) hi) (x : ℝ) :
    ∃ y : ℝ, clamped lo (real x) hi = real y ∧ le lo (real y) ∧ le (real y) hi ∧
      excess lo (real x) hi = real |x - y| ∧
      ∀ z : ℝ, le lo (real z) → le (real z) hi → |x - y| ≤ |x - z| := by
  by_cases hbelow : le lo (real x)
  · have hlow : ¬ lt (real x) lo := by
      rcases cases_of_le_real hbelow with rfl | ⟨l, rfl, hl⟩
      · simp [lt, real]
      · simpa using hl
    by_cases habove : le (real x) hi
    · -- it stays where it is
      have hhigh : ¬ lt hi (real x) := by
        rcases cases_of_real_le habove with rfl | ⟨u, rfl, hu⟩
        · simp [lt, real]
        · simpa using hu
      refine ⟨x, ?_, hbelow, habove, ?_, fun z _ _ => by simp⟩
      · rw [clamped, if_neg hlow, if_neg hhigh]
      · rw [excess, below_of_le hbelow, above_of_le habove, maximum_real_real]
        simp
    · -- it is above, and is moved down to its upper bound
      rcases cases_of_real_le hhi with rfl | ⟨u, rfl, hu⟩
      · exact absurd (decide_eq_true le_top) habove
      have hlt : u < x := by simpa using habove
      have hpos : 0 < x - u := by linarith
      refine ⟨u, ?_, le_of_le_real hlo hu, by simp, ?_, fun z _ hz => ?_⟩
      · rw [clamped, if_neg hlow, if_pos (by simpa using hlt)]
      · rw [excess, below_of_le hbelow, real_sub_real, zero_eq, maximum_real_real,
          maximum_real_real, max_eq_left hpos.le, max_eq_right hpos.le, abs_of_pos hpos]
      · have hz : z ≤ u := by simpa using hz
        rw [abs_of_pos hpos]
        exact (by linarith : x - u ≤ x - z).trans (le_abs_self _)
  · -- it is below, and is moved up to its lower bound
    rcases cases_of_le_real hlo with rfl | ⟨l, rfl, hl⟩
    · exact absurd (decide_eq_true bot_le) hbelow
    have hlt : x < l := by simpa using hbelow
    have hpos : 0 < l - x := by linarith
    refine ⟨l, ?_, by simp, le_of_real_le hhi hl, ?_, fun z hz _ => ?_⟩
    · rw [clamped, if_pos (by simpa using hlt)]
    · rw [excess, above_of_le (le_of_real_le hhi (by linarith)), real_sub_real, zero_eq,
        maximum_real_real, maximum_real_real, max_eq_left hpos.le, max_eq_left hpos.le,
        abs_sub_comm, abs_of_pos hpos]
    · have hz : l ≤ z := by simpa using hz
      rw [abs_sub_comm, abs_of_pos hpos, abs_sub_comm]
      exact (by linarith : l - x ≤ z - x).trans (le_abs_self _)

end

/-! ## A point -/

section

variable {n : Nat} {lo hi : Point Unrounded n}

/-- A real point in arithmetic without rounding. -/
noncomputable def point (x : Point ℝ n) : Point Unrounded n := x.map real

/-- The real points between two bounds. -/
def box (lo hi : Point Unrounded n) : Set (Point ℝ n) := {y | (point y).Within lo hi}

theorem get_point (x : Point ℝ n) (i : Fin n) : (point x).get i = real (x.get i) := by
  simp [point, Point.get_eq]

theorem mem_box {y : Point ℝ n} :
    y ∈ box lo hi ↔ ∀ i, le (lo.get i) (real (y.get i)) ∧ le (real (y.get i)) (hi.get i) := by
  refine forall_congr' fun i => ?_
  rw [get_point]

/-- The point `y` is `x` with every entry moved between its bounds. -/
def IsClamped (lo : Point Unrounded n) (x : Point ℝ n) (hi : Point Unrounded n)
    (y : Point ℝ n) : Prop :=
  ∀ i, real (y.get i) = clamped (lo.get i) (real (x.get i)) (hi.get i)

theorem distance_sq (x y : Point ℝ n) :
    Point.distance x y ^ 2 = ∑ i, |x.get i - y.get i| ^ 2 := by
  have hnonneg : 0 ≤ (x.get - y.get) ⬝ᵥ (x.get - y.get) :=
    Finset.sum_nonneg fun i _ => mul_self_nonneg _
  rw [Point.distance, Point.norm, Point.dot_eq, Point.get_sub, sqrt_real, Real.sq_sqrt hnonneg]
  exact Finset.sum_congr rfl fun i _ => by rw [sq_abs, sq, Pi.sub_apply]

/-- **The sum of the squared excesses** of a point is the square of its
distance from where it is moved to, and no point of the box is nearer. -/
theorem excessOver_eq_distance (hbox : (box lo hi).Nonempty) (x : Point ℝ n) :
    ∃ y ∈ box lo hi, IsClamped lo x hi y ∧
      Point.excessOver (point x) lo hi = real (Point.distance x y ^ 2) ∧
      ∀ z ∈ box lo hi, Point.distance x y ^ 2 ≤ Point.distance x z ^ 2 := by
  obtain ⟨r, hr⟩ := hbox
  rw [mem_box] at hr
  have hentry (i : Fin n) := excess_eq_distance (hr i).1 (hr i).2 (x.get i)
  choose f hclamped hlo hhi hexcess hnearest using hentry
  have hget (i : Fin n) : Vector.get (Vector.ofFn f) i = f i := by simp [Point.get_eq]
  refine ⟨Vector.ofFn f, ?_, fun i => ?_, ?_, fun z hz => ?_⟩
  · rw [mem_box]
    intro i
    rw [hget]
    exact ⟨hlo i, hhi i⟩
  · rw [hget, hclamped]
  · have hsquare (i : Fin n) :
        square (excess (lo.get i) ((point x).get i) (hi.get i)) = real (|x.get i - f i| ^ 2) := by
      rw [get_point, hexcess, square, real_mul_real, sq]
    simp only [Point.excessOver, hsquare, sum_ofFn_real, distance_sq, hget]
  · rw [mem_box] at hz
    rw [distance_sq, distance_sq]
    refine Finset.sum_le_sum fun i _ => ?_
    rw [hget]
    exact pow_le_pow_left₀ (abs_nonneg _) (hnearest i _ (hz i).1 (hz i).2) 2

end

/-! ## A problem -/

section

variable {n : Nat}

/-- Where no bound is finite, all real points are between the bounds if one
is. -/
theorem mem_box_of_infinite {lo hi : Point Unrounded n} (hbox : (box lo hi).Nonempty)
    (hlo : ∀ i, ¬ isFinite (lo.get i)) (hhi : ∀ i, ¬ isFinite (hi.get i)) (x : Point ℝ n) :
    x ∈ box lo hi := by
  obtain ⟨r, hr⟩ := hbox
  rw [mem_box] at hr ⊢
  have hfinite (z : ℝ) : isFinite (real z) := by simp [isFinite, real]
  intro i
  constructor
  · rcases cases_of_le_real (hr i).1 with hbot | ⟨l, hl, -⟩
    · rw [hbot]
      exact decide_eq_true bot_le
    · exact absurd (hl ▸ hfinite l) (hlo i)
  · rcases cases_of_real_le (hr i).2 with htop | ⟨u, hu, -⟩
    · rw [htop]
      exact decide_eq_true le_top
    · exact absurd (hu ▸ hfinite u) (hhi i)

theorem distance_sq_of_eq_zero (hn : n = 0) (x y : Point ℝ n) : Point.distance x y ^ 2 = 0 := by
  subst hn
  rw [distance_sq, Finset.univ_eq_empty, Finset.sum_empty]

variable {p : Problem Unrounded n} {x y : Point ℝ n} {z w : Point ℝ p.constraintCount}

theorem totalViolation_eq
    (hx : Point.excessOver (point x) p.lower p.upper = real (Point.distance x y ^ 2))
    (hz : Point.excessOver (point z) p.constraintLower p.constraintUpper =
      real (Point.distance z w ^ 2)) :
    p.totalViolation (point x) (point z) =
      real (Point.distance x y ^ 2 + Point.distance z w ^ 2) := by
  unfold Problem.totalViolation
  by_cases hcount : p.constraintCount = 0
  · rw [if_pos hcount, hx, distance_sq_of_eq_zero hcount z w, add_zero]
  · rw [if_neg hcount, hx, hz, real_add_real]

/-- Where a problem is unconstrained, a point is nowhere but where it is
moved to. -/
theorem distance_of_isUnconstrained (hfree : p.isUnconstrained)
    (hbox : (box p.lower p.upper).Nonempty)
    (hnearest : ∀ y' ∈ box p.lower p.upper, Point.distance x y ^ 2 ≤ Point.distance x y' ^ 2) :
    Point.distance x y ^ 2 + Point.distance z w ^ 2 = 0 := by
  have hcount := Problem.constraintCount_of_isUnconstrained hfree
  have hbounds := Problem.bounds_of_isUnconstrained hfree
  have hle := hnearest x (mem_box_of_infinite hbox (fun i => (hbounds i).1)
    (fun i => (hbounds i).2) x)
  rw [(Point.distance_eq_zero_iff x x).2 rfl] at hle
  rw [distance_sq_of_eq_zero hcount z w]
  linarith [sq_nonneg (Point.distance x y)]

end

end Unrounded

section

open Unrounded

/-- **The violation is a distance.** Where the box of the bounds and that of
the constraint bounds contain real points, the violation at a real point with
real constraint values is the sum of the squares of their distances from these
boxes. It is attained at the points that both are moved to, entry by entry.
The constraint values are those of the vector constraint, followed by those of
the functions that must not be positive and of those that must vanish. And the
violation is the same for the problem that is built where all constraints are
stated as one, which returns these values as one vector. -/
theorem violation_eq_distance {n : Nat} {s : Statement Unrounded} {p : Problem Unrounded n}
    (h : s.build = .ok ⟨n, p⟩) {c : Counters} {x : Point ℝ n} {z : Point ℝ p.constraintCount}
    (hbox : (box p.lower p.upper).Nonempty)
    (hbox' : (box p.constraintLower p.constraintUpper).Nonempty)
    (hreturns : p.ReturnsAt c (point x) (point z)) :
    (∃ y ∈ box p.lower p.upper, ∃ w ∈ box p.constraintLower p.constraintUpper,
      IsClamped p.lower x p.upper y ∧ IsClamped p.constraintLower z p.constraintUpper w ∧
      (∃ c', p.violationOf (point x).toGrid c =
        .ok (real (Point.distance x y ^ 2 + Point.distance z w ^ 2)) c') ∧
      (∀ y' ∈ box p.lower p.upper, ∀ w' ∈ box p.constraintLower p.constraintUpper,
        Point.distance x y ^ 2 + Point.distance z w ^ 2 ≤
          Point.distance x y' ^ 2 + Point.distance z w' ^ 2) ∧
      (s.joined p).build = .ok ⟨n, p.joined⟩ ∧
      p.joined.violationOf (point x).toGrid c = p.violationOf (point x).toGrid c) ∧
    (0 < p.constraintCount →
      (∀ gs hs, Singles c.askConstraint (point x).toGrid p.inequalities gs →
        Singles c.askConstraint (point x).toGrid p.equalities hs →
        ∃ vs, p.BlockReturns c.askConstraint (point x).toGrid vs ∧ vs.length = p.blockSize ∧
          (point z).toList = vs ++ gs ++ hs) ∧
      p.joined.BlockReturns c.askConstraint (point x).toGrid (point z).toList) := by
  constructor
  · obtain ⟨y, hy, hclamped, hexcess, hnearest⟩ := excessOver_eq_distance hbox x
    obtain ⟨w, hw, hclamped', hexcess', hnearest'⟩ := excessOver_eq_distance hbox' z
    have hvalue : (if p.isUnconstrained then zero else p.totalViolation (point x) (point z)) =
        real (Point.distance x y ^ 2 + Point.distance z w ^ 2) := by
      by_cases hfree : p.isUnconstrained
      · rw [if_pos hfree, distance_of_isUnconstrained hfree hbox hnearest, zero_eq]
      · rw [if_neg hfree, totalViolation_eq hexcess hexcess']
    exact ⟨y, hy, w, hw, hclamped, hclamped', ⟨_, hvalue ▸ Problem.violationOf_eq hreturns⟩,
      fun y' hy' w' hw' => add_le_add (hnearest y' hy') (hnearest' w' hw'),
      Statement.build_joined h, Problem.violationOf_joined hreturns⟩
  · intro hcount
    exact ⟨fun gs hs hgs hhs => (Problem.returnsAt_iff hgs hhs).1 hreturns hcount,
      hreturns.blockReturns_joined hcount⟩

/-- A variable from zero upwards, whose square must not be positive. -/
noncomputable def Statement.corner : Statement Unrounded where
  objective := .function fun _ _ => .ok zero
  dimension := .whole 1
  lower := some (.one zero)
  inequalities := [.function fun _ x => .ok (.one (x.entries.headD zero * x.entries.headD zero))]

/-- The problem that it states. -/
noncomputable def Problem.corner : Problem Unrounded 1 where
  name := .text "generic"
  objective _ _ := .ok zero
  block := none
  blockSize := 0
  inequalities := [fun _ x => .ok (.one (x.entries.headD zero * x.entries.headD zero))]
  equalities := []
  start := #v[zero]
  lower := #v[zero]
  upper := #v[Extended.infinity]
  constraintLower := #v[-Extended.infinity]
  constraintUpper := #v[zero]

theorem build_corner : Statement.corner.build = .ok ⟨1, Problem.corner⟩ := by
  have hordered : Statement.crossed [zero] [(Extended.infinity : Unrounded)] = false := by
    simp [Statement.crossed, lt, Extended.infinity, zero_eq, real]
  have hordered' : Statement.crossed [-(Extended.infinity : Unrounded)] [zero] = false := by
    rw [show -(Extended.infinity : Unrounded) = defined ⊥ from congrArg defined EReal.neg_top]
    simp [Statement.crossed, lt, zero_eq, real]
  exact Statement.build_of_reads ⟨rfl, rfl, rfl, rfl, rfl, rfl, rfl, rfl, hordered, rfl,
    ⟨[], rfl, rfl⟩, ⟨[], rfl, rfl⟩, hordered'⟩

/-- At minus two its constraint returns four. -/
theorem returnsAt_corner :
    Problem.corner.ReturnsAt .zero (point #v[-2]) (point (#v[4] : Point ℝ 1)) := by
  have hpoint (r : ℝ) : (point (#v[r] : Point ℝ 1)).toGrid = .ofList [real r] := by
    simp [point, Point.toGrid]
  have hsquare : real (-2) * real (-2) = real 4 := by
    rw [real_mul_real]
    norm_num
  have hgs : Singles Counters.zero.askConstraint (point (#v[-2] : Point ℝ 1)).toGrid
      Problem.corner.inequalities [real 4] := by
    rw [hpoint, ← hsquare]
    exact .cons rfl .nil
  exact (Problem.returnsAt_iff hgs .nil).2 fun _ =>
    ⟨[], rfl, rfl, congrArg Grid.entries (hpoint 4)⟩

/-- At minus two the violation is no more than the sum of the squares of two and
of four, the distances from zero, which is allowed for the variable and for its
square. -/
theorem corner_violation_le :
    ∃ v c', Problem.corner.violationOf (point #v[-2]).toGrid .zero = .ok (real v) c' ∧
      v ≤ Point.distance #v[-2] #v[0] ^ 2 + Point.distance #v[4] #v[0] ^ 2 := by
  have hbox : #v[0] ∈ box Problem.corner.lower Problem.corner.upper := by
    refine mem_box.2 fun i => ?_
    rw [Fin.fin_one_eq_zero i]
    exact ⟨by simp [Problem.corner, zero_eq, Point.get_eq], decide_eq_true le_top⟩
  have hbox' : (#v[0] : Point ℝ 1) ∈
      box Problem.corner.constraintLower Problem.corner.constraintUpper := by
    refine mem_box.2 fun i => ?_
    rw [Fin.fin_one_eq_zero i]
    exact ⟨decide_eq_true (EReal.neg_top.trans_le bot_le),
      by simp [Problem.corner, zero_eq, Point.get_eq]⟩
  obtain ⟨⟨y, -, w, -, -, -, ⟨c', hviolation⟩, hnearest, -⟩, -⟩ :=
    violation_eq_distance build_corner ⟨_, hbox⟩ ⟨_, hbox'⟩ returnsAt_corner
  exact ⟨_, c', hviolation, hnearest _ hbox _ hbox'⟩

end

end DirectSearch
