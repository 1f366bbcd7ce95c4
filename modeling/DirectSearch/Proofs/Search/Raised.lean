import DirectSearch.Proofs.MeshSearch.History
import DirectSearch.Proofs.MeshSearch.Reliable
import DirectSearch.Proofs.Scalar.Unrounded
import DirectSearch.Proofs.Search.Afresh
import DirectSearch.Proofs.SimplexSearch.Spanning
/-!
# Search — a constant added to the objective

Neither search knows where zero is. What it does with values is to compare
them, to take means and differences of them, and to add penalties to them; and
a constant that is added to every value shows in a mean or a merit as that
constant again, and in a difference not at all. In exact arithmetic a search
for an objective and one for the objective with a constant added therefore
take one course, and all values, means and merits of the second are those of
the first with the constant added (`runs_with_constant_added`). There is one
thing that is measured from zero: the stall tolerance of a mesh search is made
up of the size of the first value. But where slopes are not estimated it
matters only whether it is infinite.

A simplex search never looks at bounds, and is read in real numbers. A mesh
search is read in the arithmetic that has infinities besides, since an
infinite bound stands for none.
-/

namespace DirectSearch

open Scalar Session Simplex

variable {α : Type} {n : Nat} {ρ : Type}

/-- The problem with a constant added to the objective. -/
def Problem.raised [Scalar α] (c : α) (p : Problem α n) : Problem α n :=
  { p with objective := fun counters x => (p.objective counters x).map (· + c) }

theorem Problem.agree_raised [Scalar α] {c : α} {p : Problem α n} (counters : Counters)
    (x : Grid α) : Agree (fun v v' => v' = v + c) (p.objective counters x)
      ((p.raised c).objective counters x) := by
  change Agree _ (p.objective counters x) ((p.objective counters x).map (· + c))
  cases p.objective counters x with
  | ok v => exact .ok rfl
  | error fault => exact .error fault

/-! ## The simplex search -/

namespace SimplexSearch

/-- The likeness of two simplex searches of which the second sees all values
with a constant added. -/
def Likeness.raised [Scalar α] (c : α) (timed : Prop) : Likeness α n (Row α) (State α n) where
  evaluations e e' := e' = { e with value := e.value + c }
  states st st' := st' =
    { st with
      vertices := st.vertices.map fun v => { v with value := v.value + c }
      mean := st.mean + c }
  rows r r' := r' = { r with value := r.value + c }
  solutions x x' := x' = x
  objectives v v' := v' = v + c
  timed := timed

variable {c : ℝ} {d : Desk ℝ ρ} {p : Problem ℝ n} {o : Options ℝ}
variable {starts : Vector (Point ℝ n) (n + 1)}

/-- The outlook of two searches of which the second sees all values with a
constant added. -/
def Outlook.raised (c : ℝ) (d : Desk ℝ ρ) : Outlook ℝ n :=
  .same n (.atDesk (fun _ v v' => v' = v + c) d) fun b b' => b' = b + c

theorem Alike.eq_raised {k : Nat} {vs vs' : Vector (Vertex ℝ (Point ℝ n)) k}
    (h : Alike (.raised c d) vs vs') :
    vs' = vs.map fun v => { v with value := v.value + c } := by
  refine h.eq_map ?_
  rintro ⟨x, v⟩ ⟨x', v'⟩ ⟨hplace, hvalue⟩
  cases hplace
  cases hvalue
  rfl

/-- The mean is raised with the values. -/
theorem meanValue_raised (vs : Vertices ℝ n (Point ℝ n) 0) :
    Vertices.meanValue (vs.map fun v => { v with value := v.value + c }) = vs.meanValue + c := by
  have hlength : ((vs.toList.map (·.value)).length : ℝ) ≠ 0 := by
    rw [List.length_map, Vector.length_toList]
    positivity
  have hvalues : (Vector.toList (vs.map fun v => { v with value := v.value + c })).map (·.value)
      = (vs.toList.map (·.value)).map (· + c) := by
    rw [Vector.toList_map, List.map_map, List.map_map]
    rfl
  rw [Vertices.meanValue, Vertices.meanValue, hvalues]
  generalize vs.toList.map (·.value) = xs at hlength ⊢
  simp only [mean, sum_real, ofInt_real, List.length_map, Int.cast_natCast, List.sum_map_add,
    List.map_id', List.map_const', List.sum_replicate, nsmul_eq_mul]
  field_simp

theorem serves_raised : Serves (.raised c d) o p (p.raised c) starts starts := by
  have hlt (v w : ℝ) : lt (v + c) (w + c) = lt v w := by simp
  refine serves_same (fun _ => rfl) ?_ ?_ ?_ (fun _ _ _ h => h.sort ?_ ?_) ?_
    fun _ => ⟨fun _ _ => Iff.rfl, fun h => h.gradientOf_eq (fun _ _ hx => hx) ?_, ?_⟩
  · rintro _ x k rfl
    rw [Pairing.counters_atDesk]
    exact Problem.agree_raised k x
  · rintro x y v _ w _ rfl rfl
    simp
  · rintro x y v _ w _ rfl rfl
    exact hlt v w
  · rintro x y v _ w _ rfl rfl
    exact hlt v w
  · rintro x v _ rfl
    simp
  · intro vs vs' h
    rw [h.eq_raised, meanValue_raised]
  · rintro x y v _ w _ rfl rfl
    exact add_sub_add_right_eq_sub w v c
  · rintro b _ w _ rfl rfl
    exact add_sub_add_right_eq_sub w b c

theorem shows_raised {timed : Prop} :
    Shows (.raised c d) (Likeness.raised (n := n) c timed) where
  evaluations := by
    rintro ⟨x, v⟩ ⟨x', v'⟩ ⟨hpoint, hvalue⟩
    cases hpoint
    cases hvalue
    rfl
  states := by
    rintro ⟨vs, mean, restarts, diameter⟩ ⟨vs', mean', restarts', diameter'⟩
      ⟨hvertices, hmean, hrestarts, hdiameter⟩
    cases hvertices.eq_raised
    cases hmean
    cases hrestarts
    cases hdiameter
    rfl
  rows r r' x hvalue hdiameter hrest := by
    have hvalue' : r'.value = r.value + c := hvalue
    have hdiameter' : r'.diameter = r.diameter := hdiameter
    rw [hvalue', hdiameter'] at hrest
    exact hrest
  places _ _ := id
  values _ _ _ := id

end SimplexSearch

/-! ## The mesh search -/

namespace MeshSearch

/-- The likeness of two mesh searches of which the second sees all values with
a constant added. The tolerances are not compared. -/
def Likeness.raised [Scalar α] (c : α) (timed : Prop) : Likeness α n (Row α n) (State α n) where
  evaluations e e' := e' = { e with value := e.value + c }
  states st st' := st' =
    { st with value := st.value + c, merit := st.merit + c, tolerance := st'.tolerance }
  rows r r' := r' = { r with value := r.value + c }
  solutions x x' := x' = x
  objectives v v' := v' = v + c
  timed := timed

variable {c : ℝ} {d : Desk Unrounded ρ} {p : Problem Unrounded n} {o : Options Unrounded}
variable {start : Point Unrounded n}

/-- The outlook of two searches of which the second sees all values with a
constant added. -/
def Outlook.raised (c : ℝ) (d : Desk Unrounded ρ) : Outlook Unrounded :=
  { Pairing.atDesk (fun _ v v' => v' = v + .real c) d with
    merits := fun a a' => a' = a + .real c
    tolerances := fun t t' => isInfinity t' = isInfinity t
    weights := fun _ => True
    violations := fun _ => True }

theorem at_raised : (Outlook.raised c d).At d := Pairing.at_atDesk

/-- The tolerance is infinite for a raised value if it is for the value
itself. -/
theorem stallTolerance_raised
    (hrelative : ∀ relative, o.relative.toScalar = .ok relative → ¬ isInfinity relative)
    (v : Unrounded) : Agree (fun t t' => isInfinity t' = isInfinity t) (stallTolerance o v)
      (stallTolerance o (v + .real c)) := by
  by_cases hv : ∃ x, v = .real x
  · obtain ⟨x, rfl⟩ := hv
    unfold stallTolerance
    generalize o.relative.toScalar = relative, o.absolute.toScalar = absolute at hrelative ⊢
    cases relative with
    | error fault => exact .error fault
    | ok relative =>
      cases absolute with
      | error fault => exact .error fault
      | ok absolute =>
        refine .ok ?_
        rw [Unrounded.real_add_real, Unrounded.abs_real, Unrounded.abs_real]
        exact Unrounded.isInfinity_add_mul _ _ (abs_nonneg _) (abs_nonneg _) (hrelative _ rfl)
  · -- the constant does not change the value, nor the tolerance
    rw [Unrounded.add_real_of_ne c v fun x hx => hv ⟨x, hx⟩]
    exact (Agree.refl _).imp fun t t' h => by rw [h]

theorem serves_raised (ho : o.estimateSlope = false)
    (hrelative : ∀ relative, o.relative.toScalar = .ok relative → ¬ isInfinity relative) :
    (Outlook.raised c d).Serves o p (p.raised (.real c)) start where
  objectives := by
    rintro _ x k rfl
    rw [at_raised.counters_eq]
    exact Problem.agree_raised k x
  points _ := rfl
  violation := (Problem.isBlind_of_counters at_raised.counters_eq).violationOf_beside
  merit := by
    rintro x w f _ v rfl - -
    exact Unrounded.add_real_add c f (w * v)
  lt := by
    rintro a _ b _ rfl rfl
    exact Unrounded.lt_add_real_add_real c a b
  one := trivial
  raise _ _ _ := trivial
  tolerance := by
    rintro v _ rfl
    exact stallTolerance_raised hrelative v
  flat h := h
  slope h := by simp [ho] at h
  bounds := ⟨rfl, rfl⟩

theorem shows_raised {timed : Prop} :
    (Outlook.raised c d).Shows (Likeness.raised (n := n) (.real c) timed) where
  evaluations := by
    rintro ⟨x, v⟩ ⟨x', v'⟩ ⟨hpoint, hvalue⟩
    cases hpoint
    cases hvalue
    rfl
  states st st' hst := by
    have hvalue : st'.value = st.value + .real c := hst.value
    have hmerit : st'.merit = st.merit + .real c := hst.merit
    refine hst.rest.trans ?_
    rw [hvalue, hmerit]
  rows r r' x hvalue hrest := by
    have hvalue' : r'.value = r.value + .real c := hvalue
    rw [hvalue'] at hrest
    exact hrest
  incumbents _ _ := id
  values _ _ _ := id

end MeshSearch

/-! ## Whole runs -/

/-- **A constant added to the objective shows in the values only,** in exact
arithmetic. A simplex search, with restarts or without, makes the same
iterations for the objective and for the objective with a constant added: it
comes to the same vertices, is rebuilt as often, and ends with the same
status. A mesh search that does not estimate slopes, under any bounds and
constraints, has the same incumbents, violations, meshes and weights, and
ends with the same status, if its relative tolerance is no infinity. The
values, the means and the merits are those of the first run with the constant
added. The runs look at one clock, or there is no limit of time. -/
theorem runs_with_constant_added (c : ℝ) (timed : Prop) :
    (∀ (m : SimplexSearch ℝ n) (clock clock' : Nat → ℝ) (d : Desk ℝ (SimplexSearch.Row ℝ)),
      (timed → clock' = clock) → timed ∨ m.budgets.Untimed →
      (SimplexSearch.Likeness.raised c timed).Course m.method
        { m with problem := m.problem.raised c : SimplexSearch ℝ n }.method clock clock' d) ∧
    ∀ (m : MeshSearch Unrounded n) (clock clock' : Nat → Unrounded)
      (d : Desk Unrounded (MeshSearch.Row Unrounded n)), m.options.estimateSlope = false →
      (∀ relative, m.options.relative.toScalar = .ok relative → ¬ isInfinity relative) →
      (timed → clock' = clock) → timed ∨ m.budgets.Untimed →
      (MeshSearch.Likeness.raised (.real c) timed).Course m.method
        { m with problem := m.problem.raised (.real c) : MeshSearch Unrounded n }.method
        clock clock' d := by
  constructor
  · intro m clock clock' d hclock htime
    exact SimplexSearch.course SimplexSearch.serves_raised Pairing.at_atDesk
      SimplexSearch.shows_raised hclock htime
  · intro m clock clock' d ho hrelative hclock htime
    exact MeshSearch.Outlook.course (MeshSearch.serves_raised ho hrelative) MeshSearch.at_raised
      MeshSearch.shows_raised hclock htime

namespace MeshSearch

/-- A search that is given what it needs has a turn to make from every session:
in exact arithmetic no mesh is out of range. -/
theorem Reliable.exists_turn {m : MeshSearch Unrounded n} (h : m.Reliable)
    {clock : Nat → Unrounded} {d : Desk Unrounded (Row Unrounded n)}
    {s : Session Unrounded (Row Unrounded n) (State Unrounded n)}
    (hs : m.method.Reaches clock d s) : ∃ t, m.method.Turns clock s t := by
  obtain ⟨r, t, hpoll⟩ := h.exists_poll (h.hasDirection hs) (exists_meshAfter s.state)
  exact Method.exists_turn_of_iterate (m := m.method) hpoll

/-- On a line without bounds, a search for the least coordinate, which is to be
zero or below. It starts at one. -/
noncomputable def halfLine : MeshSearch Unrounded 1 where
  problem :=
    { name := .absent
      objective := fun _ g => .ok (g.entries.headD zero)
      block := none, blockSize := 0
      inequalities := [fun _ g => .ok (.one (g.entries.headD zero))], equalities := []
      start := .replicate 1 one
      lower := .replicate 1 (-Extended.infinity), upper := .replicate 1 Extended.infinity
      constraintLower := .replicate 1 (-Extended.infinity), constraintUpper := .replicate 1 zero }
  start := .replicate 1 one
  options :=
    { absolute := .ok (.real zero), relative := .ok (.real one), greedy := false
      stopWhenSmall := false, smallStep := .ok (.whole 0), estimateSlope := false }
  budgets := { evaluations := .ok none, time := .ok (.whole (-1)), iterations := .ok none }
  directions := fun _ _ => .ok (.ofList [one])

theorem halfLine_reliable : halfLine.Reliable where
  objective _ _ := ⟨_, rfl⟩
  constraints _ x := ⟨.replicate 1 (x.toGrid.entries.headD zero), fun _ => rfl⟩
  directions _ := ⟨.replicate 1 one, rfl⟩
  absolute := ⟨_, rfl⟩
  relative := ⟨_, rfl⟩
  smallStep := nofun
  budgets := ⟨⟨_, rfl⟩, ⟨_, rfl⟩, ⟨_, rfl⟩⟩

end MeshSearch

/-- One added to a square, and to a coordinate: the first iteration of the one
search, and the first poll of the other. -/
theorem one_added_shows_in_values :
    (∃ s t t', SimplexSearch.parabola.method.start (fun _ => 0) (fresh .empty) = .ok s ∧
      SimplexSearch.parabola.method.Turns (fun _ => 0) s t ∧
      { SimplexSearch.parabola with problem := SimplexSearch.parabola.problem.raised 1 :
        SimplexSearch ℝ 1 }.method.Reaches (fun _ => 1) (fresh .empty) t' ∧
      (SimplexSearch.Likeness.raised 1 False).Sessions (fresh .empty) t t') ∧
    ∃ s t t', MeshSearch.halfLine.method.start (fun _ => zero) (fresh .empty) = .ok s ∧
      MeshSearch.halfLine.method.Turns (fun _ => zero) s t ∧
      { MeshSearch.halfLine with problem := MeshSearch.halfLine.problem.raised (.real 1) :
        MeshSearch Unrounded 1 }.method.Reaches (fun _ => zero) (fresh .empty) t' ∧
      (MeshSearch.Likeness.raised (.real 1) True).Sessions (fresh .empty) t t' := by
  constructor
  · have hcourse := (runs_with_constant_added 1 False).1 SimplexSearch.parabola (fun _ => 0)
      (fun _ => 1) (fresh .empty) False.elim (.inr ⟨.whole (-1), rfl, rfl⟩)
    have hreturns : SimplexSearch.ReturnsOnSpace SimplexSearch.parabola.problem :=
      fun _ _ => ⟨_, rfl⟩
    obtain ⟨s, hs⟩ : ∃ s, SimplexSearch.parabola.method.start (fun _ => 0) (fresh .empty)
        = .ok s := SimplexSearch.exists_start hreturns
    obtain ⟨t, ht⟩ : ∃ t, SimplexSearch.parabola.method.Turns (fun _ => 0) s t :=
      SimplexSearch.exists_turn one_pos hreturns SimplexSearch.parabola_proper.toIsNumeric s
    obtain ⟨t', ht', hlike⟩ := hcourse.reaches t ((Method.Reaches.of_start hs).turn ht)
    exact ⟨s, t, t', hs, ht, ht', hlike⟩
  · have hrelative (relative : Unrounded)
        (h : MeshSearch.halfLine.options.relative.toScalar = .ok relative) :
        ¬ isInfinity relative := by
      obtain rfl : .real ((1 : Int) : ℝ) = relative := Except.ok.inj h
      exact Unrounded.not_isInfinity_real _
    have hcourse := (runs_with_constant_added 1 True).2 MeshSearch.halfLine (fun _ => zero)
      (fun _ => zero) (fresh .empty) rfl hrelative (fun _ => rfl) (.inl trivial)
    obtain ⟨s, hs⟩ := MeshSearch.halfLine_reliable.exists_start (fun _ => zero) (fresh .empty)
    obtain ⟨t, ht⟩ := MeshSearch.halfLine_reliable.exists_turn (.of_start hs)
    obtain ⟨t', ht', hlike⟩ := hcourse.reaches t ((Method.Reaches.of_start hs).turn ht)
    exact ⟨s, t, t', hs, ht, ht', hlike⟩

end DirectSearch
