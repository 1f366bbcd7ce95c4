import DirectSearch.Proofs.Binary64.Finite
import DirectSearch.Proofs.MeshSearch.Poll
import DirectSearch.Proofs.Search.Courses
import DirectSearch.Proofs.SimplexSearch.Best
/-!
# Search — only the ranks of values count

A search compares values, and does nothing else with them: an objective and
what an increasing function makes of it are searched in the same way. The
simplex search keeps to that where it does not rebuild its simplex. The mesh
search does where nothing can be violated and slopes are not estimated, but
for one test: its stall tolerance is made up of the size of the first value,
and a tolerance that has become infinite ends the run at once. So the two
runs take the same course if both tolerances are infinite or neither is
(`runs_rank_alike`), and need not in the other case
(`steep_fall_not_ranked`).
-/

namespace DirectSearch

open Scalar Session Simplex

variable {n : Nat} {ρ σ ι : Type} {g : ℝ → ℝ}

/-! ## Values -/

/-- Two finite floats, the second of which is what `g` makes of the first. -/
structure Ranked (g : ℝ → ℝ) (v v' : Float) : Prop where
  finite : v.isFinite
  finite' : v'.isFinite
  real : Binary64.real v' = g (Binary64.real v)

namespace Ranked

variable {v v' w w' : Float}

theorem le (hg : StrictMono g) (hv : Ranked g v v') (hw : Ranked g w w') :
    Scalar.le v' w' = Scalar.le v w := by
  rw [Bool.eq_iff_iff]
  change v'.le w' ↔ v.le w
  rw [Binary64.le_iff_real hv.finite' hw.finite', Binary64.le_iff_real hv.finite hw.finite,
    hv.real, hw.real, hg.le_iff_le]

theorem lt (hg : StrictMono g) (hv : Ranked g v v') (hw : Ranked g w w') :
    Scalar.lt v' w' = Scalar.lt v w := by
  rw [Bool.eq_iff_iff]
  change v'.lt w' ↔ v.lt w
  rw [Binary64.lt_iff_real hv.finite' hw.finite', Binary64.lt_iff_real hv.finite hw.finite,
    hv.real, hw.real, hg.lt_iff_lt]

/-- Finite values compare. -/
theorem compares (h : Ranked g v v') : !isUndefined v ∧ !isUndefined v' := by
  have hself {x : Float} (hx : x.isFinite) : !isUndefined x := by
    have hle : Scalar.le x x := (Binary64.le_iff_real hx hx).2 le_rfl
    simp [isUndefined, hle]
  exact ⟨hself h.finite, hself h.finite'⟩

/-- Where nothing is violated, merits are ranked as values are. -/
theorem merit (h : Ranked g v v') : Ranked g (merit one v zero) (merit one v' zero) := by
  have hpenalty : (one * zero : Float) = zero := by decide +kernel
  obtain ⟨hfinite, hreal⟩ := Binary64.real_add_zero h.finite
  obtain ⟨hfinite', hreal'⟩ := Binary64.real_add_zero h.finite'
  unfold DirectSearch.merit
  rw [hpenalty]
  exact ⟨hfinite, hfinite', by rw [hreal, hreal', h.real]⟩

theorem zero (hg : g 0 = 0) : Ranked g zero zero :=
  ⟨by decide +kernel, by decide +kernel, by rw [Binary64.real_zero, hg]⟩

end Ranked

/-- An objective that is what `g` makes of a problem's own: where that returns
a value, both are finite, and where it fails the other fails in the same
way. -/
def Problem.Transports (p : Problem Float n) (g : ℝ → ℝ) (objective : Callback Float Float) :
    Prop :=
  ∀ counters x, Agree (Ranked g) (p.objective counters x) (objective counters x)

variable {d : Desk Float ρ}

/-! ## The two searches -/

namespace SimplexSearch

variable {p : Problem Float n} {o : Options Float} {objective : Callback Float Float}

/-- The outlook under which the vertices are at the same points, and their
values are ranked alike. -/
def Outlook.ranked (g : ℝ → ℝ) (d : Desk Float ρ) : Outlook Float n :=
  .same n (.atDesk (fun _ => Ranked g) d) fun _ _ => True

theorem serves_ranked (hg : StrictMono g) (ho : o.orientedRestart = false)
    (hobjective : p.Transports g objective) {starts : Vector (Point Float n) (n + 1)} :
    Serves (.ranked g d) o p { p with objective } starts starts := by
  refine serves_same (fun _ => rfl) ?_ (fun _ _ _ _ _ _ hv hw => hv.le hg hw)
    (fun _ _ _ _ _ _ hv hw => hv.lt hg hw) (fun _ _ _ h => h.sort ?_ ?_) (fun _ _ _ => trivial)
    fun h => ?_
  · rintro x _ c rfl
    rw [Pairing.counters_atDesk]
    exact hobjective c _
  · exact fun _ _ _ _ _ _ hv hw => hv.lt hg hw
  · exact fun _ _ _ hv => hv.compares
  · simp [ho] at h

end SimplexSearch

namespace MeshSearch

variable {p : Problem Float n} {o : Options Float} {objective : Callback Float Float}
variable {start : Point Float n}

/-- The first values give stall tolerances of which both are infinite, or
none is. -/
def ToleratesAlike (o : Options Float) (v v' : Float) : Prop :=
  (stallTolerance o v').map isInfinity = (stallTolerance o v).map isInfinity

/-- The outlook under which values are ranked alike. -/
def Outlook.ranked (g : ℝ → ℝ) (o : Options Float) (start : Point Float n)
    (d : Desk Float (Row Float n)) : Outlook Float :=
  { Pairing.atDesk
      (fun x v v' => Ranked g v v' ∧ (x = start.toGrid → ToleratesAlike o v v')) d with
    merits := Ranked g
    tolerances := fun t t' => isInfinity t' = isInfinity t
    weights := (· = one)
    violations := (· = zero) }

theorem ToleratesAlike.agree {v v' : Float} (h : ToleratesAlike o v v') :
    Agree (fun t t' => isInfinity t' = isInfinity t) (stallTolerance o v)
      (stallTolerance o v') := by
  unfold ToleratesAlike stallTolerance at h
  unfold stallTolerance
  generalize o.relative.toScalar = relative, o.absolute.toScalar = absolute at h ⊢
  cases relative with
  | error fault => exact .error fault
  | ok relative =>
    cases absolute with
    | error fault => exact .error fault
    | ok absolute => exact .ok (Except.ok.inj h)

/-- Finite tolerances are alike. -/
theorem ToleratesAlike.of_finite {v v' : Float}
    (h : ((stallTolerance o v).map isInfinity).toOption = some false)
    (h' : ((stallTolerance o v').map isInfinity).toOption = some false) :
    ToleratesAlike o v v' := by
  unfold ToleratesAlike
  generalize (stallTolerance o v).map isInfinity = e, (stallTolerance o v').map isInfinity = e'
    at h h'
  cases e with
  | error fault => cases h
  | ok b =>
    cases e' with
    | error fault => cases h'
    | ok b' => rw [Option.some.inj h, Option.some.inj h']

theorem serves_ranked {d : Desk Float (Row Float n)} (hg : StrictMono g)
    (ho : o.estimateSlope = false) (hp : p.isUnconstrained) (hobjective : p.Transports g objective)
    (htolerance : ∀ c v v', p.objective c start.toGrid = .ok v →
      objective c start.toGrid = .ok v' → ToleratesAlike o v v') :
    (Outlook.ranked g o start d).Serves o p { p with objective } start where
  objectives := by
    rintro _ x c rfl
    have hcounters : (Outlook.ranked g o start d).counters c = c := Pairing.counters_atDesk c
    rw [hcounters]
    change Agree _ (p.objective c x) (objective c x)
    have hagree := hobjective c x
    have htolerates := htolerance c
    generalize hv : p.objective c x = e, hv' : objective c x = e' at hagree ⊢
    cases hagree with
    | error fault => exact .error fault
    | ok hranked =>
      -- a value at the start also gives a tolerance, whenever it is asked for
      refine .ok ⟨hranked, ?_⟩
      rintro rfl
      exact htolerates _ _ hv hv'
  points _ := rfl
  violation x := by
    have hp' : ({ p with objective } : Problem Float n).isUnconstrained := hp
    unfold Problem.violationOf
    rw [if_pos hp, if_pos hp']
    exact .pure ⟨rfl, rfl⟩
  merit := by
    rintro x w f f' v hf rfl rfl
    exact hf.1.merit
  lt ha hb := ha.lt hg hb
  one := rfl
  raise := by
    -- a weight is raised for a violation, and there is none
    rintro w v - rfl hlt
    exact absurd hlt (by decide +kernel)
  tolerance h := (h.2 rfl).agree
  flat h := h
  slope h := by simp [ho] at h
  bounds := ⟨rfl, rfl⟩

end MeshSearch

/-! ## Whole runs -/

/-- The evaluations of two runs, at one point. -/
structure RankedEvaluations (g : ℝ → ℝ) (e e' : Evaluation Float) : Prop where
  point : e'.point = e.point
  value : Ranked g e.value e'.value

/-- Two sessions that have done the same since their desk, but for values of
the same ranks. -/
structure Session.Abreast (g : ℝ → ℝ) (states : σ → σ → Prop) (d : Desk Float ρ)
    (s s' : Session Float ρ σ) : Prop where
  state : states s.state s'.state
  evaluations : List.Forall₂ (RankedEvaluations g) (s.evaluationsSince d) (s'.evaluationsSince d)
  counters : s'.tally.counters = s.tally.counters
  drawn : s'.drawn = s.drawn
  iterations : s'.iterations = s.iterations
  elapsed : s'.elapsed = s.elapsed

/-- Two reports that say the same, but for values of the same ranks. -/
structure Report.Abreast (g : ℝ → ℝ) (rows : ρ → ρ → Prop) (r r' : Report Float n ρ) :
    Prop where
  objective : Ranked g r.objective r'.objective
  history : List.Forall₂ (fun e e' => rows e.entry e'.entry) r.history.toList r'.history.toList
  rest : r' = { r with objective := r'.objective, history := r'.history }

/-- **Two methods take the same course** from a desk: they visit the same
points in the same order, come to the same sessions, and end by the same
fault or with the same report, or neither of them ends. Only the values
differ, and have the same ranks. -/
structure Method.RanksAlike (g : ℝ → ℝ) (states : σ → σ → Prop) (rows : ρ → ρ → Prop)
    (m m' : Method Float n ρ σ ι) (clock : Nat → Float) (d : Desk Float ρ) : Prop where
  reaches (s : Session Float ρ σ) : m.Reaches clock d s →
    ∃ s', m'.Reaches clock d s' ∧ Session.Abreast g states d s s'
  reached (s' : Session Float ρ σ) : m'.Reaches clock d s' →
    ∃ s, m.Reaches clock d s ∧ Session.Abreast g states d s s'
  run (fuel : Nat) : Option.Rel (fun ended ended' =>
      ended'.desk.tally.counters = ended.desk.tally.counters ∧
        List.Forall₂ (RankedEvaluations g) (ended.desk.evaluationsSince d)
          (ended'.desk.evaluationsSince d) ∧
        Agree (Report.Abreast g rows) ended.result ended'.result)
    (m.run clock fuel d) (m'.run clock fuel d)

/-- The likeness of two runs at one time that see values of the same
ranks. -/
def Likeness.ranked (g : ℝ → ℝ) (states : σ → σ → Prop) (rows : ρ → ρ → Prop) :
    Likeness Float n ρ σ :=
  { states, rows, evaluations := RankedEvaluations g, solutions := fun x x' => x' = x
    objectives := Ranked g, timed := True }

/-- Courses that are so alike are the same but for the values. -/
theorem Likeness.Course.ranksAlike {states : σ → σ → Prop} {rows : ρ → ρ → Prop}
    {m m' : Method Float n ρ σ ι} {clock : Nat → Float}
    (h : (Likeness.ranked g states rows).Course m m' clock clock d) :
    m.RanksAlike g states rows m' clock d := by
  have habreast {s s' : Session Float ρ σ}
      (hs : (Likeness.ranked (n := n) g states rows).Sessions d s s') :
      Session.Abreast g states d s s' :=
    ⟨hs.state, hs.evaluations, hs.counters, hs.drawn, hs.iterations, hs.elapsed trivial⟩
  refine ⟨fun s hs => ?_, fun s' hs' => ?_, fun fuel => ?_⟩
  · obtain ⟨s', hs', hlike⟩ := h.reaches s hs
    exact ⟨s', hs', habreast hlike⟩
  · obtain ⟨s, hs, hlike⟩ := h.reached s' hs'
    exact ⟨s, hs, habreast hlike⟩
  · have hrun := h.run fuel
    generalize m.run clock fuel d = ended, m'.run clock fuel d = ended' at hrun ⊢
    cases hrun with
    | none => exact .none
    | some hended =>
      refine .some ⟨hended.1, hended.2.1, hended.2.2.imp fun r r' hr => ?_⟩
      have hsolution : r'.solution = r.solution := hr.solution
      refine ⟨hr.objective, hr.history, hr.rest.trans ?_⟩
      rw [hsolution, hr.elapsed trivial]

/-- The states of two simplex searches: the vertices are at the same points,
in the same order. The mean of the values, which only a restart looks at, is
not compared. -/
structure SimplexSearch.RankedStates (g : ℝ → ℝ) (st st' : SimplexSearch.State Float n) :
    Prop where
  vertices : List.Forall₂ (fun v v' => v'.point = v.point ∧ Ranked g v.value v'.value)
    st.vertices.toList st'.vertices.toList
  restarts : st'.restarts = st.restarts
  diameter : st'.diameter = st.diameter

/-- The rows of two simplex searches. -/
structure SimplexSearch.RankedRows (g : ℝ → ℝ) (r r' : SimplexSearch.Row Float) : Prop where
  value : Ranked g r.value r'.value
  rest : r' = { r with value := r'.value }

/-- The states of two mesh searches, which have the same mesh. -/
structure MeshSearch.RankedStates (g : ℝ → ℝ) (st st' : MeshSearch.State Float n) : Prop where
  value : Ranked g st.value st'.value
  merit : Ranked g st.merit st'.merit
  rest : st' = { st with value := st'.value, merit := st'.merit, tolerance := st'.tolerance }

/-- The rows of two mesh searches. -/
structure MeshSearch.RankedRows (g : ℝ → ℝ) (r r' : MeshSearch.Row Float n) : Prop where
  value : Ranked g r.value r'.value
  rest : r' = { r with value := r'.value }

/-- The search for another objective. -/
def SimplexSearch.withObjective (m : SimplexSearch Float n) (objective : Callback Float Float) :
    SimplexSearch Float n :=
  { m with problem := { m.problem with objective } }

/-- The search for another objective. -/
def MeshSearch.withObjective (m : MeshSearch Float n) (objective : Callback Float Float) :
    MeshSearch Float n :=
  { m with problem := { m.problem with objective } }

theorem SimplexSearch.shows_ranked {d : Desk Float ρ} :
    SimplexSearch.Shows (n := n) (.ranked g d)
      (.ranked g (SimplexSearch.RankedStates g) (SimplexSearch.RankedRows g)) where
  evaluations _ _ he := ⟨he.point, he.value⟩
  states := by
    rintro st st' ⟨hvertices, -, hrestarts, hdiameter⟩
    refine ⟨?_, hrestarts, hdiameter⟩
    exact (SimplexSearch.Alike.iff_forall₂.1 hvertices).imp fun v v' hv => ⟨hv.point, hv.value⟩
  rows r r' x hvalue hdiameter hrest := by
    have hdiameter' : r'.diameter = r.diameter := hdiameter
    rw [hdiameter'] at hrest
    exact ⟨hvalue, hrest⟩
  places _ _ := id
  values _ _ _ := id

theorem MeshSearch.shows_ranked {o : MeshSearch.Options Float} {start : Point Float n}
    {d : Desk Float (MeshSearch.Row Float n)} :
    (MeshSearch.Outlook.ranked g o start d).Shows (n := n)
      (.ranked g (MeshSearch.RankedStates g) (MeshSearch.RankedRows g)) where
  evaluations _ _ he := ⟨he.point, he.value.1⟩
  states _ _ hst := ⟨hst.value.1, hst.merit, hst.rest⟩
  rows _ _ _ hvalue hrest := ⟨hvalue.1, hrest⟩
  incumbents _ _ := id
  values _ _ _ hv := hv.1

/-- **Only the ranks of values count.** Let one objective be what a strictly
increasing function makes of another, all values being finite. A simplex
search that does not rebuild its simplex takes the same course for both. So
does a mesh search where nothing can be violated and slopes are not
estimated, if the values at the start give stall tolerances of which both
are infinite or none is. -/
theorem runs_rank_alike (hg : StrictMono g) (clock : Nat → Float) :
    (∀ (m : SimplexSearch Float n) (objective : Callback Float Float)
      (d : Desk Float (SimplexSearch.Row Float)), m.options.orientedRestart = false →
      m.problem.Transports g objective →
      m.method.RanksAlike g (SimplexSearch.RankedStates g) (SimplexSearch.RankedRows g)
        (m.withObjective objective).method clock d) ∧
    ∀ (m : MeshSearch Float n) (objective : Callback Float Float)
      (d : Desk Float (MeshSearch.Row Float n)), m.problem.isUnconstrained →
      m.options.estimateSlope = false → m.problem.Transports g objective →
      (∀ counters v v', m.problem.objective counters m.start.toGrid = .ok v →
        objective counters m.start.toGrid = .ok v' → MeshSearch.ToleratesAlike m.options v v') →
      m.method.RanksAlike g (MeshSearch.RankedStates g) (MeshSearch.RankedRows g)
        (m.withObjective objective).method clock d := by
  constructor
  · intro m objective d ho hobjective
    have hserves : SimplexSearch.Serves (.ranked g d) m.options m.problem
        { m.problem with objective } m.vertices m.vertices :=
      SimplexSearch.serves_ranked hg ho hobjective
    exact (SimplexSearch.course hserves Pairing.at_atDesk SimplexSearch.shows_ranked
      (fun _ => rfl) (.inl trivial)).ranksAlike
  · intro m objective d hp ho hobjective htolerance
    have hserves := MeshSearch.serves_ranked (d := d) hg ho hp hobjective htolerance
    exact (MeshSearch.Outlook.course hserves Pairing.at_atDesk MeshSearch.shows_ranked
      (fun _ => rfl) (.inl trivial)).ranksAlike

/-- On a line, a search for a function that falls from a height to zero left
of the start. There are no bounds, and one iteration to spend. A value at the
start counts twice in the stall tolerance. -/
def MeshSearch.falling (height : Float) : MeshSearch Float 1 :=
  onLine (fun x => if lt x zero then zero else height) zero (-Extended.infinity) Extended.infinity
    (((Settings.default .mesh).set "rtol" (.real two)).set "max_iter" (.whole 1))

/-- A height scaled is the fall scaled. -/
theorem MeshSearch.falling_transports {height height' : Float} (h : Ranked g height height')
    (hg : g 0 = 0) :
    (falling height).problem.Transports g (falling height').problem.objective := by
  intro counters x
  refine .ok ?_
  dsimp only
  split
  · exact .zero hg
  · exact h

/-- Runs for values and for their doubles: the simplex search for an
objective that is lower at every other evaluation, and the mesh search for a
fall. -/
theorem doubled_runs_rank_alike :
    (∃ r r' d d',
      SimplexSearch.alternating.method.run (fun _ => zero) 1 (fresh .empty) = some ⟨.ok r, d⟩ ∧
        (SimplexSearch.alternating.withObjective fun counters _ =>
          .ok (if counters.objective % 2 = 0 then zero else two)).method.run (fun _ => zero) 1
            (fresh .empty) = some ⟨.ok r', d'⟩ ∧
        Report.Abreast (fun t => t + t) (SimplexSearch.RankedRows fun t => t + t) r r') ∧
    ∃ r r' d d',
      (MeshSearch.falling one).method.run (fun _ => zero) 1 (fresh .empty) = some ⟨.ok r, d⟩ ∧
        (MeshSearch.falling two).method.run (fun _ => zero) 1 (fresh .empty)
          = some ⟨.ok r', d'⟩ ∧
        Report.Abreast (fun t => t + t) (MeshSearch.RankedRows fun t => t + t) r r' := by
  have hdouble : StrictMono fun t : ℝ => t + t := fun a b hab => add_lt_add hab hab
  have hranked : Ranked (fun t => t + t) one two := by
    refine ⟨by decide +kernel, by decide +kernel, ?_⟩
    rw [Binary64.real_one, Binary64.real, Binary64.value_two, ← one_add_one_eq_two]
    rfl
  constructor
  · have halike := (runs_rank_alike hdouble fun _ => zero).1 SimplexSearch.alternating
      (fun counters _ => .ok (if counters.objective % 2 = 0 then zero else two)) (fresh .empty) rfl
      (fun counters x => by
        refine .ok ?_
        split
        · exact .zero (add_zero 0)
        · exact hranked)
    obtain ⟨r, d, hrun, -⟩ := Method.exists_report (show Method.reportsThat (fun _ => true)
      (SimplexSearch.alternating.method.run (fun _ => zero) 1 (fresh .empty)) by decide +kernel)
    obtain ⟨r', d', hrun', habreast⟩ :=
      exists_report_beside (halike.run 1) (fun _ _ hended => hended.2.2) hrun
    exact ⟨r, r', d, d', hrun, hrun', habreast⟩
  · have halike := (runs_rank_alike hdouble fun _ => zero).2 (MeshSearch.falling one)
      (MeshSearch.falling two).problem.objective (fresh .empty) (by decide +kernel) rfl
      (MeshSearch.falling_transports hranked (add_zero 0)) (fun counters v v' hv hv' => by
        obtain rfl := Except.ok.inj hv
        obtain rfl := Except.ok.inj hv'
        exact .of_finite (by decide +kernel) (by decide +kernel))
    obtain ⟨r, d, hrun, -⟩ := Method.exists_report (show Method.reportsThat (fun _ => true)
      ((MeshSearch.falling one).method.run (fun _ => zero) 1 (fresh .empty)) by decide +kernel)
    obtain ⟨r', d', hrun', habreast⟩ :=
      exists_report_beside (halike.run 1) (fun _ _ hended => hended.2.2) hrun
    exact ⟨r, r', d, d', hrun, hrun', habreast⟩

/-- **A value can be too large for its rank to count:** twice the height of
this fall is infinite, and the search for it stalls where it starts. Scaled
to a height of one, the same fall is found. -/
theorem steep_fall_not_ranked :
    let height : Float := 1e308
    let scale (t : ℝ) : ℝ := t * (Binary64.real height)⁻¹
    let m := MeshSearch.falling height
    let objective := (MeshSearch.falling one).problem.objective
    StrictMono scale ∧ m.problem.isUnconstrained ∧ m.options.estimateSlope = false ∧
      m.problem.Transports scale objective ∧
      ∃ r r' d d', m.method.run (fun _ => zero) 1 (fresh .empty) = some ⟨.ok r, d⟩ ∧
        (m.withObjective objective).method.run (fun _ => zero) 1 (fresh .empty)
          = some ⟨.ok r', d'⟩ ∧
        r.status = .stalled ∧ r'.status = .maxIter ∧ r.iterations = 0 ∧ r'.iterations = 1 := by
  intro height scale m objective
  have hpos : 0 < Binary64.real height := by
    rw [← Binary64.real_zero]
    exact (Binary64.lt_iff_real (by decide +kernel) (by decide +kernel)).1 (by decide +kernel)
  have hranked : Ranked scale height one := by
    refine ⟨by decide +kernel, by decide +kernel, ?_⟩
    rw [Binary64.real_one]
    exact (mul_inv_cancel₀ hpos.ne').symm
  obtain ⟨r, d, hrun, hr⟩ := Method.exists_report
    (show Method.reportsThat (fun r => r.status = .stalled ∧ r.iterations = 0)
      (m.method.run (fun _ => zero) 1 (fresh .empty)) by decide +kernel)
  obtain ⟨r', d', hrun', hr'⟩ := Method.exists_report
    (show Method.reportsThat (fun r => r.status = .maxIter ∧ r.iterations = 1)
      ((m.withObjective objective).method.run (fun _ => zero) 1 (fresh .empty)) by decide +kernel)
  obtain ⟨hstatus, hiterations⟩ := of_decide_eq_true hr
  obtain ⟨hstatus', hiterations'⟩ := of_decide_eq_true hr'
  exact ⟨fun a b hab => mul_lt_mul_of_pos_right hab (inv_pos.2 hpos), by decide +kernel, rfl,
    MeshSearch.falling_transports hranked (zero_mul _), r, r', d, d', hrun, hrun', hstatus,
    hstatus', hiterations, hiterations'⟩

end DirectSearch
