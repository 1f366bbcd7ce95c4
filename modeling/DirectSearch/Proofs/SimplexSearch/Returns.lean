import DirectSearch.Proofs.Scalar.Real
import DirectSearch.Proofs.Search.Faults
import DirectSearch.Proofs.SimplexSearch.Iteration
import DirectSearch.SimplexSearch.Run
/-!
# Simplex search — searches that are given what they need

A simplex search can end with a fault only where the objective does, where a
setting is no number, or where a whole number is out of the range of the
arithmetic. If none of these can happen (`Reliable`), a run that ends has a
report (`Reliable.exists_report`). Real numbers have no end to their range:
there a run whose objective returns and whose settings are numbers has a first
session, and every session of it has a next one (`exists_start`, `exists_turn`).
-/

namespace DirectSearch.SimplexSearch

open Scalar Session Simplex

section

variable {α : Type} {n : Nat} {ρ : Type} {p : Problem α n}

/-! ## Evaluations -/

/-- The objective returns at every point of the space. -/
def ReturnsOnSpace (p : Problem α n) : Prop :=
  ∀ counters (x : Point α n), ∃ v, p.objective counters x.toGrid = .ok v

variable [Scalar α] {o : Options α} {vs : Vertices α n (Point α n) 0}

section

variable (hp : ReturnsOnSpace p)

include hp

theorem returns_vertexAt (x : Point α n) : Returns (vertexAt p x) := by
  refine .bind (fun t => ?_) fun _ => .pure _
  obtain ⟨v, hv⟩ := hp t.counters.askObjective x
  exact ⟨v, _, Problem.objectiveAt_eq_ok.2 ⟨hv, rfl⟩⟩

theorem returns_evaluateAll {k : Nat} (xs : Vector (Point α n) k) :
    Returns (evaluateAll p xs) := by
  have hlist (xs : List (Point α n)) : Returns (xs.mapM (vertexAt p)) := by
    induction xs with
    | nil => exact .pure []
    | cons x xs ih =>
      rw [List.mapM_cons]
      exact .bind (returns_vertexAt hp x) fun v => ih.bind fun vs => .pure _
  intro t
  obtain ⟨vs, u, hvs⟩ := hlist xs.toArray.toList t
  rw [← Array.toList_mapM, ← Vector.toArray_mapM] at hvs
  change EStateM.map _ (EStateM.map _ (evaluateAll p xs)) t = _ at hvs
  cases hall : evaluateAll p xs t with
  | ok vs u => exact ⟨vs, u, rfl⟩
  | error fault u => simp [EStateM.map, hall] at hvs

theorem returns_replaceEach {place : Vertices α n (Point α n) 0 → Fin n → Except Fault (Point α n)}
    (hplace : ∀ vs i, ∃ x, place vs i = .ok x) (is : List (Fin n)) :
    Returns (replaceEach p place is : Step α ρ (State α n) Unit) := by
  induction is with
  | nil => exact .pure ()
  | cons i is ih =>
    exact .bind .getState fun st => .bind (.demand (hplace _ _)) fun x =>
      .bind (.evaluate (returns_vertexAt hp x)) fun v => .bind (.modifyState _) fun _ => ih

end

/-! ## The step -/

/-- A stated number that trials can be made with: it and what is missing to one
are in range. -/
def IsWeight (weight : Stated α) : Prop :=
  ∃ k, weight = .ok k ∧ (∃ c, k.toScalar = .ok c) ∧ ∃ c, k.complement.toScalar = .ok c

/-- The settings that an iteration looks at are numbers, and those it computes
with are in range. -/
structure Options.IsInRange (o : Options α) : Prop where
  weight : ∀ w ∈ o.weights, IsWeight w.2
  maxRestart : ∃ k, o.maxRestart = .ok k
  decrease : ∃ k, o.decrease = .ok k ∧ ∃ c, k.neg.toScalar = .ok c

/-- There is a trial with every such weight. -/
theorem exists_trial {weight : Stated α} (h : IsWeight weight) :
    ∃ x, trial vs weight = .ok x := by
  obtain ⟨k, rfl, ⟨towards, htowards⟩, away, haway⟩ := h
  simp only [trial, Vertices.centroid, Coordinates.centroid_point, bind, Except.bind, htowards,
    haway, Coordinates.blend_point]
  exact ⟨_, rfl⟩

theorem returns_tryVertex (hp : ReturnsOnSpace p) {weight : Stated α} (h : IsWeight weight) :
    Returns (tryVertex p vs weight) :=
  .bind (.demand (exists_trial h)) fun x => returns_vertexAt hp x

theorem returns_tryStep (hp : ReturnsOnSpace p) (ho : o.IsInRange) :
    Returns (tryStep p o vs) := by
  have htry (move : Move) {weight : Stated α} (hw : (move, weight) ∈ o.weights) :
      Returns (tryVertex p vs weight) := returns_tryVertex hp (ho.weight _ hw)
  refine .bind (htry .reflection (by simp [Options.weights])) fun r => ?_
  refine .ite (.pure _) (.ite ?_ (.ite (.ite ?_ ?_) (.pure _)))
  · exact .bind (htry .expansion (by simp [Options.weights])) fun e =>
      .ite (.pure _) (.pure _)
  · exact .bind (htry .outsideContraction (by simp [Options.weights])) fun c =>
      .ite (.pure _) (.pure _)
  · exact .bind (htry .insideContraction (by simp [Options.weights])) fun c =>
      .ite (.pure _) (.pure _)

/-! ## The iteration -/

theorem exists_stagnates (ho : o.IsInRange) (before now radius : α) (g : Gradient α n) :
    ∃ b, stagnates o before now radius g = .ok b := by
  obtain ⟨k, hk, share, hshare⟩ := ho.decrease
  unfold stagnates
  split
  · exact ⟨_, rfl⟩
  · split
    · exact ⟨_, rfl⟩
    · simp only [hk, bind, Except.bind, hshare]
      exact ⟨_, rfl⟩

theorem exists_mayRestart (ho : o.IsInRange) (restarts : Int) :
    ∃ b, mayRestart o restarts = .ok b := by
  obtain ⟨k, hk⟩ := ho.maxRestart
  unfold mayRestart
  split
  · simp [hk, Except.map]
  · exact ⟨false, rfl⟩

theorem returns_considerRestart (hp : ReturnsOnSpace p) (ho : o.IsInRange) (hn : 0 < n) :
    Returns (considerRestart p o : Step α ρ (State α n) Bool) := by
  refine .bind .getState fun st => .bind (.demand (exists_mayRestart ho _)) fun may =>
    .ite ?_ (.pure _)
  refine .bind (.demand st.vertices.exists_nearest) fun radius =>
    .demand_bind (st.vertices.gradientOf_toList hn) <|
      .bind (.demand (exists_stagnates ho _ _ _ _)) fun rebuild => ?_
  -- every axis of the gradient is there to be rebuilt along
  have hplace (g : Point α n) (vs : Vertices α n (Point α n) 0) (i : Fin n) :
      ∃ x, rebuiltPoint st.vertices.best.point g radius i.val = .ok x := by
    unfold rebuiltPoint
    rw [dif_pos i.isLt, Coordinates.shift_point]
    exact ⟨_, rfl⟩
  refine .ite ?_ (.bind (.modifyState _) fun _ => .pure _)
  exact .bind (returns_replaceEach hp (hplace _) _) fun _ => .bind (.modifyState _) fun _ =>
    .bind .getState fun _ => .bind (.report _) fun _ => .bind (.modifyState _) fun _ => .pure _

/-- **An iteration ends,** whichever way vertices are sorted. -/
theorem returns_iterateBy (hp : ReturnsOnSpace p) (ho : o.IsInRange) (hn : 0 < n)
    (sorter : Sorter (Vertex α (Point α n))) :
    Returns (iterateBy sorter p o : Step α ρ (State α n) MoveReport) := by
  refine .bind .getState fun before => .bind (.evaluate (returns_tryStep hp ho))
    fun ⟨move, accepted⟩ => .bind (.modifyState _) fun _ =>
      .bind (returns_considerRestart hp ho hn) fun restarted => ?_
  have hsort {γ : Type} {r : γ} : Returns (do
      countIteration
      modifyState fun st => { st with vertices := sorter.onVector st.vertices }
      let st ← getState
      let diameter ← demand st.vertices.diameter
      modifyState fun st => { st with diameter }
      return r : Step α ρ (State α n) γ) :=
    Returns.countIteration.bind fun _ => .bind (.modifyState _) fun _ =>
      .bind .getState fun st => .bind (.demand ⟨_, st.vertices.diameter_eq⟩) fun _ =>
        .bind (.modifyState _) fun _ => .pure _
  refine .ite (.bind (returns_replaceEach hp (fun vs i => ?_) _) fun _ => hsort) hsort
  exact ⟨_, Coordinates.midpoint_point _ _⟩

/-! ## Runs -/

variable {m : SimplexSearch α n} {clock : Nat → α} {d : Desk α (Row α)}

/-- **A run has a first session.** -/
theorem exists_start (hp : ReturnsOnSpace m.problem) : ∃ s, m.method.start clock d = .ok s := by
  have hinitial : Returns (initial m.problem m.vertices : Step α (Row α) Unit (State α n)) :=
    .bind (.evaluate (returns_evaluateAll hp _)) fun vs =>
      .bind (.demand ⟨_, Vertices.diameter_eq _⟩) fun _ => .pure _
  obtain ⟨st, d', hst⟩ := hinitial (d.openJournal clock)
  have hmethod : m.method.initial (d.openJournal clock) = .ok st d' := hst
  unfold Method.start
  rw [hmethod]
  exact ⟨_, rfl⟩

/-- **A search that is given what it needs.** The values of the objective may
depend on how often it has been asked for. -/
structure Reliable (m : SimplexSearch α n) : Prop where
  objective : ReturnsOnSpace m.problem
  options : m.options.IsInRange
  tolerance : ∃ bound, m.options.tolerance = .ok bound
  budgets : m.budgets.IsNumeric

namespace Reliable

variable (h : m.Reliable)

include h

theorem exists_isConverged (s : Session α (Row α) (State α n)) :
    ∃ converged, isConverged m.options s = .ok converged := by
  obtain ⟨bound, hbound⟩ := h.tolerance
  exact ⟨_, by rw [isConverged, hbound]; rfl⟩

/-- The tests between the turns return. -/
theorem exists_finished (s : Session α (Row α) (State α n)) :
    ∃ ended, m.method.finished s = .ok ended :=
  Method.exists_finished (m := m.method) h.budgets (h.exists_isConverged s)

/-- There is a status for every session. -/
theorem exists_verdict (s : Session α (Row α) (State α n)) :
    ∃ status, (m.method.exhausted s >>= m.method.verdict s) = .ok status := by
  obtain ⟨converged, hconverged⟩ := h.exists_isConverged s
  obtain ⟨spent, hspent⟩ := Method.exists_exhausted (m := m.method) h.budgets s
  obtain ⟨status, hstatus⟩ := h.budgets.exists_status s.tally.counters.objective s.elapsed
  suffices hverdict : ∃ status, verdict m.options m.budgets s spent = .ok status by
    obtain ⟨status, hverdict⟩ := hverdict
    exact ⟨status, except_bind_eq_ok.2 ⟨spent, hspent, hverdict⟩⟩
  simp only [verdict, except_bind_eq_ok, hconverged]
  cases converged with
  | true => exact ⟨_, _, rfl, rfl⟩
  | false =>
    cases spent with
    | true => exact ⟨_, _, rfl, hstatus⟩
    | false => exact ⟨_, _, rfl, rfl⟩

/-- **A run that ends has a report.** -/
theorem exists_report (hn : 0 < n) {fuel : Nat} {ended : Ended α n (Row α)}
    (hrun : m.method.run clock fuel d = some ended) : ∃ report, ended.result = .ok report := by
  obtain ⟨result, d'⟩ := ended
  cases result with
  | ok report => exact ⟨report, rfl⟩
  | error fault =>
    obtain ⟨s₀, hs₀⟩ := exists_start h.objective
    obtain ⟨s, t, -, -, hfault⟩ :=
      (Method.run_faults_iff hs₀ h.exists_finished h.exists_verdict).1 ⟨fuel, d', hrun⟩
    obtain ⟨r, u, hiterate⟩ := returns_iterateBy h.objective h.options hn Vertex.sorter s
    cases hiterate.symm.trans hfault

end Reliable

end

/-! ## In exact arithmetic -/

variable {n : Nat} {ρ : Type} {p : Problem ℝ n} {o : Options ℝ}
variable {vs : Vertices ℝ n (Point ℝ n) 0}

/-- The settings that an iteration looks at are numbers. -/
structure Options.IsNumeric (o : Options ℝ) : Prop where
  weight : ∀ w ∈ o.weights, ∃ c, w.2.toScalar = .ok c
  maxRestart : ∃ k, o.maxRestart = .ok k
  decrease : ∃ k, o.decrease = .ok k

/-- All of them are in range. -/
theorem Options.IsNumeric.isInRange (h : o.IsNumeric) : o.IsInRange where
  weight w hw := by
    obtain ⟨c, hc⟩ := h.weight w hw
    obtain ⟨move, fault | k⟩ := w
    · cases hc
    · exact ⟨k, rfl, ⟨_, k.toScalar_real⟩, _, k.complement.toScalar_real⟩
  maxRestart := h.maxRestart
  decrease := by
    obtain ⟨k, hk⟩ := h.decrease
    exact ⟨k, hk, _, k.neg.toScalar_real⟩

/-- The trial with a weight that is a number. -/
theorem trial_eq {weight : Stated ℝ} {c : ℝ} (h : weight.toScalar = .ok c) :
    trial vs weight = .ok (Point.blend (1 - c)
      (Point.centroid ((vs.toList.take n).map (·.point))) c vs.worst.point) := by
  obtain fault | k := weight
  · cases h
  · obtain rfl : k.toReal = c := by
      rw [← Except.ok.injEq (ε := Fault), ← h]
      exact (k.toScalar_real).symm
    simp only [trial, Vertices.centroid, Coordinates.centroid_point, bind, Except.bind,
      Number.toScalar_real, Number.toReal_complement, Coordinates.blend_point]

theorem returns_iterate (hp : ReturnsOnSpace p) (ho : o.IsNumeric) (hn : 0 < n) :
    Returns (iterate p o : Step ℝ ρ (State ℝ n) MoveReport) :=
  returns_iterateBy hp ho.isInRange hn Vertex.sorter

/-- **Every session has a next one.** -/
theorem exists_turn {m : SimplexSearch ℝ n} {clock : Nat → ℝ} (hn : 0 < n)
    (hp : ReturnsOnSpace m.problem) (ho : m.options.IsNumeric)
    (s : Session ℝ (Row ℝ) (State ℝ n)) : ∃ t, m.method.Turns clock s t := by
  obtain ⟨r, t, hiterate⟩ := returns_iterate hp ho hn s
  exact Method.exists_turn_of_iterate (m := m.method) hiterate

end DirectSearch.SimplexSearch
