import DirectSearch.Proofs.Problem.Constraints
import DirectSearch.Proofs.Problem.Violation
import DirectSearch.Proofs.Search.Budgets
import DirectSearch.Proofs.Search.Verdicts
/-!
# Search — the rows of a run

A row is written at the start of a run and after every iteration, and
nowhere else. It says how many iterations and evaluations there have been,
and since an iteration is counted once and asks for one evaluation at least,
the rows are numbered from zero and their evaluations rise strictly
(`Rows`). The last row is that of the session the run reports.

The counts are kept by the problem, in all the places where it is evaluated.
A mesh search evaluates by appraisals only, which ask for the objective once
and for the constraints once, if there are any; a simplex search never asks
for constraints. So what is reported of the counts agrees with the rows
(`runs_on_record`).
-/

namespace DirectSearch

open Scalar Session

variable {α : Type} {n : Nat} {ρ σ ι : Type}

/-! ## Rows that follow one another -/

/-- What a row says of how far the run has come. -/
structure Gauge (ρ : Type) where
  iteration : ρ → Int
  evaluations : ρ → Nat

/-- **The rows of a run** after so many iterations: there is one more than
iterations, they are numbered from zero, and their evaluations rise strictly
from the first to the last. -/
structure Rows (g : Gauge ρ) (first last : Nat) (iterations : Int) (rows : List ρ) : Prop where
  length : (rows.length : Int) = iterations + 1
  numbered (k : Nat) (hk : k < rows.length) : g.iteration rows[k] = k
  rising : (rows.map g.evaluations).Pairwise (· < ·)
  first : rows.head?.map g.evaluations = some first
  last : rows.getLast?.map g.evaluations = some last

namespace Rows

variable {g : Gauge ρ} {first last : Nat} {iterations : Int} {rows : List ρ} {row : ρ}

/-- The row of the start. -/
theorem single (hiteration : g.iteration row = 0) (hevaluations : g.evaluations row = first) :
    Rows g first first 0 [row] where
  length := rfl
  numbered k hk := by
    obtain rfl : k = 0 := by simpa using hk
    exact hiteration
  rising := List.pairwise_singleton _ _
  first := congrArg some hevaluations
  last := congrArg some hevaluations

/-- The row of one more iteration. -/
theorem push (h : Rows g first last iterations rows) (hiteration : g.iteration row = iterations + 1)
    (hevaluations : last < g.evaluations row) :
    Rows g first (g.evaluations row) (iterations + 1) (rows ++ [row]) where
  length := by
    have := h.length
    rw [List.length_append, List.length_singleton]
    omega
  numbered k hk := by
    have := h.length
    rw [List.length_append, List.length_singleton] at hk
    by_cases hold : k < rows.length
    · rw [List.getElem_append_left hold]
      exact h.numbered k hold
    · obtain rfl : k = rows.length := by omega
      rw [List.getElem_concat_length rfl, hiteration]
      omega
  rising := by
    -- a row that rises above the last one rises above all
    rw [← List.isChain_iff_pairwise, List.map_append, List.isChain_append]
    refine ⟨List.isChain_iff_pairwise.2 h.rising, .singleton _, ?_⟩
    rw [List.getLast?_map, h.last]
    simpa using hevaluations
  first := by
    have hne : rows ≠ [] := by
      rintro rfl
      exact nomatch h.first
    rw [List.head?_append_of_ne_nil _ hne, h.first]
  last := by simp

end Rows

/-! ## The rows of a method -/

variable [Scalar α]

/-- What a method needs for its rows to follow one another: it spends
evaluations on every iteration and counts it, leaves the journal to the loop,
and has rows that look at nothing but the state and the counts. -/
structure Method.KeepsRows (m : Method α n ρ σ ι) (g : Gauge ρ) (first most : Nat) : Prop where
  orderly : m.Orderly
  spending : m.Spending first most
  opening {d d' : Desk α ρ} {st : σ} : m.initial d = .ok st d' → d'.journal = d.journal
  iteration (s : Session α ρ σ) (i : Option ι) : g.iteration (m.entry s i) = s.iterations
  evaluations (s : Session α ρ σ) (i : Option ι) : g.evaluations (m.entry s i) = s.asked
  entry {s t : Session α ρ σ} (i : Option ι) : t.state = s.state → t.tally = s.tally →
    t.iterations = s.iterations → m.entry t i = m.entry s i

/-- The rows that a session has on its journal. -/
def Session.rows (s : Session α ρ σ) : List ρ := s.journal.history.toList.map (·.entry)

namespace Method.KeepsRows

variable {m : Method α n ρ σ ι} {g : Gauge ρ} {first most : Nat} {clock : Nat → α}
variable {d : Desk α ρ} {s t : Session α ρ σ}

variable (h : m.KeepsRows g first most)

include h

theorem rows_start (hs : m.start clock d = .ok s) : s.rows = [m.entry s none] := by
  unfold Method.start at hs
  split at hs
  · cases hs
  · rename_i st d' hinitial
    cases hs
    have hempty : d'.journal.history = #[] := by
      rw [h.opening hinitial]
      rfl
    -- what the row says is not changed by its being sent
    have hsent : m.entry (((d'.withState st).startClock clock).sendRow clock
        (m.entry ((d'.withState st).startClock clock) none)) none =
          m.entry ((d'.withState st).startClock clock) none := h.entry none rfl rfl rfl
    rw [hsent, Session.rows, history_sendRow]
    change (d'.journal.history.push _).toList.map _ = _
    rw [hempty]
    rfl

theorem rows_turn (ht : m.Turns clock s t) : ∃ i, t.rows = s.rows ++ [m.entry t (some i)] := by
  obtain ⟨i, u, time, -, hstate, htally, hiterations, hhistory⟩ := h.orderly.exists_row ht
  refine ⟨i, ?_⟩
  rw [Session.rows, hhistory, h.entry (some i) hstate htally hiterations, List.map_append]
  rfl

/-- **Every session of a run** has its rows, and its own comes last. -/
theorem reaches_rows (hs : m.Reaches clock d s) :
    Rows g (d.asked + first) s.asked s.iterations s.rows ∧
      ∃ i, s.rows.getLast? = some (m.entry s i) := by
  refine hs.induction (I := fun s => Rows g (d.asked + first) s.asked s.iterations s.rows ∧
    ∃ i, s.rows.getLast? = some (m.entry s i)) (fun s hs => ?_) fun s t _ ih ht => ?_
  · obtain ⟨hasked, hiterations⟩ := h.spending.start hs
    rw [h.rows_start hs, hasked, hiterations]
    refine ⟨.single ?_ ?_, none, rfl⟩
    · rw [h.iteration, hiterations]
    · rw [h.evaluations, hasked]
  · obtain ⟨i, hrows⟩ := h.rows_turn ht
    obtain ⟨hasked, -, hiterations⟩ := h.spending.turn.ok ht
    have hiteration : g.iteration (m.entry t (some i)) = s.iterations + 1 := by
      rw [h.iteration]
      exact hiterations
    have hevaluations := h.evaluations t (some i)
    rw [hrows, hiterations, ← hevaluations]
    refine ⟨ih.1.push hiteration ?_, some i, by simp⟩
    rw [hevaluations]
    omega

end Method.KeepsRows

/-! ## The counts of a mesh search -/

namespace Problem

variable {p : Problem α n} {x : Grid α} {c c' : Counters} {v w : α}

/-- The constraints are asked for once, if there are any. -/
theorem counters_of_violationOf (h : p.violationOf x c = .ok v c') :
    c' = if p.constraintCount = 0 then c else c.askConstraint := by
  by_cases hfree : p.isUnconstrained
  · rw [violationOf_of_isUnconstrained hfree] at h
    rw [if_pos (constraintCount_of_isUnconstrained hfree)]
    cases h
    rfl
  · simp only [violationOf, if_neg hfree, bind_eq_ok, demand_eq_ok] at h
    obtain ⟨bounds, _, ⟨-, rfl⟩, h⟩ := h
    by_cases hcount : p.constraintCount = 0
    · rw [if_pos hcount] at h ⊢
      exact (pure_eq_ok.1 h).2.symm
    · rw [if_neg hcount] at h ⊢
      simp only [bind_eq_ok, demand_eq_ok, pure_eq_ok, constraintsOf_eq_ok] at h
      obtain ⟨y, _, ⟨-, -, -, rfl⟩, excess, _, ⟨-, rfl⟩, -, rfl⟩ := h
      rfl

/-- How many evaluations of the constraints come with one of the objective. -/
def constraintsEach (p : Problem α n) : Nat := if p.constraintCount = 0 then 0 else 1

/-- **An appraisal** asks for the objective once, and for the constraints once
if there are any. -/
theorem counters_of_appraise {x : Point α n} {a : Appraisal α n} {t u : Tally α}
    (h : p.appraise w x t = .ok a u) :
    u.counters.objective = t.counters.objective + 1 ∧
      u.counters.constraint = t.counters.constraint + p.constraintsEach := by
  simp only [appraise, violationAt, bind_eq_ok, pure_eq_ok, objectiveAt_eq_ok,
    Counting.inSearch_eq_ok] at h
  obtain ⟨f, _, ⟨-, rfl⟩, v, _, ⟨counters, hv, rfl⟩, -, rfl⟩ := h
  rw [counters_of_violationOf hv, constraintsEach]
  split
  · exact ⟨rfl, rfl⟩
  · exact ⟨rfl, rfl⟩

/-- So appraisals count alike. -/
theorem Appraises.counters {as : List (Appraisal α n)} {t u : Tally α} (h : p.Appraises t as u) :
    u.counters.objective = t.counters.objective + as.length ∧
      u.counters.constraint = t.counters.constraint + as.length * p.constraintsEach := by
  induction h with
  | nil => simp
  | @cons _ _ _ _ _ _ as ha _ ih =>
    obtain ⟨hobjective, hconstraint⟩ := counters_of_appraise ha
    rw [ih.1, ih.2, hobjective, hconstraint, List.length_cons, Nat.succ_mul]
    omega

end Problem

namespace MeshSearch

variable {m : MeshSearch α n} {clock : Nat → α} {d : Desk α (Row α n)}
variable {s : Session α (Row α n) (State α n)}

/-- A mesh search evaluates by appraisals only. -/
theorem reaches_appraises (h : m.method.Reaches clock d s) :
    ∃ as, m.problem.Appraises d.tally as s.tally := by
  refine h.induction (I := fun s => ∃ as, m.problem.Appraises d.tally as s.tally)
    (fun s hs => ?_) fun s t _ ih ht => ?_
  · obtain ⟨a, ha, -⟩ := (start_first hs).1.appraised
    exact ⟨[a], .single ha⟩
  · obtain ⟨before, hbefore⟩ := ih
    obtain ⟨as, has, -⟩ := (turn_polled ht).cases
    exact ⟨before ++ as, hbefore.trans has⟩

/-- What a row of a mesh search says. -/
def gauge (α : Type) (n : Nat) : Gauge (Row α n) := ⟨Row.iteration, Row.evaluations⟩

theorem keepsRows (m : MeshSearch α n) (hn : 0 < n) :
    m.method.KeepsRows (gauge α n) 1 (2 * n) where
  orderly := m.orderly
  spending := m.spending hn
  opening h := by
    simp only [method, initial, bind_eq_ok, evaluate_eq_ok, draw_eq_ok, demand_eq_ok,
      pure_eq_ok] at h
    obtain ⟨a, _, ⟨tally, -, rfl⟩, q, _, ⟨-, rfl⟩, tolerance, _, ⟨-, rfl⟩, -, rfl⟩ := h
    rfl
  iteration _ _ := rfl
  evaluations _ _ := rfl
  entry i hstate htally hiterations := by
    simp only [method, rowOf, hstate, htally, hiterations]

end MeshSearch

/-! ## The counts of a simplex search -/

namespace SimplexSearch

open Simplex

variable {p : Problem α n} {o : Options α} {t u : Tally α}

/-- From one tally to another the constraints are not asked for. -/
def Spares (t u : Tally α) : Prop := u.counters.constraint = t.counters.constraint

section

variable {P : Type} [Coordinates α P] {extra : Nat} {vs : Vertices α n P extra}

omit [Scalar α] in
theorem spares_vertexAt {x : P} {v : Vertex α P} (h : vertexAt p x t = .ok v u) : Spares t u := by
  simp only [vertexAt, bind_eq_ok, pure_eq_ok, Problem.objectiveAt_eq_ok] at h
  obtain ⟨f, _, ⟨-, rfl⟩, -, rfl⟩ := h
  rfl

omit [Scalar α] in
theorem spares_mapM {xs : List P} {vs : List (Vertex α P)}
    (h : xs.mapM (vertexAt p) t = .ok vs u) : Spares t u := by
  induction xs generalizing t vs with
  | nil =>
    simp only [List.mapM_nil, pure_eq_ok] at h
    obtain ⟨-, rfl⟩ := h
    rfl
  | cons x xs ih =>
    simp only [List.mapM_cons, bind_eq_ok, pure_eq_ok] at h
    obtain ⟨v, _, hv, vs', _, hvs', -, rfl⟩ := h
    exact (ih hvs').trans (spares_vertexAt hv)

theorem spares_tryVertex {weight : Stated α} {v : Vertex α P}
    (h : tryVertex p vs weight t = .ok v u) : Spares t u := by
  simp only [tryVertex, bind_eq_ok, demand_eq_ok] at h
  obtain ⟨x, _, ⟨-, rfl⟩, hv⟩ := h
  exact spares_vertexAt hv

theorem Tried.spares {move : Move} {accepted : Option (Vertex α P)}
    (h : Tried p o vs t u move accepted) : Spares t u := by
  cases h with
  | reflected hr | unplaced hr => exact spares_tryVertex hr
  | expanded hr hv | unexpanded hr hv | outside hr hv | refusedOutside hr hv | inside hr hv
  | refusedInside hr hv => exact (spares_tryVertex hv).trans (spares_tryVertex hr)

variable {s t : Session α ρ (StateOn α n P extra)}

omit [Scalar α] in
theorem spares_replaceEach {place : Vertices α n P extra → Fin n → Except Fault P}
    {is : List (Fin n)} (h : replaceEach p place is s = .ok () t) : Spares s.tally t.tally := by
  induction is generalizing s with
  | nil =>
    simp only [replaceEach, pure_eq_ok] at h
    obtain ⟨-, rfl⟩ := h
    rfl
  | cons i is ih =>
    simp only [replaceEach, bind_eq_ok, getState_eq_ok, demand_eq_ok, evaluate_eq_ok,
      modifyState_eq_ok] at h
    obtain ⟨_, _, ⟨rfl, rfl⟩, x, _, ⟨-, rfl⟩, v, _, ⟨tally, hv, rfl⟩, _, _, rfl, h⟩ := h
    exact (ih h).trans (spares_vertexAt hv)

/-- **An iteration** never asks for the constraints. -/
theorem spares_iterate {r : MoveReport} (h : iterate p o s = .ok r t) :
    Spares s.tally t.tally := by
  obtain ⟨move, accepted, tally, htry, hends⟩ := iterate_ends h
  have hstep : Spares s.tally tally := (tried_of_tryStep htry).spares
  generalize r.shrunk = shrunk, r.restarted = restarted at hends
  cases hends with
  | stepped _ htally =>
    rw [htally]
    exact hstep
  | shrunk _ hbefore _ hshrink htally =>
    rw [htally]
    exact (spares_replaceEach hshrink).trans (hbefore ▸ hstep)
  | rebuilt _ _ _ _ hrebuild htally =>
    rw [htally]
    exact (spares_replaceEach hrebuild).trans hstep

end

variable {m : SimplexSearch α n} {clock : Nat → α} {d : Desk α (Row α)}
variable {s : Session α (Row α) (State α n)}

theorem reaches_spares (h : m.method.Reaches clock d s) : Spares d.tally s.tally := by
  refine h.invariant (I := fun t _ => Spares d.tally t) (fun st d' hinitial => ?_)
    fun s r t hs hiterate => (spares_iterate hiterate).trans hs
  obtain ⟨vs, tally, hvs, rfl, -⟩ := initialBy_cases hinitial
  exact spares_mapM (toList_evaluateAll hvs)

/-- What a row of a simplex search says. -/
def gauge (α : Type) : Gauge (Row α) := ⟨Row.iteration, Row.evaluations⟩

theorem keepsRows (m : SimplexSearch α n) : m.method.KeepsRows (gauge α) (n + 1) (n + 2) where
  orderly := m.orderly
  spending := m.spending
  opening h := by
    obtain ⟨-, -, -, rfl, -⟩ := initialBy_cases h
    rfl
  iteration _ _ := rfl
  evaluations _ _ := rfl
  entry i hstate htally hiterations := by
    simp only [method, methodBy, rowOf, hstate, htally, hiterations]

end SimplexSearch

/-! ## Both searches -/

/-- The rows of a report. -/
def Report.rows (r : Report α n ρ) : List ρ := r.history.toList.map (·.entry)

/-- **The rows and the counts of a run** of either search, from any desk. The
rows are numbered from zero to the last iteration, and their evaluations rise
strictly, from those that the start has asked for to those that are reported;
the last row has the objective that is reported, and the violation. All
evaluations of a mesh search are appraisals, and each counts one of the
objective and one of the constraints, if there are any; a simplex search
counts none of the constraints. -/
theorem runs_on_record (hn : 0 < n) (clock : Nat → α) (fuel : Nat) :
    (∀ (m : MeshSearch α n) d d' report,
      m.method.run clock fuel d = some ⟨.ok report, d'⟩ →
        Rows (MeshSearch.gauge α n) (d.asked + 1) report.objectiveCount report.iterations
            report.rows ∧
          (∃ row, report.rows.getLast? = some row ∧ row.value = report.objective ∧
            some row.violation = report.violation) ∧
          ∃ as, m.problem.Appraises d.tally as d'.tally ∧
            (∀ w x t a u, m.problem.appraise w x t = .ok a u →
              u.counters.objective = t.counters.objective + 1 ∧
                u.counters.constraint = t.counters.constraint +
                  if m.problem.constraintCount = 0 then 0 else 1) ∧
            report.objectiveCount = d.tally.counters.objective + as.length ∧
            report.constraintCount = d.tally.counters.constraint +
              if m.problem.constraintCount = 0 then 0 else as.length) ∧
    ∀ (m : SimplexSearch α n) d d' report,
      m.method.run clock fuel d = some ⟨.ok report, d'⟩ →
        Rows (SimplexSearch.gauge α) (d.asked + (n + 1)) report.objectiveCount report.iterations
            report.rows ∧
          (∃ row, report.rows.getLast? = some row ∧ row.value = report.objective) ∧
          report.constraintCount = d.tally.counters.constraint := by
  constructor
  · intro m d d' report hrun
    obtain ⟨s, status, hs, rfl, rfl⟩ := Method.exists_reaches_of_run hrun
    obtain ⟨hrows, i, hlast⟩ := (m.keepsRows hn).reaches_rows hs
    obtain ⟨as, has⟩ := MeshSearch.reaches_appraises hs
    obtain ⟨hobjective, hconstraint⟩ := has.counters
    refine ⟨hrows, ⟨_, hlast, rfl, rfl⟩, as, has, ?_, hobjective, hconstraint.trans ?_⟩
    · exact fun w x t a u ha => Problem.counters_of_appraise ha
    · unfold Problem.constraintsEach
      split <;> simp
  · intro m d d' report hrun
    obtain ⟨s, status, hs, rfl, rfl⟩ := Method.exists_reaches_of_run hrun
    obtain ⟨hrows, i, hlast⟩ := m.keepsRows.reaches_rows hs
    exact ⟨hrows, ⟨_, hlast, rfl⟩, SimplexSearch.reaches_spares hs⟩

/-- A search down a line that is not to go above zero, with three evaluations
to spend. -/
def MeshSearch.fenced : MeshSearch Float 1 :=
  { MeshSearch.thrifty with
    problem :=
      { MeshSearch.thrifty.problem with
        inequalities := [fun _ g => .ok (.one (g.entries.headD zero))]
        constraintLower := .replicate 1 (-Extended.infinity)
        constraintUpper := .replicate 1 zero } }

/-- Two polls that succeed at once, with as many evaluations of the constraint
as of the objective, and an iteration of a simplex search. -/
theorem three_rows_on_record :
    (∃ report d',
      MeshSearch.fenced.method.run (fun _ => zero) 2 (fresh .empty) = some ⟨.ok report, d'⟩ ∧
        report.iterations = 2 ∧ report.objectiveCount = 3 ∧ report.constraintCount = 3 ∧
        Rows (MeshSearch.gauge Float 1) 1 3 2 report.rows) ∧
    ∃ report d',
      SimplexSearch.alternating.method.run (fun _ => zero) 1 (fresh .empty) =
        some ⟨.ok report, d'⟩ ∧ report.constraintCount = 0 ∧
        Rows (SimplexSearch.gauge Float) 2 report.objectiveCount report.iterations
          report.rows := by
  constructor
  · obtain ⟨report, d', hrun, hreport⟩ := Method.exists_report
      (show Method.reportsThat (fun report => report.iterations = 2 ∧ report.objectiveCount = 3)
        (MeshSearch.fenced.method.run (fun _ => zero) 2 (fresh .empty)) by decide +kernel)
    obtain ⟨hiterations, hasked⟩ : report.iterations = 2 ∧ report.objectiveCount = 3 := by
      simpa using hreport
    obtain ⟨hrows, -, as, -, -, hobjective, hconstraint⟩ :=
      (runs_on_record one_pos (fun _ => zero) 2).1 _ _ _ _ hrun
    have hlength : 3 = 0 + as.length := hasked.symm.trans hobjective
    rw [hiterations, hasked] at hrows
    exact ⟨report, d', hrun, hiterations, hasked, hconstraint.trans hlength.symm, hrows⟩
  · obtain ⟨report, d', hrun, -⟩ := Method.exists_report
      (show Method.reportsThat (fun _ => true)
        (SimplexSearch.alternating.method.run (fun _ => zero) 1 (fresh .empty)) by decide +kernel)
    obtain ⟨hrows, -, hconstraint⟩ := (runs_on_record one_pos (fun _ => zero) 1).2 _ _ _ _ hrun
    exact ⟨report, d', hrun, hconstraint, hrows⟩

end DirectSearch
