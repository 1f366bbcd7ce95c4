import DirectSearch.Proofs.MeshSearch.Stall
import DirectSearch.Proofs.Search.Truncation
/-!
# Search — what the status of a run says

The loop looks at the limits to see whether to go on, and the status is
decided afterwards, by tests of its own in another order. Both look at the
same session, the last one of the run. A loop that has ended there had a
reason, and the status names it: a goal of the search, or the first limit
that was reached, and it is never unknown (`Orderly.exists_holdsTrue`). Nor
was there a reason at any session before, where the loop has gone on
(`Orderly.goes_on`). So a status can be taken at its word
(`statuses_hold_true`).
-/

namespace DirectSearch

open Scalar Session

variable {α : Type} [Scalar α]

/-! ## Limits that are reached -/

namespace Budgets

variable {b : Budgets α} {count : Nat} {elapsed : α} {iterations : Int}

/-- There is a limit of evaluations, not a negative one, and as many were
made. -/
def EvaluationsReached (b : Budgets α) (count : Nat) : Prop :=
  ∃ limit, b.evaluations = .ok (some limit) ∧ (Number.whole 0).le limit ∧
    limit.le (.whole count)

/-- The limit of time is not negative, and more time has passed. -/
def TimeExceeded (b : Budgets α) (elapsed : α) : Prop :=
  ∃ limit, b.time = .ok limit ∧ (Number.whole 0).le limit ∧ limit.lt (.real elapsed)

/-- There is a limit of iterations, not a negative one, and as many were
made. -/
def IterationsReached (b : Budgets α) (iterations : Int) : Prop :=
  ∃ limit, b.iterations = .ok (some limit) ∧ (Number.whole 0).le limit ∧
    limit.le (.whole iterations)

theorem map_isSpent_eq_true {limits : Except Fault (Option (Number α))} {j : Number α} :
    limits.map (isSpent j) = .ok true ↔
      ∃ limit, limits = .ok (some limit) ∧ (Number.whole 0).le limit ∧ limit.le j := by
  rcases limits with fault | _ | limit <;> simp [Except.map, isSpent, and_comm]

theorem evaluationsSpent_eq_true :
    b.evaluationsSpent count = .ok true ↔ b.EvaluationsReached count := map_isSpent_eq_true

theorem iterationsSpent_eq_true :
    b.iterationsSpent iterations = .ok true ↔ b.IterationsReached iterations :=
  map_isSpent_eq_true

theorem timeSpent_eq_true : b.timeSpent elapsed = .ok true ↔ b.TimeExceeded elapsed := by
  unfold timeSpent TimeExceeded
  cases b.time <;> simp [Except.map]

/-- A test that has failed has not passed. -/
theorem not_of_eq_false {e : Except Fault Bool} {P : Prop} (hiff : e = .ok true ↔ P)
    (h : e = .ok false) : ¬ P := fun hP => by
  cases h.symm.trans (hiff.2 hP)

/-- No limit is reached where the search may go on. -/
theorem none_reached (h : b.spent count elapsed iterations = .ok false) :
    ¬ b.EvaluationsReached count ∧ ¬ b.TimeExceeded elapsed ∧
      ¬ b.IterationsReached iterations := by
  obtain ⟨hevaluations, htime, hiterations⟩ := spent_eq_false.1 h
  exact ⟨not_of_eq_false evaluationsSpent_eq_true hevaluations,
    not_of_eq_false timeSpent_eq_true htime,
    not_of_eq_false iterationsSpent_eq_true hiterations⟩

/-- A status names the first limit that is reached. -/
def Names (b : Budgets α) (count : Nat) (elapsed : α) (iterations : Int) : Status → Prop
  | .maxEval => b.EvaluationsReached count
  | .maxTime => ¬ b.EvaluationsReached count ∧ b.TimeExceeded elapsed
  | .maxIter => ¬ b.EvaluationsReached count ∧ ¬ b.TimeExceeded elapsed ∧
      b.IterationsReached iterations
  | _ => False

/-- **The status that the limits give** names the first one that is
reached, if one is. -/
theorem names_status (hspent : b.spent count elapsed iterations = .ok true) {status : Status}
    (h : b.status count elapsed = .ok status) : b.Names count elapsed iterations status := by
  rcases status_cases h with ⟨hevaluations, rfl⟩ |
    ⟨hevaluations, ⟨htime, rfl⟩ | ⟨htime, rfl⟩⟩
  · exact evaluationsSpent_eq_true.1 hevaluations
  · exact ⟨not_of_eq_false evaluationsSpent_eq_true hevaluations, timeSpent_eq_true.1 htime⟩
  · -- something is spent, and only the iterations are left
    have hiterations : b.iterationsSpent iterations = .ok true := by
      rcases of_spent hspent with hspent | hspent | hspent
      · cases hevaluations.symm.trans hspent
      · cases htime.symm.trans hspent
      · exact hspent
    exact ⟨not_of_eq_false evaluationsSpent_eq_true hevaluations,
      not_of_eq_false timeSpent_eq_true htime, iterationsSpent_eq_true.1 hiterations⟩

end Budgets

/-! ## Sessions before the last -/

namespace Method

variable {n : Nat} {ρ σ ι : Type} {m : Method α n ρ σ ι} {clock : Nat → α}
variable {s₀ s t : Session α ρ σ}

/-- The loop has found no reason to end: the search has not settled, and no
limit is reached. -/
structure GoesOn (m : Method α n ρ σ ι) (s : Session α ρ σ) : Prop where
  settled : m.settled s = .ok false
  evaluations : ¬ m.budgets.EvaluationsReached s.tally.counters.objective
  time : ¬ m.budgets.TimeExceeded s.elapsed
  iterations : ¬ m.budgets.IterationsReached s.iterations

theorem goesOn_of_finished (h : m.finished s = .ok false) : m.GoesOn s := by
  simp only [finished, exhausted, except_bind_eq_ok, except_pure_eq_ok,
    Bool.or_eq_false_iff] at h
  obtain ⟨settled, hsettled, spent, hspent, rfl, rfl⟩ := h
  obtain ⟨hevaluations, htime, hiterations⟩ := Budgets.none_reached hspent
  exact ⟨hsettled, hevaluations, htime, hiterations⟩

/-- What ends the loop is the search or a limit. -/
theorem reason_of_finished (h : m.finished s = .ok true) :
    m.settled s = .ok true ∨ m.exhausted s = .ok true := by
  simp only [finished, except_bind_eq_ok, except_pure_eq_ok, Bool.or_eq_true] at h
  obtain ⟨settled, hsettled, exhausted, hexhausted, rfl | rfl⟩ := h
  · exact .inl hsettled
  · exact .inr hexhausted

namespace Orderly

variable (h : m.Orderly)

include h

/-- Turns are counted. -/
theorem iterations_lt (hsteps : Relation.TransGen (m.Turns clock) s t) :
    s.iterations < t.iterations := by
  obtain ⟨u, hu, hrest⟩ := Relation.TransGen.head'_iff.1 hsteps
  have hturn := (h.turn hu).1
  have hle := (h.prolongs hrest).iterations
  omega

/-- **Before the last session** the loop has gone on. -/
theorem goes_on {fuel : Nat} (hloop : m.loop clock fuel s₀ = .ok true s)
    (ht : Relation.ReflTransGen (m.Turns clock) s₀ t)
    (hsteps : Relation.TransGen (m.Turns clock) t s) : m.GoesOn t :=
  goesOn_of_finished (h.finished_of_lt hloop ht (h.iterations_lt hsteps))

end Orderly

/-- **A status that can be taken at its word:** it belongs to the last
session `s` of the run and says something; if it is no success, it names the
first limit reached there; and at every session before there was no reason to
end. -/
structure HoldsTrue (m : Method α n ρ σ ι) (clock : Nat → α) (d : Desk α ρ)
    (report : Report α n ρ) (s : Session α ρ σ) : Prop where
  reaches : m.Reaches clock d s
  eq : report = m.reportOf s report.status
  known : report.status ≠ .unknown
  names : ¬ report.status.isSuccess →
    m.budgets.Names report.objectiveCount report.elapsed report.iterations report.status
  before {t : Session α ρ σ} : m.Reaches clock d t → Relation.TransGen (m.Turns clock) t s →
    m.GoesOn t

/-- A verdict is a success or what the limits give, wherever there is a
reason to end. -/
def HasReasons (m : Method α n ρ σ ι) : Prop :=
  ∀ {s exhausted status}, m.verdict s exhausted = .ok status →
    m.settled s = .ok true ∨ exhausted → status.isSuccess ∨
      exhausted ∧ m.budgets.status s.tally.counters.objective s.elapsed = .ok status

/-- **The status of a run** can be taken at its word. -/
theorem Orderly.exists_holdsTrue (h : m.Orderly) (hreasons : m.HasReasons) {d d' : Desk α ρ}
    {fuel : Nat} {report : Report α n ρ} (hrun : m.run clock fuel d = some ⟨.ok report, d'⟩) :
    ∃ s exhausted, m.HoldsTrue clock d report s ∧
      m.verdict s exhausted = .ok report.status := by
  obtain ⟨s₀, s, status, hstart, hloop, hclose, rfl, -⟩ := exists_loop_of_run hrun
  obtain ⟨hsteps, hfinished⟩ := exists_turns_of_loop hloop
  obtain ⟨exhausted, hexhausted, hstatus⟩ := except_bind_eq_ok.1 hclose
  have hreason : m.settled s = .ok true ∨ exhausted := by
    refine (reason_of_finished hfinished).imp_right fun hspent => ?_
    exact Except.ok.inj (hexhausted.symm.trans hspent)
  have hnames : ¬ status.isSuccess →
      m.budgets.Names s.tally.counters.objective s.elapsed s.iterations status := by
    intro hfails
    obtain ⟨hspent, hlimit⟩ := (hreasons hstatus hreason).resolve_left hfails
    rw [hspent] at hexhausted
    exact Budgets.names_status hexhausted hlimit
  refine ⟨s, exhausted, ⟨⟨s₀, hstart, hsteps⟩, rfl, ?_, hnames, ?_⟩, hstatus⟩
  · rintro rfl
    exact hnames nofun
  · rintro t ⟨s₁, hstart', ht⟩ hbefore
    obtain rfl : s₀ = s₁ := Except.ok.inj (hstart.symm.trans hstart')
    exact h.goes_on hloop ht hbefore

end Method

/-! ## The mesh search -/

section

variable {n : Nat}

namespace MeshSearch

variable {o : Options α} {b : Budgets α} {s : Session α (Row α n) (State α n)}
variable {exhausted : Bool} {status : Status}

/-- The mesh is small where it may become so and has. -/
theorem isSmall_eq_true {st : State α n} : st.isSmall o = .ok true ↔
    o.stopWhenSmall ∧ ∃ bound, o.smallStep = .ok bound ∧ (Number.real st.mesh).le bound := by
  unfold StateOn.isSmall
  cases o.stopWhenSmall
  · simp
  · cases o.smallStep <;> simp [Except.map]

/-- A verdict is that of a small step just where the mesh is small. -/
theorem verdict_eq_smallStep_iff (h : verdict o b s exhausted = .ok status) :
    status = .smallStep ↔ s.state.isSmall o = .ok true := by
  rcases verdict_cases h with ⟨hsmall, hstatus⟩ | ⟨hsmall, hrest⟩
  · exact iff_of_true hstatus hsmall
  · refine iff_of_false ?_ (by rw [hsmall]; nofun)
    rcases hrest with ⟨-, rfl⟩ | ⟨-, ⟨-, hlimit⟩ | ⟨-, rfl⟩⟩
    · nofun
    · rintro rfl
      exact Budgets.not_isSuccess_of_status hlimit rfl
    · nofun

/-- What is no success and no limit is unknown, and the search has not
settled there. -/
theorem hasReasons (m : MeshSearch α n) : m.method.HasReasons := by
  intro s exhausted status hverdict hreason
  rcases verdict_cases hverdict with ⟨-, rfl⟩ | ⟨hsmall, ⟨-, rfl⟩ | ⟨hflat, hrest⟩⟩
  · exact .inl rfl
  · exact .inl rfl
  · rcases hrest with hlimit | ⟨rfl, -⟩
    · exact .inr hlimit
    · -- with the mesh not small and the ground not flat the search has not settled
      have hsettled : m.method.settled s = .ok false := by
        simp [method, StateOn.isSettled, hsmall, hflat, Except.map]
      simp [hsettled] at hreason

end MeshSearch

/-! ## The simplex search -/

namespace SimplexSearch

variable {o : Options α} {b : Budgets α} {s : Session α (Row α) (State α n)}
variable {exhausted : Bool} {status : Status}

/-- The tests of a verdict, in their order. -/
theorem verdict_cases (h : verdict o b s exhausted = .ok status) :
    (isConverged o s = .ok true ∧ status = .acceptable) ∨
      isConverged o s = .ok false ∧
        (exhausted ∧ b.status s.tally.counters.objective s.elapsed = .ok status ∨
          exhausted = false ∧ status = .unknown) := by
  obtain ⟨converged, hconverged, h⟩ := except_bind_eq_ok.1 h
  cases converged with
  | true => exact .inl ⟨hconverged, (except_pure_eq_ok.1 h).symm⟩
  | false =>
    refine .inr ⟨hconverged, ?_⟩
    rw [if_neg Bool.false_ne_true] at h
    cases exhausted with
    | true => exact .inl ⟨rfl, h⟩
    | false => exact .inr ⟨rfl, (except_pure_eq_ok.1 h).symm⟩

theorem isConverged_eq_true : isConverged o s = .ok true ↔
    ∃ bound, o.tolerance = .ok bound ∧ (Number.real s.state.diameter).lt bound := by
  unfold isConverged
  cases o.tolerance <;> simp [Except.map]

/-- A verdict is that of a small simplex just where the simplex is small. -/
theorem verdict_eq_acceptable_iff (h : verdict o b s exhausted = .ok status) :
    status = .acceptable ↔ isConverged o s = .ok true := by
  rcases verdict_cases h with ⟨hconverged, hstatus⟩ | ⟨hconverged, hrest⟩
  · exact iff_of_true hstatus hconverged
  · refine iff_of_false ?_ (by rw [hconverged]; nofun)
    rcases hrest with ⟨-, hlimit⟩ | ⟨-, rfl⟩
    · rintro rfl
      exact Budgets.not_isSuccess_of_status hlimit rfl
    · nofun

theorem hasReasons (m : SimplexSearch α n) : m.method.HasReasons := by
  intro s exhausted status hverdict hreason
  rcases verdict_cases hverdict with ⟨-, rfl⟩ | ⟨hconverged, hlimit | ⟨rfl, -⟩⟩
  · exact .inl rfl
  · exact .inr hlimit
  · have hsettled : m.method.settled s = .ok false := hconverged
    simp [hsettled] at hreason

end SimplexSearch

/-! ## Both searches -/

/-- **What the status of a run says,** of either search, from any desk, with
any clock and with limits of any kind. It is never unknown. It is that of a
small step just where the mesh may become small and has in the end, and
acceptable just where the simplex has become smaller than the tolerance. A
status that names a limit names the first one reached at the end of the run,
and at no session before was any limit reached or the search settled. -/
theorem statuses_hold_true (clock : Nat → α) (fuel : Nat) :
    (∀ (m : MeshSearch α n) d d' report,
      m.method.run clock fuel d = some ⟨.ok report, d'⟩ →
        ∃ s, m.method.HoldsTrue clock d report s ∧
          (report.status = .smallStep ↔ m.options.stopWhenSmall ∧
            ∃ bound, m.options.smallStep = .ok bound ∧ (Number.real s.state.mesh).le bound)) ∧
    ∀ (m : SimplexSearch α n) d d' report,
      m.method.run clock fuel d = some ⟨.ok report, d'⟩ →
        ∃ s, m.method.HoldsTrue clock d report s ∧
          (report.status = .acceptable ↔
            ∃ bound, m.options.tolerance = .ok bound ∧
              (Number.real s.state.diameter).lt bound) := by
  constructor
  · intro m d d' report hrun
    obtain ⟨s, exhausted, hholds, hverdict⟩ := m.orderly.exists_holdsTrue m.hasReasons hrun
    exact ⟨s, hholds, (MeshSearch.verdict_eq_smallStep_iff hverdict).trans
      MeshSearch.isSmall_eq_true⟩
  · intro m d d' report hrun
    obtain ⟨s, exhausted, hholds, hverdict⟩ := m.orderly.exists_holdsTrue m.hasReasons hrun
    exact ⟨s, hholds, (SimplexSearch.verdict_eq_acceptable_iff hverdict).trans
      SimplexSearch.isConverged_eq_true⟩

end

/-- A search down a line with no end, with three evaluations to spend. -/
def MeshSearch.thrifty : MeshSearch Float 1 :=
  { MeshSearch.onLine (fun x => x) zero (-Extended.infinity) Extended.infinity
      (Settings.default .mesh) with
    budgets := ⟨.ok (some (.whole 3)), .ok (.whole (-1)), .ok none⟩ }

/-- A mesh search that ends on its evaluations, and a simplex search on its
iterations: each was reached, and not before. -/
theorem spent_searches_hold_true :
    (∃ s report d',
      MeshSearch.thrifty.method.run (fun _ => zero) 2 (fresh .empty) = some ⟨.ok report, d'⟩ ∧
        report.status = .maxEval ∧
        MeshSearch.thrifty.budgets.EvaluationsReached report.objectiveCount ∧
        ∀ t, MeshSearch.thrifty.method.Reaches (fun _ => zero) (fresh .empty) t →
          Relation.TransGen (MeshSearch.thrifty.method.Turns fun _ => zero) t s →
          ¬ MeshSearch.thrifty.budgets.EvaluationsReached t.tally.counters.objective) ∧
    ∃ report d',
      SimplexSearch.alternating.method.run (fun _ => zero) 1 (fresh .empty) =
        some ⟨.ok report, d'⟩ ∧ report.status = .maxIter ∧
        SimplexSearch.alternating.budgets.IterationsReached report.iterations := by
  obtain ⟨hmesh, -⟩ := statuses_hold_true (α := Float) (n := 1) (fun _ => zero) 2
  obtain ⟨-, hsimplex⟩ := statuses_hold_true (α := Float) (n := 1) (fun _ => zero) 1
  constructor
  · obtain ⟨report, d', hrun, hstatus⟩ := Method.exists_report
      (show Method.reportsThat (·.status = .maxEval)
        (MeshSearch.thrifty.method.run (fun _ => zero) 2 (fresh .empty)) by decide +kernel)
    obtain ⟨s, hholds, -⟩ := hmesh _ _ _ _ hrun
    have hmaxEval : report.status = .maxEval := by simpa using hstatus
    have hnames := hholds.names
    rw [hmaxEval] at hnames
    exact ⟨s, report, d', hrun, hmaxEval, hnames nofun,
      fun t ht hbefore => (hholds.before ht hbefore).evaluations⟩
  · obtain ⟨report, d', hrun, hstatus⟩ := Method.exists_report
      (show Method.reportsThat (·.status = .maxIter)
        (SimplexSearch.alternating.method.run (fun _ => zero) 1 (fresh .empty)) by decide +kernel)
    obtain ⟨s, hholds, -⟩ := hsimplex _ _ _ _ hrun
    have hmaxIter : report.status = .maxIter := by simpa using hstatus
    have hnames := hholds.names
    rw [hmaxIter] at hnames
    exact ⟨report, d', hrun, hmaxIter, (hnames nofun).2.2⟩

end DirectSearch
