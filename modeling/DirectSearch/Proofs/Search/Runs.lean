import DirectSearch.Proofs.Search.Steps
import Mathlib.Logic.Relation
/-!
# Search — the sessions of a run

A run takes its first session from the desk it starts at and every other
one by a turn of the loop. `Reaches` holds of all of them, whether or not
the loop would have gone on. What the journal and the clock do to a
session leaves the search alone, so that an invariant of the tally and the
state is one of the method's own steps (`Reaches.invariant`), and the
report of a completed run is that of a session the run reached
(`exists_reaches_of_run`).
-/

namespace DirectSearch

/-- The evaluations of a session that its desk had not seen yet. -/
def Session.evaluationsSince {α ρ σ : Type} (s : Session α ρ σ) (d : Desk α ρ) :
    List (Evaluation α) :=
  s.tally.evaluations.toList.drop d.tally.evaluations.size

namespace Method

variable {α : Type} [Scalar α] {n : Nat} {ρ σ ι : Type} {m : Method α n ρ σ ι} {clock : Nat → α}
variable {d : Desk α ρ} {s t : Session α ρ σ}

/-- One session turns into the next. -/
def Turns (m : Method α n ρ σ ι) (clock : Nat → α) (s t : Session α ρ σ) : Prop :=
  m.turn clock s = .ok () t

/-- A session that a run from the desk comes to. -/
def Reaches (m : Method α n ρ σ ι) (clock : Nat → α) (d : Desk α ρ) (s : Session α ρ σ) : Prop :=
  ∃ s₀, m.start clock d = .ok s₀ ∧ Relation.ReflTransGen (m.Turns clock) s₀ s

/-! ## The start and a turn -/

/-- What the first session has from the first step. -/
theorem exists_initial (h : m.start clock d = .ok s) :
    ∃ d', m.initial (d.openJournal clock) = .ok s.state d' ∧ s.tally = d'.tally ∧
      s.iterations = d'.iterations := by
  unfold start at h
  split at h
  · cases h
  · rename_i hinit
    cases h
    exact ⟨_, hinit, rfl, rfl⟩

/-- What a turn has from the iteration. -/
theorem Turns.exists_iterate (h : m.Turns clock s t) :
    ∃ i t', m.iterate s = .ok i t' ∧ t.tally = t'.tally ∧ t.state = t'.state := by
  unfold Turns turn at h
  split at h
  · cases h
  · rename_i hi
    cases h
    exact ⟨_, _, hi, rfl, rfl⟩

/-- An iteration that ends is a turn. -/
theorem exists_turn_of_iterate {i : ι} (h : m.iterate s = .ok i t) : ∃ u, m.Turns clock s u := by
  unfold Turns turn
  rw [h]
  exact ⟨_, rfl⟩

/-! ## Invariants -/

theorem Reaches.of_start (h : m.start clock d = .ok s) : m.Reaches clock d s :=
  ⟨s, h, .refl⟩

theorem Reaches.turn (h : m.Reaches clock d s) (ht : m.Turns clock s t) :
    m.Reaches clock d t := by
  obtain ⟨s₀, hs₀, hs⟩ := h
  exact ⟨s₀, hs₀, hs.tail ht⟩

/-- **An invariant** holds of the first session, and a turn keeps it. -/
theorem Reaches.induction {I : Session α ρ σ → Prop}
    (hstart : ∀ s, m.start clock d = .ok s → I s)
    (hturn : ∀ s t, m.Reaches clock d s → I s → m.Turns clock s t → I t)
    (h : m.Reaches clock d s) : I s := by
  obtain ⟨s₀, hs₀, hs⟩ := h
  induction hs with
  | refl => exact hstart s₀ hs₀
  | tail hsteps hstep ih => exact hturn _ _ ⟨s₀, hs₀, hsteps⟩ ih hstep

/-- An invariant of the tally and the state is kept by the method's own
steps. -/
theorem Reaches.invariant {I : Tally α → σ → Prop}
    (hinit : ∀ st d', m.initial (d.openJournal clock) = .ok st d' → I d'.tally st)
    (hiterate : ∀ s i t, I s.tally s.state → m.iterate s = .ok i t → I t.tally t.state)
    (h : m.Reaches clock d s) : I s.tally s.state := by
  refine h.induction (I := fun s => I s.tally s.state) ?_ ?_
  · intro s hs
    obtain ⟨d', hd', htally, -⟩ := exists_initial hs
    rw [htally]
    exact hinit _ _ hd'
  · intro s t _ hs ht
    obtain ⟨i, t', hi, htally, hstate⟩ := ht.exists_iterate
    rw [htally, hstate]
    exact hiterate s i t' hs hi

/-! ## Whole runs -/

/-- The loop ends at a session that turns lead to. -/
theorem exists_turns_of_loop {fuel : Nat} (h : m.loop clock fuel s = .ok true t) :
    Relation.ReflTransGen (m.Turns clock) s t ∧ m.finished t = .ok true := by
  induction fuel generalizing s with
  | zero =>
    simp only [loop, demand_eq_ok] at h
    obtain ⟨hfinished, rfl⟩ := h
    exact ⟨.refl, hfinished⟩
  | succ fuel ih =>
    unfold loop at h
    split at h
    · cases h
    · cases h
      exact ⟨.refl, ‹_›⟩
    · split at h
      · cases h
      · rename_i hturn
        obtain ⟨hsteps, hfinished⟩ := ih h
        exact ⟨.head hturn hsteps, hfinished⟩

/-- What a completed run has been through. -/
theorem exists_loop_of_run {fuel : Nat} {report : Report α n ρ} {d' : Desk α ρ}
    (h : m.run clock fuel d = some ⟨.ok report, d'⟩) :
    ∃ s₀ s status, m.start clock d = .ok s₀ ∧ m.loop clock fuel s₀ = .ok true s ∧
      (m.exhausted s >>= m.verdict s) = .ok status ∧ report = m.reportOf s status ∧
      d' = (s.happened (.stopped m.kind status s.iterations)).desk := by
  unfold run at h
  split at h
  · cases h
  · rename_i s₀ hstart
    split at h
    · cases h
    · cases h
    · rename_i s hloop
      unfold close at h
      split at h
      · cases h
      · rename_i report' u hclose
        split at hclose
        · cases hclose
        · cases hclose
          cases h
          exact ⟨s₀, s, _, hstart, hloop, ‹_›, rfl, rfl⟩

/-- **A completed run reports a session that it has reached.** -/
theorem exists_reaches_of_run {fuel : Nat} {report : Report α n ρ} {d' : Desk α ρ}
    (h : m.run clock fuel d = some ⟨.ok report, d'⟩) :
    ∃ s status, m.Reaches clock d s ∧ report = m.reportOf s status ∧
      d' = (s.happened (.stopped m.kind status s.iterations)).desk := by
  obtain ⟨s₀, s, status, hstart, hloop, -, hreport, hdesk⟩ := exists_loop_of_run h
  exact ⟨s, status, ⟨s₀, hstart, (exists_turns_of_loop hloop).1⟩, hreport, hdesk⟩

omit [Scalar α] in
/-- A start that was found to succeed. -/
theorem exists_start {q : Session α ρ σ → Bool} {r : Except (Fault × Desk α ρ) (Session α ρ σ)}
    (h : r.toOption.any q) : ∃ s, r = .ok s ∧ q s := by
  rcases r with fault | s
  · cases h
  · exact ⟨s, rfl, h⟩

/-- A run has ended with a report of which something holds. -/
def reportsThat (q : Report α n ρ → Bool) (ended : Option (Ended α n ρ)) : Bool :=
  ended.any fun e => e.result.toOption.any q

omit [Scalar α] in
/-- A run that was found to report something has a report that says so. -/
theorem exists_report {q : Report α n ρ → Bool} {ended : Option (Ended α n ρ)}
    (h : reportsThat q ended) : ∃ report d', ended = some ⟨.ok report, d'⟩ ∧ q report := by
  rcases ended with _ | ⟨_ | report, d'⟩
  · cases h
  · cases h
  · exact ⟨report, d', rfl, h⟩

end Method

/-! ## The status that the limits give -/

namespace Budgets

variable {α : Type} [Scalar α] {b : Budgets α} {count : Nat} {elapsed : α} {status : Status}

/-- It is that of the evaluations or the time if they are spent, and
otherwise that of the iterations. -/
theorem status_cases (h : b.status count elapsed = .ok status) :
    b.evaluationsSpent count = .ok true ∧ status = .maxEval ∨
      b.evaluationsSpent count = .ok false ∧
        (b.timeSpent elapsed = .ok true ∧ status = .maxTime ∨
          b.timeSpent elapsed = .ok false ∧ status = .maxIter) := by
  obtain ⟨evaluations, hevaluations, h⟩ := except_bind_eq_ok.1 h
  cases evaluations with
  | true => exact .inl ⟨hevaluations, (except_pure_eq_ok.1 h).symm⟩
  | false =>
    obtain ⟨time, htime, h⟩ := except_bind_eq_ok.1 h
    cases time with
    | true => exact .inr ⟨hevaluations, .inl ⟨htime, (except_pure_eq_ok.1 h).symm⟩⟩
    | false => exact .inr ⟨hevaluations, .inr ⟨htime, (except_pure_eq_ok.1 h).symm⟩⟩

/-- It is no success. -/
theorem not_isSuccess_of_status (h : b.status count elapsed = .ok status) :
    ¬ status.isSuccess := by
  rcases status_cases h with ⟨-, rfl⟩ | ⟨-, ⟨-, rfl⟩ | ⟨-, rfl⟩⟩ <;> nofun

end Budgets

end DirectSearch
