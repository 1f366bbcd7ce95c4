import DirectSearch.Proofs.Search.Runs
/-!
# Search — runs that end with a fault

The loop goes on from a session at which it is not finished, by a turn
(`GoesTo`). Where the tests between the turns and the verdict behind them
always return, nothing but an iteration can fail: a run ends with a fault just
where the loop goes on to a session whose iteration ends with it
(`run_faults_iff`).
-/

namespace DirectSearch

open Session

variable {α : Type} [Scalar α]

/-! ## Limits that can be read -/

namespace Budgets

/-- Every limit is a number, or there is none. -/
structure IsNumeric (b : Budgets α) : Prop where
  evaluations : ∃ limit, b.evaluations = .ok limit
  time : ∃ limit, b.time = .ok limit
  iterations : ∃ limit, b.iterations = .ok limit

variable {b : Budgets α}

/-- They can then be looked at. -/
theorem IsNumeric.exists_spent (h : b.IsNumeric) (count : Nat) (elapsed : α) (iterations : Int) :
    ∃ spent, b.spent count elapsed iterations = .ok spent := by
  obtain ⟨⟨evaluations, hevaluations⟩, ⟨time, htime⟩, ⟨limit, hlimit⟩⟩ := h
  simp only [spent, evaluationsSpent, timeSpent, iterationsSpent, hevaluations, htime, hlimit,
    Except.map]
  cases isSpent (.whole count) evaluations with
  | true => exact ⟨_, rfl⟩
  | false =>
    cases (Number.whole 0).le time && time.lt (.real elapsed) with
    | true => exact ⟨_, rfl⟩
    | false => exact ⟨_, rfl⟩

theorem IsNumeric.exists_status (h : b.IsNumeric) (count : Nat) (elapsed : α) :
    ∃ status, b.status count elapsed = .ok status := by
  obtain ⟨⟨evaluations, hevaluations⟩, ⟨time, htime⟩, -⟩ := h
  simp only [status, evaluationsSpent, timeSpent, hevaluations, htime, Except.map]
  cases isSpent (.whole count) evaluations with
  | true => exact ⟨_, rfl⟩
  | false =>
    cases (Number.whole 0).le time && time.lt (.real elapsed) with
    | true => exact ⟨_, rfl⟩
    | false => exact ⟨_, rfl⟩

end Budgets

/-! ## The loop -/

namespace Method

variable {n : Nat} {ρ σ ι : Type} {m : Method α n ρ σ ι} {clock : Nat → α}
variable {d : Desk α ρ} {s s₀ t u : Session α ρ σ} {fault : Fault}

/-- The loop goes on from one session to the next. -/
def GoesTo (m : Method α n ρ σ ι) (clock : Nat → α) (s t : Session α ρ σ) : Prop :=
  m.finished s = .ok false ∧ m.Turns clock s t

/-- Where the limits are numbers, the budgets can be looked at. -/
theorem exists_exhausted (hbudgets : m.budgets.IsNumeric) (s : Session α ρ σ) :
    ∃ spent, m.exhausted s = .ok spent := hbudgets.exists_spent _ _ _

/-- So the loop goes on or ends wherever the method's own test returns. -/
theorem exists_finished (hbudgets : m.budgets.IsNumeric)
    (hsettled : ∃ settled, m.settled s = .ok settled) : ∃ ended, m.finished s = .ok ended := by
  obtain ⟨settled, hsettled⟩ := hsettled
  obtain ⟨spent, hspent⟩ := exists_exhausted hbudgets s
  exact ⟨_, except_bind_eq_ok.2 ⟨_, hsettled, except_bind_eq_ok.2 ⟨_, hspent, rfl⟩⟩⟩

/-- A turn fails where its iteration does. -/
theorem turn_eq_error : m.turn clock s = .error fault t ↔ m.iterate s = .error fault t := by
  unfold turn
  cases m.iterate s with
  | ok i u => simp
  | error fault' u => simp

/-- A fault of the loop is that of an iteration. -/
theorem exists_iterate_of_loop_error (hfinished : ∀ s, ∃ ended, m.finished s = .ok ended)
    {fuel : Nat} (h : m.loop clock fuel s = .error fault t) :
    ∃ u, Relation.ReflTransGen (m.GoesTo clock) s u ∧ m.finished u = .ok false ∧
      m.iterate u = .error fault t := by
  induction fuel generalizing s with
  | zero =>
    obtain ⟨ended, hended⟩ := hfinished s
    cases hended.symm.trans (demand_eq_error.1 h).1
  | succ fuel ih =>
    unfold loop at h
    split at h
    · rename_i herror
      obtain ⟨ended, hended⟩ := hfinished s
      cases hended.symm.trans herror
    · cases h
    · rename_i hgoes
      split at h
      · rename_i hturn
        cases h
        exact ⟨s, .refl, hgoes, turn_eq_error.1 hturn⟩
      · rename_i hturn
        obtain ⟨u, hu, hrest⟩ := ih h
        exact ⟨u, .head ⟨hgoes, hturn⟩ hu, hrest⟩

/-- With enough turns the loop comes to the fault. -/
theorem exists_loop_error (h : Relation.ReflTransGen (m.GoesTo clock) s u)
    (hgoes : m.finished u = .ok false) (hfault : m.iterate u = .error fault t) :
    ∃ fuel, m.loop clock fuel s = .error fault t := by
  induction h using Relation.ReflTransGen.head_induction_on with
  | refl =>
    refine ⟨1, ?_⟩
    simp only [loop, hgoes, turn_eq_error.2 hfault]
  | head hstep _ ih =>
    obtain ⟨fuel, hloop⟩ := ih
    obtain ⟨hgoes, hturn⟩ := hstep
    refine ⟨fuel + 1, ?_⟩
    unfold Turns at hturn
    simp only [loop, hgoes, hturn, hloop]

/-! ## Whole runs -/

/-- **Runs that end with a fault**, of a method that starts and whose tests and
verdicts return. -/
theorem run_faults_iff (hstart : m.start clock d = .ok s₀)
    (hfinished : ∀ s, ∃ ended, m.finished s = .ok ended)
    (hverdict : ∀ s, ∃ status, (m.exhausted s >>= m.verdict s) = .ok status) :
    (∃ fuel d', m.run clock fuel d = some ⟨.error fault, d'⟩) ↔
      ∃ u t, Relation.ReflTransGen (m.GoesTo clock) s₀ u ∧ m.finished u = .ok false ∧
        m.iterate u = .error fault t := by
  simp only [run, hstart]
  constructor
  · rintro ⟨fuel, d', h⟩
    split at h
    · rename_i hloop
      cases h
      obtain ⟨u, hu⟩ := exists_iterate_of_loop_error hfinished hloop
      exact ⟨u, _, hu⟩
    · cases h
    · rename_i s hloop
      obtain ⟨status, hstatus⟩ := hverdict s
      simp only [close, hstatus] at h
      cases h
  · rintro ⟨u, t, hu, hgoes, hfault⟩
    obtain ⟨fuel, hloop⟩ := exists_loop_error hu hgoes hfault
    refine ⟨fuel, t.desk, ?_⟩
    rw [hloop]

end Method

end DirectSearch
