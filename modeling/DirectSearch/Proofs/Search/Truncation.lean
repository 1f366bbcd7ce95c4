import DirectSearch.Proofs.MeshSearch.Best
import DirectSearch.Proofs.Search.Afresh
import DirectSearch.Proofs.SimplexSearch.Best
import Mathlib.Data.List.Infix
/-!
# Search — budgets only truncate

What an iteration does is not known to depend on a budget: the loop alone
looks at the limits, between turns. Two runs of one search under different
limits therefore go through the same sessions, and of two sessions of a run
the one with fewer iterations comes first and the other prolongs it
(`Orderly.prolongs`). So a run under limits that allow more ends no earlier
(`Orderly.exists_ends`), and with an objective at least as good where the
incumbent is judged by the objective alone (`budgets_only_truncate`).
-/

namespace DirectSearch

open Scalar OrderedScalar Session

variable {α : Type} [Scalar α] {n : Nat} {ρ σ ι : Type}

/-! ## What an iteration leaves alone -/

/-- An iteration leaves the clock and the journal alone, keeps the
evaluations that are on record, and is counted once. -/
structure Method.Orderly (m : Method α n ρ σ ι) : Prop where
  frame {s t : Session α ρ σ} {i : ι} : m.iterate s = .ok i t → t.frame = s.frame
  iterations {s t : Session α ρ σ} {i : ι} : m.iterate s = .ok i t →
    t.iterations = s.iterations + 1
  evaluations {s t : Session α ρ σ} {i : ι} : m.iterate s = .ok i t →
    s.tally.evaluations.toList <+: t.tally.evaluations.toList

omit [Scalar α] in
/-- A session goes on beside itself, as one that has made no evaluations
since. -/
theorem Pairing.sessions_self {S : σ → σ → Prop} (hS : ∀ st, S st st) (s : Session α ρ σ) :
    (Pairing.ahead 0 0 0 s.tally.evaluations.toList s.tally.evaluations.toList).Sessions S
      s.frame s.frame s.iterations s s where
  tally := ⟨by simp [counters, ahead], [], [], by simp [ahead], by simp [ahead], .nil⟩
  state := hS s.state
  drawn := (Nat.zero_add _).symm
  frame := rfl
  frame' := rfl
  iterations := rfl
  iterations' := rfl

omit [Scalar α] in
theorem Method.orderly_of_beside {m : Method α n ρ σ ι} {P : ι → ι → Prop}
    {S : Pairing α → σ → σ → Prop} (hS : ∀ before st, S (.ahead 0 0 0 before before) st st)
    (h : ∀ before f k, let A := Pairing.ahead 0 0 0 before before
      Beside (A.Sessions (S A) f f k) m.iterate m.iterate P (A.Sessions (S A) f f (k + 1))
        A.Stopped) : m.Orderly := by
  have hsessions {s t : Session α ρ σ} {i : ι} (hi : m.iterate s = .ok i t) :
      let A := Pairing.ahead 0 0 0 s.tally.evaluations.toList s.tally.evaluations.toList
      A.Sessions (S A) s.frame s.frame (s.iterations + 1) t t := by
    -- the step is put beside itself, and whatever is paired is read off one side
    have hmeet := h _ _ _ s s (Pairing.sessions_self (hS _) s)
    rw [hi] at hmeet
    cases hmeet with
    | ok _ ht => exact ht
  refine ⟨fun hi => (hsessions hi).frame, fun hi => (hsessions hi).iterations, fun hi => ?_⟩
  obtain ⟨es, -, hes, -⟩ := (hsessions hi).tally.evaluations
  exact ⟨es, hes.symm⟩

theorem MeshSearch.orderly (m : MeshSearch α n) : m.method.Orderly := by
  refine Method.orderly_of_beside (P := Eq) (S := fun A => (Outlook.same A).States)
    (fun before st => ⟨rfl, rfl, rfl, trivial, trivial, .inr fun _ _ h => h.symm, rfl⟩)
    fun before f k => ?_
  have hblind : m.problem.IsBlind (.ahead 0 0 0 before before) :=
    Problem.isBlind_of_counters fun c => by simp [Pairing.counters, Pairing.ahead]
  have hserves : (Outlook.same (.ahead 0 0 0 before before)).Serves m.options m.problem m.problem
      m.start := serves_ahead hblind
  exact Outlook.poll_beside hserves fun size j => congrArg _ (Nat.zero_add j)

theorem SimplexSearch.orderly (m : SimplexSearch α n) : m.method.Orderly := by
  refine Method.orderly_of_beside (P := Eq) (S := fun A => States (.same n A fun b b' => b' = b))
    (fun before st => ⟨fun i hi => ⟨rfl, rfl⟩, rfl, rfl, rfl⟩) fun before f k => ?_
  have hblind : m.problem.IsBlind (.ahead 0 0 0 before before) :=
    Problem.isBlind_of_counters fun c => by simp [Pairing.counters, Pairing.ahead]
  have hserves : Serves (.ahead n 0 0 0 before before) m.options m.problem m.problem m.vertices
      m.vertices := serves_ahead hblind
  exact iterate_beside hserves

/-! ## Sessions of one run -/

namespace Method

variable {m : Method α n ρ σ ι} {clock : Nat → α} {d : Desk α ρ} {s s₀ t u : Session α ρ σ}

/-- A session goes on from another of the same run. -/
structure Prolongs (s t : Session α ρ σ) : Prop where
  iterations : s.iterations ≤ t.iterations
  history : s.journal.history.toList <+: t.journal.history.toList
  evaluations : s.tally.evaluations.toList <+: t.tally.evaluations.toList
  eq : t.iterations ≤ s.iterations → t = s

/-- A turn leads to one session only. -/
theorem Turns.unique (ht : m.Turns clock s t) (hu : m.Turns clock s u) : t = u := by
  cases ht.symm.trans hu
  rfl

/-- **The row of a turn** says what the iteration has come to. -/
theorem Turns.exists_row (ht : m.Turns clock s t) :
    ∃ i u time, m.iterate s = .ok i u ∧ t.state = u.state ∧ t.tally = u.tally ∧
      t.iterations = u.iterations ∧
      t.journal.history.toList = u.journal.history.toList ++ [⟨m.entry u (some i), time⟩] := by
  unfold Turns Method.turn at ht
  split at ht
  · cases ht
  · rename_i i u hi
    cases ht
    refine ⟨i, u, clock u.journalReadings - u.journal.opened, hi, rfl, rfl, rfl, ?_⟩
    rw [history_readClock, history_sendRow, Array.toList_push]

namespace Orderly

variable (h : m.Orderly)

include h

/-- The row stands behind those that were there before the iteration. -/
theorem exists_row (ht : m.Turns clock s t) :
    ∃ i u time, m.iterate s = .ok i u ∧ t.state = u.state ∧ t.tally = u.tally ∧
      t.iterations = u.iterations ∧
      t.journal.history.toList = s.journal.history.toList ++ [⟨m.entry u (some i), time⟩] := by
  obtain ⟨i, u, time, hi, hstate, htally, hiterations, hhistory⟩ := ht.exists_row
  have hjournal : u.journal = s.journal := congrArg Frame.journal (h.frame hi)
  rw [hjournal] at hhistory
  exact ⟨i, u, time, hi, hstate, htally, hiterations, hhistory⟩

/-- **A turn** is one iteration and one row more. -/
theorem turn (ht : m.Turns clock s t) :
    t.iterations = s.iterations + 1 ∧
      s.journal.history.toList <+: t.journal.history.toList ∧
      s.tally.evaluations.toList <+: t.tally.evaluations.toList := by
  obtain ⟨i, u, time, hi, -, htally, hiterations, hhistory⟩ := h.exists_row ht
  refine ⟨hiterations.trans (h.iterations hi), ?_, ?_⟩
  · rw [hhistory]
    exact List.prefix_append _ _
  · rw [htally]
    exact h.evaluations hi

theorem prolongs (hsteps : Relation.ReflTransGen (m.Turns clock) s t) : Prolongs s t := by
  induction hsteps with
  | refl => exact ⟨le_rfl, List.prefix_rfl, List.prefix_rfl, fun _ => rfl⟩
  | tail _ hturn ih =>
    obtain ⟨hiterations, hhistory, hevaluations⟩ := h.turn hturn
    have := ih.iterations
    exact ⟨by omega, ih.history.trans hhistory, ih.evaluations.trans hevaluations, by omega⟩

/-- Of two sessions of a run, the one with more iterations comes behind. -/
theorem leads (hs : m.Reaches clock d s) (ht : m.Reaches clock d t)
    (hle : s.iterations ≤ t.iterations) : Relation.ReflTransGen (m.Turns clock) s t := by
  obtain ⟨s₀, hstart, hs⟩ := hs
  obtain ⟨s₁, hstart', ht⟩ := ht
  cases hstart.symm.trans hstart'
  have hunique : Relator.RightUnique (m.Turns clock) := fun _ _ _ => Turns.unique
  rcases Relation.ReflTransGen.total_of_right_unique hunique hs ht with hst | hts
  · exact hst
  · rw [(h.prolongs hts).eq hle]

/-- The loop has gone on from every session before its last. -/
theorem finished_of_lt {fuel : Nat} (hloop : m.loop clock fuel s = .ok true t)
    (hsteps : Relation.ReflTransGen (m.Turns clock) s u) (hlt : u.iterations < t.iterations) :
    m.finished u = .ok false := by
  have hle := (h.prolongs hsteps).iterations
  induction fuel generalizing s with
  | zero =>
    simp only [loop, demand_eq_ok] at hloop
    obtain ⟨-, rfl⟩ := hloop
    omega
  | succ fuel ih =>
    unfold loop at hloop
    split at hloop
    · cases hloop
    · cases hloop
      omega
    · rename_i hgoes
      split at hloop
      · cases hloop
      · rename_i v hturn
        -- `u` is the session that the loop went on from, or lies behind its turn
        rcases Relation.ReflTransGen.cases_head hsteps with rfl | ⟨w, hw, hrest⟩
        · exact hgoes
        · obtain rfl := Turns.unique hw hturn
          exact ih hloop hrest (h.prolongs hrest).iterations

end Orderly

end Method

/-! ## Limits that allow more -/

/-- What ends a run under the second limits would have ended it under the
first ones. -/
structure Budgets.RaisedTo (b b' : Budgets α) : Prop where
  evaluations (count : Nat) : b'.evaluationsSpent count = .ok true →
    b.evaluationsSpent count = .ok true
  time (elapsed : α) : b'.timeSpent elapsed = .ok true → b.timeSpent elapsed = .ok true
  iterations (count : Int) : b'.iterationsSpent count = .ok true →
    b.iterationsSpent count = .ok true

namespace Budgets

variable {b b' : Budgets α}

/-- No limit is reached. -/
theorem spent_eq_false {count : Nat} {elapsed : α} {iterations : Int} :
    b.spent count elapsed iterations = .ok false ↔ b.evaluationsSpent count = .ok false ∧
      b.timeSpent elapsed = .ok false ∧ b.iterationsSpent iterations = .ok false := by
  unfold spent
  rcases b.evaluationsSpent count with _ | (_ | _) <;>
    rcases b.timeSpent elapsed with _ | (_ | _) <;>
    simp [bind, Except.bind, pure, Except.pure]

/-- Some limit is reached. -/
theorem of_spent {count : Nat} {elapsed : α} {iterations : Int}
    (h : b.spent count elapsed iterations = .ok true) : b.evaluationsSpent count = .ok true ∨
      b.timeSpent elapsed = .ok true ∨ b.iterationsSpent iterations = .ok true := by
  unfold spent at h
  generalize b.evaluationsSpent count = e, b.timeSpent elapsed = t at h ⊢
  rcases e with _ | (_ | _) <;> rcases t with _ | (_ | _) <;>
    simp_all [bind, Except.bind, pure, Except.pure]

/-- Limits that have been raised have not been reached if the others have
not. -/
theorem RaisedTo.not_spent (h : b.RaisedTo b') {count : Nat} {elapsed : α} {iterations : Int}
    (hb : b.spent count elapsed iterations = .ok false) :
    b'.spent count elapsed iterations ≠ .ok true := by
  obtain ⟨hevaluations, htime, hiterations⟩ := spent_eq_false.1 hb
  intro hb'
  rcases of_spent hb' with hspent | hspent | hspent
  · cases hevaluations.symm.trans (h.evaluations _ hspent)
  · cases htime.symm.trans (h.time _ hspent)
  · cases hiterations.symm.trans (h.iterations _ hspent)

/-- Whole limits of evaluations and iterations and a limit of time are raised
by larger ones. -/
theorem raisedTo_of_le [OrderedScalar α] {j j' k k' : Nat} {x x' : α} (hj : j ≤ j') (hk : k ≤ k')
    (hzero : intLe 0 x) (hx : le x x') :
    RaisedTo ⟨.ok (some (.whole j)), .ok (.real x), .ok (some (.whole k))⟩
      ⟨.ok (some (.whole j')), .ok (.real x'), .ok (some (.whole k'))⟩ where
  evaluations count := by
    simp [evaluationsSpent, Except.map, isSpent]
    omega
  time elapsed := by
    simp only [timeSpent, Except.map, Number.le, Number.lt, hzero, Bool.true_and,
      Except.ok.injEq, Bool.and_eq_true]
    exact fun h => lt_of_le_of_lt hx h.2
  iterations count := by
    simp [iterationsSpent, Except.map, isSpent]
    omega

end Budgets

namespace Method

/-- The reports of two runs that differ in how long they lasted: the rows of
the shorter one come first in those of the other, and with as many
iterations they report one session. -/
structure SameCourse (m : Method α n ρ σ ι) (clock : Nat → α) (d : Desk α ρ)
    (r r' : Report α n ρ) : Prop where
  history : r.iterations ≤ r'.iterations → r.history.toList <+: r'.history.toList
  state : r.iterations = r'.iterations → ∃ s, m.Reaches clock d s ∧
    r = m.reportOf s r.status ∧ r' = m.reportOf s r'.status

variable {m : Method α n ρ σ ι} {clock : Nat → α} {d e e' : Desk α ρ}

/-- **Two runs of a search under different limits** end at sessions of one
run, and the one whose limits allow more does not end first. -/
theorem Orderly.exists_ends (h : m.Orderly) {b : Budgets α}
    {v : Session α ρ σ → Bool → Except Fault Status} {fuel fuel' : Nat} {r r' : Report α n ρ}
    (hrun : m.run clock fuel d = some ⟨.ok r, e⟩)
    (hrun' : { m with budgets := b, verdict := v : Method α n ρ σ ι }.run clock fuel' d
      = some ⟨.ok r', e'⟩) :
    m.SameCourse clock d r r' ∧ ∃ s s', m.Reaches clock d s ∧ m.Reaches clock d s' ∧
      r.objective = m.objective s.state ∧ r'.objective = m.objective s'.state ∧
      (m.budgets.RaisedTo b → r.iterations ≤ r'.iterations ∧
        Relation.ReflTransGen (m.Turns clock) s s') := by
  obtain ⟨s₀, s, status, hstart, hloop, -, rfl, -⟩ := exists_loop_of_run hrun
  obtain ⟨s₁, s', status', hstart', hloop', -, rfl, -⟩ := exists_loop_of_run hrun'
  obtain rfl : s₀ = s₁ := Except.ok.inj (hstart.symm.trans hstart')
  obtain ⟨hsteps, -⟩ := exists_turns_of_loop hloop
  obtain ⟨hsteps', hfinished'⟩ := exists_turns_of_loop hloop'
  have hs : m.Reaches clock d s := ⟨s₀, hstart, hsteps⟩
  have hs' : m.Reaches clock d s' := ⟨s₀, hstart, hsteps'⟩
  refine ⟨⟨fun hle => ?_, fun heq => ⟨s, hs, rfl, ?_⟩⟩, s, s', hs, hs', rfl, rfl,
    fun hraised => ?_⟩
  · exact (h.prolongs (h.leads hs hs' hle)).history
  · rw [(h.prolongs (h.leads hs hs' heq.le)).eq heq.ge]
    rfl
  · have hle : s.iterations ≤ s'.iterations := by
      by_contra hlt
      have hfinished := h.finished_of_lt hloop hsteps' (not_le.1 hlt)
      -- the loop went on from the session where the other one ended
      simp only [finished, exhausted, except_bind_eq_ok, except_pure_eq_ok, Bool.or_eq_true,
        Bool.or_eq_false_iff] at hfinished hfinished'
      obtain ⟨settled, hsettled, spent, hspent, rfl, rfl⟩ := hfinished
      obtain ⟨settled', hsettled', spent', hspent', hor⟩ := hfinished'
      cases hsettled.symm.trans hsettled'
      obtain rfl := hor.resolve_left Bool.false_ne_true
      exact hraised.not_spent hspent hspent'
    exact ⟨hle, h.leads hs hs' hle⟩

end Method

/-! ## The objective -/

/-- An objective without undefined values. -/
theorem Problem.isDefined_of_isNaN {p : Problem Float n}
    (h : ∀ counters x v, p.objective counters x = .ok v → v.isNaN = false) : p.IsDefined :=
  fun counters x v hv => le_self_iff.2 (Binary64.isNumber_iff.2 (h counters x v hv))

namespace SimplexSearch

variable [OrderedScalar α] {m : SimplexSearch α n} {clock : Nat → α} {d : Desk α (Row α)}
variable {s t : Session α (Row α) (State α n)}

/-- **The best vertex gets no worse:** it is the least of evaluations of which
a later session has all. -/
theorem best_le (hn : 0 < n) (hp : m.problem.IsDefined) (hs : m.method.Reaches clock d s)
    (ht : m.method.Reaches clock d t) (hprolongs : Method.Prolongs s t) :
    le t.state.vertices.best.value s.state.vertices.best.value := by
  have hbest := (reaches_led hn hp hs).firstLeast
  have hbest' := (reaches_led hn hp ht).firstLeast
  obtain ⟨es, -, hleads⟩ := reaches_led hn hp ht
  exact hbest'.le hleads.self_le _ ((hprolongs.evaluations.drop _).subset hbest.mem)

end SimplexSearch

namespace MeshSearch

section

variable {m : MeshSearch α n} {clock : Nat → α} {d : Desk α (Row α n)}
variable {s t : Session α (Row α n) (State α n)} {p : Problem α n}

/-- Appraisals have the values that the objective has returned. -/
theorem defined_of_appraises (hdef : p.IsDefined) {t u : Tally α} {as : List (Appraisal α n)}
    (h : p.Appraises t as u) : ∀ a ∈ as, le a.value a.value := by
  induction h with
  | nil => simp
  | cons ha _ ih =>
    refine List.forall_mem_cons.2 ⟨?_, ih⟩
    simp only [Problem.appraise, bind_eq_ok, pure_eq_ok, Problem.objectiveAt_eq_ok] at ha
    obtain ⟨v, _, ⟨hv, -⟩, _, _, -, rfl, -⟩ := ha
    exact hdef _ _ _ hv

/-- Where there are no constraints, the incumbent violates nothing, and its
value is defined. -/
theorem reaches_unviolated [OrderedScalar α] (hp : m.problem.isUnconstrained)
    (hdef : m.problem.IsDefined)
    (h : m.method.Reaches clock d s) :
    s.state.violation = zero ∧ le s.state.value s.state.value := by
  obtain ⟨as, has, -, a, ha, -, hvalue, hviolation⟩ := (reaches_accounted h).made
  rw [hvalue, hviolation]
  exact ⟨(has.unviolated hp).1 a ha, defined_of_appraises hdef has a ha⟩

end

variable {m : MeshSearch Float n} {clock : Nat → Float} {d : Desk Float (Row Float n)}
variable {s t : Session Float (Row Float n) (State Float n)}

/-- **The incumbent gets no worse** where nothing can be violated. -/
theorem value_le (hp : m.problem.isUnconstrained) (hdef : m.problem.IsDefined)
    (hs : m.method.Reaches clock d s)
    (hsteps : Relation.ReflTransGen (m.method.Turns clock) s t) :
    le t.state.value s.state.value := by
  induction hsteps with
  | refl => exact (reaches_unviolated hp hdef hs).2
  | @tail u v hu hturn ih =>
    have hreaches : m.method.Reaches clock d u := by
      obtain ⟨s₀, hstart, hs⟩ := hs
      exact ⟨s₀, hstart, hs.trans hu⟩
    obtain ⟨hzero, hself⟩ := reaches_unviolated hp hdef hreaches
    obtain ⟨hzero', hself'⟩ := reaches_unviolated hp hdef (hreaches.turn hturn)
    have hcareful := turn_careful hreaches hturn
    refine le_trans ?_ ih
    cases hi : v.state.improved with
    | true =>
      obtain ⟨-, hnot⟩ := hcareful.lowers hi
      rw [hzero, hzero'] at hnot
      have hnone : le (zero : Float) zero := by decide +kernel
      exact (le_total hself hself').resolve_left fun hle => hnot ⟨hle, hnone⟩
    | false =>
      rw [(hcareful.stays hi).2.1]
      exact hself

end MeshSearch

/-- **Budgets only truncate.** Take two runs of one search from one desk that
differ in their limits only and end with a report. The rows of the one with
fewer iterations come first in the rows of the other, and with as many
iterations they have ended in one and the same session. If the second limits
allow more, the second run has at least as many iterations; and if no value
of the objective is undefined, it does not report a larger objective, which
a mesh search promises where there are no constraints. -/
theorem budgets_only_truncate {n : Nat} (clock : Nat → Float) (fuel fuel' : Nat)
    (b b' : Budgets Float) :
    (∀ (m : SimplexSearch Float n) (d e e' : Desk Float _) (r r' : Report Float n _),
      { m with budgets := b : SimplexSearch Float n }.method.run clock fuel d
        = some ⟨.ok r, e⟩ →
      { m with budgets := b' : SimplexSearch Float n }.method.run clock fuel' d
        = some ⟨.ok r', e'⟩ →
      m.method.SameCourse clock d r r' ∧
      (b.RaisedTo b' → r.iterations ≤ r'.iterations ∧
        (0 < n → (∀ counters x v, m.problem.objective counters x = .ok v → v.isNaN = false) →
          le r'.objective r.objective))) ∧
    ∀ (m : MeshSearch Float n) (d e e' : Desk Float _) (r r' : Report Float n _),
      { m with budgets := b : MeshSearch Float n }.method.run clock fuel d
        = some ⟨.ok r, e⟩ →
      { m with budgets := b' : MeshSearch Float n }.method.run clock fuel' d
        = some ⟨.ok r', e'⟩ →
      m.method.SameCourse clock d r r' ∧
      (b.RaisedTo b' → r.iterations ≤ r'.iterations ∧
        (m.problem.isUnconstrained →
          (∀ counters x v, m.problem.objective counters x = .ok v → v.isNaN = false) →
          le r'.objective r.objective)) := by
  constructor
  · intro m d e e' r r' hrun hrun'
    have horderly := SimplexSearch.orderly { m with budgets := b : SimplexSearch Float n }
    obtain ⟨hcourse, s, s', hs, hs', hr, hr', hends⟩ := horderly.exists_ends hrun hrun'
    refine ⟨⟨hcourse.history, hcourse.state⟩, fun hraised => ?_⟩
    obtain ⟨hle, hsteps⟩ := hends hraised
    refine ⟨hle, fun hn hdefined => ?_⟩
    rw [hr, hr']
    exact SimplexSearch.best_le hn (Problem.isDefined_of_isNaN hdefined) hs hs'
      (horderly.prolongs hsteps)
  · intro m d e e' r r' hrun hrun'
    have horderly := MeshSearch.orderly { m with budgets := b : MeshSearch Float n }
    obtain ⟨hcourse, s, s', hs, hs', hr, hr', hends⟩ := horderly.exists_ends hrun hrun'
    refine ⟨⟨hcourse.history, hcourse.state⟩, fun hraised => ?_⟩
    obtain ⟨hle, hsteps⟩ := hends hraised
    refine ⟨hle, fun hp hdefined => ?_⟩
    rw [hr, hr']
    exact MeshSearch.value_le (m := { m with budgets := b }) hp
      (Problem.isDefined_of_isNaN hdefined) hs hsteps

/-- A search on the whole line that starts at the top of two stairs. -/
def MeshSearch.unbounded : MeshSearch Float 1 :=
  onLine (fun x => if lt x (-one) then zero else if lt x one then one else two) one
    (-Extended.infinity) Extended.infinity (.default .mesh)

/-- Limits of a number of iterations, among others. -/
def Budgets.upTo (iterations : Nat) : Budgets Float :=
  ⟨.ok (some (.whole 200)), .ok (.real one), .ok (some (.whole iterations))⟩

/-- One iteration more, and the objective is no larger, in both searches. -/
theorem second_iteration_no_worse :
    (∃ r r' e e',
      { SimplexSearch.alternating with budgets := .upTo 1 : SimplexSearch Float 1 }.method.run
          (fun _ => zero) 1 (fresh .empty) = some ⟨.ok r, e⟩ ∧
        { SimplexSearch.alternating with budgets := .upTo 2 : SimplexSearch Float 1 }.method.run
          (fun _ => zero) 2 (fresh .empty) = some ⟨.ok r', e'⟩ ∧
        le r'.objective r.objective) ∧
    ∃ r r' e e',
      { MeshSearch.unbounded with budgets := .upTo 1 : MeshSearch Float 1 }.method.run
          (fun _ => zero) 1 (fresh .empty) = some ⟨.ok r, e⟩ ∧
        { MeshSearch.unbounded with budgets := .upTo 2 : MeshSearch Float 1 }.method.run
          (fun _ => zero) 2 (fresh .empty) = some ⟨.ok r', e'⟩ ∧
        le r'.objective r.objective := by
  have hraised : (Budgets.upTo 1).RaisedTo (.upTo 2) :=
    Budgets.raisedTo_of_le le_rfl (by decide) (by decide +kernel) (by decide +kernel)
  constructor
  · obtain ⟨r, e, hrun, -⟩ := Method.exists_report (show Method.reportsThat (fun _ => true)
      ({ SimplexSearch.alternating with budgets := .upTo 1 : SimplexSearch Float 1 }.method.run
        (fun _ => zero) 1 (fresh .empty)) by decide +kernel)
    obtain ⟨r', e', hrun', -⟩ := Method.exists_report (show Method.reportsThat (fun _ => true)
      ({ SimplexSearch.alternating with budgets := .upTo 2 : SimplexSearch Float 1 }.method.run
        (fun _ => zero) 2 (fresh .empty)) by decide +kernel)
    obtain ⟨-, hbetter⟩ := (budgets_only_truncate _ _ _ _ _).1 SimplexSearch.alternating _ _ _ _ _
      hrun hrun'
    exact ⟨r, r', e, e', hrun, hrun',
      (hbetter hraised).2 one_pos SimplexSearch.alternating_defined⟩
  · obtain ⟨r, e, hrun, -⟩ := Method.exists_report (show Method.reportsThat (fun _ => true)
      ({ MeshSearch.unbounded with budgets := .upTo 1 : MeshSearch Float 1 }.method.run
        (fun _ => zero) 1 (fresh .empty)) by decide +kernel)
    obtain ⟨r', e', hrun', -⟩ := Method.exists_report (show Method.reportsThat (fun _ => true)
      ({ MeshSearch.unbounded with budgets := .upTo 2 : MeshSearch Float 1 }.method.run
        (fun _ => zero) 2 (fresh .empty)) by decide +kernel)
    obtain ⟨-, hbetter⟩ := (budgets_only_truncate _ _ _ _ _).2 MeshSearch.unbounded _ _ _ _ _
      hrun hrun'
    have hdefined (counters : Counters) (x : Grid Float) (v : Float)
        (hv : MeshSearch.unbounded.problem.objective counters x = .ok v) : v.isNaN = false := by
      obtain rfl := Except.ok.inj hv
      dsimp only
      split
      · decide +kernel
      · split <;> decide +kernel
    exact ⟨r, r', e, e', hrun, hrun', (hbetter hraised).2 (by decide +kernel) hdefined⟩

end DirectSearch
