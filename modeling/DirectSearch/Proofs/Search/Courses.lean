import DirectSearch.Proofs.MeshSearch.Beside
import DirectSearch.Proofs.SimplexSearch.Beside
/-!
# Search — two runs of one course

Two searches that start at one desk may see different points or values and
still do the same: iteration by iteration they evaluate as often, make the
same moves and end alike. A `Likeness` says how what they have seen is
compared, and `Likeness.Course` that it compares so in all sessions of the two
runs and in their reports. Twins take one course as far as their coupling
shows the likeness (`Coupling.Twins.course`); for two simplex searches, or two
mesh searches, it is enough that an outlook serves and shows it
(`SimplexSearch.course`, `MeshSearch.Outlook.course`).
-/

namespace DirectSearch

open Session

variable {α : Type} {n : Nat} {ρ σ ι : Type}

/-! ## Pairings at one desk -/

/-- A pairing of two runs that find the same done. -/
structure Pairing.At (A : Pairing α) (d : Desk α ρ) : Prop where
  objective : A.objective = 0
  constraint : A.constraint = 0
  drawn : A.drawn = 0
  before : A.before = d.tally.evaluations.toList
  before' : A.before' = d.tally.evaluations.toList

/-- The pairing of two runs from one desk, at the same points. -/
def Pairing.atDesk (values : Grid α → α → α → Prop) (d : Desk α ρ) : Pairing α :=
  { values, objective := 0, constraint := 0, drawn := 0
    before := d.tally.evaluations.toList, before' := d.tally.evaluations.toList }

namespace Pairing

variable {A : Pairing α} {d : Desk α ρ} {values : Grid α → α → α → Prop}

theorem at_atDesk : (Pairing.atDesk values d).At d := ⟨rfl, rfl, rfl, rfl, rfl⟩

theorem At.counters_eq (h : A.At d) (c : Counters) : A.counters c = c := by
  simp [counters, h.objective, h.constraint]

@[simp] theorem counters_atDesk (c : Counters) : (Pairing.atDesk values d).counters c = c :=
  at_atDesk.counters_eq c

end Pairing

section

variable [Scalar α] {A : Pairing α} {d : Desk α ρ}

/-- There is no limit of time. -/
def Budgets.Untimed (b : Budgets α) : Prop :=
  ∃ limit, b.time = .ok limit ∧ (Number.whole 0).le limit = false

theorem Budgets.Untimed.timeSpent_eq {b : Budgets α} (h : b.Untimed) (elapsed : α) :
    b.timeSpent elapsed = .ok false := by
  obtain ⟨limit, hb, hlimit⟩ := h
  simp [timeSpent, hb, Except.map, hlimit]

/-- The same limits allow the same, at one time or without a limit of it. -/
theorem Pairing.At.limits (h : A.At d) {b : Budgets α} {timed : Prop}
    (htimed : timed ∨ b.Untimed) : A.Limits timed b b := by
  have htime {elapsed elapsed' : α} (helapsed : timed → elapsed' = elapsed) :
      b.timeSpent elapsed' = b.timeSpent elapsed := by
    rcases htimed with htimed | huntimed
    · rw [helapsed htimed]
    · rw [huntimed.timeSpent_eq, huntimed.timeSpent_eq]
  constructor
  · intro elapsed elapsed' count iterations helapsed
    simp only [Budgets.spent, htime helapsed, h.objective, Nat.zero_add]
  · intro elapsed elapsed' count helapsed
    simp only [Budgets.status, htime helapsed, h.objective, Nat.zero_add]

end

/-! ## Likeness -/

/-- How what two runs have seen is compared, and whether their clocks are. -/
structure Likeness (α : Type) (n : Nat) (ρ σ : Type) where
  evaluations : Evaluation α → Evaluation α → Prop
  states : σ → σ → Prop
  rows : ρ → ρ → Prop
  solutions : Point α n → Point α n → Prop
  objectives : α → α → Prop
  timed : Prop

namespace Likeness

variable (L : Likeness α n ρ σ)

/-- Two sessions that have done the same since their desk. -/
structure Sessions (d : Desk α ρ) (s s' : Session α ρ σ) : Prop where
  state : L.states s.state s'.state
  evaluations : List.Forall₂ L.evaluations (s.evaluationsSince d) (s'.evaluationsSince d)
  counters : s'.tally.counters = s.tally.counters
  drawn : s'.drawn = s.drawn
  iterations : s'.iterations = s.iterations
  history : List.Forall₂ (fun e e' => L.rows e.entry e'.entry) s.journal.history.toList
    s'.journal.history.toList
  elapsed : L.timed → s'.elapsed = s.elapsed

/-- Two reports that say the same, but for what is compared. -/
structure Reports (r r' : Report α n ρ) : Prop where
  solution : L.solutions r.solution r'.solution
  objective : L.objectives r.objective r'.objective
  history : List.Forall₂ (fun e e' => L.rows e.entry e'.entry) r.history.toList r'.history.toList
  elapsed : L.timed → r'.elapsed = r.elapsed
  rest : r' =
    { r with
      solution := r'.solution, objective := r'.objective, elapsed := r'.elapsed
      history := r'.history }

/-- **Two methods take one course** from a desk: every session that one run
comes to has its like in the other, and the two end by the same fault or with
reports that say the same, or neither of them ends. -/
structure Course [Scalar α] (m m' : Method α n ρ σ ι) (clock clock' : Nat → α) (d : Desk α ρ) :
    Prop where
  reaches (s : Session α ρ σ) : m.Reaches clock d s →
    ∃ s', m'.Reaches clock' d s' ∧ L.Sessions d s s'
  reached (s' : Session α ρ σ) : m'.Reaches clock' d s' →
    ∃ s, m.Reaches clock d s ∧ L.Sessions d s s'
  run (fuel : Nat) : Option.Rel (fun ended ended' =>
      ended'.desk.tally.counters = ended.desk.tally.counters ∧
        List.Forall₂ L.evaluations (ended.desk.evaluationsSince d)
          (ended'.desk.evaluationsSince d) ∧
        Agree L.Reports ended.result ended'.result)
    (m.run clock fuel d) (m'.run clock' fuel d)

end Likeness

/-! ## Twins -/

/-- What a coupling says of two methods shows a likeness. -/
structure Coupling.Shows (c : Coupling α ρ σ ι) (m m' : Method α n ρ σ ι)
    (L : Likeness α n ρ σ) : Prop where
  evaluations (e e' : Evaluation α) : c.Evaluations e e' → L.evaluations e e'
  states (st st' : σ) : c.states st st' → L.states st st'
  rows (r r' : ρ) : c.rows r r' → L.rows r r'
  solution (st st' : σ) : c.states st st' → L.solutions (m.solution st) (m'.solution st')
  objective (st st' : σ) : c.states st st' → L.objectives (m.objective st) (m'.objective st')
  violation (st st' : σ) : c.states st st' → m'.violation st' = m.violation st
  restarts (st st' : σ) : c.states st st' → m'.restarts st' = m.restarts st
  name : m'.name = m.name
  timed : L.timed → c.timed

section

variable {c : Coupling α ρ σ ι} {m m' : Method α n ρ σ ι} {L : Likeness α n ρ σ} {d : Desk α ρ}

theorem Coupling.Level.likeness {s s' : Session α ρ σ} (hs : c.Level s s') (hc : c.At d)
    (h : c.Shows m m' L) : L.Sessions d s s' where
  state := h.states _ _ hs.sessions.state
  evaluations := (hs.sessions.tally.evaluationsSince hc.before hc.before').imp h.evaluations
  counters := hs.sessions.tally.counters.trans (hc.counters_eq _)
  drawn := by rw [hs.sessions.drawn, hc.drawn, Nat.zero_add]
  iterations := hs.sessions.iterations'
  history := hs.history.imp fun _ _ => h.rows _ _
  elapsed htimed := (hs.clock (h.timed htimed)).2.2

/-- **Twins take one course** as far as their coupling shows it. -/
theorem Coupling.Twins.course [Scalar α] {clock clock' : Nat → α} (h : c.Twins m m') (hc : c.At d)
    (hclock : c.timed → clock' = clock) (hshows : c.Shows m m' L) :
    L.Course m m' clock clock' d := by
  have hd : c.Desks d d :=
    { counters := (hc.counters_eq _).symm
      before := hc.before
      before' := hc.before'
      drawn := by rw [hc.drawn, Nat.zero_add]
      clock := fun _ => rfl }
  refine ⟨fun s hs => ?_, fun s' hs' => ?_, fun fuel => ?_⟩
  · obtain ⟨s', hs', hlevel⟩ := h.reaches hclock hd hs
    exact ⟨s', hs', hlevel.likeness hc hshows⟩
  · obtain ⟨s, hs, hlevel⟩ := h.reached hclock hd hs'
    exact ⟨s, hs, hlevel.likeness hc hshows⟩
  · have htallies {τ : Type} {t t' : Session α ρ τ} (ht : c.Tallies t.tally t'.tally) :
        t'.tally.counters = t.tally.counters ∧
          List.Forall₂ L.evaluations (t.evaluationsSince d) (t'.evaluationsSince d) :=
      ⟨ht.counters.trans (hc.counters_eq _),
        (ht.evaluationsSince hc.before hc.before').imp hshows.evaluations⟩
    refine h.run hclock hd fuel (fun fault e e' ht => ?_) fun status s s' e e' hs ht => ?_
    · exact ⟨(htallies ht).1, (htallies ht).2, .error fault⟩
    · have hlike := hs.likeness hc hshows
      have hst := hs.sessions.state
      refine ⟨(htallies ht).1, (htallies ht).2, .ok ?_⟩
      refine ⟨hshows.solution _ _ hst, hshows.objective _ _ hst, hlike.history, hlike.elapsed, ?_⟩
      simp only [Method.reportOf, hshows.violation _ _ hst, hshows.restarts _ _ hst, hshows.name,
        hlike.counters, hlike.iterations]

end

/-! ## The two searches -/

section

variable [Scalar α] {clock clock' : Nat → α}

/-- What an outlook says of two simplex searches shows a likeness. -/
structure SimplexSearch.Shows (A : SimplexSearch.Outlook α n)
    (L : Likeness α n (SimplexSearch.Row α) (SimplexSearch.State α n)) : Prop where
  evaluations (e e' : Evaluation α) : A.Evaluations e e' → L.evaluations e e'
  states (st st' : SimplexSearch.State α n) : SimplexSearch.States A st st' → L.states st st'
  rows (r r' : SimplexSearch.Row α) (x : Grid α) : A.values x r.value r'.value →
    A.diameters r.diameter r'.diameter →
    r' = { r with value := r'.value, diameter := r'.diameter } → L.rows r r'
  places (x x' : Point α n) : A.places x x' → L.solutions x x'
  values (x : Grid α) (v v' : α) : A.values x v v' → L.objectives v v'

/-- **Two simplex searches take one course,** with one outlook that serves
them and shows it. -/
theorem SimplexSearch.course {A : SimplexSearch.Outlook α n}
    {L : Likeness α n (SimplexSearch.Row α) (SimplexSearch.State α n)} {m : SimplexSearch α n}
    {p' : Problem α n} {vertices : Vector (Point α n) (n + 1)} {d : Desk α (SimplexSearch.Row α)}
    (hA : SimplexSearch.Serves A m.options m.problem p' m.vertices vertices) (hat : A.At d)
    (hL : SimplexSearch.Shows A L) (hclock : L.timed → clock' = clock)
    (htime : L.timed ∨ m.budgets.Untimed) :
    L.Course m.method { m with problem := p', vertices : SimplexSearch α n }.method clock clock'
      d := by
  refine (SimplexSearch.twins hA (hat.limits htime)).course hat hclock ?_
  have hrows (r r' : SimplexSearch.Row α) (hr : SimplexSearch.Rows A r r') : L.rows r r' := by
    obtain ⟨⟨x, hvalue⟩, hdiameter, hrest⟩ := hr
    rw [hat.objective, Nat.zero_add] at hrest
    exact hL.rows r r' x hvalue hdiameter hrest
  exact
    { evaluations := hL.evaluations
      states := hL.states
      rows := hrows
      solution := fun _ _ hst => hL.places _ _ (hst.vertices 0 (by omega)).point
      objective := fun _ _ hst => hL.values _ _ _ (hst.vertices 0 (by omega)).value
      violation := fun _ _ _ => rfl
      restarts := fun _ _ hst => congrArg some hst.restarts
      name := rfl
      timed := id }

/-- What an outlook says of two mesh searches, which have the same incumbents,
shows a likeness. -/
structure MeshSearch.Outlook.Shows (A : MeshSearch.Outlook α)
    (L : Likeness α n (MeshSearch.Row α n) (MeshSearch.State α n)) : Prop where
  evaluations (e e' : Evaluation α) : A.Evaluations e e' → L.evaluations e e'
  states (st st' : MeshSearch.State α n) : A.States st st' → L.states st st'
  rows (r r' : MeshSearch.Row α n) (x : Grid α) : A.values x r.value r'.value →
    r' = { r with value := r'.value } → L.rows r r'
  incumbents (x x' : Point α n) : x' = x → L.solutions x x'
  values (x : Grid α) (v v' : α) : A.values x v v' → L.objectives v v'

/-- **Two mesh searches take one course,** with one outlook that serves them
and shows it. -/
theorem MeshSearch.Outlook.course {A : MeshSearch.Outlook α}
    {L : Likeness α n (MeshSearch.Row α n) (MeshSearch.State α n)} {m : MeshSearch α n}
    {p' : Problem α n} {d : Desk α (MeshSearch.Row α n)}
    (hA : A.Serves m.options m.problem p' m.start) (hat : A.At d) (hL : A.Shows L)
    (hclock : L.timed → clock' = clock) (htime : L.timed ∨ m.budgets.Untimed) :
    L.Course m.method { m with problem := p' : MeshSearch α n }.method clock clock' d := by
  have hdirections (size j : Nat) : m.directions size (A.drawn + j) = m.directions size j := by
    rw [hat.drawn, Nat.zero_add]
  refine (MeshSearch.Outlook.twins hA hdirections (hat.limits htime)).course hat hclock ?_
  have hpoint {st st' : MeshSearch.State α n} (hst : A.States st st') : st'.point = st.point := by
    rw [hst.rest]
  have hviolation {st st' : MeshSearch.State α n} (hst : A.States st st') :
      st'.violation = st.violation := by
    rw [hst.rest]
  have hrows (r r' : MeshSearch.Row α n) (hr : A.Rows r r') : L.rows r r' := by
    obtain ⟨⟨x, hvalue⟩, hrest⟩ := hr
    rw [hat.objective, Nat.zero_add] at hrest
    exact hL.rows r r' x hvalue hrest
  exact
    { evaluations := hL.evaluations
      states := hL.states
      rows := hrows
      solution := fun _ _ hst => hL.incumbents _ _ (hpoint hst)
      objective := fun _ _ hst => hL.values _ _ _ hst.value
      violation := fun _ _ hst => congrArg some (hviolation hst)
      restarts := fun _ _ _ => rfl
      name := rfl
      timed := id }

end

end DirectSearch
