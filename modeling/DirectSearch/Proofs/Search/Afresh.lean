import DirectSearch.Proofs.MeshSearch.Poll
import DirectSearch.Proofs.Search.Courses
/-!
# Search — every run starts afresh

A desk carries over what earlier runs have left: counters, a journal, clock
readings, and the place in the sequence of directions. None of it but the
counters and the directions reaches the search, and if the problem looks at
points only and the budgets allow for what has been counted, the counters
show in no other place than the counts. A run from any desk then takes the
course of the run of a new search at a new desk (`runs_start_afresh`).
-/

namespace DirectSearch

open Scalar Session Simplex

variable {α : Type} {n : Nat} {ρ σ ι : Type}

/-! ## Problems that look at the point only -/

namespace Problem

/-- All constraint functions of a problem. -/
def constraints (p : Problem α n) : List (Callback α (Entries α)) :=
  p.block.toList ++ p.inequalities ++ p.equalities

/-- The functions of a problem look at the point only, and not at how often
they have been asked. -/
structure IsStateless (p : Problem α n) : Prop where
  objective (c c' : Counters) (x : Grid α) : p.objective c' x = p.objective c x
  constraints (f : Callback α (Entries α)) : f ∈ p.constraints → ∀ c c' x, f c' x = f c x

/-- They return the same at the counters of either run. -/
structure IsBlind (p : Problem α n) (A : Pairing α) : Prop where
  objective (c : Counters) (x : Grid α) : p.objective (A.counters c) x = p.objective c x
  constraints (f : Callback α (Entries α)) :
    f ∈ p.constraints → ∀ c x, f (A.counters c) x = f c x

variable {p : Problem α n} {A : Pairing α}

theorem IsStateless.isBlind (h : p.IsStateless) (A : Pairing α) : p.IsBlind A where
  objective c x := h.objective c (A.counters c) x
  constraints f hf c x := h.constraints f hf c (A.counters c) x

/-- Nothing is seen of counters that are the same. -/
theorem isBlind_of_counters (h : ∀ c, A.counters c = c) : p.IsBlind A where
  objective c x := by rw [h]
  constraints f _ c x := by rw [h]

theorem gather_blind {fs : List (Callback α (Entries α))} {c c' : Counters} {x : Grid α}
    (h : ∀ f ∈ fs, f c' x = f c x) : gather c' x fs = gather c x fs := by
  have hmapM : fs.mapM (fun f => f c' x) = fs.mapM fun f => f c x := by
    induction fs with
    | nil => rfl
    | cons f fs ih =>
      rw [List.mapM_cons, List.mapM_cons, h f (by simp), ih fun f hf => h f (by simp [hf])]
  cases fs with
  | nil => rfl
  | cons f fs => simp only [gather, hmapM]

theorem IsBlind.constraintValues (h : p.IsBlind A) (c : Counters) (x : Grid α) :
    p.constraintValues (A.counters c) x = p.constraintValues c x := by
  have hin : gather (A.counters c) x p.inequalities = gather c x p.inequalities :=
    gather_blind fun f hf => h.constraints f (by simp [Problem.constraints, hf]) c x
  have heq : gather (A.counters c) x p.equalities = gather c x p.equalities :=
    gather_blind fun f hf => h.constraints f (by simp [Problem.constraints, hf]) c x
  simp only [Problem.constraintValues, hin, heq]
  cases hblock : p.block with
  | none => rfl
  | some f => simp only [h.constraints f (by simp [Problem.constraints, hblock]) c x]

variable [Scalar α]

theorem IsBlind.violationOf_beside (h : p.IsBlind A) (x : Grid α) :
    Beside (fun c c' => c' = A.counters c) (p.violationOf x) (p.violationOf x)
      (fun v v' => v' = v ∧ True) (fun c c' => c' = A.counters c)
      fun c c' => c' = A.counters c := by
  have hasked (c : Counters) : (A.counters c).askConstraint = A.counters c.askConstraint := rfl
  have hvalues : Beside (fun c c' => c' = A.counters c) (p.constraintsOf x) (p.constraintsOf x) Eq
      (fun c c' => c' = A.counters c) fun c c' => c' = A.counters c := by
    rintro c _ rfl
    simp only [constraintsOf, hasked, h.constraintValues]
    split
    · exact .error _ rfl
    · cases p.constraintValues c.askConstraint x with
      | error fault => exact .error _ rfl
      | ok values =>
        dsimp only
        split
        · exact .ok rfl rfl
        · exact .error _ rfl
  refine .ite Iff.rfl (fun _ => .pure ⟨rfl, trivial⟩) fun _ => ?_
  refine .bind (.demand (.refl _) fun _ _ hc => hc) fun bounds _ hbounds => ?_
  subst hbounds
  refine .ite Iff.rfl (fun _ => .pure ⟨rfl, trivial⟩) fun _ => ?_
  refine .bind hvalues fun values _ hvalues => ?_
  subst hvalues
  refine .bind (.demand (.refl _) fun _ _ hc => hc) fun excess _ hexcess => ?_
  subst hexcess
  exact .pure ⟨rfl, trivial⟩

end Problem

/-! ## Two runs on one problem -/

/-- A run that finds something done pairs with one that does not: both have
the same values. -/
def Pairing.ahead (objective constraint drawn : Nat) (before before' : List (Evaluation α)) :
    Pairing α :=
  { values := fun _ => Eq, objective, constraint, drawn, before, before' }

variable {objective constraint drawn : Nat} {before before' : List (Evaluation α)}

/-- Evaluations with the same values are the same. -/
theorem Pairing.eq_of_ahead {es es' : List (Evaluation α)}
    (h : List.Forall₂
      (Pairing.ahead objective constraint drawn before before').Evaluations es es') :
    es' = es := by
  induction h with
  | nil => rfl
  | @cons e e' es es' he _ ih =>
    obtain ⟨x, v⟩ := e
    obtain ⟨x', v'⟩ := e'
    obtain ⟨hpoint, hvalue⟩ := he
    rw [ih, show x' = x from hpoint, show v = v' from hvalue]

variable [Scalar α]

namespace MeshSearch

/-- The outlook under which everything is the same. -/
def Outlook.same (A : Pairing α) : Outlook α :=
  { A with
    merits := Eq, tolerances := Eq
    weights := fun _ => True, violations := fun _ => True }

theorem serves_ahead {o : Options α} {p : Problem α n} {start : Point α n}
    (hp : p.IsBlind (.ahead objective constraint drawn before before')) :
    (Outlook.same (.ahead objective constraint drawn before before')).Serves o p p start where
  objectives := by
    rintro x _ c rfl
    exact .of_eq (hp.objective c _)
  points _ := rfl
  violation := hp.violationOf_beside
  merit := by
    rintro x w f _ v rfl - -
    rfl
  lt := by
    rintro a _ b _ rfl rfl
    rfl
  one := trivial
  raise _ _ _ := trivial
  tolerance := by
    rintro v _ rfl
    exact .refl _
  flat := by
    rintro t _ rfl
    rfl
  slope _ := ⟨fun _ _ _ h => h.symm, fun _ _ h => h.symm⟩
  bounds := ⟨rfl, rfl⟩

omit [Scalar α] in
theorem eq_of_same {st st' : State α n}
    (h : (Outlook.same (.ahead objective constraint drawn before before')).States st st') :
    st' = st := by
  have hvalue : st.value = st'.value := h.value
  have hmerit : st.merit = st'.merit := h.merit
  have htolerance : st.tolerance = st'.tolerance := h.tolerance
  rw [h.rest, ← hvalue, ← hmerit, ← htolerance]

omit [Scalar α] in
theorem rows_of_same {r r' : Row α n}
    (h : (Outlook.same (.ahead objective constraint drawn before before')).Rows r r') :
    r' = { r with evaluations := objective + r.evaluations } := by
  obtain ⟨⟨x, hvalue⟩, hrest⟩ := h
  rw [hrest, ← show r.value = r'.value from hvalue]
  rfl

end MeshSearch

namespace SimplexSearch

/-- The outlook under which everything is the same. -/
def Outlook.ahead (n objective constraint drawn : Nat) (before before' : List (Evaluation α)) :
    Outlook α n :=
  .same n (.ahead objective constraint drawn before before') fun b b' => b' = b

omit [Scalar α] in
/-- Vertices that are alike are the same. -/
theorem Alike.eq_of_ahead {k : Nat} {vs vs' : Vector (Vertex α (Point α n)) k}
    (h : Alike (.ahead n objective constraint drawn before before') vs vs') : vs' = vs :=
  h.eq_of_values (fun _ _ hx => hx) fun _ _ _ hv => hv.symm

theorem serves_ahead {o : Options α} {p : Problem α n} {starts : Vector (Point α n) (n + 1)}
    (hp : p.IsBlind (.ahead objective constraint drawn before before')) :
    Serves (.ahead n objective constraint drawn before before') o p p starts starts := by
  refine serves_same (fun _ => rfl) ?_ ?_ ?_ ?_ ?_ fun _ => ⟨fun _ _ => Iff.rfl, ?_, ?_⟩
  · rintro x _ c rfl
    exact .of_eq (hp.objective c _)
  · rintro x y v _ w _ rfl rfl
    rfl
  · rintro x y v _ w _ rfl rfl
    rfl
  · intro k vs vs' h
    obtain rfl := h.eq_of_ahead
    exact fun i hi => ⟨rfl, rfl⟩
  · intro vs vs' h
    rw [h.eq_of_ahead]
  · intro vs vs' h
    rw [h.eq_of_ahead]
  · rintro b _ w _ rfl rfl
    rfl

omit [Scalar α] in
theorem eq_of_ahead {st st' : State α n}
    (h : States (.ahead n objective constraint drawn before before') st st') : st' = st := by
  obtain ⟨hvertices, hmean, hrestarts, hdiameter⟩ := h
  have heq := hvertices.eq_of_ahead
  have hmean' : st'.mean = st.mean := hmean
  have hdiameter' : st'.diameter = st.diameter := hdiameter
  cases st
  cases st'
  simp only at heq hmean' hrestarts hdiameter'
  rw [heq, hmean', hrestarts, hdiameter']

omit [Scalar α] in
theorem rows_of_ahead {r r' : Row α}
    (h : Rows (.ahead n objective constraint drawn before before') r r') :
    r' = { r with evaluations := objective + r.evaluations } := by
  obtain ⟨⟨x, hvalue⟩, hdiameter, hrest⟩ := h
  rw [hrest, ← show r.value = r'.value from hvalue, show r'.diameter = r.diameter from hdiameter]
  rfl

end SimplexSearch

/-! ## Runs from any desk -/

/-- The limits of a run from a desk where `made` evaluations of the objective
have been counted allow what other limits allow from none on. There is no
limit of time. -/
structure Budgets.Shifted (made : Nat) (b b' : Budgets α) : Prop where
  evaluations : (∃ limit : Nat, b.evaluations = .ok (some (.whole limit)) ∧
      b'.evaluations = .ok (some (.whole (made + limit : Nat)))) ∨
    ∃ limit limit', b.evaluations = .ok limit ∧ b'.evaluations = .ok limit' ∧
      limit.any (Number.whole 0).le = false ∧ limit'.any (Number.whole 0).le = false
  time : ∃ limit, b.time = .ok limit ∧ (Number.whole 0).le limit = false
  time' : ∃ limit, b'.time = .ok limit ∧ (Number.whole 0).le limit = false
  iterations : b'.iterations = b.iterations

/-- The session of a run from a desk is that of a run that found nothing
done, but for the counts. -/
structure Session.Shifted (d : Desk α ρ) (s s' : Session α ρ σ) : Prop where
  state : s'.state = s.state
  iterations : s'.iterations = s.iterations
  evaluations : s'.evaluationsSince d = s.evaluationsSince (fresh .empty : Desk α ρ)
  objective : s'.tally.counters.objective =
    d.tally.counters.objective + s.tally.counters.objective
  constraint : s'.tally.counters.constraint =
    d.tally.counters.constraint + s.tally.counters.constraint

/-- The report of a run is that of another, but for the counts. The rows
differ as stated. -/
structure Report.Shifted (made : Counters) (rows : ρ → ρ) (r r' : Report α n ρ) : Prop where
  status : r'.status = r.status
  solution : r'.solution = r.solution
  objective : r'.objective = r.objective
  iterations : r'.iterations = r.iterations
  violation : r'.violation = r.violation
  solver : r'.solver = r.solver
  restarts : r'.restarts = r.restarts
  objectiveCount : r'.objectiveCount = made.objective + r.objectiveCount
  constraintCount : r'.constraintCount = made.constraint + r.constraintCount
  history : r'.history.toList.map (·.entry) = r.history.toList.map fun record => rows record.entry

/-- **A run from a desk is that of a new search,** session by session and in
its end, but for the counts: the two come to the same states by the same
evaluations, and end by the same fault or with the same report, or neither
of them ends. -/
structure Method.StartsAfresh (rows : ρ → ρ) (m m' : Method α n ρ σ ι) (clock clock' : Nat → α)
    (d : Desk α ρ) : Prop where
  reaches (s : Session α ρ σ) : m.Reaches clock (fresh .empty) s →
    ∃ s', m'.Reaches clock' d s' ∧ Session.Shifted d s s'
  reached (s' : Session α ρ σ) : m'.Reaches clock' d s' →
    ∃ s, m.Reaches clock (fresh .empty) s ∧ Session.Shifted d s s'
  run (fuel : Nat) : Option.Rel (fun ended ended' =>
      ended'.desk.tally.counters.objective =
          d.tally.counters.objective + ended.desk.tally.counters.objective ∧
        ended'.desk.tally.counters.constraint =
          d.tally.counters.constraint + ended.desk.tally.counters.constraint ∧
        Agree (Report.Shifted d.tally.counters rows) ended.result ended'.result)
    (m.run clock fuel (fresh .empty)) (m'.run clock' fuel d)

/-- The pairing of a run from a new desk with one from a desk. -/
def Pairing.of (d : Desk α ρ) : Pairing α :=
  .ahead d.tally.counters.objective d.tally.counters.constraint d.drawn []
    d.tally.evaluations.toList

section

variable {made : Nat} {b b' : Budgets α}

theorem Budgets.Shifted.limits {d : Desk α ρ}
    (h : Budgets.Shifted d.tally.counters.objective b b') :
    (Pairing.of d).Limits False b b' := by
  have hevaluations (count : Nat) : b'.evaluationsSpent (d.tally.counters.objective + count)
      = b.evaluationsSpent count := by
    rcases h.evaluations with ⟨limit, hb, hb'⟩ | ⟨limit, limit', hb, hb', hnone, hnone'⟩
    · simp only [evaluationsSpent, hb, hb', Except.map, isSpent, Number.le_whole]
      congr 2
      all_goals simp
    · have hunspent {limit : Option (Number α)} (h : limit.any (Number.whole 0).le = false)
          (count : Number α) : isSpent count limit = false := by
        cases limit with
        | none => rfl
        | some l => simp [isSpent, show (Number.whole 0).le l = false from h]
      simp only [evaluationsSpent, hb, hb', Except.map, hunspent hnone, hunspent hnone']
  have htime (elapsed : α) : b.timeSpent elapsed = .ok false :=
    Untimed.timeSpent_eq h.time elapsed
  have htime' (elapsed : α) : b'.timeSpent elapsed = .ok false :=
    Untimed.timeSpent_eq h.time' elapsed
  constructor
  · intro elapsed elapsed' count iterations _
    change b'.spent (d.tally.counters.objective + count) elapsed' iterations = _
    simp only [spent, hevaluations, htime, htime', iterationsSpent, h.iterations]
  · intro elapsed elapsed' count _
    change b'.status (d.tally.counters.objective + count) elapsed' = _
    simp only [status, hevaluations, htime, htime']

end

/-- Sessions that are level differ in the counts only, if their coupling
lets them. -/
theorem Coupling.Level.shifted {c : Coupling α ρ σ ι} {d : Desk α ρ} {s s' : Session α ρ σ}
    (h : c.Level s s') (hc : c.toPairing = Pairing.of d)
    (hstates : ∀ st st', c.states st st' → st' = st) : Session.Shifted d s s' := by
  have htally := h.sessions.tally
  rw [hc] at htally
  have hpaired : List.Forall₂ (Pairing.of d).Evaluations
      (s.evaluationsSince (fresh .empty : Desk α ρ)) (s'.evaluationsSince d) :=
    htally.evaluationsSince rfl rfl
  exact ⟨hstates _ _ h.sessions.state, h.sessions.iterations', Pairing.eq_of_ahead hpaired,
    congrArg Counters.objective htally.counters, congrArg Counters.constraint htally.counters⟩

/-- So do their reports. -/
theorem Coupling.Level.reports {c : Coupling α ρ σ ι} {m : Method α n ρ σ ι} {d : Desk α ρ}
    {rows : ρ → ρ} {s s' : Session α ρ σ} (h : c.Level s s') (hc : c.toPairing = Pairing.of d)
    (hstates : ∀ st st', c.states st st' → st' = st) (hrows : ∀ r r', c.rows r r' → r' = rows r)
    (status : Status) :
    Report.Shifted d.tally.counters rows (m.reportOf s status) (m.reportOf s' status) := by
  have hs := h.shifted hc hstates
  refine ⟨rfl, congrArg m.solution hs.state, congrArg m.objective hs.state, hs.iterations,
    congrArg m.violation hs.state, rfl, congrArg m.restarts hs.state, hs.objective,
    hs.constraint, ?_⟩
  have hmap {rs rs' : List (Record α ρ)}
      (h : List.Forall₂ (fun r r' => c.rows r.entry r'.entry) rs rs') :
      rs'.map (·.entry) = rs.map fun record => rows record.entry := by
    induction h with
    | nil => rfl
    | cons hr _ ih => rw [List.map_cons, List.map_cons, ih, hrows _ _ hr]
  exact hmap h.history

/-- Twins start afresh if their coupling lets them differ in the counts
only. -/
theorem Method.startsAfresh {c : Coupling α ρ σ ι} {m m' : Method α n ρ σ ι}
    {clock clock' : Nat → α} {d : Desk α ρ} {rows : ρ → ρ} (h : c.Twins m m')
    (htimed : c.timed = False) (hc : c.toPairing = Pairing.of d)
    (hstates : ∀ st st', c.states st st' → st' = st)
    (hrows : ∀ r r', c.rows r r' → r' = rows r)
    (hmethods : ∀ s status, m'.reportOf s status = m.reportOf s status) :
    m.StartsAfresh rows m' clock clock' d := by
  -- the clocks are not compared, as nothing that is compared depends on them
  have hclock : c.timed → clock' = clock := by
    rw [htimed]
    exact nofun
  have hd : c.Desks (fresh .empty) d :=
    { counters := by rw [hc]; rfl
      before := by rw [hc]; rfl
      before' := by rw [hc]; rfl
      drawn := by rw [hc]; rfl
      clock := fun h => (htimed ▸ h).elim }
  refine ⟨fun s hs => ?_, fun s' hs' => ?_, fun fuel => ?_⟩
  · obtain ⟨s', hs', hlike⟩ := h.reaches hclock hd hs
    exact ⟨s', hs', hlike.shifted hc hstates⟩
  · obtain ⟨s, hs, hlike⟩ := h.reached hclock hd hs'
    exact ⟨s, hs, hlike.shifted hc hstates⟩
  · have hcounts {t t' : Tally α} (ht : c.Tallies t t') :
        t'.counters.objective = d.tally.counters.objective + t.counters.objective ∧
          t'.counters.constraint = d.tally.counters.constraint + t.counters.constraint := by
      have hcounters := ht.counters
      rw [hc] at hcounters
      exact ⟨congrArg Counters.objective hcounters, congrArg Counters.constraint hcounters⟩
    refine h.run hclock hd fuel (fun fault e e' ht => ?_) fun status s s' e e' hs ht => ?_
    · exact ⟨(hcounts ht).1, (hcounts ht).2, .error fault⟩
    · refine ⟨(hcounts ht).1, (hcounts ht).2, ?_⟩
      rw [hmethods]
      exact .ok (hs.reports hc hstates hrows status)

/-- **Every run starts afresh.** Take a problem that looks at points only, no
limit of time, and for a mesh search directions that continue as those of the
new search begin. Whatever earlier runs have left at the desk, and whether or
not they came to their end, the run from there is that of a new search, but
for the evaluations that were counted before: if its limit of evaluations
allows for them, or there is none. -/
theorem runs_start_afresh (clock clock' : Nat → α) :
    (∀ (m : MeshSearch α n) (directions : MeshSearch.Directions α) (budgets : Budgets α)
      (d : Desk α (MeshSearch.Row α n)), m.problem.IsStateless →
      (∀ size k, directions size (d.drawn + k) = m.directions size k) →
      Budgets.Shifted d.tally.counters.objective m.budgets budgets →
      m.method.StartsAfresh
        (fun row => { row with evaluations := d.tally.counters.objective + row.evaluations })
        { m with directions, budgets : MeshSearch α n }.method clock clock' d) ∧
    ∀ (m : SimplexSearch α n) (budgets : Budgets α) (d : Desk α (SimplexSearch.Row α)),
      m.problem.IsStateless →
      Budgets.Shifted d.tally.counters.objective m.budgets budgets →
      m.method.StartsAfresh
        (fun row => { row with evaluations := d.tally.counters.objective + row.evaluations })
        { m with budgets : SimplexSearch α n }.method clock clock' d := by
  constructor
  · intro m directions budgets d hp hdirections hbudgets
    have htwins := MeshSearch.Outlook.twins (MeshSearch.serves_ahead (hp.isBlind (.of d)))
      hdirections hbudgets.limits
    exact Method.startsAfresh htwins rfl rfl (fun _ _ => MeshSearch.eq_of_same)
      (fun _ _ => MeshSearch.rows_of_same) fun _ _ => rfl
  · intro m budgets d hp hbudgets
    have htwins := SimplexSearch.twins (SimplexSearch.serves_ahead (hp.isBlind (.of d)))
      hbudgets.limits
    exact Method.startsAfresh htwins rfl rfl (fun _ _ => SimplexSearch.eq_of_ahead)
      (fun _ _ => SimplexSearch.rows_of_ahead) fun _ _ => rfl

/-- A search on a line for one poll, without a limit of time. -/
def MeshSearch.onePoll : MeshSearch Float 1 :=
  onLine square one zero two
    (((Settings.default .mesh).set "max_time" (.whole (-1))).set "max_iter" (.whole 1))

/-- A desk at which seven evaluations were counted and four directions drawn. -/
def usedDesk : Desk Float (MeshSearch.Row Float 1) :=
  { fresh ⟨⟨7, 2⟩, #[⟨.ofList [one], one⟩]⟩ with drawn := 4 }

/-- From there the poll goes as it would have gone at a new desk. -/
theorem usedDesk_starts_afresh :
    ∃ r r' e e',
      MeshSearch.onePoll.method.run (fun _ => zero) 1 (fresh .empty) = some ⟨.ok r, e⟩ ∧
      { MeshSearch.onePoll with
          directions := fun size k => MeshSearch.onePoll.directions size (k - 4)
          budgets :=
            { MeshSearch.onePoll.budgets with evaluations := .ok (some (.whole 207)) } :
        MeshSearch Float 1 }.method.run (fun _ => one) 1 usedDesk = some ⟨.ok r', e'⟩ ∧
      r'.solution = r.solution ∧ r'.objectiveCount = 7 + r.objectiveCount := by
  obtain ⟨r, e, hrun, -⟩ := Method.exists_report
    (show Method.reportsThat (fun _ => true)
      (MeshSearch.onePoll.method.run (fun _ => zero) 1 (fresh .empty)) by decide +kernel)
  have hstateless : MeshSearch.onePoll.problem.IsStateless := by
    refine ⟨fun _ _ _ => rfl, fun f hf => ?_⟩
    cases hf
  have hdirections (size k : Nat) :
      MeshSearch.onePoll.directions size (usedDesk.drawn + k - 4)
        = MeshSearch.onePoll.directions size k := by
    rw [show usedDesk.drawn + k - 4 = k from Nat.add_sub_cancel_left 4 k]
  have hbudgets : Budgets.Shifted usedDesk.tally.counters.objective MeshSearch.onePoll.budgets
      { MeshSearch.onePoll.budgets with evaluations := .ok (some (.whole 207)) } :=
    { evaluations := .inl ⟨200, rfl, rfl⟩
      time := ⟨.whole (-1), rfl, rfl⟩
      time' := ⟨.whole (-1), rfl, rfl⟩
      iterations := rfl }
  have hcourse := (runs_start_afresh (n := 1) (fun _ => (zero : Float)) (fun _ => one)).1
    MeshSearch.onePoll (fun size k => MeshSearch.onePoll.directions size (k - 4)) _ usedDesk
    hstateless hdirections hbudgets
  obtain ⟨r', e', hrun', hr⟩ :=
    exists_report_beside (hcourse.run 1) (fun _ _ hended => hended.2.2) hrun
  exact ⟨r, r', e, e', hrun, hrun', hr.solution, hr.objectiveCount⟩

end DirectSearch
