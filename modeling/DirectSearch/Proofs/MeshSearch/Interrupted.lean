import DirectSearch.Proofs.MeshSearch.Trials
import DirectSearch.Proofs.Search.Rows
/-!
# Mesh search — polls that an evaluation cuts short

A poll marks what it sees while it scans, and settles everything else when
the scan is over. So a fault of the objective or of the constraints at any
trial passes through the poll, and finds the search as it was: the marks and
the tally apart, the session is the one before the poll, also if an earlier
trial had improved (`poll_cut_short`). The counts have grown by the trials
that were made, the faulty one included.
-/

namespace DirectSearch

open Scalar Session

variable {α : Type} [Scalar α] {n : Nat} {ρ : Type}

/-! ## Appraisals that a fault ends -/

namespace Problem

variable {p : Problem α n} {x : Point α n} {w v : α} {t : Tally α} {fault : Fault}

/-- A fault of the objective ends an appraisal. -/
theorem appraise_of_objective_error
    (h : p.objective t.counters.askObjective x.toGrid = .error fault) :
    p.appraise w x t = .error fault { t with counters := t.counters.askObjective } := by
  refine bind_eq_error.2 (.inl ?_)
  simp only [objectiveAt, objectiveOf, h]

omit [Scalar α] in
/-- Constraints that end with a fault have been counted. -/
theorem counters_of_constraintsOf_error {g : Grid α} {c c' : Counters}
    (hcount : 0 < p.constraintCount) (h : p.constraintsOf g c = .error fault c') :
    c' = c.askConstraint := by
  simp only [constraintsOf, if_neg hcount.ne'] at h
  split at h
  · cases h
    rfl
  · split at h <;> cases h
    rfl

/-- A fault of the constraints ends an appraisal, after the objective has gone
on record. -/
theorem appraise_of_constraints_error {c : Counters}
    (hv : p.objective t.counters.askObjective x.toGrid = .ok v) (hcount : 0 < p.constraintCount)
    (h : p.constraintsOf x.toGrid t.counters.askObjective = .error fault c) :
    p.appraise w x t = .error fault
      ⟨t.counters.askObjective.askConstraint, t.evaluations.push ⟨x.toGrid, v⟩⟩ := by
  obtain rfl := counters_of_constraintsOf_error hcount h
  have hviolation : p.violationOf x.toGrid t.counters.askObjective =
      .error fault t.counters.askObjective.askConstraint := by
    have hfree : ¬ p.isUnconstrained := fun hfree =>
      hcount.ne' (constraintCount_of_isUnconstrained hfree)
    simp only [violationOf, if_neg hfree, if_neg hcount.ne', Point.totalExcess_toGrid]
    exact bind_eq_error.2 (.inr ⟨_, _, rfl, bind_eq_error.2 (.inl h)⟩)
  refine bind_eq_error.2 (.inr ⟨v, _, objectiveAt_eq_ok.2 ⟨hv, rfl⟩, bind_eq_error.2 (.inl ?_)⟩)
  simp only [violationAt, Counting.inSearch, hviolation]

/-- An appraisal is the same under any weight that gives it its merit. -/
theorem appraise_of_merit {a : Appraisal α n} {u : Tally α} {w' : α}
    (h : p.appraise w x t = .ok a u) (hmerit : a.merit = merit w' a.value a.violation) :
    p.appraise w' a.point t = .ok a u := by
  simp only [appraise, bind_eq_ok, pure_eq_ok] at h ⊢
  obtain ⟨f, t', hf, violation, u', hviolation, rfl, rfl⟩ := h
  have hsame : merit w f violation = merit w' f violation := hmerit
  exact ⟨f, t', hf, violation, u', hviolation, by rw [hsame], rfl⟩

end Problem

namespace MeshSearch

variable {P : Type} [Coordinates α P] {p : Problem α n} {o : Options α} {fault : Fault}
variable {s t : Session α ρ (StateOn α n P)}

/-! ## What a scan leaves alone -/

/-- Two sessions that differ at most in the tally and in what a poll marks
while it scans. -/
def SameButForMarks (s t : Session α ρ (StateOn α n P)) : Prop :=
  ∃ tally improved outcome slope,
    t = (s.withTally tally).withState { s.state with improved, outcome, slope }

omit [Scalar α] [Coordinates α P] in
theorem SameButForMarks.trans {u : Session α ρ (StateOn α n P)} (h₁ : SameButForMarks s t)
    (h₂ : SameButForMarks t u) : SameButForMarks s u := by
  obtain ⟨_, _, _, _, rfl⟩ := h₁
  obtain ⟨tally, improved, outcome, slope, rfl⟩ := h₂
  exact ⟨tally, improved, outcome, slope, rfl⟩

omit [Scalar α] [Coordinates α P] in
theorem SameButForMarks.evaluated (s : Session α ρ (StateOn α n P)) (tally : Tally α) :
    SameButForMarks s (s.withTally tally) := ⟨tally, _, _, _, rfl⟩

/-! ## A scan that a fault ends -/

/-- **A poll comes to a trial** at `x`, by a tally `u`: it has made the trials
along the headings before, and none of them has ended it. -/
structure ComesTo (p : Problem α n) (o : Options α) (s : Session α ρ (StateOn α n P))
    (made : List (Appraisal α n)) (u : Tally α) (x : Point α n) : Prop where
  headings : ∃ ds d after, headings n s.state.point = ds ++ d :: after ∧
    List.Forall₂ (fun d a => trialPoint s.state d = .ok a.point) ds made ∧
    trialPoint s.state d = .ok x
  appraised : p.Appraises s.tally made u
  merits : ∀ a ∈ made, a.merit = merit s.state.weight a.value a.violation
  goesOn : o.greedy ∨ ∀ a ∈ made, ¬ lt a.merit s.state.merit

/-- A scan comes to a trial whose appraisal ends with a fault. -/
theorem scan_cut_short {st : StateOn α n P} {ds : List (Heading n)} {d : Heading n}
    {made : List (Appraisal α n)} {u v : Tally α} {x : Point α n}
    (best : Option (Appraisal α n)) (after : List (Heading n))
    (hpoints : List.Forall₂ (fun d a => trialPoint st d = .ok a.point) ds made)
    (hx : trialPoint st d = .ok x) (hmade : p.Appraises s.tally made u)
    (hmerits : ∀ a ∈ made, a.merit = merit st.weight a.value a.violation)
    (hgoes : o.greedy ∨ ∀ a ∈ made, ¬ lt a.merit (bar st best))
    (hfault : p.appraise st.weight x u = .error fault v) :
    ∃ t, scan p o st (ds ++ d :: after) best s = .error fault t ∧ t.tally = v ∧
      SameButForMarks s t := by
  induction hpoints generalizing s best with
  | nil =>
    cases hmade
    refine ⟨s.withTally v, ?_, rfl, .evaluated s v⟩
    rw [List.nil_append, scan, hx]
    refine bind_eq_error.2 (.inr ⟨x, s, rfl, bind_eq_error.2 (.inl ?_)⟩)
    simp only [evaluate, hfault]
    rfl
  | @cons d' a ds made hpoint _ ih =>
    obtain ⟨hmerit, hmerits⟩ := List.forall_mem_cons.1 hmerits
    obtain ⟨tally, ha, hrest⟩ : ∃ tally, p.appraise st.weight a.point s.tally = .ok a tally ∧
        p.Appraises tally made u := by
      cases hmade with
      | cons ha hrest => exact ⟨_, Problem.appraise_of_merit ha hmerit, hrest⟩
    have hgoes' : o.greedy ∨ ∀ b ∈ made, ¬ lt b.merit (bar st best) :=
      hgoes.imp_right fun hnone b hb => hnone b (by simp [hb])
    -- a slope that is noted is one of the marks
    obtain ⟨r, hmarks, htally, hscan⟩ : ∃ r : Session α ρ (StateOn α n P),
        SameButForMarks s r ∧ r.tally = tally ∧
          scan p o st (d' :: (ds ++ d :: after)) best s =
            (if lt a.merit (bar st best) then do
                modifyState (noteDecrease d')
                if o.greedy then scan p o st (ds ++ d :: after) (some a) else pure (some a)
              else scan p o st (ds ++ d :: after) best : Step α ρ (StateOn α n P) _) r := by
      rw [scan, hpoint]
      simp only [bind, EStateM.bind, demand, evaluate, ha]
      by_cases ho : o.estimateSlope
      · refine ⟨(s.withTally tally).withState (noteSlope (slopeTo st a.value) s.state),
          ⟨tally, _, _, _, rfl⟩, rfl, ?_⟩
        rw [if_pos ho]
        rfl
      · refine ⟨s.withTally tally, .evaluated s tally, rfl, ?_⟩
        rw [if_neg ho]
        rfl
    rw [List.cons_append, hscan]
    split
    · rename_i hlt
      have ho : o.greedy := hgoes.resolve_right fun hnone => hnone a (by simp) hlt
      obtain ⟨t, ht, hv, hrest'⟩ := ih (s := r.withState (noteDecrease d' r.state)) (some a)
        (htally ▸ hrest) hmerits (.inl ho)
      refine ⟨t, ?_, hv, hmarks.trans (.trans ⟨r.tally, _, _, _, rfl⟩ hrest')⟩
      rw [if_pos ho]
      exact bind_eq_error.2 (.inr ⟨(), _, rfl, ht⟩)
    · obtain ⟨t, ht, hv, hrest'⟩ := ih (s := r) best (htally ▸ hrest) hmerits hgoes'
      exact ⟨t, ht, hv, hmarks.trans hrest'⟩

/-! ## A poll that a fault ends -/

variable [Includes α n P]

/-- A step is cut short by a fault that it hands on: at most the tally and the
marks are changed, and so many evaluations more have been asked for. -/
def CutShort {β : Type} (p : Problem α n) (act : Step α ρ (StateOn α n P) β)
    (s : Session α ρ (StateOn α n P)) (fault : Fault) (objectives constraints : Nat) : Prop :=
  ∃ t, act s = .error fault t ∧ SameButForMarks s t ∧
    t.tally.counters.objective = s.tally.counters.objective + objectives ∧
    (0 < p.constraintCount →
      t.tally.counters.constraint = s.tally.counters.constraint + constraints)

theorem poll_of_appraise_error (directions : Directions α) {made : List (Appraisal α n)}
    {u v : Tally α} {x : Point α n} (h : ComesTo p o s made u x)
    (hfault : p.appraise s.state.weight x u = .error fault v) :
    ∃ t, poll p o directions s = .error fault t ∧ t.tally = v ∧ SameButForMarks s t := by
  obtain ⟨⟨ds, d, after, hheadings, hpoints, hx⟩, hmade, hmerits, hgoes⟩ := h
  obtain ⟨t, hscan, hv, hmarks⟩ := scan_cut_short (s := s.withState (beginPoll o s.state))
    none after hpoints hx hmade hmerits hgoes hfault
  have hbegin : SameButForMarks s (s.withState (beginPoll o s.state)) :=
    ⟨s.tally, _, _, _, rfl⟩
  refine ⟨t, ?_, hv, hbegin.trans hmarks⟩
  rw [← hheadings] at hscan
  exact bind_eq_error.2 (.inr ⟨_, s, rfl, bind_eq_error.2 (.inr ⟨(), _, rfl,
    bind_eq_error.2 (.inl hscan)⟩)⟩)

/-- **A fault in a poll** of any search, greedy or not, that comes to its
`k`-th trial. If the objective fails there, or the objective returns and the
constraints fail, the poll ends with that fault. But for the tally and for
what the scan marks, the session is then as it was before the poll: the
incumbent with its values and merit, the mesh, the streak, the weight, the
next direction, and everything around the state. The objective has been asked
for `k` times, and the constraints, if there are any, as often if it was they
that failed, and else once less. -/
theorem poll_cut_short (directions : Directions α) (made : List (Appraisal α n)) (u : Tally α)
    (x : Point α n) (h : ComesTo p o s made u x) :
    let k := made.length + 1
    k ≤ 2 * n ∧
    (∀ fault, p.objective u.counters.askObjective x.toGrid = .error fault →
      CutShort p (poll p o directions) s fault k (k - 1)) ∧
    ∀ v fault c, p.objective u.counters.askObjective x.toGrid = .ok v → 0 < p.constraintCount →
      p.constraintsOf x.toGrid u.counters.askObjective = .error fault c →
        CutShort p (poll p o directions) s fault k k := by
  intro k
  obtain ⟨ds, d, after, hheadings, hpoints, -⟩ := h.headings
  obtain ⟨hobjective, hconstraint⟩ := h.appraised.counters
  have heach (hcount : 0 < p.constraintCount) :
      u.counters.constraint = s.tally.counters.constraint + made.length := by
    rw [hconstraint, Problem.constraintsEach, if_neg hcount.ne', mul_one]
  refine ⟨?_, fun fault hfault => ?_, fun v fault c hv hcount hfault => ?_⟩
  · have hall : (headings n s.state.point).length ≤ 2 * n :=
      Heading.length_all n ▸ List.length_filter_le _ _
    have hlength := hpoints.length_eq
    rw [hheadings, List.length_append, List.length_cons] at hall
    omega
  · obtain ⟨t, hpoll, htally, hmarks⟩ :=
      poll_of_appraise_error directions h (Problem.appraise_of_objective_error hfault)
    refine ⟨t, hpoll, hmarks, ?_, fun hcount => ?_⟩
    · rw [htally, Counters.askObjective, hobjective, add_assoc]
    · rw [htally, Counters.askObjective]
      exact heach hcount
  · obtain ⟨t, hpoll, htally, hmarks⟩ := poll_of_appraise_error directions h
      (Problem.appraise_of_constraints_error hv hcount hfault)
    refine ⟨t, hpoll, hmarks, ?_, fun hcount => ?_⟩
    · rw [htally, Counters.askObjective, Counters.askConstraint, hobjective, add_assoc]
    · rw [htally, Counters.askObjective, Counters.askConstraint, heach hcount, add_assoc]

/-- A search for the least number, with a constraint that fails when it is
asked for the second time. -/
def faltering : Problem Float 1 :=
  { name := .absent
    objective := fun _ g => .ok (g.entries.headD zero)
    block := some fun c _ => if c.constraint = 2 then .error .indexOutside else .ok (.ofList [zero])
    blockSize := 1, inequalities := [], equalities := []
    start := .replicate 1 zero
    lower := .replicate 1 (-Extended.infinity), upper := .replicate 1 Extended.infinity
    constraintLower := .replicate 1 zero, constraintUpper := .replicate 1 zero }

/-- A greedy poll from zero has improved at its first trial when the second is
cut short. -/
theorem faltering_poll_cut_short :
    let o := { optionsOf (.default .mesh) with greedy := true }
    ∃ a, Beats a atZero.state ∧
      CutShort faltering (poll faltering o fun _ _ => .ok (.ofList [one])) atZero .indexOutside
        2 2 := by
  intro o
  let x (d : Heading 1) : Point Float 1 :=
    pointAlong atZero.state.point (.replicate 1 one) d.axis d.sign atZero.state.mesh
  have hx (d : Heading 1) : trialPoint atZero.state d = .ok (x d) :=
    trialPoint_point atZero.state rfl d
  let beats : Bool := match faltering.appraise one (x ⟨0, true⟩) .empty with
    | .ok a _ => lt a.merit zero
    | .error _ _ => false
  have hfirst : beats := by decide +kernel
  unfold beats at hfirst
  split at hfirst
  · rename_i a u ha
    have hpoint : trialPoint atZero.state ⟨0, true⟩ = .ok a.point :=
      (hx _).trans (congrArg _ (Problem.point_of_appraise ha).symm)
    have hmerits : ∀ b ∈ [a], b.merit = merit one b.value b.violation :=
      List.forall_mem_singleton.2 (Problem.merit_of_appraise ha)
    have hcomes : ComesTo faltering o atZero [a] u (x ⟨0, false⟩) :=
      ⟨⟨[⟨0, true⟩], ⟨0, false⟩, [], rfl, .cons hpoint .nil, hx _⟩, .single ha, hmerits, .inl rfl⟩
    obtain ⟨-, -, hcut⟩ := poll_cut_short (fun _ _ => .ok (.ofList [one])) [a] u _ hcomes
    have hsecond (k : Nat) (g : Grid Float) :
        faltering.constraintsOf g ⟨k, 1⟩ = .error .indexOutside ⟨k, 2⟩ := rfl
    have hasked : u.counters.askObjective = ⟨2, 1⟩ := by
      obtain ⟨hobjective, hconstraint⟩ := Problem.counters_of_appraise ha
      rw [Counters.askObjective, hobjective, hconstraint]
      rfl
    exact ⟨a, hfirst, hcut _ .indexOutside _ rfl (by decide) (hasked ▸ hsecond 2 _)⟩
  · cases hfirst

end MeshSearch

end DirectSearch
