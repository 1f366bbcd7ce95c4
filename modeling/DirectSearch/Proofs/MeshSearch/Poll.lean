import DirectSearch.MeshSearch.Run
import DirectSearch.Proofs.Scalar.Order
import DirectSearch.Proofs.Search.Runs
/-!
# Mesh search — what a poll can do

A poll appraises some points under the weight it begins with, and either
moves to one of them, which beats the incumbent, or moves to none and then
narrows the mesh and perhaps raises the weight. `Polled` says all of what
it does to the state, and every invariant is read off it; the scan and the
two ways to end it are not opened again. The turns of a run are polls
(`turn_polled`), and `First` is the state they begin with.
-/

namespace DirectSearch

open Scalar OrderedScalar Session

variable {α : Type} [Scalar α] {n : Nat}

/-! ## Appraisals -/

/-- The evaluation that an appraisal has made. -/
def Appraisal.evaluation (a : Appraisal α n) : Evaluation α := ⟨a.point.toGrid, a.value⟩

/-- The appraisals that lead from one tally to another, in their order.
The weights under which they were made are left open. -/
inductive Problem.Appraises (p : Problem α n) : Tally α → List (Appraisal α n) → Tally α → Prop
  | nil (t : Tally α) : Appraises p t [] t
  | cons {t u v : Tally α} {w : α} {x : Point α n} {a : Appraisal α n}
      {as : List (Appraisal α n)} :
      p.appraise w x t = .ok a u → Appraises p u as v → Appraises p t (a :: as) v

namespace Problem

variable {p : Problem α n} {t u v : Tally α} {w : α} {x : Point α n} {a : Appraisal α n}
variable {as bs : List (Appraisal α n)}

theorem Appraises.single (h : p.appraise w x t = .ok a u) : p.Appraises t [a] u :=
  .cons h (.nil u)

theorem Appraises.trans (h₁ : p.Appraises t as u) (h₂ : p.Appraises u bs v) :
    p.Appraises t (as ++ bs) v := by
  induction h₁ with
  | nil => exact h₂
  | cons ha _ ih => exact .cons ha (ih h₂)

/-- What is put on record are the evaluations of the appraisals. -/
theorem Appraises.evaluations (h : p.Appraises t as u) :
    u.evaluations.toList = t.evaluations.toList ++ as.map Appraisal.evaluation := by
  induction h with
  | nil => simp
  | cons ha _ ih =>
    simp only [appraise, violationAt, bind_eq_ok, pure_eq_ok, objectiveAt_eq_ok,
      Counting.inSearch_eq_ok] at ha
    obtain ⟨f, _, ⟨-, rfl⟩, violation, _, ⟨counters, -, rfl⟩, rfl, rfl⟩ := ha
    simp [ih, Appraisal.evaluation]

/-- An appraisal holds the merit that its own values make up. -/
theorem merit_of_appraise (h : p.appraise w x t = .ok a u) :
    a.merit = merit w a.value a.violation := by
  simp only [appraise, bind_eq_ok, pure_eq_ok] at h
  obtain ⟨f, _, -, violation, _, -, rfl, -⟩ := h
  rfl

/-- It is made at the point that was asked for. -/
theorem point_of_appraise (h : p.appraise w x t = .ok a u) : a.point = x := by
  simp only [appraise, bind_eq_ok, pure_eq_ok] at h
  obtain ⟨f, _, -, violation, _, -, rfl, -⟩ := h
  rfl

end Problem

namespace MeshSearch

variable {P : Type} {ρ : Type} {p : Problem α n} {o : Options α} {st : StateOn α n P}
variable {s t : Session α ρ (StateOn α n P)}

/-! ## The scan -/

section

omit [Scalar α]

/-- The part of the state that a scan leaves alone. -/
structure SameButFor (o : Options α) (st st' : StateOn α n P) : Prop where
  point : st'.point = st.point
  value : st'.value = st.value
  violation : st'.violation = st.violation
  merit : st'.merit = st.merit
  weight : st'.weight = st.weight
  mesh : st'.mesh = st.mesh
  streak : st'.streak = st.streak
  tolerance : st'.tolerance = st.tolerance
  slope : o.estimateSlope = false → st'.slope = st.slope

theorem SameButFor.refl (o : Options α) (st : StateOn α n P) : SameButFor o st st :=
  ⟨rfl, rfl, rfl, rfl, rfl, rfl, rfl, rfl, fun _ => rfl⟩

theorem SameButFor.trans {st₁ st₂ st₃ : StateOn α n P} (h₁ : SameButFor o st₁ st₂)
    (h₂ : SameButFor o st₂ st₃) : SameButFor o st₁ st₃ where
  point := h₂.point.trans h₁.point
  value := h₂.value.trans h₁.value
  violation := h₂.violation.trans h₁.violation
  merit := h₂.merit.trans h₁.merit
  weight := h₂.weight.trans h₁.weight
  mesh := h₂.mesh.trans h₁.mesh
  streak := h₂.streak.trans h₁.streak
  tolerance := h₂.tolerance.trans h₁.tolerance
  slope ho := (h₂.slope ho).trans (h₁.slope ho)

theorem SameButFor.noteDecrease (o : Options α) (d : Heading n) (st : StateOn α n P) :
    SameButFor o st (noteDecrease d st) :=
  ⟨rfl, rfl, rfl, rfl, rfl, rfl, rfl, rfl, fun _ => rfl⟩

end

theorem SameButFor.noteSlope (ho : o.estimateSlope) (slope : α) (st : StateOn α n P) :
    SameButFor o st (noteSlope slope st) :=
  ⟨rfl, rfl, rfl, rfl, rfl, rfl, rfl, rfl, fun h => absurd ho (by simp [h])⟩

/-- The best trial after some appraisals, in view of one before: each of
them that is below the bar takes its place. -/
def bestTrial (st : StateOn α n P) (best : Option (Appraisal α n)) (as : List (Appraisal α n)) :
    Option (Appraisal α n) :=
  as.foldl (fun best a => if lt a.merit (bar st best) then some a else best) best

/-- It is the one before or one of the new ones, which then is below the
bar. -/
theorem bestTrial_cases [OrderedScalar α] (st : StateOn α n P) (best : Option (Appraisal α n))
    (as : List (Appraisal α n)) :
    bestTrial st best as = best ∨
      ∃ a ∈ as, bestTrial st best as = some a ∧ lt a.merit (bar st best) := by
  induction as generalizing best with
  | nil => exact .inl rfl
  | cons a as ih =>
    rw [bestTrial, List.foldl_cons, ← bestTrial]
    split
    · rename_i hlt
      rcases ih (some a) with heq | ⟨b, hb, heq, hlt'⟩
      · exact .inr ⟨a, by simp, heq, hlt⟩
      · exact .inr ⟨b, by simp [hb], heq, lt_trans hlt' hlt⟩
    · rcases ih best with heq | ⟨b, hb, heq, hlt'⟩
      · exact .inl heq
      · exact .inr ⟨b, by simp [hb], heq, hlt'⟩

/-- Where there was none before, it is one that beats the incumbent. -/
theorem lt_of_bestTrial [OrderedScalar α] {as : List (Appraisal α n)} {a : Appraisal α n}
    (h : bestTrial st none as = some a) : a ∈ as ∧ lt a.merit st.merit := by
  rcases bestTrial_cases st none as with heq | ⟨b, hb, heq, hlt⟩
  · cases heq.symm.trans h
  · obtain rfl := Option.some.inj (heq.symm.trans h)
    exact ⟨hb, hlt⟩

/-- The slope on record after some appraisals, where slopes are estimated: each
of them is taken into the running maximum. -/
def slopeAfter (o : Options α) (st : StateOn α n P) (slope : Option α)
    (as : List (Appraisal α n)) : Option α :=
  if o.estimateSlope then
    as.foldl (fun slope a => some (greatest (slope.getD zero) (slopeTo st a.value))) slope
  else slope

theorem slopeAfter_cons (o : Options α) (st : StateOn α n P) (slope : Option α)
    (a : Appraisal α n) (as : List (Appraisal α n)) :
    slopeAfter o st slope (a :: as) = slopeAfter o st (slopeAfter o st slope [a]) as := by
  unfold slopeAfter
  split <;> rfl

variable [Coordinates α P]

/-- **What a scan does:** it makes the trials along some first headings, along
all of them unless it finds something, and finds the best of them. -/
theorem scan_trials {ds : List (Heading n)} {best found : Option (Appraisal α n)}
    (h : scan p o st ds best s = .ok found t) :
    SameButFor o s.state t.state ∧
      (s.state.improved = best.isSome → t.state.improved = found.isSome) ∧
      ∃ ds' as, ds' <+: ds ∧ (found = none → ds' = ds) ∧
        List.Forall₂ (fun d a => trialPoint st d = .ok a.point) ds' as ∧
        p.Appraises s.tally as t.tally ∧
        (∀ a ∈ as, a.merit = merit st.weight a.value a.violation) ∧
        found = bestTrial st best as ∧ t.state.slope = slopeAfter o st s.state.slope as := by
  induction ds generalizing s best with
  | nil =>
    simp only [scan, pure_eq_ok] at h
    obtain ⟨rfl, rfl⟩ := h
    refine ⟨.refl o _, id, [], [], List.prefix_rfl, fun _ => rfl, .nil, .nil _, by simp, rfl, ?_⟩
    unfold slopeAfter
    split <;> rfl
  | cons d ds ih =>
    simp only [scan, bind_eq_ok, demand_eq_ok, evaluate_eq_ok] at h
    obtain ⟨x, _, ⟨hx, rfl⟩, a, _, ⟨tally, ha, rfl⟩, h⟩ := h
    have hmerit := Problem.merit_of_appraise ha
    have hpoint : trialPoint st d = .ok a.point := by rw [hx, Problem.point_of_appraise ha]
    -- a slope that is noted changes nothing else that matters here
    obtain ⟨u, hsame, htally, himproved, hslope, h⟩ : ∃ u : Session α ρ (StateOn α n P),
        SameButFor o s.state u.state ∧ u.tally = tally ∧
          u.state.improved = s.state.improved ∧
          u.state.slope = slopeAfter o st s.state.slope [a] ∧
          (if lt a.merit (bar st best) then do
              modifyState (noteDecrease d)
              if o.greedy then scan p o st ds (some a) else pure (some a)
            else scan p o st ds best : Step α ρ (StateOn α n P) _) u = .ok found t := by
      split at h
      · rename_i ho
        simp only [bind_eq_ok, modifyState_eq_ok] at h
        obtain ⟨_, _, rfl, h⟩ := h
        refine ⟨_, ?_, ?_, ?_, ?_, h⟩
        · exact .noteSlope ho _ s.state
        · rfl
        · rfl
        · rw [slopeAfter, if_pos ho]
          rfl
      · rename_i ho
        refine ⟨s.withTally tally, .refl o _, rfl, rfl, ?_, h⟩
        rw [slopeAfter, if_neg ho]
        rfl
    have hfirst : p.Appraises s.tally [a] u.tally := htally ▸ .single ha
    split at h
    · rename_i hlt
      have htaken (as : List (Appraisal α n)) :
          bestTrial st best (a :: as) = bestTrial st (some a) as := by
        rw [bestTrial, List.foldl_cons, if_pos hlt, bestTrial]
      simp only [bind_eq_ok, modifyState_eq_ok] at h
      obtain ⟨_, _, rfl, h⟩ := h
      have hsame' := hsame.trans (.noteDecrease o d u.state)
      split at h
      · -- a greedy scan goes on, with this trial as the best one
        obtain ⟨hrest, himproved', ds', as, hds, hall, hpoints, has, hmerits, hfound, hslope'⟩ :=
          ih h
        refine ⟨hsame'.trans hrest, fun _ => himproved' rfl, d :: ds', a :: as,
          List.cons_prefix_cons.2 ⟨rfl, hds⟩, fun hf => by rw [hall hf], .cons hpoint hpoints,
          hfirst.trans has, List.forall_mem_cons.2 ⟨hmerit, hmerits⟩, ?_, ?_⟩
        · rw [hfound, htaken]
        · rw [hslope', slopeAfter_cons o st s.state.slope, ← hslope]
          rfl
      · -- any other ends here
        simp only [pure_eq_ok] at h
        obtain ⟨rfl, rfl⟩ := h
        have hfound : some a = none → [d] = d :: ds := fun hnone => absurd hnone (by simp)
        exact ⟨hsame', fun _ => rfl, [d], [a], List.cons_prefix_cons.2 ⟨rfl, List.nil_prefix⟩,
          hfound, .cons hpoint .nil, hfirst, by simpa using hmerit, (htaken []).symm, hslope⟩
    · rename_i hlt
      obtain ⟨hrest, himproved', ds', as, hds, hall, hpoints, has, hmerits, hfound, hslope'⟩ :=
        ih h
      refine ⟨hsame.trans hrest, fun hs => himproved' (himproved.trans hs), d :: ds', a :: as,
        List.cons_prefix_cons.2 ⟨rfl, hds⟩, fun hf => by rw [hall hf], .cons hpoint hpoints,
        hfirst.trans has, List.forall_mem_cons.2 ⟨hmerit, hmerits⟩, ?_, ?_⟩
      · rw [hfound, bestTrial, bestTrial, List.foldl_cons, if_neg hlt]
      · rw [hslope', slopeAfter_cons o st s.state.slope, hslope]

/-- **What a scan finds** is the best trial after all it has appraised,
whether or not it has gone through all headings. -/
theorem scan_bestTrial {ds : List (Heading n)} {best found : Option (Appraisal α n)}
    (h : scan p o st ds best s = .ok found t) :
    SameButFor o s.state t.state ∧
      (s.state.improved = best.isSome → t.state.improved = found.isSome) ∧
      ∃ as, p.Appraises s.tally as t.tally ∧
        (∀ a ∈ as, a.merit = merit st.weight a.value a.violation) ∧
        found = bestTrial st best as := by
  obtain ⟨hsame, himproved, _, as, -, -, -, has, hmerits, hfound, -⟩ := scan_trials h
  exact ⟨hsame, himproved, as, has, hmerits, hfound⟩

/-! ## The poll -/

variable [Includes α n P]

omit [Coordinates α P] in
theorem succeed_eq_ok {a : Appraisal α n} {v : Unit} (h : succeed a s = .ok v t) :
    t.tally = s.tally ∧ ∃ mesh, widened s.state.mesh (streakUp s.state.streak).toNat = .ok mesh ∧
      t.state = { moveTo a s.state with mesh } := by
  simp only [succeed, bind_eq_ok, modifyState_eq_ok, getState_eq_ok, demand_eq_ok] at h
  obtain ⟨_, _, rfl, _, _, ⟨rfl, rfl⟩, mesh, _, ⟨hmesh, rfl⟩, rfl⟩ := h
  exact ⟨rfl, mesh, hmesh, rfl⟩

/-- The weight after a failure at a state. -/
def weightAfterFailure (st : StateOn α n P) : α :=
  if lt zero st.violation then raiseWeight st.weight else st.weight

omit [Coordinates α P] [Includes α n P] in
theorem fail_eq_ok {v : Unit} (h : fail s = .ok v t) :
    t.tally = s.tally ∧
      ∃ mesh, narrowed s.state.mesh (streakDown s.state.streak).natAbs = .ok mesh ∧
        t.state =
          { s.state with
            streak := streakDown s.state.streak, mesh, weight := weightAfterFailure s.state } := by
  simp only [fail, bind_eq_ok, modifyState_eq_ok, getState_eq_ok, demand_eq_ok] at h
  obtain ⟨_, _, rfl, _, _, ⟨rfl, rfl⟩, mesh, _, ⟨hmesh, rfl⟩, _, _, rfl, h⟩ := h
  split at h
  · rename_i hviolation
    have hweight : weightAfterFailure s.state = raiseWeight s.state.weight := if_pos hviolation
    rw [hweight]
    split at h
    · simp only [bind_eq_ok, report_eq_ok, modifyState_eq_ok] at h
      obtain ⟨_, _, rfl, rfl⟩ := h
      exact ⟨rfl, mesh, hmesh, rfl⟩
    · simp only [modifyState_eq_ok] at h
      subst h
      exact ⟨rfl, mesh, hmesh, rfl⟩
  · rename_i hviolation
    have hweight : weightAfterFailure s.state = s.state.weight := if_neg hviolation
    rw [hweight]
    simp only [pure_eq_ok] at h
    obtain ⟨-, rfl⟩ := h
    exact ⟨rfl, mesh, hmesh, rfl⟩

/-- A poll that moves to a trial. -/
structure Success (o : Options α) (st : StateOn α n P) (a : Appraisal α n)
    (st' : StateOn α n P) : Prop where
  improved : st'.improved
  point : st'.point = Includes.ofPoint a.point
  value : st'.value = a.value
  violation : st'.violation = a.violation
  weight : st'.weight = st.weight
  streak : st'.streak = streakUp st.streak
  mesh : ∃ mesh, widened st.mesh (streakUp st.streak).toNat = .ok mesh ∧ st'.mesh = clamped o mesh

/-- A poll that moves nowhere. -/
structure Failure (o : Options α) (st st' : StateOn α n P) : Prop where
  improved : st'.improved = false
  point : st'.point = st.point
  value : st'.value = st.value
  violation : st'.violation = st.violation
  weight : st'.weight = weightAfterFailure st
  streak : st'.streak = streakDown st.streak
  mesh : ∃ mesh, narrowed st.mesh (streakDown st.streak).natAbs = .ok mesh ∧
    st'.mesh = clamped o mesh

/-- What a poll does: it appraises under the weight it begins with, and
moves to the best trial, if there is one. -/
structure Polled (p : Problem α n) (o : Options α) (s t : Session α ρ (StateOn α n P)) : Prop where
  merit : t.state.merit = merit t.state.weight t.state.value t.state.violation
  tolerance : t.state.tolerance = s.state.tolerance
  slope : o.estimateSlope = false → t.state.slope = s.state.slope
  cases : ∃ as, p.Appraises s.tally as t.tally ∧
    (∀ a ∈ as, a.merit = DirectSearch.merit s.state.weight a.value a.violation) ∧
    ((∃ a, bestTrial s.state none as = some a ∧ Success o s.state a t.state) ∨
      bestTrial s.state none as = none ∧ Failure o s.state t.state)

omit [Coordinates α P] in
theorem Polled.outcome (h : Polled p o s t) :
    (∃ a, Success o s.state a t.state) ∨ Failure o s.state t.state := by
  obtain ⟨as, -, -, ⟨a, -, hsuccess⟩ | ⟨-, hfailure⟩⟩ := h.cases
  · exact .inl ⟨a, hsuccess⟩
  · exact .inr hfailure

omit [Coordinates α P] in
/-- A poll that moves has beaten the incumbent. -/
theorem Polled.moves [OrderedScalar α] (h : Polled p o s t) :
    ∃ as, p.Appraises s.tally as t.tally ∧
      (∀ a ∈ as, a.merit = DirectSearch.merit s.state.weight a.value a.violation) ∧
      ((∃ a ∈ as, lt a.merit s.state.merit ∧ Success o s.state a t.state) ∨
        Failure o s.state t.state) := by
  obtain ⟨as, has, hmerits, ⟨a, hbest, hsuccess⟩ | ⟨-, hfailure⟩⟩ := h.cases
  · obtain ⟨ha, hlt⟩ := lt_of_bestTrial hbest
    exact ⟨as, has, hmerits, .inl ⟨a, ha, hlt, hsuccess⟩⟩
  · exact ⟨as, has, hmerits, .inr hfailure⟩

omit [Coordinates α P] in
/-- A poll that has improved has moved to a trial. -/
theorem Polled.success [OrderedScalar α] (h : Polled p o s t) (hi : t.state.improved) :
    ∃ as, p.Appraises s.tally as t.tally ∧
      (∀ a ∈ as, a.merit = DirectSearch.merit s.state.weight a.value a.violation) ∧
      ∃ a ∈ as, lt a.merit s.state.merit ∧ Success o s.state a t.state := by
  obtain ⟨as, has, hmerits, hsuccess | hfailure⟩ := h.moves
  · exact ⟨as, has, hmerits, hsuccess⟩
  · rw [hfailure.improved] at hi
    cases hi

omit [Coordinates α P] in
/-- A poll that has not improved has failed. -/
theorem Polled.failure (h : Polled p o s t) (hi : t.state.improved = false) :
    Failure o s.state t.state := by
  rcases h.outcome with ⟨a, hsuccess⟩ | hfailure
  · rw [hsuccess.improved] at hi
    cases hi
  · exact hfailure

/-- **What a poll can do.** -/
theorem poll_polled {directions : Directions α} {r : PollReport α n}
    (h : poll p o directions s = .ok r t) : Polled p o s t := by
  simp only [poll, bind_eq_ok, getState_eq_ok, modifyState_eq_ok] at h
  obtain ⟨_, _, ⟨rfl, rfl⟩, _, _, rfl, found, u, hscan, h⟩ := h
  obtain ⟨hsame, himproved, as, has, hmerits, hfound⟩ := scan_bestTrial hscan
  have hslope : o.estimateSlope = false → u.state.slope = s.state.slope := fun ho =>
    (hsame.slope ho).trans (by simp [beginPoll, ho])
  cases found with
  | some a =>
    simp only [bind_eq_ok, countIteration_eq_ok, modifyState_eq_ok, draw_eq_ok, getState_eq_ok,
      pure_eq_ok] at h
    obtain ⟨_, v, hsucceed, _, _, rfl, _, _, rfl, q, _, ⟨-, rfl⟩, _, _, rfl, _, _, ⟨rfl, rfl⟩,
      rfl, rfl⟩ := h
    obtain ⟨htally, mesh, hmesh, hv⟩ := succeed_eq_ok hsucceed
    rw [hsame.mesh, hsame.streak] at hmesh
    rw [← htally] at has
    refine ⟨rfl, (congrArg StateOn.tolerance hv).trans hsame.tolerance, fun ho =>
      (congrArg StateOn.slope hv).trans (hslope ho), as, has, hmerits, .inl ⟨a, hfound.symm, ?_⟩⟩
    exact
      { improved := (congrArg StateOn.improved hv).trans (himproved rfl)
        point := congrArg StateOn.point hv
        value := congrArg StateOn.value hv
        violation := congrArg StateOn.violation hv
        weight := (congrArg StateOn.weight hv).trans hsame.weight
        streak := (congrArg StateOn.streak hv).trans (congrArg streakUp hsame.streak)
        mesh := ⟨mesh, hmesh, congrArg (clamped o) (congrArg StateOn.mesh hv)⟩ }
  | none =>
    simp only [bind_eq_ok, countIteration_eq_ok, modifyState_eq_ok, draw_eq_ok, getState_eq_ok,
      pure_eq_ok] at h
    obtain ⟨_, v, hfail, _, _, rfl, _, _, rfl, q, _, ⟨-, rfl⟩, _, _, rfl, _, _, ⟨rfl, rfl⟩,
      rfl, rfl⟩ := h
    obtain ⟨htally, mesh, hmesh, hv⟩ := fail_eq_ok hfail
    have hweight : weightAfterFailure u.state = weightAfterFailure s.state := by
      rw [weightAfterFailure, weightAfterFailure, hsame.violation, hsame.weight]
      rfl
    rw [hsame.mesh, hsame.streak] at hmesh
    rw [← htally] at has
    refine ⟨rfl, (congrArg StateOn.tolerance hv).trans hsame.tolerance, fun ho =>
      (congrArg StateOn.slope hv).trans (hslope ho), as, has, hmerits, .inr ⟨hfound.symm, ?_⟩⟩
    exact
      { improved := (congrArg StateOn.improved hv).trans (himproved rfl)
        point := (congrArg StateOn.point hv).trans hsame.point
        value := (congrArg StateOn.value hv).trans hsame.value
        violation := (congrArg StateOn.violation hv).trans hsame.violation
        weight := (congrArg StateOn.weight hv).trans hweight
        streak := (congrArg StateOn.streak hv).trans (congrArg streakDown hsame.streak)
        mesh := ⟨mesh, hmesh, congrArg (clamped o) (congrArg StateOn.mesh hv)⟩ }

/-- The direction of the next poll is one that the search draws for the size
of the incumbent. -/
theorem direction_of_poll {directions : Directions α} {r : PollReport α n}
    (h : poll p o directions s = .ok r t) :
    ∃ k, directions (Coordinates.toGrid s.state.point).size k = .ok t.state.direction := by
  simp only [poll, bind_eq_ok, getState_eq_ok, modifyState_eq_ok] at h
  obtain ⟨_, _, ⟨rfl, rfl⟩, _, _, rfl, found, u, -, h⟩ := h
  cases found
  all_goals
    simp only [bind_eq_ok, countIteration_eq_ok, modifyState_eq_ok, draw_eq_ok, getState_eq_ok,
      pure_eq_ok] at h
    obtain ⟨_, _, -, _, _, rfl, _, _, rfl, q, _, ⟨hq, rfl⟩, _, _, rfl, _, _, ⟨rfl, rfl⟩, -,
      rfl⟩ := h
    exact ⟨_, hq⟩

/-! ## The first state -/

/-- The state that a search begins with. -/
structure First (p : Problem α n) (o : Options α) (start : Point α n) (t u : Tally α)
    (st : State α n) : Prop where
  appraised : ∃ a, p.appraise one start t = .ok a u ∧ st.point = a.point ∧ st.value = a.value ∧
    st.violation = a.violation
  merit : st.merit = merit st.weight st.value st.violation
  weight : st.weight = one
  mesh : st.mesh = startMesh p.lower p.upper
  streak : st.streak = 0
  tolerance : stallTolerance o st.value = .ok st.tolerance
  slope : st.slope = none
  improved : st.improved = false

theorem initial_first {directions : Directions α} {start : Point α n} {d d' : Desk α ρ}
    {st : State α n} (h : initial p o directions start d = .ok st d') :
    First p o start d.tally d'.tally st ∧ d'.iterations = d.iterations := by
  simp only [initial, bind_eq_ok, evaluate_eq_ok, draw_eq_ok, demand_eq_ok, pure_eq_ok] at h
  obtain ⟨a, _, ⟨tally, ha, rfl⟩, q, _, ⟨-, rfl⟩, tolerance, _, ⟨htolerance, rfl⟩, rfl, rfl⟩ := h
  refine ⟨?_, rfl⟩
  exact
    { appraised := ⟨a, ha, rfl, rfl, rfl⟩
      merit := Problem.merit_of_appraise ha
      weight := rfl, mesh := rfl, streak := rfl, tolerance := htolerance, slope := rfl
      improved := rfl }

/-! ## The turns of a run -/

section

variable {m : MeshSearch α n} {clock : Nat → α} {d : Desk α (Row α n)}
variable {s t : Session α (Row α n) (State α n)}

theorem turn_polled (h : m.method.Turns clock s t) : Polled m.problem m.options s t := by
  obtain ⟨r, u, hpoll, htally, hstate⟩ := h.exists_iterate
  obtain ⟨hmerit, htolerance, hslope, hcases⟩ := poll_polled hpoll
  rw [← hstate] at hmerit htolerance hslope hcases
  rw [← htally] at hcases
  exact ⟨hmerit, htolerance, hslope, hcases⟩

theorem start_first (h : m.method.start clock d = .ok s) :
    First m.problem m.options m.start d.tally s.tally s.state ∧ s.iterations = 0 := by
  obtain ⟨d', hinit, htally, hiterations⟩ := Method.exists_initial h
  obtain ⟨hfirst, hzero⟩ := initial_first hinit
  exact ⟨htally ▸ hfirst, hiterations.trans hzero⟩

end

/-! ## Searches on a line -/

/-- A search on a line from a point within bounds. There are three
directions to draw, which is enough for two polls. -/
def onLine (f : Float → Float) (x lower upper : Float) (s : Settings) : MeshSearch Float 1 where
  problem :=
    { name := .absent
      objective := fun _ g => .ok (f (g.entries.headD zero))
      block := none, blockSize := 0, inequalities := [], equalities := []
      start := .replicate 1 x, lower := .replicate 1 lower, upper := .replicate 1 upper
      constraintLower := .replicate 0 zero, constraintUpper := .replicate 0 zero }
  start := .replicate 1 x
  options := optionsOf s
  budgets :=
    { evaluations := .ok (some (.whole 200)), time := (s.get "max_time").toNumber
      iterations := (s.get "max_iter").toNumber? }
  directions := fun _ k =>
    if k < 3 then .ok (.ofList [one]) else .error .indexOutside

end MeshSearch

end DirectSearch
