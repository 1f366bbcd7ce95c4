import DirectSearch.Proofs.Binary64.Finite
import DirectSearch.Proofs.MeshSearch.Merit
import DirectSearch.Proofs.Sorting.FirstLeast
/-!
# Mesh search — the best of all evaluations

Where there are no constraints and no finite bounds, nothing is ever
violated: the constraints are not asked for, the weight stays one, and
merits compare as the values do (`lt_merit`). What a poll moves to is the
best trial after all of its trials, whether it is greedy or has ended early.
So the incumbent is the first least of all that was evaluated, if what has
no defined value is left out (`firstLeast_bestTrial`), and this goes through
the polls of a whole run (`Plain`).
-/

namespace DirectSearch

open Scalar OrderedScalar Session Sorting

section

variable {α : Type} [Scalar α] {n : Nat} {p : Problem α n} {t u : Tally α}
variable {as : List (Appraisal α n)}

/-- Where there are no constraints, nothing is violated or asked for. -/
theorem Problem.Appraises.unviolated (hp : p.isUnconstrained) (h : p.Appraises t as u) :
    (∀ a ∈ as, a.violation = zero) ∧ u.counters.constraint = t.counters.constraint := by
  induction h with
  | nil => simp
  | cons ha _ ih =>
    simp only [Problem.appraise, Problem.violationAt, Problem.violationOf, hp, bind_eq_ok,
      pure_eq_ok, Problem.objectiveAt_eq_ok, Counting.inSearch_eq_ok, if_true] at ha
    obtain ⟨v, _, ⟨-, rfl⟩, violation, _, ⟨counters, ⟨rfl, rfl⟩, rfl⟩, rfl, rfl⟩ := ha
    exact ⟨List.forall_mem_cons.2 ⟨rfl, ih.1⟩, ih.2⟩

end

namespace MeshSearch

variable {n : Nat}

/-- The incumbent as an evaluation. -/
def StateOn.evaluation {α : Type} (st : State α n) : Evaluation α := ⟨st.point.toGrid, st.value⟩

/-- The evaluation that a poll would move to after some best trial. -/
def leading {α : Type} (st : State α n) (best : Option (Appraisal α n)) : Evaluation α :=
  best.elim st.evaluation Appraisal.evaluation

/-! ## A poll -/

/-- Merits without a penalty compare as values. -/
theorem lt_merit (v w : Float) : lt (merit one v zero) (merit one w zero) = lt v w := by
  have hpenalty : (one * zero : Float) = zero := by decide +kernel
  rw [merit, merit, hpenalty, Bool.eq_iff_iff]
  exact Binary64.lt_add_zero

/-- **The best trial** after some appraisals, or the incumbent if there is
none, is the first least evaluation so far. -/
theorem firstLeast_bestTrial {st : State Float n} {best : Option (Appraisal Float n)}
    {es : List (Evaluation Float)} {as : List (Appraisal Float n)}
    (hst : st.merit = merit one st.value zero)
    (hbest : ∀ a ∈ best, a.merit = merit one a.value zero)
    (has : ∀ a ∈ as, a.merit = merit one a.value zero)
    (h : FirstLeast Evaluation.value (leading st best) (es.filter fun e => le e.value e.value)) :
    FirstLeast Evaluation.value (leading st (bestTrial st best as))
      ((es ++ as.map Appraisal.evaluation).filter fun e => le e.value e.value) := by
  induction as generalizing best es with
  | nil => simpa [bestTrial] using h
  | cons a as ih =>
    obtain ⟨ha, has⟩ := List.forall_mem_cons.1 has
    have hbar : bar st best = merit one (leading st best).value zero := by
      cases best with
      | none => exact hst
      | some b => exact hbest b rfl
    have hnext := h.next a.evaluation
    have heq : (if lt a.evaluation.value (leading st best).value then a.evaluation
          else leading st best)
        = leading st (if lt a.merit (bar st best) then some a else best) := by
      rw [ha, hbar, lt_merit, apply_ite (leading st)]
      rfl
    rw [heq] at hnext
    rw [List.map_cons, List.append_cons, bestTrial, List.foldl_cons]
    refine ih ?_ has hnext
    split
    · simpa using ha
    · exact hbest

/-! ## Whole runs -/

/-- **A session of a run on a problem without constraints:** its incumbent
is the first least of the evaluations with a defined value, nothing is
violated, and the constraints have not been asked for. -/
structure Plain (d : Desk Float (Row Float n)) (s : Session Float (Row Float n) (State Float n)) :
    Prop where
  firstLeast : FirstLeast Evaluation.value s.state.evaluation
    ((s.evaluationsSince d).filter fun e => le e.value e.value)
  violation : s.state.violation = zero
  weight : s.state.weight = one
  constraint : s.tally.counters.constraint = d.tally.counters.constraint

variable {m : MeshSearch Float n} {clock : Nat → Float} {d : Desk Float (Row Float n)}
variable {s t : Session Float (Row Float n) (State Float n)}

/-- The first state has made one evaluation. -/
theorem start_plain (hp : m.problem.isUnconstrained)
    (hstart : ∀ v, m.problem.objective d.tally.counters.askObjective m.start.toGrid = .ok v →
      le v v) (h : m.method.start clock d = .ok s) : Plain d s := by
  obtain ⟨hfirst, -⟩ := start_first h
  obtain ⟨a, ha, hpoint, hvalue, hviolation⟩ := hfirst.appraised
  have has : m.problem.Appraises d.tally [a] s.tally := .single ha
  obtain ⟨hzero, hconstraint⟩ := has.unviolated hp
  have hself : a.point = m.start ∧ le a.value a.value := by
    simp only [Problem.appraise, bind_eq_ok, pure_eq_ok, Problem.objectiveAt_eq_ok] at ha
    obtain ⟨v, _, ⟨hv, -⟩, _, _, -, rfl, -⟩ := ha
    exact ⟨rfl, hstart v hv⟩
  refine ⟨?_, hviolation.trans (hzero a (by simp)), hfirst.weight, hconstraint⟩
  rw [evaluationsSince_of_appraises has, StateOn.evaluation, hpoint, hvalue]
  exact ⟨[], [], List.filter_cons_of_pos hself.2, by simp, by simp⟩

/-- **A poll** keeps it so. -/
theorem turn_plain (hp : m.problem.isUnconstrained) (hreaches : m.method.Reaches clock d s)
    (hs : Plain d s) (h : m.method.Turns clock s t) : Plain d t := by
  have hpolled := turn_polled h
  obtain ⟨hmerit, before, hbefore, hmade, -⟩ := reaches_accounted hreaches
  obtain ⟨as, has, hmerits, hcases⟩ := hpolled.cases
  obtain ⟨hzero, hconstraint⟩ := has.unviolated hp
  have hmade' : t.evaluationsSince d = s.evaluationsSince d ++ as.map Appraisal.evaluation := by
    rw [evaluationsSince_of_appraises (hbefore.trans has), hmade, List.map_append]
  have hall : ∀ a ∈ as, a.merit = merit one a.value zero := fun a ha => by
    rw [hmerits a ha, hzero a ha, hs.weight]
  rw [hs.weight, hs.violation] at hmerit
  have hfirst : FirstLeast Evaluation.value (leading s.state none)
      ((s.evaluationsSince d).filter fun e => le e.value e.value) := hs.firstLeast
  have hleads := firstLeast_bestTrial hmerit (by simp) hall hfirst
  rw [← hmade'] at hleads
  have hnone : weightAfterFailure s.state = one := by
    have hlt : ¬lt (zero : Float) zero := OrderedScalar.lt_irrefl zero
    rw [weightAfterFailure, hs.violation, if_neg hlt, hs.weight]
  rcases hcases with ⟨a, hbest, hsuccess⟩ | ⟨hbest, hfailure⟩
  · rw [hbest] at hleads
    have hevaluation : t.state.evaluation = a.evaluation := by
      rw [StateOn.evaluation, hsuccess.point, hsuccess.value]
      rfl
    exact
      { firstLeast := hevaluation ▸ hleads
        violation := hsuccess.violation.trans (hzero a (lt_of_bestTrial hbest).1)
        weight := hsuccess.weight.trans hs.weight
        constraint := hconstraint.trans hs.constraint }
  · rw [hbest] at hleads
    have hevaluation : t.state.evaluation = s.state.evaluation := by
      rw [StateOn.evaluation, hfailure.point, hfailure.value, StateOn.evaluation]
    exact
      { firstLeast := hevaluation ▸ hleads
        violation := hfailure.violation.trans hs.violation
        weight := hfailure.weight.trans hnone
        constraint := hconstraint.trans hs.constraint }

theorem reaches_plain (hp : m.problem.isUnconstrained)
    (hstart : ∀ v, m.problem.objective d.tally.counters.askObjective m.start.toGrid = .ok v →
      le v v) (h : m.method.Reaches clock d s) : Plain d s :=
  h.induction (fun _ hs => start_plain hp hstart hs) fun _ _ hreaches hs ht =>
    turn_plain hp hreaches hs ht

/-- **Without constraints, a mesh search finds the first least of all that it
evaluates.** Let a problem have no constraints and no finite bound, and let
its objective be defined at the start; it may depend on how often it was
asked, and be undefined or infinite later on. Then the incumbent of every
session that a run comes to is the first of the least evaluations of this
run, those without a defined value left out; nothing is violated, the weight
is one, and the constraints have not been asked for. The same holds of what
the run reports. -/
theorem unconstrained_run_reports_firstLeast {n : Nat} (m : MeshSearch Float n)
    (hp : m.problem.isUnconstrained) (clock : Nat → Float) (d : Desk Float (Row Float n))
    (hstart : ∀ v, m.problem.objective d.tally.counters.askObjective m.start.toGrid = .ok v →
      v.isNaN = false) :
    (∀ s, m.method.Reaches clock d s →
      FirstLeast Evaluation.value ⟨s.state.point.toGrid, s.state.value⟩
        ((s.evaluationsSince d).filter fun e => !e.value.isNaN) ∧
      s.state.violation = zero ∧ s.state.weight = one ∧
      s.tally.counters.constraint = d.tally.counters.constraint) ∧
    ∀ fuel report d', m.method.run clock fuel d = some ⟨.ok report, d'⟩ →
      FirstLeast Evaluation.value ⟨report.solution.toGrid, report.objective⟩
        ((d'.evaluationsSince d).filter fun e => !e.value.isNaN) ∧
      report.violation = some zero ∧
      report.constraintCount = d.tally.counters.constraint := by
  have hdefined (e : Evaluation Float) : le e.value e.value = !e.value.isNaN := by
    rw [Bool.eq_iff_iff, Bool.not_eq_true']
    exact le_self_iff.trans Binary64.isNumber_iff
  have hplain {s : Session Float (Row Float n) (State Float n)} (hs : m.method.Reaches clock d s) :
      Plain d s := by
    refine reaches_plain hp (fun v hv => ?_) hs
    exact le_self_iff.2 (Binary64.isNumber_iff.2 (hstart v hv))
  refine ⟨fun s hs => ?_, fun fuel report d' hrun => ?_⟩
  · obtain ⟨hfirst, hviolation, hweight, hconstraint⟩ := hplain hs
    simp only [hdefined] at hfirst
    exact ⟨hfirst, hviolation, hweight, hconstraint⟩
  · obtain ⟨s, status, hs, rfl, rfl⟩ := Method.exists_reaches_of_run hrun
    obtain ⟨hfirst, hviolation, -, hconstraint⟩ := hplain hs
    simp only [hdefined] at hfirst
    exact ⟨hfirst, congrArg some hviolation, hconstraint⟩

/-- A search on the whole line for an objective that is two at the start, one
above it and undefined below. -/
def halfDefined : MeshSearch Float 1 :=
  { onLine (fun x => if lt x one then zero / zero else if lt one x then one else two) one
      (-Extended.infinity) Extended.infinity (.default .mesh) with
    budgets := ⟨.ok (some (.whole 200)), .ok (.real one), .ok (some (.whole 2))⟩ }

/-- A run of two iterations finds the first value of one. -/
theorem halfDefined_reports_firstLeast : ∃ report d',
    halfDefined.method.run (fun _ => zero) 2 (Session.fresh .empty) = some ⟨.ok report, d'⟩ ∧
      FirstLeast Evaluation.value ⟨report.solution.toGrid, report.objective⟩
        ((d'.evaluationsSince (Session.fresh .empty : Desk Float (Row Float 1))).filter
          fun e => !e.value.isNaN) ∧
      report.violation = some zero ∧ report.constraintCount = 0 := by
  have hreport : Method.reportsThat (fun _ => true)
      (halfDefined.method.run (fun _ => zero) 2 (Session.fresh .empty)) := by
    decide +kernel
  obtain ⟨report, d', hrun, -⟩ := Method.exists_report hreport
  have hstart (v : Float) (hv : halfDefined.problem.objective
      (Session.fresh .empty : Desk Float (Row Float 1)).tally.counters.askObjective
        halfDefined.start.toGrid = .ok v) : v.isNaN = false := by
    obtain rfl := Except.ok.inj hv
    decide +kernel
  have hunconstrained : halfDefined.problem.isUnconstrained := by
    decide +kernel
  exact ⟨report, d', hrun,
    (unconstrained_run_reports_firstLeast halfDefined hunconstrained _ _ hstart).2 _ _ _ hrun⟩

end MeshSearch

end DirectSearch
