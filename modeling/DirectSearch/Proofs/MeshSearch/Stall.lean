import DirectSearch.Proofs.MeshSearch.Poll
import DirectSearch.Proofs.Scalar.Binary64
/-!
# Mesh search — when the status of a run is a stall

Where slopes are not estimated, none is ever known, and an unknown slope
counts as infinite. It is within the stall tolerance only if that is
infinite too. The tolerance is fixed by the first objective value and never
changes, so that such a run stalls at once or not at all
(`status_eq_stalled_iff`). It does stall where the first value is too large
for a finite tolerance, whatever the settings are.

Where slopes are estimated, the loop ends for a stall only behind a poll
that has not improved, but the status is decided by the slope alone. So the
status is a stall also where a budget ends a run behind a poll that has
improved a little, and in no other case that the loop does not call a stall
(`stalled_not_hasStalled_iff`).
-/

namespace DirectSearch

open Scalar Session

/-! ## Runs that end at once -/

namespace Method

variable {α : Type} [Scalar α] {n : Nat} {ρ σ ι : Type} {m : Method α n ρ σ ι} {clock : Nat → α}
variable {s t : Session α ρ σ} {fuel : Nat} {b : Bool}

/-- A loop that comes to an end has looked whether the method had
settled, and ends where it has. -/
theorem exists_settled_of_loop (h : m.loop clock fuel s = .ok b t) :
    ∃ settled, m.settled s = .ok settled ∧ (settled → t = s) := by
  obtain ⟨ended, hended, ht⟩ : ∃ ended, m.finished s = .ok ended ∧ (ended → t = s) := by
    cases fuel with
    | zero =>
      simp only [loop, demand_eq_ok] at h
      exact ⟨b, h.1, fun _ => h.2.symm⟩
    | succ fuel =>
      unfold loop at h
      split at h
      · cases h
      · cases h
        exact ⟨true, ‹_›, fun _ => rfl⟩
      · exact ⟨false, ‹_›, fun h => by cases h⟩
  simp only [finished, except_bind_eq_ok, except_pure_eq_ok] at hended
  obtain ⟨settled, hsettled, exhausted, -, rfl⟩ := hended
  exact ⟨settled, hsettled, fun hs => ht (by simp [hs])⟩

end Method

namespace MeshSearch

variable {α : Type} [Scalar α] {n : Nat}

/-! ## Unknown slopes -/

/-- The tests of a verdict, in their order. -/
theorem verdict_cases {o : Options α} {b : Budgets α} {s : Session α (Row α n) (State α n)}
    {exhausted : Bool} {status : Status} (h : verdict o b s exhausted = .ok status) :
    (s.state.isSmall o = .ok true ∧ status = .smallStep) ∨
      s.state.isSmall o = .ok false ∧
        (s.state.isFlat ∧ status = .stalled ∨
          s.state.isFlat = false ∧
            (exhausted ∧ b.status s.tally.counters.objective s.elapsed = .ok status ∨
              exhausted = false ∧ status = .unknown)) := by
  obtain ⟨small, hsmall, h⟩ := except_bind_eq_ok.1 h
  cases small with
  | true => exact .inl ⟨hsmall, (except_pure_eq_ok.1 h).symm⟩
  | false =>
    refine .inr ⟨hsmall, ?_⟩
    rw [if_neg Bool.false_ne_true] at h
    cases hflat : s.state.isFlat with
    | true =>
      rw [hflat, if_pos rfl] at h
      exact .inl ⟨rfl, (except_pure_eq_ok.1 h).symm⟩
    | false =>
      rw [hflat, if_neg Bool.false_ne_true] at h
      refine .inr ⟨rfl, ?_⟩
      cases exhausted with
      | true => exact .inl ⟨rfl, h⟩
      | false => exact .inr ⟨rfl, (except_pure_eq_ok.1 h).symm⟩

/-- The verdict on a session is a stall just where it is flat and the mesh
is not small. -/
theorem verdict_eq_stalled_iff {o : Options α} {b : Budgets α}
    {s : Session α (Row α n) (State α n)} {exhausted : Bool} {status : Status}
    (h : verdict o b s exhausted = .ok status) :
    status = .stalled ↔ s.state.isFlat ∧ s.state.isSmall o = .ok false := by
  rcases verdict_cases h with ⟨hsmall, rfl⟩ | ⟨hsmall, ⟨hflat, rfl⟩ | ⟨hflat, hrest⟩⟩
  · exact iff_of_false nofun fun h' => nomatch hsmall.symm.trans h'.2
  · exact iff_of_true rfl ⟨hflat, hsmall⟩
  · refine iff_of_false ?_ fun h' => by simp [hflat] at h'
    rcases hrest with ⟨-, hlimit⟩ | ⟨-, rfl⟩
    · rintro rfl
      exact Budgets.not_isSuccess_of_status hlimit rfl
    · nofun

/-- On flat ground a search that has not improved has settled. -/
theorem settled_of_isFlat {o : Options α} {st : State α n} {settled : Bool}
    (h : st.isSettled o = .ok settled) (himproved : st.improved = false) (hflat : st.isFlat) :
    settled := by
  unfold StateOn.isSettled at h
  cases hsmall : st.isSmall o with
  | error fault =>
    rw [hsmall] at h
    cases h
  | ok small =>
    rw [hsmall] at h
    obtain rfl := Except.ok.inj h
    simp [himproved, hflat]

/-- Without estimates the ground is flat just where the tolerance is
infinite. -/
theorem isFlat_of_slope_none {st : State α n} (h : st.slope = none) :
    st.isFlat = isInfinity st.tolerance := by
  rw [StateOn.isFlat, h]

variable {m : MeshSearch α n} {clock : Nat → α}
variable {s₀ s : Session α (Row α n) (State α n)}

/-- Tolerance and slope along a run that does not estimate slopes. -/
theorem turns_tolerance (ho : m.options.estimateSlope = false)
    (h : Relation.ReflTransGen (m.method.Turns clock) s₀ s) :
    s.state.tolerance = s₀.state.tolerance ∧ s.state.slope = s₀.state.slope := by
  induction h with
  | refl => exact ⟨rfl, rfl⟩
  | tail _ hturn ih =>
    have hpolled := turn_polled hturn
    rw [hpolled.tolerance, hpolled.slope ho]
    exact ih

/-- **When the status of a run is a stall,** slopes not being estimated:
the tolerance made up of the settings and the first value is infinite, and
the first mesh is not small. Such a run makes no iteration. In every other
run the status is another one. -/
theorem status_eq_stalled_iff {n : Nat} (m : MeshSearch Float n)
    (ho : m.options.estimateSlope = false) (clock : Nat → Float) (fuel : Nat)
    (d d' : Desk Float (Row Float n)) (report : Report Float n (Row Float n))
    (h : m.method.run clock fuel d = some ⟨.ok report, d'⟩) :
    ∃ s₀, m.method.start clock d = .ok s₀ ∧
      (report.status = .stalled ↔
        (stallTolerance m.options s₀.state.value).map isInfinity = .ok true ∧
          s₀.state.isSmall m.options = .ok false) ∧
      (report.status = .stalled → report.iterations = 0) := by
  obtain ⟨s₀, s, status, hstart, hloop, hverdict, rfl, -⟩ := Method.exists_loop_of_run h
  obtain ⟨hfirst, hzero⟩ := start_first hstart
  obtain ⟨htolerance, hslope⟩ := turns_tolerance ho (Method.exists_turns_of_loop hloop).1
  obtain ⟨exhausted, -, hverdict⟩ := except_bind_eq_ok.1 hverdict
  obtain ⟨settled, hsettled, hends⟩ := Method.exists_settled_of_loop hloop
  have hstatus := verdict_eq_stalled_iff hverdict
  rw [isFlat_of_slope_none (hslope.trans hfirst.slope), htolerance] at hstatus
  refine ⟨s₀, hstart, ?_⟩
  have hcondition : (stallTolerance m.options s₀.state.value).map isInfinity = .ok true ↔
      isInfinity s₀.state.tolerance := by
    rw [hfirst.tolerance]
    exact ⟨Except.ok.inj, congrArg _⟩
  rw [hcondition]
  by_cases hinfinite : isInfinity s₀.state.tolerance
  · -- the first session has settled already, and the loop ends there
    have hflat : s₀.state.isFlat := by
      rw [isFlat_of_slope_none hfirst.slope]
      exact hinfinite
    obtain rfl : s = s₀ := hends (settled_of_isFlat hsettled hfirst.improved hflat)
    exact ⟨hstatus, fun _ => hzero⟩
  · have hnever : status ≠ .stalled := fun hc => hinfinite (hstatus.1 hc).1
    exact ⟨⟨fun hc => absurd hc hnever, fun hc => absurd hc.1 hinfinite⟩,
      fun hc => absurd hc hnever⟩

/-- A search for a function of one value, without bounds and with no
iteration to spend. -/
def constantly (v : Float) : MeshSearch Float 1 :=
  onLine (fun _ => v) zero (-Extended.infinity) Extended.infinity
    ((Settings.default .mesh).set "max_iter" (.whole 0))

/-- **A run can stall with the default tolerances,** which are finite: the
value of its objective is infinite. -/
theorem constantly_infinity_stalls :
    let m := constantly Extended.infinity
    m.options.estimateSlope = false ∧
      (∃ a, m.options.absolute = .ok (.real a) ∧ m.options.relative = .ok (.real a) ∧
        isFinite a) ∧
      ∃ report d', m.method.run (fun _ => zero) 0 (Session.fresh .empty) = some ⟨.ok report, d'⟩ ∧
        report.status = .stalled := by
  refine ⟨rfl, ⟨SettingsKind.defaultTolerance, rfl, rfl, by decide +kernel⟩, ?_⟩
  have hreport : Method.reportsThat (·.status = .stalled)
      ((constantly Extended.infinity).method.run (fun _ => zero) 0 (Session.fresh .empty)) := by
    decide +kernel
  obtain ⟨report, d', hrun, hstalled⟩ := Method.exists_report hreport
  exact ⟨report, d', hrun, by simpa using hstalled⟩

/-- Where the objective has the value one, the same run does not stall. -/
theorem constantly_one_not_stalled :
    ∃ report d',
      (constantly one).method.run (fun _ => zero) 0 (Session.fresh .empty) =
        some ⟨.ok report, d'⟩ ∧
      report.status ≠ .stalled := by
  have hreport : Method.reportsThat (fun _ => true)
      ((constantly one).method.run (fun _ => zero) 0 (Session.fresh .empty)) := by
    decide +kernel
  obtain ⟨report, d', hrun, -⟩ := Method.exists_report hreport
  -- the tolerance that the value one gives is finite
  obtain ⟨s, hs, hfinite⟩ := Method.exists_start
    (show ((constantly one).method.start (fun _ => zero) (Session.fresh .empty)).toOption.any
      (fun s => ((stallTolerance (constantly one).options s.state.value).map isInfinity).toOption
        = some false) by decide +kernel)
  obtain ⟨s₀, hstart, hstalled, -⟩ := status_eq_stalled_iff _ rfl _ _ _ _ _ hrun
  obtain rfl : s = s₀ := Except.ok.inj (hs.symm.trans hstart)
  refine ⟨report, d', hrun, fun hc => ?_⟩
  simp [(hstalled.1 hc).1, Except.toOption] at hfinite

/-! ## Polls that have improved -/

/-- The stall test of the loop: a poll that has not improved, on flat
ground. -/
def HasStalled {P : Type} (st : StateOn α n P) : Prop := st.improved = false ∧ st.isFlat

/-- What ends a run behind a poll that has improved, if it is not a small
mesh, is a budget. -/
theorem exhausted_of_finished (h : m.method.finished s = .ok true) (himproved : s.state.improved)
    (hsmall : s.state.isSmall m.options = .ok false) : m.method.exhausted s = .ok true := by
  simp only [Method.finished, except_bind_eq_ok, except_pure_eq_ok] at h
  obtain ⟨settled, hsettled, exhausted, hexhausted, hor⟩ := h
  have hnot : settled = false := by
    simp only [method, StateOn.isSettled, hsmall, himproved] at hsettled
    exact (Except.ok.inj hsettled).symm
  simpa [hnot, hexhausted] using hor

/-- A run that has moved and stands on flat ground estimates slopes: one
that does not would have ended before its first poll. -/
theorem estimateSlope_of_improved {d : Desk α (Row α n)} {fuel : Nat}
    (hstart : m.method.start clock d = .ok s₀) (hloop : m.method.loop clock fuel s₀ = .ok true s)
    (himproved : s.state.improved) (hflat : s.state.isFlat) : m.options.estimateSlope := by
  by_contra ho
  have ho' : m.options.estimateSlope = false := by simpa using ho
  obtain ⟨hfirst, -⟩ := start_first hstart
  obtain ⟨htolerance, hslope⟩ := turns_tolerance ho' (Method.exists_turns_of_loop hloop).1
  obtain ⟨settled, hsettled, hends⟩ := Method.exists_settled_of_loop hloop
  have hflat₀ : s₀.state.isFlat := by
    rw [isFlat_of_slope_none hfirst.slope, ← htolerance,
      ← isFlat_of_slope_none (hslope.trans hfirst.slope)]
    exact hflat
  obtain rfl : s = s₀ := hends (settled_of_isFlat hsettled hfirst.improved hflat₀)
  rw [hfirst.improved] at himproved
  cases himproved

/-- **When the status of a run is a stall that its loop has not seen:** the
last poll has improved, by a slope within the tolerance, and the mesh is
not small. Then slopes are estimated, and what has ended the run is a
budget. -/
theorem stalled_not_hasStalled_iff {n : Nat} (m : MeshSearch Float n) (clock : Nat → Float)
    (fuel : Nat) (d d' : Desk Float (Row Float n)) (report : Report Float n (Row Float n))
    (h : m.method.run clock fuel d = some ⟨.ok report, d'⟩) :
    ∃ s, m.method.Reaches clock d s ∧ m.method.finished s = .ok true ∧
      report = m.method.reportOf s report.status ∧
      (report.status = .stalled ∧ ¬ HasStalled s.state ↔
        s.state.improved ∧ s.state.isFlat ∧ s.state.isSmall m.options = .ok false) ∧
      (report.status = .stalled → s.state.improved →
        m.options.estimateSlope ∧ m.method.exhausted s = .ok true) := by
  obtain ⟨s₀, s, status, hstart, hloop, hverdict, rfl, -⟩ := Method.exists_loop_of_run h
  obtain ⟨hturns, hfinished⟩ := Method.exists_turns_of_loop hloop
  obtain ⟨exhausted, -, hverdict⟩ := except_bind_eq_ok.1 hverdict
  have hstatus := verdict_eq_stalled_iff hverdict
  refine ⟨s, ⟨s₀, hstart, hturns⟩, hfinished, rfl, ⟨?_, ?_⟩, ?_⟩
  · rintro ⟨hstalled, hnot⟩
    obtain ⟨hflat, hsmall⟩ := hstatus.1 hstalled
    have himproved : s.state.improved := by
      by_contra hi
      exact hnot ⟨by simpa using hi, hflat⟩
    exact ⟨himproved, hflat, hsmall⟩
  · rintro ⟨himproved, hflat, hsmall⟩
    refine ⟨hstatus.2 ⟨hflat, hsmall⟩, fun hstalled => ?_⟩
    rw [hstalled.1] at himproved
    cases himproved
  · intro hstalled himproved
    obtain ⟨hflat, hsmall⟩ := hstatus.1 hstalled
    exact ⟨estimateSlope_of_improved hstart hloop himproved hflat,
      exhausted_of_finished hfinished himproved hsmall⟩

/-- Settings under which slopes are estimated, with one iteration to
spend. -/
def estimating : Settings :=
  ((Settings.default .mesh).set "estimate_slope" (.flag true)).set "max_iter" (.whole 1)

/-- A search for a function that falls, but by less than the default
tolerance for every step. -/
def barelyFalling : MeshSearch Float 1 :=
  onLine (fun x => one + 1e-9 * x) zero (-Extended.infinity) Extended.infinity estimating

theorem exists_run_barelyFalling :
    ∃ report d',
      barelyFalling.method.run (fun _ => zero) 1 (Session.fresh .empty) = some ⟨.ok report, d'⟩ ∧
      report.status = .stalled := by
  have hreport : Method.reportsThat (·.status = .stalled)
      (barelyFalling.method.run (fun _ => zero) 1 (Session.fresh .empty)) := by
    decide +kernel
  obtain ⟨report, d', hrun, hstalled⟩ := Method.exists_report hreport
  exact ⟨report, d', hrun, by simpa using hstalled⟩

/-- **A run can be reported as stalled behind a poll that has improved:** it
has spent its one iteration. -/
theorem barelyFalling_stalls :
    ∃ s report d', barelyFalling.method.Reaches (fun _ => zero) (Session.fresh .empty) s ∧
      barelyFalling.method.run (fun _ => zero) 1 (Session.fresh .empty) = some ⟨.ok report, d'⟩ ∧
      report = barelyFalling.method.reportOf s .stalled ∧ ¬ HasStalled s.state := by
  obtain ⟨report, d', hrun, hstalled⟩ := exists_run_barelyFalling
  obtain ⟨s₀, s, status, hstart, hloop, -, rfl, -⟩ := Method.exists_loop_of_run hrun
  obtain rfl : status = .stalled := hstalled
  -- the loop is followed to the session behind its only turn
  obtain ⟨s₀', hstart', himproved⟩ := Method.exists_start
    (show (barelyFalling.method.start (fun _ => zero) (Session.fresh .empty)).toOption.any
      (fun s => match barelyFalling.method.loop (fun _ => zero) 1 s with
        | .ok _ t => t.state.improved
        | .error _ _ => false) by decide +kernel)
  obtain rfl : s₀' = s₀ := Except.ok.inj (hstart'.symm.trans hstart)
  simp only [hloop] at himproved
  refine ⟨s, _, d', ⟨s₀', hstart, (Method.exists_turns_of_loop hloop).1⟩, hrun, rfl, fun h => ?_⟩
  rw [h.1] at himproved
  cases himproved

/-- The same run has spent a budget. -/
theorem barelyFalling_exhausted :
    ∃ s report d',
      barelyFalling.method.run (fun _ => zero) 1 (Session.fresh .empty) = some ⟨.ok report, d'⟩ ∧
      report = barelyFalling.method.reportOf s .stalled ∧
      (s.state.improved → barelyFalling.method.exhausted s = .ok true) := by
  obtain ⟨report, d', hrun, hstalled⟩ := exists_run_barelyFalling
  obtain ⟨s, -, -, hs, -, hbudget⟩ := stalled_not_hasStalled_iff _ _ _ _ _ _ hrun
  rw [hstalled] at hs
  exact ⟨s, report, d', hrun, hs, fun himproved => (hbudget hstalled himproved).2⟩

end MeshSearch

end DirectSearch
