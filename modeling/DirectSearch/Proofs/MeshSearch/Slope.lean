import DirectSearch.Proofs.Binary64.Differences
import DirectSearch.Proofs.MeshSearch.Stall
import DirectSearch.Proofs.MeshSearch.Trials
/-!
# Mesh search — what a stall says of the last poll

A poll that estimates slopes takes the slope to each of its trials into a
running maximum, which begins at zero. The search has stalled if the poll
has not improved and the maximum is within the tolerance. Such a poll has
made all `2n` trials, and none of them beats the incumbent. The maximum is
changed only by a slope above it, and an undefined slope is above nothing:
what a stall bounds are the slopes that are numbers (`stalls_iff`).

That is every slope where the incumbent's value and the mesh are finite and
no trial value is undefined. But a search around a lone defined value stalls
as well, and nothing is known of any slope there (`spike_stalls`).
-/

namespace DirectSearch

open Scalar OrderedScalar Session

namespace MeshSearch

/-! ## What a poll measures -/

section

variable {α : Type} [Scalar α] {n : Nat} {ρ : Type} {p : Problem α n} {o : Options α}
variable {s t : Session α ρ (State α n)}

/-- A poll that has looked along some first headings, and what it has found
there under the weight it began with. -/
structure Surveys (p : Problem α n) (s t : Session α ρ (State α n)) (ds : List (Heading n))
    (as : List (Appraisal α n)) : Prop where
  headings : ds <+: Heading.all n
  points : List.Forall₂ (fun d a => trialPoint s.state d = .ok a.point) ds as
  made : p.Appraises s.tally as t.tally
  merits : ∀ a ∈ as, a.merit = merit s.state.weight a.value a.violation

/-- A poll that has looked along all headings has made `2n` trials. -/
theorem Surveys.length {ds : List (Heading n)} {as : List (Appraisal α n)}
    (h : Surveys p s t ds as) (hds : ds = Heading.all n) : as.length = 2 * n := by
  rw [← h.points.length_eq, hds, Heading.length_all]

/-- The slope on record is a running maximum. -/
theorem slopeAfter_some (ho : o.estimateSlope) (st : State α n) (slope : α)
    (as : List (Appraisal α n)) :
    slopeAfter o st (some slope) as =
      some ((as.map fun a => slopeTo st a.value).foldl greatest slope) := by
  rw [slopeAfter, if_pos ho, List.foldl_map]
  induction as generalizing slope with
  | nil => rfl
  | cons a as ih => exact ih _

/-- What follows the scan leaves the slope alone. -/
theorem slope_settle (o : Options α) (directions : Directions α) (before : State α n)
    (found : Option (Appraisal α n)) (u : Session α ρ (State α n)) :
    (left (settle o directions before found) u).state.slope = u.state.slope := by
  let slope (s : Session α ρ (State α n)) : Option α := s.state.slope
  have hend (_ : Unit) : LeavesAlone slope (conclude (ρ := ρ) o directions before) :=
    leavesAlone_conclude slope (fun _ _ => rfl) (fun _ _ => rfl) (fun _ _ => rfl)
      (fun _ _ _ => rfl)
  change slope _ = slope u
  cases found with
  | some a =>
    rw [settle, left_bind hend]
    exact left_succeed slope (fun _ _ => rfl) u
  | none =>
    rw [settle, left_bind hend]
    exact leavesAlone_fail slope (fun _ _ => rfl) (fun _ _ => rfl) (fun _ _ => rfl)
      (fun _ _ => rfl) u

variable [OrderedScalar α]

/-- There is a best trial just where one beats the incumbent. -/
theorem bestTrial_eq_none_iff {st : State α n} {as : List (Appraisal α n)} :
    bestTrial st none as = none ↔ ∀ a ∈ as, ¬Beats a st := by
  refine ⟨fun hnone => ?_, bestTrial_eq_none⟩
  by_contra! hbeats
  obtain ⟨before, a, after, rfl, hbefore, ha⟩ := exists_first hbeats
  obtain ⟨b, hb, -⟩ := exists_bestTrial after hbefore ha
  cases hb.symm.trans hnone

/-- **What a poll measures.** It looks along all headings unless it
improves, it improves if a trial beats the incumbent, and the slope on record
is the greatest of those to its trials. -/
theorem poll_surveys {directions : Directions α} {r : PollReport α n}
    (ho : o.estimateSlope) (h : poll p o directions s = .ok r t) :
    ∃ ds as, Surveys p s t ds as ∧ (t.state.improved = false → ds = Heading.all n) ∧
      (t.state.improved = false ↔ ∀ a ∈ as, ¬Beats a s.state) ∧
      t.state.slope = some ((as.map fun a => slopeTo s.state a.value).foldl greatest zero) := by
  rw [poll_eq, headings_point] at h
  obtain ⟨found, u, hscan, hsettle⟩ := bind_eq_ok.1 h
  obtain ⟨-, himproved, ds, as, hds, hall, hpoints, hmade, hmerits, hfound, hslope⟩ :=
    scan_trials hscan
  have hstanding : standing (left (settle o directions s.state found) u) =
      (standing u).after found := standing_settle o directions s.state
  have hkept := slope_settle o directions s.state found u
  rw [left_of_ok hsettle] at hstanding hkept
  have htally : t.tally = u.tally := by
    cases found <;> exact congrArg Standing.tally hstanding
  have hfailed : t.state.improved = false ↔ found = none := by
    have himproved' : t.state.improved = u.state.improved := by
      cases found <;> exact congrArg Standing.improved hstanding
    rw [himproved', himproved rfl, Option.isSome_eq_false_iff, Option.isNone_iff_eq_none]
  refine ⟨ds, as, ⟨hds, hpoints, htally ▸ hmade, hmerits⟩, fun hi => hall (hfailed.1 hi), ?_, ?_⟩
  · rw [hfailed, hfound, bestTrial_eq_none_iff]
  · have hreset : (beginPoll o s.state).slope = some zero := by
      rw [beginPoll, if_pos ho]
    rw [hkept, hslope, ← slopeAfter_some ho, ← hreset]
    rfl

end

/-! ## At 64-bit floats -/

open Binary64 (IsNumber)

section

variable {n : Nat} {st : State Float n}

/-- The slope from a finite value over a finite mesh is a number unless it
leads to none. -/
theorem isNumber_slopeTo {v : Float} (hvalue : st.value.isFinite) (hmesh : st.mesh.isFinite)
    (hv : IsNumber v) : IsNumber (slopeTo st v) := by
  have hdifference := Binary64.isNumber_abs
    (Binary64.value_sub hv (Binary64.isFinite_iff.1 hvalue).1 (.inr hvalue)).1
  -- the divisor is finite, and at least the spacing of the floats above one
  have heps : 0 < Binary64.value (eps : Float) := Binary64.zero_lt_iff.1 (by decide +kernel)
  have hdivisor : (greatest st.mesh eps).isFinite ∧ 0 < Binary64.value (greatest st.mesh eps) := by
    unfold greatest
    split
    · exact ⟨by decide +kernel, heps⟩
    · rename_i hlt
      have hle : le eps st.mesh := le_of_not_lt (le_self_iff.2 (Binary64.isFinite_iff.1 hmesh).1)
        (by decide +kernel) hlt
      exact ⟨hmesh, heps.trans_le (Binary64.le_iff.1 hle).2.2⟩
  obtain ⟨hnumber, htop, hbot⟩ := Binary64.isFinite_iff.1 hdivisor.1
  exact (Binary64.isNumber_div hdifference hnumber hdivisor.2.ne' htop hbot).1

/-- **The stall test behind a turn** of the loop, in terms of the trials that
the turn has made. -/
theorem turn_hasStalled_iff {m : MeshSearch Float n} (ho : m.options.estimateSlope)
    {clock : Nat → Float} {s t : Session Float (Row Float n) (State Float n)}
    (h : m.method.Turns clock s t) :
    ∃ ds as, Surveys m.problem s t ds as ∧
      (HasStalled t.state ↔
        (ds = Heading.all n ∧ as.length = 2 * n) ∧ (∀ a ∈ as, ¬Beats a s.state) ∧
          le zero s.state.tolerance ∧
          ∀ a ∈ as, IsNumber (slopeTo s.state a.value) →
            le (slopeTo s.state a.value) s.state.tolerance) := by
  obtain ⟨r, u, hpoll, htally, hstate⟩ := h.exists_iterate
  obtain ⟨ds, as, hsurveys, hall, hfailed, hslope⟩ := poll_surveys ho hpoll
  rw [← hstate] at hall hfailed hslope
  have hflat : t.state.isFlat ↔ le zero s.state.tolerance ∧
      ∀ a ∈ as, IsNumber (slopeTo s.state a.value) →
        le (slopeTo s.state a.value) s.state.tolerance := by
    have hzero : le (zero : Float) zero := le_self_iff.2 Binary64.isNumber_zero
    rw [StateOn.isFlat, hslope, (turn_polled h).tolerance]
    refine (foldl_greatest_le_iff hzero _).trans (and_congr_right' ?_)
    rw [List.forall_mem_map]
    exact forall₂_congr fun a _ => imp_congr_left le_self_iff
  refine ⟨ds, as, ⟨hsurveys.headings, hsurveys.points, htally ▸ hsurveys.made, hsurveys.merits⟩,
    ?_⟩
  rw [HasStalled, hflat, hfailed]
  constructor
  · rintro ⟨hbeats, hrest⟩
    have hds := hall (hfailed.2 hbeats)
    exact ⟨⟨hds, hsurveys.length hds⟩, hbeats, hrest⟩
  · rintro ⟨-, hbeats, hrest⟩
    exact ⟨hbeats, hrest⟩

/-- **What a stall says.** Let slopes be estimated, and let the loop of a run
end behind at least one poll. It has stalled just where the last poll has
looked along all headings, none of its `2n` trials beats the incumbent it
began with, the tolerance is not negative, and every slope that is a number is
within it. Where the incumbent's value and the mesh are finite, that is the
slope to every trial value that is a number. -/
theorem stalls_iff {n : Nat} (m : MeshSearch Float n) (ho : m.options.estimateSlope)
    (clock : Nat → Float) (fuel : Nat) (d : Desk Float (Row Float n))
    (s₀ t : Session Float (Row Float n) (State Float n))
    (hstart : m.method.start clock d = .ok s₀) (hloop : m.method.loop clock fuel s₀ = .ok true t)
    (hpolled : t.iterations ≠ 0) :
    ∃ s ds as, m.method.Reaches clock d s ∧ m.method.Turns clock s t ∧
      Surveys m.problem s t ds as ∧
      (HasStalled t.state ↔
        (ds = Heading.all n ∧ as.length = 2 * n) ∧ (∀ a ∈ as, ¬Beats a s.state) ∧
          le zero s.state.tolerance ∧
          ∀ a ∈ as, IsNumber (slopeTo s.state a.value) →
            le (slopeTo s.state a.value) s.state.tolerance) ∧
      (HasStalled t.state → s.state.value.isFinite → s.state.mesh.isFinite →
        ∀ a ∈ as, IsNumber a.value → le (slopeTo s.state a.value) s.state.tolerance) := by
  -- the first session has made no poll, so that there is a last turn
  obtain ⟨s, hsteps, hturn⟩ : ∃ s, Relation.ReflTransGen (m.method.Turns clock) s₀ s ∧
      m.method.Turns clock s t := by
    rcases Relation.ReflTransGen.cases_tail (Method.exists_turns_of_loop hloop).1 with rfl | hlast
    · exact absurd (start_first hstart).2 hpolled
    · exact hlast
  obtain ⟨ds, as, hsurveys, hstalled⟩ := turn_hasStalled_iff ho hturn
  refine ⟨s, ds, as, ⟨s₀, hstart, hsteps⟩, hturn, hsurveys, hstalled, ?_⟩
  intro hstall hvalue hmesh a ha hnumber
  obtain ⟨-, -, -, hslopes⟩ := hstalled.1 hstall
  exact hslopes a ha (isNumber_slopeTo hvalue hmesh hnumber)

end

/-! ## Stalls in view of one point -/

/-- A search on a line from zero, with slopes estimated and two iterations to
spend. -/
def sloping (f : Float → Float) : MeshSearch Float 1 :=
  onLine f zero (-Extended.infinity) Extended.infinity (estimating.set "max_iter" (.whole 2))

/-- On level ground the search stalls behind its first poll. -/
theorem level_stalls :
    let m := sloping fun _ => one
    ∃ s t ds as, m.method.Turns (fun _ => zero) s t ∧ HasStalled t.state ∧
      (m.method.exhausted t).toOption = some false ∧ Surveys m.problem s t ds as ∧ as.length = 2 ∧
      ∀ a ∈ as, ¬Beats a s.state ∧ (IsNumber (slopeTo s.state a.value) →
        le (slopeTo s.state a.value) s.state.tolerance) := by
  intro m
  obtain ⟨s₀, hstart, h⟩ := Method.exists_start
    (show (m.method.start (fun _ => zero) (fresh .empty)).toOption.any (fun s =>
      let t := left (m.method.loop (fun _ => zero) 2) s
      EStateM.run' (m.method.loop (fun _ => zero) 2) s = some true ∧ t.iterations ≠ 0 ∧
        t.state.improved = false ∧ t.state.isFlat ∧
        (m.method.exhausted t).toOption = some false) by decide +kernel)
  obtain ⟨hended, hpolled, himproved, hflat, hexhausted⟩ := of_decide_eq_true h
  obtain ⟨s, ds, as, -, hturn, hsurveys, hstalled, -⟩ :=
    stalls_iff m rfl _ _ _ _ _ hstart (eq_ok_left hended) hpolled
  obtain ⟨⟨-, hlength⟩, hbeats, -, hslopes⟩ := hstalled.1 ⟨himproved, hflat⟩
  exact ⟨s, _, ds, as, hturn, ⟨himproved, hflat⟩, hexhausted, hsurveys, hlength, fun a ha =>
    ⟨hbeats a ha, hslopes a ha⟩⟩

/-- One at zero, and no number anywhere else. -/
def spike (x : Float) : Float := if same x zero then one else notANumber

/-- **A search can stall without knowing of any slope:** none of the trial
values is a number. -/
theorem spike_stalls :
    let m := sloping spike
    m.options.estimateSlope ∧
    ∃ s t, m.method.start (fun _ => zero) (fresh .empty) = .ok s ∧
      m.method.loop (fun _ => zero) 2 s = .ok true t ∧ t.iterations = 1 ∧ HasStalled t.state ∧
      (m.method.exhausted t).toOption = some false ∧ (t.evaluationsSince s.desk).length = 2 ∧
      ∀ e ∈ t.evaluationsSince s.desk, ¬le (slopeTo s.state e.value) s.state.tolerance := by
  intro m
  refine ⟨rfl, ?_⟩
  obtain ⟨s, hstart, h⟩ := Method.exists_start
    (show (m.method.start (fun _ => zero) (fresh .empty)).toOption.any (fun s =>
      let t := left (m.method.loop (fun _ => zero) 2) s
      EStateM.run' (m.method.loop (fun _ => zero) 2) s = some true ∧ t.iterations = 1 ∧
        t.state.improved = false ∧ t.state.isFlat ∧
        (m.method.exhausted t).toOption = some false ∧ (t.evaluationsSince s.desk).length = 2 ∧
        ∀ e ∈ t.evaluationsSince s.desk, ¬le (slopeTo s.state e.value) s.state.tolerance)
      by decide +kernel)
  obtain ⟨hended, hone, himproved, hflat, hrest⟩ := of_decide_eq_true h
  exact ⟨s, _, hstart, eq_ok_left hended, hone, ⟨himproved, hflat⟩, hrest⟩

end MeshSearch

end DirectSearch
