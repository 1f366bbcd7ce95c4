import DirectSearch.Proofs.Binary64.Smallest
import DirectSearch.Proofs.MeshSearch.Poll
import DirectSearch.Proofs.Scalar.Binary64
/-!
# Mesh search — the merit of the incumbent

The incumbent of a search is one of the evaluations that its run has made,
and between polls its merit is the one under the weight in force
(`Accounted`). A poll compares under that weight only: what it accepts has
a lower merit, and the weight is raised by polls that accept nothing
(`Careful`). As long as the weight stays, the merit falls with every move;
and the merit does not fall where neither the value nor the violation does,
rounding being monotone. So no pair of the two comes back
(`merit_accounts`).
-/

namespace DirectSearch

open Scalar OrderedScalar Session

namespace MeshSearch

section

variable {α : Type} [Scalar α] {n : Nat} {ρ : Type}

/-- The books of a session are in order: the incumbent is one of the
evaluations made since the desk, and its merit is the one under the weight
in force. -/
structure Accounted (p : Problem α n) (d : Desk α ρ) (s : Session α ρ (State α n)) : Prop where
  merit : s.state.merit = merit s.state.weight s.state.value s.state.violation
  made : ∃ as, p.Appraises d.tally as s.tally ∧
    s.evaluationsSince d = as.map Appraisal.evaluation ∧
    ∃ a ∈ as, s.state.point = a.point ∧ s.state.value = a.value ∧ s.state.violation = a.violation

/-- What one session makes of the one before: it compares under the weight
of that one, and moves to a lower merit or nowhere. -/
structure Careful (p : Problem α n) (s t : Session α ρ (State α n)) : Prop where
  compared : ∃ as, p.Appraises s.tally as t.tally ∧
    (∀ a ∈ as, a.merit = DirectSearch.merit s.state.weight a.value a.violation) ∧
    (t.state.improved → ∃ a ∈ as, t.state.point = a.point ∧ t.state.value = a.value ∧
      t.state.violation = a.violation ∧ t.state.merit = a.merit)
  lowers : t.state.improved → lt t.state.merit s.state.merit ∧
    ¬ (le s.state.value t.state.value ∧ le s.state.violation t.state.violation)
  stays : t.state.improved = false → t.state.point = s.state.point ∧
    t.state.value = s.state.value ∧ t.state.violation = s.state.violation
  weight : t.state.weight ≠ s.state.weight → t.state.improved = false

/-- A turn that leaves the weight as it is. -/
def Steady (m : MeshSearch α n) (clock : Nat → α) (s t : Session α (Row α n) (State α n)) : Prop :=
  m.method.Turns clock s t ∧ t.state.weight = s.state.weight

variable {p : Problem α n} {o : Options α} {d : Desk α ρ} {s t : Session α ρ (State α n)}
variable {as : List (Appraisal α n)}

theorem evaluationsSince_of_appraises (h : p.Appraises d.tally as s.tally) :
    s.evaluationsSince d = as.map Appraisal.evaluation := by
  rw [evaluationsSince, h.evaluations, ← Array.length_toList, List.drop_left]

/-! ## Polls -/

variable [OrderedScalar α]

theorem Polled.accounted (h : Polled p o s t) (hs : Accounted p d s) : Accounted p d t := by
  refine ⟨h.merit, ?_⟩
  obtain ⟨before, hbefore, -, b, hb, hpoint, hvalue, hviolation⟩ := hs.made
  obtain ⟨as, has, -, hcases⟩ := h.moves
  have hall := hbefore.trans has
  refine ⟨before ++ as, hall, evaluationsSince_of_appraises hall, ?_⟩
  -- after a failure the incumbent is the evaluation that it was before
  rcases hcases with ⟨a, ha, -, hsuccess⟩ | hfailure
  · exact ⟨a, by simp [ha], hsuccess.point, hsuccess.value, hsuccess.violation⟩
  · exact ⟨b, by simp [hb], hfailure.point.trans hpoint, hfailure.value.trans hvalue,
      hfailure.violation.trans hviolation⟩

/-- A move lowers the merit, and leaves the weight. -/
theorem Polled.lowers (h : Polled p o s t) (hi : t.state.improved) :
    t.state.weight = s.state.weight ∧ lt t.state.merit s.state.merit := by
  obtain ⟨as, -, hmerits, a, ha, hlt, hsuccess⟩ := h.success hi
  refine ⟨hsuccess.weight, ?_⟩
  rw [h.merit, hsuccess.weight, hsuccess.value, hsuccess.violation, ← hmerits a ha]
  exact hlt

variable {m : MeshSearch α n} {clock : Nat → α}

/-- Along steady turns the merit stays or falls. -/
theorem steady_merit {d : Desk α (Row α n)} {s t : Session α (Row α n) (State α n)}
    (h : Relation.ReflTransGen (m.Steady clock) s t) (hs : Accounted m.problem d s) :
    Accounted m.problem d t ∧ t.state.weight = s.state.weight ∧
      (t.state.merit = s.state.merit ∨ lt t.state.merit s.state.merit) := by
  induction h with
  | refl => exact ⟨hs, rfl, .inl rfl⟩
  | @tail u v _ hsteady ih =>
    obtain ⟨hturn, hweight⟩ := hsteady
    obtain ⟨hu, hweight', hmerit⟩ := ih
    have hpolled := turn_polled hturn
    refine ⟨hpolled.accounted hu, hweight.trans hweight', ?_⟩
    cases hi : v.state.improved with
    | true =>
      have hlt := (hpolled.lowers hi).2
      exact .inr (hmerit.elim (fun he => he ▸ hlt) (lt_trans hlt))
    | false =>
      -- the same pair under the same weight has the same merit
      have hfailure := hpolled.failure hi
      rw [hpolled.merit, hweight, hfailure.value, hfailure.violation, ← hu.merit]
      exact hmerit

/-! ## Every session of a run -/

theorem reaches_accounted {d : Desk α (Row α n)} {s : Session α (Row α n) (State α n)}
    (h : m.method.Reaches clock d s) : Accounted m.problem d s := by
  refine h.induction (fun s hs => ?_) fun s t _ hs ht => (turn_polled ht).accounted hs
  obtain ⟨hfirst, -⟩ := start_first hs
  obtain ⟨a, ha, hpoint, hvalue, hviolation⟩ := hfirst.appraised
  refine ⟨hfirst.merit, [a], .single ha, evaluationsSince_of_appraises (.single ha), a, ?_⟩
  exact ⟨List.mem_singleton_self a, hpoint, hvalue, hviolation⟩

end

/-! ## At 64-bit floats -/

section

open Binary64

variable {w f f' v v' : Float}

/-- The merit grows with the value and with the violation, where it is a
number. -/
theorem merit_mono (hw : 0 ≤ value w) (hf : value f ≤ value f') (hv : value v ≤ value v')
    (h : IsNumber (merit w f v)) (h' : IsNumber (merit w f' v')) :
    value (merit w f v) ≤ value (merit w f' v') := by
  have hwv := (isNumber_of_add h).2
  have hwv' := (isNumber_of_add h').2
  rw [merit, merit, value_add h, value_add h', value_mul hwv, value_mul hwv']
  exact rounded_mono (add_le_add hf (rounded_mono (mul_le_mul_of_nonneg_left hv hw)))

/-- A lower merit is not that of a value and a violation at least as
large. -/
theorem not_le_of_merit_lt (hw : 0 ≤ value w) (h : lt (merit w f' v') (merit w f v)) :
    ¬ (le f f' ∧ le v v') := by
  rintro ⟨hf, hv⟩
  obtain ⟨hnew, hold, hlt⟩ := Binary64.lt_iff.1 h
  obtain ⟨-, -, hf⟩ := Binary64.le_iff.1 hf
  obtain ⟨-, -, hv⟩ := Binary64.le_iff.1 hv
  exact absurd (merit_mono hw hf hv hold hnew) (not_le.2 hlt)

/-- Where the merit is a number, so are its parts. -/
theorem isNumber_of_merit (h : IsNumber (merit w f v)) : IsNumber f ∧ IsNumber v :=
  ⟨(isNumber_of_add h).1, (isNumber_of_mul (isNumber_of_add h).2).2⟩

theorem one_le_raiseWeight (hw : 1 ≤ value w) : 1 ≤ value (raiseWeight w) := by
  unfold raiseWeight least
  split
  · have hcap : le (one : Float) weightCap := by decide +kernel
    obtain ⟨-, -, hcap⟩ := Binary64.le_iff.1 hcap
    rwa [value_one] at hcap
  · have htwo : value two ≤ value (two * w) := le_value_mul (value_two ▸ zero_lt_two) hw
    rw [value_two] at htwo
    exact one_le_two.trans htwo

variable {n : Nat} {m : MeshSearch Float n} {clock : Nat → Float} {d : Desk Float (Row Float n)}
variable {s t u : Session Float (Row Float n) (State Float n)}

/-- The weight never falls below one. -/
theorem reaches_weight (h : m.method.Reaches clock d s) : 1 ≤ value s.state.weight := by
  obtain ⟨s₀, hstart, hsteps⟩ := h
  induction hsteps with
  | refl =>
    rw [(start_first hstart).1.weight]
    exact value_one.ge
  | tail _ hturn ih =>
    rcases (turn_polled hturn).outcome with ⟨a, hsuccess⟩ | hfailure
    · rw [hsuccess.weight]
      exact ih
    · rw [hfailure.weight, weightAfterFailure]
      split
      · exact one_le_raiseWeight ih
      · exact ih

theorem turn_careful (hs : m.method.Reaches clock d s) (h : m.method.Turns clock s t) :
    Careful m.problem s t := by
  have hpolled := turn_polled h
  have hs' := (reaches_accounted hs).merit
  constructor
  · obtain ⟨as, has, hmerits, hcases⟩ := hpolled.moves
    refine ⟨as, has, hmerits, fun hi => ?_⟩
    rcases hcases with ⟨a, ha, -, hsuccess⟩ | hfailure
    · refine ⟨a, ha, hsuccess.point, hsuccess.value, hsuccess.violation, ?_⟩
      rw [hpolled.merit, hsuccess.weight, hsuccess.value, hsuccess.violation, hmerits a ha]
    · rw [hfailure.improved] at hi
      cases hi
  · intro hi
    obtain ⟨hweight, hlt⟩ := hpolled.lowers hi
    refine ⟨hlt, ?_⟩
    rw [hpolled.merit, hs', hweight] at hlt
    exact not_le_of_merit_lt (zero_le_one.trans (reaches_weight hs)) hlt
  · intro hi
    have hfailure := hpolled.failure hi
    exact ⟨hfailure.point, hfailure.value, hfailure.violation⟩
  · intro hweight
    by_contra hi
    exact hweight (hpolled.lowers (by simpa using hi)).1

/-- **The books of a run.** The incumbent's merit is the one under the
weight in force, and the incumbent an evaluation of the run. Every turn is
careful: so a move lowers the merit, the value or the violation, and the
weight changes only where nothing was accepted. As long as the weight
stays, no move leads to a pair of value and violation that the incumbent
has had. -/
theorem merit_accounts (m : MeshSearch Float n) (clock : Nat → Float)
    (d : Desk Float (Row Float n)) (s : Session Float (Row Float n) (State Float n))
    (hs : m.method.Reaches clock d s) :
    Accounted m.problem d s ∧
    (∀ t, m.method.Turns clock s t → Careful m.problem s t) ∧
    ∀ u t, Relation.ReflTransGen (m.Steady clock) s u → m.Steady clock u t → t.state.improved →
      ¬ (le s.state.value t.state.value ∧ le s.state.violation t.state.violation) ∧
        (t.state.value, t.state.violation) ≠ (s.state.value, s.state.violation) := by
  have hs' := reaches_accounted hs
  refine ⟨hs', fun t ht => turn_careful hs ht, fun u t hsteps hlast hi => ?_⟩
  obtain ⟨-, hweight, hmerit⟩ := steady_merit hsteps hs'
  have hpolled := turn_polled hlast.1
  -- the last move lowers a merit that was not above the first one
  have hlt : lt t.state.merit s.state.merit := by
    have hmove := (hpolled.lowers hi).2
    exact hmerit.elim (fun he => he ▸ hmove) (lt_trans hmove)
  rw [hpolled.merit, hs'.merit, hlast.2, hweight] at hlt
  have hnot := not_le_of_merit_lt (zero_le_one.trans (reaches_weight hs)) hlt
  refine ⟨hnot, fun hpair => hnot ?_⟩
  obtain ⟨hvalue, hviolation⟩ := Prod.mk.inj hpair
  obtain ⟨hf, hv⟩ := isNumber_of_merit (Binary64.lt_iff.1 hlt).2.1
  rw [hvalue, hviolation]
  exact ⟨le_self_iff.2 hf, le_self_iff.2 hv⟩

/-- A search for the least square from the point two, between zero and
one. -/
def outside : MeshSearch Float 1 := onLine square two zero one (.default .mesh)

/-- Its first turn moves, and to a lower merit. -/
theorem outside_merit_lt :
    ∃ s t, outside.method.Reaches (fun _ => zero) (Session.fresh .empty) s ∧
      outside.method.Turns (fun _ => zero) s t ∧ t.state.improved ∧
      lt t.state.merit s.state.merit := by
  let moves (s : Session Float (Row Float 1) (State Float 1)) : Bool :=
    match outside.method.turn (fun _ => zero) s with
    | .ok _ t => t.state.improved
    | .error _ _ => false
  obtain ⟨s, hs, hmoves⟩ := Method.exists_start
    (show (outside.method.start (fun _ => zero) (Session.fresh .empty)).toOption.any moves by
      decide +kernel)
  unfold moves at hmoves
  split at hmoves
  · rename_i t ht
    have hreaches := Method.Reaches.of_start hs
    obtain ⟨-, hcareful, -⟩ := merit_accounts outside _ _ s hreaches
    exact ⟨s, t, hreaches, ht, hmoves, ((hcareful t ht).lowers hmoves).1⟩
  · cases hmoves

end

end MeshSearch

end DirectSearch
