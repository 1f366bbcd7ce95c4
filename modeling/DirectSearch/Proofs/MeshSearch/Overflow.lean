import DirectSearch.Proofs.Binary64.Negation
import DirectSearch.Proofs.Binary64.Scaling
import DirectSearch.Proofs.MeshSearch.Reliable
import DirectSearch.Proofs.Search.Truncation
/-!
# Mesh search — where a search fails by itself

A search that is given what it needs fails only where the size of a new mesh is
out of range (`Reliable.poll_eq_error`). At 64-bit floats a failure divides the
mesh by a root of two. The degree of the root is one at least, and has to be as
large as the largest floats to be out of range. But a success multiplies the
mesh by a power of four, and the 512th in a row is not a float any more,
although the mesh itself may be infinite long before. So a run ends with a fault
just where the loop comes to a poll that goes out of range in one of these ways
(`faults_iff`), and some searches do under the settings that they have by
default (`sinking_overflows`).
-/

namespace DirectSearch

open Scalar Session

namespace MeshSearch

/-! ## At 64-bit floats -/

section

open Binary64

variable {n : Nat} {mesh : Float} {k : Nat} {fault : Fault}

/-- A success fails with the 512th power of four. -/
theorem widened_eq_error : widened mesh k = .error fault ↔ fault = .overflow ∧ 512 ≤ k := by
  have hfinite : isFinite (power (ofInt 4 : Float) k) ↔ k < 512 := isFinite_power_four_iff k
  unfold widened
  simp only [hfinite]
  split
  · exact iff_of_false nofun (by omega)
  · rw [Except.error.injEq, eq_comm]
    exact (and_iff_left (by omega)).symm

/-- A failure fails with a degree that is no float. -/
theorem narrowed_eq_error :
    narrowed mesh k = .error fault ↔ fault = .overflow ∧ (2 ^ 54 - 1) * 2 ^ 970 ≤ k := by
  have hfinite : isFinite (ofInt k : Float) ↔ k < (2 ^ 54 - 1) * 2 ^ 970 := isFinite_ofNat_iff k
  unfold narrowed Number.scalarOfInt
  simp only [hfinite]
  split
  · exact iff_of_false nofun (by omega)
  · change Except.error _ = _ ↔ _
    rw [Except.error.injEq, eq_comm]
    exact (and_iff_left (by omega)).symm

/-- **The end of the range**: the streak cannot go on by one more success, or
by one more failure. -/
def NoRoom (streak : ℤ) (success : Bool) : Prop :=
  if success then 511 ≤ streak else streak ≤ 1 - (2 ^ 54 - 1) * 2 ^ 970

/-- A streak that is not as long as that has room. -/
theorem not_noRoom {streak : ℤ} {success : Bool} (h : streak.natAbs < 511) :
    ¬ NoRoom streak success := by
  have hlarge : (2 ^ 10 : ℤ) ≤ (2 ^ 54 - 1) * 2 ^ 970 :=
    calc (2 ^ 10 : ℤ) ≤ 2 ^ 970 := pow_le_pow_right₀ (by norm_num) (by norm_num)
      _ ≤ (2 ^ 54 - 1) * 2 ^ 970 := le_mul_of_one_le_left (by positivity) (by norm_num)
  unfold NoRoom
  split <;> omega

theorem meshAfter_eq_error {st : State Float n} {success : Bool} :
    meshAfter st success = .error fault ↔ fault = .overflow ∧ NoRoom st.streak success := by
  unfold meshAfter NoRoom
  cases success with
  | true =>
    simp only [if_true, widened_eq_error, streakUp]
    exact and_congr_right' (by omega)
  | false =>
    simp only [Bool.false_eq_true, if_false, narrowed_eq_error, streakDown]
    exact and_congr_right' (by omega)

/-- The next poll ends with a mesh out of range. -/
def Overflows {ρ : Type} (m : MeshSearch Float n) (s : Session Float ρ (State Float n)) : Prop :=
  NoRoom s.state.streak (left (poll m.problem m.options m.directions) s).state.improved

theorem meshFails_iff {ρ : Type} {m : MeshSearch Float n} {s : Session Float ρ (State Float n)} :
    MeshFails m s ↔ Overflows m s :=
  meshAfter_eq_error.trans (and_iff_right rfl)

/-- **How a mesh search can fail by itself.** Let a search at 64-bit floats be
given what it needs. From any session with a vector to go along, be it one of a
run or put together by hand, a poll divides no exponent by zero, and it ends
with a fault just where it succeeds after 511 successes in a row, or fails after
more failures than there are floats for; the fault then is an overflow. A run
always starts, has such a vector at every session, and ends with a fault just
where the loop goes on to a session whose poll does. -/
theorem faults_iff (m : MeshSearch Float n) (h : m.Reliable) (clock : Nat → Float)
    (d : Desk Float (Row Float n)) :
    (∀ s : Session Float (Row Float n) (State Float n), HasDirection s →
      streakDown s.state.streak ≠ 0 ∧
      ∀ fault, (∃ t, poll m.problem m.options m.directions s = .error fault t) ↔
        fault = .overflow ∧ Overflows m s) ∧
    ∃ s₀, m.method.start clock d = .ok s₀ ∧
      (∀ s, m.method.Reaches clock d s → HasDirection s) ∧
      ∀ fault, (∃ fuel d', m.method.run clock fuel d = some ⟨.error fault, d'⟩) ↔
        fault = .overflow ∧ ∃ s, Relation.ReflTransGen (m.method.GoesTo clock) s₀ s ∧
          m.method.finished s = .ok false ∧ Overflows m s := by
  have hpoll (s : Session Float (Row Float n) (State Float n)) (hs : HasDirection s)
      (fault : Fault) : (∃ t, poll m.problem m.options m.directions s = .error fault t) ↔
        fault = .overflow ∧ Overflows m s := (h.poll_eq_error hs).trans meshAfter_eq_error
  obtain ⟨s₀, hs₀⟩ := h.exists_start clock d
  refine ⟨fun s hs => ⟨?_, hpoll s hs⟩, s₀, hs₀, fun s hs => h.hasDirection hs, fun fault => ?_⟩
  · unfold streakDown
    omega
  have hreached {s : Session Float (Row Float n) (State Float n)}
      (hs : Relation.ReflTransGen (m.method.GoesTo clock) s₀ s) : HasDirection s :=
    h.hasDirection ⟨s₀, hs₀, Relation.ReflTransGen.mono (fun _ _ hstep => hstep.2) _ _ hs⟩
  rw [Method.run_faults_iff hs₀ h.exists_finished h.exists_verdict]
  constructor
  · rintro ⟨s, t, hs, hgoes, hfault⟩
    obtain ⟨rfl, hover⟩ := (hpoll s (hreached hs) fault).1 ⟨t, hfault⟩
    exact ⟨rfl, s, hs, hgoes, hover⟩
  · rintro ⟨rfl, s, hs, hgoes, hover⟩
    obtain ⟨t, ht⟩ := (hpoll s (hreached hs) .overflow).2 ⟨rfl, hover⟩
    exact ⟨s, t, hs, hgoes, ht⟩

/-! ## A search that goes on to improve -/

/-- The settings that a mesh search has by default, for three variables. The
objective is lower each time it is asked for. -/
def sinking : MeshSearch Float 3 where
  problem :=
    { name := .absent
      objective := fun c _ => .ok (-ofInt c.objective)
      block := none, blockSize := 0, inequalities := [], equalities := []
      start := .replicate 3 zero
      lower := .replicate 3 (-Extended.infinity), upper := .replicate 3 Extended.infinity
      constraintLower := .replicate 0 zero, constraintUpper := .replicate 0 zero }
  start := .replicate 3 zero
  options := optionsOf (.default .mesh)
  budgets :=
    { evaluations := .ok (some (.whole 600))
      time := ((Settings.default .mesh).get "max_time").toNumber
      iterations := ((Settings.default .mesh).get "max_iter").toNumber? }
  directions := fun _ _ => .ok (Point.toGrid (.replicate 3 one))

theorem sinking_reliable : sinking.Reliable where
  objective c _ := ⟨_, rfl⟩
  constraints _ _ := ⟨.replicate 0 zero, fun hcount => absurd hcount (by decide)⟩
  directions _ := ⟨_, rfl⟩
  absolute := ⟨_, rfl⟩
  relative := ⟨_, rfl⟩
  smallStep := nofun
  budgets := ⟨⟨_, rfl⟩, ⟨_, rfl⟩, ⟨_, rfl⟩⟩

/-- The first poll of the sinking search ends, as there is room. -/
theorem sinking_first_poll : ∃ s₀, sinking.method.start (fun _ => zero) (fresh .empty) = .ok s₀ ∧
    ∃ r t, poll sinking.problem sinking.options sinking.directions s₀ = .ok r t := by
  obtain ⟨hpoll, s₀, hs₀, hdirection, -⟩ :=
    faults_iff sinking sinking_reliable (fun _ => zero) (fresh .empty)
  refine ⟨s₀, hs₀, ?_⟩
  obtain ⟨-, hfaults⟩ := hpoll s₀ (hdirection s₀ (.of_start hs₀))
  cases hend : poll sinking.problem sinking.options sinking.directions s₀ with
  | ok r t => exact ⟨r, t, rfl⟩
  | error fault t =>
    obtain ⟨-, hover⟩ := (hfaults fault).1 ⟨t, hend⟩
    rw [Overflows, (start_first hs₀).1.streak] at hover
    exact absurd hover (not_noRoom (by decide))

/-- What the polls of the sinking search leave, `k` of them. -/
structure Sunk (k : ℕ) (s : Session Float (Row Float 3) (State Float 3)) : Prop where
  streak : s.state.streak = k
  direction : s.state.direction = Point.toGrid (.replicate 3 one)
  weight : s.state.weight = one
  merit : s.state.merit = merit one (-ofInt (k + 1)) zero
  slope : s.state.slope = none
  tolerance : isInfinity s.state.tolerance = false
  asked : s.tally.counters.objective = k + 1
  clock : s.started = zero ∧ s.elapsed = zero

variable {s : Session Float (Row Float 3) (State Float 3)}

/-- Whole numbers go down in floats as well. -/
theorem lt_neg_succ (h : k + 1 < 2 ^ 53) : lt (-ofInt (k + 1) : Float) (-ofInt k) := by
  change (-ofInt (k + 1) : Float).lt (-ofInt k)
  rw [lt_neg_neg]
  exact ofNat_lt_ofNat k.lt_succ_self h

/-- What is appraised has a value of its own, and violates nothing. -/
theorem sinking_appraise (w : Float) (x : Point Float 3) (t : Tally Float) :
    ∃ a u, sinking.problem.appraise w x t = .ok a u ∧
      u.counters.objective = t.counters.objective + 1 ∧
      a.value = -ofInt (t.counters.objective + 1) ∧ a.violation = zero ∧
      a.merit = DirectSearch.merit w a.value zero := by
  have hfree : sinking.problem.isUnconstrained := by decide +kernel
  obtain ⟨v, hv⟩ : ∃ v : Float, v = -ofInt (t.counters.objective + 1) := ⟨_, rfl⟩
  obtain ⟨u, hu⟩ : ∃ u : Tally Float,
      u = ⟨t.counters.askObjective, t.evaluations.push ⟨x.toGrid, v⟩⟩ := ⟨_, rfl⟩
  have hvalue : sinking.problem.objectiveAt x.toGrid t = .ok v u :=
    Problem.objectiveAt_eq_ok.2 ⟨congrArg _ hv.symm, hu.symm⟩
  refine ⟨⟨⟨v, zero, DirectSearch.merit w v zero⟩, x⟩, u, ?_, by rw [hu]; rfl, hv, rfl, rfl⟩
  simp only [Problem.appraise, Problem.violationAt, bind_eq_ok, pure_eq_ok]
  exact ⟨v, u, hvalue, zero, u, Counting.inSearch_eq_ok.2
    ⟨_, Problem.violationOf_of_isUnconstrained hfree, rfl⟩, rfl, rfl⟩

/-- The first trial of a poll ends it. -/
theorem Sunk.scan_improves (h : Sunk k s) (hk : k + 2 < 2 ^ 53) :
    ∃ a u, scan sinking.problem sinking.options s.state (Heading.all 3) none
        (s.withState (beginPoll sinking.options s.state)) = .ok (some a) u ∧
      u.tally.counters.objective = k + 2 ∧ u.drawn = s.drawn ∧
      a.value = -ofInt (k + 2) ∧ a.violation = zero := by
  obtain ⟨x, hx⟩ : ∃ x, trialPoint s.state ⟨0, true⟩ = .ok x :=
    ⟨_, trialPoint_point s.state h.direction _⟩
  obtain ⟨a, tally, ha, hasked, hvalue, hviolation, hmerit⟩ :=
    sinking_appraise s.state.weight x s.tally
  have hvalue : a.value = -ofInt (k + 2) := by
    rw [hvalue, h.asked]
    rfl
  have hlt : lt a.merit (bar s.state none) := by
    rw [bar, h.merit, hmerit, h.weight, lt_merit, hvalue]
    exact lt_neg_succ hk
  refine ⟨a, ((s.withState (beginPoll sinking.options s.state)).withTally tally).withState
    (noteDecrease ⟨0, true⟩ (beginPoll sinking.options s.state)), ?_, ?_, rfl, hvalue, hviolation⟩
  · rw [show Heading.all 3 = ⟨0, true⟩ :: (Heading.all 3).tail from rfl, scan, hx]
    have hslope : ¬ sinking.options.estimateSlope := Bool.false_ne_true
    have hgreedy : ¬ sinking.options.greedy := Bool.false_ne_true
    simp only [bind, EStateM.bind, demand, evaluate, withState_tally, ha, if_neg hslope, if_pos hlt,
      if_neg hgreedy]
    rfl
  · exact hasked.trans (congrArg (· + 1) h.asked)

/-- The loop goes on behind fewer than 512 polls. -/
theorem Sunk.goes_on (h : Sunk k s) (hk : k < 512) : sinking.method.finished s = .ok false := by
  have hsettled : sinking.method.settled s = .ok false := by
    change (StateOn.isSettled sinking.options s.state) = _
    rw [StateOn.isSettled, StateOn.isFlat, h.slope, h.tolerance, Bool.and_false]
    rfl
  have hspent : sinking.method.exhausted s = .ok false := by
    have hevaluations :
        sinking.budgets.evaluationsSpent s.tally.counters.objective = .ok false := by
      rw [h.asked]
      change Except.ok (decide ((600 : ℤ) ≤ (k + 1 : ℕ)) && true) = _
      rw [decide_eq_false (by omega)]
      rfl
    have htime : sinking.budgets.timeSpent s.elapsed = .ok false := by
      have hlimit : ((Number.whole 0).le (.real 30.0) && (Number.real 30.0).lt (.real zero)) =
          false := by decide +kernel
      rw [h.clock.2]
      exact congrArg Except.ok hlimit
    have hiterations : sinking.budgets.iterationsSpent s.iterations = .ok false := by
      change Except.ok (_ && false) = _
      rw [Bool.and_false]
    exact Budgets.spent_eq_false.2 ⟨hevaluations, htime, hiterations⟩
  exact except_bind_eq_ok.2 ⟨_, hsettled, except_bind_eq_ok.2 ⟨_, hspent, rfl⟩⟩

/-- **Each poll improves**, and there is a next one while there is room. -/
theorem Sunk.poll_improves (h : Sunk k s) (hk : k < 512) :
    (left (poll sinking.problem sinking.options sinking.directions) s).state.improved ∧
      (k < 511 → ∃ t, sinking.method.GoesTo (fun _ => zero) s t ∧ Sunk (k + 1) t) := by
  obtain ⟨a, u, hscan, hasked, hdrawn, hvalue, hviolation⟩ := h.scan_improves (by omega)
  obtain ⟨-, hstanding, hends⟩ := poll_of_scan sinking.directions hscan hdrawn
  have himproved := congrArg Standing.improved hstanding
  refine ⟨himproved, fun hroom => ?_⟩
  have hmesh : ∃ mesh, meshAfter s.state true = .ok mesh := by
    cases hmesh : meshAfter s.state true with
    | ok mesh => exact ⟨mesh, rfl⟩
    | error fault =>
      obtain ⟨-, hover⟩ := meshAfter_eq_error.1 hmesh
      rw [h.streak] at hover
      exact absurd hover (not_noRoom (by omega))
  obtain ⟨r, t, hpoll⟩ := hends.2 ⟨hmesh, _, rfl⟩
  rw [left_of_ok hpoll] at hstanding himproved
  have hpolled := poll_polled hpoll
  obtain ⟨_, -, -, b, -, -, hsuccess⟩ := hpolled.success himproved
  have hweight : t.state.weight = one := hsuccess.weight.trans h.weight
  have hvalue : t.state.value = -ofInt (k + 2) :=
    (congrArg Standing.value hstanding).trans hvalue
  have hviolation : t.state.violation = zero :=
    (congrArg Standing.violation hstanding).trans hviolation
  have htally : t.tally = u.tally := congrArg Standing.tally hstanding
  have hstarted : t.started = zero :=
    (congrArg Frame.started ((orderly sinking).frame hpoll)).trans h.clock.1
  obtain ⟨_, hdirection⟩ := direction_of_poll hpoll
  have hturn : sinking.method.turn (fun _ => zero) s = .ok ()
      ((t.sendRow (fun _ => zero) (rowOf t (some r))).readClock fun _ => zero) := by
    have hiterate : sinking.method.iterate s = .ok r t := hpoll
    rw [Method.turn, hiterate]
    rfl
  refine ⟨_, ⟨h.goes_on hk, hturn⟩, ?_⟩
  exact
    { streak := by
        refine hsuccess.streak.trans ?_
        rw [h.streak, streakUp]
        omega
      direction := (Except.ok.inj hdirection).symm
      weight := hweight
      merit := by
        refine hpolled.merit.trans ?_
        rw [hweight, hvalue, hviolation]
        congr 3
      slope := (hpolled.slope rfl).trans h.slope
      tolerance := (congrArg isInfinity hpolled.tolerance).trans h.tolerance
      asked := (congrArg (fun tally => tally.counters.objective) htally).trans hasked
      clock := ⟨hstarted, by
        change zero - t.started = zero
        rw [hstarted]
        decide +kernel⟩ }

/-- The search goes through 511 polls. -/
theorem exists_sunk {s₀ : Session Float (Row Float 3) (State Float 3)} (hs₀ : Sunk 0 s₀)
    (hk : k ≤ 511) :
    ∃ s, Relation.ReflTransGen (sinking.method.GoesTo fun _ => zero) s₀ s ∧ Sunk k s := by
  induction k with
  | zero => exact ⟨s₀, .refl, hs₀⟩
  | succ k ih =>
    obtain ⟨s, hs, hsunk⟩ := ih (by omega)
    obtain ⟨t, ht, hnext⟩ := (hsunk.poll_improves (by omega)).2 (by omega)
    exact ⟨t, hs.tail ht, hnext⟩

theorem exists_sunk_start :
    ∃ s₀, sinking.method.start (fun _ => zero) (fresh .empty) = .ok s₀ ∧ Sunk 0 s₀ := by
  obtain ⟨s₀, hs₀⟩ := sinking_reliable.exists_start (fun _ => zero) (fresh .empty)
  obtain ⟨hfirst, -⟩ := start_first hs₀
  obtain ⟨⟨_, hdirection⟩, ⟨_, hstarted⟩, helapsed⟩ := start_takes hs₀
  obtain ⟨a, ha, -, hvalue, hviolation⟩ := hfirst.appraised
  obtain ⟨b, u, hb, hasked, hvalue', hviolation', -⟩ := sinking_appraise one sinking.start .empty
  obtain ⟨rfl, rfl⟩ := EStateM.Result.ok.inj (hb.symm.trans ha)
  have htolerance := hfirst.tolerance
  rw [hvalue, hvalue'] at htolerance
  refine ⟨s₀, hs₀, ?_⟩
  exact
    { streak := hfirst.streak
      direction := (Except.ok.inj hdirection).symm
      weight := hfirst.weight
      merit := by
        rw [hfirst.merit, hfirst.weight, hvalue, hvalue', hviolation, hviolation']
        rfl
      slope := hfirst.slope
      tolerance := by
        rw [← Except.ok.inj htolerance]
        decide +kernel
      asked := hasked
      clock := ⟨hstarted, helapsed⟩ }

/-- **A search that overflows.** It is set up with the settings that it has by
default, and none of what it is given fails. -/
theorem sinking_overflows :
    setUpAlong sinking.problem none (.default .mesh) (.ok sinking.directions) = .ok sinking ∧
      sinking.Reliable ∧ ∃ fuel d', sinking.method.run (fun _ => zero) fuel (fresh .empty) =
        some ⟨.error .overflow, d'⟩ := by
  refine ⟨rfl, sinking_reliable, ?_⟩
  obtain ⟨s₀, hs₀, hsunk⟩ := exists_sunk_start
  obtain ⟨s, hs, hsunk⟩ := exists_sunk hsunk le_rfl
  obtain ⟨himproved, -⟩ := hsunk.poll_improves (by norm_num)
  have hdirection : HasDirection s := ⟨_, hsunk.direction⟩
  have hover : Overflows sinking s := by
    rw [Overflows, himproved, hsunk.streak, NoRoom, if_pos rfl]
    norm_num
  obtain ⟨t, ht⟩ := (sinking_reliable.poll_eq_error hdirection).2 (meshFails_iff.2 hover)
  exact (Method.run_faults_iff hs₀ sinking_reliable.exists_finished
    sinking_reliable.exists_verdict).2 ⟨s, t, hs, hsunk.goes_on (by norm_num), ht⟩

end

end MeshSearch

end DirectSearch
