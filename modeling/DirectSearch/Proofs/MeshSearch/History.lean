import DirectSearch.Proofs.MeshSearch.MeshSize
import DirectSearch.Proofs.MeshSearch.Trials
import DirectSearch.Proofs.Scalar.Unrounded
import Mathlib.Analysis.SpecialFunctions.Log.Base
import Mathlib.Data.List.SplitBy
import Mathlib.NumberTheory.Harmonic.Defs
/-!
# Mesh search — what the polls so far have come to

Where nothing is rounded and the mesh may become small, the streak, the mesh
and the weight of a search depend on two things alone: which of its polls have
succeeded, and which have failed at a point that violates something. The polls
are taken in longest runs of equal outcomes. The streak is the length of the
last run; a run of `a` successes widens the mesh by the power `a (a + 1)` of
two, and a run of `b` failures narrows it by that with the `b`-th harmonic
number as its exponent; the weight is doubled by every such failure, up to its
cap (`sizes_of_history`).
-/

namespace DirectSearch

open Scalar Session

namespace MeshSearch

/-! ## Runs of equal outcomes -/

/-- The longest runs of equal outcomes, in their order. -/
def runsOf (xs : List Bool) : List (List Bool) := xs.splitBy (· == ·)

/-- The length of a run, as a negative number if its polls have failed. -/
def signedLength (g : List Bool) : ℤ := if g.head? = some true then g.length else -g.length

/-- The exponent of the power of two by which a run widens the mesh. -/
noncomputable def exponent (g : List Bool) : ℝ :=
  if g.head? = some true then g.length * (g.length + 1) else -(harmonic g.length : ℝ)

/-- The signed length of the last run, or zero if there is none. -/
def lastLength (xs : List Bool) : ℤ := ((runsOf xs).getLast?.map signedLength).getD 0

/-- The exponents of all runs together. -/
noncomputable def totalExponent (xs : List Bool) : ℝ := ((runsOf xs).map exponent).sum

variable {xs ys : List Bool} {gs : List (List Bool)} {b : Bool} {r : ℕ}

theorem signedLength_replicate (r : ℕ) (b : Bool) :
    signedLength (List.replicate r b) = if b then (r : ℤ) else -r := by
  rcases r with _ | r
  · simp [signedLength]
  · simp [signedLength, List.head?_replicate]

theorem exponent_replicate (r : ℕ) (b : Bool) :
    exponent (List.replicate r b) = if b then (r : ℝ) * (r + 1) else -(harmonic r : ℝ) := by
  rcases r with _ | r
  · simp [exponent]
  · simp [exponent, List.head?_replicate]

theorem lastLength_of_runsOf {g : List Bool} (h : runsOf xs = gs ++ [g]) :
    lastLength xs = signedLength g := by
  rw [lastLength, h, List.getLast?_concat]
  rfl

theorem totalExponent_of_runsOf {g : List Bool} (h : runsOf xs = gs ++ [g]) :
    totalExponent xs = (gs.map exponent).sum + exponent g := by
  rw [totalExponent, h, List.map_append, List.sum_append, List.map_singleton, List.sum_singleton]

theorem getLast?_append_replicate (ys : List Bool) (r : ℕ) (b : Bool) :
    (ys ++ List.replicate (r + 1) b).getLast? = some b := by
  rw [List.getLast?_append_of_ne_nil _ (by simp), List.getLast?_replicate, if_neg (by omega)]

/-- Outcomes end in a longest run, if there are any. -/
theorem exists_last_run (h : xs ≠ []) :
    ∃ ys b r, xs = ys ++ List.replicate (r + 1) b ∧ ∀ c ∈ ys.getLast?, c ≠ b := by
  induction xs using List.reverseRecOn with
  | nil => exact absurd rfl h
  | append_singleton xs b ih =>
    rcases eq_or_ne xs [] with rfl | hne
    · exact ⟨[], b, 0, rfl, by simp⟩
    obtain ⟨ys, c, r, hxs, hys⟩ := ih hne
    by_cases hc : c = b
    · subst hc
      exact ⟨ys, c, r + 1, by rw [hxs, List.append_assoc, ← List.replicate_succ'], hys⟩
    · refine ⟨xs, b, 0, rfl, fun d hd => ?_⟩
      rw [hxs, getLast?_append_replicate] at hd
      exact Option.some.inj hd ▸ hc

/-- A longest run at the end is the last of the runs. -/
theorem runsOf_append_replicate (r : ℕ) (h : ∀ c ∈ ys.getLast?, c ≠ b) :
    runsOf (ys ++ List.replicate (r + 1) b) = runsOf ys ++ [List.replicate (r + 1) b] := by
  have hchain : (List.replicate (r + 1) b).IsChain fun c d => c == d :=
    List.isChain_replicate_of_rel _ (beq_self_eq_true b)
  rw [runsOf, List.splitBy_append, List.splitBy_of_isChain (by simp) hchain, runsOf]
  intro c hc d hd
  obtain rfl : b = d := by simpa [List.head?_replicate] using hd
  exact beq_false_of_ne (h c hc)

/-- **One more outcome** begins a run or prolongs the last one. -/
theorem runsOf_concat (xs : List Bool) (b : Bool) :
    runsOf (xs ++ [b]) = runsOf xs ++ [[b]] ∧
        (if b then lastLength xs ≤ 0 else 0 ≤ lastLength xs) ∨
      ∃ gs r, runsOf xs = gs ++ [List.replicate (r + 1) b] ∧
        runsOf (xs ++ [b]) = gs ++ [List.replicate (r + 1 + 1) b] := by
  rcases eq_or_ne xs [] with rfl | hne
  · exact .inl ⟨rfl, by simp [lastLength, runsOf]⟩
  obtain ⟨ys, c, r, rfl, hys⟩ := exists_last_run hne
  by_cases hc : c = b
  · subst hc
    refine .inr ⟨runsOf ys, r, runsOf_append_replicate r hys, ?_⟩
    rw [List.append_assoc, ← List.replicate_succ', runsOf_append_replicate (r + 1) hys]
  · have hlast : ∀ d ∈ (ys ++ List.replicate (r + 1) c).getLast?, d ≠ b := by
      intro d hd
      rw [getLast?_append_replicate] at hd
      exact Option.some.inj hd ▸ hc
    refine .inl ⟨runsOf_append_replicate 0 hlast, ?_⟩
    rw [lastLength_of_runsOf (runsOf_append_replicate r hys), signedLength_replicate]
    cases b <;> cases c <;> simp at hc ⊢
    all_goals omega

/-- The streak after a poll. -/
def nextStreak (success : Bool) (k : ℤ) : ℤ := if success then streakUp k else streakDown k

theorem nextStreak_pos (k : ℤ) : 0 < nextStreak true k := by
  rw [nextStreak, if_pos rfl, streakUp]
  omega

theorem nextStreak_neg (k : ℤ) : nextStreak false k < 0 := by
  rw [nextStreak, if_neg Bool.false_ne_true, streakDown]
  omega

/-- The exponent of the power of two by which a poll widens the mesh, if it
leaves the streak `k`. -/
noncomputable def gain (k : ℤ) : ℝ := if 0 < k then (2 * k : ℤ) else (k : ℝ)⁻¹

theorem gain_pos {k : ℤ} (h : 0 < k) : 0 < gain k := by
  rw [gain, if_pos h, Int.cast_pos]
  omega

theorem gain_neg {k : ℤ} (h : k < 0) : gain k < 0 := by
  rw [gain, if_neg (by omega)]
  exact inv_lt_zero.2 (Int.cast_lt_zero.2 h)

/-- **The streak follows the last run.** -/
theorem lastLength_concat (xs : List Bool) (b : Bool) :
    lastLength (xs ++ [b]) = nextStreak b (lastLength xs) := by
  rcases runsOf_concat xs b with ⟨hruns, hsign⟩ | ⟨gs, r, hruns, hruns'⟩
  · rw [lastLength_of_runsOf hruns, ← List.replicate_one, signedLength_replicate]
    cases b
    · simp only [Bool.false_eq_true, if_false, nextStreak, streakDown] at hsign ⊢
      omega
    · simp only [if_true, nextStreak, streakUp] at hsign ⊢
      omega
  · rw [lastLength_of_runsOf hruns', lastLength_of_runsOf hruns, signedLength_replicate,
      signedLength_replicate]
    cases b
    · simp only [Bool.false_eq_true, if_false, nextStreak, streakDown]
      omega
    · simp only [if_true, nextStreak, streakUp]
      omega

-- two successes and three failures
example : lastLength [true, true, false, false, false] = -3 := by decide

/-- A run that is longer by one poll. -/
theorem exponent_replicate_succ (r : ℕ) (b : Bool) :
    exponent (List.replicate (r + 1) b) =
      exponent (List.replicate r b) + gain (signedLength (List.replicate (r + 1) b)) := by
  rw [exponent_replicate, exponent_replicate, signedLength_replicate]
  cases b
  · simp only [Bool.false_eq_true, if_false]
    rw [gain, if_neg (by omega), harmonic_succ, Int.cast_neg, inv_neg]
    push_cast
    ring
  · simp only [if_true]
    rw [gain, if_pos (by omega)]
    push_cast
    ring

/-- **The exponents add up** to those of the single polls. -/
theorem totalExponent_concat (xs : List Bool) (b : Bool) :
    totalExponent (xs ++ [b]) = totalExponent xs + gain (lastLength (xs ++ [b])) := by
  rcases runsOf_concat xs b with ⟨hruns, -⟩ | ⟨gs, r, hruns, hruns'⟩
  · have hempty : exponent (List.replicate 0 b) = 0 := by
      rw [exponent_replicate]
      simp
    rw [totalExponent_of_runsOf hruns, lastLength_of_runsOf hruns, ← List.replicate_one,
      exponent_replicate_succ, hempty, zero_add, totalExponent]
  · rw [totalExponent_of_runsOf hruns', lastLength_of_runsOf hruns', totalExponent_of_runsOf hruns,
      exponent_replicate_succ (r + 1), ← add_assoc]

/-! ## Histories -/

section

variable {α : Type} [Scalar α] {n : Nat} {P : Type} [Coordinates α P] [Includes α n P]

/-- What of a poll matters for the sizes. -/
structure Mark where
  /-- The poll has moved. -/
  improved : Bool
  /-- The incumbent that it began with violates something. -/
  violated : Bool

/-- A poll of this kind raises the weight. -/
def Mark.raises (k : Mark) : Bool := !k.improved && k.violated

section

variable (p : Problem α n) (o : Options α) (directions : Directions α)

/-- A poll leads from one state to another, in some session. -/
def PollsTo (st st' : StateOn α n P) : Prop :=
  ∃ (s t : Session α (Row α n) (StateOn α n P)) (r : PollReport α n),
    s.state = st ∧ t.state = st' ∧ poll p o directions s = .ok r t

/-- **A history** from a state: polls one after the other, and the mark of
each. -/
inductive History (st₀ : StateOn α n P) : List Mark → StateOn α n P → Prop
  | start : History st₀ [] st₀
  | poll {marks : List Mark} {st st' : StateOn α n P} :
      History st₀ marks st → PollsTo p o directions st st' →
      History st₀ (marks ++ [⟨st'.improved, lt zero st.violation⟩]) st'

end

variable {p : Problem α n} {o : Options α} {directions : Directions α}
variable {st₀ st st' : StateOn α n P} {marks : List Mark}

theorem PollsTo.outcome (h : PollsTo p o directions st st') :
    (∃ a, Success o st a st') ∨ Failure o st st' := by
  obtain ⟨s, t, r, rfl, rfl, hpoll⟩ := h
  exact (poll_polled hpoll).outcome

theorem PollsTo.streak (h : PollsTo p o directions st st') :
    st'.streak = nextStreak st'.improved st.streak := by
  rcases h.outcome with ⟨a, hsuccess⟩ | hfailure
  · rw [hsuccess.streak, nextStreak, if_pos hsuccess.improved]
  · rw [hfailure.streak, nextStreak, if_neg (by simp [hfailure.improved])]

theorem PollsTo.streak_ne_zero (h : PollsTo p o directions st st') : st'.streak ≠ 0 := by
  rw [h.streak]
  cases st'.improved
  · exact (nextStreak_neg _).ne
  · exact (nextStreak_pos _).ne'

theorem PollsTo.weight (h : PollsTo p o directions st st') :
    st'.weight =
      if Mark.raises ⟨st'.improved, lt zero st.violation⟩ then raiseWeight st.weight
      else st.weight := by
  rcases h.outcome with ⟨a, hsuccess⟩ | hfailure
  · rw [hsuccess.weight, Mark.raises, hsuccess.improved]
    rfl
  · rw [hfailure.weight, Mark.raises, hfailure.improved]
    rfl

/-- A run begins with the streak zero and the weight one, and its sessions have
a history. -/
theorem exists_history {m : MeshSearch α n} {clock : Nat → α} {d : Desk α (Row α n)}
    {s t : Session α (Row α n) (State α n)} (hs : m.method.start clock d = .ok s)
    (h : Relation.ReflTransGen (m.method.Turns clock) s t) :
    s.state.streak = 0 ∧ s.state.weight = one ∧
      s.state.mesh = startMesh m.problem.lower m.problem.upper ∧
      ∃ marks, History m.problem m.options m.directions s.state marks t.state := by
  obtain ⟨hfirst, -⟩ := start_first hs
  refine ⟨hfirst.streak, hfirst.weight, hfirst.mesh, ?_⟩
  induction h with
  | refl => exact ⟨[], .start⟩
  | tail _ hturn ih =>
    obtain ⟨marks, hmarks⟩ := ih
    obtain ⟨r, u, hpoll, -, hstate⟩ := hturn.exists_iterate
    exact ⟨_, hmarks.poll ⟨_, _, r, rfl, hstate.symm, hpoll⟩⟩

/-- The outcomes of the polls, in their order. -/
def outcomes (marks : List Mark) : List Bool := marks.map Mark.improved

theorem outcomes_concat (marks : List Mark) (k : Mark) :
    outcomes (marks ++ [k]) = outcomes marks ++ [k.improved] := List.map_append

theorem History.streak (h : History p o directions st₀ marks st) (hzero : st₀.streak = 0) :
    st.streak = lastLength (outcomes marks) := by
  induction h with
  | start => exact hzero
  | poll _ hpoll ih =>
    rw [hpoll.streak, ih, outcomes_concat, lastLength_concat]

end

/-! ## Sizes without rounding -/

section

open Unrounded

variable {n : Nat} {P : Type} [Coordinates Unrounded P] [Includes Unrounded n P]
variable {p : Problem Unrounded n} {o : Options Unrounded} {directions : Directions Unrounded}
variable {st₀ st st' : StateOn Unrounded n P} {marks : List Mark} {δ : ℝ}

theorem weightCap_eq : (weightCap : Unrounded) = real (2 ^ 52) := by
  have hpower : (ofInt (Int.pow 2 52) : Unrounded) = real (2 ^ 52) := by
    rw [ofInt_eq]
    norm_num [Int.pow]
  have heps : (eps : Unrounded) = real (1 / 2 ^ 52) := by
    rw [eps, one_eq, hpower, real_div_real _ (by positivity)]
  rw [weightCap, one_eq, heps, real_div_real _ (by positivity), one_div_one_div]

theorem widened_real {b : Unrounded} {k : ℤ} (hk : 0 < k) (h : widened (real δ) k.toNat = .ok b) :
    b = real (δ * 2 ^ gain k) := by
  have hfour : (ofInt 4 : Unrounded) = real 4 := congrArg real (by norm_num)
  have hpower : (2 : ℝ) ^ gain k = 4 ^ k.toNat := by
    have hcast : (k : ℝ) = k.toNat := by
      rw [← Int.cast_natCast, Int.toNat_of_nonneg hk.le]
    rw [gain, if_pos hk, Int.cast_mul, Int.cast_ofNat, hcast, Real.rpow_mul zero_le_two,
      Real.rpow_natCast]
    norm_num
  rw [widened_eq_ok h, hfour, power_real, real_mul_real, hpower]

theorem narrowed_real {b : Unrounded} {k : ℤ} (hk : k < 0)
    (h : narrowed (real δ) k.natAbs = .ok b) : b = real (δ * 2 ^ gain k) := by
  have hroot : (rootOfTwo k.natAbs : Unrounded) = real (2 ^ (1 / k.natAbs : ℝ)) := by
    change real (((2 : ℕ) : ℝ) ^ (1 / k.natAbs : ℝ)) = _
    rw [Nat.cast_ofNat]
  have hgain : gain k = -(1 / k.natAbs : ℝ) := by
    have hcast : (k : ℝ) = -(k.natAbs : ℝ) := by
      rw [← Int.cast_natCast, ← Int.cast_neg, Int.ofNat_natAbs_of_nonpos hk.le, neg_neg]
    rw [gain, if_neg (by omega), hcast, inv_neg, one_div]
  have hne : (2 : ℝ) ^ (1 / k.natAbs : ℝ) ≠ 0 := (Real.rpow_pos_of_pos two_pos _).ne'
  rw [narrowed_eq_ok h, hroot, real_div_real _ hne, hgain, Real.rpow_neg zero_le_two,
    div_eq_mul_inv]

/-- **One poll** widens the mesh by the power of two that its streak says. -/
theorem PollsTo.mesh (h : PollsTo p o directions st st') (ho : o.stopWhenSmall)
    (hmesh : st.mesh = real δ) : st'.mesh = real (δ * 2 ^ gain st'.streak) := by
  have hclamped (mesh : Unrounded) : clamped o mesh = mesh := if_pos ho
  rcases h.outcome with ⟨a, hsuccess⟩ | hfailure
  · obtain ⟨mesh, hwidened, hnew⟩ := hsuccess.mesh
    rw [hmesh, ← hsuccess.streak] at hwidened
    rw [hnew, hclamped]
    exact widened_real (by rw [hsuccess.streak, streakUp]; omega) hwidened
  · obtain ⟨mesh, hnarrowed, hnew⟩ := hfailure.mesh
    rw [hmesh, ← hfailure.streak] at hnarrowed
    rw [hnew, hclamped]
    exact narrowed_real (by rw [hfailure.streak, streakDown]; omega) hnarrowed

/-- It is wider after a success, and narrower after a failure. -/
theorem PollsTo.mesh_lt (h : PollsTo p o directions st st') (ho : o.stopWhenSmall)
    (hmesh : st.mesh = real δ) (hδ : 0 < δ) :
    if st'.improved then lt st.mesh st'.mesh else lt st'.mesh st.mesh := by
  rw [h.mesh ho hmesh, hmesh, h.streak, lt_real_real, lt_real_real]
  cases st'.improved
  · exact decide_eq_true (mul_lt_of_lt_one_right hδ
      (Real.rpow_lt_one_of_one_lt_of_neg one_lt_two (gain_neg (nextStreak_neg _))))
  · exact decide_eq_true (lt_mul_of_one_lt_right hδ
      (Real.one_lt_rpow one_lt_two (gain_pos (nextStreak_pos _))))

theorem raiseWeight_real (w : ℝ) : raiseWeight (real w) = real (min (2 * w) (2 ^ 52)) := by
  have htwo : (two : Unrounded) = real 2 := congrArg real (by norm_num)
  rw [raiseWeight, htwo, real_mul_real, weightCap_eq, least_real_real]

theorem History.mesh (h : History p o directions st₀ marks st) (ho : o.stopWhenSmall)
    (hzero : st₀.streak = 0) (hmesh : st₀.mesh = real δ) :
    st.mesh = real (δ * 2 ^ totalExponent (outcomes marks)) := by
  induction h with
  | start => simp [hmesh, outcomes, totalExponent, runsOf]
  | poll hmarks hpoll ih =>
    have hstreak := (hmarks.poll hpoll).streak hzero
    rw [hpoll.mesh ho ih, hstreak, mul_assoc, ← Real.rpow_add two_pos, outcomes_concat,
      totalExponent_concat]

theorem History.weight (h : History p o directions st₀ marks st) (hone : st₀.weight = one) :
    st.weight = real (min (2 ^ marks.countP Mark.raises) (2 ^ 52)) := by
  induction h with
  | start =>
    rw [hone]
    exact congrArg real (by norm_num)
  | @poll marks _ _ _ hpoll ih =>
    rw [hpoll.weight, ih, List.countP_append, List.countP_singleton]
    split
    · have hcap : min (2 * 2 ^ 52) (2 ^ 52) = (2 ^ 52 : ℝ) := min_eq_right (by norm_num)
      rw [raiseWeight_real, mul_min_of_nonneg _ _ zero_le_two, ← pow_succ', min_assoc, hcap]
    · rw [add_zero]

/-- **The sizes after any history** of a search whose mesh may become small, from
a mesh above zero, the streak zero and the weight one. The streak is the length
of the last run, negative if its polls have failed, and not zero once there has
been a poll. The logarithm of the mesh has grown by the exponents of all runs.
The weight is the power of two for the number of failures at a point that
violates something, up to its cap. And so a success makes the mesh wider and a
failure makes it narrower. -/
theorem sizes_of_history (ho : o.stopWhenSmall) (hmesh : st₀.mesh = real δ) (hδ : 0 < δ)
    (hzero : st₀.streak = 0) (hone : st₀.weight = one)
    (h : History p o directions st₀ marks st) :
    let runs := runsOf (outcomes marks)
    st.streak = (runs.getLast?.map signedLength).getD 0 ∧
      (marks ≠ [] → st.streak ≠ 0) ∧
      (∃ δ', st.mesh = real δ' ∧ 0 < δ' ∧
        Real.logb 2 δ' = Real.logb 2 δ + (runs.map exponent).sum) ∧
      st.weight = least (real (2 ^ marks.countP Mark.raises)) (one / eps) ∧
      ∀ st', PollsTo p o directions st st' →
        if st'.improved then lt st.mesh st'.mesh else lt st'.mesh st.mesh := by
  intro runs
  have hsize := h.mesh ho hzero hmesh
  have hpos (x : ℝ) : 0 < (2 : ℝ) ^ x := Real.rpow_pos_of_pos two_pos x
  refine ⟨h.streak hzero, fun hmarks => ?_, ⟨_, hsize, mul_pos hδ (hpos _), ?_⟩, ?_,
    fun st' hpoll => hpoll.mesh_lt ho hsize (mul_pos hδ (hpos _))⟩
  · cases h with
    | start => exact absurd rfl hmarks
    | poll _ hpoll => exact hpoll.streak_ne_zero
  · rw [Real.logb_mul hδ.ne' (hpos _).ne', Real.logb_rpow two_pos (by norm_num)]
    rfl
  · rw [h.weight hone, ← least_real_real, ← weightCap_eq, weightCap]

/-- **Nothing is out of range** when the mesh is widened or narrowed. -/
theorem exists_meshAfter (st : State Unrounded n) (success : Bool) :
    ∃ mesh, meshAfter st success = .ok mesh := by
  cases success
  · refine ⟨st.mesh / rootOfTwo (streakDown st.streak).natAbs, ?_⟩
    rw [meshAfter, if_neg Bool.false_ne_true, narrowed, Number.scalarOfInt]
    exact congrArg (Except.map _) (if_pos (isFinite_real _))
  · refine ⟨st.mesh * power (ofInt 4) (streakUp st.streak).toNat, ?_⟩
    have hpower := power_real ((4 : Int) : ℝ) (streakUp st.streak).toNat
    exact if_pos (hpower ▸ isFinite_real _)

/-! ## A success and a failure -/

/-- A search from zero for the least of `10 (x + 1)²`, where `x` is to be one or
more. -/
noncomputable def pulled : MeshSearch Unrounded 1 where
  problem :=
    { name := .absent
      objective := fun _ g => .ok (ofInt 10 * square (g.entries.headD zero + one))
      block := none, blockSize := 0, inequalities := [], equalities := []
      start := .replicate 1 zero, lower := .replicate 1 one
      upper := .replicate 1 Extended.infinity
      constraintLower := .replicate 0 zero, constraintUpper := .replicate 0 zero }
  start := .replicate 1 zero
  options :=
    { absolute := .ok (.real zero), relative := .ok (.real zero), greedy := false
      stopWhenSmall := true, smallStep := .ok (.whole 0), estimateSlope := false }
  budgets := { evaluations := .ok none, time := .ok (.whole (-1)), iterations := .ok none }
  directions := fun _ _ => .ok (.ofList [one])

/-- The merit of a point under weight one. -/
noncomputable def pulledMerit (x : ℝ) : ℝ := 10 * (x + 1) ^ 2 + max (1 - x) 0 ^ 2

/-- A point with its score. -/
noncomputable def pulledTo (x : ℝ) : Appraisal Unrounded 1 :=
  ⟨⟨real (10 * (x + 1) ^ 2), real (max (1 - x) 0 ^ 2), real (pulledMerit x)⟩, #v[real x]⟩

theorem pointAlong_line (x δ : ℝ) (s : Int) :
    pointAlong #v[real x] #v[(one : Unrounded)] 0 s (real δ) = #v[real (x - s * δ)] := by
  have hsum : real (x - 2 * s * δ + s * δ) = real (x - s * δ) := congrArg real (by ring)
  simpa [pointAlong, Displacement.along, Displacement.apply, Point.sub, Point.shift, Point.dot,
    one_eq, ofInt_eq, sum, zero_eq, Vector.get] using hsum

theorem excess_half_line (x : ℝ) :
    excess one (real x) Extended.infinity = real (max (1 - x) 0) := by
  have habove : maximum (real x - Extended.infinity) zero = real 0 := by
    rw [zero_eq]
    exact (congrArg (maximum · (real 0)) real_sub_top).trans maximum_bot_real
  rw [excess, habove, one_eq, zero_eq, real_sub_real, maximum_real_real, maximum_real_real,
    max_assoc, max_self]

theorem appraisalOf_pulled (x : ℝ) (y : Point Unrounded pulled.problem.constraintCount) :
    pulled.problem.appraisalOf one #v[real x] (ofInt 10 * square (real x + one)) y =
      pulledTo x := by
  have hbounds : pulled.problem.isUnconstrained = false := by
    simp [Problem.isUnconstrained, pulled, one_eq]
  have hviolation : pulled.problem.totalViolation #v[real x] y = real (max (1 - x) 0 ^ 2) := by
    have hsum := sum_ofFn_real fun _ : Fin 1 => max (1 - x) 0 ^ 2
    rw [Finset.univ_unique, Finset.sum_singleton] at hsum
    rw [← hsum]
    refine congrArg (fun f => sum (List.ofFn f)) (funext fun i => ?_)
    rw [Fin.fin_one_eq_zero i]
    change square (excess one (real x) Extended.infinity) = _
    rw [excess_half_line, square, real_mul_real, sq]
  simp [Problem.appraisalOf, hbounds, hviolation, pulledTo, pulledMerit, one_eq, ofInt_eq, square,
    merit, sq]

/-- The objective at a point. -/
noncomputable def pulledValue (x : Point Unrounded 1) : Unrounded :=
  ofInt 10 * square (x.toGrid.entries.headD zero + one)

/-- There are no constraint values. -/
noncomputable def noValues (_ : Point Unrounded 1) :
    Point Unrounded pulled.problem.constraintCount := Vector.replicate 0 (real 0)

theorem pulled_evaluates : pulled.problem.Evaluates pulledValue noValues :=
  ⟨fun _ _ => rfl, fun _ _ h => absurd h (by decide)⟩

theorem trials_pulled {st : State Unrounded 1} {x δ : ℝ} (hpoint : st.point = #v[real x])
    (hmesh : st.mesh = real δ) (hweight : st.weight = one) :
    trials pulled.problem pulledValue noValues st #v[one] =
      [pulledTo (x - δ), pulledTo (x + δ)] := by
  have htrial (d : Heading 1) :
      trial pulled.problem pulledValue noValues st #v[one] d = pulledTo (x - d.sign * δ) := by
    unfold trial
    rw [hpoint, hmesh, hweight, Fin.fin_one_eq_zero d.axis, pointAlong_line]
    exact appraisalOf_pulled _ _
  have hall : Heading.all 1 = [⟨0, true⟩, ⟨0, false⟩] := rfl
  unfold trials
  rw [hall, List.map_cons, List.map_singleton, htrial, htrial]
  simp [Heading.sign]

theorem beats_pulledTo_iff {st : State Unrounded 1} {x m : ℝ} (hmerit : st.merit = real m) :
    Beats (pulledTo x) st ↔ pulledMerit x < m := by
  rw [Beats, hmerit]
  exact Bool.eq_iff_iff.1 lt_real_real |>.trans decide_eq_true_iff

/-- Below its bound, before the first poll. -/
noncomputable def belowBound : State Unrounded 1 :=
  { point := #v[real 0], value := real 10, violation := real 1, merit := real 11, weight := one
    mesh := real 1, streak := 0, direction := .ofList [one], tolerance := real 0, slope := none
    improved := false, outcome := .none }

/-- The first trial, further from the bound, is better, though not by its
violation. -/
theorem pulled_moves :
    ∃ st, PollsTo pulled.problem pulled.options pulled.directions belowBound st ∧ st.improved ∧
      st.point = #v[real (-1)] ∧ st.merit = real 4 ∧ st.violation = real 4 ∧ st.weight = one ∧
      st.mesh = real 4 ∧ st.direction = .ofList [one] := by
  obtain ⟨s, hs⟩ : ∃ s : Session Unrounded (Row Unrounded 1) (State Unrounded 1),
    s.state = belowBound := ⟨(fresh .empty).withState belowBound, rfl⟩
  have htrials : trials pulled.problem pulledValue noValues s.state #v[one] =
      [] ++ pulledTo (0 - 1) :: [pulledTo (0 + 1)] := by
    rw [hs]
    exact trials_pulled rfl rfl rfl
  have hbeats : Beats (pulledTo (0 - 1)) s.state := by
    refine (beats_pulledTo_iff (m := 11) (by rw [hs]; rfl)).2 ?_
    norm_num [pulledMerit]
  obtain ⟨hmoves, hends⟩ := poll_opportunistic pulled.options pulled.directions pulled_evaluates
    (by rw [hs]; rfl) htrials (by simp) hbeats
  obtain ⟨r, t, hpoll⟩ := hends.2 ⟨exists_meshAfter _ _, _, rfl⟩
  rw [left_of_ok hpoll] at hmoves
  have hpolls : PollsTo pulled.problem pulled.options pulled.directions belowBound t.state :=
    ⟨s, t, r, hs, rfl, hpoll⟩
  have hweight : t.state.weight = one := by
    rw [hpolls.weight, hmoves.improved]
    rfl
  have hviolation : t.state.violation = real 4 := by
    rw [hmoves.violation]
    exact congrArg real (by norm_num)
  refine ⟨t.state, hpolls, hmoves.improved, ?_, ?_, hviolation, hweight, ?_, ?_⟩
  · rw [hmoves.point]
    exact congrArg (fun x => #v[real x]) (zero_sub 1)
  · rw [(poll_polled hpoll).merit, hweight, hmoves.value, hviolation, merit, one_eq, real_mul_real]
    exact (real_add_real _ _).trans (congrArg real (by norm_num))
  · have hgain : gain (nextStreak true belowBound.streak) = 2 := by
      norm_num [gain, nextStreak, streakUp, belowBound]
    rw [hpolls.mesh rfl rfl, hpolls.streak, hmoves.improved, hgain]
    exact congrArg real (by norm_num)
  · obtain ⟨_, hq⟩ := direction_of_poll hpoll
    exact (Except.ok.inj hq).symm

/-- There is none that is better still. -/
theorem pulled_stays {st : State Unrounded 1} (hpoint : st.point = #v[real (-1)])
    (hmerit : st.merit = real 4) (hweight : st.weight = one) (hmesh : st.mesh = real 4)
    (hdirection : st.direction = .ofList [one]) :
    ∃ st', PollsTo pulled.problem pulled.options pulled.directions st st' ∧
      st'.improved = false := by
  obtain ⟨s, rfl⟩ : ∃ s : Session Unrounded (Row Unrounded 1) (State Unrounded 1), s.state = st :=
    ⟨(fresh .empty).withState st, rfl⟩
  have hall : ∀ a ∈ trials pulled.problem pulledValue noValues s.state #v[one],
      ¬Beats a s.state := by
    rw [trials_pulled hpoint hmesh hweight]
    simp only [List.forall_mem_cons, beats_pulledTo_iff hmerit]
    norm_num [pulledMerit]
  obtain ⟨hpolls, -⟩ := poll_unbeaten pulled.options pulled.directions pulled_evaluates
    (q := #v[one]) hdirection hall
  obtain ⟨hstays, hends⟩ := hpolls false
  obtain ⟨r, t, hpoll⟩ := hends.2 ⟨exists_meshAfter _ _, _, rfl⟩
  rw [left_of_ok hpoll] at hstays
  exact ⟨t.state, ⟨s, t, r, rfl, rfl, hpoll⟩, hstays.improved⟩

/-- After these two polls the mesh is twice as wide, and the weight has been
doubled once. -/
theorem history_pulled :
    ∃ st, History pulled.problem pulled.options pulled.directions belowBound
        [⟨true, true⟩, ⟨false, true⟩] st ∧
      st.streak = -1 ∧ st.weight = real 2 ∧ ∃ δ, st.mesh = real δ ∧ Real.logb 2 δ = 1 := by
  obtain ⟨st, hmove, himproved, hpoint, hmerit, hviolation, hweight, hmesh, hdirection⟩ :=
    pulled_moves
  obtain ⟨st', hstay, hfailed⟩ := pulled_stays hpoint hmerit hweight hmesh hdirection
  have hviolated : lt zero belowBound.violation = true := by
    rw [zero_eq]
    norm_num [belowBound]
  have hviolated' : lt zero st.violation = true := by
    rw [hviolation, zero_eq]
    norm_num
  have hhistory : History pulled.problem pulled.options pulled.directions belowBound
      [⟨true, true⟩, ⟨false, true⟩] st' := by
    have h := (History.start.poll hmove).poll hstay
    rwa [himproved, hfailed, hviolated, hviolated'] at h
  obtain ⟨hstreak, -, ⟨δ, hδ, -, hlog⟩, hdoubled, -⟩ :=
    sizes_of_history rfl rfl one_pos rfl rfl hhistory
  have hruns : runsOf (outcomes [⟨true, true⟩, ⟨false, true⟩]) = [[true], [false]] := by decide
  rw [hruns] at hstreak hlog
  refine ⟨st', hhistory, hstreak, ?_, δ, hδ, ?_⟩
  · rw [hdoubled, ← weightCap, weightCap_eq, least_real_real]
    norm_num [Mark.raises]
  · rw [hlog]
    norm_num [exponent, harmonic]

end

end MeshSearch

end DirectSearch
