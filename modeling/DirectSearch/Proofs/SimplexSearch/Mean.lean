import DirectSearch.Proofs.Scalar.Binary64
import DirectSearch.Proofs.Search.Runs
import DirectSearch.Proofs.SimplexSearch.Iteration
import DirectSearch.Proofs.Sorting.Sorted
import DirectSearch.SimplexSearch.Run
/-!
# Simplex search — the mean that stagnation is measured against

A search for stagnation compares the mean of the values with the one that an
earlier search has put down, or the first state. It is put down behind the
step of an iteration, and in front of what else the iteration may do to the
simplex. So it is the mean of the vertices that the step has led to
(`StepsTo`), and of those that the next iteration finds unless the simplex is
rebuilt or shrunk in between (`mean_of_session`). If it is, the others than
the best vertex have been evaluated anew, and the mean is not that of any
simplex an iteration begins with (`gap_mean_lags`).

Sorting once more does not change a mean: what is sorted stays as it is, and
where a value is no number the mean is none in any order.
-/

namespace DirectSearch

open Scalar OrderedScalar Session Simplex Sorting

/-! ## Means of floats -/

namespace Binary64

/-- Quotients of what is no number are one and the same. -/
theorem div_eq_div_of_not_isNumber {x x' : Float} (hx : ¬IsNumber x) (hx' : ¬IsNumber x')
    (y : Float) : x / y = x' / y := by
  have h {z : Float} (hz : ¬IsNumber z) : z / y = .ofModel (.pack .notANumber) := by
    have hnan := not_not.1 hz
    change Float.ofModel (.pack (.div .binary64 z.toModel.unpack y.toModel.unpack)) = _
    rw [hnan]
    rfl
  rw [h hx, h hx']

/-- The terms of a sum that is a number are numbers. -/
theorem isNumber_of_sum {xs : List Float} (h : IsNumber (sum xs)) : ∀ x ∈ xs, IsNumber x := by
  have hfold (xs : List Float) (y : Float) (h : IsNumber (xs.foldl (· + ·) y)) :
      IsNumber y ∧ ∀ x ∈ xs, IsNumber x := by
    induction xs generalizing y with
    | nil => exact ⟨h, by simp⟩
    | cons x xs ih =>
      obtain ⟨hyx, hxs⟩ := ih (y + x) h
      obtain ⟨hy, hx⟩ := isNumber_of_add hyx
      exact ⟨hy, List.forall_mem_cons.2 ⟨hx, hxs⟩⟩
  exact (hfold xs zero h).2

/-- With a value that is no number, the order does not show in the mean. -/
theorem mean_eq_of_perm {xs ys : List Float} (h : xs.Perm ys) {x : Float} (hx : x ∈ xs)
    (hnan : ¬IsNumber x) : mean xs = mean ys := by
  rw [mean, mean, h.length_eq]
  exact div_eq_div_of_not_isNumber (fun hsum => hnan (isNumber_of_sum hsum x hx))
    (fun hsum => hnan (isNumber_of_sum hsum x (h.subset hx))) _

end Binary64

section

variable {n : Nat} {P : Type} {extra : Nat}

/-- **Vertices that are sorted once more** have the same mean. -/
theorem meanValue_sortVertices_sortVertices (vs : Vertices Float n P extra) :
    Vertices.meanValue (sortVertices (sortVertices vs) : Vertices Float n P extra) =
      Vertices.meanValue (sortVertices vs : Vertices Float n P extra) := by
  have hperm := toList_sortVertices_perm (sortVertices vs)
  by_cases hdefined : ∀ v ∈ vs.toList, le v.value v.value
  · -- what is sorted stays as it is
    have hcompares : ∀ v ∈ vs.toList, !isUndefined v.value := by
      simpa [isUndefined] using hdefined
    have hsorted : IsSorted Vertex.value (sortVertices vs).toList :=
      isSorted_sorted (f := Vertex.value) hdefined hcompares
    have hagain : (sortVertices (sortVertices vs)).toList = (sortVertices vs).toList :=
      sorted_of_isSorted (f := Vertex.value) hsorted fun v hv =>
        hcompares v ((toList_sortVertices_perm vs).subset hv)
    rw [Vertices.meanValue, hagain, ← Vertices.meanValue]
  · obtain ⟨v, hv, hnan⟩ : ∃ v ∈ vs.toList, ¬le v.value v.value := by simpa using hdefined
    have hmem : v ∈ (sortVertices (sortVertices vs)).toList :=
      hperm.symm.subset ((toList_sortVertices_perm vs).symm.subset hv)
    exact Binary64.mean_eq_of_perm (hperm.map Vertex.value) (List.mem_map_of_mem hmem)
      fun hnumber => hnan (le_self_iff.2 hnumber)

end

namespace SimplexSearch

/-! ## Restarts left -/

theorem compareInt_of_le {e : Exact} {j k : Int} (hjk : j ≤ k)
    (h : Exact.compareInt k e = some .lt) : Exact.compareInt j e = some .lt := by
  cases e with
  | undefined => cases h
  | infinite negative => exact h
  | dyadic negative m e =>
    simp only [Exact.compareInt, Option.some.injEq, compare_lt_iff_lt] at h ⊢
    refine lt_of_le_of_lt ?_ h
    exact Int.mul_le_mul_of_nonneg_right hjk (Int.natCast_nonneg _)

/-- A whole number is below a float if it is below its exact value. -/
theorem whole_lt_real_iff {k : Int} {x : Float} :
    (Number.whole k).lt (.real x) ↔ Exact.compareInt k (.ofFloat x) = some .lt := by
  change (intLe k x && !leInt x k) = true ↔ _
  rcases horder : Exact.compareInt k (.ofFloat x) with _ | (_ | _ | _) <;>
    simp [intLe, leInt, horder]

/-- A limit that a count has not reached was not reached by a smaller one. -/
theorem whole_lt_of_le {j k : Int} (hjk : j ≤ k) {limit : Number Float}
    (h : (Number.whole k).lt limit) : (Number.whole j).lt limit := by
  cases limit with
  | whole l =>
    have hlt : k < l := of_decide_eq_true h
    exact decide_eq_true (show j < l by omega)
  | real x => exact whole_lt_real_iff.2 (compareInt_of_le hjk (whole_lt_real_iff.1 h))

/-- Where a restart is left, one was left before. -/
theorem mayRestart_of_le {o : Options Float} {j k : Int} (hjk : j ≤ k)
    (h : mayRestart o k = .ok true) : mayRestart o j = .ok true := by
  unfold mayRestart at h ⊢
  split at h
  · rename_i ho
    rw [if_pos ho]
    cases hlimit : o.maxRestart with
    | error fault =>
      rw [hlimit] at h
      cases h
    | ok limit =>
      rw [hlimit] at h
      exact congrArg Except.ok (whole_lt_of_le hjk (Except.ok.inj h))
  · cases h

/-! ## An iteration -/

section

variable {α : Type} [Scalar α] {n : Nat} {P : Type} [Coordinates α P] {extra : Nat} {ρ : Type}
variable {p : Problem α n} {o : Options α} {s t : Session α ρ (StateOn α n P extra)}

/-- The vertices that the step of an iteration leads to, before the simplex is
rebuilt or shrinks. -/
def StepsTo (p : Problem α n) (o : Options α) (s : Session α ρ (StateOn α n P extra))
    (vs : Vertices α n P extra) : Prop :=
  ∃ move accepted tally, tryStep p o s.state.vertices s.tally = .ok (move, accepted) tally ∧
    vs = accept s.state.vertices accepted

omit [Coordinates α P] in
theorem exists_sortVertices_of_accept (vs : Vertices α n P extra)
    (accepted : Option (Vertex α P)) :
    ∃ ws : Vertices α n P extra, accept vs accepted = sortVertices ws := by
  cases accepted with
  | some v => exact ⟨vs.replaceWorst v, rfl⟩
  | none => exact ⟨vs, rfl⟩

/-- Vertices of which all that a step may replace but the best have been
evaluated anew. -/
def Reevaluated (p : Problem α n) (vs ws : Vertices α n P extra) : Prop :=
  ws.best = vs.best ∧ ∀ i, IsEvaluated p (ws.other i)

/-- **What an iteration does to the mean** if it looks for stagnation: it puts
down that of the vertices which its step has led to, whatever becomes of them
then. -/
theorem iterate_mean {r : MoveReport} (h : iterate p o s = .ok r t)
    (hmay : mayRestart o s.state.restarts = .ok true) :
    ∃ vs ws : Vertices α n P extra, StepsTo p o s vs ∧ t.state.mean = vs.meanValue ∧
      t.state.vertices = sortVertices ws ∧
      (r.shrunk = false ∧ r.restarted = false ∧ ws = vs ∨
        (r.shrunk ∨ r.restarted) ∧ Reevaluated p vs ws) := by
  obtain ⟨move, accepted, tally, u, w, htry, hrestart, hshrunk, -, hlast, -, -, diameter, -,
    hstate⟩ := iterate_cases h
  refine ⟨accept s.state.vertices accepted, w.state.vertices, ⟨_, _, _, htry, rfl⟩, ?_⟩
  rw [hstate]
  rcases considerRestart_cases hrestart with ⟨hnot, -, -⟩ | ⟨-, radius, k, g, -, -, -, hrest⟩
  · cases hmay.symm.trans hnot
  rcases hrest with ⟨hno, rfl⟩ | ⟨hyes, v, hrebuilt, -, -, hv⟩
  · by_cases hshrink : r.shrunk
    · -- the simplex has shrunk, and the mean is the one before
      rw [if_pos hshrink] at hlast
      obtain ⟨hw, -, hbest, hnew, -⟩ := replaceEach_places isLocal_midpoint
        (List.nodup_finRange n) hlast
      exact ⟨congrArg StateOn.mean hw, rfl, .inr ⟨.inl hshrink, hbest, fun i =>
        (hnew i (List.mem_finRange i)).2⟩⟩
    · rw [if_neg hshrink] at hlast
      subst hlast
      exact ⟨rfl, rfl, .inl ⟨by simpa using hshrink, hno, rfl⟩⟩
  · -- a rebuilt simplex does not shrink
    rw [hshrunk, hyes, Bool.not_true, Bool.and_false, if_neg Bool.false_ne_true] at hlast
    subst hlast
    obtain ⟨-, -, hbest, hnew, -⟩ := replaceEach_places (fun _ _ _ _ _ => rfl)
      (List.nodup_finRange n) hrebuilt
    rw [hv]
    exact ⟨rfl, rfl, .inr ⟨.inr hyes, hbest, fun i => (hnew i (List.mem_finRange i)).2⟩⟩

/-- The number of restarts never falls. -/
theorem iterate_restarts_le {r : MoveReport} (h : iterate p o s = .ok r t) :
    s.state.restarts ≤ t.state.restarts := by
  obtain ⟨move, accepted, tally, -, hends⟩ := iterate_ends h
  generalize r.shrunk = shrunk, r.restarted = restarted at hends
  cases hends with
  | stepped _ _ _ hrestarts | shrunk _ _ _ _ _ _ hrestarts => exact hrestarts.ge
  | rebuilt _ _ _ _ _ _ _ hrestarts =>
    rw [hrestarts]
    exact Int.le_add_one (le_refl _)

end

/-! ## The sessions of a run -/

section

variable {n : Nat} {m : SimplexSearch Float n} {clock : Nat → Float} {d : Desk Float (Row Float)}
variable {s t : Session Float (Row Float) (State Float n)}

theorem start_mean (h : m.method.start clock d = .ok s) :
    s.state.mean = s.state.vertices.meanValue := by
  obtain ⟨d', hinitial, -⟩ := Method.exists_initial h
  obtain ⟨-, -, -, -, -, hmean, -⟩ := initialBy_cases hinitial
  exact hmean

/-- **The mean that stagnation is measured against.** At a session of a run
from which the next iteration looks for stagnation, either no iteration has
been made, and it is the mean of the vertices; or it is the mean of the
vertices that the last step has led to. If the iteration then did nothing else
to the simplex, it still is the mean of the vertices. If it shrank the simplex
or rebuilt it, the others than the best vertex have been evaluated anew, and
the mean that is measured against is the one before. -/
theorem mean_of_session (hs : m.method.Reaches clock d t)
    (hmay : mayRestart m.options t.state.restarts = .ok true) :
    (m.method.start clock d = .ok t ∧ t.state.mean = t.state.vertices.meanValue) ∨
      ∃ s r u, m.method.Reaches clock d s ∧ m.method.Turns clock s t ∧
        iterate m.problem m.options s = .ok r u ∧ u.state = t.state ∧
        ∃ vs ws : Vertices Float n (Point Float n) 0,
          StepsTo m.problem m.options s vs ∧ t.state.mean = vs.meanValue ∧
          t.state.vertices = sortVertices ws ∧
          (r.shrunk = false ∧ r.restarted = false ∧ ws = vs ∧
              t.state.mean = t.state.vertices.meanValue ∨
            (r.shrunk ∨ r.restarted) ∧ Reevaluated m.problem vs ws) := by
  obtain ⟨s₀, hstart, hturns⟩ := hs
  rcases hturns.cases_tail with rfl | ⟨s, hbefore, hturn⟩
  · exact .inl ⟨hstart, start_mean hstart⟩
  refine .inr ?_
  obtain ⟨r, u, hiterate, -, hstate⟩ := hturn.exists_iterate
  have hmay' : mayRestart m.options s.state.restarts = .ok true :=
    mayRestart_of_le (hstate ▸ iterate_restarts_le hiterate) hmay
  obtain ⟨vs, ws, hsteps, hmean, hvertices, hcases⟩ := iterate_mean hiterate hmay'
  rw [← hstate] at hmean hvertices
  refine ⟨s, r, u, ⟨s₀, hstart, hbefore⟩, hturn, hiterate, hstate.symm, vs, ws, hsteps, hmean,
    hvertices, ?_⟩
  rcases hcases with ⟨hshrunk, hrestarted, rfl⟩ | hchanged
  · refine .inl ⟨hshrunk, hrestarted, rfl, ?_⟩
    obtain ⟨move, accepted, tally, -, rfl⟩ := hsteps
    obtain ⟨xs, hxs⟩ := exists_sortVertices_of_accept s.state.vertices accepted
    rw [hmean, hvertices, hxs, meanValue_sortVertices_sortVertices]
  · exact .inr hchanged

end

/-- On a line, an objective that is high between zero and one and to the left
of them. -/
def gap : SimplexSearch Float 1 where
  problem :=
    { name := .absent
      objective := fun _ g =>
        let x := g.entries.headD zero
        .ok (if lt x zero then two else if lt zero x && lt x one then two else x)
      block := none, blockSize := 0, inequalities := [], equalities := []
      start := .replicate 1 zero, lower := .replicate 1 (-Extended.infinity)
      upper := .replicate 1 Extended.infinity
      constraintLower := .replicate 0 zero, constraintUpper := .replicate 0 zero }
  vertices := .ofFn fun j => .replicate 1 (ofInt j)
  options := optionsOf (Settings.default .simplex)
  budgets :=
    { evaluations := .ok none, time := .ok (.whole (-1)), iterations := .ok (some (.whole 1)) }

/-- The first iteration from zero and one shrinks the simplex, whose mean is
then higher than what the next search for stagnation will compare with. -/
theorem exists_gap_turn : ∃ s t, gap.method.start (fun _ => zero) (fresh .empty) = .ok s ∧
    gap.method.Turns (fun _ => zero) s t ∧
    mayRestart gap.options t.state.restarts = .ok true ∧
    t.state.mean ≠ t.state.vertices.meanValue := by
  obtain ⟨s, hs, hturn⟩ := Method.exists_start
    (show (gap.method.start (fun _ => zero) (fresh .empty)).toOption.any (fun s =>
      match gap.method.turn (fun _ => zero) s with
      | .ok _ t => t.state.restarts == 0 && lt t.state.mean t.state.vertices.meanValue
      | .error _ _ => false) by decide +kernel)
  split at hturn
  · rename_i t hturns
    obtain ⟨hrestarts, hlt⟩ := (Bool.and_eq_true _ _).mp hturn
    have hzero : t.state.restarts = 0 := by simpa using hrestarts
    refine ⟨s, t, hs, hturns, ?_, fun heq => OrderedScalar.lt_irrefl _ (heq ▸ hlt)⟩
    rw [hzero]
    rfl
  · cases hturn

/-- **The mean of the vertices lags** behind where the simplex has shrunk: a
run comes to a session that looks for stagnation next, and measures it against
another mean than that of its vertices. -/
theorem gap_mean_lags : ∃ t, gap.method.Reaches (fun _ => zero) (fresh .empty) t ∧
    mayRestart gap.options t.state.restarts = .ok true ∧
    t.state.mean ≠ t.state.vertices.meanValue := by
  obtain ⟨s, t, hs, hturn, hmay, hne⟩ := exists_gap_turn
  exact ⟨t, (Method.Reaches.of_start hs).turn hturn, hmay, hne⟩

/-- It is measured against the mean of the vertices that were shrunk. -/
theorem gap_mean_of_shrunk : ∃ t, gap.method.Reaches (fun _ => zero) (fresh .empty) t ∧
    mayRestart gap.options t.state.restarts = .ok true ∧
    ∃ s, ∃ vs ws : Vertices Float 1 (Point Float 1) 0, gap.method.Turns (fun _ => zero) s t ∧
      StepsTo gap.problem gap.options s vs ∧ t.state.mean = vs.meanValue ∧
      t.state.vertices = sortVertices ws ∧ Reevaluated gap.problem vs ws := by
  obtain ⟨s, t, hs, hturn, hmay, hne⟩ := exists_gap_turn
  have hreaches := (Method.Reaches.of_start hs).turn hturn
  rcases mean_of_session hreaches hmay with
    ⟨-, heq⟩ | ⟨s, r, u, -, hturn, -, -, vs, ws, hsteps, hmean, hvertices, hcases⟩
  · exact absurd heq hne
  rcases hcases with ⟨-, -, -, heq⟩ | ⟨-, hanew⟩
  · exact absurd heq hne
  · exact ⟨t, hreaches, hmay, s, vs, ws, hturn, hsteps, hmean, hvertices, hanew⟩

end SimplexSearch

end DirectSearch
