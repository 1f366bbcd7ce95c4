import DirectSearch.Proofs.SimplexSearch.Replacement
import Mathlib.Analysis.Convex.Jensen
import Mathlib.Analysis.Convex.SpecificFunctions.Deriv
/-!
# Simplex search — a strictly convex function never has it shrink

The centroid of the vertices in front of the worst one is no worse than the
last of them. With the usual weights a contraction beyond the centroid is
halfway from it to the reflection, and one towards the worst vertex halfway to
that, so that for a convex function either is accepted whenever it is tried:
the first because the reflection was no better than the vertices it has to
beat, the second because the function is strictly convex and the centroid of a
simplex with a volume is not its worst vertex. So no iteration shrinks
(`run_never_shrinks`).
-/

namespace DirectSearch.SimplexSearch

open Scalar Session Simplex Sorting

variable {n : Nat} {p : Problem ℝ n} {o : Options ℝ} {vs : Vertices ℝ n (Point ℝ n) 0}
variable {f : (Fin n → ℝ) → ℝ}

/-- The weights of the textbook. -/
structure Options.HasUsualWeights (o : Options ℝ) : Prop where
  reflection : o.reflection.toScalar = .ok (-1)
  expansion : o.expansion.toScalar = .ok (-2)
  outside : o.outside.toScalar = .ok (-(1 / 2))
  inside : o.inside.toScalar = .ok (1 / 2)

/-- The objective is a function of the point. -/
def Computes (p : Problem ℝ n) (f : (Fin n → ℝ) → ℝ) : Prop :=
  ∀ counters (x : Point ℝ n), p.objective counters x.toGrid = .ok (f x.get)

/-- What the vertices of a run are like: they span the space, have the values
of the function, and are sorted. -/
structure IsOrdered (f : (Fin n → ℝ) → ℝ) (vs : Vertices ℝ n (Point ℝ n) 0) : Prop where
  volume_ne_zero : volume vs.corners ≠ 0
  value : ∀ v ∈ vs.toList, v.value = f v.point.get
  sorted : IsSorted Vertex.value vs.toList

/-! ## The centroid -/

/-- The centroid of the vertices in front of the worst one. -/
noncomputable def centre (vs : Vertices ℝ n (Point ℝ n) 0) : Fin n → ℝ :=
  (n : ℝ)⁻¹ • ∑ i : Fin n, vs.corners i.castSucc

namespace IsOrdered

variable (h : IsOrdered f vs)

include h

theorem value_eq (j : Fin (n + 1)) : (vs.get j).value = f (vs.corners j) :=
  h.value vs[j.val] (by simp)

theorem value_mono {i j : Fin (n + 1)} (hij : i ≤ j) : vs[i.val].value ≤ vs[j.val].value := by
  rcases eq_or_lt_of_le hij with rfl | hlt
  · exact le_rfl
  · have hlength : vs.toList.length = n + 1 := vs.length_toList
    have hsorted := List.pairwise_iff_getElem.1 h.sorted i.val j.val (by omega) (by omega) hlt
    simpa using hsorted

theorem nextToWorst_le_worst (hn : 0 < n) : vs.nextToWorst.value ≤ vs.worst.value :=
  h.value_mono (i := ⟨n - 1, by omega⟩) (j := Fin.last n) (Fin.le_last _)

/-- **The centroid is no worse** than the last of its vertices. -/
theorem centre_le (hn : 0 < n) (hf : ConvexOn ℝ Set.univ f) :
    f (centre vs) ≤ vs.nextToWorst.value := by
  have hne : (n : ℝ) ≠ 0 := by positivity
  have hvalue (i : Fin n) : f (vs.corners i.castSucc) ≤ vs.nextToWorst.value := by
    rw [← h.value_eq]
    exact h.value_mono (i := i.castSucc) (j := ⟨n - 1, by omega⟩) (by
      rw [Fin.le_def, Fin.val_castSucc]
      dsimp only
      omega)
  calc f (centre vs)
      = f (∑ i : Fin n, (n : ℝ)⁻¹ • vs.corners i.castSucc) := by rw [centre, Finset.smul_sum]
    _ ≤ ∑ i : Fin n, (n : ℝ)⁻¹ • f (vs.corners i.castSucc) :=
        hf.map_sum_le (fun _ _ => by positivity) (by simp [hne]) fun _ _ => Set.mem_univ _
    _ ≤ ∑ _i : Fin n, (n : ℝ)⁻¹ • vs.nextToWorst.value :=
        Finset.sum_le_sum fun i _ => smul_le_smul_of_nonneg_left (hvalue i) (by positivity)
    _ = vs.nextToWorst.value := by simp [hne]

/-- It is not the worst vertex: the simplex would be flat. -/
theorem centre_ne_worst (hn : 0 < n) : centre vs ≠ vs.worst.point.get := by
  intro heq
  -- the centroid is the trial of weight zero, and to put it in the place of
  -- the worst vertex would change nothing and yet take the volume away
  have hflat := vs.get_trial 0
  rw [Point.get_blend, Vertices.get_centroid, zero_smul, add_zero, sub_zero, one_smul] at hflat
  change centre vs = _ at hflat
  have hupdate := volume_update (x := vs.corners) (Fin.last n) (Vertices.sum_trialWeight hn 0)
  rw [← hflat, heq, ← Vertices.corners_last, Function.update_eq_self] at hupdate
  exact h.volume_ne_zero (by simpa [Vertices.trialWeight] using hupdate)

end IsOrdered

/-! ## The step -/

section

variable (hp : Computes p f)

include hp

theorem IsEvaluated.value_eq {v : Vertex ℝ (Point ℝ n)} (h : IsEvaluated p v) :
    v.value = f v.point.get := by
  obtain ⟨counters, hv⟩ := h
  exact Except.ok.inj (hv.symm.trans (hp counters v.point))

variable {tally u : Tally ℝ} {v : Vertex ℝ (Point ℝ n)}

/-- The value of a trial, by its weight. -/
theorem value_of_tryVertex {weight : Stated ℝ} {c : ℝ} (hc : weight.toScalar = .ok c)
    (h : tryVertex p vs weight tally = .ok v u) :
    v.value = f ((1 - c) • centre vs + c • vs.worst.point.get) := by
  obtain ⟨htrial, hevaluated⟩ := isEvaluated_of_tryVertex h
  have hpoint := Except.ok.inj ((trial_eq hc).symm.trans htrial)
  rw [hevaluated.value_eq hp, ← hpoint, Point.get_blend, Vertices.get_centroid]
  rfl

variable (ho : o.HasUsualWeights) (hn : 0 < n)

include ho hn

/-- **A contraction beyond the centroid** is no worse than a reflection that
is none of the better vertices' equal. -/
theorem outside_le (hvs : IsOrdered f vs) (hf : ConvexOn ℝ Set.univ f)
    {r c : Vertex ℝ (Point ℝ n)} {t : Tally ℝ}
    (hr : tryVertex p vs o.reflection tally = .ok r t)
    (hc : tryVertex p vs o.outside t = .ok c u) (hnext : vs.nextToWorst.value ≤ r.value) :
    c.value ≤ r.value := by
  have hcentre := hvs.centre_le hn hf
  have hreflected := value_of_tryVertex hp ho.reflection hr
  have hcontracted := value_of_tryVertex hp ho.outside hc
  set x := (1 - (-1 : ℝ)) • centre vs + (-1 : ℝ) • vs.worst.point.get with hx
  have hhalfway : (1 - (-(1 / 2) : ℝ)) • centre vs + (-(1 / 2) : ℝ) • vs.worst.point.get
      = (1 / 2 : ℝ) • centre vs + (1 / 2 : ℝ) • x := by
    rw [hx]
    module
  have hjensen := hf.2 (Set.mem_univ (centre vs)) (Set.mem_univ x)
    (by norm_num : (0 : ℝ) ≤ 1 / 2) (by norm_num : (0 : ℝ) ≤ 1 / 2) (by norm_num)
  -- the centroid is no worse than the reflection, nor is what lies between
  rw [hcontracted, hhalfway]
  simp only [smul_eq_mul] at hjensen
  linarith

/-- **A contraction towards the worst vertex** is better than that. -/
theorem inside_lt (hvs : IsOrdered f vs) (hf : StrictConvexOn ℝ Set.univ f)
    {c : Vertex ℝ (Point ℝ n)} {t : Tally ℝ} (hc : tryVertex p vs o.inside t = .ok c u) :
    c.value < vs.worst.value := by
  have hcentre := (hvs.centre_le hn hf.convexOn).trans (hvs.nextToWorst_le_worst hn)
  have hworst : vs.worst.value = f vs.worst.point.get := hvs.value_eq (Fin.last n)
  have hcontracted := value_of_tryVertex hp ho.inside hc
  have hjensen := hf.2 (Set.mem_univ (centre vs)) (Set.mem_univ vs.worst.point.get)
    (hvs.centre_ne_worst hn) (by norm_num : (0 : ℝ) < 1 / 2) (by norm_num : (0 : ℝ) < 1 / 2)
    (by norm_num)
  rw [hcontracted, show (1 : ℝ) - 1 / 2 = 1 / 2 by norm_num]
  simp only [smul_eq_mul] at hjensen
  linarith

/-- **Some trial is accepted:** where neither the reflection nor an expansion
is, the contraction on the side of the better of reflection and worst
vertex. -/
theorem tried_accepts (hvs : IsOrdered f vs) (hf : StrictConvexOn ℝ Set.univ f) {move : Move}
    {accepted : Option (Vertex ℝ (Point ℝ n))} (h : Tried p o vs tally u move accepted) :
    accepted.isSome ∧ ∃ r t, tryVertex p vs o.reflection tally = .ok r t ∧
      (move = .reflection ∨ move = .expansion ∨
        move = .outsideContraction ∧ r.value < vs.worst.value ∨
        move = .insideContraction ∧ vs.worst.value ≤ r.value) := by
  cases h with
  | reflected hr | unexpanded hr => exact ⟨rfl, _, _, hr, .inl rfl⟩
  | expanded hr => exact ⟨rfl, _, _, hr, .inr (.inl rfl)⟩
  | outside hr _ _ hworst =>
    exact ⟨rfl, _, _, hr, .inr (.inr (.inl ⟨rfl, by simpa using hworst⟩))⟩
  | inside hr _ _ hworst =>
    exact ⟨rfl, _, _, hr, .inr (.inr (.inr ⟨rfl, by simpa using hworst⟩))⟩
  | refusedOutside hr hc hnext _ hnot =>
    have hle := outside_le hp ho hn hvs hf.convexOn hr hc (by simpa using hnext)
    exact absurd (by simpa using hle) hnot
  | refusedInside _ hc _ _ hnot =>
    exact absurd (by simpa using inside_lt hp ho hn hvs hf hc) hnot
  | unplaced _ hmiddling hbest hnext =>
    -- the order of real numbers places every reflection
    simp only [le_real, lt_real, decide_eq_true_eq, not_and, not_lt, not_le] at *
    exact absurd (hmiddling hbest) (not_le.2 hnext)

end

/-! ## Runs -/

theorem Options.HasUsualWeights.isProper (ho : o.HasUsualWeights)
    (hrestart : ∃ k, o.maxRestart = .ok k) (hdecrease : ∃ k, o.decrease = .ok k) : o.IsProper where
  weight := by
    simp [Options.weights, ho.reflection, ho.expansion, ho.outside, ho.inside]
  maxRestart := hrestart
  decrease := hdecrease
  weight_ne_zero := by
    simp [Options.weights, ho.reflection, ho.expansion, ho.outside, ho.inside]

variable {m : SimplexSearch ℝ n} {clock : Nat → ℝ} {d : Desk ℝ (Row ℝ)}

/-- The sessions of a run have ordered vertices, from a simplex that spans the
space. -/
theorem reaches_ordered (hn : 0 < n) (hp : Computes m.problem f) (ho : m.options.IsProper)
    (hstart : AffineIndependent ℝ fun j => (m.vertices.get j).get)
    {s : Session ℝ (Row ℝ) (State ℝ n)} (hs : m.method.Reaches clock d s) :
    IsOrdered f s.state.vertices := by
  obtain ⟨hevaluated, horder⟩ := reaches_inOrder (isDefined_real m.problem) hs
  exact ⟨reaches_volume hn ho hstart hs, fun v hv => (hevaluated v hv).value_eq hp, horder.sorted⟩

/-- **No iteration shrinks** in a run on a strictly convex function from a
simplex that spans the space, in exact arithmetic and with the usual weights,
whether or not the simplex may be rebuilt. Every iteration takes a vertex that
its step accepts: where that is neither the reflection nor an expansion, it is
the contraction beyond the centroid if the reflection is better than the worst
vertex, and the one towards that vertex otherwise. -/
theorem run_never_shrinks (hn : 0 < n) (m : SimplexSearch ℝ n) (clock : Nat → ℝ)
    (d : Desk ℝ (Row ℝ)) (hf : StrictConvexOn ℝ Set.univ f) (hp : Computes m.problem f)
    (ho : m.options.HasUsualWeights) (hrestart : ∃ k, m.options.maxRestart = .ok k)
    (hdecrease : ∃ k, m.options.decrease = .ok k)
    (hstart : AffineIndependent ℝ fun j => (m.vertices.get j).get) :
    (∃ s, m.method.start clock d = .ok s) ∧
      ∀ s, m.method.Reaches clock d s →
        ∃ r t move v, iterate m.problem m.options s = .ok r t ∧ r.shrunk = false ∧
          r.move ≠ .shrink ∧ Takes m.problem m.options s t r move v ∧
          ∃ x u,
            tryVertex m.problem s.state.vertices m.options.reflection s.tally = .ok x u ∧
            (move = .reflection ∨ move = .expansion ∨
              move = .outsideContraction ∧ x.value < s.state.vertices.worst.value ∨
              move = .insideContraction ∧ s.state.vertices.worst.value ≤ x.value) := by
  have hproper := ho.isProper hrestart hdecrease
  have hreturns : ReturnsOnSpace m.problem := fun counters x => ⟨_, hp counters x⟩
  refine ⟨exists_start hreturns, fun s hs => ?_⟩
  have hordered := reaches_ordered hn hp hproper hstart hs
  obtain ⟨-, hsorted⟩ := reaches_inOrder (isDefined_real m.problem) hs
  obtain ⟨r, t, hiterate⟩ := returns_iterate hreturns hproper.toIsNumeric hn s
  obtain ⟨move, accepted, u, htry, -⟩ := iterate_ends hiterate
  obtain ⟨hsome, hcases⟩ := tried_accepts hp ho hn hordered hf (tried_of_tryStep htry)
  obtain ⟨v, rfl⟩ := Option.isSome_iff_exists.1 hsome
  have htakes := takes_of_iterate hsorted hiterate htry
  refine ⟨r, t, move, v, hiterate, htakes.shrunk, ?_, htakes, hcases⟩
  obtain ⟨x, w, -, hmoves⟩ := hcases
  rw [htakes.move]
  split
  · exact nofun
  · rcases hmoves with rfl | rfl | ⟨rfl, -⟩ | ⟨rfl, -⟩ <;> exact nofun

theorem strictConvexOn_square : StrictConvexOn ℝ Set.univ fun x : Fin 1 → ℝ => x 0 * x 0 := by
  refine ⟨convex_univ, fun x _ y _ hne a b ha hb hab => ?_⟩
  have hne' : x 0 ≠ y 0 := fun h => hne (funext fun i => by rwa [Subsingleton.elim i 0])
  have hsquare := (even_two.strictConvexOn_pow two_ne_zero).2 (Set.mem_univ (x 0))
    (Set.mem_univ (y 0)) hne' ha hb hab
  simpa [sq] using hsquare

/-- The search for the least square takes a vertex from the start. -/
theorem parabola_never_shrinks :
    ∃ s, parabola.method.Reaches (fun _ => 0) (fresh .empty) s ∧
      ∃ r t move v, iterate parabola.problem parabola.options s = .ok r t ∧ r.shrunk = false ∧
        r.move ≠ .shrink ∧ Takes parabola.problem parabola.options s t r move v := by
  have hcomputes : Computes parabola.problem fun x => x 0 * x 0 := by
    intro counters x
    have hentries : x.toGrid.entries = [x.get 0] := by
      refine List.ext_getElem x.length_toList fun i h₁ h₂ => ?_
      obtain rfl : i = 0 := by simpa using h₂
      simp [Point.toGrid, Grid.ofList, Point.get_eq]
    simp only [parabola, hentries]
    rfl
  have hweights : parabola.options.HasUsualWeights := by
    constructor <;> simp [parabola, Stated.toScalar, Except.bind, Number.toReal]
  obtain ⟨⟨s, hs⟩, hreached⟩ := run_never_shrinks (by decide) parabola (fun _ => 0) (fresh .empty)
    strictConvexOn_square hcomputes hweights ⟨_, rfl⟩ ⟨_, rfl⟩
    (affineIndependent_iff.2 (volume_around_ne_zero Point.origin))
  obtain ⟨r, t, move, v, hiterate, hshrunk, hmove, htakes, -⟩ := hreached s (.of_start hs)
  exact ⟨s, .of_start hs, r, t, move, v, hiterate, hshrunk, hmove, htakes⟩

end DirectSearch.SimplexSearch
