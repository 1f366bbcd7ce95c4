import DirectSearch.Proofs.Simplex.Elimination
import DirectSearch.Proofs.SimplexSearch.Returns
/-!
# Simplex search — a simplex stays one

In exact arithmetic, with weights that are not zero, no iteration flattens
the simplex. A trial is a combination of the corners in which the worst one
has the weight of the trial, so that accepting it multiplies the volume by
the size of the weight; a shrink divides it by `2 ^ n`, and the edges of a
rebuilt simplex lie along the axes (`Reshapes`). A simplex with a volume has a
gradient and vertices that keep apart, and so only the decrease that is asked
for can have it rebuilt.
-/

namespace DirectSearch

open Scalar Session Simplex

variable {n : Nat}

namespace Simplex.Vertices

variable (vs : Vertices ℝ n (Point ℝ n) 0)

theorem get_centroid :
    (Point.centroid ((vs.toList.take n).map (·.point))).get
      = (n : ℝ)⁻¹ • ∑ i : Fin n, vs.corners i.castSucc := by
  have hlist : ((vs.toList.take n).map (·.point)).map Vector.get
      = List.ofFn fun i : Fin n => vs.corners i.castSucc := by
    refine List.ext_getElem (by simp) fun i h₁ h₂ => ?_
    simp [corners]
  rw [Point.get_centroid, hlist, List.sum_ofFn]
  simp

/-- The weights of the corners in a trial. -/
noncomputable def trialWeight (n : Nat) (c : ℝ) (j : Fin (n + 1)) : ℝ :=
  if j = Fin.last n then c else (1 - c) / n

theorem sum_trialWeight (hn : 0 < n) (c : ℝ) : ∑ j, trialWeight n c j = 1 := by
  have hne : (n : ℝ) ≠ 0 := by positivity
  rw [Fin.sum_univ_castSucc]
  simp only [trialWeight, if_true, Fin.castSucc_ne_last, if_false, Finset.sum_const,
    Finset.card_univ, Fintype.card_fin, nsmul_eq_mul]
  field_simp
  ring

theorem get_trial (c : ℝ) :
    (Point.blend (1 - c) (Point.centroid ((vs.toList.take n).map (·.point))) c
      vs.worst.point).get = ∑ j, trialWeight n c j • vs.corners j := by
  rw [Point.get_blend, get_centroid, Fin.sum_univ_castSucc, smul_smul, Finset.smul_sum]
  simp only [trialWeight, if_true, Fin.castSucc_ne_last, if_false, div_eq_mul_inv]
  rfl

end Simplex.Vertices

namespace SimplexSearch

variable {ρ : Type} {p : Problem ℝ n} {o : Options ℝ} {vs : Vertices ℝ n (Point ℝ n) 0}
variable {s t : Session ℝ ρ (State ℝ n)}

/-! ## What the parts of an iteration do to the volume -/

/-- **A trial accepted** has the volume multiplied by the size of its
weight. -/
theorem volume_accept_some (hn : 0 < n) {weight : Stated ℝ} {c : ℝ} {v : Vertex ℝ (Point ℝ n)}
    (hweight : weight.toScalar = .ok c) (htrial : trial vs weight = .ok v.point) :
    volume (accept vs (some v)).corners = |c| * volume vs.corners := by
  have hpoint := Except.ok.inj ((trial_eq hweight).symm.trans htrial)
  rw [accept_some, Vertices.volume_sortVertices, Vertices.corners_replaceWorst, ← hpoint,
    Vertices.get_trial, volume_update _ (Vertices.sum_trialWeight hn c)]
  simp [Vertices.trialWeight]

theorem volume_accept_none : volume (accept vs none).corners = volume vs.corners :=
  vs.volume_sortVertices

/-- **A shrink** divides the volume by `2 ^ n`. -/
theorem volume_shrink (h : shrink p s = .ok () t) :
    volume t.state.vertices.corners = (2 ^ n)⁻¹ * volume s.state.vertices.corners := by
  obtain ⟨-, -, hbest, hnew, -⟩ := replaceEach_places isLocal_midpoint
    (List.nodup_finRange n) h
  refine volume_halved ?_ fun i => ?_
  · rw [Vertices.corners_zero, Vertices.corners_zero, hbest]
  · have hplace := (hnew i (List.mem_finRange i)).1
    rw [Coordinates.midpoint_point] at hplace
    rw [Vertices.corners_succ, ← Except.ok.inj hplace, Point.get_midpoint]
    rfl

theorem abs_orientation (c : ℝ) : |orientation c| = 1 := by
  unfold orientation
  split <;> simp

/-- **A rebuilt simplex** has its edges along the axes, all of half the radius
that it was given. -/
theorem corners_rebuilt {best : Point ℝ n} {g : Point ℝ n} {radius : ℝ}
    (hbest : s.state.vertices.best.point = best)
    (h : replaceEach p (fun _ i => rebuiltPoint best g radius i.val) (List.finRange n) s
      = .ok () t) (i : Fin n) :
    t.state.vertices.corners i.succ
      = t.state.vertices.corners 0 + Pi.single i (orientation (g.get i) * radius / 2) := by
  obtain ⟨-, -, hsame, hnew, -⟩ := replaceEach_places (fun _ _ _ _ _ => rfl)
    (List.nodup_finRange n) h
  have hplace := (hnew i (List.mem_finRange i)).1
  simp only [rebuiltPoint, i.isLt, dite_true, Coordinates.shift_point] at hplace
  rw [Vertices.corners_succ, Vertices.corners_zero, hsame, hbest, ← Except.ok.inj hplace,
    Point.get_shift, two_real]
  rfl

/-- So its volume does not depend on the one before. -/
theorem volume_rebuilt {best : Point ℝ n} {g : Point ℝ n} {radius : ℝ}
    (hbest : s.state.vertices.best.point = best)
    (h : replaceEach p (fun _ i => rebuiltPoint best g radius i.val) (List.finRange n) s
      = .ok () t) : volume t.state.vertices.corners = (|radius| / 2) ^ n := by
  rw [volume_axes (corners_rebuilt hbest h)]
  simp [abs_div, abs_mul, abs_orientation, div_pow]

/-! ## The iteration -/

/-- The mean has fallen, but by no more than the share of the squared gradient
that is asked for. -/
def HasStagnated (o : Options ℝ) (before now : ℝ) (g : Point ℝ n) : Prop :=
  ∃ share, o.decrease.toScalar = .ok share ∧ -share * Point.dot g g ≤ now - before ∧ now < before

/-- **How an iteration reshapes a simplex.** The volumes are those of the edges
from any corner, before and after. -/
structure Reshapes (p : Problem ℝ n) (o : Options ℝ) (s t : Session ℝ ρ (State ℝ n))
    (r : MoveReport) : Prop where
  /-- A trial was accepted, and no restart followed. -/
  accepted : r.restarted = false → r.shrunk = false → ∃ weight c, (r.move, weight) ∈ o.weights ∧
    weight.toScalar = .ok c ∧ ∀ j k,
      |(edges t.state.vertices.corners k).det| = |c| * |(edges s.state.vertices.corners j).det|
  shrunk : r.shrunk → ∀ j k, |(edges t.state.vertices.corners k).det|
    = (2 ^ n)⁻¹ * |(edges s.state.vertices.corners j).det|
  /-- The simplex behind the step has a gradient, and vertices that keep
  apart. If it was rebuilt, it had failed the test of the decrease. -/
  examined : ∃ move accepted tally,
    tryStep p o s.state.vertices s.tally = .ok (move, accepted) tally ∧
    ∃ radius, ∃ g : Gradient ℝ n,
      (accept s.state.vertices accepted).nearest = .ok radius ∧ 0 < radius ∧
      gradientOf (accept s.state.vertices accepted).toList = .ok ⟨n, g⟩ ∧ g.singular = false ∧
      (r.restarted → HasStagnated o s.state.mean (accept s.state.vertices accepted).meanValue
          g.vector ∧ ∀ k, |(edges t.state.vertices.corners k).det| = (radius / 2) ^ n)

theorem hasStagnated_of_stagnates {before now radius : ℝ} {g : Gradient ℝ n}
    (hradius : 0 < radius) (hg : g.singular = false)
    (h : stagnates o before now radius g = .ok true) : HasStagnated o before now g.vector := by
  unfold stagnates at h
  rw [if_neg (by simpa using hradius.ne'), if_neg (by simp [hg])] at h
  cases hk : o.decrease with
  | error fault =>
    rw [hk] at h
    cases h
  | ok k =>
    simp only [hk, bind, Except.bind, Number.toScalar_real] at h
    have htests := Except.ok.inj h
    simp only [Bool.and_eq_true, le_real, lt_real, decide_eq_true_eq, zero_real,
      Number.toReal_neg, sub_neg] at htests
    exact ⟨k.toReal, by rw [hk]; exact k.toScalar_real, htests⟩

/-- The settings are numbers, and no weight of a trial is zero. -/
structure Options.IsProper (o : Options ℝ) : Prop extends o.IsNumeric where
  weight_ne_zero : ∀ w ∈ o.weights, w.2.toScalar ≠ .ok 0

theorem Options.IsProper.exists_weight {w : Move × Stated ℝ} (ho : o.IsProper)
    (hw : w ∈ o.weights) : ∃ c, w.2.toScalar = .ok c ∧ c ≠ 0 := by
  obtain ⟨c, hc⟩ := ho.weight w hw
  refine ⟨c, hc, ?_⟩
  rintro rfl
  exact ho.weight_ne_zero w hw hc

/-- Behind a step the simplex has a volume if it had one before. -/
theorem volume_stepped_ne_zero (hn : 0 < n) (ho : o.IsProper) (hvs : volume vs.corners ≠ 0)
    {move : Move} {accepted : Option (Vertex ℝ (Point ℝ n))} {tally u : Tally ℝ}
    (h : tryStep p o vs tally = .ok (move, accepted) u) :
    volume (accept vs accepted).corners ≠ 0 := by
  cases accepted with
  | none => rwa [volume_accept_none]
  | some v =>
    obtain ⟨-, weight, hmem, htrial⟩ := (tried_of_tryStep h).exists_weight
    obtain ⟨c, hc, hne⟩ := ho.exists_weight hmem
    rw [volume_accept_some hn hc htrial]
    exact mul_ne_zero (abs_ne_zero.2 hne) hvs

/-- **A restart** of a simplex that has a gradient and vertices apart. -/
theorem considerRestart_volume {restarted : Bool} (radius : ℝ) (g : Gradient ℝ n)
    (h : considerRestart p o s = .ok restarted t)
    (hradius : s.state.vertices.nearest = .ok radius) (hpos : 0 < radius)
    (hg : gradientOf s.state.vertices.toList = .ok ⟨n, g⟩) (hregular : g.singular = false) :
    restarted = false ∧ t.state.vertices = s.state.vertices ∨
      restarted = true ∧ HasStagnated o s.state.mean s.state.vertices.meanValue g.vector ∧
        volume t.state.vertices.corners = (radius / 2) ^ n := by
  rcases considerRestart_cases h with ⟨-, rfl, rfl⟩ | ⟨-, _, _, _, hradius', hg', hstagnates, hrest⟩
  · exact .inl ⟨rfl, rfl⟩
  · cases hradius.symm.trans hradius'
    cases hg.symm.trans hg'
    rcases hrest with ⟨rfl, rfl⟩ | ⟨rfl, u, hrebuilt, -, -, hstate⟩
    · exact .inl ⟨rfl, rfl⟩
    · refine .inr ⟨rfl, hasStagnated_of_stagnates hpos hregular hstagnates, ?_⟩
      rw [hstate, ← abs_of_pos hpos]
      exact volume_rebuilt rfl hrebuilt

/-- **What an iteration does to the volume:** a trial accepted multiplies it,
a shrink divides it, and a rebuilt simplex has one of its own. -/
theorem iterate_volume (hn : 0 < n) (ho : o.IsProper) {r : MoveReport} (h : iterate p o s = .ok r t)
    {move : Move} {accepted : Option (Vertex ℝ (Point ℝ n))} {tally : Tally ℝ}
    (htry : tryStep p o s.state.vertices s.tally = .ok (move, accepted) tally)
    {radius : ℝ} (hradius : (accept s.state.vertices accepted).nearest = .ok radius)
    (hpos : 0 < radius) {g : Gradient ℝ n}
    (hg : gradientOf (accept s.state.vertices accepted).toList = .ok ⟨n, g⟩)
    (hregular : g.singular = false) :
    r.restarted = false ∧ r.shrunk = false ∧
        (∃ weight c, (r.move, weight) ∈ o.weights ∧ weight.toScalar = .ok c ∧ c ≠ 0 ∧
          volume t.state.vertices.corners = |c| * volume s.state.vertices.corners) ∨
      r.restarted = false ∧ r.shrunk = true ∧
        volume t.state.vertices.corners = (2 ^ n)⁻¹ * volume s.state.vertices.corners ∨
      r.restarted = true ∧ r.shrunk = false ∧
        HasStagnated o s.state.mean (accept s.state.vertices accepted).meanValue g.vector ∧
        volume t.state.vertices.corners = (radius / 2) ^ n := by
  obtain ⟨_, _, _, u, w, htry', hrestart, hshrunk, hmove, hlast, -, -, _, -, hstate⟩ :=
    iterate_cases h
  cases htry.symm.trans htry'
  have hsorted : volume t.state.vertices.corners = volume w.state.vertices.corners := by
    rw [hstate, Vertices.volume_sortVertices]
  have hcases := considerRestart_volume radius g hrestart
  rw [vertices_stepped, mean_stepped] at hcases
  rcases hcases hradius hpos hg hregular with ⟨hkept, hu⟩ | ⟨hrebuilt, hstagnated, hu⟩
  · cases accepted with
    | none =>
      -- nothing else has changed the simplex, and it shrinks
      have hyes : r.shrunk = true := by simp [hshrunk, hkept]
      rw [if_pos hyes] at hlast
      exact .inr (.inl ⟨hkept, hyes, by rw [hsorted, volume_shrink hlast, hu, volume_accept_none]⟩)
    | some v =>
      have hno : r.shrunk = false := by simp [hshrunk]
      rw [if_neg (by simp [hno])] at hlast
      obtain ⟨-, weight, hmem, htrial⟩ := (tried_of_tryStep htry).exists_weight
      obtain ⟨c, hc, hne⟩ := ho.exists_weight hmem
      have hmove' : r.move = move := by simp [hmove, hkept]
      refine .inl ⟨hkept, hno, weight, c, hmove' ▸ hmem, hc, hne, ?_⟩
      rw [hsorted, hlast, hu, volume_accept_some hn hc htrial]
  · have hno : r.shrunk = false := by simp [hshrunk, hrebuilt]
    rw [if_neg (by simp [hno])] at hlast
    exact .inr (.inr ⟨hrebuilt, hno, hstagnated, by rw [hsorted, hlast, hu]⟩)

/-- **An iteration leaves a simplex with a volume,** and reshapes it. -/
theorem iterate_reshapes (hn : 0 < n) (ho : o.IsProper)
    (hs : volume s.state.vertices.corners ≠ 0) {r : MoveReport} (h : iterate p o s = .ok r t) :
    volume t.state.vertices.corners ≠ 0 ∧ Reshapes p o s t r := by
  obtain ⟨move, accepted, tally, _, _, htry, -⟩ := iterate_cases h
  have hstepped := volume_stepped_ne_zero hn ho hs htry
  obtain ⟨radius, hradius, hpos⟩ := Vertices.exists_nearest_pos _ hn hstepped
  obtain ⟨g, hg, hregular⟩ := Vertices.gradientOf_regular hn hstepped
  rcases iterate_volume hn ho h htry hradius hpos hg hregular with
    ⟨hkept, hno, weight, c, hmem, hc, hne, hvolume⟩ | ⟨hkept, hyes, hvolume⟩ |
    ⟨hrebuilt, hno, hstagnated, hvolume⟩
  · refine ⟨?_, fun _ _ => ⟨weight, c, hmem, hc, fun j k => ?_⟩, ?_, move, accepted, tally, htry,
      radius, g, hradius, hpos, hg, hregular, ?_⟩
    · rw [hvolume]
      exact mul_ne_zero (abs_ne_zero.2 hne) hs
    · rw [abs_det_edges, abs_det_edges, hvolume]
    · simp [hno]
    · simp [hkept]
  · refine ⟨?_, ?_, fun _ j k => ?_, move, accepted, tally, htry, radius, g, hradius, hpos, hg,
      hregular, ?_⟩
    · rw [hvolume]
      exact mul_ne_zero (by positivity) hs
    · simp [hyes]
    · rw [abs_det_edges, abs_det_edges, hvolume]
    · simp [hkept]
  · refine ⟨?_, ?_, ?_, move, accepted, tally, htry, radius, g, hradius, hpos, hg, hregular,
      fun _ => ⟨hstagnated, fun k => ?_⟩⟩
    · rw [hvolume]
      positivity
    · simp [hrebuilt]
    · simp [hno]
    · rw [abs_det_edges, hvolume]

/-! ## Runs -/

variable {m : SimplexSearch ℝ n} {clock : Nat → ℝ} {d : Desk ℝ (Row ℝ)}

/-- The first session has the vertices that the search was set up with. -/
theorem volume_start {s : Session ℝ (Row ℝ) (State ℝ n)} (h : m.method.start clock d = .ok s) :
    volume s.state.vertices.corners = volume fun j => (m.vertices.get j).get := by
  obtain ⟨d', hinitial, -, -⟩ := Method.exists_initial h
  obtain ⟨vs, hsorted, hpoints, -⟩ := initial_vertices hinitial
  have hcorners : vs.corners = fun j => (m.vertices.get j).get := by
    funext j
    have hpoint : vs[j.val].point = m.vertices[j.val] := by
      have hj := congrArg (·[j.val]?) hpoints
      simpa [j.isLt] using hj
    exact congrArg Vector.get hpoint
  rw [hsorted, Vertices.volume_sortVertices, hcorners]

/-- The sessions of a run have a simplex with a volume. -/
theorem reaches_volume (hn : 0 < n) (ho : m.options.IsProper)
    (hstart : AffineIndependent ℝ fun j => (m.vertices.get j).get)
    {s : Session ℝ (Row ℝ) (State ℝ n)} (hs : m.method.Reaches clock d s) :
    volume s.state.vertices.corners ≠ 0 := by
  refine hs.induction (I := fun s => volume s.state.vertices.corners ≠ 0) ?_ ?_
  · intro s hs
    rw [volume_start hs]
    exact affineIndependent_iff.1 hstart
  · intro s t _ hs ht
    obtain ⟨r, t', hiterate, -, hstate⟩ := ht.exists_iterate
    rw [hstate]
    exact (iterate_reshapes hn ho hs hiterate).1

/-- **A simplex that spans the space spans it for good,** in exact arithmetic,
with weights that are not zero and for any objective that returns. Every
iteration of a run reshapes it by a known factor, or rebuilds it with a known
volume, and finds its gradient and its vertices in order. The simplex around a
point is one to start with. -/
theorem run_spans (hn : 0 < n) (m : SimplexSearch ℝ n) (clock : Nat → ℝ) (d : Desk ℝ (Row ℝ))
    (hobjective : ReturnsOnSpace m.problem) (hproper : m.options.IsProper) :
    (∀ x : Point ℝ n, AffineIndependent ℝ fun j => ((around x).get j).get) ∧
      (AffineIndependent ℝ (fun j => (m.vertices.get j).get) →
        (∃ s, m.method.start clock d = .ok s) ∧
        ∀ s, m.method.Reaches clock d s → AffineIndependent ℝ s.state.vertices.corners ∧
          ∃ r t, iterate m.problem m.options s = .ok r t ∧
            Reshapes m.problem m.options s t r) := by
  refine ⟨fun x => affineIndependent_iff.2 (volume_around_ne_zero x), fun hstart => ?_⟩
  refine ⟨exists_start hobjective, fun s hs => ?_⟩
  have hvolume := reaches_volume hn hproper hstart hs
  obtain ⟨r, t, hiterate⟩ := returns_iterate hobjective hproper.toIsNumeric hn s
  exact ⟨affineIndependent_iff.2 hvolume, r, t, hiterate,
    (iterate_reshapes hn hproper hvolume hiterate).2⟩

/-- A search on a line for the least square, from the simplex around zero and
with the usual weights. -/
noncomputable def parabola : SimplexSearch ℝ 1 where
  problem :=
    { name := .absent
      objective := fun _ g => .ok (square (g.entries.headD zero))
      block := none, blockSize := 0, inequalities := [], equalities := []
      start := Point.origin, lower := Point.origin, upper := Point.origin
      constraintLower := .replicate 0 zero, constraintUpper := .replicate 0 zero }
  vertices := around Point.origin
  options :=
    { tolerance := .ok (.whole 0)
      reflection := .ok (.whole (-1)), expansion := .ok (.whole (-2))
      outside := .ok (.real (-(one / two))), inside := .ok (.real (one / two))
      orientedRestart := true, maxRestart := .ok (.whole 3), decrease := .ok (.real (1 / 10000)) }
  budgets := { evaluations := .ok none, time := .ok (.whole (-1)), iterations := .ok none }

theorem parabola_proper : parabola.options.IsProper where
  weight := by simp [Options.weights, parabola, Stated.toScalar, Except.bind]
  maxRestart := ⟨_, rfl⟩
  decrease := ⟨_, rfl⟩
  weight_ne_zero := by
    simp [Options.weights, parabola, Stated.toScalar, Except.bind, Number.toReal]

/-- Its simplex spans the line at the start, and is reshaped from there. -/
theorem parabola_spans :
    ∃ s, parabola.method.Reaches (fun _ => 0) (fresh .empty) s ∧
      AffineIndependent ℝ s.state.vertices.corners ∧
      ∃ r t, iterate parabola.problem parabola.options s = .ok r t ∧
        Reshapes parabola.problem parabola.options s t r := by
  obtain ⟨haround, hrun⟩ := run_spans (by decide) parabola (fun _ => 0) (fresh .empty)
    (fun _ _ => ⟨_, rfl⟩) parabola_proper
  obtain ⟨⟨s, hs⟩, hreached⟩ := hrun (haround Point.origin)
  exact ⟨s, .of_start hs, hreached s (.of_start hs)⟩

end SimplexSearch

end DirectSearch
