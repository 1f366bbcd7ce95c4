import DirectSearch.Proofs.Search.Courses
import DirectSearch.Proofs.SimplexSearch.Spanning
import Mathlib.LinearAlgebra.AffineSpace.Combination
/-!
# Simplex search — it goes along with affine maps

Every point that a simplex search comes to is a combination of vertices with
weights that add up to one: a trial is one of all vertices, and a shrink takes
midpoints. An affine map takes such combinations to combinations. If the
objective of another search has at the image of a point the value of the
first one there, the two searches therefore see the same values, in exact
arithmetic, and take one course, point and image (`runs_with_images`), as long
as nothing looks at lengths: simplices are not rebuilt, and none is small
enough to end the search.
-/

namespace DirectSearch

open Scalar Session Simplex

variable {n : Nat} {T : (Fin n → ℝ) →ᵃ[ℝ] Fin n → ℝ}

/-! ## Images -/

/-- **An affine map takes combinations to combinations,** if their weights add
up to one. -/
theorem map_combination {ι : Type} [Fintype ι] {w : ι → ℝ} (hw : ∑ j, w j = 1)
    (x : ι → Fin n → ℝ) : T (∑ j, w j • x j) = ∑ j, w j • T (x j) := by
  rw [← Finset.univ.affineCombination_eq_linear_combination x w hw,
    Finset.univ.map_affineCombination x w hw,
    Finset.univ.affineCombination_eq_linear_combination _ w hw]
  rfl

namespace Point

variable (T)

/-- The image of a point. -/
def image (x : Point ℝ n) : Point ℝ n := .ofFn (T x.get)

@[simp] theorem get_image (x : Point ℝ n) : (x.image T).get = T x.get := by
  ext i
  simp [image, get_eq]

theorem image_midpoint (x y : Point ℝ n) :
    (midpoint x y).image T = midpoint (x.image T) (y.image T) := by
  have hweights : ∑ _j : Fin 2, (2 : ℝ)⁻¹ = 1 := by norm_num
  have hmap := map_combination (T := T) hweights ![x.get, y.get]
  refine ext_get ?_
  rw [get_image, get_midpoint, get_midpoint, get_image, get_image]
  simpa [Fin.sum_univ_two, smul_add] using hmap

end Point

namespace Simplex.Vertices

variable (T) (vs : Vertices ℝ n (Point ℝ n) 0)

/-- The vertices at the images of their points, with the values that they
have. -/
def image : Vertices ℝ n (Point ℝ n) 0 := vs.map fun v => { v with point := v.point.image T }

theorem corners_image (j : Fin (n + 1)) : (vs.image T).corners j = T (vs.corners j) := by
  simp [corners, image]

/-- **The trial of the images** is the image of the trial. -/
theorem image_trial (c : ℝ) :
    Point.blend (1 - c) (Point.centroid (((vs.image T).toList.take n).map (·.point))) c
        (vs.image T).worst.point
      = (Point.blend (1 - c) (Point.centroid ((vs.toList.take n).map (·.point))) c
          vs.worst.point).image T := by
  refine Point.ext_get ?_
  obtain rfl | hn := Nat.eq_zero_or_pos n
  · exact Subsingleton.elim _ _
  · rw [Point.get_image, get_trial, get_trial, map_combination (sum_trialWeight hn c)]
    simp only [corners_image]

end Simplex.Vertices

namespace SimplexSearch

variable {p p' : Problem ℝ n} {o : Options ℝ} {starts : Vector (Point ℝ n) (n + 1)}
variable {ρ : Type} {d : Desk ℝ ρ}

theorem trial_image (vs : Vertices ℝ n (Point ℝ n) 0) (weight : Stated ℝ) :
    trial (vs.image T) weight = (trial vs weight).map (Point.image T) := by
  cases weight with
  | error fault => simp [trial, Vertices.centroid, bind, Except.bind, Except.map]
  | ok c =>
    have hc : Stated.toScalar (.ok c) = .ok c.toReal := c.toScalar_real
    rw [trial_eq hc, trial_eq hc, vs.image_trial]
    rfl

/-! ## Searches at images -/

/-- The outlook of two searches of which the second is at the images of the
points where the first is, and sees the same values there. -/
def Outlook.image (T : (Fin n → ℝ) →ᵃ[ℝ] Fin n → ℝ) (d : Desk ℝ ρ) : Outlook ℝ n :=
  { Pairing.atDesk (fun _ => Eq) d with
    points := fun g g' => ∃ x : Point ℝ n, g = x.toGrid ∧ g' = (x.image T).toGrid
    places := fun x x' => x' = x.image T
    means := fun b b' => b' = b
    diameters := fun e e' => 0 ≤ e ∧ 0 ≤ e' }

theorem at_image : (Outlook.image T d).At d := ⟨rfl, rfl, rfl, rfl, rfl⟩

theorem Alike.eq_image {vs vs' : Vertices ℝ n (Point ℝ n) 0} (h : Alike (.image T d) vs vs') :
    vs' = vs.image T := by
  refine h.eq_map ?_
  rintro ⟨x, v⟩ ⟨x', v'⟩ ⟨hplace, hvalue⟩
  cases hplace
  cases hvalue
  rfl

theorem serves_image (ho : o.orientedRestart = false)
    (htolerance : ∀ bound, o.tolerance = .ok bound → bound.toReal ≤ 0)
    (hobjective : ∀ counters (x : Point ℝ n),
      p'.objective counters (x.image T).toGrid = p.objective counters x.toGrid) :
    Serves (.image T d) o p p' starts (starts.map (Point.image T)) where
  objectives := by
    rintro _ _ c ⟨x, rfl, rfl⟩
    rw [at_image.counters_eq]
    exact .of_eq (hobjective c x)
  points := by
    rintro x _ rfl
    exact ⟨x, rfl, rfl⟩
  starts i hi := Vector.getElem_map ..
  le := by
    rintro x y v _ w _ rfl rfl
    rfl
  lt := by
    rintro x y v _ w _ rfl rfl
    rfl
  sort h := by
    refine h.sort ?_ ?_
    · rintro x y v _ w _ rfl rfl
      rfl
    · rintro x v _ rfl
      simp
  trial {vs vs'} weight h := by
    rw [h.eq_image, trial_image]
    cases trial vs weight with
    | error fault => exact .error fault
    | ok x => exact .ok rfl
  midpoint := by
    rintro x _ y _ rfl rfl
    exact (Point.image_midpoint T x y).symm
  diameter _ _ := ⟨Point.distance_nonneg _ _, Point.distance_nonneg _ _⟩
  converged := by
    rintro e e' ⟨he, he'⟩
    cases hbound : o.tolerance with
    | error fault => rfl
    | ok bound =>
      -- no diameter is below a tolerance of zero
      have hzero := htolerance bound hbound
      have hnot (x : ℝ) (hx : 0 ≤ x) : (Number.real x).lt bound = false :=
        Number.real_lt_eq_false (hzero.trans hx)
      exact congrArg Except.ok ((hnot e' he').trans (hnot e he).symm)
  mean {vs vs'} h := by
    change vs'.meanValue = vs.meanValue
    rw [h.eq_image, Vertices.meanValue, Vertices.meanValue, Vertices.image, Vector.toList_map,
      List.map_map]
    rfl
  restart h := by simp [ho] at h

/-- The likeness of two searches of which the second is at the images of the
points where the first is: the values, the moves and all counts are the same,
and the diameters are not compared. -/
def Likeness.image (T : (Fin n → ℝ) →ᵃ[ℝ] Fin n → ℝ) : Likeness ℝ n (Row ℝ) (State ℝ n) where
  evaluations e e' := e'.value = e.value ∧
    ∃ x : Point ℝ n, e.point = x.toGrid ∧ e'.point = (x.image T).toGrid
  states st st' := st' = { st with vertices := st.vertices.image T, diameter := st'.diameter }
  rows r r' := r' = { r with diameter := r'.diameter }
  solutions x x' := x' = x.image T
  objectives v v' := v' = v
  timed := False

theorem shows_image : Shows (.image T d) (Likeness.image T) where
  evaluations e e' he := ⟨he.value.symm, he.point⟩
  states := by
    rintro ⟨vs, mean, restarts, diameter⟩ ⟨vs', mean', restarts', diameter'⟩
      ⟨hvertices, hmean, hrestarts, -⟩
    cases hvertices.eq_image
    cases hmean
    cases hrestarts
    rfl
  rows r r' x hvalue _ hrest := by
    have hvalue' : r.value = r'.value := hvalue
    rw [← hvalue'] at hrest
    exact hrest
  places _ _ := id
  values _ _ _ := Eq.symm

/-- **A simplex search goes along with affine maps,** in exact arithmetic. Take
a search that does not rebuild its simplex and has neither a tolerance above
zero nor a limit of time, and another one with the same options and limits,
from the images of its vertices, for an objective that has at the image of
each point the value of the first one there. After every number of iterations
the vertices of the second are the images of those of the first, in the same
order and with the same values, and it has made the same moves and as many
evaluations. -/
theorem runs_with_images (T : (Fin n → ℝ) →ᵃ[ℝ] Fin n → ℝ) (m : SimplexSearch ℝ n)
    (p' : Problem ℝ n) (clock clock' : Nat → ℝ) (d : Desk ℝ (Row ℝ))
    (ho : m.options.orientedRestart = false)
    (htolerance : ∀ bound, m.options.tolerance = .ok bound → bound.toReal ≤ 0)
    (htime : m.budgets.Untimed)
    (hobjective : ∀ counters (x : Point ℝ n),
      p'.objective counters (x.image T).toGrid = m.problem.objective counters x.toGrid) :
    (Likeness.image T).Course m.method
      { m with problem := p', vertices := m.vertices.map (Point.image T) :
        SimplexSearch ℝ n }.method clock clock' d := by
  have hserves : Serves (.image T d) m.options m.problem p' m.vertices
      (m.vertices.map (Point.image T)) := serves_image ho htolerance hobjective
  exact course hserves at_image shows_image False.elim (.inr htime)

/-- The search for the least square, without restarts. -/
noncomputable def steadyParabola : SimplexSearch ℝ 1 :=
  { parabola with options := { parabola.options with orientedRestart := false } }

/-- A parabola twice as wide, the other way round and with its least value
at three. -/
noncomputable def widerParabola : Problem ℝ 1 :=
  { parabola.problem with
    objective := fun _ g => .ok (square ((3 - g.entries.headD zero) / two)) }

/-- The search for the least square goes along with `x ↦ 3 - 2 x`. -/
theorem parabola_with_images :
    let T := AffineMap.homothety (1 : Fin 1 → ℝ) (-2 : ℝ)
    let m : SimplexSearch ℝ 1 :=
      { steadyParabola with
        problem := widerParabola, vertices := steadyParabola.vertices.map (Point.image T) }
    ∃ s t t', steadyParabola.method.start (fun _ => 0) (fresh .empty) = .ok s ∧
      steadyParabola.method.Turns (fun _ => 0) s t ∧
      m.method.Reaches (fun _ => 1) (fresh .empty) t' ∧
      (Likeness.image T).Sessions (fresh .empty) t t' := by
  intro T m
  have hhead (x : Point ℝ 1) : x.toGrid.entries.headD zero = x.get 0 := by
    obtain ⟨⟨_ | ⟨a, l⟩⟩, h⟩ := x
    · simp at h
    · rfl
  have hobjective (counters : Counters) (x : Point ℝ 1) :
      widerParabola.objective counters (x.image T).toGrid
        = steadyParabola.problem.objective counters x.toGrid := by
    have hpoint : (3 - (x.image T).get 0) / 2 = x.get 0 := by
      simp [T, AffineMap.homothety_apply]
      ring
    simp only [widerParabola, steadyParabola, parabola, hhead, two_real, hpoint]
  have htolerance (bound : Number ℝ) (hbound : steadyParabola.options.tolerance = .ok bound) :
      bound.toReal ≤ 0 := by
    cases hbound
    simp [Number.toReal]
  have hcourse := runs_with_images T steadyParabola widerParabola (fun _ => 0) (fun _ => 1)
    (fresh .empty) rfl htolerance ⟨.whole (-1), rfl, rfl⟩ hobjective
  have hreturns : ReturnsOnSpace steadyParabola.problem := fun _ _ => ⟨_, rfl⟩
  have hnumeric : steadyParabola.options.IsNumeric :=
    ⟨parabola_proper.weight, parabola_proper.maxRestart, parabola_proper.decrease⟩
  obtain ⟨s, hs⟩ : ∃ s, steadyParabola.method.start (fun _ => 0) (fresh .empty) = .ok s :=
    exists_start hreturns
  obtain ⟨t, ht⟩ : ∃ t, steadyParabola.method.Turns (fun _ => 0) s t :=
    exists_turn one_pos hreturns hnumeric s
  obtain ⟨t', ht', hlike⟩ := hcourse.reaches t ((Method.Reaches.of_start hs).turn ht)
  exact ⟨s, t, t', hs, ht, ht', hlike⟩

end SimplexSearch

end DirectSearch
