import DirectSearch.Proofs.Simplex.Volume
import DirectSearch.Simplex.Gradient
import Mathlib.LinearAlgebra.Matrix.ToLinearEquiv
/-!
# Simplex — elimination finds its pivots

Equations determine the unknowns of some columns if no vector but zero is
supported on these columns and cleared by all of them. That is what
elimination keeps: the pivot is the largest coefficient of its column, so it
is not zero, or the unit vector of the column would be cleared by all; and a
vector that the cleared equations clear is completed in the pivot's column
to one that the equations before clear. In exact arithmetic a system that
determines its unknowns is therefore never found singular
(`solved_regular`), and the edges of a simplex with a volume are such a
system (`gradientOf_regular`).
-/

namespace DirectSearch.Simplex

open Scalar Matrix

variable {n : Nat}

/-! ## The pivot -/

/-- The size of a coefficient. -/
def Equation.size (k : Fin n) (e : Equation ℝ n) : ℝ := |e.coefficients.get k|

/-- The place found is that of a largest coefficient, of those looked at
before and those still to come. -/
theorem largestFrom_spec (k : Fin n) (before es : List (Equation ℝ n)) {best : Nat}
    {e : Equation ℝ n} (hbest : before[best]? = some e)
    (hlargest : ∀ e' ∈ before, e'.size k ≤ e.size k) :
    ∃ e', (before ++ es)[largestFrom k es before.length best (e.size k)]? = some e' ∧
      ∀ e'' ∈ before ++ es, e''.size k ≤ e'.size k := by
  induction es generalizing before best e with
  | nil => exact ⟨e, by simpa [largestFrom] using hbest, by simpa using hlargest⟩
  | cons f es ih =>
    have hlength : before.length + 1 = (before ++ [f]).length := by simp
    simp only [largestFrom, abs_real, lt_real, decide_eq_true_eq]
    rw [hlength, List.append_cons]
    split
    · rename_i hlt
      refine ih (before ++ [f]) (by simp) fun e' he' => ?_
      rcases List.mem_append.1 he' with he' | he'
      · exact (hlargest e' he').trans hlt.le
      · rw [List.mem_singleton.1 he']
    · rename_i hle
      refine ih (before ++ [f]) ?_ fun e' he' => ?_
      · rwa [List.getElem?_append_left (List.getElem?_eq_some_iff.1 hbest).1]
      · rcases List.mem_append.1 he' with he' | he'
        · exact hlargest e' he'
        · rw [List.mem_singleton.1 he']
          exact not_lt.1 hle

/-- **The pivot** is an equation with a largest coefficient; the others are
those left. -/
theorem exists_choosePivot (k : Fin n) {es : List (Equation ℝ n)} (hes : es ≠ []) :
    ∃ pivot others, choosePivot k es = some (pivot, others) ∧ (pivot :: others).Perm es ∧
      ∀ e ∈ others, e.size k ≤ pivot.size k := by
  obtain ⟨e, es, rfl⟩ := List.exists_cons_of_ne_nil hes
  have hfirst : [e][0]? = some e := rfl
  obtain ⟨pivot, hpivot, hlargest⟩ := largestFrom_spec k [e] es hfirst (by simp)
  simp only [choosePivot, abs_real]
  change (e :: es)[largestFrom k es 1 0 |e.coefficients.get k|]? = _ at hpivot
  cases hplace : largestFrom k es 1 0 |e.coefficients.get k| with
  | zero =>
    rw [hplace] at hpivot
    obtain rfl : e = pivot := by simpa using hpivot
    exact ⟨e, es, rfl, .refl _, fun e' he' => hlargest e' (by simp [he'])⟩
  | succ i =>
    rw [hplace, List.getElem?_cons_succ] at hpivot
    obtain ⟨hi, hget⟩ := List.getElem?_eq_some_iff.1 hpivot
    have hset : (pivot :: es.set i e).Perm (e :: es) := by
      refine ((List.set_perm_cons_eraseIdx hi e).cons pivot).trans (.trans (.swap ..) ?_)
      rw [← hget]
      exact (List.getElem_cons_eraseIdx_perm hi).cons e
    refine ⟨pivot, es.set i e, by simp [hpivot], hset, fun e' he' => hlargest e' ?_⟩
    exact hset.subset (List.mem_cons_of_mem _ he')

/-! ## The elimination -/

/-- The equations determine the unknowns of some columns. -/
def Determines (ks : List (Fin n)) (es : List (Equation ℝ n)) : Prop :=
  ∀ x : Fin n → ℝ, (∀ i ∉ ks, x i = 0) → (∀ e ∈ es, e.coefficients.get ⬝ᵥ x = 0) → x = 0

theorem get_clear (k : Fin n) (pivot e : Equation ℝ n) :
    (Equation.clear k pivot e).coefficients.get = e.coefficients.get -
      (e.coefficients.get k / pivot.coefficients.get k) • pivot.coefficients.get := by
  ext i
  simp [Equation.clear, Point.get_eq]

variable {k : Fin n} {ks : List (Fin n)} {pivot : Equation ℝ n} {es others : List (Equation ℝ n)}

/-- In a column whose unknown is determined, some coefficient is not zero. -/
theorem Determines.exists_ne_zero (h : Determines (k :: ks) es) :
    ∃ e ∈ es, e.coefficients.get k ≠ 0 := by
  by_contra! hall
  have hunit : (Pi.single k 1 : Fin n → ℝ) = 0 := by
    refine h _ (fun i hi => ?_) fun e he => ?_
    · obtain ⟨hik, -⟩ := not_or.1 (mt List.mem_cons.2 hi)
      exact Pi.single_eq_of_ne hik 1
    · rw [dotProduct_single, hall e he, zero_mul]
  exact one_ne_zero (Pi.single_eq_zero_iff.1 hunit)

/-- So the largest one is not zero. -/
theorem Determines.pivot_ne_zero (h : Determines (k :: ks) (pivot :: others))
    (hlargest : ∀ e ∈ others, e.size k ≤ pivot.size k) : pivot.coefficients.get k ≠ 0 := by
  obtain ⟨e, he, hne⟩ := h.exists_ne_zero
  have hsize : e.size k ≤ pivot.size k := by
    rcases List.mem_cons.1 he with rfl | he
    · exact le_rfl
    · exact hlargest e he
  exact abs_pos.1 ((abs_pos.2 hne).trans_le hsize)

/-- **What is cleared determines the other unknowns.** -/
theorem Determines.clear (h : Determines (k :: ks) (pivot :: others)) (hk : k ∉ ks)
    (hpivot : pivot.coefficients.get k ≠ 0) :
    Determines ks (others.map (Equation.clear k pivot)) := by
  intro x hsupport hcleared
  -- the unknown of the pivot's column is the one that the pivot asks for
  let c := (pivot.coefficients.get ⬝ᵥ x) / pivot.coefficients.get k
  have hx : x - Pi.single k c = 0 := by
    refine h _ (fun i hi => ?_) fun e he => ?_
    · obtain ⟨hik, hi⟩ := not_or.1 (mt List.mem_cons.2 hi)
      simp [hsupport i hi, Pi.single_eq_of_ne hik]
    · rw [dotProduct_sub, dotProduct_single]
      rcases List.mem_cons.1 he with rfl | he
      · simp only [c]
        field_simp
        ring
      · have hzero := hcleared _ (List.mem_map_of_mem he)
        rw [get_clear, sub_dotProduct, smul_dotProduct, smul_eq_mul] at hzero
        rw [← hzero]
        simp only [c]
        ring
  have hc : c = 0 := by
    have := congrFun hx k
    simp [hsupport k hk] at this
    exact this
  rwa [hc, Pi.single_zero, sub_zero] at hx

/-- **Elimination does not stop** at equations that determine the unknowns. -/
theorem exists_eliminate (hks : ks.Nodup) (h : Determines ks es) :
    ∃ pivots, eliminate ks es = some pivots := by
  induction ks generalizing es with
  | nil => exact ⟨[], rfl⟩
  | cons k ks ih =>
    obtain ⟨hk, hks⟩ := List.nodup_cons.1 hks
    obtain ⟨e, he, -⟩ := h.exists_ne_zero
    obtain ⟨pivot, others, hchoose, hperm, hlargest⟩ := exists_choosePivot k (List.ne_nil_of_mem he)
    have hdet : Determines (k :: ks) (pivot :: others) := fun x hsupport hall =>
      h x hsupport fun e he => hall e (hperm.symm.subset he)
    have hpivot := hdet.pivot_ne_zero hlargest
    obtain ⟨pivots, hrest⟩ := ih hks (hdet.clear hk hpivot)
    refine ⟨(k, pivot) :: pivots, ?_⟩
    simp [eliminate, hchoose, hpivot, hrest]

/-! ## The gradient -/

/-- **A system that determines its unknowns is not found singular.** -/
theorem solved_regular (hlength : es.length = n) (h : Determines (List.finRange n) es) :
    (solved es).singular = false := by
  obtain ⟨pivots, hpivots⟩ := exists_eliminate (List.nodup_finRange n) h
  have hfinite (x : Point ℝ n) : Point.isFinite x := by simp [Point.isFinite]
  simp [solved, solveLinear, hlength, hpivots, hfinite]

namespace Vertices

variable {vs : Vertices ℝ n (Point ℝ n) 0}

/-- The edges of a simplex with a volume determine a gradient. -/
theorem determines_edges (h : volume vs.corners ≠ 0) :
    Determines (List.finRange n) (vs.others.map (edge vs.best)) := by
  intro x _ hedges
  have hdet : (edges vs.corners 0).det ≠ 0 := by
    rwa [← abs_ne_zero, abs_det_edges]
  refine eq_zero_of_mulVec_eq_zero hdet (funext fun i => ?_)
  have hedge := hedges _ (List.mem_map_of_mem (vs.other_mem_others i))
  rwa [edge, Point.get_sub] at hedge

/-- **The simplex gradient of a simplex with a volume is not singular.** -/
theorem gradientOf_regular (hn : 0 < n) (h : volume vs.corners ≠ 0) :
    ∃ g : Gradient ℝ n, gradientOf vs.toList = .ok ⟨n, g⟩ ∧ g.singular = false := by
  exact ⟨_, vs.gradientOf_toList hn, solved_regular (by simp) (determines_edges h)⟩

end Vertices

end DirectSearch.Simplex
