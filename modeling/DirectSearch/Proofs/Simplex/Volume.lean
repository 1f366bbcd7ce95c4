import DirectSearch.Proofs.Scalar.Real
import DirectSearch.Proofs.Simplex.Vertices
import Mathlib.LinearAlgebra.AffineSpace.Independent
import Mathlib.LinearAlgebra.Matrix.NonsingularInverse
/-!
# Simplex — its volume

The edges that leave a corner of a simplex span a parallelepiped. Its volume
does not depend on the corner, since it is the volume of the corners
themselves with a one put in front of each (`abs_det_edges`), and it is zero
just where the corners are affinely dependent. In that form it is plain what
a change of the corners does to it: their order does not matter, a corner
replaced by a combination of all has the volume multiplied by its own weight
in it, and corners moved halfway to another one halve it `n` times.
-/

namespace DirectSearch.Simplex

open Matrix

variable {n : Nat} {x y : Fin (n + 1) → Fin n → ℝ}

/-- The edges that leave the corner `k`, one in a row. -/
def edges (x : Fin (n + 1) → Fin n → ℝ) (k : Fin (n + 1)) : Matrix (Fin n) (Fin n) ℝ :=
  Matrix.of fun i => x (k.succAbove i) - x k

/-- The corners with a one in front, one in a row. -/
def bordered (x : Fin (n + 1) → Fin n → ℝ) : Matrix (Fin (n + 1)) (Fin (n + 1)) ℝ :=
  Matrix.of fun j => Fin.cons 1 (x j)

/-- The volume that the edges span. -/
noncomputable def volume (x : Fin (n + 1) → Fin n → ℝ) : ℝ := |(bordered x).det|

/-! ## Edges and corners -/

/-- **The edges of every corner span the same volume.** -/
theorem abs_det_edges (x : Fin (n + 1) → Fin n → ℝ) (k : Fin (n + 1)) :
    |(edges x k).det| = volume x := by
  -- the corner `k` is taken away from all others
  let c : Fin (n + 1) → ℝ := fun j => if j = k then 0 else -1
  let cleared : Matrix (Fin (n + 1)) (Fin (n + 1)) ℝ :=
    Matrix.of fun i j => bordered x i j + c i * bordered x k j
  have hdet : cleared.det = (bordered x).det :=
    det_eq_of_forall_row_eq_smul_add_const c k (by simp [c]) fun _ _ => rfl
  have hcolumn (i : Fin (n + 1)) : cleared i 0 = if i = k then 1 else 0 := by
    by_cases hi : i = k <;> simp [cleared, c, bordered, hi]
  have hedges : cleared.submatrix k.succAbove Fin.succ = edges x k := by
    ext i j
    simp [cleared, c, bordered, edges, sub_eq_add_neg]
  rw [volume, ← hdet, det_succ_column_zero, Finset.sum_eq_single k]
  · simp [hcolumn, hedges, abs_mul]
  · intro i _ hi
    simp [hcolumn, hi]
  · simp

/-- The corners are in general position just where the volume is not zero. -/
theorem affineIndependent_iff : AffineIndependent ℝ x ↔ volume x ≠ 0 := by
  rw [affineIndependent_iff_linearIndependent_vsub ℝ x 0,
    ← linearIndependent_equiv (finSuccAboveEquiv 0), ← abs_det_edges x 0, abs_ne_zero,
    ← isUnit_iff_ne_zero, ← isUnit_iff_isUnit_det, ← linearIndependent_rows_iff_isUnit]
  rfl

/-! ## Corners changed -/

/-- The order of the corners does not matter. -/
theorem volume_comp (σ : Equiv.Perm (Fin (n + 1))) : volume (x ∘ σ) = volume x := by
  have h : bordered (x ∘ σ) = (bordered x).submatrix σ id := rfl
  rw [volume, h, det_permute, volume]
  rcases Int.units_eq_one_or (Equiv.Perm.sign σ) with hσ | hσ <;> simp [hσ]

/-- A corner replaced by a combination of all: the volume takes the weight
that the corner has in it. -/
theorem volume_update (k : Fin (n + 1)) {w : Fin (n + 1) → ℝ} (hw : ∑ j, w j = 1) :
    volume (Function.update x k (∑ j, w j • x j)) = |w k| * volume x := by
  have h : bordered (Function.update x k (∑ j, w j • x j))
      = (bordered x).updateRow k (∑ j, w j • bordered x j) := by
    ext i j
    rw [updateRow_apply]
    by_cases hi : i = k
    · subst hi
      refine Fin.cases ?_ (fun j => ?_) j <;> simp [bordered, hw]
    · simp [bordered, hi]
  rw [volume, h, det_updateRow_sum, smul_eq_mul, abs_mul, volume]

/-- All corners but one moved halfway to that one. -/
theorem volume_halved (hfirst : y 0 = x 0)
    (hother : ∀ i : Fin n, y i.succ = (2 : ℝ)⁻¹ • (x i.succ + x 0)) :
    volume y = (2 ^ n)⁻¹ * volume x := by
  have h : edges y 0 = (2 : ℝ)⁻¹ • edges x 0 := by
    ext i j
    simp only [edges, Fin.zero_succAbove, hfirst, hother, Matrix.of_apply, Pi.sub_apply,
      Pi.smul_apply, Pi.add_apply, Matrix.smul_apply, smul_eq_mul]
    ring
  rw [← abs_det_edges y 0, h, det_smul, abs_mul, abs_det_edges, Fintype.card_fin, inv_pow,
    abs_of_pos (by positivity)]

/-- The corners along the axes from the first one. -/
theorem volume_axes {d : Fin n → ℝ} (h : ∀ i : Fin n, x i.succ = x 0 + Pi.single i (d i)) :
    volume x = ∏ i, |d i| := by
  have hedges : edges x 0 = Matrix.diagonal d := by
    ext i j
    simp [edges, h, Matrix.diagonal_apply, Pi.single_apply, eq_comm]
  rw [← abs_det_edges x 0, hedges, det_diagonal, Finset.abs_prod]

/-! ## The corners of vertices -/

/-- Two arrangements of the same elements differ by a permutation. -/
theorem exists_perm_of_ofFn_perm {β : Type} {k : Nat} {f g : Fin k → β}
    (h : (List.ofFn f).Perm (List.ofFn g)) : ∃ σ : Equiv.Perm (Fin k), f = g ∘ σ := by
  classical
  have hmap : Finset.univ.val.map f = Finset.univ.val.map g := by
    rw [Fin.univ_val_map, Fin.univ_val_map]
    exact Multiset.coe_eq_coe.2 h
  have hcard (b : β) : Fintype.card {i // f i = b} = Fintype.card {i // g i = b} := by
    have hcount := congrArg (Multiset.count b) hmap
    simp only [Multiset.count_map, eq_comm (a := b)] at hcount
    rw [Fintype.card_subtype, Fintype.card_subtype]
    exact hcount
  refine ⟨Equiv.ofFiberEquiv fun b => Fintype.equivOfCardEq (hcard b), ?_⟩
  ext i
  exact (Equiv.ofFiberEquiv_map _ i).symm

namespace Vertices

variable (vs : Vertices ℝ n (Point ℝ n) 0) (v : Vertex ℝ (Point ℝ n))

/-- Where the vertices are, from the best to the worst. -/
def corners : Fin (n + 1) → Fin n → ℝ := fun j => vs[j.val].point.get

theorem corners_zero : vs.corners 0 = vs.best.point.get := rfl

theorem corners_succ (i : Fin n) : vs.corners i.succ = (vs.other i).point.get := rfl

theorem corners_last : vs.corners (Fin.last n) = vs.worst.point.get := rfl

theorem corners_replaceWorst :
    (vs.replaceWorst v).corners = Function.update vs.corners (Fin.last n) v.point.get := by
  ext j i
  simp only [corners, replaceWorst, Vector.getElem_set, Function.update_apply]
  by_cases hj : j = Fin.last n
  · simp [hj]
  · have hval : n ≠ j.val := fun h => hj (Fin.ext h.symm)
    simp [hj, hval]

/-- Sorting takes the corners along. -/
theorem exists_corners_sortVertices : ∃ σ : Equiv.Perm (Fin (n + 1)),
    corners (sortVertices vs) = vs.corners ∘ σ := by
  have hlist (ws : Vertices ℝ n (Point ℝ n) 0) :
      List.ofFn ws.corners = ws.toList.map fun v => v.point.get := by
    refine List.ext_getElem (by simp) fun i h₁ h₂ => ?_
    simp only [List.getElem_ofFn, List.getElem_map, Vector.getElem_toList, corners]
  refine exists_perm_of_ofFn_perm ?_
  rw [hlist, hlist]
  exact (toList_sortVertices_perm vs).map _

theorem volume_sortVertices : volume (corners (sortVertices vs)) = volume vs.corners := by
  obtain ⟨σ, hσ⟩ := vs.exists_corners_sortVertices
  rw [hσ, volume_comp]

theorem foldl_least_spec (d : ℝ) (ds : List ℝ) :
    ds.foldl Scalar.least d ∈ d :: ds ∧ ∀ x ∈ d :: ds, ds.foldl Scalar.least d ≤ x := by
  induction ds generalizing d with
  | nil => simp
  | cons e ds ih =>
    obtain ⟨hmem, hle⟩ := ih (Scalar.least d e)
    rw [List.forall_mem_cons, Scalar.least_real, le_min_iff] at hle
    rw [List.foldl_cons, List.forall_mem_cons, List.forall_mem_cons, Scalar.least_real]
    refine ⟨?_, hle.1.1, hle.1.2, hle.2⟩
    rcases List.mem_cons.1 hmem with hmem | hmem
    · rw [Scalar.least_real] at hmem
      rw [hmem]
      rcases min_choice d e with hd | he
      · simp [hd]
      · simp [he]
    · rw [Scalar.least_real] at hmem
      simp [hmem]

/-- **The nearest vertex** is at the least distance from the best one. -/
theorem nearest_spec (hn : 0 < n) {radius : ℝ} (h : vs.nearest = .ok radius) :
    (∃ v ∈ vs.others, Point.distance v.point vs.best.point = radius) ∧
      ∀ v ∈ vs.others, radius ≤ Point.distance v.point vs.best.point := by
  obtain ⟨v, rest, hrest⟩ : ∃ v rest, vs.others = v :: rest :=
    List.exists_cons_of_length_pos (by rw [length_others]; omega)
  rw [nearest, mapM_distance] at h
  rw [hrest] at h ⊢
  obtain rfl := Except.ok.inj h
  obtain ⟨hmem, hle⟩ := foldl_least_spec (Point.distance v.point vs.best.point)
    (rest.map fun w => Point.distance w.point vs.best.point)
  rw [← List.map_cons (f := fun w : Vertex ℝ (Point ℝ n) => Point.distance w.point vs.best.point)]
    at hmem hle
  exact ⟨List.mem_map.1 hmem, List.forall_mem_map.1 hle⟩

/-- It is away from the best one just where no vertex coincides with that. -/
theorem nearest_pos_iff (hn : 0 < n) {radius : ℝ} (h : vs.nearest = .ok radius) :
    0 < radius ↔ ∀ v ∈ vs.others, v.point ≠ vs.best.point := by
  obtain ⟨⟨v, hv, hdistance⟩, hle⟩ := vs.nearest_spec hn h
  constructor
  · intro hpos w hw hsame
    have hzero := (Point.distance_eq_zero_iff _ _).2 hsame
    exact not_le.2 hpos (hzero ▸ hle w hw)
  · intro hapart
    rw [← hdistance]
    exact (Point.distance_nonneg _ _).lt_of_ne' fun hzero =>
      hapart v hv ((Point.distance_eq_zero_iff _ _).1 hzero)

variable {vs} in
/-- The vertices of a simplex with a volume keep apart. -/
theorem apart_of_volume_ne_zero (h : volume vs.corners ≠ 0) :
    ∀ v ∈ vs.others, v.point ≠ vs.best.point := by
  have hinjective := (affineIndependent_iff.2 h).injective
  intro v hv hsame
  obtain ⟨i, hi, rfl⟩ := List.getElem_of_mem hv
  have hin : i < n := by
    rwa [length_others] at hi
  rw [vs.getElem_others ⟨i, hin⟩ hi] at hsame
  have hcorners : vs.corners (Fin.succ ⟨i, hin⟩) = vs.corners 0 := by
    rw [corners_succ, corners_zero, hsame]
  exact Fin.succ_ne_zero _ (hinjective hcorners)

/-- **The nearest of them** is at a distance from the best one. -/
theorem exists_nearest_pos (hn : 0 < n) (h : volume vs.corners ≠ 0) :
    ∃ radius, vs.nearest = .ok radius ∧ 0 < radius := by
  obtain ⟨radius, hradius⟩ := vs.exists_nearest
  exact ⟨radius, hradius, (vs.nearest_pos_iff hn hradius).2 (apart_of_volume_ne_zero h)⟩

end Vertices

/-- **The simplex around a point has a volume,** wherever the point is. -/
theorem volume_around_ne_zero (x : Point ℝ n) :
    volume (fun j => ((around x).get j).get) ≠ 0 := by
  let d (i : Fin n) : ℝ := if x.get i = 0 then 1 / (2 : ℝ) ^ 13 else 1 / 20 * x.get i
  have hd (i : Fin n) : d i ≠ 0 := by
    by_cases hi : x.get i = 0
    · simp [d, hi]
    · simp [d, hi]
  have haxes (i : Fin n) : ((around x).get i.succ).get
      = ((around x).get 0).get + Pi.single i (d i) := by
    have hfirst : (around x).get 0 = x := by simp [around, Point.get_eq]
    have hother : (around x).get i.succ = Point.shift x i (d i) := by
      have hpower : (1 : ℝ) / (Int.pow 2 13 : Int) = 1 / 2 ^ 13 := by norm_num
      have htwentieth : (1 : ℝ) / (20 : Int) = 1 / 20 := by norm_num
      simp only [around, Point.get_eq, Vector.getElem_ofFn, Fin.val_succ, Nat.succ_pos, dite_true,
        Nat.add_sub_cancel, Scalar.same_real, Scalar.zero_real, Scalar.one_real,
        Scalar.ofInt_real, decide_eq_true_eq, hpower, htwentieth, d]
    rw [hfirst, hother, Point.get_shift]
  rw [volume_axes haxes, Finset.prod_ne_zero_iff]
  exact fun i _ => abs_ne_zero.2 (hd i)

end DirectSearch.Simplex
