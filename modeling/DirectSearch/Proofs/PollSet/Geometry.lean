import DirectSearch.MeshSearch.Poll
import DirectSearch.Proofs.Scalar.Real
import Mathlib.Algebra.Order.BigOperators.Group.Finset
import Mathlib.LinearAlgebra.Matrix.Symmetric
import Mathlib.Tactic.Linarith
/-!
# Poll set — the geometry of a poll

A step of a poll is a multiple of a column of the basis that the direction
spans (`get_pointAlong`), wherever the trial is written (`read_write`). In
exact arithmetic the basis is symmetric and orthogonal up to its scale
(`basis_mul_self`), so the `2n` steps of a poll have one length and are
pairwise orthogonal or opposite. They are also never all far from a descent
direction: by Parseval some coordinate of `Hᵀg` has at least the mean share
of the square of `g` (`exists_share_le`), and the heading against it makes
an angle with `-g` whose cosine is at least `1 / √n`.
-/

namespace DirectSearch

open Scalar Matrix

/-! ## Writing into a place -/

namespace Places

variable {α : Type} {n : Nat} (p : Places α n) (t : Target)

theorem read_writeEntry (k : Fin n) (v : α) :
    (p.writeEntry t k v).read t = (p.read t).set k.val v k.isLt := by
  cases t <;> rfl

theorem read_writeEntry_of_ne {u : Target} (h : u ≠ t) (k : Fin n) (v : α) :
    (p.writeEntry t k v).read u = p.read u := by
  cases t <;> cases u <;> first | rfl | exact absurd rfl h

variable [Scalar α]

/-- What the first pass has put into the place: the difference wherever it
has been. No entry is visited twice, so the start is still what it was
where the pass has not been, even if it is the place written over. -/
theorem get_foldl_writeEntry (taken : Point α n) {ks : List (Fin n)} (h : ks.Nodup) (j : Fin n) :
    ((ks.foldl (fun p k => p.writeEntry t k (p.start.get k - taken.get k)) p).read t).get j =
      if j ∈ ks then p.start.get j - taken.get j else (p.read t).get j := by
  induction ks generalizing p with
  | nil => simp
  | cons k ks ih =>
    obtain ⟨hk, hks⟩ := List.nodup_cons.1 h
    rw [List.foldl_cons, ih _ hks, read_writeEntry]
    have hset (x : Point α n) (v : α) :
        (x.set k.val v k.isLt).get j = if k = j then v else x.get j := by
      simp only [Point.get_eq, Vector.getElem_set, Fin.val_inj]
    by_cases hj : j ∈ ks
    · have hne : k ≠ j := fun he => hk (he ▸ hj)
      have hstart : (p.writeEntry t k (p.start.get k - taken.get k)).start.get j
          = p.start.get j := by
        cases t
        · exact (hset p.start _).trans (if_neg hne)
        · rfl
      rw [if_pos hj, if_pos (List.mem_cons_of_mem k hj), hstart]
    · rw [if_neg hj, hset]
      by_cases he : k = j
      · rw [if_pos he, if_pos (List.mem_cons.2 (.inl he.symm)), he]
      · rw [if_neg he, if_neg fun hmem => (List.mem_cons.1 hmem).elim (he ·.symm) hj]

/-- The second pass works on the place alone. -/
theorem read_foldl_writeEntry (c : α) (ks : List (Fin n)) :
    (ks.foldl (fun p k => p.writeEntry t k ((p.read t).get k + c)) p).read t =
      ks.foldl (fun y k => Point.shift y k c) (p.read t) := by
  induction ks generalizing p with
  | nil => rfl
  | cons k ks ih => rw [List.foldl_cons, ih, read_writeEntry, List.foldl_cons, Point.shift]

/-- **A place that is written holds the displaced point,** whatever it held
before, and even where it is the point that the step starts from. -/
theorem read_write (d : Displacement α n) : (p.write t d).read t = d.apply p.start := by
  rw [write, read_foldl_writeEntry, Displacement.apply]
  congr 1
  ext j hj
  have h := p.get_foldl_writeEntry t d.taken (List.nodup_finRange n) ⟨j, hj⟩
  rw [if_pos (List.mem_finRange _)] at h
  simpa [Point.get_eq, Point.sub] using h

/-- The other place is left alone. -/
theorem read_write_of_ne {u : Target} (h : u ≠ t) (d : Displacement α n) :
    (p.write t d).read u = p.read u := by
  have hkeeps (f : Places α n → Fin n → α) (ks : List (Fin n)) (p : Places α n) :
      (ks.foldl (fun p k => p.writeEntry t k (f p k)) p).read u = p.read u := by
    induction ks generalizing p with
    | nil => rfl
    | cons k ks ih => rw [List.foldl_cons, ih, read_writeEntry_of_ne _ _ h]
  rw [write, hkeeps, hkeeps]

end Places

variable {n : Nat}

/-! ## The basis -/

/-- The basis of a vector as a matrix of real numbers. -/
noncomputable def basis (q : Point ℝ n) : Matrix (Fin n) (Fin n) ℝ :=
  .of fun i j => ((orthogonalBasis q).get i).get j

theorem basis_eq (q : Point ℝ n) :
    basis q = Point.dot q q • (1 : Matrix (Fin n) (Fin n) ℝ) - (2 : ℝ) • vecMulVec q.get q.get := by
  ext i j
  simp [basis, orthogonalBasis, basisEntry, Point.get_eq, vecMulVec_apply, Matrix.one_apply]

theorem isSymm_basis (q : Point ℝ n) : (basis q).IsSymm := by
  rw [IsSymm, basis_eq, transpose_sub, transpose_smul, transpose_smul, transpose_one,
    transpose_vecMulVec]

/-- **The basis is orthogonal,** up to the square of its scale. -/
theorem basis_mul_self (q : Point ℝ n) :
    (basis q)ᵀ * basis q = (Point.dot q q) ^ 2 • (1 : Matrix (Fin n) (Fin n) ℝ) := by
  have hrank : vecMulVec q.get q.get * vecMulVec q.get q.get
      = Point.dot q q • vecMulVec q.get q.get := by
    rw [vecMulVec_mul_vecMulVec, Point.dot_eq, vecMulVec_smul]
  rw [isSymm_basis, basis_eq, sub_mul, mul_sub, mul_sub]
  simp only [smul_mul_assoc, mul_smul_comm, one_mul, mul_one, hrank, smul_smul]
  module

theorem col_dotProduct_col (q : Point ℝ n) (i j : Fin n) :
    (basis q).col i ⬝ᵥ (basis q).col j = if i = j then (Point.dot q q) ^ 2 else 0 := by
  have h := congrFun₂ (basis_mul_self q) i j
  rwa [mul_apply', Matrix.smul_apply, one_apply, smul_eq_mul, mul_ite, mul_one, mul_zero] at h

/-- **Parseval:** the coordinates of a vector along the columns. -/
theorem sum_col_dotProduct_sq (q : Point ℝ n) (g : Fin n → ℝ) :
    ∑ i, ((basis q).col i ⬝ᵥ g) ^ 2 = (Point.dot q q) ^ 2 * (g ⬝ᵥ g) := by
  calc ∑ i, ((basis q).col i ⬝ᵥ g) ^ 2
      = ((basis q)ᵀ *ᵥ g) ⬝ᵥ ((basis q)ᵀ *ᵥ g) := by
        simp only [dotProduct, mulVec, sq]
        rfl
    _ = g ⬝ᵥ (((basis q)ᵀ * basis q) *ᵥ g) := by
        rw [← mulVec_mulVec, dotProduct_mulVec g, ← mulVec_transpose, transpose_transpose,
          (isSymm_basis q).eq]
    _ = (Point.dot q q) ^ 2 * (g ⬝ᵥ g) := by
        rw [basis_mul_self, smul_mulVec, one_mulVec, dotProduct_smul, smul_eq_mul]

/-- Some column has at least the mean share of a vector. -/
theorem exists_share_le (hn : 0 < n) (q : Point ℝ n) (g : Fin n → ℝ) :
    ∃ i, (Point.dot q q) ^ 2 * (g ⬝ᵥ g) / n ≤ ((basis q).col i ⬝ᵥ g) ^ 2 := by
  have : Nonempty (Fin n) := ⟨⟨0, hn⟩⟩
  obtain ⟨i, -, hi⟩ := Finset.exists_le_of_sum_le (s := Finset.univ)
    (f := fun _ => (Point.dot q q) ^ 2 * (g ⬝ᵥ g) / n)
    (g := fun i => ((basis q).col i ⬝ᵥ g) ^ 2) Finset.univ_nonempty (by
      rw [Finset.sum_const, Finset.card_univ, Fintype.card_fin, nsmul_eq_mul,
        sum_col_dotProduct_sq, mul_div_cancel₀ _ (Nat.cast_ne_zero.2 hn.ne')])
  exact ⟨i, hi⟩

/-! ## Steps -/

/-- **A step along the basis:** the trial without the matrix is the one with
it. -/
theorem get_pointAlong (x q : Point ℝ n) (i : Fin n) (s : Int) (delta : ℝ) :
    (pointAlong x q i s delta).get = x.get + (s * delta) • (basis q).col i := by
  have hcol : (basis q).col i
      = Pi.single i (Point.dot q q) - (2 * q.get i) • q.get := by
    ext k
    rw [basis_eq, col_apply, Matrix.sub_apply, Matrix.smul_apply, Matrix.smul_apply, one_apply,
      vecMulVec_apply]
    by_cases h : k = i
    · subst h
      simp
      ring
    · simp [h]
      ring
  have htaken (c : ℝ) : (q.map (c * ·) : Point ℝ n).get = c • q.get := by
    ext k
    simp [Point.get_eq]
  simp only [pointAlong, Displacement.along, Displacement.apply, List.foldl_cons, List.foldl_nil,
    Point.get_shift, Point.get_sub, htaken, hcol, ofInt_real]
  ext k
  by_cases h : k = i
  · subst h
    simp
    ring
  · simp [h]
    ring

/-- The step of a poll along a heading. -/
noncomputable def pollStep (q : Point ℝ n) (delta : ℝ) (d : Heading n) : Point ℝ n :=
  Vector.ofFn fun k => d.sign * delta * basis q k d.axis

theorem get_pollStep (q : Point ℝ n) (delta : ℝ) (d : Heading n) :
    (pollStep q delta d).get = (d.sign * delta) • (basis q).col d.axis := by
  ext k
  simp [pollStep, Point.get_eq]

theorem Heading.sign_sq (d : Heading n) : (d.sign : ℝ) ^ 2 = 1 := by
  unfold sign
  split <;> simp

/-- Steps along one column are opposite, along two columns orthogonal. -/
theorem orthogonal_or_opposite (q : Point ℝ n) (delta : ℝ) {d e : Heading n} (h : d ≠ e) :
    Point.dot (pollStep q delta d) (pollStep q delta e) = 0 ∨
      (pollStep q delta d).get = -(pollStep q delta e).get := by
  by_cases haxis : d.axis = e.axis
  · right
    have hsign : d.sign = -e.sign := by
      obtain ⟨i, b⟩ := d
      obtain ⟨j, c⟩ := e
      cases haxis
      cases b <;> cases c <;> simp_all [Heading.sign]
    rw [get_pollStep, get_pollStep, haxis, hsign, Int.cast_neg, neg_mul, neg_smul]
  · left
    rw [Point.dot_eq, get_pollStep, get_pollStep, smul_dotProduct, dotProduct_smul,
      col_dotProduct_col, if_neg haxis, smul_zero, smul_zero]

theorem dot_self_nonneg (q : Point ℝ n) : 0 ≤ Point.dot q q := by
  rw [Point.dot_eq]
  exact Finset.sum_nonneg fun i _ => mul_self_nonneg _

theorem dot_self_pos {q : Point ℝ n} (h : q.get ≠ 0) : 0 < Point.dot q q :=
  (dot_self_nonneg q).lt_of_ne' fun h₀ => h (dotProduct_self_eq_zero.1 (Point.dot_eq q q ▸ h₀))

/-- All steps of a poll have one length. -/
theorem norm_pollStep (q : Point ℝ n) {delta : ℝ} (hdelta : 0 ≤ delta) (d : Heading n) :
    Point.norm (pollStep q delta d) = delta * Point.dot q q := by
  have hsq : Point.dot (pollStep q delta d) (pollStep q delta d)
      = (delta * Point.dot q q) ^ 2 := by
    rw [Point.dot_eq, get_pollStep, smul_dotProduct, dotProduct_smul, col_dotProduct_col,
      if_pos rfl, smul_eq_mul, smul_eq_mul]
    linear_combination (delta * Point.dot q q) ^ 2 * d.sign_sq
  rw [Point.norm, hsq, sqrt_real, Real.sqrt_sq (mul_nonneg hdelta (dot_self_nonneg q))]

/-- **The steps span positively:** one of them makes an angle with `-g`
whose cosine is at least `1 / √n`. -/
theorem exists_pollStep_descending (hn : 0 < n) (q : Point ℝ n) {delta : ℝ} (hdelta : 0 ≤ delta)
    (g : Point ℝ n) :
    ∃ d : Heading n, Point.dot (pollStep q delta d) g ≤
      -(Point.norm (pollStep q delta d) * Point.norm g / √n) := by
  obtain ⟨i, hi⟩ := exists_share_le hn q g.get
  set c := (basis q).col i ⬝ᵥ g.get with hc
  -- the heading that goes against the coordinate
  let d : Heading n := ⟨i, decide (c ≤ 0)⟩
  have hdot : Point.dot (pollStep q delta d) g = -(delta * |c|) := by
    rw [Point.dot_eq, get_pollStep, smul_dotProduct, ← hc, smul_eq_mul]
    by_cases hneg : c ≤ 0
    · simp [d, Heading.sign, hneg, abs_of_nonpos]
    · simp [d, Heading.sign, hneg, abs_of_pos (not_le.1 hneg)]
  have hshare : Point.dot q q * Point.norm g / √n ≤ |c| := by
    rw [← Real.sqrt_sq_eq_abs, Point.norm, sqrt_real, ← Real.sqrt_sq (dot_self_nonneg q),
      ← Real.sqrt_mul (sq_nonneg _), ← Real.sqrt_div' _ (Nat.cast_nonneg n)]
    refine Real.sqrt_le_sqrt (le_trans (le_of_eq ?_) hi)
    rw [Point.dot_eq g g]
  refine ⟨d, ?_⟩
  rw [hdot, norm_pollStep q hdelta, mul_assoc, mul_div_assoc]
  exact neg_le_neg (mul_le_mul_of_nonneg_left hshare hdelta)

/-! ## A poll -/

/-- **The geometry of a poll,** without rounding. A step taken fresh, or
written into the other place or over its own start, is the one along the
column of the basis, and the basis is symmetric and orthogonal up to its
scale. The trials of a poll, two for every axis, are one step away from the
incumbent along every heading; the steps have one length, are pairwise
orthogonal or opposite, and for every slope there is a step that descends by
at least the `√n`-th part of what the steepest descent would. -/
theorem poll_geometry (hn : 0 < n) (q : Point ℝ n) :
    (∀ (x b : Point ℝ n) (i : Fin n) (s : Int) (delta : ℝ),
      (pointAlong x q i s delta).get = x.get + (s * delta) • (basis q *ᵥ Pi.single i 1) ∧
      ∀ t : Target, (Places.write ⟨x, b⟩ t (.along q i s delta)).read t
        = pointAlong x q i s delta) ∧
    (basis q)ᵀ = basis q ∧
    (basis q)ᵀ * basis q = (Point.dot q q) ^ 2 • (1 : Matrix (Fin n) (Fin n) ℝ) ∧
    ∀ st : MeshSearch.State ℝ n, st.direction = q.toGrid → q.get ≠ 0 → 0 < st.mesh →
      (MeshSearch.headings n st.point = Heading.all n ∧ (Heading.all n).length = 2 * n ∧
        (Heading.all n).Nodup) ∧
      (∀ d, MeshSearch.trialPoint st d = .ok (Point.add st.point (pollStep q st.mesh d))) ∧
      (∀ d e, d ≠ e → Point.dot (pollStep q st.mesh d) (pollStep q st.mesh e) = 0 ∨
        (pollStep q st.mesh d).get = -(pollStep q st.mesh e).get) ∧
      (∀ d, Point.norm (pollStep q st.mesh d) = st.mesh * Point.dot q q) ∧
      ∀ g : Point ℝ n, g.get ≠ 0 → ∃ d ∈ Heading.all n,
        Point.dot (pollStep q st.mesh d) g ≤
          -(Point.norm (pollStep q st.mesh d) * Point.norm g / √n) ∧
        -(Point.norm (pollStep q st.mesh d) * Point.norm g / √n) < 0 := by
  refine ⟨fun x b i s delta => ⟨?_, fun t => Places.read_write _ t _⟩, isSymm_basis q,
    basis_mul_self q, fun st hq hq₀ hmesh => ⟨⟨MeshSearch.headings_point _, ?_, ?_⟩, fun d => ?_,
      fun d e => orthogonal_or_opposite q st.mesh, norm_pollStep q hmesh.le, fun g hg => ?_⟩⟩
  · rw [get_pointAlong, mulVec_single_one]
  · exact Heading.length_all n
  · exact Heading.nodup_all n
  · -- the trial is formed without the matrix
    have hstep : pointAlong st.point q d.axis d.sign st.mesh
        = Point.add st.point (pollStep q st.mesh d) :=
      Point.ext_get (by rw [get_pointAlong, Point.get_add, get_pollStep])
    rw [MeshSearch.trialPoint_point st hq, hstep]
  · obtain ⟨d, hd⟩ := exists_pollStep_descending hn q hmesh.le g
    have hpos : 0 < Point.norm (pollStep q st.mesh d) * Point.norm g / √n := by
      rw [norm_pollStep q hmesh.le]
      have hnorm : 0 < Point.norm g := Real.sqrt_pos.2 (dot_self_pos hg)
      have hdot := dot_self_pos hq₀
      positivity
    exact ⟨d, Heading.mem_all d, hd, neg_lt_zero.2 hpos⟩

/-- In the plane, from the origin along the first axis: one of the four
steps goes down the second coordinate. -/
theorem poll_geometry_plane :
    ∃ st : MeshSearch.State ℝ 2, st.direction = Point.toGrid #v[(1 : ℝ), 0] ∧ 0 < st.mesh ∧
      ∃ d ∈ Heading.all 2, Point.dot (pollStep #v[1, 0] st.mesh d) #v[0, 1] < 0 := by
  let st : MeshSearch.State ℝ 2 :=
    { point := #v[0, 0], value := 0, violation := 0, merit := 0, weight := 1, mesh := 1, streak := 0
      direction := Point.toGrid #v[1, 0], tolerance := 0, slope := none, improved := false
      outcome := .none }
  have hq : (#v[1, 0] : Point ℝ 2).get ≠ 0 := fun h => one_ne_zero (congrFun h 0)
  have hg : (#v[0, 1] : Point ℝ 2).get ≠ 0 := fun h => one_ne_zero (congrFun h 1)
  have hmesh : 0 < st.mesh := one_pos
  obtain ⟨-, -, -, hpoll⟩ := poll_geometry two_pos (#v[1, 0] : Point ℝ 2)
  obtain ⟨-, -, -, -, hspan⟩ := hpoll st rfl hq hmesh
  obtain ⟨d, hd, hle, hneg⟩ := hspan _ hg
  exact ⟨st, rfl, hmesh, d, hd, hle.trans_lt hneg⟩

end DirectSearch
