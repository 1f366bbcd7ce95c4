import DirectSearch.Proofs.Simplex.Elimination
/-!
# Simplex — what the simplex gradient is

Elimination exchanges a system for its pivot equations. A solution of the one
solves the other, since clearing takes away a multiple of an equation that is
kept (`isSolvedBy_iff_of_eliminate`); and the pivot equations are solved from
the last one to the first, since each of them leaves out the unknowns of the
columns before it (`substitute_solves`). So a system of as many equations as
unknowns has a solution found just where it determines its unknowns, and then
there is no other (`solveLinear_iff`, `isSolvedBy_iff_of_solveLinear`).

The simplex gradient is what this comes to for the edges of a simplex: it is
singular just where they are linearly dependent (`gradientOf_spec`).
-/

namespace DirectSearch.Simplex

open Scalar Matrix

variable {n : Nat}

/-! ## The same solutions -/

/-- A vector solves an equation. -/
def Equation.IsSolvedBy (e : Equation ℝ n) (x : Fin n → ℝ) : Prop :=
  e.coefficients.get ⬝ᵥ x = e.right

variable {k : Fin n} {ks : List (Fin n)} {pivot e : Equation ℝ n} {es : List (Equation ℝ n)}
variable {pivots : List (Fin n × Equation ℝ n)} {x : Fin n → ℝ}

/-- What is cleared by an equation that holds says what it said before. -/
theorem isSolvedBy_clear_iff (h : pivot.IsSolvedBy x) :
    (Equation.clear k pivot e).IsSolvedBy x ↔ e.IsSolvedBy x := by
  have hright : (Equation.clear k pivot e).right
      = e.right - e.coefficients.get k / pivot.coefficients.get k * pivot.right := rfl
  unfold Equation.IsSolvedBy at h ⊢
  rw [get_clear, sub_dotProduct, smul_dotProduct, smul_eq_mul, h, hright, sub_left_inj]

/-- **A column that elimination has got through:** its pivot is one of the
equations, and is not zero there. -/
theorem eliminate_cons_eq_some (h : eliminate (k :: ks) es = some pivots) :
    ∃ pivot others rest, (pivot :: others).Perm es ∧ pivot.coefficients.get k ≠ 0 ∧
      eliminate ks (others.map (Equation.clear k pivot)) = some rest ∧
      pivots = (k, pivot) :: rest := by
  have hes : es ≠ [] := by
    rintro rfl
    simp [eliminate, choosePivot] at h
  obtain ⟨pivot, others, hchoose, hperm, -⟩ := exists_choosePivot k hes
  simp only [eliminate, hchoose, Option.bind_eq_bind, Option.bind_some, same_real, zero_real,
    decide_eq_true_eq] at h
  split at h
  · cases h
  · rename_i hpivot
    obtain ⟨rest, hrest, hpivots⟩ := Option.bind_eq_some_iff.1 h
    exact ⟨pivot, others, rest, hperm, hpivot, hrest, (Option.some.inj hpivots).symm⟩

/-- **The pivot equations have the solutions of the system,** if it has as many
equations as columns. -/
theorem isSolvedBy_iff_of_eliminate (h : eliminate ks es = some pivots)
    (hlength : es.length = ks.length) :
    (∀ e ∈ es, e.IsSolvedBy x) ↔ ∀ p ∈ pivots, p.2.IsSolvedBy x := by
  induction ks generalizing es pivots with
  | nil =>
    cases h
    have hes : es = [] := List.eq_nil_of_length_eq_zero hlength
    simp [hes]
  | cons k ks ih =>
    obtain ⟨pivot, others, rest, hperm, -, hrest, rfl⟩ := eliminate_cons_eq_some h
    have hothers : (others.map (Equation.clear k pivot)).length = ks.length := by
      have := hperm.length_eq
      simp only [List.length_cons] at this hlength
      rw [List.length_map]
      omega
    have hall : (∀ e ∈ es, e.IsSolvedBy x) ↔ ∀ e ∈ pivot :: others, e.IsSolvedBy x :=
      forall_congr' fun e => by rw [hperm.mem_iff]
    rw [hall, List.forall_mem_cons, List.forall_mem_cons, ← ih hrest hothers, List.forall_mem_map]
    refine and_congr_right fun hpivot => forall₂_congr fun e _ => ?_
    exact (isSolvedBy_clear_iff hpivot).symm

/-! ## Back substitution -/

/-- The vector that known unknowns make up, with zeros for the others. -/
def reading (known : List (Fin n × ℝ)) : Fin n → ℝ := fun i => (known.lookup i).getD 0

theorem reading_eq_sum {known : List (Fin n × ℝ)} (h : (known.map Prod.fst).Nodup) :
    reading known = (known.map fun p => Pi.single p.1 p.2).sum := by
  induction known with
  | nil =>
    ext i
    rfl
  | cons p known ih =>
    obtain ⟨j, y⟩ := p
    obtain ⟨hj, hknown⟩ := List.nodup_cons.1 h
    rw [List.map_cons, List.sum_cons, ← ih hknown]
    ext i
    by_cases hi : i = j
    · subst hi
      have hnone : known.lookup i = none := by
        rw [List.lookup_eq_none_iff]
        rintro p hp
        have hne : i ≠ p.1 := fun heq => hj (List.mem_map.2 ⟨p, hp, heq.symm⟩)
        simpa using hne
      simp [reading, hnone]
    · have hne : (i == j) = false := by simpa using hi
      simp [reading, List.lookup_cons, hne, Pi.single_eq_of_ne hi]

/-- The right-hand side that is left when the known unknowns are put in. -/
theorem foldl_known (e : Equation ℝ n) (known : List (Fin n × ℝ))
    (h : (known.map Prod.fst).Nodup) :
    known.foldl (fun b (j, y) => b - e.coefficients.get j * y) e.right
      = e.right - e.coefficients.get ⬝ᵥ reading known := by
  have hfold (known : List (Fin n × ℝ)) (b : ℝ) :
      known.foldl (fun b (j, y) => b - e.coefficients.get j * y) b
        = b - e.coefficients.get ⬝ᵥ (known.map fun p => Pi.single p.1 p.2).sum := by
    induction known generalizing b with
    | nil => simp
    | cons p known ih =>
      rw [List.foldl_cons, ih, List.map_cons, List.sum_cons, dotProduct_add, dotProduct_single]
      ring
  rw [hfold, reading_eq_sum h]

/-- The coefficients of an equation are in some columns. -/
def Equation.IsWithin (ks : List (Fin n)) (e : Equation ℝ n) : Prop :=
  ∀ i ∉ ks, e.coefficients.get i = 0

/-- A column that is cleared is left. -/
theorem isWithin_clear (hpivot : pivot.coefficients.get k ≠ 0) (hp : pivot.IsWithin (k :: ks))
    (he : e.IsWithin (k :: ks)) : (Equation.clear k pivot e).IsWithin ks := by
  intro i hi
  rw [get_clear, Pi.sub_apply, Pi.smul_apply, smul_eq_mul]
  by_cases hik : i = k
  · subst hik
    field_simp
    ring
  · have hout : i ∉ k :: ks := by simp [hik, hi]
    rw [hp i hout, he i hout]
    ring

/-- **Back substitution solves the pivot equations.** The induction is on the
columns; an equation that comes later has no coefficient in the column whose
unknown is found last. -/
theorem substitute_solves (hks : ks.Nodup) (h : eliminate ks es = some pivots)
    (hes : ∀ e ∈ es, e.IsWithin ks) :
    (substitute pivots).map Prod.fst = ks.reverse ∧
      ∀ p ∈ pivots, p.2.IsWithin ks ∧ p.2.IsSolvedBy (reading (substitute pivots)) := by
  induction ks generalizing es pivots with
  | nil =>
    cases h
    simp [substitute]
  | cons k ks ih =>
    obtain ⟨pivot, others, rest, hperm, hpivot, hrest, rfl⟩ := eliminate_cons_eq_some h
    obtain ⟨hk, hks⟩ := List.nodup_cons.1 hks
    have hwithin (e : Equation ℝ n) (he : e ∈ pivot :: others) : e.IsWithin (k :: ks) :=
      hes e (hperm.subset he)
    obtain ⟨hkeys, hsolved⟩ := ih hks hrest <| List.forall_mem_map.2 fun e he =>
      isWithin_clear hpivot (hwithin pivot (by simp)) (hwithin e (by simp [he]))
    have hnodup : ((substitute rest).map Prod.fst).Nodup := by
      rw [hkeys]
      exact List.nodup_reverse.2 hks
    -- the unknown of the first column goes behind those that are known
    let y := (pivot.right - pivot.coefficients.get ⬝ᵥ reading (substitute rest))
      / pivot.coefficients.get k
    have hsubstitute : substitute ((k, pivot) :: rest) = substitute rest ++ [(k, y)] := by
      rw [substitute, foldl_known pivot _ hnodup]
    have hkeys' : (substitute ((k, pivot) :: rest)).map Prod.fst = (k :: ks).reverse := by
      simp [hsubstitute, hkeys]
    have hreading : reading (substitute ((k, pivot) :: rest))
        = reading (substitute rest) + Pi.single k y := by
      rw [reading_eq_sum (hkeys' ▸ List.nodup_reverse.2 (List.nodup_cons.2 ⟨hk, hks⟩)),
        reading_eq_sum hnodup, hsubstitute]
      simp
    refine ⟨hkeys', List.forall_mem_cons.2 ⟨⟨hwithin pivot (by simp), ?_⟩, fun p hp => ?_⟩⟩
    · rw [Equation.IsSolvedBy, hreading, dotProduct_add, dotProduct_single]
      simp only [y]
      field_simp
      ring
    · obtain ⟨hp', hsolves⟩ := hsolved p hp
      refine ⟨fun i hi => hp' i fun hmem => hi (List.mem_cons_of_mem k hmem), ?_⟩
      rw [Equation.IsSolvedBy, hreading, dotProduct_add, dotProduct_single, hp' k hk, zero_mul,
        add_zero]
      exact hsolves

/-! ## The solution -/

/-- **Where elimination gets through,** the equations determine the unknowns. -/
theorem determines_of_eliminate (h : eliminate ks es = some pivots) : Determines ks es := by
  induction ks generalizing es pivots with
  | nil => exact fun x hsupport _ => funext fun i => hsupport i (by simp)
  | cons k ks ih =>
    obtain ⟨pivot, others, rest, hperm, hpivot, hrest, -⟩ := eliminate_cons_eq_some h
    intro x hsupport hcleared
    have hp : pivot.coefficients.get ⬝ᵥ x = 0 := hcleared pivot (hperm.subset (by simp))
    -- without its entry at the pivot, the vector is cleared by what is left
    have hother : x - Pi.single k (x k) = 0 := by
      refine ih hrest _ (fun i hi => ?_) <| List.forall_mem_map.2 fun e he => ?_
      · by_cases hik : i = k
        · subst hik
          simp
        · simp [Pi.single_eq_of_ne hik, hsupport i (by simp [hik, hi])]
      · have he' : e.coefficients.get ⬝ᵥ x = 0 := hcleared e (hperm.subset (by simp [he]))
        rw [get_clear, sub_dotProduct, smul_dotProduct, dotProduct_sub, dotProduct_sub,
          dotProduct_single, dotProduct_single, hp, he', smul_eq_mul]
        field_simp
        ring
    have hx : x = Pi.single k (x k) := sub_eq_zero.1 hother
    rw [hx, dotProduct_single] at hp
    rw [hx, (mul_eq_zero.1 hp).resolve_left hpivot, Pi.single_zero]

/-- **A system that has as many equations as unknowns** has a solution found
just where it determines its unknowns. -/
theorem solveLinear_iff : (∃ x, solveLinear es = some x) ↔ Determines (List.finRange n) es := by
  constructor
  · rintro ⟨x, hx⟩
    obtain ⟨pivots, hpivots, -⟩ := Option.bind_eq_some_iff.1 hx
    exact determines_of_eliminate hpivots
  · intro h
    obtain ⟨pivots, hpivots⟩ := exists_eliminate (List.nodup_finRange n) h
    simp [solveLinear, hpivots]

/-- **The solution found** is the only one. -/
theorem isSolvedBy_iff_of_solveLinear {y : Point ℝ n} (h : solveLinear es = some y)
    (hlength : es.length = n) : (∀ e ∈ es, e.IsSolvedBy x) ↔ x = y.get := by
  obtain ⟨pivots, hpivots, hy⟩ := Option.bind_eq_some_iff.1 h
  have hget : y.get = reading (substitute pivots) := by
    obtain rfl := Option.some.inj hy
    ext i
    simp [reading, Point.get_eq]
  have hlength' : es.length = (List.finRange n).length := by rw [List.length_finRange, hlength]
  have hsolved : ∀ e ∈ es, e.IsSolvedBy y.get := by
    rw [isSolvedBy_iff_of_eliminate hpivots hlength', hget]
    exact fun p hp => ((substitute_solves (List.nodup_finRange n) hpivots
      fun _ _ i hi => absurd (List.mem_finRange i) hi).2 p hp).2
  refine ⟨fun hx => sub_eq_zero.1 ?_, fun hx => hx ▸ hsolved⟩
  -- two solutions differ by a vector that all equations clear
  refine determines_of_eliminate hpivots _ (fun i hi => absurd (List.mem_finRange i) hi) ?_
  intro e he
  rw [dotProduct_sub, hx e he, hsolved e he, sub_self]

/-- In exact arithmetic nothing but a zero pivot makes a system singular. -/
theorem solved_real (hlength : es.length = n) :
    solved es = match solveLinear es with
      | some x => ⟨x, false⟩
      | none => .degenerate := by
  have hfinite (x : Point ℝ n) : Point.isFinite x := by simp [Point.isFinite]
  simp [solved, hlength, hfinite]
  cases solveLinear es <;> rfl

theorem singular_solved_iff (hlength : es.length = n) :
    (solved es).singular = false ↔ Determines (List.finRange n) es := by
  rw [← solveLinear_iff, solved_real hlength]
  cases solveLinear es with
  | some x => simp
  | none => simp [Gradient.degenerate]

/-! ## The edges of a simplex -/

namespace Vertices

variable (vs : Vertices ℝ n (Point ℝ n) 0)

/-- The edges that leave the best vertex. -/
def edgesFromBest (i : Fin n) : Fin n → ℝ := (vs.other i).point.get - vs.best.point.get

theorem edgesFromBest_eq : vs.edgesFromBest = (edges vs.corners 0).row := rfl

/-- They are linearly independent just where the simplex has a volume. -/
theorem linearIndependent_edges_iff :
    LinearIndependent ℝ vs.edgesFromBest ↔ volume vs.corners ≠ 0 := by
  rw [edgesFromBest_eq, linearIndependent_rows_iff_isUnit, isUnit_iff_isUnit_det,
    isUnit_iff_ne_zero, ← abs_ne_zero, abs_det_edges]

/-- A vector solves the equations of all edges. -/
theorem edges_isSolvedBy_iff (φ : Fin n → ℝ) :
    (∀ e ∈ vs.others.map (edge vs.best), e.IsSolvedBy φ) ↔
      ∀ i, vs.edgesFromBest i ⬝ᵥ φ = (vs.other i).value - vs.best.value := by
  have hedge (v : Vertex ℝ (Point ℝ n)) : (edge vs.best v).IsSolvedBy φ ↔
      (v.point.get - vs.best.point.get) ⬝ᵥ φ = v.value - vs.best.value := by
    rw [Equation.IsSolvedBy, edge, Point.get_sub]
  rw [List.forall_mem_map]
  constructor
  · exact fun h i => (hedge _).1 (h _ (vs.other_mem_others i))
  · intro h v hv
    obtain ⟨i, hi, rfl⟩ := List.getElem_of_mem hv
    have hin : i < n := by
      rwa [length_others] at hi
    rw [vs.getElem_others ⟨i, hin⟩ hi]
    exact (hedge _).2 (h ⟨i, hin⟩)

/-- Where the equations of the edges determine the unknowns, the simplex has a
volume. -/
theorem determines_edges_iff :
    Determines (List.finRange n) (vs.others.map (edge vs.best)) ↔ volume vs.corners ≠ 0 := by
  refine ⟨fun h => ?_, determines_edges⟩
  rw [← abs_det_edges vs.corners 0, abs_ne_zero]
  intro hdet
  obtain ⟨x, hne, hx⟩ := exists_mulVec_eq_zero_iff.2 hdet
  refine hne (h x (fun i hi => absurd (List.mem_finRange i) hi) fun e he => ?_)
  obtain ⟨v, hv, rfl⟩ := List.mem_map.1 he
  obtain ⟨i, hi, rfl⟩ := List.getElem_of_mem hv
  have hin : i < n := by
    rwa [length_others] at hi
  rw [vs.getElem_others ⟨i, hin⟩ hi, edge, Point.get_sub]
  exact congrFun hx ⟨i, hin⟩

/-! ## The gradient -/

/-- **The simplex gradient is singular** just where the edges are linearly
dependent. -/
theorem singular_gradient_iff :
    (gradient vs.best vs.others).singular = false ↔ LinearIndependent ℝ vs.edgesFromBest := by
  rw [gradient, singular_solved_iff (by simp), determines_edges_iff, linearIndependent_edges_iff]

/-- Otherwise it is the only solution of their equations. -/
theorem solves_edges_iff (h : (gradient vs.best vs.others).singular = false) (φ : Fin n → ℝ) :
    (∀ i, vs.edgesFromBest i ⬝ᵥ φ = (vs.other i).value - vs.best.value) ↔
      φ = (gradient vs.best vs.others).vector.get := by
  have hlength : (vs.others.map (edge vs.best)).length = n := by simp
  obtain ⟨y, hy⟩ := solveLinear_iff.2 ((singular_solved_iff hlength).1 h)
  rw [← edges_isSolvedBy_iff, isSolvedBy_iff_of_solveLinear hy hlength, gradient,
    solved_real hlength, hy]

theorem gradient_ext {g g' : Gradient ℝ n} (hvector : g.vector = g'.vector)
    (hsingular : g.singular = g'.singular) : g = g' := by
  cases g
  cases g'
  simp only [Gradient.mk.injEq]
  exact ⟨hvector, hsingular⟩

/-- **The vertices behind the best one** may come in any order. -/
theorem gradient_eq_of_perm {vs ws : Vertices ℝ n (Point ℝ n) 0} (hbest : ws.best = vs.best)
    (hperm : ws.others.Perm vs.others) :
    gradient ws.best ws.others = gradient vs.best vs.others := by
  have hmem (e : Equation ℝ n) :
      e ∈ ws.others.map (edge ws.best) ↔ e ∈ vs.others.map (edge vs.best) := by
    rw [hbest]
    exact (hperm.map _).mem_iff
  have hsingular : (gradient ws.best ws.others).singular = false ↔
      (gradient vs.best vs.others).singular = false := by
    rw [gradient, gradient, singular_solved_iff (by simp), singular_solved_iff (by simp)]
    refine forall_congr' fun x => ?_
    simp only [hmem]
  by_cases hregular : (gradient vs.best vs.others).singular = false
  · have hget : (gradient ws.best ws.others).vector.get
        = (gradient vs.best vs.others).vector.get := by
      rw [← solves_edges_iff vs hregular, ← edges_isSolvedBy_iff]
      simp only [← hmem]
      rw [edges_isSolvedBy_iff, solves_edges_iff ws (hsingular.2 hregular)]
    exact gradient_ext (Vector.ext fun i hi => congrFun hget ⟨i, hi⟩)
      ((hsingular.2 hregular).trans hregular.symm)
  · have hws := mt hsingular.1 hregular
    rw [Bool.not_eq_false] at hregular hws
    rw [gradient, gradient, solved_eq_degenerate hregular, solved_eq_degenerate hws]

/-- **The simplex gradient.** It is singular just where the edges that leave
the best vertex are linearly dependent, and is zero there. Elsewhere it is the
only vector whose product with every edge is the difference of the values, so
that it is the gradient of any affine function that the values are taken from.
The order of the vertices behind the best one does not matter. -/
theorem gradientOf_spec (hn : 0 < n) :
    ∃ g : Gradient ℝ n, gradientOf vs.toList = .ok ⟨n, g⟩ ∧
      (g.singular = false ↔
        LinearIndependent ℝ fun i : Fin n => (vs.other i).point.get - vs.best.point.get) ∧
      (g.singular = false → ∀ φ : Fin n → ℝ,
        (∀ i, ((vs.other i).point.get - vs.best.point.get) ⬝ᵥ φ
          = (vs.other i).value - vs.best.value) ↔ φ = g.vector.get) ∧
      (g.singular = true → g.vector.get = 0) ∧
      (g.singular = false → ∀ (a : Fin n → ℝ) (c : ℝ),
        (∀ v ∈ vs.toList, v.value = a ⬝ᵥ v.point.get + c) → g.vector.get = a) ∧
      ∀ ws : Vertices ℝ n (Point ℝ n) 0, ws.best = vs.best → ws.others.Perm vs.others →
        gradientOf ws.toList = .ok ⟨n, g⟩ := by
  refine ⟨_, vs.gradientOf_toList hn, singular_gradient_iff vs, solves_edges_iff vs, ?_, ?_, ?_⟩
  · intro hsingular
    rw [gradient, solved_eq_degenerate hsingular, Gradient.degenerate]
    exact Point.get_origin
  · intro hregular a c haffine
    refine ((solves_edges_iff vs hregular a).1 fun i => ?_).symm
    have hother : vs.other i ∈ vs.toList := List.mem_of_mem_tail (vs.other_mem_others i)
    rw [haffine _ hother, haffine _ vs.best_mem, edgesFromBest, sub_dotProduct,
      dotProduct_comm a, dotProduct_comm a]
    ring
  · intro ws hbest hperm
    rw [ws.gradientOf_toList hn, gradient_eq_of_perm hbest hperm]

/-- The values of `2x - 3y` at the origin and the unit vectors of the plane have
its gradient; at points of one line the system is singular. -/
theorem gradientOf_tilted_and_collinear :
    (∃ g : Gradient ℝ 2, gradientOf [⟨(#v[0, 0] : Point ℝ 2), (0 : ℝ)⟩, ⟨#v[1, 0], 2⟩,
        ⟨#v[0, 1], -3⟩] = .ok ⟨2, g⟩ ∧ g.singular = false ∧ g.vector.get = ![2, -3]) ∧
    ∃ g : Gradient ℝ 2, gradientOf [⟨(#v[0, 0] : Point ℝ 2), (0 : ℝ)⟩, ⟨#v[1, 1], 2⟩,
        ⟨#v[2, 2], -3⟩] = .ok ⟨2, g⟩ ∧ g.singular = true ∧ g.vector.get = 0 := by
  constructor
  · let vs : Vertices ℝ 2 (Point ℝ 2) 0 := #v[⟨#v[0, 0], 0⟩, ⟨#v[1, 0], 2⟩, ⟨#v[0, 1], -3⟩]
    obtain ⟨g, hg, hsingular, -, -, haffine, -⟩ := gradientOf_spec vs (by decide)
    have hregular : g.singular = false := by
      refine hsingular.2 (Fintype.linearIndependent_iff.2 fun c hc => ?_)
      have hx := congrFun hc 0
      have hy := congrFun hc 1
      simp [Fin.sum_univ_two, vs, other, best, Vector.get] at hx hy
      exact Fin.forall_fin_two.2 ⟨hx, hy⟩
    refine ⟨g, hg, hregular, haffine hregular _ 0 fun v hv => ?_⟩
    simp [vs] at hv
    rcases hv with rfl | rfl | rfl <;> simp [dotProduct, Fin.sum_univ_two, Vector.get]
  · let vs : Vertices ℝ 2 (Point ℝ 2) 0 := #v[⟨#v[0, 0], 0⟩, ⟨#v[1, 1], 2⟩, ⟨#v[2, 2], -3⟩]
    obtain ⟨g, hg, hsingular, -, hzero, -, -⟩ := gradientOf_spec vs (by decide)
    have hdegenerate : g.singular = true := by
      rw [← Bool.not_eq_false, hsingular, Fintype.linearIndependent_iff]
      intro hindependent
      -- the second edge is twice the first one
      have hfirst := hindependent ![2, -1] (by
        ext i
        fin_cases i <;> simp [Fin.sum_univ_two, vs, other, best, Vector.get]) 0
      norm_num at hfirst
    exact ⟨g, hg, hdegenerate, hzero hdegenerate⟩

end Vertices

end DirectSearch.Simplex
