import DirectSearch.Simplex.Gradient
/-!
# Simplex — the places of its vertices

The vertices are the best one and the others behind it; a vertex that is
replaced changes its own place only. Sorting gives them other places and
nothing else.
-/

namespace DirectSearch.Simplex

variable {α : Type} {n : Nat} {P : Type} {extra : Nat}

theorem toList_sortVertices_perm [Scalar α] {k : Nat} (vs : Vector (Vertex α P) k) :
    (sortVertices vs).toList.Perm vs.toList := by
  rw [toList_sortVertices]
  exact Sorting.sorted_perm _ _ vs.toList

namespace Vertices

/-! ## The best vertex and the others -/

variable (vs : Vertices α n P extra)

theorem best_mem : vs.best ∈ vs.toList := by
  simp [best]

theorem worst_mem : vs.worst ∈ vs.toList := by
  simp [worst]

theorem nextToWorst_mem : vs.nextToWorst ∈ vs.toList := by
  simp [nextToWorst]

theorem toList_eq_cons : vs.toList = vs.best :: vs.others := by
  obtain ⟨⟨_ | ⟨v, xs⟩⟩, h⟩ := vs
  · simp at h
    omega
  · rfl

@[simp] theorem length_others : vs.others.length = n + extra := by
  have := congrArg List.length vs.toList_eq_cons
  simp only [Vector.length_toList, List.length_cons] at this
  omega

theorem getElem_others (i : Fin n) (h : i.val < vs.others.length) :
    vs.others[i.val] = vs.other i := by
  simp [others, other]

theorem other_mem_others (i : Fin n) : vs.other i ∈ vs.others := by
  have h : i.val < vs.others.length := by
    rw [length_others]
    omega
  exact vs.getElem_others i h ▸ List.getElem_mem h

/-! ## Vertices replaced -/

variable (v : Vertex α P) (i : Fin n)

@[simp] theorem best_replaceOther : (vs.replaceOther i v).best = vs.best := by
  simp [best, replaceOther]

@[simp] theorem other_replaceOther_self : (vs.replaceOther i v).other i = v := by
  simp [other, replaceOther]

theorem toList_replaceOther : (vs.replaceOther i v).toList = vs.best :: vs.others.set i v := by
  rw [replaceOther, Vector.toList_set, toList_eq_cons, List.set_cons_succ]

@[simp] theorem others_replaceOther : (vs.replaceOther i v).others = vs.others.set i v :=
  (List.cons.inj ((toList_eq_cons _).symm.trans (toList_replaceOther vs v i))).2

variable {vs v i} in
theorem other_replaceOther_of_ne {j : Fin n} (h : i ≠ j) :
    (vs.replaceOther i v).other j = vs.other j := by
  have hne : i.val ≠ j.val := fun he => h (Fin.ext he)
  simp only [other, replaceOther]
  exact Vector.getElem_set_ne _ _ (by omega)

/-- The worst vertex is behind the best one, unless it is the only one. -/
theorem toList_replaceWorst (hn : 0 < n) :
    (vs.replaceWorst v).toList = vs.best :: vs.others.set (n - 1) v := by
  cases n with
  | zero => omega
  | succ k =>
    rw [replaceWorst, Vector.toList_set, toList_eq_cons, List.set_cons_succ]
    rfl

/-! ## Measures at points of the space -/

section

variable [Scalar α] (vs : Vertices α n (Point α n) extra)

theorem mapM_distance : vs.others.mapM (fun v => Coordinates.distance v.point vs.best.point)
    = Except.ok (ε := Fault) (vs.others.map fun v => Point.distance v.point vs.best.point) := by
  simp only [Coordinates.distance_point]
  exact List.mapM_pure

theorem exists_nearest : ∃ radius, vs.nearest = .ok radius := by
  rw [nearest, mapM_distance]
  exact ⟨_, rfl⟩

theorem gradientOf_toList (h : 0 < n + extra) :
    gradientOf vs.toList = .ok ⟨n, gradient vs.best vs.others⟩ := by
  have hothers : vs.others ≠ [] := by
    apply List.ne_nil_of_length_pos
    rwa [length_others]
  rw [toList_eq_cons, gradientOf_point _ hothers]

theorem diameter_eq : vs.diameter = .ok (Point.distance vs.last.point vs.best.point) :=
  Coordinates.distance_point _ _

end

end Vertices

end DirectSearch.Simplex
