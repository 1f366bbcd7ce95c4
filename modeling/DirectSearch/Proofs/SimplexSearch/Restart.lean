import DirectSearch.Proofs.Simplex.Gradient
import DirectSearch.Proofs.SimplexSearch.Replacement
import DirectSearch.Proofs.SimplexSearch.Succession
/-!
# Simplex search — a restart repairs the simplex

A simplex is rebuilt only where no vertex coincides with the best one, since
the radius is the distance to the nearest of them and must not be zero
(`radius_ne_zero`). All other vertices are then put on the axes through the
best one, half the radius away from it, so that the simplex spans the space
whatever it was like before (`Rebuilt`). A simplex that is flat is rebuilt if it
may be (`restarted_of_flat`), and how often it may be in a run is bounded by the
limit that the search was given (`reaches_restarts`).
-/

namespace DirectSearch

open Scalar Session Simplex

variable {n : Nat}

theorem Simplex.Vertices.others_eq_ofFn {α P : Type} (vs : Vertices α n P 0) :
    vs.others = List.ofFn vs.other := by
  refine List.ext_getElem (by simp) fun i hi _ => ?_
  have hin : i < n := by simpa using hi
  rw [vs.getElem_others ⟨i, hin⟩ hi, List.getElem_ofFn]

namespace SimplexSearch

section

variable {ρ : Type} {p : Problem ℝ n} {o : Options ℝ} {s t : Session ℝ ρ (State ℝ n)}

/-! ## When a simplex is rebuilt -/

section

variable {before now radius : ℝ} {g : Gradient ℝ n}

theorem radius_ne_zero (h : stagnates o before now radius g = .ok true) : radius ≠ 0 := by
  rintro rfl
  simp [stagnates] at h

theorem stagnates_of_singular (hradius : radius ≠ 0) (hg : g.singular = true) :
    stagnates o before now radius g = .ok true := by
  simp [stagnates, hradius, hg]

end

/-- **A flat simplex is rebuilt** if it may be and no vertex coincides with the
best one. -/
theorem restarted_of_flat (hn : 0 < n) {restarted : Bool}
    (h : considerRestart p o s = .ok restarted t)
    (hmay : mayRestart o s.state.restarts = .ok true)
    (hflat : ¬AffineIndependent ℝ s.state.vertices.corners)
    (hapart : ∀ v ∈ s.state.vertices.others, v.point ≠ s.state.vertices.best.point) :
    restarted = true := by
  rcases considerRestart_cases h with ⟨hnot, -⟩ | ⟨-, radius, k, g, hradius, hg, hstagnates, -⟩
  · cases hmay.symm.trans hnot
  cases hg.symm.trans (s.state.vertices.gradientOf_toList hn)
  have hpos := (s.state.vertices.nearest_pos_iff hn hradius).2 hapart
  have hsingular : (gradient s.state.vertices.best s.state.vertices.others).singular = true := by
    rw [← Bool.not_eq_false, Vertices.singular_gradient_iff, Vertices.linearIndependent_edges_iff,
      ← Simplex.affineIndependent_iff]
    exact hflat
  exact Except.ok.inj (hstagnates.symm.trans (stagnates_of_singular hpos.ne' hsingular))

/-! ## What it is rebuilt to -/

/-- **A simplex rebuilt from another one:** the best vertex stays as it is, and
the others are put on the axes through it, half the radius away from it and
against the gradient. -/
structure Rebuilt (vs ws : Vertices ℝ n (Point ℝ n) 0) (radius : ℝ) (g : Gradient ℝ n)
    (new : Fin n → Vertex ℝ (Point ℝ n)) : Prop where
  apart : ∀ v ∈ vs.others, v.point ≠ vs.best.point
  nearest : vs.nearest = .ok radius
  radius_pos : 0 < radius
  gradient : gradientOf vs.toList = .ok ⟨n, g⟩
  vertices : ws.toList.Perm (vs.best :: List.ofFn new)
  point : ∀ j, (new j).point.get = vs.best.point.get
    + Pi.single j ((if g.vector.get j < 0 then -1 else 1) * (radius / 2))
  spans : AffineIndependent ℝ ws.corners
  best_le : ws.best.value ≤ vs.best.value

theorem rebuilt_of_ends (hn : 0 < n) {tally : Tally ℝ}
    {accepted : Option (Vertex ℝ (Point ℝ n))} {shrunk : Bool}
    (h : Ends p o s tally accepted t shrunk true) :
    shrunk = false ∧ t.state.restarts = s.state.restarts + 1 ∧ ∃ radius g new,
      Rebuilt (accept s.state.vertices accepted) t.state.vertices radius g new ∧
        Adds tally t.tally (List.ofFn new) := by
  cases h with
  | @rebuilt radius k g w hmay hradius hgradient hstagnates hrebuild htally hvertices hrestarts =>
    cases hgradient.symm.trans ((accept s.state.vertices accepted).gradientOf_toList hn)
    have hne := radius_ne_zero hstagnates
    obtain ⟨⟨v, -, hdistance⟩, -⟩ := Vertices.nearest_spec _ hn hradius
    have hpos : 0 < radius := (hdistance ▸ Point.distance_nonneg _ _).lt_of_ne' hne
    have hstepped : (stepped s tally accepted).state.vertices.best.point
        = (accept s.state.vertices accepted).best.point := by rw [vertices_stepped]
    obtain ⟨hnew, hbest⟩ := replaceEach_finRange_adds (isDefined_real p) hrebuild
    rw [vertices_stepped] at hbest
    rw [Vertices.others_eq_ofFn] at hnew
    have hperm : t.state.vertices.toList.Perm
        ((accept s.state.vertices accepted).best :: List.ofFn w.state.vertices.other) := by
      rw [hvertices, ← hbest, ← Vertices.others_eq_ofFn, ← Vertices.toList_eq_cons]
      exact toList_sortVertices_perm _
    refine ⟨rfl, hrestarts, radius, _, w.state.vertices.other,
      ⟨(Vertices.nearest_pos_iff _ hn hradius).1 hpos, hradius, hpos, hgradient, hperm, ?_, ?_, ?_⟩,
      htally ▸ hnew⟩
    · intro j
      have hcorner := corners_rebuilt hstepped hrebuild j
      rw [Vertices.corners_succ, Vertices.corners_zero, hbest] at hcorner
      rw [hcorner, orientation, mul_div_assoc]
      simp
    · rw [Simplex.affineIndependent_iff, hvertices, Vertices.volume_sortVertices,
        volume_rebuilt hstepped hrebuild]
      positivity
    · have horder : InOrder t.state.vertices := by
        rw [hvertices]
        exact inOrder_sortVertices fun v _ => by simp
      exact of_decide_eq_true (horder.best_le _ (hperm.symm.subset (by simp)))

end

/-! ## How often -/

section

variable {α : Type} [Scalar α] {m : SimplexSearch α n} {clock : Nat → α} {d : Desk α (Row α)}

/-- **The restarts of a run** are counted from zero, up to the limit. -/
theorem reaches_restarts {k : Int} (hk : m.options.maxRestart = .ok (.whole k))
    {s : Session α (Row α) (State α n)} (hs : m.method.Reaches clock d s) :
    0 ≤ s.state.restarts ∧ s.state.restarts ≤ max 0 k := by
  refine hs.invariant (I := fun _ st => 0 ≤ st.restarts ∧ st.restarts ≤ max 0 k) ?_ ?_
  · intro st d' hinitial
    obtain ⟨-, -, -, -, -, -, hrestarts⟩ := initialBy_cases hinitial
    rw [hrestarts]
    exact ⟨le_refl _, le_max_left _ _⟩
  · intro s r t hbounds hiterate
    obtain ⟨move, accepted, tally, -, hends⟩ := iterate_ends hiterate
    generalize r.shrunk = shrunk, r.restarted = restarted at hends
    cases hends with
    | stepped _ _ _ hrestarts | shrunk _ _ _ _ _ _ hrestarts => rwa [hrestarts]
    | rebuilt hmay _ _ _ _ _ _ hrestarts =>
      have hlt : s.state.restarts < k := by
        unfold mayRestart at hmay
        split at hmay
        · rw [hk] at hmay
          exact of_decide_eq_true (Except.ok.inj hmay)
        · cases hmay
      rw [hrestarts]
      omega

end

/-- **A restart repairs any simplex,** in exact arithmetic, whatever it was like
and whatever the objective depends on. A simplex is rebuilt only where no vertex
coincides with the best one behind the step. The best vertex then stays and is
not evaluated again, and the others are new vertices on the axes through it,
evaluated once each in their order; the simplex spans the space, its first
vertex is no worse than before, it does not shrink in the same iteration, and
the restart is counted. Where a simplex is flat and no vertex coincides with the
best one, it is rebuilt if it may be. In any arithmetic the restarts of a run
stay within a whole limit. -/
theorem restart_repairs (hn : 0 < n) :
    (∀ (ρ : Type) (p : Problem ℝ n) (o : Options ℝ) (s : Session ℝ ρ (State ℝ n)),
      ReturnsOnSpace p → o.IsNumeric → ∃ r t move accepted tally,
        iterate p o s = .ok r t ∧
        tryStep p o s.state.vertices s.tally = .ok (move, accepted) tally ∧
        (r.restarted = true → r.shrunk = false ∧
          t.state.restarts = s.state.restarts + 1 ∧
          t.state.vertices.best.value ≤ s.state.vertices.best.value ∧
          ∃ radius g new,
            Rebuilt (accept s.state.vertices accepted) t.state.vertices radius g new ∧
              Adds tally t.tally (List.ofFn new)) ∧
        (r.restarted = false → t.state.restarts = s.state.restarts) ∧
        (mayRestart o s.state.restarts = .ok true →
          ¬AffineIndependent ℝ (accept s.state.vertices accepted).corners →
          (∀ v ∈ (accept s.state.vertices accepted).others,
            v.point ≠ (accept s.state.vertices accepted).best.point) →
          r.restarted = true)) ∧
    ∀ (α : Type) [Scalar α] (m : SimplexSearch α n) (clock : Nat → α) (d : Desk α (Row α))
        (s : Session α (Row α) (State α n)) (k : Int),
      m.options.maxRestart = .ok (.whole k) → m.method.Reaches clock d s →
        0 ≤ s.state.restarts ∧ s.state.restarts ≤ max 0 k := by
  refine ⟨fun ρ p o s hp ho => ?_, fun α _ m clock d s k hk hs => reaches_restarts hk hs⟩
  obtain ⟨r, t, h⟩ := returns_iterate hp ho hn s
  obtain ⟨move, accepted, tally, htry, hends⟩ := iterate_ends h
  refine ⟨r, t, move, accepted, tally, h, htry, fun hyes => ?_, fun hno => ?_,
    fun hmay hflat hapart => ?_⟩
  · rw [hyes] at hends
    obtain ⟨hshrunk, hrestarts, hrebuilt⟩ := rebuilt_of_ends hn hends
    refine ⟨hshrunk, hrestarts, ?_, hrebuilt⟩
    have hkeeps := (iterateBy_keeps keepsFront_sorter).ok h
    rcases hkeeps.state.neverRises with hsame | hlt
    · exact hsame.le
    · exact (of_decide_eq_true hlt).le
  · rw [hno] at hends
    generalize r.shrunk = shrunk at hends
    cases hends with
    | stepped _ _ _ hrestarts | shrunk _ _ _ _ _ _ hrestarts => exact hrestarts
  · obtain ⟨_, _, _, u, w, htry', hrestart, -⟩ := iterate_cases h
    cases htry.symm.trans htry'
    exact restarted_of_flat hn hrestart hmay hflat hapart

/-- Three vertices on a line of the plane, below the objective, are rebuilt. -/
theorem flat_simplex_rebuilt :
    (∃ s : Session ℝ (Row ℝ) (State ℝ 2), ∃ r t radius g new,
      ¬AffineIndependent ℝ s.state.vertices.corners ∧
      iterate (level 2 3) parabola.options s = .ok r t ∧ r.restarted = true ∧ r.shrunk = false ∧
      t.state.restarts = s.state.restarts + 1 ∧
      Rebuilt s.state.vertices t.state.vertices radius g new) ∧
    ∃ s, parabola.method.Reaches (fun _ => 0) (fresh .empty) s ∧ 0 ≤ s.state.restarts ∧
      s.state.restarts ≤ 3 := by
  have hnumeric : parabola.options.IsNumeric := parabola_proper.toIsNumeric
  constructor
  · let vs : Vertices ℝ 2 (Point ℝ 2) 0 := #v[⟨#v[0, 0], 0⟩, ⟨#v[1, 0], 1⟩, ⟨#v[2, 0], 2⟩]
    let s : Session ℝ (Row ℝ) (State ℝ 2) :=
      (fresh .empty : Desk ℝ (Row ℝ)).withState
        { vertices := vs, mean := 1, restarts := 0, diameter := 2 }
    have hs : InOrder s.state.vertices := by
      constructor
      · simp [Sorting.IsDefined]
      · simp [Sorting.IsSorted, s, vs]
    obtain ⟨hiteration, -⟩ := restart_repairs (n := 2) (by decide)
    obtain ⟨r, t, move, accepted, tally, h, htry, hrebuilt, -, hflat⟩ :=
      hiteration _ (level 2 3) parabola.options s (fun _ _ => ⟨3, rfl⟩) hnumeric
    -- the objective is above all vertices, so that the step accepts nothing
    have hnone : accepted = none :=
      ((tried_of_tryStep htry).accepted_level hs).2 (by norm_num [s, vs, Vertices.worst])
    have haccept : accept s.state.vertices accepted = s.state.vertices := by
      rw [hnone]
      exact hs.sortVertices_eq
    rw [haccept] at hrebuilt hflat
    have hdependent : ¬AffineIndependent ℝ s.state.vertices.corners := by
      rw [Simplex.affineIndependent_iff, ← Vertices.linearIndependent_edges_iff,
        Fintype.linearIndependent_iff]
      intro hindependent
      have hfirst := hindependent ![2, -1] (by
        ext i
        fin_cases i <;>
          simp [Fin.sum_univ_two, s, vs, Vertices.edgesFromBest, Vertices.other, Vertices.best,
            Vector.get]) 0
      norm_num at hfirst
    have hyes := hflat rfl hdependent (by
      simp [s, vs, Vertices.others, Vertices.best])
    obtain ⟨hno, hcount, -, radius, g, new, hnew, -⟩ := hrebuilt hyes
    exact ⟨s, r, t, radius, g, new, hdependent, h, hyes, hno, hcount, hnew⟩
  · obtain ⟨s, hs⟩ : ∃ s, parabola.method.start (fun _ => 0) (fresh .empty) = .ok s :=
      exists_start fun _ _ => ⟨_, rfl⟩
    exact ⟨s, .of_start hs, (restart_repairs (n := 1) (by decide)).2 ℝ parabola _ _ s 3 rfl
      (.of_start hs)⟩

end SimplexSearch

end DirectSearch
