import DirectSearch.Proofs.Search.Steps
import DirectSearch.Proofs.Simplex.Vertices
import DirectSearch.SimplexSearch.Iterate
/-!
# Simplex search — what an iteration can do

An iteration that ends has tried a step, has perhaps rebuilt the simplex or
shrunk it, and has sorted its vertices. `iterateBy_cases` says which parts it
was made of and what each was given, and `considerRestart_cases` says the
same of the part that looks for stagnation; later theorems are read off
these two, or off the three ways in which an iteration can end (`Ends`), and
open no iteration again. A simplex is rebuilt and shrunk in
one way, vertex after vertex, and since the place of a new vertex depends on
the best vertex and the one it replaces only, all new vertices have the
places that the simplex before determines (`replaceEach_places`). The step
itself has a case for every way its tests can turn out (`Tried`).
-/

namespace DirectSearch

open Scalar Session Simplex

namespace SimplexSearch

variable {α : Type} {n : Nat} {P : Type} [Coordinates α P] {extra : Nat} {ρ : Type}
variable {p : Problem α n} {s t : Session α ρ (StateOn α n P extra)}

/-! ## The simplex replaced -/

/-- A rule for new places that looks at nothing but the best vertex and the
one to be replaced. -/
def IsLocal (place : Vertices α n P extra → Fin n → Except Fault P) : Prop :=
  ∀ vs ws i, ws.best = vs.best → ws.other i = vs.other i → place ws i = place vs i

/-- A vertex that the objective was evaluated at. -/
def IsEvaluated (p : Problem α n) (v : Vertex α P) : Prop :=
  ∃ counters, p.objective counters (Coordinates.toGrid v.point) = .ok v.value

theorem isEvaluated_of_vertexAt {x : P} {v : Vertex α P} {tally u : Tally α}
    (h : vertexAt p x tally = .ok v u) : v.point = x ∧ IsEvaluated p v := by
  simp only [vertexAt, bind_eq_ok, pure_eq_ok, Problem.objectiveAt_eq_ok] at h
  obtain ⟨f, _, ⟨hobjective, -⟩, rfl, -⟩ := h
  exact ⟨rfl, _, hobjective⟩

theorem toList_evaluateAll {k : Nat} {xs : Vector P k} {vs : Vector (Vertex α P) k}
    {tally u : Tally α} (h : evaluateAll p xs tally = .ok vs u) :
    xs.toList.mapM (vertexAt p) tally = .ok vs.toList u := by
  have hmap : (Array.toList <$> (Vector.toArray <$> xs.mapM (vertexAt p))) tally
      = .ok vs.toList u := by
    change EStateM.map _ (EStateM.map _ _) tally = _
    rw [evaluateAll] at h
    simp only [EStateM.map, h]
    rfl
  rwa [Vector.toArray_mapM, Array.toList_mapM] at hmap

/-- Points evaluated one after the other keep their places. -/
theorem isEvaluated_of_mapM {xs : List P} {vs : List (Vertex α P)} {tally u : Tally α}
    (h : xs.mapM (vertexAt p) tally = .ok vs u) :
    vs.map (·.point) = xs ∧ ∀ v ∈ vs, IsEvaluated p v := by
  induction xs generalizing tally vs with
  | nil =>
    simp only [List.mapM_nil, pure_eq_ok] at h
    obtain ⟨rfl, -⟩ := h
    simp
  | cons x xs ih =>
    simp only [List.mapM_cons, bind_eq_ok, pure_eq_ok] at h
    obtain ⟨v, _, hv, vs', _, hvs, rfl, rfl⟩ := h
    obtain ⟨rfl, hevaluated⟩ := isEvaluated_of_vertexAt hv
    obtain ⟨rfl, hall⟩ := ih hvs
    exact ⟨rfl, List.forall_mem_cons.2 ⟨hevaluated, hall⟩⟩

/-- **Vertices replaced one after the other:** each has the place that the
vertices before determine, and nothing else has changed. -/
theorem replaceEach_places {place : Vertices α n P extra → Fin n → Except Fault P}
    (hlocal : IsLocal place) {is : List (Fin n)} (his : is.Nodup)
    (h : replaceEach p place is s = .ok () t) :
    t.state = { s.state with vertices := t.state.vertices } ∧ t.iterations = s.iterations ∧
      t.state.vertices.best = s.state.vertices.best ∧
      (∀ i ∈ is, place s.state.vertices i = .ok (t.state.vertices.other i).point ∧
        IsEvaluated p (t.state.vertices.other i)) ∧
      ∀ i ∉ is, t.state.vertices.other i = s.state.vertices.other i := by
  induction is generalizing s with
  | nil =>
    simp only [replaceEach, pure_eq_ok] at h
    obtain ⟨-, rfl⟩ := h
    exact ⟨rfl, rfl, rfl, by simp, fun _ _ => rfl⟩
  | cons i is ih =>
    simp only [replaceEach, bind_eq_ok, getState_eq_ok, demand_eq_ok, evaluate_eq_ok,
      modifyState_eq_ok] at h
    obtain ⟨_, _, ⟨rfl, rfl⟩, x, _, ⟨hplace, rfl⟩, v, _, ⟨tally, hv, rfl⟩, _, _, rfl, h⟩ := h
    obtain ⟨rfl, hevaluated⟩ := isEvaluated_of_vertexAt hv
    obtain ⟨hi, his⟩ := List.nodup_cons.1 his
    obtain ⟨hstate, hiterations, hbest, hnew, hold⟩ := ih his h
    simp only [withState_state, withTally_state] at hstate hbest hnew hold
    rw [Vertices.best_replaceOther] at hbest
    refine ⟨hstate, hiterations, hbest, ?_, ?_⟩
    · intro j hj
      rcases List.mem_cons.1 hj with rfl | hj
      · -- the vertex just replaced is left alone by the rest
        rw [hold _ hi, Vertices.other_replaceOther_self]
        exact ⟨hplace, hevaluated⟩
      · have hne : i ≠ j := fun he => hi (he ▸ hj)
        refine ⟨?_, (hnew j hj).2⟩
        rw [← (hnew j hj).1]
        exact (hlocal _ _ j (Vertices.best_replaceOther _ _ _)
          (Vertices.other_replaceOther_of_ne hne)).symm
    · intro j hj
      obtain ⟨hne, hj⟩ := not_or.1 (fun h => hj (List.mem_cons.2 h))
      rw [hold j hj]
      exact Vertices.other_replaceOther_of_ne (Ne.symm hne)

/-- A shrink is such a replacement. -/
theorem isLocal_midpoint [Scalar α] : IsLocal fun (vs : Vertices α n P extra) i =>
    Coordinates.midpoint (vs.other i).point vs.best.point := by
  intro vs ws i hbest hother
  dsimp only
  rw [hbest, hother]

/-- All vertices were evaluated. -/
def AreEvaluated (p : Problem α n) (vs : Vertices α n P extra) : Prop :=
  ∀ v ∈ vs.toList, IsEvaluated p v

/-- So they are when all others have been replaced. -/
theorem replaceEach_evaluated {s t : Session α ρ (StateOn α n P 0)}
    {place : Vertices α n P 0 → Fin n → Except Fault P} (hlocal : IsLocal place)
    (h : replaceEach p place (List.finRange n) s = .ok () t)
    (hs : AreEvaluated p s.state.vertices) : AreEvaluated p t.state.vertices := by
  obtain ⟨-, -, hbest, hnew, -⟩ := replaceEach_places hlocal (List.nodup_finRange n) h
  intro v hv
  rw [Vertices.toList_eq_cons, hbest] at hv
  rcases List.mem_cons.1 hv with rfl | hv
  · exact hs _ (Vertices.best_mem _)
  · obtain ⟨i, hi, rfl⟩ := List.getElem_of_mem hv
    have hin : i < n := by
      rwa [Vertices.length_others] at hi
    rw [Vertices.getElem_others _ ⟨i, hin⟩]
    exact (hnew _ (List.mem_finRange _)).2

/-! ## The step -/

variable [Scalar α] {o : Options α}

/-- The weights of the trials, each with the move that accepts it. -/
def Options.weights (o : Options α) : List (Move × Stated α) :=
  [(.reflection, o.reflection), (.expansion, o.expansion), (.outsideContraction, o.outside),
    (.insideContraction, o.inside)]

section

variable {vs : Vertices α n P extra} {tally u : Tally α}

theorem isEvaluated_of_tryVertex {weight : Stated α} {v : Vertex α P}
    (h : tryVertex p vs weight tally = .ok v u) :
    trial vs weight = .ok v.point ∧ IsEvaluated p v := by
  simp only [tryVertex, bind_eq_ok, demand_eq_ok] at h
  obtain ⟨x, _, ⟨htrial, rfl⟩, hv⟩ := h
  obtain ⟨rfl, hevaluated⟩ := isEvaluated_of_vertexAt hv
  exact ⟨htrial, hevaluated⟩

/-- **What a step can do:** it accepts the reflection as it is, or looks
further on for an expansion, or further in for a contraction on either side
of the centroid. A reflection that no test places ends it. -/
inductive Tried (p : Problem α n) (o : Options α) (vs : Vertices α n P extra)
    (tally u : Tally α) : Move → Option (Vertex α P) → Prop
  | reflected {r : Vertex α P} (hr : tryVertex p vs o.reflection tally = .ok r u)
      (hbest : le vs.best.value r.value) (hnext : lt r.value vs.nextToWorst.value) :
      Tried p o vs tally u .reflection (some r)
  | expanded {r e : Vertex α P} {t : Tally α} (hr : tryVertex p vs o.reflection tally = .ok r t)
      (he : tryVertex p vs o.expansion t = .ok e u) (hbest : lt r.value vs.best.value)
      (hlt : lt e.value r.value) : Tried p o vs tally u .expansion (some e)
  | unexpanded {r e : Vertex α P} {t : Tally α}
      (hr : tryVertex p vs o.reflection tally = .ok r t)
      (he : tryVertex p vs o.expansion t = .ok e u) (hbest : lt r.value vs.best.value)
      (hnot : ¬lt e.value r.value) : Tried p o vs tally u .reflection (some r)
  | outside {r c : Vertex α P} {t : Tally α} (hr : tryVertex p vs o.reflection tally = .ok r t)
      (hc : tryVertex p vs o.outside t = .ok c u) (hnext : le vs.nextToWorst.value r.value)
      (hworst : lt r.value vs.worst.value) (hle : le c.value r.value) :
      Tried p o vs tally u .outsideContraction (some c)
  | refusedOutside {r c : Vertex α P} {t : Tally α}
      (hr : tryVertex p vs o.reflection tally = .ok r t)
      (hc : tryVertex p vs o.outside t = .ok c u) (hnext : le vs.nextToWorst.value r.value)
      (hworst : lt r.value vs.worst.value) (hnot : ¬le c.value r.value) :
      Tried p o vs tally u .shrink none
  | inside {r c : Vertex α P} {t : Tally α} (hr : tryVertex p vs o.reflection tally = .ok r t)
      (hc : tryVertex p vs o.inside t = .ok c u) (hnext : le vs.nextToWorst.value r.value)
      (hworst : ¬lt r.value vs.worst.value) (hlt : lt c.value vs.worst.value) :
      Tried p o vs tally u .insideContraction (some c)
  | refusedInside {r c : Vertex α P} {t : Tally α}
      (hr : tryVertex p vs o.reflection tally = .ok r t)
      (hc : tryVertex p vs o.inside t = .ok c u) (hnext : le vs.nextToWorst.value r.value)
      (hworst : ¬lt r.value vs.worst.value) (hnot : ¬lt c.value vs.worst.value) :
      Tried p o vs tally u .shrink none
  | unplaced {r : Vertex α P} (hr : tryVertex p vs o.reflection tally = .ok r u)
      (hmiddling : ¬(le vs.best.value r.value ∧ lt r.value vs.nextToWorst.value))
      (hbest : ¬lt r.value vs.best.value) (hnext : ¬le vs.nextToWorst.value r.value) :
      Tried p o vs tally u .shrink none

theorem tried_of_tryStep {move : Move} {accepted : Option (Vertex α P)}
    (h : tryStep p o vs tally = .ok (move, accepted) u) : Tried p o vs tally u move accepted := by
  simp only [tryStep, bind_eq_ok] at h
  obtain ⟨r, t, hr, h⟩ := h
  split at h
  · rename_i hmiddling
    simp only [pure_eq_ok, Prod.mk.injEq, Bool.and_eq_true] at h hmiddling
    obtain ⟨⟨rfl, rfl⟩, rfl⟩ := h
    exact .reflected hr hmiddling.1 hmiddling.2
  rename_i hmiddling
  split at h
  · rename_i hbest
    obtain ⟨e, w, he, h⟩ := bind_eq_ok.1 h
    split at h
    all_goals
      rename_i htest
      simp only [pure_eq_ok, Prod.mk.injEq] at h
      obtain ⟨⟨rfl, rfl⟩, rfl⟩ := h
    · exact .expanded hr he hbest htest
    · exact .unexpanded hr he hbest htest
  rename_i hbest
  split at h
  · rename_i hnext
    split at h
    all_goals
      rename_i hworst
      obtain ⟨c, w, hc, h⟩ := bind_eq_ok.1 h
      split at h
    all_goals
      rename_i htest
      simp only [pure_eq_ok, Prod.mk.injEq] at h
      obtain ⟨⟨rfl, rfl⟩, rfl⟩ := h
    · exact .outside hr hc hnext hworst htest
    · exact .refusedOutside hr hc hnext hworst htest
    · exact .inside hr hc hnext hworst htest
    · exact .refusedInside hr hc hnext hworst htest
  · rename_i hnext
    simp only [pure_eq_ok, Prod.mk.injEq] at h
    obtain ⟨⟨rfl, rfl⟩, rfl⟩ := h
    exact .unplaced hr (by simpa using hmiddling) hbest hnext

/-- A vertex that a step accepts is the trial of the move it reports. -/
theorem Tried.exists_weight {move : Move} {v : Vertex α P}
    (h : Tried p o vs tally u move (some v)) :
    IsEvaluated p v ∧ ∃ weight, (move, weight) ∈ o.weights ∧ trial vs weight = .ok v.point := by
  cases h with
  | reflected hr | unexpanded hr =>
    obtain ⟨htrial, hevaluated⟩ := isEvaluated_of_tryVertex hr
    exact ⟨hevaluated, _, by simp [Options.weights], htrial⟩
  | expanded _ hv | outside _ hv | inside _ hv =>
    obtain ⟨htrial, hevaluated⟩ := isEvaluated_of_tryVertex hv
    exact ⟨hevaluated, _, by simp [Options.weights], htrial⟩

end

theorem AreEvaluated.sort {vs : Vertices α n P 0} (h : AreEvaluated p vs) :
    AreEvaluated p (sortVertices vs : Vertices α n P 0) := fun v hv =>
  h v ((toList_sortVertices_perm vs).subset hv)

theorem AreEvaluated.accept {vs : Vertices α n P 0} {accepted : Option (Vertex α P)}
    (h : AreEvaluated p vs) (haccepted : ∀ v ∈ accepted, IsEvaluated p v) :
    AreEvaluated p (accept vs accepted) := by
  cases accepted with
  | none => exact h.sort
  | some v =>
    refine AreEvaluated.sort fun w hw => ?_
    rw [Vertices.replaceWorst, Vector.toList_set] at hw
    rcases List.mem_or_eq_of_mem_set hw with hw | rfl
    · exact h w hw
    · exact haccepted w rfl

/-! ## The restart -/

/-- **What the search for stagnation can do:** it is not made, or it finds
none, or the simplex is rebuilt. -/
theorem considerRestart_cases {restarted : Bool} (h : considerRestart p o s = .ok restarted t) :
    mayRestart o s.state.restarts = .ok false ∧ restarted = false ∧ t = s ∨
    mayRestart o s.state.restarts = .ok true ∧
      ∃ radius k g, s.state.vertices.nearest = .ok radius ∧
        gradientOf s.state.vertices.toList = .ok ⟨k, g⟩ ∧
        stagnates o s.state.mean s.state.vertices.meanValue radius g = .ok restarted ∧
        (restarted = false ∧
            t = s.withState { s.state with mean := s.state.vertices.meanValue } ∨
          restarted = true ∧
            ∃ u, replaceEach p
                (fun _ i => rebuiltPoint s.state.vertices.best.point g.vector radius i.val)
                (List.finRange n) s = .ok () u ∧
              t.tally = u.tally ∧ t.iterations = u.iterations ∧
              t.state =
                { u.state with
                  restarts := u.state.restarts + 1, mean := s.state.vertices.meanValue }) := by
  simp only [considerRestart, bind_eq_ok, getState_eq_ok, demand_eq_ok] at h
  obtain ⟨_, _, ⟨rfl, rfl⟩, may, _, ⟨hmay, rfl⟩, h⟩ := h
  split at h
  · rename_i hyes
    rw [hyes] at hmay
    simp only [bind_eq_ok, demand_eq_ok] at h
    obtain ⟨radius, _, ⟨hradius, rfl⟩, ⟨k, g⟩, _, ⟨hgradient, rfl⟩, rebuild, _, ⟨hrebuild, rfl⟩,
      h⟩ := h
    refine .inr ⟨hmay, radius, k, g, hradius, hgradient, ?_⟩
    split at h
    · rename_i hyes
      simp only [bind_eq_ok, getState_eq_ok, modifyState_eq_ok] at h
      obtain ⟨_, u, hreplace, _, _, rfl, _, _, ⟨rfl, rfl⟩, h⟩ := h
      obtain ⟨_, _, hreport, h⟩ := bind_eq_ok.1 h
      obtain rfl := report_eq_ok.1 hreport
      simp only [bind_eq_ok, modifyState_eq_ok, pure_eq_ok] at h
      obtain ⟨_, _, rfl, rfl, rfl⟩ := h
      exact ⟨hrebuild, .inr ⟨hyes, u, hreplace, rfl, rfl, rfl⟩⟩
    · rename_i hno
      simp only [bind_eq_ok, modifyState_eq_ok, pure_eq_ok] at h
      obtain ⟨_, _, rfl, rfl, rfl⟩ := h
      exact ⟨hrebuild, .inl ⟨by simpa using hno, rfl⟩⟩
  · rename_i hno
    simp only [pure_eq_ok] at h
    obtain ⟨rfl, rfl⟩ := h
    obtain rfl : may = false := by simpa using hno
    exact .inl ⟨hmay, rfl, rfl⟩

/-! ## The iteration -/

/-- The session behind a step that has ended with a tally. -/
def stepped (s : Session α ρ (StateOn α n P extra)) (tally : Tally α)
    (accepted : Option (Vertex α P)) : Session α ρ (StateOn α n P extra) :=
  (s.withTally tally).withState
    { s.state with vertices := accept s.state.vertices accepted }

section

omit [Coordinates α P]

variable {tally : Tally α} {accepted : Option (Vertex α P)}

@[simp] theorem vertices_stepped :
    (stepped s tally accepted).state.vertices = accept s.state.vertices accepted := rfl

@[simp] theorem tally_stepped : (stepped s tally accepted).tally = tally := rfl

@[simp] theorem mean_stepped : (stepped s tally accepted).state.mean = s.state.mean := rfl

end

/-- **What an iteration can do,** whichever way vertices are sorted: a step is
tried, the simplex is perhaps rebuilt, it shrinks if neither has changed it, and
it is sorted. -/
theorem iterateBy_cases {sorter : Sorter (Vertex α P)} {r : MoveReport}
    (h : iterateBy sorter p o s = .ok r t) :
    ∃ move accepted tally u w, tryStep p o s.state.vertices s.tally = .ok (move, accepted) tally ∧
      considerRestart p o ((s.withTally tally).withState
        { s.state with vertices := acceptBy sorter s.state.vertices accepted }) =
          .ok r.restarted u ∧
      r.shrunk = (accepted.isNone && !r.restarted) ∧
      r.move = (if r.restarted then .orientedRestart else move) ∧
      (if r.shrunk then shrink p u = .ok () w else w = u) ∧
      t.tally = w.tally ∧ t.iterations = w.iterations + 1 ∧
      ∃ diameter, Vertices.diameter (sorter.onVector w.state.vertices) = .ok diameter ∧
        t.state = { w.state with vertices := sorter.onVector w.state.vertices, diameter } := by
  simp only [iterateBy, bind_eq_ok, getState_eq_ok, evaluate_eq_ok, modifyState_eq_ok] at h
  obtain ⟨_, _, ⟨rfl, rfl⟩, ⟨move, accepted⟩, _, ⟨tally, htry, rfl⟩, _, _, rfl, restarted, u,
    hrestart, h⟩ := h
  split at h
  · rename_i hshrunk
    simp only [bind_eq_ok, countIteration_eq_ok, modifyState_eq_ok, getState_eq_ok, demand_eq_ok,
      pure_eq_ok] at h
    obtain ⟨_, w, hshrink, _, _, rfl, _, _, rfl, _, _, ⟨rfl, rfl⟩, diameter, _, ⟨hdiameter, rfl⟩,
      _, _, rfl, rfl, rfl⟩ := h
    exact ⟨move, accepted, tally, u, w, htry, hrestart, rfl, rfl, by rwa [if_pos hshrunk], rfl, rfl,
      diameter, hdiameter, rfl⟩
  · rename_i hshrunk
    simp only [bind_eq_ok, countIteration_eq_ok, modifyState_eq_ok, getState_eq_ok, demand_eq_ok,
      pure_eq_ok] at h
    obtain ⟨_, _, rfl, _, _, rfl, _, _, ⟨rfl, rfl⟩, diameter, _, ⟨hdiameter, rfl⟩, _, _, rfl, rfl,
      rfl⟩ := h
    exact ⟨move, accepted, tally, u, u, htry, hrestart, rfl, rfl, by rw [if_neg hshrunk], rfl, rfl,
      diameter, hdiameter, rfl⟩

theorem iterate_cases {r : MoveReport} (h : iterate p o s = .ok r t) :
    ∃ move accepted tally u w, tryStep p o s.state.vertices s.tally = .ok (move, accepted) tally ∧
      considerRestart p o (stepped s tally accepted) = .ok r.restarted u ∧
      r.shrunk = (accepted.isNone && !r.restarted) ∧
      r.move = (if r.restarted then .orientedRestart else move) ∧
      (if r.shrunk then shrink p u = .ok () w else w = u) ∧
      t.tally = w.tally ∧ t.iterations = w.iterations + 1 ∧
      ∃ diameter, Vertices.diameter (sortVertices w.state.vertices) = .ok diameter ∧
        t.state = { w.state with vertices := sortVertices w.state.vertices, diameter } :=
  iterateBy_cases h

/-- **How an iteration ends** behind its step: with the accepted vertex in
place of the worst, or with a simplex that has shrunk, or with one that was
rebuilt. -/
inductive Ends (p : Problem α n) (o : Options α) (s : Session α ρ (StateOn α n P extra))
    (tally : Tally α) (accepted : Option (Vertex α P)) (t : Session α ρ (StateOn α n P extra)) :
    (shrunk restarted : Bool) → Prop
  | stepped {a : Vertex α P} (haccepted : accepted = some a) (htally : t.tally = tally)
      (hvertices : t.state.vertices = sortVertices (accept s.state.vertices accepted))
      (hrestarts : t.state.restarts = s.state.restarts) : Ends p o s tally accepted t false false
  | shrunk {u w : Session α ρ (StateOn α n P extra)} (haccepted : accepted = none)
      (hbefore : u.tally = tally)
      (hstepped : u.state.vertices = accept s.state.vertices accepted)
      (hshrink : shrink p u = .ok () w) (htally : t.tally = w.tally)
      (hvertices : t.state.vertices = sortVertices w.state.vertices)
      (hrestarts : t.state.restarts = s.state.restarts) : Ends p o s tally accepted t true false
  | rebuilt {radius : α} {k : Nat} {g : Gradient α k} {w : Session α ρ (StateOn α n P extra)}
      (hmay : mayRestart o s.state.restarts = .ok true)
      (hradius : (accept s.state.vertices accepted).nearest = .ok radius)
      (hgradient : gradientOf (accept s.state.vertices accepted).toList = .ok ⟨k, g⟩)
      (hstagnates : stagnates o s.state.mean (accept s.state.vertices accepted).meanValue radius g
        = .ok true)
      (hrebuild : replaceEach p
          (fun _ i => rebuiltPoint (accept s.state.vertices accepted).best.point g.vector radius
            i.val) (List.finRange n) (stepped s tally accepted) = .ok () w)
      (htally : t.tally = w.tally) (hvertices : t.state.vertices = sortVertices w.state.vertices)
      (hrestarts : t.state.restarts = s.state.restarts + 1) : Ends p o s tally accepted t false true

theorem iterate_ends {r : MoveReport} (h : iterate p o s = .ok r t) :
    ∃ move accepted tally, tryStep p o s.state.vertices s.tally = .ok (move, accepted) tally ∧
      Ends p o s tally accepted t r.shrunk r.restarted := by
  obtain ⟨move, accepted, tally, u, w, htry, hrestart, hshrunk, -, hlast, htally, -, diameter, -,
    hstate⟩ := iterate_cases h
  refine ⟨move, accepted, tally, htry, ?_⟩
  have hvertices : t.state.vertices = sortVertices w.state.vertices := by rw [hstate]
  have hcount : t.state.restarts = w.state.restarts := by rw [hstate]
  -- without a restart, the search for stagnation has changed the mean at most
  have hkept (hno : r.restarted = false) (hsame : u.tally = tally ∧
      u.state.vertices = accept s.state.vertices accepted ∧
      u.state.restarts = s.state.restarts) :
      Ends p o s tally accepted t r.shrunk r.restarted := by
    obtain ⟨hu, hvs, hrestarts⟩ := hsame
    cases accepted with
    | some a =>
      have hnot : r.shrunk = false := by simp [hshrunk]
      rw [hnot, if_neg (by simp)] at hlast
      rw [hnot, hno]
      subst hlast
      exact .stepped rfl (htally.trans hu) (by rw [hvertices, hvs]) (hcount.trans hrestarts)
    | none =>
      have hyes : r.shrunk = true := by simp [hshrunk, hno]
      rw [hyes, if_pos rfl] at hlast
      rw [hyes, hno]
      obtain ⟨hw, -⟩ := replaceEach_places isLocal_midpoint (List.nodup_finRange n) hlast
      have hw' : w.state.restarts = u.state.restarts := by rw [hw]
      exact .shrunk rfl hu hvs hlast htally hvertices (hcount.trans (hw'.trans hrestarts))
  rcases considerRestart_cases hrestart with ⟨-, hno, rfl⟩ | ⟨hmay, radius, k, g, hradius,
    hgradient, hstagnates, ⟨hno, rfl⟩ | ⟨hyes, v, hrebuild, hv, -, hu⟩⟩
  · exact hkept hno ⟨rfl, rfl, rfl⟩
  · exact hkept hno ⟨rfl, rfl, rfl⟩
  · have hnot : r.shrunk = false := by simp [hshrunk, hyes]
    rw [hnot, if_neg (by simp)] at hlast
    rw [hyes] at hstagnates
    rw [hnot, hyes]
    subst hlast
    obtain ⟨hw, -⟩ := replaceEach_places (fun _ _ _ _ _ => rfl) (List.nodup_finRange n) hrebuild
    have hw' : v.state.restarts = s.state.restarts := by rw [hw]; rfl
    refine .rebuilt hmay hradius hgradient hstagnates hrebuild (htally.trans hv) ?_ ?_
    · rw [hvertices, hu]
    · rw [hcount, hu]
      exact congrArg (· + 1) hw'

/-- **The vertices of a session were evaluated** if those before were. -/
theorem iterate_evaluated {s t : Session α ρ (StateOn α n P 0)} {r : MoveReport}
    (h : iterate p o s = .ok r t) (hs : AreEvaluated p s.state.vertices) :
    AreEvaluated p t.state.vertices := by
  obtain ⟨move, accepted, tally, htry, hends⟩ := iterate_ends h
  have haccepted : AreEvaluated p (accept s.state.vertices accepted) := by
    refine hs.accept fun v hv => ?_
    obtain rfl := Option.mem_def.1 hv
    exact (tried_of_tryStep htry).exists_weight.1
  generalize r.shrunk = shrunk, r.restarted = restarted at hends
  cases hends with
  | stepped _ _ hvertices =>
    rw [hvertices]
    exact haccepted.sort
  | shrunk _ _ hstepped hshrink _ hvertices =>
    rw [hvertices]
    exact (replaceEach_evaluated isLocal_midpoint hshrink (hstepped ▸ haccepted)).sort
  | rebuilt _ _ _ _ hrebuild _ hvertices =>
    rw [hvertices]
    exact (replaceEach_evaluated (fun _ _ _ _ _ => rfl) hrebuild haccepted).sort

/-! ## The first session -/

/-- **What the first state is,** whichever way vertices are sorted: the points
evaluated one after the other, and sorted. -/
theorem initialBy_cases {sorter : Sorter (Vertex α (Point α n))} {xs : Vector (Point α n) (n + 1)}
    {d d' : Desk α ρ} {st : State α n} (h : initialBy sorter p xs d = .ok st d') :
    ∃ (vs : Vertices α n (Point α n) 0) (tally : Tally α),
      evaluateAll p xs d.tally = .ok vs tally ∧ d' = d.withTally tally ∧
        st.vertices = sorter.onVector vs ∧ st.mean = st.vertices.meanValue ∧ st.restarts = 0 := by
  simp only [initialBy, bind_eq_ok, evaluate_eq_ok, demand_eq_ok, pure_eq_ok] at h
  obtain ⟨vs, _, ⟨tally, hvs, rfl⟩, diameter, _, ⟨-, rfl⟩, rfl, rfl⟩ := h
  exact ⟨vs, tally, hvs, rfl, rfl, rfl, rfl⟩

/-- The first state has the points it was given, evaluated and sorted. -/
theorem initial_vertices {xs : Vector (Point α n) (n + 1)} {d d' : Desk α ρ} {st : State α n}
    (h : initial p xs d = .ok st d') : ∃ vs : Vertices α n (Point α n) 0,
      st.vertices = sortVertices vs ∧ vs.toList.map (·.point) = xs.toList ∧
        AreEvaluated p vs := by
  obtain ⟨vs, tally, hvs, -, hvertices, -⟩ := initialBy_cases h
  obtain ⟨hpoints, hevaluated⟩ := isEvaluated_of_mapM (toList_evaluateAll hvs)
  exact ⟨vs, hvertices, hpoints, hevaluated⟩

end SimplexSearch

end DirectSearch
