import DirectSearch.Proofs.SimplexSearch.Evaluated
import DirectSearch.Proofs.SimplexSearch.Level
import DirectSearch.Proofs.SimplexSearch.Spanning
import DirectSearch.Proofs.Sorting.Sorted
/-!
# Simplex search — a step replaces the worst vertex

The vertices of a run are in order: their values are defined, and none is above
one behind it. A vertex that a step accepts is strictly below the worst one,
whichever test let it through (`Tried.lt_worst`), and takes its place. Sorting
then puts it where it belongs and moves what was above it one place up, so that
no place has a higher value than before (`InOrder.accept_le`). A simplex that
shrinks is the best vertex and the midpoints of the others with it.
-/

namespace DirectSearch

open Scalar OrderedScalar Session Simplex Sorting

variable {α : Type} {n : Nat} {P : Type}

namespace Simplex.Vertices

variable (vs : Vertices α n P 0)

/-- The vertices in front of the worst one. -/
def front : List (Vertex α P) := vs.toList.take n

theorem toList_eq_front_append : vs.toList = vs.front ++ [vs.worst] := by
  have hn : n < vs.toList.length := by simp
  have htake := List.take_concat_get' vs.toList n hn
  have hall : vs.toList.take (n + 1) = vs.toList :=
    List.take_of_length_le (Nat.le_of_eq vs.length_toList)
  rw [hall] at htake
  exact htake.symm

theorem toList_replaceWorst_eq (v : Vertex α P) : (vs.replaceWorst v).toList = vs.front ++ [v] := by
  rw [replaceWorst, Vector.toList_set, List.set_eq_take_append_cons_drop, if_pos (by simp),
    List.drop_of_length_le (by simp)]
  rfl

end Simplex.Vertices

namespace SimplexSearch

section

variable [Scalar α] {vs : Vertices α n P 0} {a : Vertex α P}

/-! ## Vertices in order -/

/-- The values are defined, and none is above one behind it. -/
structure InOrder (vs : Vertices α n P 0) : Prop where
  defined : IsDefined Vertex.value vs.toList
  sorted : IsSorted Vertex.value vs.toList

theorem toList_sortVertices_eq (h : IsDefined Vertex.value vs.toList) :
    (sortVertices vs).toList
      = stableSort (fun v w : Vertex α P => lt v.value w.value) vs.toList := by
  have hcompares : vs.toList.all (fun v => !isUndefined v.value) :=
    List.all_eq_true.2 fun v hv => by simpa using defined_iff.2 (h v hv)
  rw [toList_sortVertices, Sorting.sorted, if_pos hcompares]
  rfl

theorem isDefined_replaceWorst (h : IsDefined Vertex.value vs.toList) (ha : le a.value a.value) :
    IsDefined Vertex.value (vs.replaceWorst a).toList := by
  rw [vs.toList_eq_front_append] at h
  rw [vs.toList_replaceWorst_eq]
  intro v hv
  rcases List.mem_append.1 hv with hv | hv
  · exact h v (List.mem_append_left _ hv)
  · rwa [List.mem_singleton.1 hv]

namespace InOrder

variable (h : InOrder vs)

include h

theorem le_worst : ∀ v ∈ vs.toList, le v.value vs.worst.value := by
  intro v hv
  have hsorted := h.sorted
  rw [vs.toList_eq_front_append] at hv hsorted
  rcases List.mem_append.1 hv with hv | hv
  · exact (List.pairwise_append.1 hsorted).2.2 v hv _ (by simp)
  · rw [List.mem_singleton.1 hv]
    exact h.defined _ vs.worst_mem

theorem best_le : ∀ v ∈ vs.toList, le vs.best.value v.value := by
  intro v hv
  have hsorted := h.sorted
  rw [vs.toList_eq_cons] at hv hsorted
  rcases List.mem_cons.1 hv with rfl | hv
  · exact h.defined _ vs.best_mem
  · exact List.rel_of_pairwise_cons hsorted hv

variable [OrderedScalar α]

/-- What is in order stays as it is. -/
theorem sortVertices_eq : sortVertices vs = vs := by
  rw [← Vector.toList_inj, toList_sortVertices_eq h.defined]
  exact stableSort_of_isSorted h.sorted

/-- An accepted vertex is put where it belongs among those in front of the
worst one. -/
theorem toList_accept (ha : le a.value a.value) :
    (accept vs (some a)).toList
      = insertStable (fun v w : Vertex α P => lt v.value w.value) a vs.front := by
  have hsorted := h.sorted
  rw [vs.toList_eq_front_append] at hsorted
  rw [accept_some, toList_sortVertices_eq (isDefined_replaceWorst h.defined ha),
    vs.toList_replaceWorst_eq]
  exact stableSort_append_singleton (List.pairwise_append.1 hsorted).1 a

/-- **No place has a higher value** when a vertex below the worst one is
accepted. -/
theorem accept_le (hlt : lt a.value vs.worst.value) (k : Fin (n + 1)) :
    le ((accept vs (some a)).get k).value (vs.get k).value := by
  have hle := le_of_lt hlt
  have hforall : List.Forall₂ (fun v w : Vertex α P => le v.value w.value)
      (accept vs (some a)).toList vs.toList := by
    have hsorted := h.sorted
    have hdef := h.defined
    rw [h.toList_accept (defined_of_le hle).1]
    rw [vs.toList_eq_front_append] at hsorted hdef ⊢
    exact hsorted.forall₂_insertStable (fun v hv => hdef v (List.mem_append_left _ hv)) hle
  have hk : k.val < n + 1 + 0 := k.isLt
  exact List.Forall₂.get hforall (by simpa using hk) (by simpa using hk)

end InOrder

variable [OrderedScalar α]

/-- **Sorting** puts vertices with defined values in order. -/
theorem inOrder_sortVertices (h : IsDefined Vertex.value vs.toList) :
    InOrder (sortVertices vs : Vertices α n P 0) where
  defined v hv := h v ((toList_sortVertices_perm vs).subset hv)
  sorted := by
    rw [toList_sortVertices_eq h]
    exact isSorted_stableSort h

/-! ## The step -/

variable [Coordinates α P] {p : Problem α n} {o : Options α} {t u : Tally α} {move : Move}

/-- **A vertex that is accepted** is strictly below the worst one. -/
theorem Tried.lt_worst (h : Tried p o vs t u move (some a)) (hvs : InOrder vs) :
    lt a.value vs.worst.value := by
  have hbest := hvs.le_worst _ vs.best_mem
  have hnext := hvs.le_worst _ vs.nextToWorst_mem
  cases h with
  | reflected _ _ hlt => exact lt_of_lt_of_le hlt hnext
  | expanded _ _ hlt hlt' => exact lt_trans hlt' (lt_of_lt_of_le hlt hbest)
  | unexpanded _ _ hlt _ => exact lt_of_lt_of_le hlt hbest
  | outside _ _ _ hlt hle => exact lt_of_le_of_lt hle hlt
  | inside _ _ _ _ hlt => exact hlt

/-- A step makes one trial or two, and what it accepts is one of them. If it
accepts none, there were two. -/
theorem Tried.exists_trials {accepted : Option (Vertex α P)} (hp : p.IsDefined)
    (h : Tried p o vs t u move accepted) (hvs : InOrder vs) :
    ∃ trials, Adds t u trials ∧ trials.length ≤ 2 ∧ (∀ a ∈ accepted, a ∈ trials) ∧
      (accepted = none → trials.length = 2) := by
  have hadds {weight : Stated α} {v : Vertex α P} {t u : Tally α}
      (hv : tryVertex p vs weight t = .ok v u) : Adds t u [v] := tryVertex_adds hp hv
  cases h with
  | @reflected r hr => exact ⟨[r], hadds hr, by simp⟩
  | @expanded r v _ hr hv | @outside r v _ hr hv | @inside r v _ hr hv
  | @refusedOutside r v _ hr hv | @refusedInside r v _ hr hv =>
    exact ⟨[r, v], (hadds hr).trans (hadds hv), by simp⟩
  | @unexpanded r v _ hr hv => exact ⟨[r, v], (hadds hr).trans (hadds hv), by simp⟩
  | @unplaced r hr hmiddling hbest hnext =>
    -- a defined reflection is below the last vertex but one, or not
    have hself := (hadds hr).defined r (by simp)
    have hle := le_of_not_lt hself (hvs.defined _ vs.best_mem) hbest
    exact absurd (le_of_not_lt hself (hvs.defined _ vs.nextToWorst_mem)
      fun hlt => hmiddling ⟨hle, hlt⟩) hnext

/-! ## The iteration -/

variable {ρ : Type} {s t : Session α ρ (StateOn α n P 0)}

/-- **The worst vertex gives way** to one that was evaluated since and is
strictly below it. The vertices are in order, and no place has a higher value
than before. -/
structure ReplacesWorst (s t : Session α ρ (StateOn α n P 0)) : Prop where
  exchanged : ∃ kept a trials, s.state.vertices.toList = kept ++ [s.state.vertices.worst] ∧
    t.state.vertices.toList.Perm (a :: kept) ∧ lt a.value s.state.vertices.worst.value ∧
    a ∈ trials ∧ Adds s.tally t.tally trials
  inOrder : InOrder t.state.vertices
  no_rise : ∀ k : Fin (n + 1), le (t.state.vertices.get k).value (s.state.vertices.get k).value

/-- **An iteration takes a vertex** that its step accepts with a move: it does
not shrink and reports that move, and the vertex stands where the worst one
was, unless the simplex is rebuilt around the best one afterwards. -/
structure Takes (p : Problem α n) (o : Options α) (s t : Session α ρ (StateOn α n P 0))
    (r : MoveReport) (move : Move) (v : Vertex α P) : Prop where
  accepted : ∃ u, tryStep p o s.state.vertices s.tally = .ok (move, some v) u
  shrunk : r.shrunk = false
  move : r.move = if r.restarted then .orientedRestart else move
  in_place : r.restarted = false →
    t.state.vertices = sortVertices (s.state.vertices.replaceWorst v)
  rebuilt_around : r.restarted = true →
    Vertices.best (sortVertices (s.state.vertices.replaceWorst v)) ∈ t.state.vertices.toList

/-- **The simplex shrinks:** the best vertex stays, and the others give way to
their midpoints with it, each evaluated once behind two trials. -/
def Shrinks (s t : Session α ρ (StateOn α n P 0)) : Prop :=
  ∃ trials new, t.state.vertices.toList.Perm (s.state.vertices.best :: new) ∧
    List.Forall₂ (fun v w => Coordinates.midpoint v.point s.state.vertices.best.point = .ok w.point)
      s.state.vertices.others new ∧
    trials.length = 2 ∧ Adds s.tally t.tally (trials ++ new)

theorem replaces_of_ends (hp : p.IsDefined) (hs : InOrder s.state.vertices) {tally : Tally α}
    {accepted : Option (Vertex α P)}
    (htried : Tried p o s.state.vertices s.tally tally move accepted)
    (h : Ends p o s tally accepted t false false) : ReplacesWorst s t := by
  cases h with
  | @stepped a haccepted htally hvertices =>
    subst haccepted
    have hlt := htried.lt_worst hs
    obtain ⟨trials, hadds, -, hmem, -⟩ := htried.exists_trials hp hs
    have hself := (defined_of_le (le_of_lt hlt)).1
    have horder : InOrder (accept s.state.vertices (some a)) :=
      inOrder_sortVertices (isDefined_replaceWorst hs.defined hself)
    rw [horder.sortVertices_eq] at hvertices
    refine ⟨⟨_, a, trials, s.state.vertices.toList_eq_front_append, ?_, hlt, hmem a rfl,
      htally ▸ hadds⟩, hvertices ▸ horder, hvertices ▸ hs.accept_le hlt⟩
    rw [hvertices, hs.toList_accept hself]
    exact insertStable_perm _ a _

/-- What the step of an iteration accepts, the iteration takes. -/
theorem takes_of_iterate (hs : InOrder s.state.vertices) {r : MoveReport}
    (h : iterate p o s = .ok r t) {v : Vertex α P} {tally : Tally α}
    (htry : tryStep p o s.state.vertices s.tally = .ok (move, some v) tally) :
    Takes p o s t r move v := by
  obtain ⟨_, _, _, _, _, htry', -, hshrunk, hmove, -⟩ := iterate_cases h
  obtain ⟨_, _, _, htry'', hends⟩ := iterate_ends h
  obtain ⟨⟨rfl, rfl⟩, rfl⟩ := by simpa using htry.symm.trans htry'
  obtain ⟨⟨rfl, rfl⟩, rfl⟩ := by simpa using htry.symm.trans htry''
  have hself := (defined_of_le (le_of_lt ((tried_of_tryStep htry).lt_worst hs))).1
  have horder : InOrder (accept s.state.vertices (some v)) :=
    inOrder_sortVertices (isDefined_replaceWorst hs.defined hself)
  refine ⟨⟨_, htry⟩, by simp [hshrunk], hmove, fun hno => ?_, fun hyes => ?_⟩
  · rw [hno] at hends
    generalize r.shrunk = shrunk at hends
    cases hends with
    | stepped _ _ hvertices => rw [hvertices, horder.sortVertices_eq, accept_some]
    | shrunk hnone => cases hnone
  · rw [hyes] at hends
    generalize r.shrunk = shrunk at hends
    cases hends with
    | @rebuilt _ _ _ w _ _ _ _ hrebuild _ hvertices =>
      -- the vertices around the best one are replaced, and then sorted
      obtain ⟨-, -, hbest, -⟩ := replaceEach_places (fun _ _ _ _ _ => rfl)
        (List.nodup_finRange n) hrebuild
      rw [hvertices, ← accept_some, ← vertices_stepped, ← hbest]
      exact (toList_sortVertices_perm _).symm.subset w.state.vertices.best_mem

theorem shrinks_of_ends (hp : p.IsDefined) (hs : InOrder s.state.vertices) {tally : Tally α}
    {accepted : Option (Vertex α P)} {restarted : Bool}
    (htried : Tried p o s.state.vertices s.tally tally move accepted)
    (h : Ends p o s tally accepted t true restarted) : Shrinks s t := by
  cases h with
  | @shrunk u w haccepted hbefore hstepped hshrink htally hvertices =>
    subst haccepted
    obtain ⟨trials, hadds, -, -, hlength⟩ := htried.exists_trials hp hs
    have hu : u.state.vertices = s.state.vertices := hstepped.trans hs.sortVertices_eq
    obtain ⟨hnew, hbest⟩ := shrink_adds hp hshrink
    obtain ⟨-, -, -, hplaces, -⟩ := replaceEach_places isLocal_midpoint
      (List.nodup_finRange n) hshrink
    rw [hu] at hbest hplaces
    refine ⟨trials, w.state.vertices.others, ?_, ?_, hlength rfl, ?_⟩
    · rw [hvertices, ← hbest, ← Vertices.toList_eq_cons]
      exact toList_sortVertices_perm _
    · refine List.forall₂_iff_get.2 ⟨by simp, fun i hi hi' => ?_⟩
      have hin : i < n := by simpa using hi
      have hplace := (hplaces ⟨i, hin⟩ (List.mem_finRange _)).1
      rw [← Vertices.getElem_others _ ⟨i, hin⟩ hi, ← Vertices.getElem_others _ ⟨i, hin⟩ hi']
        at hplace
      exact hplace
    · rw [htally]
      rw [hbefore] at hnew
      exact hadds.trans hnew

end

/-! ## Runs -/

section

variable [Scalar α] [OrderedScalar α] [Coordinates α P] {p : Problem α n}

omit [OrderedScalar α] in
theorem AreEvaluated.isDefined (hp : p.IsDefined) {vs : Vertices α n P 0}
    (h : AreEvaluated p vs) : IsDefined Vertex.value vs.toList := by
  intro v hv
  obtain ⟨counters, hobjective⟩ := h v hv
  exact hp _ _ _ hobjective

variable {m : SimplexSearch α n} {clock : Nat → α} {d : Desk α (Row α)}

/-- **The sessions of a run** have vertices that were evaluated and are in
order. -/
theorem reaches_inOrder (hp : m.problem.IsDefined) {s : Session α (Row α) (State α n)}
    (hs : m.method.Reaches clock d s) :
    AreEvaluated m.problem s.state.vertices ∧ InOrder s.state.vertices := by
  refine hs.invariant (I := fun _ st => AreEvaluated m.problem st.vertices ∧
    InOrder st.vertices) ?_ ?_
  · intro st d' hinitial
    obtain ⟨vs, hsorted, -, hevaluated⟩ := initial_vertices hinitial
    rw [hsorted]
    exact ⟨hevaluated.sort, inOrder_sortVertices (hevaluated.isDefined hp)⟩
  · rintro s r t ⟨hevaluated, -⟩ hiterate
    obtain ⟨_, _, _, _, w, -, -, -, -, -, -, -, _, -, hstate⟩ := iterate_cases hiterate
    have ht := iterate_evaluated hiterate hevaluated
    have hsorted : t.state.vertices = sortVertices w.state.vertices := by rw [hstate]
    refine ⟨ht, hsorted ▸ inOrder_sortVertices fun v hv => ht.isDefined hp v ?_⟩
    rw [hsorted]
    exact (toList_sortVertices_perm _).symm.subset hv

end

theorem isDefined_real (p : Problem ℝ n) : p.IsDefined := fun _ _ _ _ => by simp

/-- The mean falls when the worst vertex gives way. -/
theorem ReplacesWorst.meanValue_lt {ρ : Type} {s t : Session ℝ ρ (State ℝ n)}
    (h : ReplacesWorst s t) : t.state.vertices.meanValue < s.state.vertices.meanValue := by
  obtain ⟨kept, a, trials, hbefore, hafter, hlt, -⟩ := h.exchanged
  have hpos : (0 : ℝ) < ((n + 1 + 0 : Nat) : ℝ) := by positivity
  have hsum : (t.state.vertices.toList.map (·.value)).sum
      < (s.state.vertices.toList.map (·.value)).sum := by
    rw [(hafter.map _).sum_eq, hbefore]
    simp only [List.map_cons, List.sum_cons, List.map_append, List.sum_append, List.map_nil,
      List.sum_nil, lt_real, decide_eq_true_eq] at hlt ⊢
    linarith
  simp only [Vertices.meanValue, mean, sum_real, List.length_map, Vector.length_toList, ofInt_real,
    Int.cast_natCast]
  exact div_lt_div_of_pos_right hsum hpos

/-- **What an iteration replaces,** for any weights and any objective with
defined values, whether or not it depends on what was evaluated before. If the
simplex neither shrinks nor is rebuilt, the worst vertex gives way to one that
was evaluated in the iteration and is strictly below it; no place has a higher
value than before, and in exact arithmetic the mean of the values falls. If it
shrinks, the best vertex stays and every other one gives way to the midpoint
with it. The vertices of a run are always in order, and in exact arithmetic an
iteration never fails. -/
theorem iterate_replaces_worst :
    (∀ (α P ρ : Type) [Scalar α] [OrderedScalar α] [Coordinates α P] (p : Problem α n)
        (o : Options α) (s t : Session α ρ (StateOn α n P 0)) (r : MoveReport),
      p.IsDefined → InOrder s.state.vertices → iterate p o s = .ok r t →
        (r.shrunk = false → r.restarted = false → ReplacesWorst s t) ∧
          (r.shrunk = true → Shrinks s t)) ∧
    (∀ (α : Type) [Scalar α] [OrderedScalar α] (m : SimplexSearch α n) (clock : Nat → α)
        (d : Desk α (Row α)) (s : Session α (Row α) (State α n)),
      m.problem.IsDefined → m.method.Reaches clock d s → InOrder s.state.vertices) ∧
    ∀ (ρ : Type) (p : Problem ℝ n) (o : Options ℝ) (s : Session ℝ ρ (State ℝ n)), 0 < n →
      ReturnsOnSpace p → o.IsNumeric → InOrder s.state.vertices →
        ∃ r t, iterate p o s = .ok r t ∧ (r.shrunk = false → r.restarted = false →
          t.state.vertices.meanValue < s.state.vertices.meanValue) := by
  have hends {α P ρ : Type} [Scalar α] [OrderedScalar α] [Coordinates α P] {p : Problem α n}
      {o : Options α} {s t : Session α ρ (StateOn α n P 0)} {r : MoveReport} (hp : p.IsDefined)
      (hs : InOrder s.state.vertices) (h : iterate p o s = .ok r t) :
      (r.shrunk = false → r.restarted = false → ReplacesWorst s t) ∧
        (r.shrunk = true → Shrinks s t) := by
    obtain ⟨move, accepted, tally, htry, hends⟩ := iterate_ends h
    have htried := tried_of_tryStep htry
    constructor
    · intro hshrunk hrestarted
      rw [hshrunk, hrestarted] at hends
      exact replaces_of_ends hp hs htried hends
    · intro hshrunk
      rw [hshrunk] at hends
      exact shrinks_of_ends hp hs htried hends
  refine ⟨?_, ?_, ?_⟩
  · intro α P ρ _ _ _ p o s t r hp hs h
    exact hends hp hs h
  · intro α _ _ m clock d s hp hs
    exact (reaches_inOrder hp hs).2
  · intro ρ p o s hn hp ho hs
    obtain ⟨r, t, h⟩ := returns_iterate hp ho hn s
    exact ⟨r, t, h, fun hshrunk hrestarted =>
      ((hends (isDefined_real p) hs h).1 hshrunk hrestarted).meanValue_lt⟩

/-- A step accepts a level below the best vertex, and none above the worst. -/
theorem Tried.accepted_level {v : ℝ} {o : Options ℝ} {vs : Vertices ℝ n (Point ℝ n) 0}
    {t u : Tally ℝ} {move : Move} {accepted : Option (Vertex ℝ (Point ℝ n))}
    (h : Tried (level n v) o vs t u move accepted) (hvs : InOrder vs) :
    (v < vs.best.value → accepted.isSome) ∧ (vs.worst.value < v → accepted = none) := by
  have hvalue {c : Stated ℝ} {a : Vertex ℝ (Point ℝ n)} {t u : Tally ℝ}
      (ha : tryVertex (level n v) vs c t = .ok a u) : a.value = v :=
    (isEvaluated_of_tryVertex ha).2.value_level
  have hbest := of_decide_eq_true (hvs.best_le _ vs.nextToWorst_mem)
  have hworst := of_decide_eq_true (hvs.le_worst _ vs.nextToWorst_mem)
  cases h with
  | reflected hr _ hlt =>
    have := hvalue hr ▸ of_decide_eq_true hlt
    exact ⟨fun _ => rfl, fun hv => by linarith⟩
  | expanded hr _ hlt _ | unexpanded hr _ hlt _ =>
    have := hvalue hr ▸ of_decide_eq_true hlt
    exact ⟨fun _ => rfl, fun hv => by linarith⟩
  | outside hr _ _ hlt _ =>
    have := hvalue hr ▸ of_decide_eq_true hlt
    exact ⟨fun _ => rfl, fun hv => by linarith⟩
  | inside _ hc _ _ hlt =>
    have := hvalue hc ▸ of_decide_eq_true hlt
    exact ⟨fun _ => rfl, fun hv => by linarith⟩
  | refusedOutside hr _ hle _ _ | refusedInside hr _ hle _ _ =>
    have := hvalue hr ▸ of_decide_eq_true hle
    exact ⟨fun hv => by linarith, fun _ => rfl⟩
  | unplaced hr _ hnot _ =>
    rw [hvalue hr] at hnot
    exact ⟨fun hv => absurd (decide_eq_true hv) hnot, fun _ => rfl⟩

/-- On a line with values zero and one, a lower level takes the place of the
one, and a higher one has the simplex shrink. -/
theorem level_replaces_or_shrinks :
    let o := { parabola.options with orientedRestart := false }
    ∃ s : Session ℝ (Row ℝ) (State ℝ 1),
      (∃ r t, iterate (level 1 (-1)) o s = .ok r t ∧ ReplacesWorst s t ∧
        t.state.vertices.meanValue < s.state.vertices.meanValue) ∧
      (∃ r t, iterate (level 1 2) o s = .ok r t ∧ Shrinks s t) ∧
      ∃ t, parabola.method.Reaches (fun _ => 0) (fresh .empty) t ∧ InOrder t.state.vertices := by
  intro o
  let vs : Vertices ℝ 1 (Point ℝ 1) 0 := #v[⟨.replicate 1 0, 0⟩, ⟨.replicate 1 1, 1⟩]
  let s : Session ℝ (Row ℝ) (State ℝ 1) :=
    (fresh .empty : Desk ℝ (Row ℝ)).withState
      { vertices := vs, mean := 0, restarts := 0, diameter := 1 }
  have hs : InOrder s.state.vertices := by
    constructor
    · simp [IsDefined]
    · simp [IsSorted, s, vs]
  have ho : o.IsNumeric :=
    ⟨parabola_proper.weight, parabola_proper.maxRestart, parabola_proper.decrease⟩
  obtain ⟨hiteration, hruns, hmeans⟩ := iterate_replaces_worst (n := 1)
  -- without restarts, the simplex shrinks where the step accepts nothing
  have hshrunk {v : ℝ} {r : MoveReport} {t : Session ℝ (Row ℝ) (State ℝ 1)}
      (h : iterate (level 1 v) o s = .ok r t) :
      r.restarted = false ∧ (v < 0 → r.shrunk = false) ∧ (1 < v → r.shrunk = true) := by
    obtain ⟨move, accepted, tally, htry, hends⟩ := iterate_ends h
    obtain ⟨hsome, hnone⟩ := (tried_of_tryStep htry).accepted_level hs
    generalize r.shrunk = shrunk, r.restarted = restarted at hends
    cases hends with
    | stepped haccepted =>
      exact ⟨rfl, fun _ => rfl, fun hv => by simp [hnone hv] at haccepted⟩
    | shrunk haccepted =>
      rw [haccepted] at hsome
      exact ⟨rfl, fun hv => absurd (hsome hv) (by simp), fun _ => rfl⟩
    | rebuilt hmay => cases hmay
  have hreturns (v : ℝ) : ReturnsOnSpace (level 1 v) := fun _ _ => ⟨v, rfl⟩
  obtain ⟨r, t, hr, hmean⟩ := hmeans _ _ _ s one_pos (hreturns (-1)) ho hs
  obtain ⟨hkept, hnot, -⟩ := hshrunk hr
  obtain ⟨r', t', hr', -⟩ := hmeans _ _ _ s one_pos (hreturns 2) ho hs
  obtain ⟨-, -, hyes⟩ := hshrunk hr'
  obtain ⟨u, hu⟩ : ∃ u, parabola.method.start (fun _ => 0) (fresh .empty) = .ok u :=
    exists_start fun _ _ => ⟨_, rfl⟩
  refine ⟨s, ⟨r, t, hr, ?_, hmean (hnot (by norm_num)) hkept⟩, ⟨r', t', hr', ?_⟩, u,
    .of_start hu, ?_⟩
  · exact (hiteration _ _ _ _ _ _ _ _ (isDefined_real _) hs hr).1 (hnot (by norm_num)) hkept
  · exact (hiteration _ _ _ _ _ _ _ _ (isDefined_real _) hs hr').2 (hyes (by norm_num))
  · exact hruns _ _ _ _ u (isDefined_real _) (.of_start hu)

end SimplexSearch

end DirectSearch
