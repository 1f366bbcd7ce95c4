import DirectSearch.Proofs.SimplexSearch.Iteration
import DirectSearch.Proofs.Sorting.FirstLeast
/-!
# Simplex search — the evaluations of a step

Every part of an iteration evaluates some points one after the other, and
the tally grows by just these, in their order (`Adds`). What the parts make
of the vertices is told beside it: which vertex a step accepts
(`tryStep_adds`), and that the simplex is rebuilt and shrunk by replacing
all vertices behind the best one, which stays (`replaceEach_adds`).
-/

namespace DirectSearch

open Scalar OrderedScalar Sorting Session Simplex

variable {α : Type} [Scalar α] {n : Nat} {P : Type}

/-- The objective returns defined values only. -/
def Problem.IsDefined (p : Problem α n) : Prop :=
  ∀ counters x v, p.objective counters x = .ok v → le v v

variable [Coordinates α P]

namespace Simplex

/-- The evaluation that a vertex stands for. -/
def Vertex.evaluation (v : Vertex α P) : Evaluation α := ⟨Coordinates.toGrid v.point, v.value⟩

/-- The evaluations that were added from one tally to another: those of
some vertices, in their order, with defined values. -/
structure Adds (t u : Tally α) (vs : List (Vertex α P)) : Prop where
  evaluations : u.evaluations.toList = t.evaluations.toList ++ vs.map Vertex.evaluation
  defined : ∀ v ∈ vs, le v.value v.value

variable {t u w : Tally α} {vs ws : List (Vertex α P)}

theorem Adds.refl (t : Tally α) : Adds t t ([] : List (Vertex α P)) :=
  ⟨by simp, by simp⟩

theorem Adds.trans (h₁ : Adds t u vs) (h₂ : Adds u w ws) : Adds t w (vs ++ ws) where
  evaluations := by rw [h₂.evaluations, h₁.evaluations]; simp
  defined v hv := (List.mem_append.1 hv).elim (h₁.defined v) (h₂.defined v)

/-- What is added goes behind what a run has evaluated before. -/
theorem Adds.evaluations_append {earlier es : List (Evaluation α)} (h : Adds t u vs)
    (ht : t.evaluations.toList = earlier ++ es) :
    u.evaluations.toList = earlier ++ (es ++ vs.map Vertex.evaluation) := by
  rw [h.evaluations, ht, List.append_assoc]

end Simplex

namespace SimplexSearch

variable {p : Problem α n} {t u : Tally α}

/-! ## Evaluating vertices -/

theorem vertexAt_adds (hp : p.IsDefined) {x : P} {v : Vertex α P}
    (h : vertexAt p x t = .ok v u) : Adds t u [v] := by
  simp only [vertexAt, bind_eq_ok, pure_eq_ok, Problem.objectiveAt_eq_ok] at h
  obtain ⟨f, _, ⟨hobjective, rfl⟩, rfl, rfl⟩ := h
  refine ⟨by simp [Vertex.evaluation], fun v hv => ?_⟩
  obtain rfl := List.mem_singleton.1 hv
  exact hp _ _ _ hobjective

theorem mapM_vertexAt_adds (hp : p.IsDefined) {xs : List P} {vs : List (Vertex α P)}
    (h : xs.mapM (vertexAt p) t = .ok vs u) : Adds t u vs := by
  induction xs generalizing t vs with
  | nil =>
    simp only [List.mapM_nil, pure_eq_ok] at h
    obtain ⟨rfl, rfl⟩ := h
    exact .refl t
  | cons x xs ih =>
    simp only [List.mapM_cons, bind_eq_ok, pure_eq_ok] at h
    obtain ⟨v, t₁, hv, vs', t₂, hvs', rfl, rfl⟩ := h
    exact (vertexAt_adds hp hv).trans (ih hvs')

theorem evaluateAll_adds (hp : p.IsDefined) {k : Nat} {xs : Vector P k}
    {vs : Vector (Vertex α P) k} (h : evaluateAll p xs t = .ok vs u) :
    Adds t u vs.toList :=
  mapM_vertexAt_adds hp (toList_evaluateAll h)

variable {extra : Nat} {vs : Vertices α n P extra}

theorem tryVertex_adds (hp : p.IsDefined) {weight : Stated α} {v : Vertex α P}
    (h : tryVertex p vs weight t = .ok v u) : Adds t u [v] := by
  simp only [tryVertex, bind_eq_ok, demand_eq_ok] at h
  obtain ⟨x, t', ⟨-, rfl⟩, hv⟩ := h
  exact vertexAt_adds hp hv

/-! ## The simplex replaced -/

variable {ρ : Type}

/-- **Vertices replaced one after the other** are the new evaluations, in
their order, and the best vertex stays. -/
theorem replaceEach_adds (hp : p.IsDefined)
    {place : Vertices α n P extra → Fin n → Except Fault P} {is : List (Fin n)} {j : Nat}
    {s t : Session α ρ (StateOn α n P extra)}
    (his : is.map Fin.val = List.range' j is.length) (h : replaceEach p place is s = .ok () t) :
    ∃ ys, ys.length = is.length ∧ Adds s.tally t.tally ys ∧
      t.state.vertices.best = s.state.vertices.best ∧
      t.state.vertices.others = s.state.vertices.others.take j ++ ys ++
        s.state.vertices.others.drop (j + is.length) := by
  induction is generalizing s j with
  | nil =>
    simp only [replaceEach, pure_eq_ok] at h
    obtain ⟨-, rfl⟩ := h
    exact ⟨[], rfl, .refl _, rfl, by simp⟩
  | cons i is ih =>
    simp only [List.map_cons, List.length_cons, List.range'_succ, List.cons.injEq] at his
    simp only [replaceEach, bind_eq_ok, getState_eq_ok, demand_eq_ok, evaluate_eq_ok,
      modifyState_eq_ok] at h
    obtain ⟨_, _, ⟨rfl, rfl⟩, x, _, ⟨-, rfl⟩, v, _, ⟨tally, hv, rfl⟩, _, _, rfl, h⟩ := h
    obtain ⟨ys, hlength, hadds, hbest, hothers⟩ := ih his.2 h
    -- the new vertex is written at place `j`, where the vertices not yet replaced begin
    refine ⟨v :: ys, by simp [hlength], (vertexAt_adds hp hv).trans hadds, by simpa using hbest, ?_⟩
    have hj : j < s.state.vertices.others.length := by
      have := i.isLt
      rw [Vertices.length_others]
      omega
    simp only [withState_state, withTally_state, Vertices.others_replaceOther] at hothers
    rw [hothers, his.1, List.take_add_one, List.drop_set_of_lt (by omega),
      List.take_set_of_le (Nat.le_refl j), List.getElem?_set_self hj]
    have hend : j + (is.length + 1) = j + 1 + is.length := by omega
    simp [hend]

/-- A whole simplex replaced but for its best vertex. -/
theorem replaceEach_finRange_adds (hp : p.IsDefined)
    {s t : Session α ρ (StateOn α n P 0)} {place : Vertices α n P 0 → Fin n → Except Fault P}
    (h : replaceEach p place (List.finRange n) s = .ok () t) :
    Adds s.tally t.tally t.state.vertices.others ∧
      t.state.vertices.best = s.state.vertices.best := by
  have his : (List.finRange n).map Fin.val = List.range' 0 (List.finRange n).length :=
    List.ext_getElem (by simp) (by simp)
  obtain ⟨ys, -, hadds, hbest, hothers⟩ := replaceEach_adds hp his h
  have hdrop : s.state.vertices.others.drop (0 + (List.finRange n).length) = [] := by
    simp
  rw [hdrop, List.take_zero, List.nil_append, List.append_nil] at hothers
  exact ⟨hothers ▸ hadds, hbest⟩

theorem shrink_adds (hp : p.IsDefined) {s t : Session α ρ (StateOn α n P 0)} {v : Unit}
    (h : shrink p s = .ok v t) :
    Adds s.tally t.tally t.state.vertices.others ∧
      t.state.vertices.best = s.state.vertices.best :=
  replaceEach_finRange_adds hp h

/-! ## The step -/

section

omit [Coordinates α P]

/-- What a step has come to, seen from the best vertex: nothing new is
below it, or the accepted vertex is, and is the first least of the new
ones. -/
def Outcome (best : Vertex α P) (new : List (Vertex α P))
    (accepted : Option (Vertex α P)) : Prop :=
  (∀ v ∈ new, le best.value v.value) ∧ (∀ a ∈ accepted, a ∈ new) ∨
    ∃ a, accepted = some a ∧ lt a.value best.value ∧ FirstLeast Vertex.value a new

variable [OrderedScalar α] {best reflected v : Vertex α P}

/-- A second vertex behind a reflection that is not below the best one:
it may be accepted, whatever it is. -/
theorem outcome_of_le (hbest : le best.value best.value)
    (hdef : le v.value v.value) (hreflected : le best.value reflected.value) :
    Outcome best [reflected, v] (some v) := by
  rcases lt_or_le hdef hbest with hlt | hle
  · refine .inr ⟨v, rfl, hlt, [reflected], [], rfl, ?_, by simp⟩
    simpa using lt_of_lt_of_le hlt hreflected
  · exact .inl ⟨by simp [hreflected, hle], by simp⟩

end

variable [OrderedScalar α]

/-- **What a step evaluates and accepts.** -/
theorem tryStep_adds (hp : p.IsDefined) {o : Options α} {move : Move}
    {accepted : Option (Vertex α P)}
    (hbest : ∀ v ∈ vs.toList, le vs.best.value v.value)
    (h : tryStep p o vs t = .ok (move, accepted) u) :
    ∃ new, Adds t u new ∧ Outcome vs.best new accepted := by
  have hself := hbest _ (Vertices.best_mem vs)
  have hworst := hbest _ vs.worst_mem
  -- a reflection that is not better than the last but one is not below the best
  have hpoor {v : Vertex α P} (hv : le vs.nextToWorst.value v.value) : le vs.best.value v.value :=
    le_trans (hbest _ vs.nextToWorst_mem) hv
  have hadds {weight : Stated α} {v : Vertex α P} {t u : Tally α}
      (hv : tryVertex p vs weight t = .ok v u) : Adds t u [v] ∧ le v.value v.value :=
    ⟨tryVertex_adds hp hv, (tryVertex_adds hp hv).defined v (by simp)⟩
  cases tried_of_tryStep h with
  | reflected hr hbest _ =>
    exact ⟨_, (hadds hr).1, .inl ⟨by simpa using hbest, by simp⟩⟩
  | @expanded r e _ hr he hbest hlt =>
    exact ⟨_, (hadds hr).1.trans (hadds he).1, .inr ⟨e, rfl, lt_trans hlt hbest, [r], [], rfl,
      by simpa using hlt, by simp⟩⟩
  | @unexpanded r e _ hr he hbest hnot =>
    exact ⟨_, (hadds hr).1.trans (hadds he).1, .inr ⟨r, rfl, hbest,
      firstLeast_cons (by simpa using le_of_not_lt (hadds he).2 (hadds hr).2 hnot)⟩⟩
  | outside hr hc hnext | inside hr hc hnext =>
    exact ⟨_, (hadds hr).1.trans (hadds hc).1, outcome_of_le hself (hadds hc).2 (hpoor hnext)⟩
  | refusedOutside hr hc hnext _ hnot =>
    have hle := (le_total (hadds hr).2 (hadds hc).2).resolve_right hnot
    exact ⟨_, (hadds hr).1.trans (hadds hc).1,
      .inl ⟨by simp [hpoor hnext, le_trans (hpoor hnext) hle], by simp⟩⟩
  | refusedInside hr hc hnext _ hnot =>
    have hle := le_of_not_lt (hadds hc).2 (defined_of_le hworst).2 hnot
    exact ⟨_, (hadds hr).1.trans (hadds hc).1,
      .inl ⟨by simp [hpoor hnext, le_trans hworst hle], by simp⟩⟩
  | unplaced hr _ hbest _ =>
    exact ⟨_, (hadds hr).1, .inl ⟨by simpa using le_of_not_lt (hadds hr).2 hself hbest, by simp⟩⟩

end SimplexSearch

end DirectSearch
