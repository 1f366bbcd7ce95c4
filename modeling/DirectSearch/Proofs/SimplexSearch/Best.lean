import DirectSearch.Proofs.Scalar.Binary64
import DirectSearch.Proofs.Search.Runs
import DirectSearch.Proofs.SimplexSearch.Evaluated
import DirectSearch.SimplexSearch.Run
/-!
# Simplex search — the best vertex is the first least evaluation

A simplex search throws values away: of rejected steps, and of the
vertices that a shrink or a restart replaces. None of them was better than
what it keeps. Seen from its best vertex the simplex `Leads` the
evaluations of the run: the best vertex is the first of the least, among
the vertices and among the evaluations. Whatever an iteration evaluates,
the simplex leads afterwards (`iterate_leads`), with the old best vertex in
front or with a new one strictly below it.
-/

namespace DirectSearch

open Scalar OrderedScalar Sorting Session Simplex

namespace Simplex.Vertices

variable {α : Type} {n : Nat} {P : Type} {extra : Nat} (vs : Vertices α n P extra)

theorem others_subset : vs.others ⊆ vs.toList := by
  rw [toList_eq_cons]
  exact List.subset_cons_self _ _

/-- The vertices with an accepted one in place of the worst. -/
def withAccepted : Option (Vertex α P) → Vertices α n P extra
  | some v => vs.replaceWorst v
  | none => vs

theorem mem_withAccepted {accepted : Option (Vertex α P)} {v : Vertex α P}
    (h : v ∈ (vs.withAccepted accepted).toList) : v ∈ vs.toList ∨ v ∈ accepted := by
  cases accepted with
  | none => exact .inl h
  | some a =>
    rw [withAccepted, replaceWorst, Vector.toList_set] at h
    exact (List.mem_or_eq_of_mem_set h).imp_right fun h => by simp [h]

end Simplex.Vertices

namespace SimplexSearch

section

variable {α : Type} [Scalar α] {n : Nat} {P : Type} [Coordinates α P]

/-- A vertex is the first of the least of some vertices and of the
evaluations they come from. -/
structure Leads (es : List (Evaluation α)) (vs : List (Vertex α P)) (best : Vertex α P) : Prop where
  defined : ∀ e ∈ es, le e.value e.value
  evaluated : ∀ v ∈ vs, v.evaluation ∈ es
  vertex : FirstLeast Vertex.value best vs
  evaluation : FirstLeast Evaluation.value best.evaluation es

variable {es : List (Evaluation α)} {vs ws : Vertices α n P 0} {best : Vertex α P}
variable {new : List (Vertex α P)} {accepted : Option (Vertex α P)} {t u : Tally α}

omit [Coordinates α P] in
theorem accept_eq {extra : Nat} {vs : Vertices α n P extra} :
    accept vs accepted = sortVertices (vs.withAccepted accepted) := by
  cases accepted <;> rfl

theorem Leads.self_le {xs : List (Vertex α P)} (h : Leads es xs best) :
    le best.value best.value :=
  h.defined _ h.evaluation.mem

variable [OrderedScalar α]

theorem Leads.le {xs : List (Vertex α P)} (h : Leads es xs best) :
    ∀ v ∈ xs, Scalar.le best.value v.value :=
  h.vertex.le h.self_le

theorem Leads.le_evaluation {xs : List (Vertex α P)} (h : Leads es xs best) :
    ∀ e ∈ es, Scalar.le best.value e.value :=
  h.evaluation.le h.self_le

/-- **Sorting brings the leading vertex to the front.** -/
theorem Leads.sort (h : Leads es vs.toList best) :
    Leads es (sortVertices vs).toList best ∧
      Vertices.best (sortVertices vs : Vertices α n P 0) = best := by
  have hdef : ∀ v ∈ vs.toList, Scalar.le v.value v.value := fun v hv =>
    h.defined _ (h.evaluated v hv)
  obtain ⟨w, rest, hsorted, hw⟩ : ∃ w rest, sorted Vertex.isBetter
      (fun v => !isUndefined v.value) vs.toList = w :: rest ∧
        FirstLeast Vertex.value w vs.toList :=
    exists_sorted_eq_cons (List.ne_nil_of_mem h.vertex.mem) hdef fun v hv => by
      simpa using defined_iff.2 (hdef v hv)
  obtain rfl := hw.unique h.vertex
  have hlist : (sortVertices vs).toList = w :: rest := (toList_sortVertices vs).trans hsorted
  have hmem : ∀ v, v ∈ (sortVertices vs).toList ↔ v ∈ vs.toList := fun v =>
    (toList_sortVertices_perm vs).mem_iff
  refine ⟨⟨h.defined, fun v hv => h.evaluated v ((hmem v).1 hv), ?_, h.evaluation⟩, ?_⟩
  · rw [hlist]
    refine firstLeast_cons fun v hv => h.le v ((hmem v).1 ?_)
    rw [hlist]
    exact List.mem_cons_of_mem _ hv
  · exact (List.cons.inj ((Vertices.toList_eq_cons _).symm.trans hlist)).1

/-- The vertices behind the best one replaced by new ones: one of all
leads. -/
theorem Leads.replace (h : Leads es vs.toList vs.best)
    (hnew : ∀ v ∈ ws.others, Scalar.le v.value v.value) (hbest : ws.best = vs.best) :
    ∃ w, Leads (es ++ ws.others.map Vertex.evaluation) ws.toList w := by
  rw [Vertices.toList_eq_cons ws, hbest]
  have hdef : ∀ v ∈ vs.best :: ws.others, Scalar.le v.value v.value := by
    intro v hv
    rcases List.mem_cons.1 hv with rfl | hv
    · exact h.self_le
    · exact hnew v hv
  obtain ⟨w, -, -, hw⟩ := exists_stableSort_eq_cons (List.cons_ne_nil _ _) hdef
  have hfirst : FirstLeast Evaluation.value w.evaluation
      ((vs.best :: ws.others).map Vertex.evaluation) := FirstLeast.map hw
  refine ⟨w, ?_, ?_, hw, h.evaluation.append_of_cons h.self_le hfirst⟩
  · intro e he
    rcases List.mem_append.1 he with he | he
    · exact h.defined e he
    · obtain ⟨v, hv, rfl⟩ := List.mem_map.1 he
      exact hnew v hv
  · intro v hv
    rcases List.mem_cons.1 hv with rfl | hv
    · exact List.mem_append_left _ h.evaluation.mem
    · exact List.mem_append_right _ (List.mem_map_of_mem hv)

/-- New vertices that are not below the leading one: it leads on, with or
without one of them in place of the worst. -/
theorem Leads.keep (hn : 0 < n) (h : Leads es vs.toList vs.best)
    (hle : ∀ v ∈ new, Scalar.le vs.best.value v.value) (hmem : ∀ a ∈ accepted, a ∈ new) :
    Leads (es ++ new.map Vertex.evaluation) (vs.withAccepted accepted).toList vs.best where
  defined := by
    intro e he
    rcases List.mem_append.1 he with he | he
    · exact h.defined e he
    · obtain ⟨v, hv, rfl⟩ := List.mem_map.1 he
      exact (defined_of_le (hle v hv)).2
  evaluated := by
    intro v hv
    rcases vs.mem_withAccepted hv with hv | hv
    · exact List.mem_append_left _ (h.evaluated v hv)
    · exact List.mem_append_right _ (List.mem_map_of_mem (hmem v hv))
  vertex := by
    cases accepted with
    | none => exact h.vertex
    | some a =>
      rw [Vertices.withAccepted, vs.toList_replaceWorst a hn]
      refine firstLeast_cons fun v hv => ?_
      rcases List.mem_or_eq_of_mem_set hv with hv | rfl
      · exact h.le v (vs.others_subset hv)
      · exact hle v (hmem v rfl)
  evaluation := by
    refine h.evaluation.append fun e he => ?_
    obtain ⟨v, hv, rfl⟩ := List.mem_map.1 he
    exact hle v hv

/-- A new vertex below the leading one, the first least of the new ones,
leads in its place. -/
theorem Leads.supersede (hn : 0 < n) (h : Leads es vs.toList vs.best) {a : Vertex α P}
    (hnew : ∀ v ∈ new, Scalar.le v.value v.value) (hlt : lt a.value vs.best.value)
    (hfirst : FirstLeast Vertex.value a new) :
    Leads (es ++ new.map Vertex.evaluation) (vs.withAccepted (some a)).toList a where
  defined := by
    intro e he
    rcases List.mem_append.1 he with he | he
    · exact h.defined e he
    · obtain ⟨v, hv, rfl⟩ := List.mem_map.1 he
      exact hnew v hv
  evaluated := by
    intro v hv
    rcases vs.mem_withAccepted hv with hv | hv
    · exact List.mem_append_left _ (h.evaluated v hv)
    · obtain rfl : a = v := by simpa using hv
      exact List.mem_append_right _ (List.mem_map_of_mem hfirst.mem)
  vertex := by
    -- the new vertex is the last of all, and every other one is above it
    have hset : vs.others.set (n - 1) a = vs.others.take (n - 1) ++ [a] := by
      rw [List.set_eq_take_append_cons_drop, if_pos (by simp; omega), List.drop_eq_nil_of_le]
      simp
      omega
    rw [Vertices.withAccepted, vs.toList_replaceWorst a hn, hset, ← List.cons_append]
    refine FirstLeast.append_left (firstLeast_cons (by simp)) fun v hv => ?_
    refine lt_of_lt_of_le hlt (h.le v ?_)
    rcases List.mem_cons.1 hv with rfl | hv
    · exact vs.best_mem
    · exact vs.others_subset (List.mem_of_mem_take hv)
  evaluation := by
    refine FirstLeast.append_left (FirstLeast.map hfirst) fun e he => ?_
    exact lt_of_lt_of_le hlt (h.le_evaluation e he)

/-- **After a step** the best vertex leads, the old one or the accepted
one. -/
theorem Leads.accept (hn : 0 < n) (h : Leads es vs.toList vs.best)
    (hnew : ∀ v ∈ new, Scalar.le v.value v.value) (hout : Outcome vs.best new accepted) :
    Leads (es ++ new.map Vertex.evaluation) (accept vs accepted).toList
      (accept vs accepted).best := by
  obtain ⟨b, hb⟩ : ∃ b, Leads (es ++ new.map Vertex.evaluation)
      (vs.withAccepted accepted).toList b := by
    rcases hout with ⟨hle, hmem⟩ | ⟨a, rfl, hlt, hfirst⟩
    · exact ⟨_, h.keep hn hle hmem⟩
    · exact ⟨_, h.supersede hn hnew hlt hfirst⟩
  obtain ⟨hsort, hbest⟩ := hb.sort
  rw [accept_eq, hbest]
  exact hsort

/-! ## The steps of a run -/

/-- **A session of a run that started with some evaluations made:** its
simplex is led by the best vertex, in view of the others. -/
def Led (earlier : List (Evaluation α)) (t : Tally α) (st : StateOn α n P 0) : Prop :=
  ∃ es, t.evaluations.toList = earlier ++ es ∧ Leads es st.vertices.toList st.vertices.best

variable {p : Problem α n} {ρ : Type} {earlier : List (Evaluation α)}

/-- A session whose vertices were sorted just now. -/
theorem Led.of_sort {st : StateOn α n P 0} (ht : t.evaluations.toList = earlier ++ es)
    (h : Leads es vs.toList best) (hst : st.vertices = sortVertices vs) : Led earlier t st := by
  obtain ⟨hsort, hbest⟩ := h.sort
  refine ⟨es, ht, ?_⟩
  rw [hst, hbest]
  exact hsort

theorem initial_led (hp : p.IsDefined) {xs : Vector (Point α n) (n + 1)} {d d' : Desk α ρ}
    {st : State α n} (h : initial p xs d = .ok st d') :
    Led d.tally.evaluations.toList d'.tally st := by
  obtain ⟨vs, tally, hvs, rfl, hvertices, -⟩ := initialBy_cases h
  have hadds := evaluateAll_adds hp hvs
  have hne : vs.toList ≠ [] := List.ne_nil_of_length_pos (by simp)
  obtain ⟨w, -, -, hw⟩ := exists_stableSort_eq_cons hne hadds.defined
  have hleads : Leads (vs.toList.map Vertex.evaluation) vs.toList w :=
    { defined := by simpa [Vertex.evaluation] using hadds.defined
      evaluated := fun v hv => List.mem_map_of_mem hv
      vertex := hw
      evaluation := FirstLeast.map hw }
  exact Led.of_sort hadds.evaluations hleads hvertices

/-- **An iteration keeps the best vertex in the lead.** -/
theorem iterate_led (hn : 0 < n) (hp : p.IsDefined) {o : Options α}
    {s t : Session α ρ (StateOn α n P 0)} {r : MoveReport}
    (hs : Led earlier s.tally s.state) (h : iterate p o s = .ok r t) :
    Led earlier t.tally t.state := by
  obtain ⟨es, hes, hleads⟩ := hs
  obtain ⟨move, accepted, tally, htry, hends⟩ := iterate_ends h
  obtain ⟨new, hnew, hout⟩ := tryStep_adds hp hleads.le htry
  have haccept := hleads.accept hn hnew.defined hout
  have hes' := hnew.evaluations_append hes
  generalize r.shrunk = shrunk, r.restarted = restarted at hends
  cases hends with
  | stepped _ htally hvertices =>
    rw [htally]
    exact Led.of_sort hes' haccept hvertices
  | shrunk _ hbefore hstepped hshrink htally hvertices =>
    obtain ⟨hadds, hbest⟩ := shrink_adds hp hshrink
    rw [hbefore] at hadds
    rw [hstepped] at hbest
    obtain ⟨b, hb⟩ := haccept.replace hadds.defined hbest
    rw [htally]
    exact Led.of_sort (hadds.evaluations_append hes') hb hvertices
  | rebuilt _ _ _ _ hrebuild htally hvertices =>
    obtain ⟨hadds, hbest⟩ := replaceEach_finRange_adds hp hrebuild
    rw [tally_stepped] at hadds
    rw [vertices_stepped] at hbest
    obtain ⟨b, hb⟩ := haccept.replace hadds.defined hbest
    rw [htally]
    exact Led.of_sort (hadds.evaluations_append hes') hb hvertices

/-! ## Whole runs -/

theorem reaches_led {m : SimplexSearch α n} (hn : 0 < n) (hp : m.problem.IsDefined)
    {clock : Nat → α} {d : Desk α (Row α)} {s : Session α (Row α) (State α n)}
    (h : m.method.Reaches clock d s) : Led d.tally.evaluations.toList s.tally s.state := by
  refine h.invariant (fun st d' hinit => ?_) fun _ _ _ hs ht => iterate_led hn hp hs ht
  exact initial_led (d := d.openJournal clock) hp hinit

omit [OrderedScalar α] in
theorem Led.firstLeast {σ : Type} {d : Desk α ρ} {s : Session α ρ σ} {st : StateOn α n P 0}
    (h : Led d.tally.evaluations.toList s.tally st) :
    FirstLeast Evaluation.value st.vertices.best.evaluation (s.evaluationsSince d) := by
  obtain ⟨es, hes, hleads⟩ := h
  rw [evaluationsSince, hes, ← Array.length_toList, List.drop_left]
  exact hleads.evaluation

end

/-- **The best vertex is the first of the least evaluations of the run,**
in every session that the run comes to, and so is the solution that it
reports. No value of the objective may be undefined. -/
theorem run_reports_firstLeast {n : Nat} (hn : 0 < n) (m : SimplexSearch Float n)
    (hdefined : ∀ counters x v, m.problem.objective counters x = .ok v → v.isNaN = false)
    (clock : Nat → Float) (d : Desk Float (Row Float)) :
    (∀ s, m.method.Reaches clock d s →
      FirstLeast Evaluation.value s.state.vertices.best.evaluation (s.evaluationsSince d)) ∧
    ∀ fuel report d', m.method.run clock fuel d = some ⟨.ok report, d'⟩ →
      FirstLeast Evaluation.value ⟨report.solution.toGrid, report.objective⟩
        (d'.evaluationsSince d) := by
  have hp : m.problem.IsDefined := fun counters x v h =>
    le_self_iff.2 (Binary64.isNumber_iff.2 (hdefined counters x v h))
  refine ⟨fun s hs => (reaches_led hn hp hs).firstLeast, fun fuel report d' hrun => ?_⟩
  obtain ⟨s, status, hs, rfl, rfl⟩ := Method.exists_reaches_of_run hrun
  exact (reaches_led hn hp hs).firstLeast

/-- On a line, an objective that is lower at every other evaluation. -/
def alternating : SimplexSearch Float 1 where
  problem :=
    { name := .absent
      objective := fun counters _ => .ok (if counters.objective % 2 = 0 then zero else one)
      block := none, blockSize := 0, inequalities := [], equalities := []
      start := .replicate 1 zero, lower := .replicate 1 zero, upper := .replicate 1 one
      constraintLower := .replicate 0 zero, constraintUpper := .replicate 0 zero }
  vertices := #v[.replicate 1 zero, .replicate 1 one]
  options :=
    { tolerance := .ok (.whole 0)
      reflection := .ok (.whole (-1)), expansion := .ok (.whole (-2))
      outside := .ok (.real (one / two)), inside := .ok (.real (one / two))
      orientedRestart := false, maxRestart := .ok (.whole 0), decrease := .ok (.whole 0) }
  budgets :=
    { evaluations := .ok none, time := .ok (.whole (-1)), iterations := .ok (some (.whole 1)) }

theorem alternating_defined (counters : Counters) (x : Grid Float) (v : Float)
    (h : alternating.problem.objective counters x = .ok v) : v.isNaN = false := by
  obtain rfl := Except.ok.inj h
  split <;> decide +kernel

/-- Its values tie in every second evaluation, and a run of one iteration
reports the first of the lower ones. -/
theorem alternating_reports_firstLeast :
    ∃ report d',
      alternating.method.run (fun _ => zero) 1 (Session.fresh .empty) = some ⟨.ok report, d'⟩ ∧
        FirstLeast Evaluation.value ⟨report.solution.toGrid, report.objective⟩
          (d'.evaluationsSince (Session.fresh .empty : Desk Float (Row Float))) := by
  have hreport : Method.reportsThat (fun _ => true)
      (alternating.method.run (fun _ => zero) 1 (Session.fresh .empty)) := by
    decide +kernel
  obtain ⟨report, d', hrun, -⟩ := Method.exists_report hreport
  exact ⟨report, d', hrun,
    (run_reports_firstLeast (by decide) alternating alternating_defined _ _).2 _ _ _ hrun⟩

end SimplexSearch

end DirectSearch
