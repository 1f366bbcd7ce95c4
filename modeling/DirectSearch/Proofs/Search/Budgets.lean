import DirectSearch.Proofs.MeshSearch.Reliable
import DirectSearch.Proofs.MeshSearch.Stall
import DirectSearch.Proofs.Search.Spending
import DirectSearch.Proofs.SimplexSearch.Best
import DirectSearch.Proofs.SimplexSearch.Returns
/-!
# Search — the budgets of the two searches

A poll asks for one evaluation at each heading it comes to, and an iteration
of the simplex search for one or two trials and perhaps for `n` new
vertices, of a rebuilt or of a shrunk simplex but never of both
(`considerRestart_bind`). So both searches spend at least one evaluation an
iteration, and how far they can exceed a budget is what one iteration may
spend, less one (`searches_end_within_budgets`). A search that is given what
it needs ends with a report, but for a mesh that is out of range.
-/

namespace DirectSearch

open Scalar Session Simplex

variable {α : Type} [Scalar α] {n : Nat} {ρ : Type} {p : Problem α n}

/-! ## Mesh search -/

namespace MeshSearch

variable {o : Options α} {directions : Directions α}

/-- A scan evaluates at one heading at least, and at each once at most. -/
theorem spends_scan {P : Type} [Coordinates α P] [Includes α n P] (st : StateOn α n P)
    (ds : List (Heading n)) (best : Option (Appraisal α n)) :
    Spends (scan p o st ds best : Step α ρ (StateOn α n P) _) (min 1 ds.length) ds.length 0 := by
  induction ds generalizing best with
  | nil => exact .pure best
  | cons d ds ih =>
    rw [List.length_cons, Nat.min_eq_left (by omega), Nat.add_comm ds.length]
    refine .bind_free (.demand _) fun x => (Spends.appraise p _ x).bind
      0 ds.length 0 fun a => ?_
    -- a greedy scan goes on behind a success and any other ends there, so
    -- that nothing is certain to be spent on the rest of the headings
    have hrest (best : Option (Appraisal α n)) :
        Spends (scan p o st ds best : Step α ρ (StateOn α n P) _) 0 ds.length 0 :=
      (ih best).mono (by omega) (by omega)
    have hjudge : Spends (if lt a.merit (bar st best) then do
          modifyState (noteDecrease d)
          if o.greedy then scan p o st ds (some a) else pure (some a)
        else scan p o st ds best : Step α ρ (StateOn α n P) _) 0 ds.length 0 := by
      refine .ite (fun _ => .bind_free (.modifyState _) fun _ => ?_) fun _ => hrest best
      exact .ite (fun _ => hrest (some a))
        fun _ => (Spends.pure (some a)).mono (by omega) (by omega)
    exact .ite (fun _ => .bind_free (.modifyState _) fun _ => hjudge) fun _ => hjudge

theorem spends_succeed {P : Type} [Includes α n P] (a : Appraisal α n) :
    Spends (succeed a : Step α ρ (StateOn α n P) Unit) 0 0 0 :=
  .bind_free (.modifyState _) fun _ => .bind_free .getState fun _ =>
    .bind_free (.demand _) fun _ => .modifyState _

theorem spends_fail {P : Type} : Spends (fail : Step α ρ (StateOn α n P) Unit) 0 0 0 := by
  refine .bind_free (.modifyState _) fun _ => .bind_free .getState fun _ =>
    .bind_free (.demand _) fun _ => .bind_free (.modifyState _) fun _ => ?_
  exact .ite (fun _ => .ite (fun _ => .bind_free (.report _) fun _ => .modifyState _)
    fun _ => .modifyState _) fun _ => .pure ()

theorem length_headings (x : Point α n) : (headings n x).length = 2 * n := by
  rw [headings_point, Heading.length_all]

/-- **A poll** evaluates once at least, and at every heading once at most. -/
theorem spends_poll (hn : 0 < n) :
    Spends (poll p o directions : Step α ρ (State α n) _) 1 (2 * n) 1 := by
  refine .bind_free .getState fun before => .bind_free (.modifyState _) fun _ => ?_
  have hscan : Spends (scan p o before (headings n before.point) none :
      Step α ρ (State α n) _) 1 (2 * n) 0 := by
    refine (spends_scan before _ none).mono ?_ ?_ <;> rw [length_headings]
    omega
  refine hscan.bind 0 0 1 fun found => ?_
  cases found
  all_goals
    refine .bind_free ?_ fun _ => Spends.countIteration.then_free fun _ =>
      .bind_free (.modifyState _) fun _ => .bind_free (.draw _) fun _ =>
        .bind_free (.modifyState _) fun _ => .bind_free .getState fun _ => .pure _
  · exact spends_fail
  · exact spends_succeed _

/-- The mesh search starts with one evaluation. -/
theorem spending (m : MeshSearch α n) (hn : 0 < n) : m.method.Spending 1 (2 * n) where
  initial := (Spends.appraise _ _ _).then_free fun _ => .bind_free (.draw _) fun _ =>
    .bind_free (.demand _) fun _ => .pure _
  iterate := spends_poll hn

end MeshSearch

/-! ## Simplex search -/

namespace SimplexSearch

variable {P : Type} [Coordinates α P] {extra : Nat} {o : Options α}

omit [Scalar α] in
theorem spends_vertexAt {σ : Type} (x : P) :
    Spends (evaluate (vertexAt p x) : Step α ρ σ (Vertex α P)) 1 1 0 :=
  Spends.evaluate_bind ((Spends.objectiveAt p _).then_free fun _ => Spends.evaluate_pure _)

omit [Scalar α] in
theorem spends_evaluateAll {σ : Type} {k : Nat} (xs : Vector P k) :
    Spends (evaluate (evaluateAll p xs) : Step α ρ σ (Vector (Vertex α P) k)) k k 0 := by
  refine Spends.of_evaluate_map (g := Vector.toArray) (Spends.of_evaluate_map (g := Array.toList) ?_)
  rw [evaluateAll, Vector.toArray_mapM, Array.toList_mapM]
  have h (xs : List P) :
      Spends (evaluate (xs.mapM (vertexAt p)) : Step α ρ σ (List (Vertex α P)))
        xs.length xs.length 0 := by
    induction xs with
    | nil => exact Spends.evaluate_pure []
    | cons x xs ih =>
      rw [List.mapM_cons, List.length_cons, Nat.add_comm]
      exact Spends.evaluate_bind ((spends_vertexAt x).bind _ _ _ fun v =>
        Spends.evaluate_bind (ih.then_free fun vs => Spends.evaluate_pure _))
  simpa using h xs.toArray.toList

theorem spends_tryVertex {σ : Type} (vs : Vertices α n P extra) (weight : Stated α) :
    Spends (evaluate (tryVertex p vs weight) : Step α ρ σ (Vertex α P)) 1 1 0 :=
  Spends.evaluate_bind (.bind_free (Spends.evaluate_demand _) fun _ => spends_vertexAt _)

/-- A step takes a reflection and one more trial at most. -/
theorem spends_tryStep {σ : Type} (vs : Vertices α n P extra) :
    Spends (evaluate (tryStep p o vs) : Step α ρ σ (Move × Option (Vertex α P))) 1 2 0 := by
  refine Spends.evaluate_bind ((spends_tryVertex vs _).bind 0 1 0
    fun reflected => ?_)
  have hfree (r : Move × Option (Vertex α P)) :
      Spends (evaluate (pure r) : Step α ρ σ _) 0 1 0 :=
    (Spends.evaluate_pure r).mono (by omega) (by omega)
  have htried (weight : Stated α) (f : Vertex α P → Evaluating α (Move × Option (Vertex α P)))
      (hf : ∀ v, Spends (evaluate (f v) : Step α ρ σ _) 0 0 0) :
      Spends (evaluate (tryVertex p vs weight >>= f) : Step α ρ σ _) 0 1 0 :=
    (Spends.evaluate_bind ((spends_tryVertex vs weight).then_free hf)).mono (by omega) (by omega)
  split
  · exact hfree _
  · split
    · refine htried _ _ fun expanded => ?_
      split
      all_goals exact Spends.evaluate_pure _
    · split
      · split
        all_goals
          refine htried _ _ fun contracted => ?_
          split
          all_goals exact Spends.evaluate_pure _
      · exact hfree _

omit [Scalar α] in
/-- Every vertex replaced is evaluated. -/
theorem spends_replaceEach (place : Vertices α n P extra → Fin n → Except Fault P)
    (is : List (Fin n)) :
    Spends (replaceEach p place is : Step α ρ (StateOn α n P extra) Unit)
      is.length is.length 0 := by
  induction is with
  | nil => exact .pure ()
  | cons i is ih =>
    rw [List.length_cons, Nat.add_comm]
    exact .bind_free .getState fun st => .bind_free (.demand _) fun x =>
      (spends_vertexAt x).bind _ _ _ fun v => .bind_free (.modifyState _) fun _ => ih

theorem spends_shrink : Spends (shrink p : Step α ρ (StateOn α n P extra) Unit) n n 0 := by
  have h := spends_replaceEach (ρ := ρ) (p := p)
    (fun (vs : Vertices α n P extra) i => Coordinates.midpoint (vs.other i).point vs.best.point)
    (List.finRange n)
  rwa [List.length_finRange] at h

/-- The search for stagnation evaluates the vertices of a rebuilt simplex. -/
theorem spends_considerRestart :
    Spends (considerRestart p o : Step α ρ (StateOn α n P extra) Bool) 0 n 0 := by
  have hfree : Spends (pure false : Step α ρ (StateOn α n P extra) Bool) 0 n 0 :=
    (Spends.pure false).mono (by omega) (by omega)
  refine .bind_free .getState fun st => .bind_free (.demand _) fun may =>
    .ite (fun _ => ?_) fun _ => hfree
  refine .bind_free (.demand _) fun radius => .bind_free (.demand _) fun g =>
    .bind_free (.demand _) fun rebuild => ?_
  have hrebuild := spends_replaceEach (ρ := ρ) (p := p) (fun (_ : Vertices α n P extra) i =>
    rebuiltPoint st.vertices.best.point g.2.vector radius i.val) (List.finRange n)
  rw [List.length_finRange] at hrebuild
  refine .ite (fun _ => ?_) fun _ => ?_
  · refine (hrebuild.mono (by omega) (by omega)).then_free fun _ => .bind_free (.modifyState _)
      fun _ => .bind_free .getState fun _ => ?_
    exact .bind_free (.report _) fun _ => .bind_free (.modifyState _) fun _ => .pure _
  · exact ((Spends.modifyState _).then_free fun _ => .pure _).mono (by omega) (by omega)

/-- A search that has not rebuilt the simplex has evaluated nothing. -/
theorem considerRestart_false {s t : Session α ρ (StateOn α n P extra)}
    (h : considerRestart p o s = .ok false t) :
    t.asked = s.asked ∧ t.iterations = s.iterations := by
  rcases considerRestart_cases h with ⟨-, -, rfl⟩ | ⟨-, _, _, _, -, -, -, ⟨-, rfl⟩ | ⟨⟨⟩, -⟩⟩
  · exact ⟨rfl, rfl⟩
  · exact ⟨rfl, rfl⟩

/-- **Either the simplex is rebuilt or it may still shrink:** what follows
may spend up to `n` evaluations where nothing was rebuilt, none otherwise,
and the two together spend no more than that. -/
theorem considerRestart_bind {γ : Type} {f : Bool → Step α ρ (StateOn α n P extra) γ} {turns : Nat}
    (htrue : Spends (f true) 0 0 turns) (hfalse : Spends (f false) 0 n turns) :
    Spends (considerRestart p o >>= f) 0 n turns := by
  constructor
  · intro s t c h
    obtain ⟨restarted, u, hact, hf⟩ := bind_eq_ok.1 h
    have hrestart := spends_considerRestart.ok hact
    cases restarted with
    | true =>
      have := htrue.ok hf
      omega
    | false =>
      have := considerRestart_false hact
      have := hfalse.ok hf
      omega
  · intro s t fault h
    rcases bind_eq_error.1 h with hact | ⟨restarted, u, hact, hf⟩
    · have := spends_considerRestart.error hact
      omega
    · have hrestart := spends_considerRestart.ok hact
      cases restarted with
      | true =>
        have := htrue.error hf
        omega
      | false =>
        have := considerRestart_false hact
        have := hfalse.error hf
        omega

/-- **An iteration** tries one or two points and evaluates at most `n`
vertices, whichever way they are sorted. -/
theorem spends_iterate (sorter : Sorter (Vertex α P)) :
    Spends (iterateBy sorter p o : Step α ρ (StateOn α n P extra) MoveReport) 1 (n + 2) 1 := by
  rw [Nat.add_comm n]
  refine .bind_free .getState fun before => (spends_tryStep before.vertices).bind
    0 n 1 fun ⟨move, accepted⟩ => ?_
  have hsort {γ : Type} {r : γ} : Spends (do
      countIteration
      modifyState fun st => { st with vertices := sorter.onVector st.vertices }
      let st ← getState
      let diameter ← demand st.vertices.diameter
      modifyState fun st => { st with diameter }
      return r : Step α ρ (StateOn α n P extra) γ) 0 0 1 :=
    Spends.countIteration.then_free fun _ => .bind_free (.modifyState _) fun _ =>
      .bind_free .getState fun _ => .bind_free (.demand _) fun _ =>
        .bind_free (.modifyState _) fun _ => .pure _
  refine .bind_free (.modifyState _) fun _ => considerRestart_bind ?_ ?_
  · rw [Bool.not_true, Bool.and_false]
    exact hsort
  · refine .ite (fun _ => ?_) fun _ => hsort.mono (by omega) (by omega)
    simpa only [Nat.add_zero, Nat.zero_add] using
      (spends_shrink.mono (Nat.zero_le n) (Nat.le_refl n)).bind _ _ _ fun _ => hsort

/-- The simplex search starts with all its vertices. -/
theorem spending (m : SimplexSearch α n) : m.method.Spending (n + 1) (n + 2) where
  initial := (spends_evaluateAll _).then_free fun _ => .bind_free (.demand _) fun _ => .pure _
  iterate := spends_iterate _

end SimplexSearch

/-! ## Both searches -/

/-- **A run ends within its budgets,** of either search, from any desk and
with any clock, whatever the functions of the problem return and wherever
the directions come from. The mesh search may exceed its evaluations by
`2 n - 1`, the simplex search by `n + 1`. Where the functions and the
directions return and the settings are numbers, a run of the simplex search
ends with a report, and one of the mesh search does unless it has come to a
poll that overflows with the size of its mesh. -/
theorem searches_end_within_budgets (hn : 0 < n) (clock : Nat → α) :
    (∀ (m : MeshSearch α n) d, m.method.KeepsBudgets clock d 1 (2 * n) ∧
      (m.Reliable → ∀ fuel ended, m.method.run clock fuel d = some ended →
        (∃ report, ended.result = .ok report) ∨
          ended.result = .error .overflow ∧
            ∃ s, m.method.Reaches clock d s ∧ m.method.finished s = .ok false ∧
              MeshSearch.MeshFails m s)) ∧
      ∀ (m : SimplexSearch α n) d, m.method.KeepsBudgets clock d (n + 1) (n + 2) ∧
        (m.Reliable → ∀ fuel ended, m.method.run clock fuel d = some ended →
          ∃ report, ended.result = .ok report) := by
  constructor
  · intro m d
    exact ⟨(m.spending hn).keepsBudgets, fun h fuel ended hrun => h.ends hrun⟩
  · intro m d
    exact ⟨m.spending.keepsBudgets, fun h fuel ended hrun => h.exists_report hn hrun⟩

/-- A search for a function that falls, with a direction for every poll and one
iteration to spend. -/
def MeshSearch.fallingOn : MeshSearch Float 1 :=
  { barelyFalling with directions := fun _ _ => .ok (Point.toGrid (.replicate 1 one)) }

theorem MeshSearch.fallingOn_reliable : fallingOn.Reliable where
  objective _ _ := ⟨_, rfl⟩
  constraints _ _ := ⟨.replicate 0 zero, fun hcount => absurd hcount (by decide)⟩
  directions _ := ⟨_, rfl⟩
  absolute := ⟨_, rfl⟩
  relative := ⟨_, rfl⟩
  smallStep := nofun
  budgets := ⟨⟨_, rfl⟩, ⟨_, rfl⟩, ⟨_, rfl⟩⟩

/-- A simplex search with three evaluations to spend. -/
def SimplexSearch.thrice : SimplexSearch Float 1 :=
  { alternating with budgets.evaluations := .ok (some (.whole 3)) }

theorem SimplexSearch.thrice_reliable : thrice.Reliable := by
  have hwhole (k : Int) (h : isFinite (ofInt k : Float)) :
      ∃ c, (Number.whole k : Number Float).toScalar = .ok c := ⟨_, if_pos h⟩
  have hweight : ∀ w ∈ thrice.options.weights, IsWeight w.2 := by
    intro w hw
    simp only [Options.weights, List.mem_cons, List.not_mem_nil, or_false] at hw
    rcases hw with rfl | rfl | rfl | rfl
    · exact ⟨_, rfl, hwhole (-1) (by decide +kernel), hwhole 2 (by decide +kernel)⟩
    · exact ⟨_, rfl, hwhole (-2) (by decide +kernel), hwhole 3 (by decide +kernel)⟩
    · exact ⟨_, rfl, ⟨_, rfl⟩, _, rfl⟩
    · exact ⟨_, rfl, ⟨_, rfl⟩, _, rfl⟩
  exact
    { objective := fun _ _ => ⟨_, rfl⟩
      options := ⟨hweight, ⟨_, rfl⟩, _, rfl, hwhole _ (by decide +kernel)⟩
      tolerance := ⟨_, rfl⟩
      budgets := ⟨⟨_, rfl⟩, ⟨_, rfl⟩, ⟨_, rfl⟩⟩ }

/-- Both end, the first after one iteration, the second after five evaluations
at most and with a report. -/
theorem short_searches_end_within_budgets :
    (∃ ended, MeshSearch.fallingOn.method.run (fun _ => zero) 1 (fresh .empty) = some ended ∧
      ended.desk.iterations ≤ 1 ∧
      ((∃ report, ended.result = .ok report) ∨ ended.result = .error .overflow)) ∧
    ∃ ended, SimplexSearch.thrice.method.run (fun _ => zero) 1 (fresh .empty) = some ended ∧
      ended.desk.iterations ≤ 1 ∧ ended.desk.asked ≤ 5 ∧
      ∃ report, ended.result = .ok report := by
  obtain ⟨hmesh, hsimplex⟩ := searches_end_within_budgets (α := Float) (n := 1) (by decide)
    (fun _ => zero)
  constructor
  · obtain ⟨hkeeps, hends⟩ := hmesh MeshSearch.fallingOn (fresh .empty)
    obtain ⟨ended, hrun, hiterations⟩ := hkeeps.iterations (by decide) rfl 1 (by decide)
    refine ⟨ended, hrun, hiterations, ?_⟩
    exact (hends MeshSearch.fallingOn_reliable _ _ hrun).imp_right fun hfault => hfault.1
  · obtain ⟨hkeeps, hends⟩ := hsimplex SimplexSearch.thrice (fresh .empty)
    obtain ⟨ended, hrun, hiterations, hasked⟩ :=
      hkeeps.evaluations (by decide) rfl 1 (by decide)
    have hfresh : (fresh .empty : Desk Float (SimplexSearch.Row Float)).asked = 0 := rfl
    refine ⟨ended, hrun, ?_, ?_, hends SimplexSearch.thrice_reliable _ _ hrun⟩ <;> omega

end DirectSearch
