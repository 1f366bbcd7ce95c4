import DirectSearch.MeshSearch.Run
import DirectSearch.Proofs.Search.Beside
/-!
# Mesh search — two searches side by side

A poll looks at values in two ways only: it compares merits, and where slopes
are estimated it takes differences. Two searches whose merits compare alike
therefore take the same polls (`poll_beside`). An `Outlook` says how their
values, merits and tolerances are related; the rest of their states is the
same.
-/

namespace DirectSearch.MeshSearch

open Scalar Session

variable {α : Type} [Scalar α] {n : Nat} {ρ : Type}

/-- How the values, the merits and the tolerances of two searches are
related, and which weights and violations may come up. -/
structure Outlook (α : Type) extends Pairing α where
  merits : α → α → Prop
  tolerances : α → α → Prop
  weights : α → Prop
  violations : α → Prop

namespace Outlook

/-- **An outlook serves** two problems if their evaluations are so related,
their merits compare alike, and what the search makes of them is related
again. -/
structure Serves (A : Outlook α) (o : Options α) (p p' : Problem α n) (start : Point α n) :
    Prop where
  objectives : A.Objectives p p'
  points (x : Grid α) : A.points x x
  violation (x : Grid α) : Beside (fun c c' => c' = A.counters c) (p.violationOf x)
    (p'.violationOf x) (fun v v' => v' = v ∧ A.violations v) (fun c c' => c' = A.counters c)
    fun c c' => c' = A.counters c
  merit {x : Grid α} {w f f' v : α} : A.values x f f' → A.weights w → A.violations v →
    A.merits (merit w f v) (merit w f' v)
  lt {a a' b b' : α} : A.merits a a' → A.merits b b' → lt a' b' = lt a b
  one : A.weights one
  raise {w v : α} : A.weights w → A.violations v → Scalar.lt zero v → A.weights (raiseWeight w)
  tolerance {v v' : α} : A.values start.toGrid v v' →
    Agree A.tolerances (stallTolerance o v) (stallTolerance o v')
  flat {t t' : α} : A.tolerances t t' → isInfinity t' = isInfinity t
  /-- Differences are taken only of values that are the same. -/
  slope : o.estimateSlope →
    (∀ x v v', A.values x v v' → v' = v) ∧ ∀ t t', A.tolerances t t' → t' = t
  bounds : p'.lower = p.lower ∧ p'.upper = p.upper

variable (A : Outlook α)

/-- The states of the two searches. -/
structure States (st st' : State α n) : Prop where
  value : A.values st.point.toGrid st.value st'.value
  merit : A.merits st.merit st'.merit
  tolerance : A.tolerances st.tolerance st'.tolerance
  weight : A.weights st.weight
  violation : A.violations st.violation
  slope : st.slope = none ∨ ∀ t t', A.tolerances t t' → t' = t
  rest : st' = { st with value := st'.value, merit := st'.merit, tolerance := st'.tolerance }

/-- The appraisals of one point. -/
structure Appraisals (a a' : Appraisal α n) : Prop where
  point : a'.point = a.point
  value : A.values a.point.toGrid a.value a'.value
  merit : A.merits a.merit a'.merit
  violation : a'.violation = a.violation
  occurs : A.violations a.violation

/-- The rows of the two searches. -/
structure Rows (r r' : Row α n) : Prop where
  value : ∃ x, A.values x r.value r'.value
  rest : r' = { r with evaluations := A.objective + r.evaluations, value := r'.value }

variable {A} {o : Options α} {p p' : Problem α n} {start : Point α n}
variable {f f' : Session.Frame α ρ} {k : Int} {st st' : State α n}

namespace States

/-- The ground is as flat for one as for the other. -/
theorem isFlat (hA : A.Serves o p p' start) (h : A.States st st') : st'.isFlat = st.isFlat := by
  have hslope : st'.slope = st.slope := by rw [h.rest]
  unfold StateOn.isFlat
  rw [hslope]
  cases hs : st.slope with
  | none => exact hA.flat h.tolerance
  | some slope =>
    have hsame := h.slope.resolve_left (by simp [hs])
    rw [hsame _ _ h.tolerance]

theorem isSmall (h : A.States st st') : st'.isSmall o = st.isSmall o := by
  rw [h.rest]
  rfl

theorem isSettled (hA : A.Serves o p p' start) (h : A.States st st') :
    st'.isSettled o = st.isSettled o := by
  have himproved : st'.improved = st.improved := by rw [h.rest]
  rw [StateOn.isSettled, StateOn.isSettled, h.isSmall, h.isFlat hA, himproved]

omit [Scalar α] in
theorem noteDecrease (h : A.States st st') (d : Heading n) :
    A.States (noteDecrease d st) (noteDecrease d st') :=
  { h with rest := by rw [h.rest]; rfl }

theorem noteSlope (hA : A.Serves o p p' start) (h : A.States st st') (ho : o.estimateSlope)
    (slope : α) : A.States (noteSlope slope st) (noteSlope slope st') :=
  { h with
    slope := .inr (hA.slope ho).2
    rest := by rw [h.rest]; rfl }

theorem beginPoll (hA : A.Serves o p p' start) (h : A.States st st') :
    A.States (beginPoll o st) (beginPoll o st') :=
  { h with
    slope := by
      by_cases ho : o.estimateSlope
      · exact .inr (hA.slope ho).2
      · simpa [MeshSearch.beginPoll, ho] using h.slope
    rest := by rw [h.rest]; rfl }

omit [Scalar α] in
theorem moveTo (h : A.States st st') {a a' : Appraisal α n} (ha : A.Appraisals a a') :
    A.States (moveTo a st) (moveTo a' st') :=
  { h with
    value := ha.value
    violation := ha.occurs
    rest := by
      rw [h.rest]
      simp only [MeshSearch.moveTo, ha.point, ha.violation] }

omit [Scalar α] in
theorem withMesh (h : A.States st st') (mesh : α) :
    A.States { st with mesh } { st' with mesh } :=
  { h with rest := by rw [h.rest] }

end States

theorem appraise_beside (hA : A.Serves o p p' start) {w : α} (hw : A.weights w) (x : Point α n) :
    Beside A.Tallies (p.appraise w x) (p'.appraise w x)
      (fun a a' => A.Appraisals a a' ∧ a.point = x) A.Tallies A.Tallies := by
  refine .bind (hA.objectives.beside (hA.points x.toGrid)) fun v v' hv => ?_
  refine .bind (Pairing.beside_inSearch (hA.violation x.toGrid)) fun u u' hu => ?_
  obtain ⟨rfl, hoccurs⟩ := hu
  exact .pure ⟨⟨rfl, hv, hA.merit hv hw hoccurs, rfl, hoccurs⟩, rfl⟩

/-- **The scan** goes the same way. -/
theorem scan_beside (hA : A.Serves o p p' start) (hst : A.States st st')
    {ds : List (Heading n)} {best best' : Option (Appraisal α n)}
    (hbest : Option.Rel A.Appraisals best best') :
    Beside (A.Sessions (ρ := ρ) (A.States) f f' k) (scan p o st ds best) (scan p' o st' ds best')
      (Option.Rel A.Appraisals) (A.Sessions (A.States) f f' k) A.Stopped := by
  induction ds generalizing best best' with
  | nil => exact .pure hbest
  | cons d ds ih =>
    have htrial : trialPoint st' d = trialPoint st d := by
      rw [hst.rest]
      rfl
    have hweight : st'.weight = st.weight := by rw [hst.rest]
    have hmesh : st'.mesh = st.mesh := by rw [hst.rest]
    refine .bind (Pairing.beside_demand (.of_eq htrial)) fun x x' hx => ?_
    subst hx
    rw [hweight]
    refine .bind (Pairing.beside_evaluate (appraise_beside hA hst.weight x)) fun a a' h => ?_
    have ha := h.1
    have hbar : A.merits (bar st best) (bar st' best') := by
      cases hbest with
      | none => exact hst.merit
      | some hb => exact hb.merit
    have hlt := hA.lt ha.merit hbar
    -- what follows the slope, whether or not one has been noted
    have hrest : Beside (A.Sessions (ρ := ρ) (A.States) f f' k)
        (if lt a.merit (bar st best) then do
            modifyState (noteDecrease d)
            if o.greedy then scan p o st ds (some a) else pure (some a)
          else scan p o st ds best)
        (if lt a'.merit (bar st' best') then do
            modifyState (noteDecrease d)
            if o.greedy then scan p' o st' ds (some a') else pure (some a')
          else scan p' o st' ds best')
        (Option.Rel A.Appraisals) (A.Sessions (A.States) f f' k) A.Stopped := by
      refine .ite (by rw [hlt]) (fun _ => ?_) fun _ => ih hbest
      refine .bind (Pairing.beside_modifyState fun _ _ h => h.noteDecrease d) fun _ _ _ => ?_
      exact .ite Iff.rfl (fun _ => ih (.some ha)) fun _ => .pure (.some ha)
    refine .ite Iff.rfl (fun ho => ?_) fun _ => hrest
    refine .bind (Pairing.beside_modifyState fun _ _ h => ?_) fun _ _ _ => hrest
    have hvalue : a'.value = a.value := (hA.slope ho).1 _ _ _ ha.value
    have hincumbent : st'.value = st.value := (hA.slope ho).1 _ _ _ hst.value
    rw [slopeTo, slopeTo, hvalue, hincumbent, hmesh]
    exact h.noteSlope hA ho _

theorem succeed_beside {a a' : Appraisal α n} (ha : A.Appraisals a a') :
    Beside (A.Sessions (ρ := ρ) (A.States) f f' k) (succeed a) (succeed a') (fun _ _ => True)
      (A.Sessions (A.States) f f' k) A.Stopped := by
  refine .bind (Pairing.beside_modifyState fun st st' h => h.moveTo ha) fun _ _ _ => ?_
  refine .bind Pairing.beside_getState fun st st' h => ?_
  have hmesh : widened st'.mesh st'.streak.toNat = widened st.mesh st.streak.toNat := by
    rw [h.rest]
  refine .bind (Pairing.beside_demand (.of_eq hmesh)) fun mesh mesh' he => ?_
  subst he
  exact Pairing.beside_modifyState fun _ _ h => h.withMesh mesh

theorem fail_beside (hA : A.Serves o p p' start) :
    Beside (A.Sessions (ρ := ρ) (A.States (n := n)) f f' k) fail fail (fun _ _ => True)
      (A.Sessions (A.States) f f' k) A.Stopped := by
  refine .bind (Pairing.beside_modifyState (T := A.States) fun st st' h => ?_) fun _ _ _ => ?_
  · exact { h with rest := by rw [h.rest] }
  refine .bind Pairing.beside_getState fun st st' h => ?_
  have hmesh : narrowed st'.mesh st'.streak.natAbs = narrowed st.mesh st.streak.natAbs := by
    rw [h.rest]
  refine .bind (Pairing.beside_demand (.of_eq hmesh)) fun mesh mesh' he => ?_
  subst he
  refine .bind (Pairing.beside_modifyState fun _ _ h => h.withMesh mesh) fun _ _ _ => ?_
  have hviolation : st'.violation = st.violation := by rw [h.rest]
  have hweight : st'.weight = st.weight := by rw [h.rest]
  rw [hviolation, hweight]
  refine .ite Iff.rfl (fun hoccurs => ?_) fun _ => .pure trivial
  have hraise : Beside (A.Sessions (ρ := ρ) (A.States (n := n)) f f' k)
      (modifyState fun u => { u with weight := raiseWeight st.weight })
      (modifyState fun u => { u with weight := raiseWeight st.weight }) (fun _ _ => True)
      (A.Sessions (A.States) f f' k) A.Stopped :=
    Pairing.beside_modifyState fun _ _ hu =>
      { hu with
        weight := hA.raise h.weight h.violation hoccurs
        rest := by rw [hu.rest] }
  refine .ite Iff.rfl (fun _ => ?_) fun _ => hraise
  exact .bind (Pairing.beside_report _ _) fun _ _ _ => hraise

/-- What follows the move: the mesh is kept from vanishing, and the next
direction and the merit under the new weight are put down. -/
theorem settle_beside (hA : A.Serves o p p' start)
    {directions directions' : Nat → Except Fault (Grid α)}
    (hdirections : ∀ j, directions' (A.drawn + j) = directions j) (meshBefore : α) :
    let settle (directions : Nat → Except Fault (Grid α)) :
        Step α ρ (State α n) (PollReport α n) := do
      countIteration
      modifyState fun st => { st with mesh := clamped o st.mesh }
      let q ← draw directions
      modifyState fun st =>
        { st with direction := q, merit := merit st.weight st.value st.violation }
      let st ← getState
      return {
        accepted := st.improved, meshBefore, mesh := st.mesh, streak := st.streak
        weight := st.weight, outcome := st.outcome }
    Beside (A.Sessions (A.States) f f' k) (settle directions) (settle directions') Eq
      (A.Sessions (A.States) f f' (k + 1)) A.Stopped := by
  refine .bind Pairing.beside_countIteration fun _ _ _ => ?_
  refine .bind (Pairing.beside_modifyState (T := A.States) fun st st' h => ?_) fun _ _ _ => ?_
  · exact { h with rest := by rw [h.rest] }
  refine .bind (Pairing.beside_draw hdirections) fun q q' hq => ?_
  subst hq
  refine .bind (Pairing.beside_modifyState (T := A.States) fun st st' h => ?_) fun _ _ _ => ?_
  · have hmerit : merit st'.weight st'.value st'.violation
        = merit st.weight st'.value st.violation := by rw [h.rest]
    exact
      { h with
        merit := hmerit ▸ hA.merit h.value h.weight h.violation
        rest := by rw [h.rest] }
  refine .bind Pairing.beside_getState fun st st' h => .pure ?_
  rw [h.rest]

/-- **The polls of the two searches** take the same course. -/
theorem poll_beside (hA : A.Serves o p p' start) {directions directions' : Directions α}
    (hdirections : ∀ size j, directions' size (A.drawn + j) = directions size j) :
    Beside (A.Sessions (ρ := ρ) (A.States) f f' k) (poll p o directions)
      (poll p' o directions') Eq (A.Sessions (A.States) f f' (k + 1)) A.Stopped := by
  refine .bind Pairing.beside_getState fun st st' hst => ?_
  -- the incumbents are one point, so the next directions are drawn in one size
  have hpoint : st'.point = st.point := by rw [hst.rest]
  have hmesh : st'.mesh = st.mesh := by rw [hst.rest]
  rw [hpoint, hmesh]
  refine .bind (Pairing.beside_modifyState fun _ _ h => h.beginPoll hA) fun _ _ _ => ?_
  refine .bind (scan_beside hA hst .none) fun found found' hfound => ?_
  cases hfound with
  | none =>
    exact .bind (fail_beside hA) fun _ _ _ => settle_beside hA (hdirections _) _
  | some ha =>
    exact .bind (succeed_beside ha) fun _ _ _ => settle_beside hA (hdirections _) _

/-- **The first states** of the two searches. -/
theorem initial_beside (hA : A.Serves o p p' start) {directions directions' : Directions α}
    (hdirections : ∀ size j, directions' size (A.drawn + j) = directions size j) :
    Beside (A.Sessions (ρ := ρ) (fun _ _ => True) f f' k) (initial p o directions start)
      (initial p' o directions' start) (A.States) (A.Sessions (fun _ _ => True) f f' k)
      A.Stopped := by
  refine .bind (Pairing.beside_evaluate (appraise_beside hA hA.one start)) fun a a' ha => ?_
  obtain ⟨ha, hpoint⟩ := ha
  refine .bind (Pairing.beside_draw (hdirections n)) fun q q' hq => ?_
  subst hq
  refine .bind (Pairing.beside_demand (hA.tolerance (hpoint ▸ ha.value))) fun t t' ht => ?_
  exact .pure
    { value := ha.value, merit := ha.merit, tolerance := ht, weight := hA.one
      violation := ha.occurs
      slope := .inl rfl
      rest := by rw [ha.point, ha.violation, hA.bounds.1, hA.bounds.2] }

/-! ## Whole searches -/

/-- The coupling of two searches. -/
def coupling (n : Nat) (A : Outlook α) (timed : Prop) :
    Coupling α (Row α n) (State α n) (PollReport α n) :=
  { A with states := A.States, rows := A.Rows, reports := Eq, timed }

/-- **A search on another problem, with other directions and budgets,** is a
twin of the first as far as an outlook serves. -/
theorem twins {m : MeshSearch α n} {directions : Directions α} {budgets : Budgets α} {timed : Prop}
    (hA : A.Serves m.options m.problem p' m.start)
    (hdirections : ∀ size j, directions size (A.drawn + j) = m.directions size j)
    (hlimits : A.Limits timed m.budgets budgets) :
    (A.coupling n timed).Twins m.method
      { m with problem := p', directions, budgets : MeshSearch α n }.method where
  initial _ _ _ := initial_beside hA hdirections
  iterate _ _ _ := poll_beside hA hdirections
  entry := by
    intro f f' k s s' i i' hs hi
    obtain ⟨htally, hst, -, -, -, hk, hk'⟩ := hs
    have hcount : s'.tally.counters.objective = A.objective + s.tally.counters.objective :=
      congrArg Counters.objective htally.counters
    have houtcome : i'.map (·.outcome) = i.map (·.outcome) := by
      cases hi with
      | none => rfl
      | some h => rw [h]
    have hrest := hst.rest
    refine ⟨⟨_, hst.value⟩, ?_⟩
    simp only [method, rowOf, hcount, houtcome, hk, hk']
    rw [hrest]
  finished := by
    intro s s' hs
    obtain ⟨hspent, -⟩ := hs.limits (show _ from hlimits)
    have hsettled : s'.state.isSettled m.options = s.state.isSettled m.options :=
      States.isSettled hA hs.sessions.state
    simp only [Method.finished, Method.exhausted, method, hsettled, hspent]
  closing := by
    intro s s' hs
    obtain ⟨hspent, hstatus⟩ := hs.limits (show _ from hlimits)
    have hsmall : s'.state.isSmall m.options = s.state.isSmall m.options :=
      States.isSmall hs.sessions.state
    have hflat : s'.state.isFlat = s.state.isFlat := States.isFlat hA hs.sessions.state
    have hverdict : verdict m.options budgets s' = verdict m.options m.budgets s := by
      funext exhausted
      simp only [verdict, hsmall, hflat, hstatus]
    simp only [Method.exhausted, method, hspent, hverdict]

end Outlook

end DirectSearch.MeshSearch
