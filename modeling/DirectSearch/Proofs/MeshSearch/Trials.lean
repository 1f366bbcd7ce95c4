import DirectSearch.Proofs.MeshSearch.Poll
import DirectSearch.Proofs.Problem.Violation
import DirectSearch.Proofs.Scalar.Binary64
import DirectSearch.Proofs.Sorting.FirstLeast
/-!
# Mesh search — greedy polls and others

Where the functions of a problem always return, and return the same values
however often they are asked, the trials of a poll are known before it
begins: one for each heading, with the merits under the weight in force
(`trials`). A greedy poll makes all of them, and any other ends at the first
that beats the incumbent. Both succeed if there is one, and a greedy poll then
moves to the first of the least; if there is none, it makes no difference
whether a poll is greedy (`polls_of_trials`).

A success can end with a fault, if the mesh grows out of range or no direction
comes, and then the search has moved all the same. So what is said here is
said of the session that a poll leaves behind, by whichever way.
-/

namespace DirectSearch

open Scalar OrderedScalar Session Sorting

variable {α : Type} {n : Nat} {ρ σ β γ : Type}

/-! ## What a step leaves behind -/

namespace Session

/-- The session that a step leaves behind, also where a fault ends it. -/
def left (act : Step α ρ σ β) (s : Session α ρ σ) : Session α ρ σ :=
  match act s with
  | .ok _ t => t
  | .error _ t => t

theorem left_of_ok {act : Step α ρ σ β} {s t : Session α ρ σ} {b : β} (h : act s = .ok b t) :
    left act s = t := by
  rw [left, h]

/-- A step that returns does so at the session that it leaves. -/
theorem eq_ok_left {act : Step α ρ σ β} {s : Session α ρ σ} {b : β}
    (h : EStateM.run' act s = some b) : act s = .ok b (left act s) := by
  unfold EStateM.run' EStateM.run at h
  unfold left
  split at h
  · rename_i hact
    rw [hact, Option.some.inj h]
  · cases h

/-- A step that leaves alone what one sees of the session. -/
def LeavesAlone (view : Session α ρ σ → γ) (act : Step α ρ σ β) : Prop :=
  ∀ s, view (left act s) = view s

variable {view : Session α ρ σ → γ} {act : Step α ρ σ β} {β' : Type} {f : β → Step α ρ σ β'}

/-- Steps that follow and leave it alone do not show. -/
theorem left_bind (hf : ∀ b, LeavesAlone view (f b)) (s : Session α ρ σ) :
    view (left (act >>= f) s) = view (left act s) := by
  simp only [left, bind, EStateM.bind]
  cases act s with
  | ok b t => exact hf b t
  | error fault t => rfl

namespace LeavesAlone

theorem bind (h : LeavesAlone view act) (hf : ∀ b, LeavesAlone view (f b)) :
    LeavesAlone view (act >>= f) := fun s => (left_bind hf s).trans (h s)

theorem ite {c : Prop} [Decidable c] {act' : Step α ρ σ β} (h : LeavesAlone view act)
    (h' : LeavesAlone view act') : LeavesAlone view (if c then act else act') := by
  split
  · exact h
  · exact h'

protected theorem pure (b : β) : LeavesAlone view (pure b : Step α ρ σ β) := fun _ => rfl

protected theorem demand (e : Except Fault β) : LeavesAlone view (demand e : Step α ρ σ β) := by
  cases e <;> exact fun _ => rfl

end LeavesAlone

end Session

variable [Scalar α]

/-! ## The trials of a poll -/

namespace Problem

/-- **The values of a problem:** its functions return them at every point,
however often they have been asked. -/
structure Evaluates (p : Problem α n) (f : Point α n → α)
    (g : Point α n → Point α p.constraintCount) : Prop where
  objective (c : Counters) (x : Point α n) : p.objective c x.toGrid = .ok (f x)
  constraints (c : Counters) (x : Point α n) : p.ReturnsAt c x (g x)

/-- A point with the score that its values make up. -/
def appraisalOf (p : Problem α n) (w : α) (x : Point α n) (value : α)
    (y : Point α p.constraintCount) : Appraisal α n :=
  let violation := if p.isUnconstrained then zero else p.totalViolation x y
  ⟨⟨value, violation, merit w value violation⟩, x⟩

variable {p : Problem α n} {f : Point α n → α} {g : Point α n → Point α p.constraintCount}

/-- Where the functions return, a point is appraised by what they return. -/
theorem appraise_of_returns {x : Point α n} {t : Tally α} {v : α} {y : Point α p.constraintCount}
    (hv : p.objective t.counters.askObjective x.toGrid = .ok v)
    (hy : p.ReturnsAt t.counters.askObjective x y) (w : α) :
    ∃ u, p.appraise w x t = .ok (p.appraisalOf w x v y) u := by
  have hvalue := objectiveAt_eq_ok.2 ⟨hv, rfl⟩
  have hviolation := violationOf_eq hy
  simp only [Problem.appraise, violationAt, bind_eq_ok, pure_eq_ok]
  exact ⟨_, _, _, hvalue, _, _, Counting.inSearch_eq_ok.2 ⟨_, hviolation, rfl⟩, rfl, rfl⟩

theorem Evaluates.appraise (h : p.Evaluates f g) (w : α) (x : Point α n) (t : Tally α) :
    ∃ u, p.appraise w x t = .ok (p.appraisalOf w x (f x) (g x)) u :=
  appraise_of_returns (h.objective _ x) (h.constraints _ x) w

end Problem

namespace MeshSearch

section

variable (p : Problem α n) (f : Point α n → α) (g : Point α n → Point α p.constraintCount)
variable (st : State α n) (q : Point α n)

/-- The trial along a heading, if the direction is `q`. -/
def trial (d : Heading n) : Appraisal α n :=
  let x := pointAlong st.point q d.axis d.sign st.mesh
  p.appraisalOf st.weight x (f x) (g x)

/-- **The trials of a poll,** in its order. -/
def trials : List (Appraisal α n) := (Heading.all n).map (trial p f g st q)

end

/-- A trial that beats the incumbent. -/
def Beats (a : Appraisal α n) (st : State α n) : Prop := lt a.merit st.merit

instance (a : Appraisal α n) (st : State α n) : Decidable (Beats a st) :=
  inferInstanceAs (Decidable (lt a.merit st.merit = true))

theorem bestTrial_cons (st : State α n) (best : Option (Appraisal α n)) (a : Appraisal α n)
    (as : List (Appraisal α n)) :
    bestTrial st best (a :: as) =
      bestTrial st (if lt a.merit (bar st best) then some a else best) as := rfl

theorem bestTrial_append (st : State α n) (best : Option (Appraisal α n))
    (as bs : List (Appraisal α n)) :
    bestTrial st best (as ++ bs) = bestTrial st (bestTrial st best as) bs := List.foldl_append

/-! ## The scan -/

section

variable {p : Problem α n} {f : Point α n → α} {g : Point α n → Point α p.constraintCount}
variable {st : State α n} {q : Point α n}

/-- **One more trial** is made in the same way whether the scan is greedy or
not, and looked at against the bar. -/
theorem scan_cons (h : p.Evaluates f g) (hq : st.direction = q.toGrid) (o : Options α)
    (d : Heading n) (ds : List (Heading n)) (best : Option (Appraisal α n))
    (s : Session α ρ (State α n)) :
    ∃ u : Session α ρ (State α n), p.Appraises s.tally [trial p f g st q d] u.tally ∧
      u.drawn = s.drawn ∧ ∀ greedy,
        scan p { o with greedy } st (d :: ds) best s =
          if lt (trial p f g st q d).merit (bar st best) then
            if greedy then
              scan p { o with greedy } st ds (some (trial p f g st q d))
                (u.withState (noteDecrease d u.state))
            else .ok (some (trial p f g st q d)) (u.withState (noteDecrease d u.state))
          else scan p { o with greedy } st ds best u := by
  obtain ⟨tally, ha⟩ : ∃ tally, p.appraise st.weight
      (pointAlong st.point q d.axis d.sign st.mesh) s.tally = .ok (trial p f g st q d) tally :=
    h.appraise _ _ _
  have hx := trialPoint_point st hq d
  refine ⟨if o.estimateSlope then (s.withTally tally).withState
      (noteSlope (slopeTo st (trial p f g st q d).value) s.state) else s.withTally tally,
    ?_, ?_, fun greedy => ?_⟩
  · split <;> exact .single ha
  · split <;> rfl
  · rw [scan, hx]
    simp only [bind, EStateM.bind, demand, evaluate, ha]
    by_cases ho : o.estimateSlope <;>
      by_cases hlt : lt (trial p f g st q d).merit (bar st best) <;>
        cases greedy <;> simp only [ho, hlt, if_true, if_false, Bool.false_eq_true] <;> rfl

/-- **A greedy scan** makes all trials, and finds the best. -/
theorem scan_greedy (h : p.Evaluates f g) (hq : st.direction = q.toGrid) (o : Options α)
    (ds : List (Heading n)) (best : Option (Appraisal α n)) (s : Session α ρ (State α n)) :
    ∃ u : Session α ρ (State α n), p.Appraises s.tally (ds.map (trial p f g st q)) u.tally ∧
      u.drawn = s.drawn ∧
      scan p { o with greedy := true } st ds best s =
        .ok (bestTrial st best (ds.map (trial p f g st q))) u := by
  induction ds generalizing best s with
  | nil => exact ⟨s, .nil _, rfl, rfl⟩
  | cons d ds ih =>
    obtain ⟨u, hu, hdrawn, hscan⟩ := scan_cons h hq o d ds best s
    rw [List.map_cons, bestTrial_cons, hscan true]
    split
    · obtain ⟨v, hv, hdrawn', hrest⟩ := ih (some (trial p f g st q d))
        (u.withState (noteDecrease d u.state))
      exact ⟨v, hu.trans hv, hdrawn'.trans hdrawn, hrest⟩
    · obtain ⟨v, hv, hdrawn', hrest⟩ := ih best u
      exact ⟨v, hu.trans hv, hdrawn'.trans hdrawn, hrest⟩

/-- **Any other scan** ends at the first trial that beats the incumbent. -/
theorem scan_opportunistic (h : p.Evaluates f g) (hq : st.direction = q.toGrid) (o : Options α)
    {ds : List (Heading n)} {before after : List (Appraisal α n)} {a : Appraisal α n}
    (hsplit : ds.map (trial p f g st q) = before ++ a :: after)
    (hbefore : ∀ b ∈ before, ¬Beats b st) (ha : Beats a st) (s : Session α ρ (State α n)) :
    ∃ u : Session α ρ (State α n), p.Appraises s.tally (before ++ [a]) u.tally ∧
      u.drawn = s.drawn ∧ scan p { o with greedy := false } st ds none s = .ok (some a) u := by
  induction before generalizing ds s with
  | nil =>
    obtain ⟨d, ds, rfl, rfl, -⟩ := List.map_eq_cons_iff.1 hsplit
    obtain ⟨u, hu, hdrawn, hscan⟩ := scan_cons h hq o d ds none s
    have hlt : lt (trial p f g st q d).merit (bar st none) := ha
    exact ⟨u.withState (noteDecrease d u.state), hu, hdrawn, (hscan false).trans (if_pos hlt)⟩
  | cons b before ih =>
    obtain ⟨d, ds, rfl, rfl, hrest⟩ := List.map_eq_cons_iff.1 hsplit
    obtain ⟨hb, hbefore⟩ := List.forall_mem_cons.1 hbefore
    obtain ⟨u, hu, hdrawn, hscan⟩ := scan_cons h hq o d ds none s
    obtain ⟨v, hv, hdrawn', hfound⟩ := ih hrest hbefore u
    exact ⟨v, hu.trans hv, hdrawn'.trans hdrawn, ((hscan false).trans (if_neg hb)).trans hfound⟩

/-- **A scan that finds nothing** is the same whether it is greedy or not. -/
theorem scan_fails (h : p.Evaluates f g) (hq : st.direction = q.toGrid) (o : Options α)
    {ds : List (Heading n)} (hds : ∀ a ∈ ds.map (trial p f g st q), ¬Beats a st)
    (s : Session α ρ (State α n)) :
    ∃ u : Session α ρ (State α n), p.Appraises s.tally (ds.map (trial p f g st q)) u.tally ∧
      u.drawn = s.drawn ∧ ∀ greedy, scan p { o with greedy } st ds none s = .ok none u := by
  induction ds generalizing s with
  | nil => exact ⟨s, .nil _, rfl, fun _ => rfl⟩
  | cons d ds ih =>
    obtain ⟨hd, hds⟩ := List.forall_mem_cons.1 hds
    obtain ⟨u, hu, hdrawn, hscan⟩ := scan_cons h hq o d ds none s
    obtain ⟨v, hv, hdrawn', hrest⟩ := ih hds u
    exact ⟨v, hu.trans hv, hdrawn'.trans hdrawn, fun greedy =>
      ((hscan greedy).trans (if_neg hd)).trans (hrest greedy)⟩

end

/-! ## The best of the trials -/

section

variable {st : State α n} {a : Appraisal α n}

/-- Where no trial beats the incumbent, there is no best one. -/
theorem bestTrial_eq_none {as : List (Appraisal α n)} (h : ∀ a ∈ as, ¬Beats a st) :
    bestTrial st none as = none := by
  induction as with
  | nil => rfl
  | cons a as ih =>
    obtain ⟨ha, has⟩ := List.forall_mem_cons.1 h
    have hlt : ¬lt a.merit (bar st none) := ha
    rw [bestTrial_cons, if_neg hlt]
    exact ih has

variable [OrderedScalar α]

/-- Once a trial leads, the best of all is the first least of those with a
defined merit. -/
theorem exists_bestTrial_of_leading (st : State α n) {es : List (Appraisal α n)}
    (as : List (Appraisal α n))
    (h : FirstLeast (fun e => e.merit) a (es.filter fun e => le e.merit e.merit)) :
    ∃ b, bestTrial st (some a) as = some b ∧
      FirstLeast (fun e => e.merit) b ((es ++ as).filter fun e => le e.merit e.merit) := by
  induction as generalizing a es with
  | nil => exact ⟨a, rfl, by simpa using h⟩
  | cons x as ih =>
    obtain ⟨b, hb, hleast⟩ := ih (h.next x)
    refine ⟨b, ?_, List.append_cons es x as ▸ hleast⟩
    rw [bestTrial_cons, ← hb, apply_ite some]
    rfl

/-- **What a greedy scan finds** behind trials that do not beat the incumbent
and one that does. -/
theorem exists_bestTrial {before : List (Appraisal α n)} (after : List (Appraisal α n))
    (hbefore : ∀ b ∈ before, ¬Beats b st) (ha : Beats a st) :
    ∃ b, bestTrial st none (before ++ a :: after) = some b ∧
      FirstLeast (fun e => e.merit) b
        ((before ++ a :: after).filter fun e => le e.merit e.merit) := by
  have hself : le a.merit a.merit := (defined_of_le (le_of_lt ha)).1
  have hbar : le st.merit st.merit := (defined_of_le (le_of_lt ha)).2
  -- the trial is the first that leads, and below all before it that have a merit
  have hleads : FirstLeast (fun e => e.merit) a
      ((before ++ [a]).filter fun e => le e.merit e.merit) := by
    rw [List.filter_append, List.filter_cons, if_pos hself, List.filter_nil]
    refine FirstLeast.append_left (firstLeast_cons (by simp)) fun b hb => ?_
    obtain ⟨hmem, hb⟩ := List.mem_filter.1 hb
    exact lt_of_lt_of_le ha (le_of_not_lt hb hbar (hbefore b hmem))
  obtain ⟨b, hb, hleast⟩ := exists_bestTrial_of_leading st after hleads
  refine ⟨b, ?_, by simpa using hleast⟩
  have hlt : lt a.merit (bar st none) := ha
  rw [bestTrial_append, bestTrial_eq_none hbefore, bestTrial_cons, if_pos hlt, hb]

end

/-! ## What follows the scan -/

section

variable {o : Options α} {directions : Directions α} {before : State α n}
variable {found : Option (Appraisal α n)} {s u : Session α ρ (State α n)}

/-- The end of a poll, when it has moved or failed. -/
def conclude (o : Options α) (directions : Directions α) (before : State α n) :
    Step α ρ (State α n) (PollReport α n) := do
  countIteration
  modifyState fun st => { st with mesh := clamped o st.mesh }
  let q ← draw (directions (Coordinates.toGrid before.point).size)
  modifyState fun st =>
    { st with direction := q, merit := merit st.weight st.value st.violation }
  let st ← getState
  return {
    accepted := st.improved
    meshBefore := before.mesh
    mesh := st.mesh
    streak := st.streak
    weight := st.weight
    outcome := st.outcome }

/-- What follows the scan. -/
def settle (o : Options α) (directions : Directions α) (before : State α n)
    (found : Option (Appraisal α n)) : Step α ρ (State α n) (PollReport α n) := do
  match found with
  | some a => succeed a
  | none => fail
  conclude o directions before

/-- A poll is its scan and what follows. -/
theorem poll_eq (p : Problem α n) (s : Session α ρ (State α n)) :
    poll p o directions s =
      (scan p o s.state (headings n s.state.point) none >>= settle o directions s.state)
        (s.withState (beginPoll o s.state)) := rfl

/-- A failure shows only in the streak, the mesh and the weight. -/
theorem leavesAlone_fail (view : Session α ρ (State α n) → γ)
    (hstreak : ∀ s streak, view (s.withState { s.state with streak }) = view s)
    (hmesh : ∀ s mesh, view (s.withState { s.state with mesh }) = view s)
    (hweight : ∀ s weight, view (s.withState { s.state with weight }) = view s)
    (hevent : ∀ s e, view (s.happened e) = view s) : LeavesAlone view fail := by
  unfold fail
  refine .bind (fun s => hstreak s _) fun _ => .bind (fun _ => rfl) fun st => ?_
  refine .bind (.demand _) fun mesh => .bind (fun s => hmesh s _) fun _ => ?_
  refine .ite ?_ (.pure _)
  refine .ite (.bind (fun s => hevent s _) fun _ => ?_) ?_
  · exact fun s => hweight s _
  · exact fun s => hweight s _

/-- The end of a poll shows only in the count of iterations, the mesh, the next
direction and the merit. -/
theorem leavesAlone_conclude (view : Session α ρ (State α n) → γ)
    (hcount : ∀ s iterations, view { s with iterations } = view s)
    (hmesh : ∀ s mesh, view (s.withState { s.state with mesh }) = view s)
    (hdraw : ∀ s drawn, view { s with drawn } = view s)
    (hnext : ∀ s direction merit, view (s.withState { s.state with direction, merit }) = view s) :
    LeavesAlone view (conclude o directions before) := by
  refine .bind (fun s => hcount s _) fun _ => .bind (fun s => hmesh s _) fun _ =>
    .bind (fun s => ?_) fun q => .bind (fun s => hnext s _ _) fun _ =>
    .bind (fun _ => rfl) fun st => .pure _
  unfold left draw
  cases directions (Coordinates.toGrid before.point).size s.drawn with
  | ok q => exact hdraw s _
  | error fault => rfl

/-- A success shows in the move, and else only in the mesh. -/
theorem left_succeed (view : Session α ρ (State α n) → γ) {a : Appraisal α n}
    (hmesh : ∀ s mesh, view (s.withState { s.state with mesh }) = view s)
    (s : Session α ρ (State α n)) :
    view (left (succeed a) s) = view (s.withState (moveTo a s.state)) :=
  left_bind (fun _ => .bind (fun _ => rfl) fun _ => .bind (.demand _) fun _ s => hmesh s _) s

/-- Where a session stands: what has been evaluated, whether the last poll has
improved, and the incumbent with its values. -/
structure Standing (α : Type) (n : Nat) where
  tally : Tally α
  improved : Bool
  point : Point α n
  value : α
  violation : α

omit [Scalar α] in
/-- Where the search stands after a scan that has found something or
nothing. -/
def Standing.after (st : Standing α n) (found : Option (Appraisal α n)) : Standing α n :=
  match found with
  | some a => { st with point := a.point, value := a.value, violation := a.violation }
  | none => st

def standing (s : Session α ρ (State α n)) : Standing α n :=
  ⟨s.tally, s.state.improved, s.state.point, s.state.value, s.state.violation⟩

/-- **Where the search stands** is settled by the scan, whatever else may go
wrong. -/
theorem standing_settle (o : Options α) (directions : Directions α) (before : State α n) :
    standing (left (settle o directions before found) u) = (standing u).after found := by
  have hend (_ : Unit) : LeavesAlone standing (conclude (ρ := ρ) o directions before) :=
    leavesAlone_conclude standing (fun _ _ => rfl) (fun _ _ => rfl) (fun _ _ => rfl)
      (fun _ _ _ => rfl)
  cases found with
  | some a =>
    rw [settle, left_bind hend]
    exact left_succeed standing (fun _ _ => rfl) u
  | none =>
    rw [settle, left_bind hend]
    exact leavesAlone_fail standing (fun _ _ => rfl) (fun _ _ => rfl) (fun _ _ => rfl)
      (fun _ _ => rfl) u

/-- The mesh that a success or a failure leads to. -/
def meshAfter (st : State α n) (success : Bool) : Except Fault α :=
  if success then widened st.mesh (streakUp st.streak).toNat
  else narrowed st.mesh (streakDown st.streak).natAbs

theorem succeed_ends {a : Appraisal α n} :
    (∃ v t, succeed a s = .ok v t) ↔ ∃ mesh, meshAfter s.state true = .ok mesh := by
  constructor
  · rintro ⟨v, t, h⟩
    obtain ⟨-, mesh, hmesh, -⟩ := succeed_eq_ok h
    exact ⟨mesh, hmesh⟩
  · rintro ⟨mesh, hmesh⟩
    have hwidened : widened (moveTo a s.state).mesh (moveTo a s.state).streak.toNat = .ok mesh :=
      hmesh
    simp only [succeed, bind_eq_ok, modifyState_eq_ok, getState_eq_ok, demand_eq_ok]
    exact ⟨(), _, (), _, rfl, _, _, ⟨rfl, rfl⟩, mesh, _, ⟨hwidened, rfl⟩, rfl⟩

theorem fail_ends :
    (∃ v t, fail s = .ok v t) ↔ ∃ mesh, meshAfter s.state false = .ok mesh := by
  constructor
  · rintro ⟨v, t, h⟩
    obtain ⟨-, mesh, hmesh, -⟩ := fail_eq_ok h
    exact ⟨mesh, hmesh⟩
  · rintro ⟨mesh, hmesh⟩
    -- behind the mesh there is nothing that could go wrong
    have hrest (st : State α n) : Returns (ς := Session α ρ (State α n)) (do
        modifyState fun st => { st with mesh }
        if lt zero st.violation then
          let weight := raiseWeight st.weight
          if !same weight st.weight then report (.weightRaised st.weight weight)
          modifyState fun st => { st with weight }) := by
      refine .bind (.modifyState _) fun _ => .ite (.ite (.bind (.report fun _ => _) fun _ => ?_) ?_)
        (.pure _)
      · exact .modifyState _
      · exact .modifyState _
    obtain ⟨v, t, h⟩ := hrest { s.state with streak := streakDown s.state.streak }
      (s.withState { s.state with streak := streakDown s.state.streak })
    exact ⟨v, t, bind_eq_ok.2 ⟨(), _, rfl, bind_eq_ok.2 ⟨_, _, rfl, bind_eq_ok.2
      ⟨mesh, _, demand_eq_ok.2 ⟨hmesh, rfl⟩, h⟩⟩⟩⟩

theorem conclude_ends :
    (∃ r t, conclude o directions before u = .ok r t) ↔
      ∃ q, directions (Coordinates.toGrid before.point).size u.drawn = .ok q := by
  simp only [conclude, bind_eq_ok, countIteration_eq_ok, modifyState_eq_ok, draw_eq_ok,
    getState_eq_ok, pure_eq_ok]
  constructor
  · rintro ⟨r, t, _, _, rfl, _, _, rfl, q, _, ⟨hq, -⟩, -⟩
    exact ⟨q, hq⟩
  · rintro ⟨q, hq⟩
    exact ⟨_, _, (), _, rfl, (), _, rfl, q, _, ⟨hq, rfl⟩, (), _, rfl, _, _, ⟨rfl, rfl⟩, rfl, rfl⟩

/-- **What follows the scan ends** unless the mesh grows out of range or no
direction comes. -/
theorem settle_ends :
    (∃ r t, settle o directions before found u = .ok r t) ↔
      (∃ mesh, meshAfter u.state found.isSome = .ok mesh) ∧
        ∃ q, directions (Coordinates.toGrid before.point).size u.drawn = .ok q := by
  have hsplit (act : Step α ρ (State α n) Unit) (hdrawn : (left act u).drawn = u.drawn) :
      (∃ r t, (act >>= fun _ => conclude o directions before) u = .ok r t) ↔
        (∃ v t, act u = .ok v t) ∧
          ∃ q, directions (Coordinates.toGrid before.point).size u.drawn = .ok q := by
    constructor
    · rintro ⟨r, t, h⟩
      obtain ⟨v, w, hact, hrest⟩ := bind_eq_ok.1 h
      rw [left_of_ok hact] at hdrawn
      exact ⟨⟨v, w, hact⟩, hdrawn ▸ conclude_ends.1 ⟨r, t, hrest⟩⟩
    · rintro ⟨⟨v, w, hact⟩, hq⟩
      rw [left_of_ok hact] at hdrawn
      rw [← hdrawn] at hq
      obtain ⟨r, t, hrest⟩ := (conclude_ends (o := o)).2 hq
      exact ⟨r, t, bind_eq_ok.2 ⟨v, w, hact, hrest⟩⟩
  cases found with
  | some a =>
    refine (hsplit (succeed a) ?_).trans (and_congr_left' succeed_ends)
    exact left_succeed (fun s => s.drawn) (fun _ _ => rfl) u
  | none =>
    refine (hsplit fail ?_).trans (and_congr_left' fail_ends)
    exact leavesAlone_fail (fun s => s.drawn) (fun _ _ => rfl) (fun _ _ => rfl)
      (fun _ _ => rfl) (fun _ _ => rfl) u

/-- **A poll whose scan is known:** where it leaves the search, and whether it
ends. -/
theorem poll_of_scan {p : Problem α n} (directions : Directions α)
    (hscan : scan p o s.state (Heading.all n) none (s.withState (beginPoll o s.state)) =
      .ok found u) (hdrawn : u.drawn = s.drawn) :
    poll p o directions s = settle o directions s.state found u ∧
      standing (left (poll p o directions) s) =
        Standing.after ⟨u.tally, found.isSome, s.state.point, s.state.value, s.state.violation⟩
          found ∧
      ((∃ r t, poll p o directions s = .ok r t) ↔
        (∃ mesh, meshAfter s.state found.isSome = .ok mesh) ∧
          ∃ q, directions n s.drawn = .ok q) := by
  have hpoll : poll p o directions s = settle o directions s.state found u := by
    rw [poll_eq, headings_point]
    simp only [bind, EStateM.bind, hscan]
  obtain ⟨hsame, himproved, -⟩ := scan_bestTrial hscan
  have hmesh : meshAfter u.state found.isSome = meshAfter s.state found.isSome := by
    simp only [meshAfter, hsame.mesh, hsame.streak]
    rfl
  have hsize : (Coordinates.toGrid s.state.point).size = n := by
    simp [Coordinates.toGrid, Point.toGrid, Grid.ofList, Grid.size]
  have hstanding : standing u =
      ⟨u.tally, found.isSome, s.state.point, s.state.value, s.state.violation⟩ := by
    rw [standing, himproved rfl, hsame.point, hsame.value, hsame.violation]
    rfl
  refine ⟨hpoll, ?_, ?_⟩
  · rw [← hstanding, ← standing_settle o directions s.state, left, hpoll, left]
  · rw [hpoll, settle_ends, hmesh, hdrawn, hsize]

end

/-! ## Both kinds of poll -/

section

variable {p : Problem α n} {s t : Session α ρ (State α n)} {made : List (Appraisal α n)}

/-- A poll that has made some trials has moved to one of them. -/
structure MovesTo (p : Problem α n) (s t : Session α ρ (State α n)) (made : List (Appraisal α n))
    (a : Appraisal α n) : Prop where
  made : p.Appraises s.tally made t.tally
  improved : t.state.improved
  point : t.state.point = a.point
  value : t.state.value = a.value
  violation : t.state.violation = a.violation

/-- A poll that has made some trials has not moved. -/
structure Stays (p : Problem α n) (s t : Session α ρ (State α n))
    (made : List (Appraisal α n)) : Prop where
  made : p.Appraises s.tally made t.tally
  improved : t.state.improved = false
  point : t.state.point = s.state.point
  value : t.state.value = s.state.value
  violation : t.state.violation = s.state.violation

theorem MovesTo.of_standing {a : Appraisal α n} {tally : Tally α} {x : Point α n} {v w : α}
    (h : standing t = Standing.after ⟨tally, true, x, v, w⟩ (some a))
    (hmade : p.Appraises s.tally made tally) : MovesTo p s t made a where
  made := by
    have htally : t.tally = tally := congrArg Standing.tally h
    rwa [htally]
  improved := congrArg Standing.improved h
  point := congrArg Standing.point h
  value := congrArg Standing.value h
  violation := congrArg Standing.violation h

theorem Stays.of_standing {tally : Tally α}
    (h : standing t =
      Standing.after ⟨tally, false, s.state.point, s.state.value, s.state.violation⟩ none)
    (hmade : p.Appraises s.tally made tally) : Stays p s t made where
  made := by
    have htally : t.tally = tally := congrArg Standing.tally h
    rwa [htally]
  improved := congrArg Standing.improved h
  point := congrArg Standing.point h
  value := congrArg Standing.value h
  violation := congrArg Standing.violation h

/-- The merit of a search that has moved to a trial is that of the trial, once
the poll has ended. -/
theorem MovesTo.merit [OrderedScalar α] {o : Options α} {directions : Directions α}
    {a : Appraisal α n} {r : PollReport α n}
    (h : MovesTo p s (left (poll p o directions) s) made a)
    (ha : a.merit = DirectSearch.merit s.state.weight a.value a.violation)
    (hpoll : poll p o directions s = .ok r t) : t.state.merit = a.merit := by
  rw [left_of_ok hpoll] at h
  have hpolled := poll_polled hpoll
  obtain ⟨_, -, -, _, -, -, hsuccess⟩ := hpolled.success h.improved
  rw [hpolled.merit, hsuccess.weight, h.value, h.violation, ha]

variable {f : Point α n → α} {g : Point α n → Point α p.constraintCount} {q : Point α n}
variable (o : Options α) (directions : Directions α)

theorem poll_opportunistic (h : p.Evaluates f g) (hq : s.state.direction = q.toGrid)
    {before after : List (Appraisal α n)} {a : Appraisal α n}
    (hsplit : trials p f g s.state q = before ++ a :: after)
    (hbefore : ∀ b ∈ before, ¬Beats b s.state) (ha : Beats a s.state) :
    MovesTo p s (left (poll p { o with greedy := false } directions) s) (before ++ [a]) a ∧
      ((∃ r t, poll p { o with greedy := false } directions s = .ok r t) ↔
        (∃ mesh, meshAfter s.state true = .ok mesh) ∧ ∃ q, directions n s.drawn = .ok q) := by
  obtain ⟨u, hmade, hdrawn, hscan⟩ := scan_opportunistic h hq o hsplit hbefore ha
    (s.withState (beginPoll { o with greedy := false } s.state))
  obtain ⟨-, hstanding, hends⟩ := poll_of_scan directions hscan hdrawn
  exact ⟨.of_standing hstanding hmade, hends⟩

theorem poll_greedy [OrderedScalar α] (h : p.Evaluates f g) (hq : s.state.direction = q.toGrid)
    {before after : List (Appraisal α n)} {a : Appraisal α n}
    (hsplit : trials p f g s.state q = before ++ a :: after)
    (hbefore : ∀ b ∈ before, ¬Beats b s.state) (ha : Beats a s.state) :
    ∃ b, FirstLeast (fun c => c.merit) b
        ((trials p f g s.state q).filter fun c => le c.merit c.merit) ∧
      MovesTo p s (left (poll p { o with greedy := true } directions) s)
        (trials p f g s.state q) b ∧
      ((∃ r t, poll p { o with greedy := true } directions s = .ok r t) ↔
        (∃ mesh, meshAfter s.state true = .ok mesh) ∧ ∃ q, directions n s.drawn = .ok q) := by
  obtain ⟨b, hbest, hleast⟩ := exists_bestTrial after hbefore ha
  rw [← hsplit] at hbest hleast
  obtain ⟨u, hmade, hdrawn, hscan⟩ := scan_greedy h hq o (Heading.all n) none
    (s.withState (beginPoll { o with greedy := true } s.state))
  have hscan := hscan.trans (congrArg (EStateM.Result.ok · u) hbest)
  obtain ⟨-, hstanding, hends⟩ := poll_of_scan directions hscan hdrawn
  exact ⟨b, hleast, .of_standing hstanding hmade, hends⟩

theorem poll_unbeaten (h : p.Evaluates f g) (hq : s.state.direction = q.toGrid)
    (hall : ∀ a ∈ trials p f g s.state q, ¬Beats a s.state) :
    (∀ greedy, Stays p s (left (poll p { o with greedy } directions) s)
        (trials p f g s.state q) ∧
      ((∃ r t, poll p { o with greedy } directions s = .ok r t) ↔
        (∃ mesh, meshAfter s.state false = .ok mesh) ∧ ∃ q, directions n s.drawn = .ok q)) ∧
      poll p { o with greedy := true } directions s =
        poll p { o with greedy := false } directions s := by
  obtain ⟨u, hmade, hdrawn, hscan⟩ := scan_fails h hq o hall
    (s.withState (beginPoll { o with greedy := false } s.state))
  -- before the scan and after it, greed is not looked at
  have hpoll (greedy : Bool) :=
    poll_of_scan (o := { o with greedy }) directions (hscan greedy) hdrawn
  exact ⟨fun greedy => ⟨.of_standing (hpoll greedy).2.1 hmade, (hpoll greedy).2.2⟩,
    (hpoll true).1.trans (hpoll false).1.symm⟩

omit [Scalar α] in
/-- A list with a member of some kind has a first one. -/
theorem exists_first {β : Type} {q : β → Bool} {bs : List β} (h : ∃ b ∈ bs, q b) :
    ∃ before b after, bs = before ++ b :: after ∧ (∀ c ∈ before, ¬q c) ∧ q b := by
  obtain ⟨b, hb⟩ := Option.isSome_iff_exists.1 (List.find?_isSome.2 h)
  obtain ⟨hq, before, after, hsplit, hbefore⟩ := List.find?_eq_some_iff_append.1 hb
  exact ⟨before, b, after, hsplit, by simpa using hbefore, hq⟩

/-- **Greedy polls and others.** Let the functions of a problem return, and
always the same, be it undefined; let a poll have its direction at hand. It
then succeeds just where one of the `2n` trials beats the incumbent, greedy
or not, and comes to its end just where the new mesh is in range and there is
a next direction. A poll that is not greedy moves to the first trial that beats
the incumbent and makes none after it. A greedy one makes all, and moves to
the first of the least with a defined merit, which is not above the other's.
If no trial beats the incumbent, all are made, and the two polls do the
same. -/
theorem polls_of_trials [OrderedScalar α] (h : p.Evaluates f g)
    (hq : s.state.direction = q.toGrid) :
    let as := trials p f g s.state q
    let polled (greedy : Bool) := poll p { o with greedy } directions s
    let leaves (greedy : Bool) := left (poll p { o with greedy } directions) s
    as.length = 2 * n ∧
      (∀ greedy, ((leaves greedy).state.improved ↔ ∃ a ∈ as, Beats a s.state) ∧
        ((∃ r t, polled greedy = .ok r t) ↔
          (∃ mesh, meshAfter s.state (leaves greedy).state.improved = .ok mesh) ∧
            ∃ next, directions n s.drawn = .ok next)) ∧
      ((∃ a ∈ as, Beats a s.state) → ∃ before a after b,
        as = before ++ a :: after ∧ (∀ c ∈ before, ¬Beats c s.state) ∧ Beats a s.state ∧
          MovesTo p s (leaves false) (before ++ [a]) a ∧
          (∀ r t, polled false = .ok r t → t.state.merit = a.merit) ∧
          FirstLeast (fun c => c.merit) b (as.filter fun c => le c.merit c.merit) ∧
          MovesTo p s (leaves true) as b ∧
          (∀ r t, polled true = .ok r t → t.state.merit = b.merit) ∧
          le b.merit a.merit) ∧
      ((∀ a ∈ as, ¬Beats a s.state) →
        Stays p s (leaves false) as ∧ polled true = polled false) := by
  intro as polled leaves
  refine ⟨by simp [as, trials, Heading.length_all], ?_⟩
  by_cases hbeats : ∃ a ∈ as, Beats a s.state
  · obtain ⟨before, a, after, hsplit, hbefore, ha⟩ := exists_first hbeats
    obtain ⟨hmoves, hends⟩ := poll_opportunistic o directions h hq hsplit
      hbefore ha
    obtain ⟨b, hleast, hmoves', hends'⟩ := poll_greedy o directions h hq
      hsplit hbefore ha
    have hmerit {c : Appraisal α n} (hc : c ∈ as) :
        c.merit = DirectSearch.merit s.state.weight c.value c.violation := by
      obtain ⟨d, -, rfl⟩ := List.mem_map.1 hc
      rfl
    have hmem : a ∈ as := by
      rw [hsplit]
      simp
    obtain ⟨hmem', hb⟩ := List.mem_filter.1 hleast.mem
    have hdefined : le a.merit a.merit := (defined_of_le (le_of_lt ha)).1
    refine ⟨fun greedy => ?_, fun _ => ?_, fun hnone => absurd hbeats (by simpa using hnone)⟩
    · cases greedy with
      | false =>
        refine ⟨iff_of_true hmoves.improved hbeats, ?_⟩
        simpa only [polled, leaves, hmoves.improved] using hends
      | true =>
        refine ⟨iff_of_true hmoves'.improved hbeats, ?_⟩
        simpa only [polled, leaves, hmoves'.improved] using hends'
    · refine ⟨before, a, after, b, hsplit, hbefore, ha, hmoves, fun r t hpoll => ?_, hleast,
        hmoves', fun r t hpoll => ?_, ?_⟩
      · exact hmoves.merit (hmerit hmem) hpoll
      · exact hmoves'.merit (hmerit hmem') hpoll
      · exact hleast.le hb a (List.mem_filter.2 ⟨hmem, hdefined⟩)
  · have hnone : ∀ a ∈ as, ¬Beats a s.state := fun a ha hb => hbeats ⟨a, ha, hb⟩
    obtain ⟨hstays, hsame⟩ := poll_unbeaten o directions h hq hnone
    refine ⟨fun greedy => ?_, fun h => absurd h hbeats, fun _ => ⟨(hstays false).1, hsame⟩⟩
    obtain ⟨hstay, hends⟩ := hstays greedy
    refine ⟨iff_of_false (by simp [leaves, hstay.improved]) hbeats, ?_⟩
    simpa only [polled, leaves, hstay.improved] using hends

end

/-! ## Two polls that part -/

/-- Lower on either side of zero, and the lower on the right. -/
def saddle (x : Float) : Float := if lt x zero then x else -(two * x)

/-- A poll with mesh one that is about to begin at zero. -/
def atZero : Session Float (Row Float 1) (State Float 1) :=
  (fresh .empty).withState
    { point := .replicate 1 zero, value := zero, violation := zero, merit := zero, weight := one
      mesh := one, streak := 0, direction := .ofList [one], tolerance := zero, slope := none
      improved := false, outcome := .none }

/-- It is ended by the trial on the left, unless it is greedy and goes on to
the better one on the right. -/
theorem saddle_polls_part :
    let m := onLine saddle zero (-Extended.infinity) Extended.infinity (.default .mesh)
    let leaves (greedy : Bool) := left (poll m.problem { m.options with greedy } m.directions) atZero
    ∃ a b, lt b.merit a.merit ∧
      MovesTo m.problem atZero (leaves false) [a] a ∧
      MovesTo m.problem atZero (leaves true) [a, b] b := by
  intro m leaves
  let f (x : Point Float 1) : Float := saddle (x.toGrid.entries.headD zero)
  let g (_ : Point Float 1) : Point Float m.problem.constraintCount := .replicate 0 zero
  have hvalues : m.problem.Evaluates f g := ⟨fun _ _ => rfl, fun _ _ h => absurd h (by decide)⟩
  obtain ⟨l, hl⟩ : ∃ l, l = trial m.problem f g atZero.state (.replicate 1 one) ⟨0, true⟩ :=
    ⟨_, rfl⟩
  obtain ⟨r, hr⟩ : ∃ r, r = trial m.problem f g atZero.state (.replicate 1 one) ⟨0, false⟩ :=
    ⟨_, rfl⟩
  have htrials : trials m.problem f g atZero.state (.replicate 1 one) = [l, r] := by
    rw [hl, hr]
    rfl
  have hleft : Beats l atZero.state := by
    subst hl
    decide +kernel
  have hright : lt r.merit l.merit := by
    subst hl hr
    decide +kernel
  obtain ⟨-, -, hmoves, -⟩ := polls_of_trials (s := atZero) (q := .replicate 1 one) m.options
    m.directions hvalues rfl
  rw [htrials] at hmoves
  obtain ⟨before, a, after, b, hsplit, hbefore, -, hfirst, -, hleast, hbest, -⟩ :=
    hmoves ⟨l, by simp, hleft⟩
  have hnone : before = [] := by
    rcases before with _ | ⟨c, before⟩
    · rfl
    · obtain ⟨rfl, -⟩ := List.cons.inj hsplit
      exact absurd hleft (hbefore l (by simp))
  subst hnone
  obtain ⟨rfl, -⟩ := List.cons.inj hsplit
  have hb : b = r := by
    obtain ⟨hmem, hself⟩ := List.mem_filter.1 hleast.mem
    rcases List.mem_cons.1 hmem with rfl | hmem
    · have hle := hleast.le hself r (List.mem_filter.2 ⟨by simp, (defined_of_le (le_of_lt hright)).1⟩)
      exact absurd hle (not_le_of_lt hright)
    · exact List.mem_singleton.1 hmem
  subst hb
  exact ⟨l, b, hright, hfirst, hbest⟩

end MeshSearch

end DirectSearch
