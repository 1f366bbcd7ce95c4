import DirectSearch.Proofs.MeshSearch.Trials
import DirectSearch.Proofs.Search.Faults
/-!
# Mesh search — searches that are given what they need

Let a mesh search be given what it needs: functions that return at every point,
a direction of its size whenever it draws one, and settings that are numbers
(`Reliable`). Then it starts, its scans and its tests return, and one thing is
left that can fail: the size of the new mesh, which may be out of range
(`Reliable.poll_eq_error`). So a run that ends has a report, or it has come to a
poll that ends with such a mesh (`Reliable.ends`).
-/

namespace DirectSearch

open Scalar Session

namespace MeshSearch

/-! ## What a search needs -/

section

variable {α : Type} [Scalar α] {n : Nat} {ρ : Type}

/-- **A search that is given what it needs.** The values of the functions may
depend on how often they have been asked for. -/
structure Reliable (m : MeshSearch α n) : Prop where
  objective (c : Counters) (x : Point α n) : ∃ v, m.problem.objective c x.toGrid = .ok v
  constraints (c : Counters) (x : Point α n) : ∃ y, m.problem.ReturnsAt c x y
  directions (k : Nat) : ∃ q : Point α n, m.directions n k = .ok q.toGrid
  absolute : ∃ v, m.options.absolute.toScalar = .ok v
  relative : ∃ v, m.options.relative.toScalar = .ok v
  smallStep : m.options.stopWhenSmall → ∃ bound, m.options.smallStep = .ok bound
  budgets : m.budgets.IsNumeric

/-- The next poll has a vector of the space to go along. -/
def HasDirection (s : Session α ρ (State α n)) : Prop :=
  ∃ q : Point α n, s.state.direction = q.toGrid

/-- What a start takes from the directions and from the clock. -/
theorem start_takes {m : MeshSearch α n} {clock : Nat → α} {d : Desk α (Row α n)}
    {s : Session α (Row α n) (State α n)} (h : m.method.start clock d = .ok s) :
    (∃ k, m.directions n k = .ok s.state.direction) ∧ (∃ j, s.started = clock j) ∧
      s.elapsed = zero := by
  unfold Method.start at h
  split at h
  · cases h
  · rename_i st d' hinitial
    cases h
    simp only [method, initial, bind_eq_ok, evaluate_eq_ok, draw_eq_ok, demand_eq_ok,
      pure_eq_ok] at hinitial
    obtain ⟨_, _, ⟨_, -, rfl⟩, q, _, ⟨hq, rfl⟩, _, _, ⟨-, rfl⟩, rfl, rfl⟩ := hinitial
    exact ⟨⟨_, hq⟩, ⟨_, rfl⟩, rfl⟩

/-- A scan draws nothing. -/
theorem leavesAlone_scan (p : Problem α n) (o : Options α) (st : State α n)
    (ds : List (Heading n)) (best : Option (Appraisal α n)) :
    LeavesAlone (fun s : Session α ρ (State α n) => s.drawn) (scan p o st ds best) := by
  induction ds generalizing best with
  | nil => exact .pure best
  | cons d ds ih =>
    refine .bind (.demand _) fun x => .bind (fun s => ?_) fun a => ?_
    · unfold left evaluate
      cases p.appraise st.weight x s.tally <;> rfl
    · have hjudge : LeavesAlone (fun s : Session α ρ (State α n) => s.drawn)
          (if lt a.merit (bar st best) then do
            modifyState (noteDecrease d)
            if o.greedy then scan p o st ds (some a) else pure (some a)
          else scan p o st ds best) :=
        .ite (.bind (fun _ => rfl) fun _ => .ite (ih _) (.pure _)) (ih _)
      exact .ite (.bind (fun _ => rfl) fun _ => hjudge) hjudge

namespace Reliable

variable {m : MeshSearch α n} (h : m.Reliable) {clock : Nat → α} {d : Desk α (Row α n)}

include h

/-! ## What returns -/

theorem returns_appraise (w : α) (x : Point α n) : Returns (m.problem.appraise w x) := by
  intro t
  obtain ⟨v, hv⟩ := h.objective t.counters.askObjective x
  obtain ⟨y, hy⟩ := h.constraints t.counters.askObjective x
  exact ⟨_, Problem.appraise_of_returns hv hy w⟩

theorem returns_scan {st : State α n} {q : Point α n} (hq : st.direction = q.toGrid)
    (ds : List (Heading n)) (best : Option (Appraisal α n)) :
    Returns (scan m.problem m.options st ds best : Step α ρ (State α n) _) := by
  induction ds generalizing best with
  | nil => exact .pure best
  | cons d ds ih =>
    refine .demand_bind (trialPoint_point st hq d) ?_
    refine (Returns.evaluate (h.returns_appraise _ _)).bind fun a => ?_
    have hjudge : Returns (if lt a.merit (bar st best) then do
          modifyState (noteDecrease d)
          if m.options.greedy then scan m.problem m.options st ds (some a) else pure (some a)
        else scan m.problem m.options st ds best : Step α ρ (State α n) _) :=
      .ite (.bind (.modifyState _) fun _ => .ite (ih _) (.pure _)) (ih _)
    exact .ite (.bind (.modifyState _) fun _ => hjudge) hjudge

/-- The search starts. -/
theorem exists_start (clock : Nat → α) (d : Desk α (Row α n)) :
    ∃ s₀, m.method.start clock d = .ok s₀ := by
  obtain ⟨a, tally, ha⟩ := h.returns_appraise one m.start (d.openJournal clock).tally
  obtain ⟨q, hq⟩ := h.directions (d.openJournal clock).drawn
  obtain ⟨relative, hrelative⟩ := h.relative
  obtain ⟨absolute, habsolute⟩ := h.absolute
  have htolerance : stallTolerance m.options a.value = .ok (absolute + abs a.value * relative) := by
    rw [stallTolerance, hrelative, habsolute]
    rfl
  obtain ⟨st, d', hinitial⟩ : ∃ st d', m.method.initial (d.openJournal clock) = .ok st d' := by
    simp only [method, initial, bind_eq_ok, evaluate_eq_ok, draw_eq_ok, demand_eq_ok, pure_eq_ok]
    exact ⟨_, _, a, _, ⟨tally, ha, rfl⟩, _, _, ⟨hq, rfl⟩, _, _, ⟨htolerance, rfl⟩, rfl, rfl⟩
  rw [Method.start, hinitial]
  exact ⟨_, rfl⟩

theorem exists_isSmall (st : State α n) : ∃ small, st.isSmall m.options = .ok small := by
  unfold StateOn.isSmall
  split
  · obtain ⟨bound, hbound⟩ := h.smallStep ‹_›
    exact ⟨_, congrArg _ hbound⟩
  · exact ⟨_, rfl⟩

/-- The tests between the turns return. -/
theorem exists_finished (s : Session α (Row α n) (State α n)) :
    ∃ ended, m.method.finished s = .ok ended := by
  obtain ⟨small, hsmall⟩ := h.exists_isSmall s.state
  have hsettled : m.method.settled s = .ok (small || (!s.state.improved && s.state.isFlat)) := by
    change s.state.isSettled m.options = _
    rw [StateOn.isSettled, hsmall]
    rfl
  exact Method.exists_finished (m := m.method) h.budgets ⟨_, hsettled⟩

/-- There is a status for every session. -/
theorem exists_verdict (s : Session α (Row α n) (State α n)) :
    ∃ status, (m.method.exhausted s >>= m.method.verdict s) = .ok status := by
  obtain ⟨small, hsmall⟩ := h.exists_isSmall s.state
  obtain ⟨spent, hspent⟩ := Method.exists_exhausted (m := m.method) h.budgets s
  obtain ⟨status, hstatus⟩ := h.budgets.exists_status s.tally.counters.objective s.elapsed
  suffices hverdict : ∃ status, verdict m.options m.budgets s spent = .ok status by
    obtain ⟨status, hverdict⟩ := hverdict
    exact ⟨status, except_bind_eq_ok.2 ⟨spent, hspent, hverdict⟩⟩
  simp only [verdict, except_bind_eq_ok, hsmall]
  cases small with
  | true => exact ⟨_, _, rfl, rfl⟩
  | false =>
    cases hflat : s.state.isFlat with
    | true => exact ⟨_, _, rfl, rfl⟩
    | false =>
      cases spent with
      | true => exact ⟨_, _, rfl, hstatus⟩
      | false => exact ⟨_, _, rfl, rfl⟩

/-- Every poll that ends leaves a vector to go along. -/
theorem hasDirection_of_poll {s t : Session α ρ (State α n)} {r : PollReport α n}
    (hpoll : poll m.problem m.options m.directions s = .ok r t) : HasDirection t := by
  obtain ⟨k, hk⟩ := direction_of_poll hpoll
  have hsize : (Coordinates.toGrid s.state.point).size = n := by
    simp [Coordinates.toGrid, Point.toGrid, Grid.ofList, Grid.size]
  rw [hsize] at hk
  obtain ⟨q, hq⟩ := h.directions k
  exact ⟨q, Except.ok.inj (hk.symm.trans hq)⟩

theorem hasDirection {s : Session α (Row α n) (State α n)} (hs : m.method.Reaches clock d s) :
    HasDirection s := by
  refine hs.induction (fun s₀ hs₀ => ?_) fun s t _ _ hturn => ?_
  · obtain ⟨⟨k, hk⟩, -⟩ := start_takes hs₀
    obtain ⟨q, hq⟩ := h.directions k
    exact ⟨q, Except.ok.inj (hk.symm.trans hq)⟩
  · obtain ⟨r, u, hpoll, -, hstate⟩ := hturn.exists_iterate
    obtain ⟨q, hq⟩ := h.hasDirection_of_poll hpoll
    exact ⟨q, by rw [hstate, hq]⟩

end Reliable

/-! ## What can fail -/

variable {o : Options α} {directions : Directions α} {before : State α n} {fault : Fault}
variable {found : Option (Appraisal α n)} {s u : Session α ρ (State α n)}

/-- A mesh cannot be computed where it is out of range, and only there. -/
theorem eq_overflow_of_meshAfter {st : State α n} {success : Bool}
    (h : meshAfter st success = .error fault) : fault = .overflow := by
  unfold meshAfter widened narrowed Number.scalarOfInt at h
  dsimp only at h
  split at h
  · split at h
    · cases h
    · cases h
      rfl
  · split at h
    · cases h
    · cases h
      rfl

/-- A mesh that cannot be computed ends a poll. -/
theorem settle_of_error (h : meshAfter u.state found.isSome = .error fault) :
    ∃ t, settle o directions before found u = .error fault t := by
  cases found with
  | some a =>
    have hmesh : widened (moveTo a u.state).mesh (moveTo a u.state).streak.toNat = .error fault := h
    exact ⟨_, bind_eq_error.2 (.inl (bind_eq_error.2 (.inr ⟨(), _, rfl, bind_eq_error.2 (.inr
      ⟨_, _, rfl, bind_eq_error.2 (.inl (demand_eq_error.2 ⟨hmesh, rfl⟩))⟩)⟩)))⟩
  | none =>
    have hmesh : narrowed u.state.mesh (streakDown u.state.streak).natAbs = .error fault := h
    exact ⟨_, bind_eq_error.2 (.inl (bind_eq_error.2 (.inr ⟨(), _, rfl, bind_eq_error.2 (.inr
      ⟨_, _, rfl, bind_eq_error.2 (.inl (demand_eq_error.2 ⟨hmesh, rfl⟩))⟩)⟩)))⟩

/-- **A poll fails where its mesh does,** and nowhere else. -/
theorem Reliable.poll_eq_error {m : MeshSearch α n} (h : m.Reliable) (hs : HasDirection s) :
    (∃ t, poll m.problem m.options m.directions s = .error fault t) ↔
      meshAfter s.state (left (poll m.problem m.options m.directions) s).state.improved =
        .error fault := by
  obtain ⟨q, hq⟩ := hs
  obtain ⟨found, u, hscan⟩ := h.returns_scan hq (Heading.all n) none
    (s.withState (beginPoll m.options s.state))
  have hdrawn : u.drawn = s.drawn := by
    have hleaves := leavesAlone_scan m.problem m.options s.state (Heading.all n) none
      (s.withState (beginPoll m.options s.state))
    rwa [left_of_ok hscan] at hleaves
  obtain ⟨hpoll, hstanding, hends⟩ := poll_of_scan m.directions hscan hdrawn
  have himproved : (left (poll m.problem m.options m.directions) s).state.improved =
      found.isSome := by
    refine (congrArg Standing.improved hstanding).trans ?_
    cases found <;> rfl
  rw [himproved]
  have hfails {fault' : Fault} (hmesh : meshAfter s.state found.isSome = .error fault') :
      ∃ t, poll m.problem m.options m.directions s = .error fault' t := by
    obtain ⟨hsame, -, -⟩ := scan_bestTrial hscan
    have hmesh' : meshAfter u.state found.isSome = .error fault' := by
      rw [← hmesh, meshAfter, meshAfter, hsame.mesh, hsame.streak]
      rfl
    rw [hpoll]
    exact settle_of_error hmesh'
  refine ⟨?_, hfails⟩
  rintro ⟨t, ht⟩
  cases hmesh : meshAfter s.state found.isSome with
  | ok mesh =>
    obtain ⟨next, hnext⟩ := h.directions s.drawn
    obtain ⟨r, t', hok⟩ := hends.2 ⟨⟨mesh, hmesh⟩, _, hnext⟩
    cases hok.symm.trans ht
  | error fault' =>
    obtain ⟨t', ht'⟩ := hfails hmesh
    cases ht'.symm.trans ht
    rfl

/-- A poll ends where its mesh can be computed. -/
theorem Reliable.exists_poll {m : MeshSearch α n} (h : m.Reliable) (hs : HasDirection s)
    (hmesh : ∀ success, ∃ mesh, meshAfter s.state success = .ok mesh) :
    ∃ r t, poll m.problem m.options m.directions s = .ok r t := by
  cases hpoll : poll m.problem m.options m.directions s with
  | ok r t => exact ⟨r, t, rfl⟩
  | error fault t =>
    obtain ⟨mesh, hok⟩ := hmesh (left (poll m.problem m.options m.directions) s).state.improved
    cases hok.symm.trans ((h.poll_eq_error hs).1 ⟨t, hpoll⟩)

/-! ## How a run ends -/

/-- The next poll ends with a mesh out of range. -/
def MeshFails (m : MeshSearch α n) (s : Session α ρ (State α n)) : Prop :=
  meshAfter s.state (left (poll m.problem m.options m.directions) s).state.improved =
    .error .overflow

/-- **A run that ends has a report,** or it has come to a poll that ends with a
mesh out of range. -/
theorem Reliable.ends {m : MeshSearch α n} (h : m.Reliable) {clock : Nat → α}
    {d : Desk α (Row α n)} {fuel : Nat} {ended : Ended α n (Row α n)}
    (hrun : m.method.run clock fuel d = some ended) :
    (∃ report, ended.result = .ok report) ∨
      ended.result = .error .overflow ∧
        ∃ s, m.method.Reaches clock d s ∧ m.method.finished s = .ok false ∧ MeshFails m s := by
  obtain ⟨result, d'⟩ := ended
  cases result with
  | ok report => exact .inl ⟨report, rfl⟩
  | error fault =>
    obtain ⟨s₀, hs₀⟩ := h.exists_start clock d
    obtain ⟨s, t, hs, hgoes, hfault⟩ :=
      (Method.run_faults_iff hs₀ h.exists_finished h.exists_verdict).1 ⟨fuel, d', hrun⟩
    have hreached : m.method.Reaches clock d s :=
      ⟨s₀, hs₀, Relation.ReflTransGen.mono (fun _ _ hstep => hstep.2) _ _ hs⟩
    have hmesh := (h.poll_eq_error (h.hasDirection hreached)).1 ⟨t, hfault⟩
    obtain rfl := eq_overflow_of_meshAfter hmesh
    exact .inr ⟨rfl, s, hreached, hgoes, hmesh⟩

end

end MeshSearch

end DirectSearch
