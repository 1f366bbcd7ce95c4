import DirectSearch.Search.Method
import Mathlib.Data.List.Forall2
import Mathlib.Order.Defs.Unbundled
/-!
# Search — what a step that ends has done

A step that ends with a value has ended with one at each of its parts.
Every part has a lemma that says what it then returned and what became of
the session, so that a whole step is read from the front to the back by
rewriting with them.
-/

namespace DirectSearch

/-! ## Parts of any step -/

section

variable {ς β γ : Type} {s t : ς} {b : β}

/-- A step after another ends if both end. -/
@[simp] theorem bind_eq_ok {act : EStateM Fault ς γ} {f : γ → EStateM Fault ς β} :
    (act >>= f) s = .ok b t ↔ ∃ c u, act s = .ok c u ∧ f c u = .ok b t := by
  change EStateM.bind act f s = .ok b t ↔ _
  unfold EStateM.bind
  constructor
  · intro h
    split at h
    · exact ⟨_, _, ‹_›, h⟩
    · cases h
  · rintro ⟨c, u, hact, hf⟩
    simp only [hact, hf]

/-- It ends with the fault of either. -/
theorem bind_eq_error {act : EStateM Fault ς γ} {f : γ → EStateM Fault ς β} {fault : Fault} :
    (act >>= f) s = .error fault t ↔
      act s = .error fault t ∨ ∃ c u, act s = .ok c u ∧ f c u = .error fault t := by
  change EStateM.bind act f s = .error fault t ↔ _
  unfold EStateM.bind
  split
  · rename_i c u hact
    constructor
    · exact fun h => .inr ⟨c, u, hact, h⟩
    · rintro (h | ⟨_, _, h, hf⟩)
      · cases hact.symm.trans h
      · cases hact.symm.trans h
        exact hf
  · rename_i fault' u hact
    constructor
    · rintro ⟨⟩
      exact .inl hact
    · rintro (h | ⟨_, _, h, -⟩)
      · cases hact.symm.trans h
        rfl
      · cases hact.symm.trans h

@[simp] theorem pure_eq_ok {c : β} :
    (pure c : EStateM Fault ς β) s = .ok b t ↔ c = b ∧ s = t := by
  change EStateM.Result.ok c s = .ok b t ↔ _
  exact EStateM.Result.ok.injEq _ _ _ _ ▸ Iff.rfl

/-- The same for a computation without a state. -/
theorem except_bind_eq_ok {e : Except Fault γ} {f : γ → Except Fault β} :
    (e >>= f) = .ok b ↔ ∃ c, e = .ok c ∧ f c = .ok b := by
  cases e with
  | error fault => exact ⟨nofun, nofun⟩
  | ok c =>
    constructor
    · exact fun h => ⟨c, rfl, h⟩
    · rintro ⟨_, ⟨⟩, h⟩
      exact h

theorem except_pure_eq_ok {c : β} : (pure c : Except Fault β) = .ok b ↔ c = b := by
  change Except.ok c = .ok b ↔ _
  exact ⟨Except.ok.inj, congrArg _⟩

/-- One after the other ends if all end. -/
theorem except_mapM_eq_ok {f : γ → Except Fault β} {cs : List γ} {bs : List β} :
    cs.mapM f = .ok bs ↔ List.Forall₂ (fun c b => f c = .ok b) cs bs := by
  induction cs generalizing bs with
  | nil =>
    rw [List.mapM_nil, except_pure_eq_ok, List.forall₂_nil_left_iff]
    exact eq_comm
  | cons c cs ih =>
    simp only [List.mapM_cons, except_bind_eq_ok, except_pure_eq_ok, ih,
      List.forall₂_cons_left_iff]
    constructor
    · rintro ⟨b, hb, bs, hbs, rfl⟩
      exact ⟨b, bs, hb, hbs, rfl⟩
    · rintro ⟨b, bs, hb, hbs, rfl⟩
      exact ⟨b, hb, bs, hbs, rfl⟩

@[simp] theorem demand_eq_ok {e : Except Fault β} :
    (demand e : EStateM Fault ς β) s = .ok b t ↔ e = .ok b ∧ s = t := by
  cases e <;> simp [demand]

theorem demand_eq_error {e : Except Fault β} {fault : Fault} :
    (demand e : EStateM Fault ς β) s = .error fault t ↔ e = .error fault ∧ s = t := by
  cases e <;> simp [demand]

end

/-! ## Evaluations -/

section

variable {α β : Type} {n : Nat} {p : Problem α n} {t u : Tally α}

/-- The objective in a search has returned, and that is on record. -/
theorem Problem.objectiveAt_eq_ok {x : Grid α} {v : α} :
    p.objectiveAt x t = .ok v u ↔ p.objective t.counters.askObjective x = .ok v ∧
      ⟨t.counters.askObjective, t.evaluations.push ⟨x, v⟩⟩ = u := by
  simp only [objectiveAt, objectiveOf]
  cases p.objective t.counters.askObjective x with
  | ok w =>
    constructor
    · rintro ⟨⟩
      exact ⟨rfl, rfl⟩
    · rintro ⟨⟨⟩, rfl⟩
      rfl
  | error fault => simp

/-- Whatever else is asked for is counted only. -/
theorem Counting.inSearch_eq_ok {act : Counting β} {b : β} :
    act.inSearch t = .ok b u ↔
      ∃ counters, act t.counters = .ok b counters ∧ { t with counters } = u := by
  unfold inSearch
  cases act t.counters with
  | ok c counters =>
    constructor
    · rintro ⟨⟩
      exact ⟨_, rfl, rfl⟩
    · rintro ⟨_, ⟨⟩, rfl⟩
      rfl
  | error fault counters => simp

end

namespace Session

variable {α ρ σ τ β : Type}

/-! ## What a part makes of a session -/

/-- The session with another tally. -/
def withTally (s : Session α ρ σ) (tally : Tally α) : Session α ρ σ := { s with tally }

/-- The session with one more direction drawn. -/
def withDraw (s : Session α ρ σ) : Session α ρ σ := { s with drawn := s.drawn + 1 }

/-- The session with one more iteration. -/
def withIteration (s : Session α ρ σ) : Session α ρ σ := { s with iterations := s.iterations + 1 }

section

variable (s : Session α ρ σ) (st : τ) (tally : Tally α)

@[simp] theorem withState_state : (s.withState st).state = st := rfl

@[simp] theorem withState_tally : (s.withState st).tally = s.tally := rfl

@[simp] theorem withTally_state : (s.withTally tally).state = s.state := rfl

@[simp] theorem withTally_tally : (s.withTally tally).tally = tally := rfl

end

/-! ## Parts of a search -/

variable {s t : Session α ρ σ} {u : Unit}

@[simp] theorem getState_eq_ok {st : σ} : getState s = .ok st t ↔ s.state = st ∧ s = t := by
  simp [getState]

@[simp] theorem modifyState_eq_ok {f : σ → σ} :
    modifyState f s = .ok u t ↔ s.withState (f s.state) = t := by
  simp [modifyState, withState]

@[simp] theorem evaluate_eq_ok {act : Evaluating α β} {b : β} :
    evaluate act s = .ok b t ↔ ∃ tally, act s.tally = .ok b tally ∧ s.withTally tally = t := by
  unfold evaluate
  cases act s.tally with
  | ok c tally =>
    constructor
    · rintro ⟨⟩
      exact ⟨_, rfl, rfl⟩
    · rintro ⟨_, ⟨⟩, rfl⟩
      rfl
  | error fault tally => simp

@[simp] theorem report_eq_ok {e : Event α ρ} :
    (report e : Step α ρ σ Unit) s = .ok u t ↔ s.happened e = t := by
  simp [report]

@[simp] theorem draw_eq_ok {directions : Nat → Except Fault (Grid α)} {q : Grid α} :
    draw directions s = .ok q t ↔ directions s.drawn = .ok q ∧ s.withDraw = t := by
  unfold draw withDraw
  split <;> simp_all

@[simp] theorem countIteration_eq_ok :
    (countIteration : Step α ρ σ Unit) s = .ok u t ↔ s.withIteration = t := by
  simp [countIteration, withIteration]

end Session

/-! ## Steps that always end -/

/-- A step that ends with a value, wherever it starts. -/
def Returns {ς β : Type} (act : EStateM Fault ς β) : Prop := ∀ s, ∃ b t, act s = .ok b t

namespace Returns

variable {ς β γ : Type} {act : EStateM Fault ς β} {f : β → EStateM Fault ς γ}

theorem bind (h : Returns act) (hf : ∀ b, Returns (f b)) : Returns (act >>= f) := by
  intro s
  obtain ⟨b, t, hact⟩ := h s
  obtain ⟨c, u, hc⟩ := hf b t
  exact ⟨c, u, bind_eq_ok.2 ⟨b, t, hact, hc⟩⟩

protected theorem pure (b : β) : Returns (pure b : EStateM Fault ς β) := fun s => ⟨b, s, rfl⟩

protected theorem demand {e : Except Fault β} (h : ∃ b, e = .ok b) :
    Returns (demand e : EStateM Fault ς β) := by
  obtain ⟨b, rfl⟩ := h
  exact .pure b

/-- A value that is known may be used. -/
theorem demand_bind {e : Except Fault β} {b : β} (h : e = .ok b) (hf : Returns (f b)) :
    Returns (DirectSearch.demand e >>= f) := by
  rw [h]
  exact hf

theorem ite {c : Prop} [Decidable c] {act' : EStateM Fault ς β} (h : Returns act)
    (h' : Returns act') : Returns (if c then act else act') := by
  split
  · exact h
  · exact h'

variable {α ρ σ : Type}

protected theorem getState : Returns (Session.getState : Step α ρ σ σ) := fun _ => ⟨_, _, rfl⟩

protected theorem modifyState (g : σ → σ) :
    Returns (Session.modifyState g : Step α ρ σ Unit) := fun _ => ⟨_, _, rfl⟩

protected theorem report (e : Session α ρ σ → Event α ρ) :
    Returns (fun s => Session.report (e s) s) := fun _ => ⟨_, _, rfl⟩

protected theorem countIteration : Returns (Session.countIteration : Step α ρ σ Unit) :=
  fun _ => ⟨_, _, rfl⟩

protected theorem evaluate {ask : Evaluating α β} (h : Returns ask) :
    Returns (Session.evaluate ask : Step α ρ σ β) := by
  intro s
  obtain ⟨b, tally, hask⟩ := h s.tally
  exact ⟨b, s.withTally tally, Session.evaluate_eq_ok.2 ⟨tally, hask, rfl⟩⟩

end Returns

/-! ## Steps that lead one way -/

/-- What a step makes of what it found is related to that, also where a fault
ends the step. -/
structure Keeps {ς β : Type} (R : ς → ς → Prop) (act : EStateM Fault ς β) (s : ς) : Prop where
  ok {b : β} {t : ς} : act s = .ok b t → R s t
  error {fault : Fault} {t : ς} : act s = .error fault t → R s t

namespace Keeps

section

variable {ς β γ : Type} {R : ς → ς → Prop} [IsPreorder ς R] {act : EStateM Fault ς β}
variable {f : β → EStateM Fault ς γ} {s : ς}

/-- A step after another starts where that one has ended. -/
theorem bind (h : Keeps R act s) (hf : ∀ b t, act s = .ok b t → Keeps R (f b) t) :
    Keeps R (act >>= f) s where
  ok hok := by
    obtain ⟨b, u, hact, hb⟩ := bind_eq_ok.1 hok
    exact trans_of R (h.ok hact) ((hf b u hact).ok hb)
  error herror := by
    rcases bind_eq_error.1 herror with hact | ⟨b, u, hact, hb⟩
    · exact h.error hact
    · exact trans_of R (h.ok hact) ((hf b u hact).error hb)

omit [IsPreorder ς R] in
theorem ite {c : Prop} [Decidable c] {act' : EStateM Fault ς β} (h : Keeps R act s)
    (h' : Keeps R act' s) : Keeps R (if c then act else act') s := by
  split
  · exact h
  · exact h'

protected theorem pure (b : β) : Keeps R (pure b : EStateM Fault ς β) s where
  ok hok := by
    rw [(pure_eq_ok.1 hok).2]
    exact refl_of R _
  error := nofun

protected theorem demand (e : Except Fault β) :
    Keeps R (demand e : EStateM Fault ς β) s where
  ok hok := by
    rw [(demand_eq_ok.1 hok).2]
    exact refl_of R _
  error herror := by
    rw [(demand_eq_error.1 herror).2]
    exact refl_of R _

end

section

variable {α ρ σ β : Type} {R : Session α ρ σ → Session α ρ σ → Prop} {s : Session α ρ σ}

protected theorem getState [IsPreorder (Session α ρ σ) R] :
    Keeps R (Session.getState : Step α ρ σ σ) s where
  ok hok := by
    rw [(Session.getState_eq_ok.1 hok).2]
    exact refl_of R _
  error := nofun

protected theorem modifyState {g : σ → σ} (h : R s (s.withState (g s.state))) :
    Keeps R (Session.modifyState g : Step α ρ σ Unit) s where
  ok hok := by
    rw [← Session.modifyState_eq_ok.1 hok]
    exact h
  error := nofun

protected theorem evaluate (ask : Evaluating α β) (h : ∀ tally, R s (s.withTally tally)) :
    Keeps R (Session.evaluate ask : Step α ρ σ β) s where
  ok hok := by
    obtain ⟨tally, -, rfl⟩ := Session.evaluate_eq_ok.1 hok
    exact h tally
  error herror := by
    unfold Session.evaluate at herror
    split at herror <;> cases herror
    exact h _

protected theorem report (e : Session α ρ σ → Event α ρ) (h : R s (s.happened (e s))) :
    Keeps R (fun s => Session.report (e s) s) s where
  ok hok := by
    cases hok
    exact h
  error := nofun

protected theorem countIteration (h : R s s.withIteration) :
    Keeps R (Session.countIteration : Step α ρ σ Unit) s where
  ok hok := by
    rw [← Session.countIteration_eq_ok.1 hok]
    exact h
  error := nofun

end

end Keeps

end DirectSearch
