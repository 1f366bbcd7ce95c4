import DirectSearch.Merit
import DirectSearch.Proofs.Search.Runs
/-!
# Search — what a run spends

A step asks for evaluations and counts iterations. How many it may ask for,
and how many it counts, is put together from its parts (`Spends`): bounds
of steps made one after the other add up, and they hold for a step that
ends with a fault as well. A method whose iterations ask for at least one
evaluation each (`Method.Spending`) comes to the end of its loop as soon as
a budget of evaluations or of iterations is set, and what it has spent then
is known from the budget (`Method.KeepsBudgets`).
-/

namespace DirectSearch

open Session

/-- How many evaluations of the objective a session has asked for. -/
def Session.asked {α ρ σ : Type} (s : Session α ρ σ) : Nat := s.tally.counters.objective

/-- What a step spends: between `least` and `most` evaluations, and
`turns` iterations. A fault may end it early. -/
structure Spends {α ρ σ β : Type} (act : Step α ρ σ β) (least most turns : Nat) : Prop where
  ok {s t : Session α ρ σ} {b : β} : act s = .ok b t →
    s.asked + least ≤ t.asked ∧ t.asked ≤ s.asked + most ∧ t.iterations = s.iterations + turns
  error {s t : Session α ρ σ} {fault : Fault} : act s = .error fault t →
    t.asked ≤ s.asked + most ∧ t.iterations ≤ s.iterations + turns

/-- A computation that leaves the count of the objective alone. -/
structure Counting.SparesObjective {β : Type} (act : Counting β) : Prop where
  ok {c d : Counters} {b : β} : act c = .ok b d → d.objective = c.objective
  error {c d : Counters} {fault : Fault} : act c = .error fault d → d.objective = c.objective

namespace Counting.SparesObjective

variable {β γ : Type} {act : Counting β} {f : β → Counting γ}

theorem bind (h₁ : act.SparesObjective) (h₂ : ∀ b, (f b).SparesObjective) :
    Counting.SparesObjective (act >>= f) := by
  constructor
  · intro c d b h
    obtain ⟨a, u, hact, hf⟩ := bind_eq_ok.1 h
    exact ((h₂ a).ok hf).trans (h₁.ok hact)
  · intro c d fault h
    rcases bind_eq_error.1 h with hact | ⟨a, u, hact, hf⟩
    · exact h₁.error hact
    · exact ((h₂ a).error hf).trans (h₁.ok hact)

protected theorem demand (e : Except Fault β) :
    Counting.SparesObjective (demand e) := by
  constructor
  · intro c d b h
    rw [(demand_eq_ok.1 h).2]
  · intro c d fault h
    rw [(demand_eq_error.1 h).2]

protected theorem pure (b : β) : Counting.SparesObjective (pure b) := .demand (.ok b)

end Counting.SparesObjective

namespace Problem

variable {α : Type} {n : Nat}

theorem sparesObjective_constraintsOf (p : Problem α n) (x : Grid α) :
    (p.constraintsOf x).SparesObjective := by
  constructor
  all_goals
    intro c d b h
    simp only [constraintsOf] at h
    split at h
  · cases h
  · split at h
    · cases h
    · split at h
      · cases h
        rfl
      · cases h
  · cases h
    rfl
  · split at h
    · cases h
      rfl
    · split at h
      · cases h
      · cases h
        rfl

theorem sparesObjective_violationOf [Scalar α] (p : Problem α n) (x : Grid α) :
    (p.violationOf x).SparesObjective := by
  unfold violationOf
  split
  · exact .pure _
  · refine .bind (.demand _) fun bounds => ?_
    split
    · exact .pure _
    · exact .bind (p.sparesObjective_constraintsOf x) fun values =>
        .bind (.demand _) fun excess => .pure _

end Problem

namespace Spends

variable {α ρ σ β γ : Type} {act : Step α ρ σ β} {f : β → Step α ρ σ γ}
variable {least most turns l₁ m₁ t₁ : Nat}

/-! ## One step after another -/

theorem mono (h : Spends act l₁ m₁ turns) (hleast : least ≤ l₁) (hmost : m₁ ≤ most) :
    Spends act least most turns := by
  constructor
  · intro s t b hact
    have := h.ok hact
    omega
  · intro s t fault hact
    have := h.error hact
    omega

/-- What two steps spend adds up. -/
theorem bind (h₁ : Spends act l₁ m₁ t₁) (l₂ m₂ t₂ : Nat) (h₂ : ∀ b, Spends (f b) l₂ m₂ t₂) :
    Spends (act >>= f) (l₁ + l₂) (m₁ + m₂) (t₁ + t₂) := by
  constructor
  · intro s t c h
    obtain ⟨b, u, hact, hf⟩ := bind_eq_ok.1 h
    have hfirst := h₁.ok hact
    have hsecond := (h₂ b).ok hf
    omega
  · intro s t fault h
    rcases bind_eq_error.1 h with hact | ⟨b, u, hact, hf⟩
    · have hfirst := h₁.error hact
      omega
    · have hfirst := h₁.ok hact
      have hsecond := (h₂ b).error hf
      omega

/-- A step in front that spends nothing. -/
theorem bind_free (h₁ : Spends act 0 0 0) (h₂ : ∀ b, Spends (f b) least most turns) :
    Spends (act >>= f) least most turns := by
  simpa only [Nat.zero_add] using h₁.bind _ _ _ h₂

/-- Nothing is spent behind a step. -/
theorem then_free (h₁ : Spends act least most turns) (h₂ : ∀ b, Spends (f b) 0 0 0) :
    Spends (act >>= f) least most turns := by
  simpa only [Nat.add_zero] using h₁.bind _ _ _ h₂

/-- A step that is made or left out. -/
theorem ite {c : Prop} [Decidable c] {act' : Step α ρ σ β} (h : c → Spends act least most turns)
    (h' : ¬c → Spends act' least most turns) :
    Spends (if c then act else act') least most turns := by
  by_cases hc : c
  · rw [if_pos hc]
    exact h hc
  · rw [if_neg hc]
    exact h' hc

/-! ## The parts of a search -/

protected theorem pure (b : β) : Spends (pure b : Step α ρ σ β) 0 0 0 := by
  constructor
  · intro s t c h
    obtain ⟨-, rfl⟩ := pure_eq_ok.1 h
    omega
  · exact nofun

protected theorem demand (e : Except Fault β) : Spends (demand e : Step α ρ σ β) 0 0 0 := by
  cases e with
  | ok b => exact .pure b
  | error fault =>
    constructor
    · exact nofun
    · rintro s t _ ⟨⟩
      omega

protected theorem getState : Spends (getState : Step α ρ σ σ) 0 0 0 := by
  constructor
  · rintro s t _ ⟨⟩
    omega
  · exact nofun

protected theorem modifyState (g : σ → σ) :
    Spends (modifyState g : Step α ρ σ Unit) 0 0 0 := by
  constructor
  · rintro s t _ ⟨⟩
    simp [asked]
  · exact nofun

/-- An event may depend on the session it is reported from. -/
protected theorem report (e : Session α ρ σ → Event α ρ) :
    Spends (fun s => report (e s) s) 0 0 0 := by
  constructor
  · rintro s t _ ⟨⟩
    simp [asked, happened]
  · exact nofun

protected theorem draw (directions : Nat → Except Fault (Grid α)) :
    Spends (draw directions : Step α ρ σ (Grid α)) 0 0 0 := by
  constructor
  · intro s t q h
    obtain ⟨-, rfl⟩ := draw_eq_ok.1 h
    simp [asked, withDraw]
  · intro s t fault h
    unfold draw at h
    split at h
    · cases h
    · cases h
      omega

protected theorem countIteration : Spends (countIteration : Step α ρ σ Unit) 0 0 1 := by
  constructor
  · rintro s t _ ⟨⟩
    simp [asked]
  · exact nofun

/-! ## Evaluations -/

section

variable {n : Nat} {p : Problem α n} {ask : Evaluating α β} {g : β → Evaluating α γ}

/-- An evaluation asked for is one, whether or not it returns. -/
protected theorem objectiveAt (p : Problem α n) (x : Grid α) :
    Spends (evaluate (p.objectiveAt x) : Step α ρ σ α) 1 1 0 := by
  constructor
  · intro s t v h
    obtain ⟨tally, hv, rfl⟩ := evaluate_eq_ok.1 h
    obtain ⟨-, rfl⟩ := Problem.objectiveAt_eq_ok.1 hv
    simp [asked, withTally, Counters.askObjective]
  · intro s t fault h
    simp only [evaluate, Problem.objectiveAt, Problem.objectiveOf] at h
    cases hv : p.objective s.tally.counters.askObjective x with
    | ok v =>
      simp only [hv] at h
      cases h
    | error fault =>
      simp only [hv] at h
      cases h
      simp [asked, Counters.askObjective]

theorem evaluate_pure (b : β) : Spends (evaluate (pure b) : Step α ρ σ β) 0 0 0 := .pure b

theorem evaluate_demand (e : Except Fault β) :
    Spends (evaluate (demand e) : Step α ρ σ β) 0 0 0 := by
  cases e with
  | ok b => exact .pure b
  | error fault => exact .demand (.error fault)

/-- Evaluations one after the other are steps one after the other. -/
theorem evaluate_bind (h : Spends (evaluate ask >>= fun b => evaluate (g b) : Step α ρ σ γ)
    least most turns) : Spends (evaluate (ask >>= g) : Step α ρ σ γ) least most turns := by
  have heq : (evaluate (ask >>= g) : Step α ρ σ γ)
      = evaluate ask >>= fun b => evaluate (g b) := by
    funext s
    change evaluate (EStateM.bind ask g) s = EStateM.bind (evaluate ask) _ s
    simp only [evaluate, EStateM.bind]
    cases ask s.tally with
    | ok b tally => rfl
    | error fault tally => rfl
  rw [heq]
  exact h

/-- What is made of the result costs nothing. -/
theorem of_evaluate_map {g : β → γ} (h : Spends (evaluate (g <$> ask) : Step α ρ σ γ)
    least most turns) : Spends (evaluate ask : Step α ρ σ β) least most turns := by
  have heq (t : Tally α) : (g <$> ask) t = EStateM.map g ask t := rfl
  constructor
  · intro s t b hask
    obtain ⟨tally, htally, rfl⟩ := evaluate_eq_ok.1 hask
    exact h.ok (b := g b) (evaluate_eq_ok.2 ⟨tally, by rw [heq, EStateM.map, htally], rfl⟩)
  · intro s t fault hask
    refine h.error (show evaluate (g <$> ask) s = .error fault t from ?_)
    simp only [evaluate, heq, EStateM.map] at hask ⊢
    cases htally : ask s.tally with
    | ok b tally =>
      simp only [htally] at hask
      cases hask
    | error fault tally =>
      simp only [htally] at hask ⊢
      cases hask
      rfl

/-- What does not ask for the objective costs nothing here. -/
protected theorem inSearch {act : Counting β} (h : act.SparesObjective) :
    Spends (evaluate act.inSearch : Step α ρ σ β) 0 0 0 := by
  constructor
  · intro s t b hact
    obtain ⟨tally, hb, rfl⟩ := evaluate_eq_ok.1 hact
    obtain ⟨counters, hcounters, rfl⟩ := Counting.inSearch_eq_ok.1 hb
    simp [asked, withTally, h.ok hcounters]
  · intro s t fault hact
    simp only [evaluate, Counting.inSearch] at hact
    cases hcounters : act s.tally.counters with
    | ok b counters =>
      simp only [hcounters] at hact
      cases hact
    | error fault counters =>
      simp only [hcounters] at hact
      cases hact
      simp [asked, h.error hcounters]

/-- An appraisal is one evaluation, whatever the constraints are. -/
protected theorem appraise [Scalar α] (p : Problem α n) (w : α) (x : Point α n) :
    Spends (evaluate (p.appraise w x) : Step α ρ σ (Appraisal α n)) 1 1 0 := by
  refine evaluate_bind ((Spends.objectiveAt p _).then_free fun f => ?_)
  exact evaluate_bind ((Spends.inSearch (p.sparesObjective_violationOf _)).bind_free
    fun v => evaluate_pure _)

end

end Spends

namespace Method

variable {α : Type} [Scalar α] {n : Nat} {ρ σ ι : Type} {m : Method α n ρ σ ι} {clock : Nat → α}
variable {d : Desk α ρ} {s t : Session α ρ σ} {fault : Fault} {fuel first most : Nat}

/-! ## The loop -/

/-- **An invariant of the loop.** It is kept by every turn made before the
loop ends; a turn that fails need only keep what is said of a fault. -/
theorem loop_invariant {I J : Session α ρ σ → Prop} (hweak : ∀ s, I s → J s)
    (hok : ∀ s t, I s → m.finished s = .ok false → m.turn clock s = .ok () t → I t)
    (herror : ∀ s t fault, I s → m.finished s = .ok false →
      m.turn clock s = .error fault t → J t) (hs : I s) :
    (∀ b t, m.loop clock fuel s = .ok b t → I t) ∧
      ∀ fault t, m.loop clock fuel s = .error fault t → J t := by
  induction fuel generalizing s with
  | zero =>
    constructor
    · intro b t hloop
      obtain ⟨-, rfl⟩ := demand_eq_ok.1 hloop
      exact hs
    · intro fault t hloop
      obtain ⟨-, rfl⟩ := demand_eq_error.1 hloop
      exact hweak _ hs
  | succ fuel ih =>
    unfold loop
    split
    · constructor
      · rintro _ _ ⟨⟩
      · rintro _ _ ⟨⟩
        exact hweak _ hs
    · constructor
      · rintro _ _ ⟨⟩
        exact hs
      · rintro _ _ ⟨⟩
    · rename_i hgoes
      split
      · rename_i hturn
        constructor
        · rintro _ _ ⟨⟩
        · rintro _ _ ⟨⟩
          exact herror _ _ _ hs hgoes hturn
      · rename_i hturn
        exact ih (hok _ _ hs hgoes hturn)

/-- **The loop ends** if every turn brings a count nearer to a limit, and
the limit ends the loop. -/
theorem loop_ends (count : Session α ρ σ → Int) (limit : Int)
    (hturn : ∀ s t, m.turn clock s = .ok () t → count s + 1 ≤ count t)
    (hlimit : ∀ s, limit ≤ count s → m.finished s ≠ .ok false) (hfuel : limit ≤ count s + fuel) :
    m.loop clock fuel s ≠ .ok false t := by
  induction fuel generalizing s with
  | zero =>
    intro hloop
    exact hlimit s (by omega) (demand_eq_ok.1 hloop).1
  | succ fuel ih =>
    unfold loop
    split
    · rintro ⟨⟩
    · rintro ⟨⟩
    · split
      · rintro ⟨⟩
      · rename_i hturn'
        have := hturn _ _ hturn'
        exact ih (by omega)

/-! ## Methods -/

/-- What a method spends: `first` evaluations for its first state, and one
to `most` for an iteration, which it counts once. -/
structure Spending (m : Method α n ρ σ ι) (first most : Nat) : Prop where
  initial : Spends m.initial first first 0
  iterate : Spends m.iterate 1 most 1

/-- **A method keeps its budgets** in every run from a desk: what its start
and its turns spend, and where a budget of evaluations or of iterations ends
it, however much more fuel it has. -/
structure KeepsBudgets (m : Method α n ρ σ ι) (clock : Nat → α) (d : Desk α ρ)
    (first most : Nat) : Prop where
  start {s : Session α ρ σ} : m.start clock d = .ok s →
    s.asked = d.asked + first ∧ s.iterations = 0
  turn {s t : Session α ρ σ} : m.turn clock s = .ok () t →
    s.asked + 1 ≤ t.asked ∧ t.asked ≤ s.asked + most ∧ t.iterations = s.iterations + 1
  report {fuel : Nat} {report : Report α n ρ} {d' : Desk α ρ} :
    m.run clock fuel d = some ⟨.ok report, d'⟩ →
      report.iterations = d'.iterations ∧ report.objectiveCount = d'.asked
  evaluations {limit : Int} : 0 ≤ limit → m.budgets.evaluations = .ok (some (.whole limit)) →
    ∀ fuel : Nat, limit - d.asked - first ≤ fuel → ∃ ended, m.run clock fuel d = some ended ∧
      ended.desk.iterations ≤ max 0 (limit - d.asked - first) ∧
      ended.desk.asked ≤ max ((d.asked : Int) + first) (limit + most - 1)
  iterations {limit : Int} : 0 ≤ limit → m.budgets.iterations = .ok (some (.whole limit)) →
    ∀ fuel : Nat, limit ≤ fuel → ∃ ended, m.run clock fuel d = some ended ∧
      ended.desk.iterations ≤ limit

/-- A limit of evaluations that is reached ends the loop. -/
theorem finished_ne_of_evaluations {limit : Int} (hlimit : 0 ≤ limit)
    (hbudget : m.budgets.evaluations = .ok (some (.whole limit))) (hs : limit ≤ s.asked) :
    m.finished s ≠ .ok false := by
  have hspent : m.exhausted s = .ok true := by
    have hcount : m.budgets.evaluationsSpent s.tally.counters.objective = .ok true := by
      change limit ≤ (s.tally.counters.objective : Int) at hs
      simp [Budgets.evaluationsSpent, hbudget, Except.map, isSpent, hlimit, hs]
    simp only [exhausted, Budgets.spent, hcount]
    rfl
  simp only [finished, hspent, ne_eq, except_bind_eq_ok, except_pure_eq_ok]
  rintro ⟨settled, -, _, ⟨⟩, h⟩
  simp at h

/-- A limit of iterations that is reached ends the loop. -/
theorem finished_ne_of_iterations {limit : Int} (hlimit : 0 ≤ limit)
    (hbudget : m.budgets.iterations = .ok (some (.whole limit))) (hs : limit ≤ s.iterations) :
    m.finished s ≠ .ok false := by
  have hcount : m.budgets.iterationsSpent s.iterations = .ok true := by
    simp [Budgets.iterationsSpent, hbudget, Except.map, isSpent, hlimit, hs]
  simp only [finished, exhausted, Budgets.spent, ne_eq, except_bind_eq_ok, except_pure_eq_ok]
  rintro ⟨settled, -, spent, ⟨_, -, hspent⟩, h⟩
  obtain ⟨-, rfl⟩ := Bool.or_eq_false_iff.1 h
  split at hspent
  · cases hspent
  · obtain ⟨_, -, hspent⟩ := except_bind_eq_ok.1 hspent
    split at hspent
    · cases hspent
    · cases hcount.symm.trans hspent

namespace Spending

variable (h : m.Spending first most)

include h

theorem start (hs : m.start clock d = .ok s) : s.asked = d.asked + first ∧ s.iterations = 0 := by
  obtain ⟨d', hd', htally, hiterations⟩ := exists_initial hs
  have hfirst := h.initial.ok hd'
  have hasked : s.asked = d'.asked := congrArg (·.counters.objective) htally
  have hopened : (d.openJournal clock).asked = d.asked := rfl
  have hzero : (d.openJournal clock).iterations = 0 := rfl
  omega

theorem start_error {d' : Desk α ρ} (hs : m.start clock d = .error (fault, d')) :
    d'.asked ≤ d.asked + first ∧ d'.iterations ≤ 0 := by
  unfold Method.start at hs
  split at hs
  · rename_i hinitial
    cases hs
    exact h.initial.error hinitial
  · cases hs

theorem turn : Spends (m.turn clock) 1 most 1 := by
  constructor
  all_goals
    intro s t _ hturn
    unfold Method.turn at hturn
    split at hturn
  · cases hturn
  · rename_i i u hiterate
    cases hturn
    exact (h.iterate.ok hiterate : s.asked + 1 ≤ u.asked ∧ u.asked ≤ s.asked + most ∧ _)
  · rename_i hiterate
    cases hturn
    exact h.iterate.error hiterate
  · cases hturn

/-- A run ends where its loop does, and leaves what the loop has left. -/
theorem exists_ended {Q : Nat → Int → Prop} (hstart : ∀ a i, a ≤ d.asked + first → i ≤ 0 → Q a i)
    (hends : ∀ s t, m.start clock d = .ok s → m.loop clock fuel s ≠ .ok false t)
    (hok : ∀ s b t, m.start clock d = .ok s → m.loop clock fuel s = .ok b t →
      Q t.asked t.iterations)
    (herror : ∀ s fault t, m.start clock d = .ok s → m.loop clock fuel s = .error fault t →
      Q t.asked t.iterations) :
    ∃ ended, m.run clock fuel d = some ended ∧ Q ended.desk.asked ended.desk.iterations := by
  unfold run
  split
  · rename_i hs
    obtain ⟨hasked, hiterations⟩ := h.start_error hs
    exact ⟨_, rfl, hstart _ _ hasked hiterations⟩
  · rename_i s hs
    split
    · rename_i hloop
      exact ⟨_, rfl, herror _ _ _ hs hloop⟩
    · rename_i hloop
      exact absurd hloop (hends _ _ hs)
    · rename_i t hloop
      have hq := hok _ _ _ hs hloop
      unfold close
      cases m.exhausted t >>= m.verdict t with
      | error fault => exact ⟨_, rfl, hq⟩
      | ok status => exact ⟨_, rfl, hq⟩

/-- A session before the loop ends on its evaluations, all of them counted
from the start: it has asked once for every iteration at least. -/
theorem loop_evaluations {limit : Int} (hlimit : 0 ≤ limit)
    (hbudget : m.budgets.evaluations = .ok (some (.whole limit)))
    (hs : m.start clock d = .ok s) :
    (∀ b t, m.loop clock fuel s = .ok b t →
        t.iterations ≤ max 0 (limit - d.asked - first) ∧
          t.asked ≤ max ((d.asked : Int) + first) (limit + most - 1) ∧
          d.asked + first + t.iterations ≤ t.asked) ∧
      ∀ fault t, m.loop clock fuel s = .error fault t →
        t.iterations ≤ max 0 (limit - d.asked - first) ∧
          t.asked ≤ max ((d.asked : Int) + first) (limit + most - 1) := by
  have hgoes {s : Session α ρ σ} (hs : m.finished s = .ok false) : s.asked < limit :=
    Int.not_le.1 fun hreached => finished_ne_of_evaluations hlimit hbudget hreached hs
  -- a turn is made only below the limit, and so ends less than `most` above it
  refine loop_invariant (fun _ hI => ⟨hI.1, hI.2.1⟩) ?_ ?_ ?_
  · rintro s t ⟨-, -, hcount⟩ hs ht
    have hspent := h.turn.ok ht
    have hbelow := hgoes hs
    omega
  · rintro s t fault ⟨-, -, hcount⟩ hs ht
    have hspent := h.turn.error ht
    have hbelow := hgoes hs
    omega
  · have hstart := h.start hs
    omega

/-- The same for its iterations. -/
theorem loop_iterations {limit : Int} (hlimit : 0 ≤ limit)
    (hbudget : m.budgets.iterations = .ok (some (.whole limit)))
    (hs : m.start clock d = .ok s) :
    (∀ b t, m.loop clock fuel s = .ok b t → t.iterations ≤ limit) ∧
      ∀ fault t, m.loop clock fuel s = .error fault t → t.iterations ≤ limit := by
  have hgoes {s : Session α ρ σ} (hs : m.finished s = .ok false) : s.iterations < limit :=
    Int.not_le.1 fun hreached => finished_ne_of_iterations hlimit hbudget hreached hs
  refine loop_invariant (fun _ hI => hI) ?_ ?_ ?_
  · intro s t _ hs ht
    have hspent := h.turn.ok ht
    have hbelow := hgoes hs
    omega
  · intro s t fault _ hs ht
    have hspent := h.turn.error ht
    have hbelow := hgoes hs
    omega
  · have hstart := h.start hs
    omega

/-- **Such a method keeps its budgets.** -/
theorem keepsBudgets : m.KeepsBudgets clock d first most where
  start := h.start
  turn := h.turn.ok
  report := by
    intro fuel report d' hrun
    obtain ⟨s, status, -, rfl, rfl⟩ := exists_reaches_of_run hrun
    exact ⟨rfl, rfl⟩
  evaluations := by
    intro limit hlimit hbudget fuel hfuel
    refine h.exists_ended (Q := fun asked iterations =>
      iterations ≤ max 0 (limit - d.asked - first) ∧
        asked ≤ max ((d.asked : Int) + first) (limit + most - 1)) ?_ ?_ ?_ ?_
    · intro asked iterations hasked hiterations
      omega
    · intro s t hs
      have hstart := h.start hs
      refine loop_ends (fun s => s.asked) limit ?_ ?_ (by omega)
      · intro s t ht
        have hspent := h.turn.ok ht
        omega
      · exact fun s => finished_ne_of_evaluations hlimit hbudget
    · intro s b t hs ht
      obtain ⟨hiterations, hasked, -⟩ := (h.loop_evaluations hlimit hbudget hs).1 b t ht
      exact ⟨hiterations, hasked⟩
    · intro s fault t hs ht
      exact (h.loop_evaluations hlimit hbudget hs).2 fault t ht
  iterations := by
    intro limit hlimit hbudget fuel hfuel
    refine h.exists_ended (Q := fun _ iterations => iterations ≤ limit) ?_ ?_
      (fun s b t hs => (h.loop_iterations hlimit hbudget hs).1 b t)
      (fun s fault t hs => (h.loop_iterations hlimit hbudget hs).2 fault t)
    · intro asked iterations _ hiterations
      omega
    · intro s t hs
      have hstart := h.start hs
      refine loop_ends (fun s => s.iterations) limit ?_ ?_ (by omega)
      · intro s t ht
        have hspent := h.turn.ok ht
        omega
      · exact fun s => finished_ne_of_iterations hlimit hbudget

end Spending

end Method

end DirectSearch
