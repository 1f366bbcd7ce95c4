import DirectSearch.Proofs.Search.Runs
import Mathlib.Data.List.Forall2
/-!
# Search — two runs side by side

What a search does may depend on less than it is given. That is a statement
about two runs: made side by side, they take the same course. Two steps are
`Beside` each other if from states that are related they either both end,
with related values and states again, or end with the same fault. The parts
of a step are put beside their likes one after the other, and nothing else is
said of how the two went.

A `Pairing` says at which points the two runs may be at one time, which values
they may see there, and what each of them found done at its desk: evaluations,
and directions drawn. Two
sessions are `Level` if all that they have done since is paired. Methods that
are `Twins` stay level in every turn (`Twins.turn`), so that every session of
one run has its like in the other (`Twins.reaches`), and the two runs end
alike (`Twins.run`).
-/

namespace DirectSearch

open Session

/-! ## Steps -/

section

variable {β β' γ γ' ς ς' : Type}

/-- Both values are there, and related, or both computations end with one
fault. -/
inductive Agree (P : β → β' → Prop) : Except Fault β → Except Fault β' → Prop
  | ok {b : β} {b' : β'} : P b b' → Agree P (.ok b) (.ok b')
  | error (fault : Fault) : Agree P (.error fault) (.error fault)

/-- The same for results that come with a state. After a fault another
relation may hold of the states. -/
inductive Meet (P : β → β' → Prop) (R E : ς → ς' → Prop) :
    EStateM.Result Fault ς β → EStateM.Result Fault ς' β' → Prop
  | ok {b : β} {b' : β'} {t : ς} {t' : ς'} : P b b' → R t t' → Meet P R E (.ok b t) (.ok b' t')
  | error (fault : Fault) {t : ς} {t' : ς'} : E t t' → Meet P R E (.error fault t) (.error fault t')

/-- **Two steps side by side:** what is related before is related behind. -/
def Beside (R : ς → ς' → Prop) (act : EStateM Fault ς β) (act' : EStateM Fault ς' β')
    (P : β → β' → Prop) (R' E : ς → ς' → Prop) : Prop :=
  ∀ s s', R s s' → Meet P R' E (act s) (act' s')

theorem Agree.refl (e : Except Fault β) : Agree Eq e e := by
  cases e with
  | ok b => exact .ok rfl
  | error fault => exact .error fault

theorem Agree.of_eq {e e' : Except Fault β} (h : e' = e) : Agree Eq e e' := h ▸ .refl e

theorem Agree.imp {P Q : β → β' → Prop} {e : Except Fault β} {e' : Except Fault β'}
    (h : Agree P e e') (hPQ : ∀ b b', P b b' → Q b b') : Agree Q e e' := by
  cases h with
  | ok hb => exact .ok (hPQ _ _ hb)
  | error fault => exact .error fault

namespace Beside

variable {R S R' E : ς → ς' → Prop} {P : β → β' → Prop} {Q : γ → γ' → Prop}
variable {act : EStateM Fault ς β} {act' : EStateM Fault ς' β'}
variable {f : β → EStateM Fault ς γ} {f' : β' → EStateM Fault ς' γ'}

theorem bind (h : Beside R act act' P S E)
    (hf : ∀ b b', P b b' → Beside S (f b) (f' b') Q R' E) :
    Beside R (act >>= f) (act' >>= f') Q R' E := by
  intro s s' hs
  change Meet Q R' E (EStateM.bind act f s) (EStateM.bind act' f' s')
  have hmeet := h s s' hs
  unfold EStateM.bind
  generalize act s = r, act' s' = r' at hmeet
  cases hmeet with
  | ok hb ht => exact hf _ _ hb _ _ ht
  | error fault ht => exact .error fault ht

protected theorem pure {b : β} {b' : β'} (h : P b b') :
    Beside R (pure b) (pure b') P R E := fun _ _ hs => .ok h hs

protected theorem demand {e : Except Fault β} {e' : Except Fault β'} (h : Agree P e e')
    (hE : ∀ s s', R s s' → E s s') : Beside R (demand e) (demand e') P R E := by
  intro s s' hs
  cases h with
  | ok hb => exact .ok hb hs
  | error fault => exact .error fault (hE s s' hs)

/-- Both steps take the same branch. -/
theorem ite {c c' : Prop} [Decidable c] [Decidable c'] {act₂ : EStateM Fault ς β}
    {act₂' : EStateM Fault ς' β'} (hc : c ↔ c') (h : c → Beside R act act' P R' E)
    (h₂ : ¬c → Beside R act₂ act₂' P R' E) :
    Beside R (if c then act else act₂) (if c' then act' else act₂') P R' E := by
  by_cases hyes : c
  · rw [if_pos hyes, if_pos (hc.1 hyes)]
    exact h hyes
  · rw [if_neg hyes, if_neg fun hyes' => hyes (hc.2 hyes')]
    exact h₂ hyes

/-- Less is said of the values. -/
theorem mono {P' : β → β' → Prop} (h : Beside R act act' P R' E)
    (hP : ∀ b b', P b b' → P' b b') : Beside R act act' P' R' E := by
  intro s s' hs
  have hmeet := h s s' hs
  generalize act s = r, act' s' = r' at hmeet ⊢
  cases hmeet with
  | ok hb ht => exact .ok (hP _ _ hb) ht
  | error fault ht => exact .error fault ht

end Beside

end

/-! ## Sessions -/

/-- What the steps of a search leave alone: the clock of the run and the
journal. -/
structure Session.Frame (α ρ : Type) where
  journal : Journal α ρ
  clockReadings : Nat
  started : α
  elapsed : α

/-- The frame of a session. -/
def Session.frame {α ρ σ : Type} (s : Session α ρ σ) : Session.Frame α ρ :=
  ⟨s.journal, s.clockReadings, s.started, s.elapsed⟩

namespace Session

variable {α ρ σ : Type} [Scalar α] {s : Session α ρ σ} {clock : Nat → α} {entry : ρ}

/-- A row is one more record in the history. -/
theorem history_sendRow : (s.sendRow clock entry).journal.history =
    s.journal.history.push ⟨entry, clock s.journalReadings - s.journal.opened⟩ := by
  by_cases hdue : (s.journal.keep entry (clock s.journalReadings)).1.isHeaderDue
  · simp only [sendRow, Journal.add, hdue]
    rfl
  · simp only [sendRow, Journal.add, hdue]
    rfl

@[simp] theorem history_readClock : (s.readClock clock).journal = s.journal := rfl

end Session

/-- How the evaluations and directions of one run are paired with those of
another. -/
structure Pairing (α : Type) where
  /-- Which arrays the two may be at; the same ones unless said otherwise. -/
  points : Grid α → Grid α → Prop := fun x x' => x' = x
  /-- Which values the two may have where the first is at an array. -/
  values : Grid α → α → α → Prop
  /-- By how many evaluations of the objective the second is ahead. -/
  objective : Nat
  /-- By how many evaluations of the constraints. -/
  constraint : Nat
  /-- By how many directions. -/
  drawn : Nat
  /-- What the first has found on record. -/
  before : List (Evaluation α)
  /-- What the second has found on record. -/
  before' : List (Evaluation α)

namespace Pairing

variable {α : Type} (A : Pairing α)

/-- The counters of the second run, by those of the first. -/
def counters (c : Counters) : Counters :=
  ⟨A.objective + c.objective, A.constraint + c.constraint⟩

/-- An evaluation of either run. -/
structure Evaluations (e e' : Evaluation α) : Prop where
  point : A.points e.point e'.point
  value : A.values e.point e.value e'.value

/-- The tallies of the two runs. -/
structure Tallies (t t' : Tally α) : Prop where
  counters : t'.counters = A.counters t.counters
  evaluations : ∃ es es', t.evaluations.toList = A.before ++ es ∧
    t'.evaluations.toList = A.before' ++ es' ∧ List.Forall₂ A.Evaluations es es'

/-- What has been evaluated since the desks. -/
theorem Tallies.evaluationsSince {A : Pairing α} {ρ σ : Type} {d d' : Desk α ρ}
    {s s' : Session α ρ σ} (h : A.Tallies s.tally s'.tally)
    (hbefore : A.before = d.tally.evaluations.toList)
    (hbefore' : A.before' = d'.tally.evaluations.toList) :
    List.Forall₂ A.Evaluations (s.evaluationsSince d) (s'.evaluationsSince d') := by
  obtain ⟨es, es', hes, hes', hpaired⟩ := h.evaluations
  have hdrop : s.evaluationsSince d = es := by
    rw [Session.evaluationsSince, hes, hbefore, ← Array.length_toList]
    exact List.drop_left
  have hdrop' : s'.evaluationsSince d' = es' := by
    rw [Session.evaluationsSince, hes', hbefore', ← Array.length_toList]
    exact List.drop_left
  rw [hdrop, hdrop']
  exact hpaired

/-- What is known of two sessions after a fault. -/
def Stopped {ρ σ : Type} (s s' : Session α ρ σ) : Prop := A.Tallies s.tally s'.tally

/-- The sessions of the two runs in the course of a step, between two known
frames. -/
structure Sessions {ρ σ : Type} (S : σ → σ → Prop) (f f' : Session.Frame α ρ) (k : Int)
    (s s' : Session α ρ σ) : Prop where
  tally : A.Tallies s.tally s'.tally
  state : S s.state s'.state
  drawn : s'.drawn = A.drawn + s.drawn
  frame : s.frame = f
  frame' : s'.frame = f'
  iterations : s.iterations = k
  iterations' : s'.iterations = k

variable {A} {n : Nat} {ρ σ β : Type} {P : β → β → Prop}

/-! ### Evaluations -/

/-- The objectives of two problems pair their values. -/
def Objectives (A : Pairing α) (p p' : Problem α n) : Prop :=
  ∀ x x' c, A.points x x' → Agree (A.values x) (p.objective c x) (p'.objective (A.counters c) x')

theorem Objectives.beside {p p' : Problem α n} (h : A.Objectives p p') {x x' : Grid α}
    (hx : A.points x x') :
    Beside A.Tallies (p.objectiveAt x) (p'.objectiveAt x') (A.values x) A.Tallies A.Tallies := by
  rintro t t' ⟨hcounters, es, es', hes, hes', hpaired⟩
  have hasked : t'.counters.askObjective = A.counters t.counters.askObjective := by
    rw [hcounters]
    rfl
  have hagree := h x x' t.counters.askObjective hx
  simp only [Problem.objectiveAt, Problem.objectiveOf, hasked]
  generalize p.objective t.counters.askObjective x = v,
    p'.objective (A.counters t.counters.askObjective) x' = v' at hagree
  cases hagree with
  | @ok w w' hv =>
    refine .ok hv ⟨rfl, es ++ [⟨x, w⟩], es' ++ [⟨x', w'⟩], by simp [hes], by simp [hes'], ?_⟩
    exact List.rel_append hpaired (.cons ⟨hx, hv⟩ .nil)
  | error fault => exact .error fault ⟨rfl, es, es', hes, hes', hpaired⟩

/-- Whatever else is asked for is counted only. -/
theorem beside_inSearch {act act' : Counting β}
    (h : Beside (fun c c' => c' = A.counters c) act act' P (fun c c' => c' = A.counters c)
      fun c c' => c' = A.counters c) :
    Beside A.Tallies act.inSearch act'.inSearch P A.Tallies A.Tallies := by
  rintro t t' ⟨hcounters, hevaluations⟩
  have hmeet := h t.counters t'.counters hcounters
  unfold Counting.inSearch
  generalize act t.counters = r, act' t'.counters = r' at hmeet
  cases hmeet with
  | ok hb hc => exact .ok hb ⟨hc, hevaluations⟩
  | error fault hc => exact .error fault ⟨hc, hevaluations⟩

/-! ### The parts of a step -/

section

variable {S T : σ → σ → Prop} {f f' : Session.Frame α ρ} {k : Int}

theorem beside_evaluate {act act' : Evaluating α β}
    (h : Beside A.Tallies act act' P A.Tallies A.Tallies) :
    Beside (A.Sessions S f f' k) (evaluate act) (evaluate act') P (A.Sessions S f f' k)
      A.Stopped := by
  intro s s' hs
  have hmeet := h _ _ hs.tally
  unfold evaluate
  generalize act s.tally = r, act' s'.tally = r' at hmeet
  cases hmeet with
  | ok hb ht => exact .ok hb { hs with tally := ht }
  | error fault ht => exact .error fault ht

theorem beside_demand {e e' : Except Fault β} (h : Agree P e e') :
    Beside (A.Sessions S f f' k) (demand e) (demand e') P (A.Sessions S f f' k) A.Stopped :=
  .demand h fun _ _ hs => hs.tally

theorem beside_getState :
    Beside (A.Sessions S f f' k) getState getState S (A.Sessions S f f' k) A.Stopped :=
  fun _ _ hs => .ok hs.state hs

theorem beside_modifyState {g g' : σ → σ} (h : ∀ st st', S st st' → T (g st) (g' st')) :
    Beside (A.Sessions S f f' k) (modifyState g) (modifyState g') (fun _ _ => True)
      (A.Sessions T f f' k) A.Stopped :=
  fun _ _ hs => .ok trivial { hs with state := h _ _ hs.state }

/-- The events of the two runs are not compared. -/
theorem beside_report (e e' : Session α ρ σ → Event α ρ) :
    Beside (A.Sessions S f f' k) (fun s => report (e s) s) (fun s => report (e' s) s)
      (fun _ _ => True) (A.Sessions S f f' k) A.Stopped :=
  fun _ _ hs => .ok trivial { hs with }

theorem beside_draw {directions directions' : Nat → Except Fault (Grid α)}
    (h : ∀ j, directions' (A.drawn + j) = directions j) :
    Beside (A.Sessions S f f' k) (draw directions) (draw directions') Eq (A.Sessions S f f' k)
      A.Stopped := by
  intro s s' hs
  have hdirection : directions' s'.drawn = directions s.drawn := hs.drawn ▸ h s.drawn
  unfold draw
  rw [hdirection]
  cases directions s.drawn with
  | ok q => exact .ok rfl { hs with drawn := congrArg (· + 1) hs.drawn }
  | error fault => exact .error fault hs.tally

theorem beside_countIteration :
    Beside (A.Sessions S f f' k) countIteration countIteration (fun _ _ => True)
      (A.Sessions S f f' (k + 1)) A.Stopped :=
  fun _ _ hs => .ok trivial
    { hs with
      iterations := congrArg (· + 1) hs.iterations, iterations' := congrArg (· + 1) hs.iterations' }

end

end Pairing

/-! ## Methods -/

/-- Of two runs that end alike, if one ends with a report, so does the
other. -/
theorem exists_report_beside {α : Type} {n : Nat} {ρ : Type} {R : Ended α n ρ → Ended α n ρ → Prop}
    {Q : Report α n ρ → Report α n ρ → Prop} {o o' : Option (Ended α n ρ)} (h : Option.Rel R o o')
    (hR : ∀ ended ended', R ended ended' → Agree Q ended.result ended'.result)
    {r : Report α n ρ} {e : Desk α ρ} (ho : o = some ⟨.ok r, e⟩) :
    ∃ r' e', o' = some ⟨.ok r', e'⟩ ∧ Q r r' := by
  subst ho
  cases h with
  | @some _ ended' hended =>
    obtain ⟨result, e'⟩ := ended'
    have hagree := hR _ _ hended
    cases hagree with
    | ok hr => exact ⟨_, e', rfl, hr⟩

/-- Two runs are limited alike: whatever has been spent since their desks
ends both or neither, and for the same reason. The time counts only if the
runs look at one clock. -/
structure Pairing.Limits {α : Type} [Scalar α] (A : Pairing α) (timed : Prop) (b b' : Budgets α) :
    Prop where
  spent {elapsed elapsed' : α} (count : Nat) (iterations : Int) :
    (timed → elapsed' = elapsed) →
      b'.spent (A.objective + count) elapsed' iterations = b.spent count elapsed iterations
  status {elapsed elapsed' : α} (count : Nat) : (timed → elapsed' = elapsed) →
    b'.status (A.objective + count) elapsed' = b.status count elapsed

/-- How the sessions, rows and reports of two runs are compared. -/
structure Coupling (α ρ σ ι : Type) extends Pairing α where
  states : σ → σ → Prop
  rows : ρ → ρ → Prop
  reports : ι → ι → Prop
  /-- The two runs start at the same time and look at the same clock. -/
  timed : Prop

namespace Coupling

variable {α : Type} {n : Nat} {ρ σ ι : Type}

/-- Two desks that the runs may start at. -/
structure Desks (c : Coupling α ρ σ ι) (d d' : Desk α ρ) : Prop where
  counters : d'.tally.counters = c.counters d.tally.counters
  before : c.before = d.tally.evaluations.toList
  before' : c.before' = d'.tally.evaluations.toList
  drawn : d'.drawn = c.drawn + d.drawn
  clock : c.timed → d'.clockReadings = d.clockReadings

/-- **Two sessions between turns** that have done the same since their
desks. -/
structure Level (c : Coupling α ρ σ ι) (s s' : Session α ρ σ) : Prop where
  sessions : c.Sessions c.states s.frame s'.frame s.iterations s s'
  history : List.Forall₂ (fun r r' => c.rows r.entry r'.entry) s.journal.history.toList
    s'.journal.history.toList
  clock : c.timed → s'.clockReadings = s.clockReadings ∧ s'.started = s.started ∧
    s'.elapsed = s.elapsed

variable [Scalar α]

/-- The limits of two runs at sessions that are level. -/
theorem Level.limits {c : Coupling α ρ σ ι} {s s' : Session α ρ σ} {b b' : Budgets α}
    (h : c.Level s s') (hlimits : c.Limits c.timed b b') :
    b'.spent s'.tally.counters.objective s'.elapsed s'.iterations =
        b.spent s.tally.counters.objective s.elapsed s.iterations ∧
      b'.status s'.tally.counters.objective s'.elapsed =
        b.status s.tally.counters.objective s.elapsed := by
  have hcount : s'.tally.counters.objective = c.objective + s.tally.counters.objective :=
    congrArg Counters.objective h.sessions.tally.counters
  have helapsed : c.timed → s'.elapsed = s.elapsed := fun htimed => (h.clock htimed).2.2
  rw [hcount, h.sessions.iterations']
  exact ⟨hlimits.spent _ _ helapsed, hlimits.status _ helapsed⟩

/-- **Two methods that stay level** as long as both have come so far. -/
structure Twins (c : Coupling α ρ σ ι) (m m' : Method α n ρ σ ι) : Prop where
  initial (f f' : Session.Frame α ρ) (k : Int) :
    Beside (c.Sessions (fun _ _ => True) f f' k) m.initial m'.initial c.states
      (c.Sessions (fun _ _ => True) f f' k) c.Stopped
  iterate (f f' : Session.Frame α ρ) (k : Int) :
    Beside (c.Sessions c.states f f' k) m.iterate m'.iterate c.reports
      (c.Sessions c.states f f' (k + 1)) c.Stopped
  entry {f f' : Session.Frame α ρ} {k : Int} {s s' : Session α ρ σ} {i i' : Option ι} :
    c.Sessions c.states f f' k s s' → Option.Rel c.reports i i' →
      c.rows (m.entry s i) (m'.entry s' i')
  finished {s s' : Session α ρ σ} : c.Level s s' → m'.finished s' = m.finished s
  closing {s s' : Session α ρ σ} : c.Level s s' →
    (m'.exhausted s' >>= m'.verdict s') = (m.exhausted s >>= m.verdict s)

namespace Twins

variable {c : Coupling α ρ σ ι} {m m' : Method α n ρ σ ι} {clock clock' : Nat → α}
variable {d d' : Desk α ρ} {s s' t t' : Session α ρ σ}

variable (h : c.Twins m m') (hclock : c.timed → clock' = clock)

include h hclock

/-- The two runs start level. -/
theorem start (hd : c.Desks d d') :
    (∃ s s', m.start clock d = .ok s ∧ m'.start clock' d' = .ok s' ∧ c.Level s s') ∨
      ∃ fault e e', m.start clock d = .error (fault, e) ∧
        m'.start clock' d' = .error (fault, e') ∧ c.Stopped e e' := by
  have hopened : c.Sessions (fun _ _ => True) (d.openJournal clock).frame
      (d'.openJournal clock').frame 0 (d.openJournal clock) (d'.openJournal clock') :=
    { tally := ⟨hd.counters, [], [], by simp [openJournal, hd.before],
        by simp [openJournal, hd.before'], .nil⟩
      state := trivial, drawn := hd.drawn, frame := rfl, frame' := rfl, iterations := rfl
      iterations' := rfl }
  have hmeet := h.initial _ _ _ _ _ hopened
  unfold Method.start
  generalize m.initial (d.openJournal clock) = r, m'.initial (d'.openJournal clock') = r' at hmeet
  cases hmeet with
  | error fault he => exact .inr ⟨fault, _, _, rfl, rfl, he⟩
  | @ok st st' u u' hst hu =>
    refine .inl ⟨_, _, rfl, rfl, ?_⟩
    have hstarted : c.Sessions c.states ((u.withState st).startClock clock).frame
        ((u'.withState st').startClock clock').frame 0 ((u.withState st).startClock clock)
        ((u'.withState st').startClock clock') :=
      { tally := hu.tally, state := hst, drawn := hu.drawn, frame := rfl, frame' := rfl
        iterations := hu.iterations, iterations' := hu.iterations' }
    -- the journals have just been opened: the first row is all there is
    have hempty : ((u.withState st).startClock clock).journal.history = #[] :=
      congrArg (·.journal.history) hu.frame
    have hempty' : ((u'.withState st').startClock clock').journal.history = #[] :=
      congrArg (·.journal.history) hu.frame'
    refine ⟨{ hstarted with frame := rfl, frame' := rfl, iterations := rfl, iterations' := ?_ },
      ?_, fun htimed => ?_⟩
    · exact hu.iterations'.trans hu.iterations.symm
    · have hnone : Option.Rel c.reports none none := .none
      have hrow := h.entry hstarted hnone
      rw [history_sendRow, history_sendRow, hempty, hempty']
      exact .cons hrow .nil
    · have hcount : u'.clockReadings = u.clockReadings := by
        have hread : u.clockReadings = d.clockReadings :=
          congrArg Frame.clockReadings hu.frame
        have hread' : u'.clockReadings = d'.clockReadings :=
          congrArg Frame.clockReadings hu.frame'
        rw [hread, hread', hd.clock htimed]
      have htime : u'.elapsed = u.elapsed :=
        (congrArg Frame.elapsed hu.frame').trans (congrArg Frame.elapsed hu.frame).symm
      refine ⟨congrArg (· + 1) hcount, ?_, htime⟩
      exact hclock htimed ▸ congrArg clock hcount

/-- **A turn** keeps them level. -/
theorem turn (hs : c.Level s s') :
    Meet (fun _ _ => True) c.Level c.Stopped (m.turn clock s) (m'.turn clock' s') := by
  have hmeet := h.iterate _ _ _ _ _ hs.sessions
  unfold Method.turn
  generalize m.iterate s = r, m'.iterate s' = r' at hmeet
  cases hmeet with
  | error fault he => exact .error fault he
  | @ok i i' u u' hi hu =>
    have hjournal : u.journal = s.journal := congrArg Frame.journal hu.frame
    have hjournal' : u'.journal = s'.journal := congrArg Frame.journal hu.frame'
    refine .ok trivial ⟨{ hu with
      frame := rfl, frame' := rfl, iterations := rfl, iterations' := ?_ }, ?_, fun htimed => ?_⟩
    · exact hu.iterations'.trans hu.iterations.symm
    · have hrow := h.entry hu (.some hi)
      simp only [history_readClock, history_sendRow, hjournal, hjournal', Array.toList_push]
      exact List.rel_append hs.history (.cons hrow .nil)
    · obtain ⟨hcount, hstarted, -⟩ := hs.clock htimed
      have hread : u'.clockReadings = u.clockReadings :=
        (congrArg Frame.clockReadings hu.frame').trans
          (hcount.trans (congrArg Frame.clockReadings hu.frame).symm)
      have hbegun : u'.started = u.started :=
        (congrArg Frame.started hu.frame').trans
          (hstarted.trans (congrArg Frame.started hu.frame).symm)
      refine ⟨congrArg (· + 1) hread, hbegun, ?_⟩
      change clock' u'.clockReadings - u'.started = clock u.clockReadings - u.started
      rw [hclock htimed, hread, hbegun]

/-- **Every session that one run comes to** has its like in the other. -/
theorem reaches (hd : c.Desks d d') (hs : m.Reaches clock d s) :
    ∃ s', m'.Reaches clock' d' s' ∧ c.Level s s' := by
  refine hs.induction (I := fun s => ∃ s', m'.Reaches clock' d' s' ∧ c.Level s s')
    (fun s hstart => ?_) fun s t _ ih hturn => ?_
  · rcases h.start hclock hd with ⟨u, u', hu, hu', hlevel⟩ | ⟨fault, e, e', he, -, -⟩
    · cases hu.symm.trans hstart
      exact ⟨u', .of_start hu', hlevel⟩
    · cases he.symm.trans hstart
  · obtain ⟨s', hs', hlevel⟩ := ih
    have hmeet := h.turn hclock hlevel
    rw [show m.turn clock s = .ok () t from hturn] at hmeet
    generalize hr : m'.turn clock' s' = r at hmeet
    cases hmeet with
    | ok _ ht => exact ⟨_, hs'.turn hr, ht⟩

/-- And the other way round. -/
theorem reached (hd : c.Desks d d') (hs : m'.Reaches clock' d' s') :
    ∃ s, m.Reaches clock d s ∧ c.Level s s' := by
  refine hs.induction (I := fun s' => ∃ s, m.Reaches clock d s ∧ c.Level s s')
    (fun s' hstart => ?_) fun s' t' _ ih hturn => ?_
  · rcases h.start hclock hd with ⟨u, u', hu, hu', hlevel⟩ | ⟨fault, e, e', -, he', -⟩
    · cases hu'.symm.trans hstart
      exact ⟨u, .of_start hu, hlevel⟩
    · cases he'.symm.trans hstart
  · obtain ⟨s, hs, hlevel⟩ := ih
    have hmeet := h.turn hclock hlevel
    rw [show m'.turn clock' s' = .ok () t' from hturn] at hmeet
    generalize hr : m.turn clock s = r at hmeet
    cases hmeet with
    | ok _ ht => exact ⟨_, hs.turn hr, ht⟩

/-- The loops end alike. -/
theorem loop (hs : c.Level s s') (fuel : Nat) :
    Meet Eq c.Level c.Stopped (m.loop clock fuel s) (m'.loop clock' fuel s') := by
  induction fuel generalizing s s' with
  | zero =>
    simp only [Method.loop, h.finished hs]
    exact Beside.demand (R := c.Level) (.refl _) (fun _ _ hs => hs.sessions.tally) _ _ hs
  | succ fuel ih =>
    -- both look at the same test, and go on or end together
    unfold Method.loop
    rw [h.finished hs]
    split
    · exact .error _ hs.sessions.tally
    · exact .ok rfl hs
    · have hmeet := h.turn hclock hs
      generalize m.turn clock s = r, m'.turn clock' s' = r' at hmeet
      cases hmeet with
      | ok _ ht => exact ih ht
      | error fault he => exact .error fault he

/-- **The runs end alike:** neither has come to its end, or both end with
one fault, or they report two sessions that are level, with one status. So
what holds of any such ends holds of theirs. -/
theorem run (hd : c.Desks d d') (fuel : Nat) {R : Ended α n ρ → Ended α n ρ → Prop}
    (herror : ∀ fault (e e' : Desk α ρ), c.Tallies e.tally e'.tally →
      R ⟨.error fault, e⟩ ⟨.error fault, e'⟩)
    (hok : ∀ status s s' (e e' : Desk α ρ), c.Level s s' → c.Tallies e.tally e'.tally →
      R ⟨.ok (m.reportOf s status), e⟩ ⟨.ok (m'.reportOf s' status), e'⟩) :
    Option.Rel R (m.run clock fuel d) (m'.run clock' fuel d') := by
  unfold Method.run
  rcases h.start hclock hd with ⟨s, s', hs, hs', hlevel⟩ | ⟨fault, e, e', he, he', hstopped⟩
  · rw [hs, hs']
    have hmeet := h.loop hclock hlevel fuel
    simp only
    generalize m.loop clock fuel s = r, m'.loop clock' fuel s' = r' at hmeet
    cases hmeet with
    | error fault ht => exact .some (herror fault _ _ ht)
    | @ok b b' t t' hb ht =>
      subst hb
      cases b with
      | false => exact .none
      | true =>
        simp only [Method.close, h.closing ht]
        cases m.exhausted t >>= m.verdict t with
        | error fault => exact .some (herror fault _ _ ht.sessions.tally)
        | ok status => exact .some (hok status t t' _ _ ht ht.sessions.tally)
  · rw [he, he']
    exact .some (herror fault _ _ hstopped)

end Twins

end Coupling

end DirectSearch
