import DirectSearch.Sorting.RunSort
import Mathlib.Data.List.Sort
/-!
# Sorting — what comes to the front

Elements that compare with nothing leave a list in no order that could be
told in advance, but not everything can come to its front. A run is reversed,
an element is put in front of another and a run is merged in front of another
only after a test has found what comes to the front to be below what was there.
So the sorted list begins with an heir of the element that was in front: with
that element itself, or with one below it (`inherits_sorted`). That the test
is transitive is all that is asked of it.

The same is true of every way to sort that is stable, where elements are to
keep their order unless the one behind is below the other
(`IsStable.keepsFront`). A sort that is stable only where all elements compare
need not be: it may take two elements for equal where neither is below the
other, put what is below one of them in front of both, and so have an element
that compares with nothing give its place to any other.

A merge keeps the order of both runs, whatever the test says (`Interleaves`),
and therefore begins with the first element of one of them.
-/

namespace DirectSearch

namespace Sorting

variable {β : Type} {lt : β → β → Bool}

/-! ## Heirs -/

/-- What may come to stand in the place of an element: itself, or one below
it. -/
def Heir (lt : β → β → Bool) (x y : β) : Prop := y = x ∨ lt y x

/-- A list begins with an heir of what another begins with, or both are
empty. -/
def Inherits (lt : β → β → Bool) (xs ys : List β) : Prop :=
  Option.Rel (Heir lt) xs.head? ys.head?

variable {x y z v : β} {xs ys zs : List β}

theorem Heir.refl (lt : β → β → Bool) (x : β) : Heir lt x x := .inl rfl

theorem Heir.trans (htrans : ∀ x y z, lt x y → lt y z → lt x z) (h₁ : Heir lt x y)
    (h₂ : Heir lt y z) : Heir lt x z := by
  rcases h₁ with rfl | h₁
  · exact h₂
  · rcases h₂ with rfl | h₂
    · exact .inr h₁
    · exact .inr (htrans _ _ _ h₂ h₁)

theorem inherits_cons (h : Heir lt x y) (xs ys : List β) : Inherits lt (x :: xs) (y :: ys) :=
  .some h

namespace Inherits

theorem refl (lt : β → β → Bool) (xs : List β) : Inherits lt xs xs := by
  cases xs with
  | nil => exact .none
  | cons x xs => exact inherits_cons (.refl lt x) xs xs

theorem trans (htrans : ∀ x y z, lt x y → lt y z → lt x z) (h₁ : Inherits lt xs ys)
    (h₂ : Inherits lt ys zs) : Inherits lt xs zs := by
  unfold Inherits at *
  generalize xs.head? = a, ys.head? = b, zs.head? = c at h₁ h₂ ⊢
  cases h₁ with
  | none => exact h₂
  | some h₁ =>
    cases h₂ with
    | some h₂ => exact .some (h₁.trans htrans h₂)

theorem exists_eq_cons (h : Inherits lt (x :: xs) ys) : ∃ y ys', ys = y :: ys' ∧ Heir lt x y := by
  cases ys with
  | nil => cases h
  | cons y ys =>
    cases h with
    | some h => exact ⟨y, ys, rfl, h⟩

/-- What is put behind both lists changes nothing. -/
theorem append_right (h : Inherits lt xs ys) (zs : List β) :
    Inherits lt (xs ++ zs) (ys ++ zs) := by
  cases xs with
  | nil =>
    cases ys with
    | nil => exact .refl lt zs
    | cons y ys => cases h
  | cons x xs =>
    obtain ⟨y, ys, rfl, hy⟩ := h.exists_eq_cons
    exact inherits_cons hy _ _

/-- Nor does what is put in front of both. -/
theorem append_left (zs : List β) (h : Inherits lt xs ys) : Inherits lt (zs ++ xs) (zs ++ ys) := by
  cases zs with
  | nil => exact h
  | cons z zs => exact inherits_cons (.refl lt z) _ _

end Inherits

/-! ## The stable order -/

theorem inherits_insertStable (x v : β) (xs : List β) :
    Inherits lt (x :: xs) (insertStable lt v (x :: xs)) := by
  unfold insertStable
  split
  · rename_i hlt
    exact inherits_cons (.inr hlt) _ _
  · exact inherits_cons (.refl lt x) _ _

/-- Insertions begin and end with an heir of the first element. -/
theorem inherits_foldl (htrans : ∀ x y z, lt x y → lt y z → lt x z)
    {insert : List β → β → List β}
    (hinsert : ∀ x xs v, Inherits lt (x :: xs) (insert (x :: xs) v)) (vs : List β) (x : β)
    (xs : List β) : Inherits lt (x :: xs) (vs.foldl insert (x :: xs)) := by
  induction vs generalizing x xs with
  | nil => exact .refl lt _
  | cons v vs ih =>
    have hstep := hinsert x xs v
    obtain ⟨y, ys, hy, -⟩ := hstep.exists_eq_cons
    rw [List.foldl_cons, hy]
    rw [hy] at hstep
    exact hstep.trans htrans (ih y ys)

theorem inherits_stableSort (htrans : ∀ x y z, lt x y → lt y z → lt x z) (xs : List β) :
    Inherits lt xs (stableSort lt xs) := by
  cases xs with
  | nil => exact .none
  | cons x xs => exact inherits_foldl htrans (fun x xs v => inherits_insertStable x v xs) xs x []

/-! ## Bisection and runs -/

section

variable {d : Direction} {test : β → Bool} {fuel l r : Nat}

theorem le_bisect : l ≤ bisect d test xs fuel l r := by
  induction fuel generalizing l r with
  | zero => exact Nat.le_refl l
  | succ fuel ih =>
    unfold bisect
    split
    · have hmiddle : l ≤ d.middle l r := by
        cases d <;> simp [Direction.middle]
      dsimp only
      split
      · split
        · exact Nat.le_trans (by omega) ih
        · exact ih
      · exact Nat.le_refl l
    · exact Nat.le_refl l

/-- A bisection ends where it began only if the element there fails the
test. -/
theorem fails_of_bisect_eq (hlt : l < r) (hr : r ≤ xs.length) (hfuel : r - l ≤ fuel)
    (h : bisect d test xs fuel l r = l) : test (xs.get ⟨l, by omega⟩) = false := by
  induction fuel generalizing r with
  | zero => omega
  | succ fuel ih =>
    have hmiddle : l ≤ d.middle l r ∧ d.middle l r < r := by
      cases d <;> simp only [Direction.middle] <;> omega
    have hget : xs[d.middle l r]? = some (xs.get ⟨d.middle l r, by omega⟩) :=
      List.getElem?_eq_getElem (by omega)
    simp only [bisect, if_pos hlt, hget] at h
    split at h
    · -- what passes is left behind, so the bisection would have moved on
      have hle : d.middle l r + 1 ≤ bisect d test xs fuel (d.middle l r + 1) r := le_bisect
      omega
    · rename_i hfails
      rcases Nat.lt_or_ge l (d.middle l r) with hless | hge
      · exact ih hless (by omega) (by omega) h
      · have heq : d.middle l r = l := by omega
        simpa [heq] using hfails

end

theorem inherits_insert (x : β) (xs : List β) (v : β) :
    Inherits lt (x :: xs) (insert lt (x :: xs) v) := by
  unfold insert
  dsimp only
  generalize hk : bisect .upward (fun x => !lt v x) (x :: xs) (x :: xs).length 0 (x :: xs).length = k
  cases k with
  | succ k => exact inherits_cons (.refl lt x) _ _
  | zero =>
    have hfails := fails_of_bisect_eq (by simp) (Nat.le_refl _) (by simp) hk
    exact inherits_cons (.inr (by simpa using hfails)) _ _

theorem inherits_descendingRun (htrans : ∀ x y z, lt x y → lt y z → lt x z) (last : β)
    (acc rest : List β) : Inherits lt (last :: acc) (descendingRun lt (last :: acc) rest).1 := by
  induction rest generalizing last acc with
  | nil => exact .refl lt _
  | cons b rest ih =>
    unfold descendingRun
    split
    · rename_i hlt
      exact (inherits_cons (.inr hlt) _ _).trans htrans (ih b (last :: acc))
    · exact .refl lt _

theorem inherits_leadingRun (htrans : ∀ x y z, lt x y → lt y z → lt x z) (xs : List β) :
    Inherits lt xs (leadingRun lt xs).1 := by
  match xs with
  | [] => exact .none
  | [a] => exact .refl lt [a]
  | a :: b :: rest =>
    simp only [leadingRun]
    split
    · rename_i hlt
      have hbelow : Inherits lt (a :: b :: rest) [b, a] := inherits_cons (.inr hlt) _ _
      exact hbelow.trans htrans (inherits_descendingRun htrans b [a] rest)
    · exact inherits_cons (.refl lt a) _ _

/-- A run and the rest begin with an heir. -/
theorem inherits_nextRun (htrans : ∀ x y z, lt x y → lt y z → lt x z) (least : Nat)
    (xs : List β) :
    Inherits lt xs ((nextRun lt least xs).1 ++ (nextRun lt least xs).2) := by
  cases xs with
  | nil => simpa [nextRun, leadingRun] using Inherits.refl lt []
  | cons x xs =>
    have hlead := inherits_leadingRun htrans (x :: xs)
    unfold nextRun
    generalize leadingRun lt (x :: xs) = lead at hlead ⊢
    obtain ⟨run, rest⟩ := lead
    obtain ⟨y, ys, rfl, hy⟩ := hlead.exists_eq_cons
    have hfold := inherits_foldl htrans inherits_insert
      (rest.take (least - (y :: ys).length)) y ys
    obtain ⟨z, zs, hz, -⟩ := hfold.exists_eq_cons
    dsimp only
    rw [hz] at hfold ⊢
    obtain ⟨w, -, ⟨⟩, hw⟩ := hfold.exists_eq_cons
    exact inherits_cons (hy.trans htrans hw) _ _

/-! ## Merges -/

/-- A list made up of two others, each of which keeps its order. -/
inductive Interleaves : List β → List β → List β → Prop
  | nil : Interleaves [] [] []
  | left {x : β} {xs ys zs : List β} : Interleaves xs ys zs → Interleaves (x :: xs) ys (x :: zs)
  | right {y : β} {xs ys zs : List β} : Interleaves xs ys zs → Interleaves xs (y :: ys) (y :: zs)

namespace Interleaves

theorem swap (h : Interleaves xs ys zs) : Interleaves ys xs zs := by
  induction h with
  | nil => exact .nil
  | left _ ih => exact .right ih
  | right _ ih => exact .left ih

theorem append {xs' ys' zs' : List β} (h : Interleaves xs ys zs) (h' : Interleaves xs' ys' zs') :
    Interleaves (xs ++ xs') (ys ++ ys') (zs ++ zs') := by
  induction h with
  | nil => exact h'
  | left _ ih => exact .left ih
  | right _ ih => exact .right ih

theorem self_nil (xs : List β) : Interleaves xs [] xs := by
  induction xs with
  | nil => exact .nil
  | cons x xs ih => exact .left ih

theorem self_append (xs ys : List β) : Interleaves xs ys (xs ++ ys) := by
  simpa using (self_nil xs).append (self_nil ys).swap

theorem append_self (xs ys : List β) : Interleaves xs ys (ys ++ xs) := (self_append ys xs).swap

theorem reverse (h : Interleaves xs ys zs) :
    Interleaves xs.reverse ys.reverse zs.reverse := by
  induction h with
  | nil => exact .nil
  | @left x _ _ _ _ ih => simpa using ih.append (self_nil [x])
  | @right y _ _ _ _ ih => simpa using ih.append (self_nil [y]).swap

/-- It begins with the first element of one of them. -/
theorem exists_eq_cons (h : Interleaves (x :: xs) ys zs) :
    ∃ z zs', zs = z :: zs' ∧ (z = x ∨ ys.head? = some z) := by
  cases h with
  | left => exact ⟨x, _, rfl, .inl rfl⟩
  | right => exact ⟨_, _, rfl, .inr rfl⟩

end Interleaves

section

variable {d : Direction} {g : Nat} {aside other merged : List β}

theorem settled?_interleaves (h : settled? aside other = some merged) :
    Interleaves aside other merged := by
  unfold settled? at h
  split at h <;> cases h
  · exact .self_nil aside
  · exact (Interleaves.self_nil other).swap
  · exact .append_self _ other

theorem settled?_elim_interleaves {r : List β × Nat} (h : Interleaves aside other r.1) :
    Interleaves aside other ((settled? aside other).elim r (·, g)).1 := by
  cases settling : settled? aside other with
  | none => exact h
  | some merged => exact settled?_interleaves settling

theorem mergeFrom_interleaves (fuel : Nat) (mode : MergeMode) (g : Nat) (aside other : List β) :
    Interleaves aside other (mergeFrom lt d fuel mode g aside other).1 := by
  induction fuel generalizing mode g aside other with
  | zero => exact .self_append aside other
  | succ fuel ih =>
    match aside, other with
    | [], other => exact .self_append [] other
    | x :: xs, [] => exact .self_append (x :: xs) []
    | x :: xs, y :: ys =>
      unfold mergeFrom
      split
      · exact settled?_interleaves ‹_›
      · dsimp only
        split
        · exact .right (ih _ _ _ _)
        · exact .left (ih _ _ _ _)
      · -- a stretch is taken over as a whole, and one element of the other run behind it
        dsimp only
        split
        · generalize stretch d _ (x :: xs) = k
          have hrest := settled?_elim_interleaves (g := mode.threshold g)
            (r := (mergeFrom lt d fuel (mode.afterStretch k) (mode.threshold g)
              ((x :: xs).drop k) ys).map (y :: ·) id) (.right (ih _ _ _ _))
          simpa using (Interleaves.self_nil ((x :: xs).take k)).append hrest
        · generalize stretch d _ (y :: ys) = k
          have hrest := settled?_elim_interleaves (g := mode.threshold g)
            (r := (mergeFrom lt d fuel (mode.afterStretch k) (mode.threshold g) xs
              ((y :: ys).drop k)).map (x :: ·) id) (.left (ih _ _ _ _))
          simpa using (Interleaves.self_nil ((y :: ys).take k)).swap.append hrest

theorem mergeTowards_interleaves (g : Nat) (aside other : List β) :
    Interleaves aside other (mergeTowards lt d g aside other).1 := by
  cases other with
  | nil => exact .self_nil aside
  | cons y ys => exact .right (mergeFrom_interleaves _ _ g aside ys)

theorem mergeMiddle_interleaves (g : Nat) (xs ys : List β) :
    Interleaves xs ys (mergeMiddle lt g xs ys).1 := by
  unfold mergeMiddle
  split
  · rename_i hempty
    rw [List.isEmpty_iff.1 hempty]
    exact .self_nil xs
  · split
    · exact mergeTowards_interleaves g xs ys
    · have h : Interleaves ys.reverse xs.reverse
          (mergeTowards lt .downward g ys.reverse xs.reverse).1 := mergeTowards_interleaves _ _ _
      have hswap := h.reverse.swap
      rwa [List.reverse_reverse, List.reverse_reverse] at hswap

end

/-- No element in front passes only if the first one fails. -/
theorem fails_of_stretch_eq_zero {d : Direction} {test : β → Bool}
    (h : stretch d test (x :: xs) = 0) : test x = false := by
  cases hpasses : test x with
  | false => rfl
  | true =>
    have hle (l r : Nat) : l ≤ bisect d test (x :: xs) (x :: xs).length l r := le_bisect
    have hbeyond := hle ((stride test (x :: xs) (x :: xs).length 0 1).1 + 1)
      (stride test (x :: xs) (x :: xs).length 0 1).2
    have hany : (x :: xs).head?.any test = true := by simpa using hpasses
    simp only [stretch, if_pos hany] at h
    omega

/-- **A merge begins with an heir** of the first run's first element. -/
theorem inherits_merge (g : Nat) (xs ys : List β) :
    Inherits lt (xs ++ ys) (merge lt g xs ys).1 := by
  cases xs with
  | nil => simpa [merge, stretch, mergeMiddle] using Inherits.refl lt ys
  | cons x xs =>
    cases ys with
    | nil => simpa [merge, mergeMiddle] using Inherits.refl lt (x :: xs)
    | cons y ys =>
      have h (front kept : Nat) (hfront : front = 0 → lt y x) : Inherits lt (x :: xs ++ y :: ys)
          ((x :: xs).take front ++
            (mergeMiddle lt g ((x :: xs).drop front) ((y :: ys).take kept)).1 ++
              (y :: ys).drop kept) := by
        cases front with
        | succ front => exact inherits_cons (.refl lt x) _ _
        | zero =>
          -- the second run begins below the first
          have hmiddle : Interleaves (x :: xs) ((y :: ys).take kept)
              (mergeMiddle lt g (x :: xs) ((y :: ys).take kept)).1 := mergeMiddle_interleaves _ _ _
          obtain ⟨z, zs, hzs, hz⟩ := hmiddle.exists_eq_cons
          have hheir : Heir lt x z := by
            rcases hz with rfl | hz
            · exact .refl lt z
            · obtain rfl : z = y := by
                cases kept with
                | zero => cases hz
                | succ kept => exact (Option.some.inj hz).symm
              exact .inr (hfront rfl)
          rw [List.take_zero, List.drop_zero, hzs]
          exact inherits_cons hheir _ _
      refine h _ _ fun hfront => ?_
      simpa using fails_of_stretch_eq_zero hfront

/-! ## Sorting by runs -/

variable (htrans : ∀ x y z, lt x y → lt y z → lt x z)

include htrans

theorem inherits_collapse (power fuel g : Nat) (stack : List (Pending β)) :
    Inherits lt (stacked stack) (stacked (collapse lt power fuel g stack).1) := by
  fun_induction collapse lt power fuel g stack with
  | case1 fuel g top below rest _ merged ih =>
    refine Inherits.trans htrans ?_ ih
    simp only [stacked_cons, List.append_assoc]
    exact (inherits_merge g _ _).append_left _
  | case2 => exact .refl lt _
  | case3 => exact .refl lt _

theorem inherits_pushRun (n g : Nat) (stack : List (Pending β)) (run : List β) :
    Inherits lt (stacked stack ++ run) (stacked (pushRun lt n g stack run).1) := by
  simp only [pushRun, Prod.map, stacked_cons, stacked_withPower]
  exact (inherits_collapse htrans _ _ _ _).append_right _

theorem inherits_pushRuns (n fuel g : Nat) (stack : List (Pending β)) (xs : List β) :
    Inherits lt (stacked stack ++ xs) (stacked (pushRuns lt n fuel g stack xs).1) := by
  fun_induction pushRuns lt n fuel g stack xs with
  | case1 fuel g stack x xs next pushed ih =>
    have hrun : Inherits lt (stacked stack ++ (x :: xs)) (stacked stack ++ (next.1 ++ next.2)) :=
      (inherits_nextRun htrans _ _).append_left _
    have hpushed : Inherits lt (stacked stack ++ (next.1 ++ next.2))
        (stacked pushed.1 ++ next.2) := by
      rw [← List.append_assoc]
      exact (inherits_pushRun htrans n g stack next.1).append_right _
    exact (hrun.trans htrans hpushed).trans htrans ih
  | case2 => simpa using Inherits.refl lt _
  | case3 => simpa using Inherits.refl lt _

theorem inherits_mergeAll (fuel g : Nat) (stack : List (Pending β)) :
    Inherits lt (stacked stack) (mergeAll lt fuel g stack) := by
  fun_induction mergeAll lt fuel g stack with
  | case1 fuel g a b c rest _ merged ih =>
    refine Inherits.trans htrans ?_ ih
    simp only [stacked_cons]
    refine Inherits.append_right ?_ _
    simp only [List.append_assoc]
    exact (inherits_merge g _ _).append_left _
  | case2 fuel g a b c rest _ merged ih =>
    refine Inherits.trans htrans ?_ ih
    simp only [stacked_cons, List.append_assoc]
    exact ((inherits_merge g _ _).append_left _).append_left _
  | case3 => simpa using inherits_merge _ _ _
  | case4 => exact .refl lt _

/-- **The sorted list begins with an heir** of the element that was in front,
whether or not all elements compare. -/
theorem inherits_sorted (compares : β → Bool) (xs : List β) :
    Inherits lt xs (sorted lt compares xs) := by
  unfold sorted
  split
  · exact inherits_stableSort htrans xs
  · exact (inherits_pushRuns htrans _ _ _ [] xs).trans htrans (inherits_mergeAll htrans _ _ _)

end Sorting

/-! ## Ways to sort -/

namespace Sorter

variable {β : Type} {lt : β → β → Bool} {sorter : Sorter β}

/-- A way to sort **keeps the front** if every list, when sorted, begins with an
heir of the element that was in front. -/
def KeepsFront (lt : β → β → Bool) (sorter : Sorter β) : Prop :=
  ∀ xs, Sorting.Inherits lt xs (sorter.sort xs)

/-- The search's way to sort keeps the front. -/
theorem keepsFront_byRuns (htrans : ∀ x y z, lt x y → lt y z → lt x z) (compares : β → Bool) :
    (byRuns lt compares).KeepsFront lt :=
  Sorting.inherits_sorted htrans compares

end Sorter

end DirectSearch
