import DirectSearch.Proofs.Scalar.Order
import DirectSearch.Sorting.RunSort
import Mathlib.Data.List.Forall2
/-!
# Sorting — the stable order is an order

Elements with defined values are left by the stable order with none above one
behind it. An element is put behind everything that it is not below, so that
it is not above what follows, and the elements in front keep their order.

An element that takes the place of the last one, and is no higher, raises no
place of what is sorted (`IsSorted.forall₂_insertStable`).

Nothing but the tests is looked at: lists whose elements compare alike, place
by place, are sorted alike (`forall₂_sorted`).
-/

namespace DirectSearch.Sorting

open Scalar OrderedScalar

variable {α β : Type} [Scalar α] {f : β → α} {v : β} {xs : List β}

/-- No value is above one behind it. -/
def IsSorted (f : β → α) (xs : List β) : Prop := xs.Pairwise fun v w => le (f v) (f w)

/-- All values compare with themselves. -/
def IsDefined (f : β → α) (xs : List β) : Prop := ∀ v ∈ xs, le (f v) (f v)

variable [OrderedScalar α]

theorem IsSorted.insertStable (hxs : IsSorted f xs) (hdef : IsDefined f (v :: xs)) :
    IsSorted f (insertStable (fun v w => lt (f v) (f w)) v xs) := by
  induction xs with
  | nil => exact List.pairwise_singleton _ v
  | cons x xs ih =>
    obtain ⟨hx, hxs'⟩ := List.pairwise_cons.1 hxs
    obtain ⟨hdef_v, hdef_x, hdef_xs⟩ : le (f v) (f v) ∧ le (f x) (f x) ∧ IsDefined f xs := by
      simpa [IsDefined] using hdef
    unfold Sorting.insertStable
    split
    · rename_i hlt
      refine List.pairwise_cons.2 ⟨fun w hw => ?_, hxs⟩
      rcases List.mem_cons.1 hw with rfl | hw
      · exact le_of_lt hlt
      · exact le_trans (le_of_lt hlt) (hx w hw)
    · rename_i hnot
      have hrest := ih hxs' (List.forall_mem_cons.2 ⟨hdef_v, hdef_xs⟩)
      refine List.pairwise_cons.2 ⟨fun w hw => ?_, hrest⟩
      rcases List.mem_cons.1 ((insertStable_perm _ v xs).subset hw) with rfl | hw
      · exact le_of_not_lt hdef_v hdef_x hnot
      · exact hx w hw

/-- **The stable order is sorted.** -/
theorem isSorted_stableSort (hdef : IsDefined f xs) :
    IsSorted f (stableSort (fun v w => lt (f v) (f w)) xs) := by
  have h (rest sorted : List β) (hdef : IsDefined f (sorted ++ rest)) (hsorted : IsSorted f sorted) :
      IsSorted f (rest.foldl (fun sorted v =>
        Sorting.insertStable (fun v w => lt (f v) (f w)) v sorted) sorted) := by
    induction rest generalizing sorted with
    | nil => exact hsorted
    | cons v rest ih =>
      have hperm := (insertStable_perm (fun v w => lt (f v) (f w)) v sorted).append_right rest
      refine ih _ (fun w hw => hdef w ?_) (hsorted.insertStable fun w hw => hdef w ?_)
      · exact (hperm.trans List.perm_middle.symm).subset hw
      · exact List.perm_middle.symm.subset (List.mem_append_left rest hw)
  exact h xs [] hdef List.Pairwise.nil

/-- So is the order that a list is sorted in, where all elements compare. -/
theorem isSorted_sorted {compares : β → Bool} (hdef : IsDefined f xs)
    (hcompares : ∀ v ∈ xs, compares v) :
    IsSorted f (sorted (fun v w => lt (f v) (f w)) compares xs) := by
  rw [sorted, if_pos (List.all_eq_true.2 hcompares)]
  exact isSorted_stableSort hdef

/-- An element that is below none of a list is put behind it. -/
theorem insertStable_of_forall_not {less : β → β → Bool} (h : ∀ w ∈ xs, ¬less v w) :
    Sorting.insertStable less v xs = xs ++ [v] := by
  induction xs with
  | nil => rfl
  | cons x xs ih =>
    obtain ⟨hx, hxs⟩ := List.forall_mem_cons.1 h
    rw [Sorting.insertStable, if_neg hx, ih hxs, List.cons_append]

/-- **What is sorted** stays as it is. -/
theorem stableSort_of_isSorted (h : IsSorted f xs) :
    stableSort (fun v w => lt (f v) (f w)) xs = xs := by
  have hfold (rest sorted : List β) (hsorted : IsSorted f (sorted ++ rest)) :
      rest.foldl (fun sorted v =>
        Sorting.insertStable (fun v w => lt (f v) (f w)) v sorted) sorted = sorted ++ rest := by
    induction rest generalizing sorted with
    | nil => simp
    | cons v rest ih =>
      have hv : ∀ w ∈ sorted, ¬lt (f v) (f w) := fun w hw hlt =>
        not_le_of_lt hlt ((List.pairwise_append.1 hsorted).2.2 w hw v (by simp))
      rw [List.foldl_cons, insertStable_of_forall_not hv, ih _ (by simpa using hsorted)]
      simp
  exact hfold xs [] h

theorem sorted_of_isSorted {compares : β → Bool} (h : IsSorted f xs)
    (hcompares : ∀ v ∈ xs, compares v) :
    sorted (fun v w => lt (f v) (f w)) compares xs = xs := by
  rw [sorted, if_pos (List.all_eq_true.2 hcompares), stableSort_of_isSorted h]

/-! ## The last element replaced -/

/-- An element behind what is sorted is put in its place. -/
theorem stableSort_append_singleton (h : IsSorted f xs) (v : β) :
    stableSort (fun v w => lt (f v) (f w)) (xs ++ [v])
      = Sorting.insertStable (fun v w => lt (f v) (f w)) v xs := by
  rw [stableSort, List.foldl_append, ← stableSort, stableSort_of_isSorted h]
  rfl

omit [OrderedScalar α] in
/-- What is sorted rises from every place to the next. -/
theorem IsSorted.forall₂_next {w : β} (h : IsSorted f (v :: (xs ++ [w]))) :
    List.Forall₂ (fun a b => le (f a) (f b)) (v :: xs) (xs ++ [w]) := by
  induction xs generalizing v with
  | nil => exact .cons (List.rel_of_pairwise_cons h (by simp)) .nil
  | cons x xs ih =>
    exact .cons (List.rel_of_pairwise_cons h (by simp)) (ih (List.pairwise_cons.1 h).2)

/-- **An element in place of the last one,** if it is no higher: sorted again,
no place has a higher value than before. -/
theorem IsSorted.forall₂_insertStable {w : β} (h : IsSorted f (xs ++ [w]))
    (hdef : IsDefined f xs) (hle : le (f v) (f w)) :
    List.Forall₂ (fun a b => le (f a) (f b))
      (Sorting.insertStable (fun v w => lt (f v) (f w)) v xs) (xs ++ [w]) := by
  induction xs with
  | nil => exact .cons hle .nil
  | cons x xs ih =>
    obtain ⟨hx, hxs⟩ := List.forall_mem_cons.1 hdef
    unfold Sorting.insertStable
    split
    · rename_i hlt
      -- from here on every element moves one place up
      exact .cons (le_of_lt hlt) h.forall₂_next
    · exact .cons hx (ih (List.pairwise_cons.1 h).2 hxs)

/-! ## Lists that compare alike -/

section

variable {γ : Type} {R : β → γ → Prop} {less : β → β → Bool} {less' : γ → γ → Bool}
variable {xs : List β} {xs' : List γ}

variable (hless : ∀ v v' w w', R v v' → R w w' → less' v' w' = less v w)

include hless

theorem forall₂_insertStable {v : β} {v' : γ} (hv : R v v') (h : List.Forall₂ R xs xs') :
    List.Forall₂ R (Sorting.insertStable less v xs) (Sorting.insertStable less' v' xs') := by
  induction h with
  | nil => exact .cons hv .nil
  | cons hx hxs ih =>
    unfold Sorting.insertStable
    rw [hless _ _ _ _ hv hx]
    split
    · exact .cons hv (.cons hx hxs)
    · exact .cons hx ih

theorem forall₂_stableSort (h : List.Forall₂ R xs xs') :
    List.Forall₂ R (stableSort less xs) (stableSort less' xs') :=
  List.rel_foldl (R := R) (P := List.Forall₂ R)
    (fun _ _ hs _ _ hv => forall₂_insertStable hless hv hs) .nil h

/-- **Lists whose elements all compare, and compare alike,** are sorted
alike. -/
theorem forall₂_sorted {compares : β → Bool} {compares' : γ → Bool}
    (hcompares : ∀ v v', R v v' → compares v ∧ compares' v') (h : List.Forall₂ R xs xs') :
    List.Forall₂ R (sorted less compares xs) (sorted less' compares' xs') := by
  have hall : xs.all compares ∧ xs'.all compares' := by
    induction h with
    | nil => exact ⟨rfl, rfl⟩
    | cons hx _ ih =>
      obtain ⟨hv, hv'⟩ := hcompares _ _ hx
      simp only [List.all_cons, hv, hv', ih.1, ih.2, Bool.and_self, and_self]
  rw [sorted, sorted, if_pos hall.1, if_pos hall.2]
  exact forall₂_stableSort hless h

end

end DirectSearch.Sorting
