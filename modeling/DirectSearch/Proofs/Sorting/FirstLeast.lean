import DirectSearch.Proofs.Scalar.Order
import DirectSearch.Sorting.RunSort
import Mathlib.Data.List.Induction
/-!
# Sorting — the first of the least

Of several least elements of a list the first is the one that every other
in front of it is above. There is at most one such element, and the stable
order has it in front (`exists_sorted_eq_cons`). Elements put behind the
list take its place just where one of them is strictly below it.
-/

namespace DirectSearch.Sorting

open Scalar OrderedScalar

variable {α β γ : Type} [Scalar α]

/-- `v` is the first of the least elements of a list: what is in front of
it is above it, and what is behind is not below. -/
def FirstLeast (f : β → α) (v : β) (xs : List β) : Prop :=
  ∃ before after, xs = before ++ v :: after ∧
    (∀ x ∈ before, lt (f v) (f x)) ∧ ∀ x ∈ after, le (f v) (f x)

variable {f : β → α} {v w : β} {xs ys : List β}

theorem FirstLeast.mem (h : FirstLeast f v xs) : v ∈ xs := by
  obtain ⟨before, after, rfl, -, -⟩ := h
  simp

theorem firstLeast_cons (h : ∀ x ∈ xs, le (f v) (f x)) : FirstLeast f v (v :: xs) :=
  ⟨[], xs, rfl, by simp, h⟩

/-- What is put behind takes no place if it is not below. -/
theorem FirstLeast.append (h : FirstLeast f v xs) (hys : ∀ y ∈ ys, le (f v) (f y)) :
    FirstLeast f v (xs ++ ys) := by
  obtain ⟨before, after, rfl, hbefore, hafter⟩ := h
  refine ⟨before, after ++ ys, by simp, hbefore, fun x hx => ?_⟩
  rcases List.mem_append.1 hx with hx | hx
  · exact hafter x hx
  · exact hys x hx

/-- What is put behind takes the place of everything above it. -/
theorem FirstLeast.append_left (h : FirstLeast f w ys) (hxs : ∀ x ∈ xs, lt (f w) (f x)) :
    FirstLeast f w (xs ++ ys) := by
  obtain ⟨before, after, rfl, hbefore, hafter⟩ := h
  refine ⟨xs ++ before, after, by simp, fun x hx => ?_, hafter⟩
  rcases List.mem_append.1 hx with hx | hx
  · exact hxs x hx
  · exact hbefore x hx

theorem FirstLeast.map {g : β → γ} {f : γ → α} (h : FirstLeast (fun x => f (g x)) v xs) :
    FirstLeast f (g v) (xs.map g) := by
  obtain ⟨before, after, rfl, hbefore, hafter⟩ := h
  refine ⟨before.map g, after.map g, by simp, ?_, ?_⟩
  · simpa using hbefore
  · simpa using hafter

variable [OrderedScalar α]

/-- It is not above any element. -/
theorem FirstLeast.le (h : FirstLeast f v xs) (hv : Scalar.le (f v) (f v)) :
    ∀ x ∈ xs, Scalar.le (f v) (f x) := by
  obtain ⟨before, after, rfl, hbefore, hafter⟩ := h
  intro x hx
  rcases List.mem_append.1 hx with hx | hx
  · exact le_of_lt (hbefore x hx)
  · rcases List.mem_cons.1 hx with rfl | hx
    · exact hv
    · exact hafter x hx

/-- **There is only one.** -/
theorem FirstLeast.unique (hv : FirstLeast f v xs) (hw : FirstLeast f w xs) : v = w := by
  obtain ⟨b₁, a₁, rfl, hb₁, ha₁⟩ := hv
  obtain ⟨b₂, a₂, heq, hb₂, ha₂⟩ := hw
  rcases List.append_eq_append_iff.1 heq with ⟨c, rfl, hc⟩ | ⟨c, rfl, hc⟩
  · cases c with
    | nil => exact (List.cons.inj hc).1
    | cons x c =>
      obtain ⟨rfl, rfl⟩ := List.cons.inj hc
      -- `w` is behind `v`, and would have to be below it
      exact absurd (ha₁ w (by simp)) (not_le_of_lt (hb₂ v (by simp)))
  · cases c with
    | nil => exact (List.cons.inj hc).1.symm
    | cons x c =>
      obtain ⟨rfl, rfl⟩ := List.cons.inj hc
      exact absurd (ha₂ v (by simp)) (not_le_of_lt (hb₁ w (by simp)))

/-- The first least of a list with one element of another in front. -/
theorem FirstLeast.append_of_cons (hv : FirstLeast f v xs) (hdef : Scalar.le (f v) (f v))
    (hw : FirstLeast f w (v :: ys)) : FirstLeast f w (xs ++ ys) := by
  obtain ⟨before, after, heq, hbefore, hafter⟩ := hw
  cases before with
  | nil =>
    obtain ⟨rfl, rfl⟩ := List.cons.inj heq
    exact hv.append hafter
  | cons x before =>
    obtain ⟨rfl, rfl⟩ := List.cons.inj heq
    refine FirstLeast.append_left ⟨before, after, rfl, ?_, hafter⟩ fun x hx => ?_
    · exact fun x hx => hbefore x (List.mem_cons_of_mem _ hx)
    · exact lt_of_lt_of_le (hbefore v (by simp)) (hv.le hdef x hx)

/-- Among the elements with a defined value: one more behind them takes the
place of the first least just where it is strictly below it. -/
theorem FirstLeast.next (h : FirstLeast f v (xs.filter fun x => Scalar.le (f x) (f x))) (x : β) :
    FirstLeast f (if lt (f x) (f v) then x else v)
      ((xs ++ [x]).filter fun x => Scalar.le (f x) (f x)) := by
  have hv : Scalar.le (f v) (f v) := (List.mem_filter.1 h.mem).2
  rw [List.filter_append, List.filter_cons, List.filter_nil]
  by_cases hx : Scalar.le (f x) (f x)
  · rw [if_pos hx]
    split
    · rename_i hlt
      refine FirstLeast.append_left (firstLeast_cons (by simp)) fun y hy => ?_
      exact lt_of_lt_of_le hlt (h.le hv y hy)
    · rename_i hlt
      exact h.append (by simpa using le_of_not_lt hx hv hlt)
  · have hlt : ¬lt (f x) (f v) := fun hlt => hx (defined_of_le (le_of_lt hlt)).1
    rw [if_neg hx, if_neg hlt, List.append_nil]
    exact h

/-! ## The order -/

/-- One more element in the stable order. -/
theorem exists_insertStable_eq_cons {x : β} {rest : List β} (hv : FirstLeast f v xs)
    (hdef : ∀ y ∈ v :: [x], Scalar.le (f y) (f y)) :
    ∃ w rest', insertStable (fun a b => lt (f a) (f b)) x (v :: rest) = w :: rest' ∧
      FirstLeast f w (xs ++ [x]) := by
  have hdef_v := hdef v (by simp)
  have hdef_x := hdef x (by simp)
  unfold insertStable
  split
  · rename_i hlt
    refine ⟨x, v :: rest, rfl, FirstLeast.append_left (firstLeast_cons (by simp)) ?_⟩
    exact fun y hy => lt_of_lt_of_le hlt (hv.le hdef_v y hy)
  · rename_i hlt
    exact ⟨v, _, rfl, hv.append (by simpa using le_of_not_lt hdef_x hdef_v hlt)⟩

/-- **The stable order has the first of the least in front.** -/
theorem exists_stableSort_eq_cons (hne : xs ≠ []) (hdef : ∀ x ∈ xs, Scalar.le (f x) (f x)) :
    ∃ v rest, stableSort (fun a b => lt (f a) (f b)) xs = v :: rest ∧ FirstLeast f v xs := by
  induction xs using List.reverseRecOn with
  | nil => exact absurd rfl hne
  | append_singleton xs x ih =>
    rw [stableSort, List.foldl_append, List.foldl_cons, List.foldl_nil]
    rcases eq_or_ne xs [] with rfl | hxs
    · exact ⟨x, [], rfl, firstLeast_cons (by simp)⟩
    · obtain ⟨v, rest, hsorted, hv⟩ := ih hxs fun y hy => hdef y (by simp [hy])
      rw [stableSort] at hsorted
      rw [hsorted]
      refine exists_insertStable_eq_cons hv fun y hy => ?_
      rcases List.mem_cons.1 hy with rfl | hy
      · exact hdef y (by simp [hv.mem])
      · exact hdef y (by simp_all)

/-- So has the order that a list is sorted in, where all elements compare. -/
theorem exists_sorted_eq_cons {compares : β → Bool} (hne : xs ≠ [])
    (hdef : ∀ x ∈ xs, Scalar.le (f x) (f x)) (hcompares : ∀ x ∈ xs, compares x) :
    ∃ v rest, sorted (fun a b => lt (f a) (f b)) compares xs = v :: rest ∧
      FirstLeast f v xs := by
  rw [sorted, if_pos (List.all_eq_true.2 hcompares)]
  exact exists_stableSort_eq_cons hne hdef

end DirectSearch.Sorting
