/-!
# Sorting — the stable order

Elements are sorted with a strict test, and elements of which none is
below the other keep their order. Every element is put behind all those
before it that it is not below.
-/

namespace DirectSearch.Sorting

variable {β : Type} (lt : β → β → Bool)

/-- An element put in front of the first one that it is below. -/
def insertStable (v : β) : List β → List β
  | [] => [v]
  | x :: xs => if lt v x then v :: x :: xs else x :: insertStable v xs

/-- The list in its stable order. -/
def stableSort (xs : List β) : List β := xs.foldl (fun sorted v => insertStable lt v sorted) []

/-! ## Nothing is lost -/

theorem insertStable_perm (v : β) (xs : List β) : (insertStable lt v xs).Perm (v :: xs) := by
  induction xs with
  | nil => exact List.Perm.refl _
  | cons x xs ih =>
    unfold insertStable
    split
    · exact List.Perm.refl _
    · exact (ih.cons x).trans (List.Perm.swap v x xs)

theorem stableSort_perm (xs : List β) : (stableSort lt xs).Perm xs := by
  have h : ∀ (rest sorted : List β),
      (rest.foldl (fun sorted v => insertStable lt v sorted) sorted).Perm (sorted ++ rest) := by
    intro rest
    induction rest with
    | nil => intro sorted; simp
    | cons v rest ih =>
      intro sorted
      have step := (insertStable_perm lt v sorted).append_right rest
      exact (ih _).trans (step.trans List.perm_middle.symm)
  simpa [stableSort] using h xs []

end DirectSearch.Sorting
