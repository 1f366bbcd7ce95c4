import DirectSearch.Sorting.Merge
import DirectSearch.Sorting.Stable
/-!
# Sorting — by merging runs

The runs of a list are pushed on a stack, and neighbours on it are merged
in the order of a merge tree that is close to the best one: the boundary
between two runs has a power, the number of binary digits after which the
middles of the two runs differ as fractions of the list, and boundaries of
higher power are merged first.

For elements that compare with each other the outcome is the stable order.
An element that compares with nothing, such as one that is not a number,
makes the outcome depend on which comparisons are made. `sorted` takes the
stable order where all elements compare, and merges runs where they do
not. It is one way to sort (`Sorter`) among others.
-/

namespace DirectSearch

namespace Sorting

variable {β : Type} (lt : β → β → Bool)

/-- A run on the stack, with the power of the boundary above it. -/
structure Pending (β : Type) where
  items : List β
  power : Nat

/-- The elements of a stack, from the bottom. -/
def stacked (stack : List (Pending β)) : List β := (stack.reverse.map (·.items)).flatten

@[simp] theorem stacked_nil : stacked ([] : List (Pending β)) = [] := rfl

@[simp] theorem stacked_cons (top : Pending β) (stack : List (Pending β)) :
    stacked (top :: stack) = stacked stack ++ top.items := by
  simp [stacked]

/-- The number of binary digits after which `a / n` and `b / n` differ,
for `a` below `b`. -/
def boundaryPower (n : Nat) : Nat → Nat → Nat → Nat
  | 0, _, _ => 0
  | fuel + 1, a, b =>
    if n ≤ a then 1 + boundaryPower n fuel (2 * (a - n)) (2 * (b - n))
    else if n ≤ b then 1
    else 1 + boundaryPower n fuel (2 * a) (2 * b)

/-- The two runs at the top of the stack merged as long as the boundary
between them has a higher power than the new one. -/
def collapse (power : Nat) : Nat → Nat → List (Pending β) → List (Pending β) × Nat
  | fuel + 1, g, top :: below :: rest =>
    if power < below.power then
      let merged := merge lt g below.items top.items
      collapse power fuel merged.2 (⟨merged.1, below.power⟩ :: rest)
    else (top :: below :: rest, g)
  | _, g, stack => (stack, g)

/-- The power of the boundary above the top of the stack given. -/
def withPower (power : Nat) : List (Pending β) → List (Pending β)
  | top :: rest => { top with power } :: rest
  | [] => []

/-- A run pushed on the stack of a list of `n` elements. -/
def pushRun (n g : Nat) (stack : List (Pending β)) (run : List β) : List (Pending β) × Nat :=
  let top := (stack.head?.map (·.items.length)).getD 0
  let a := 2 * (stacked stack).length - top
  let power := boundaryPower n n a (a + top + run.length)
  (collapse lt power stack.length g stack).map (⟨run, 0⟩ :: withPower power ·) id

/-- All runs of a list pushed on the stack. -/
def pushRuns (n : Nat) : Nat → Nat → List (Pending β) → List β → List (Pending β) × Nat
  | fuel + 1, g, stack, x :: xs =>
    let next := nextRun lt (leastRun n) (x :: xs)
    let pushed := pushRun lt n g stack next.1
    pushRuns n fuel pushed.2 pushed.1 next.2
  | _, g, stack, [] => (stack, g)
  | 0, g, stack, rest => (⟨rest, 0⟩ :: stack, g)

/-- The runs that are left merged: the two on top, or the two below the
top if the third is shorter than the top. -/
def mergeAll : Nat → Nat → List (Pending β) → List β
  | fuel + 1, g, a :: b :: c :: rest =>
    if c.items.length < a.items.length then
      let merged := merge lt g c.items b.items
      mergeAll fuel merged.2 (a :: ⟨merged.1, c.power⟩ :: rest)
    else
      let merged := merge lt g b.items a.items
      mergeAll fuel merged.2 (⟨merged.1, b.power⟩ :: c :: rest)
  | _ + 1, g, [a, b] => (merge lt g b.items a.items).1
  | _, _, stack => stacked stack

/-- The list sorted by merging its runs. -/
def runSort (xs : List β) : List β :=
  let runs := pushRuns lt xs.length xs.length longStretch [] xs
  mergeAll lt runs.1.length runs.2 runs.1

/-- **The sorted list.** -/
def sorted (compares : β → Bool) (xs : List β) : List β :=
  if xs.all compares then stableSort lt xs else runSort lt xs

/-! ## Nothing is lost -/

theorem collapse_perm (power fuel g : Nat) (stack : List (Pending β)) :
    (stacked (collapse lt power fuel g stack).1).Perm (stacked stack) := by
  fun_induction collapse lt power fuel g stack with
  | case1 fuel g top below rest _ merged ih =>
    refine ih.trans ?_
    simp only [stacked_cons, List.append_assoc]
    exact (merge_perm lt g _ _).append_left _
  | case2 => exact List.Perm.refl _
  | case3 => exact List.Perm.refl _

@[simp] theorem stacked_withPower (power : Nat) (stack : List (Pending β)) :
    stacked (withPower power stack) = stacked stack := by
  cases stack <;> simp [withPower]

theorem pushRun_perm (n g : Nat) (stack : List (Pending β)) (run : List β) :
    (stacked (pushRun lt n g stack run).1).Perm (stacked stack ++ run) := by
  simp only [pushRun, Prod.map, stacked_cons, stacked_withPower]
  exact (collapse_perm lt _ _ _ _).append_right _

theorem pushRuns_perm (n fuel g : Nat) (stack : List (Pending β)) (xs : List β) :
    (stacked (pushRuns lt n fuel g stack xs).1).Perm (stacked stack ++ xs) := by
  fun_induction pushRuns lt n fuel g stack xs with
  | case1 fuel g stack x xs next pushed ih =>
    refine ih.trans (((pushRun_perm lt n g stack next.1).append_right _).trans ?_)
    rw [List.append_assoc]
    exact (nextRun_perm lt _ _).append_left _
  | case2 => simp
  | case3 => simp

theorem mergeAll_perm (fuel g : Nat) (stack : List (Pending β)) :
    (mergeAll lt fuel g stack).Perm (stacked stack) := by
  fun_induction mergeAll lt fuel g stack with
  | case1 fuel g a b c rest _ merged ih =>
    refine ih.trans ?_
    simp only [stacked_cons]
    refine List.Perm.append_right _ ?_
    simp only [List.append_assoc]
    exact (merge_perm lt g _ _).append_left _
  | case2 fuel g a b c rest _ merged ih =>
    refine ih.trans ?_
    simp only [stacked_cons, List.append_assoc]
    refine List.Perm.append_left _ (List.Perm.append_left _ ?_)
    exact merge_perm lt g _ _
  | case3 => simpa using merge_perm lt _ _ _
  | case4 => exact List.Perm.refl _

theorem runSort_perm (xs : List β) : (runSort lt xs).Perm xs :=
  (mergeAll_perm lt _ _ _).trans (pushRuns_perm lt _ _ _ [] xs)

/-- The sorted list is the list in another order. -/
theorem sorted_perm (compares : β → Bool) (xs : List β) : (sorted lt compares xs).Perm xs := by
  unfold sorted
  split
  · exact stableSort_perm lt xs
  · exact runSort_perm lt xs

end Sorting

/-! ## Ways to sort -/

/-- A way to sort: it puts the elements of every list in some order. -/
structure Sorter (β : Type) where
  sort : List β → List β
  perm (xs : List β) : (sort xs).Perm xs

namespace Sorter

variable {β : Type} {k : Nat}

/-- Sorting with a strict test, by merging runs where not all elements
compare. -/
def byRuns (lt : β → β → Bool) (compares : β → Bool) : Sorter β :=
  ⟨Sorting.sorted lt compares, Sorting.sorted_perm lt compares⟩

/-- The entries of a vector sorted. -/
def onVector (sorter : Sorter β) (v : Vector β k) : Vector β k :=
  ⟨(sorter.sort v.toList).toArray, by simp [(sorter.perm v.toList).length_eq]⟩

@[simp] theorem toList_onVector (sorter : Sorter β) (v : Vector β k) :
    (sorter.onVector v).toList = sorter.sort v.toList := by
  simp [onVector]

end Sorter

end DirectSearch
