/-!
# Sorting — runs

A list is read as runs, each of which is sorted as far as the test can
tell. A run that descends strictly is reversed, and one that is too short
takes in the elements behind it, each by bisection.
-/

namespace DirectSearch.Sorting

variable {β : Type}

/-! ## Bisection -/

/-- Which of two middle places a bisection looks at, and from which end
two runs are merged. -/
inductive Direction where
  | upward
  | downward
deriving DecidableEq

/-- The place to look at in a stretch. -/
def Direction.middle (d : Direction) (l r : Nat) : Nat :=
  match d with
  | upward => l + (r - l) / 2
  | downward => l + (r - l - 1) / 2

/-- How many elements pass a test that those in front pass and the others
do not, when it is known to be between `l` and `r`. -/
def bisect (d : Direction) (test : β → Bool) (xs : List β) : Nat → Nat → Nat → Nat
  | 0, l, _ => l
  | fuel + 1, l, r =>
    if l < r then
      let middle := d.middle l r
      match xs[middle]? with
      | some x => if test x then bisect d test xs fuel (middle + 1) r
        else bisect d test xs fuel l middle
      | none => l
    else l

variable (lt : β → β → Bool)

/-- One element put into a run, behind everything that it is not below. -/
def insert (xs : List β) (v : β) : List β :=
  let k := bisect .upward (fun x => !lt v x) xs xs.length 0 xs.length
  xs.take k ++ v :: xs.drop k

/-! ## Runs -/

/-- The strictly descending run that goes on after `acc`, which holds it
reversed, and the rest. -/
def descendingRun : List β → List β → List β × List β
  | last :: acc, b :: rest =>
    if lt b last then descendingRun (b :: last :: acc) rest else (last :: acc, b :: rest)
  | acc, rest => (acc, rest)

/-- The run that goes on after `last` without a descent, and the rest. -/
def ascendingRun (last : β) : List β → List β × List β
  | b :: rest =>
    if lt b last then ([], b :: rest)
    else
      let (run, rest) := ascendingRun b rest
      (b :: run, rest)
  | [] => ([], [])

/-- The leading run in ascending order, and the rest. -/
def leadingRun : List β → List β × List β
  | a :: b :: rest =>
    if lt b a then descendingRun lt [b, a] rest
    else
      let (run, rest) := ascendingRun lt a (b :: rest)
      (a :: run, rest)
  | short => (short, [])

/-- The leading run with at least `least` elements if the list has as
many, and the rest. -/
def nextRun (least : Nat) (xs : List β) : List β × List β :=
  let (run, rest) := leadingRun lt xs
  let missing := least - run.length
  ((rest.take missing).foldl (insert lt) run, rest.drop missing)

/-- The least length of a run in a list of `n` elements: all of fewer than
64, and otherwise the first six binary digits of `n`, one more if any
digit behind them is set. -/
def leastRun (n : Nat) : Nat :=
  if n < 64 then n
  else
    let unit := Nat.pow 2 (n.log2 - 5)
    n / unit + (if n % unit = 0 then 0 else 1)

/-! ## Nothing is lost -/

theorem insert_perm (xs : List β) (v : β) : (insert lt xs v).Perm (v :: xs) := by
  have h (k : Nat) : (xs.take k ++ v :: xs.drop k).Perm (v :: xs) := by
    have step : (xs.take k ++ v :: xs.drop k).Perm (v :: (xs.take k ++ xs.drop k)) :=
      List.perm_middle
    rwa [List.take_append_drop] at step
  exact h _

theorem foldl_insert_perm (vs xs : List β) : (vs.foldl (insert lt) xs).Perm (xs ++ vs) := by
  induction vs generalizing xs with
  | nil => simp
  | cons v vs ih =>
    have step := (insert_perm lt xs v).append_right vs
    exact (ih _).trans (step.trans List.perm_middle.symm)

theorem descendingRun_perm (acc rest : List β) :
    ((descendingRun lt acc rest).1 ++ (descendingRun lt acc rest).2).Perm (acc ++ rest) := by
  induction rest generalizing acc with
  | nil => cases acc <;> simp [descendingRun]
  | cons b rest ih =>
    cases acc with
    | nil => simp [descendingRun]
    | cons last acc =>
      unfold descendingRun
      split
      · exact (ih _).trans List.perm_middle.symm
      · exact List.Perm.refl _

theorem ascendingRun_append (last : β) (rest : List β) :
    (ascendingRun lt last rest).1 ++ (ascendingRun lt last rest).2 = rest := by
  induction rest generalizing last with
  | nil => rfl
  | cons b rest ih =>
    unfold ascendingRun
    split
    · rfl
    · simp [ih b]

theorem leadingRun_perm (xs : List β) :
    ((leadingRun lt xs).1 ++ (leadingRun lt xs).2).Perm xs := by
  match xs with
  | [] => exact List.Perm.refl _
  | [a] => exact List.Perm.refl _
  | a :: b :: rest =>
    simp only [leadingRun]
    split
    · exact (descendingRun_perm lt [b, a] rest).trans (List.Perm.swap a b rest)
    · simp [ascendingRun_append lt a (b :: rest)]

/-- A run and the rest are the list in another order. -/
theorem nextRun_perm (least : Nat) (xs : List β) :
    ((nextRun lt least xs).1 ++ (nextRun lt least xs).2).Perm xs := by
  have step := (foldl_insert_perm lt
    ((leadingRun lt xs).2.take (least - (leadingRun lt xs).1.length))
    (leadingRun lt xs).1).append_right
    ((leadingRun lt xs).2.drop (least - (leadingRun lt xs).1.length))
  rw [List.append_assoc, List.take_append_drop] at step
  exact step.trans (leadingRun_perm lt xs)

end DirectSearch.Sorting
