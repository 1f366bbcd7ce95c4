import DirectSearch.Sorting.Run
/-!
# Sorting — two runs merged

Two neighbouring runs are merged from the end at which the shorter one is
set aside. Elements are first compared one by one. When one run has been
ahead often enough in a row, whole stretches are measured instead, by
strides that double, until the stretches become short. How often is
enough is a threshold that falls while stretches pay off and rises when
they cease to.
-/

namespace DirectSearch.Sorting

variable {β : Type}

/-! ## Stretches -/

/-- Strides of doubling length over elements that pass the test: the last
place passed, and the first that need not be. -/
def stride (test : β → Bool) (xs : List β) : Nat → Nat → Nat → Nat × Nat
  | 0, last, _ => (last, xs.length)
  | fuel + 1, last, next =>
    match xs[next]? with
    | some x => if test x then stride test xs fuel next (2 * next + 1) else (last, next)
    | none => (last, xs.length)

/-- How many elements in front pass a test. -/
def stretch (d : Direction) (test : β → Bool) (xs : List β) : Nat :=
  if xs.head?.any test then
    let (last, next) := stride test xs xs.length 0 1
    bisect d test xs xs.length (last + 1) next
  else 0

/-- The length from which a stretch pays off, and the first threshold. -/
def longStretch : Nat := 7

/-! ## The merge -/

/-- The merge when there is nothing left to compare. The last element of
the run set aside goes to the end. -/
def settled? : List β → List β → Option (List β)
  | aside, [] => some aside
  | [], other => some other
  | [x], other => some (other ++ [x])
  | _, _ => none

/-- What a merge does next. -/
inductive MergeMode where
  /-- Compares two elements. The counts say how often in a row one came
  from the run set aside, or from the other. -/
  | compare (aside other : Nat)
  /-- Compares two elements again, after stretches have become short. -/
  | afresh
  /-- Measures the first stretch of the first round. -/
  | opening
  /-- Measures the first stretch of a further round. -/
  | again
  /-- Measures the second stretch of a round, after a first one of this
  length. -/
  | closing (first : Nat)

namespace MergeMode

/-- The threshold as the merge goes on in a mode. -/
def threshold (g : Nat) : MergeMode → Nat
  | afresh => g + 1
  | again => if 1 < g then g - 1 else g
  | _ => g

/-- The counts of the elements in a row, while elements are compared. -/
def wins? : MergeMode → Option (Nat × Nat)
  | compare a b => some (a, b)
  | afresh => some (0, 0)
  | _ => none

/-- Whether the next stretch is in the run set aside. A round begins there
on the way up and in the other run on the way down. -/
def looksAside (d : Direction) : MergeMode → Bool
  | closing _ => d = .downward
  | _ => d = .upward

/-- The mode after a stretch of `k` elements. -/
def afterStretch (k : Nat) : MergeMode → MergeMode
  | closing first => if longStretch ≤ first || longStretch ≤ k then again else afresh
  | _ => closing k

/-- The mode after comparisons with these counts. -/
def afterWin (g a b : Nat) : MergeMode :=
  if g ≤ a || g ≤ b then opening else compare a b

end MergeMode

variable (lt : β → β → Bool)

/-- Whether one element comes before another, seen from the end where the
merge begins. -/
def Direction.before (d : Direction) (u v : β) : Bool :=
  match d with
  | upward => lt u v
  | downward => lt v u

/-- Two runs merged, both seen from the end where the merge begins, with
the threshold that is left. -/
def mergeFrom (d : Direction) : Nat → MergeMode → Nat → List β → List β → List β × Nat
  | fuel + 1, mode, g, x :: xs, y :: ys =>
    match settled? (x :: xs) (y :: ys), mode.wins? with
    | some merged, _ => (merged, g)
    | none, some (a, b) =>
      let g := mode.threshold g
      if d.before lt y x then
        (mergeFrom d fuel (.afterWin g 0 (b + 1)) g (x :: xs) ys).map (y :: ·) id
      else
        (mergeFrom d fuel (.afterWin g (a + 1) 0) g xs (y :: ys)).map (x :: ·) id
    | none, none =>
      let g := mode.threshold g
      if mode.looksAside d then
        let k := stretch d (fun x => !d.before lt y x) (x :: xs)
        ((settled? ((x :: xs).drop k) (y :: ys)).elim
          ((mergeFrom d fuel (mode.afterStretch k) g ((x :: xs).drop k) ys).map (y :: ·) id)
          (·, g)).map ((x :: xs).take k ++ ·) id
      else
        let k := stretch d (fun y => d.before lt y x) (y :: ys)
        ((settled? (x :: xs) ((y :: ys).drop k)).elim
          ((mergeFrom d fuel (mode.afterStretch k) g xs ((y :: ys).drop k)).map (x :: ·) id)
          (·, g)).map ((y :: ys).take k ++ ·) id
  | _, _, g, aside, other => (aside ++ other, g)

/-- A merge that begins with the first element of the other run. -/
def mergeTowards (d : Direction) (g : Nat) (aside : List β) : List β → List β × Nat
  | [] => (aside, g)
  | y :: ys =>
    (mergeFrom lt d (aside.length + ys.length) (.compare 0 0) g aside ys).map (y :: ·) id

/-- Two runs that overlap, merged from the end of the shorter one. -/
def mergeMiddle (g : Nat) (xs ys : List β) : List β × Nat :=
  if ys.isEmpty then (xs, g)
  else if xs.length ≤ ys.length then mergeTowards lt .upward g xs ys
  else (mergeTowards lt .downward g ys.reverse xs.reverse).map List.reverse id

/-- **Two neighbouring runs merged.** What lies in front of all of the
second run, or behind all of the first, stays where it is. -/
def merge (g : Nat) (xs ys : List β) : List β × Nat :=
  let front := match ys.head? with
    | some y => stretch .upward (fun x => !lt y x) xs
    | none => xs.length
  let moved := xs.drop front
  let kept := match moved.getLast? with
    | some x => ys.length - stretch .downward (fun y => !lt y x) ys.reverse
    | none => 0
  (mergeMiddle lt g moved (ys.take kept)).map (xs.take front ++ · ++ ys.drop kept) id

/-! ## Nothing is lost -/

theorem settled?_perm {aside other merged : List β} (h : settled? aside other = some merged) :
    merged.Perm (aside ++ other) := by
  unfold settled? at h
  split at h <;> cases h
  · simp
  · exact List.Perm.refl _
  · exact List.perm_append_comm

/-- A list settled at once or else merged in some other way. -/
theorem settled?_elim_perm {aside other : List β} {r : List β × Nat} (g : Nat)
    (h : r.1.Perm (aside ++ other)) :
    ((settled? aside other).elim r (·, g)).1.Perm (aside ++ other) := by
  cases settling : settled? aside other with
  | none => exact h
  | some merged => exact settled?_perm settling

theorem mergeFrom_perm (d : Direction) (fuel : Nat) (mode : MergeMode) (g : Nat)
    (aside other : List β) : (mergeFrom lt d fuel mode g aside other).1.Perm (aside ++ other) := by
  induction fuel generalizing mode g aside other with
  | zero => exact List.Perm.refl _
  | succ fuel ih =>
    match aside, other with
    | [], other => exact List.Perm.refl _
    | x :: xs, [] => exact List.Perm.refl _
    | x :: xs, y :: ys =>
      have fromOther (mode g zs) : ((mergeFrom lt d fuel mode g zs ys).map (y :: ·) id).1.Perm
          (zs ++ y :: ys) := ((ih mode g zs ys).cons y).trans List.perm_middle.symm
      have fromAside (mode g zs) : ((mergeFrom lt d fuel mode g xs zs).map (x :: ·) id).1.Perm
          (x :: xs ++ zs) := (ih mode g xs zs).cons x
      unfold mergeFrom
      split
      · exact settled?_perm ‹_›
      · dsimp only
        split
        · exact fromOther _ _ _
        · exact fromAside _ _ _
      · dsimp only
        split
        · generalize stretch d _ (x :: xs) = k
          have step := (settled?_elim_perm (mode.threshold g) (fromOther (mode.afterStretch k)
            (mode.threshold g) ((x :: xs).drop k))).append_left ((x :: xs).take k)
          rwa [← List.append_assoc, List.take_append_drop] at step
        · generalize stretch d _ (y :: ys) = k
          have step := (settled?_elim_perm (mode.threshold g) (fromAside (mode.afterStretch k)
            (mode.threshold g) ((y :: ys).drop k))).append_left ((y :: ys).take k)
          refine step.trans ((List.perm_append_comm_assoc _ _ _).trans ?_)
          rw [List.take_append_drop]

theorem mergeTowards_perm (d : Direction) (g : Nat) (aside other : List β) :
    (mergeTowards lt d g aside other).1.Perm (aside ++ other) := by
  cases other with
  | nil => simp [mergeTowards]
  | cons y ys =>
    exact ((mergeFrom_perm lt d _ _ g aside ys).cons y).trans List.perm_middle.symm

theorem mergeMiddle_perm (g : Nat) (xs ys : List β) :
    (mergeMiddle lt g xs ys).1.Perm (xs ++ ys) := by
  unfold mergeMiddle
  split
  · rename_i nothing
    rw [List.isEmpty_iff.1 nothing, List.append_nil]
  · split
    · exact mergeTowards_perm lt _ _ _ _
    · refine (List.reverse_perm _).trans ((mergeTowards_perm lt _ _ _ _).trans ?_)
      rw [← List.reverse_append]
      exact List.reverse_perm _

/-- Two runs merged are the elements of both. -/
theorem merge_perm (g : Nat) (xs ys : List β) : (merge lt g xs ys).1.Perm (xs ++ ys) := by
  have h (front kept : Nat) :
      (xs.take front ++ (mergeMiddle lt g (xs.drop front) (ys.take kept)).1 ++
        ys.drop kept).Perm (xs ++ ys) := by
    have step := ((mergeMiddle_perm lt g (xs.drop front) (ys.take kept)).append_left
      (xs.take front)).append_right (ys.drop kept)
    rwa [← List.append_assoc (xs.take front) (xs.drop front), List.take_append_drop,
      List.append_assoc xs, List.take_append_drop] at step
  exact h _ _

end DirectSearch.Sorting
