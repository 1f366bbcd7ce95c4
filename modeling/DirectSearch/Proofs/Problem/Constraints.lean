import DirectSearch.Problem.Evaluate
import DirectSearch.Proofs.Search.Steps
/-!
# Problems — the values of the constraints

Constraint values come in three blocks, one after the other: those of the
vector constraint, those that must not be positive, those that must vanish.
A function of the last two blocks returns a single number (`Singles`), so
these blocks have the sizes that they should have, and the size of the whole
is right just where that of the first block is. Nothing is returned
otherwise (`constraintsOf_eq_ok_iff`).
-/

namespace DirectSearch

variable {α : Type}

/-! ## Lists put together -/

theorem Entries.toGrid_ofList (xs : List α) : (Entries.ofList xs).toGrid = .ok (.ofList xs) := by
  have hshapes : ∀ ys : List α,
      Entries.shape.shapes (ys.map .one) = some (List.replicate ys.length []) := by
    intro ys
    induction ys with
    | nil => rfl
    | cons y ys ih => simp [Entries.shape.shapes, Entries.shape, ih, List.replicate_succ]
  have hnumbers : ∀ ys : List α, Entries.numbers.all (ys.map .one) = .ok ys := by
    intro ys
    induction ys with
    | nil => rfl
    | cons y ys ih =>
      simp only [List.map_cons, Entries.numbers.all, Entries.numbers, except_bind_eq_ok,
        except_pure_eq_ok]
      exact ⟨[y], rfl, ys, ih, rfl⟩
  have hshape : (Entries.ofList xs).shape = some [xs.length] := by
    rw [Entries.ofList, Entries.shape, hshapes]
    cases xs <;> simp [List.replicate_succ]
  rw [Entries.toGrid, hshape]
  simp [Entries.ofList, Entries.numbers, hnumbers, Except.map, Grid.ofList, Entries.maxDepth]

theorem Entries.ravel_ofList (xs : List α) : (Entries.ofList xs).ravel = .ok xs := by
  rw [Entries.ravel, Entries.toGrid_ofList]
  rfl

/-- Lists follow one another as their arrays do. -/
theorem Grid.concat_ofList (xss : List (List α)) :
    Grid.concat (xss.map .ofList) = .ok (.ofList xss.flatten) := by
  cases xss with
  | nil => rfl
  | cons xs xss =>
    have hshape : (xss.map Grid.ofList).all fun h =>
        h.shape.tail = (Grid.ofList xs).shape.tail &&
          h.shape.length = (Grid.ofList xs).shape.length := by
      simp [Grid.ofList]
    have hentries : ((Grid.ofList xs) :: xss.map Grid.ofList).flatMap (·.entries) =
        (xs :: xss).flatten := by
      simp [List.flatMap_def, Function.comp_def, Grid.ofList]
    have hlength : (((Grid.ofList xs) :: xss.map Grid.ofList).map (·.shape.headD 0)).foldl
        (· + ·) 0 = (xs :: xss).flatten.length := by
      rw [← List.sum_eq_foldl]
      simp [Function.comp_def, Grid.ofList]
    rw [List.map_cons, Grid.concat, if_pos hshape, hentries, hlength]
    rfl

/-! ## The three blocks -/

/-- Each function returns a single number. -/
def Singles (c : Counters) (x : Grid α) (fs : List (Callback α (Entries α))) (vs : List α) :
    Prop :=
  List.Forall₂ (fun f v => f c x = .ok (.one v)) fs vs

section

variable {c : Counters} {x : Grid α} {fs : List (Callback α (Entries α))} {vs : List α}

theorem Singles.mapM_eq (h : Singles c x fs vs) :
    (fs.mapM fun f => f c x) = .ok (vs.map Entries.one) :=
  except_mapM_eq_ok.2 (List.forall₂_map_right_iff.2 h)

/-- They are gathered in a list, which is left out where it is empty. -/
theorem Singles.gather_eq (h : Singles c x fs vs) :
    ∃ parts : List (List α),
      Problem.gather c x fs = .ok (parts.map Grid.ofList) ∧ parts.flatten = vs := by
  cases h with
  | nil => exact ⟨[], rfl, rfl⟩
  | @cons f v fs vs hf hfs =>
    have hvalues := Singles.mapM_eq (.cons hf hfs)
    refine ⟨[v :: vs], ?_, by simp⟩
    rw [Problem.gather, hvalues]
    · change (Entries.ofList (v :: vs)).toGrid >>= _ = _
      rw [Entries.toGrid_ofList]
      rfl
    · nofun

end

namespace Problem

variable {n : Nat} {p : Problem α n} {c : Counters} {x : Grid α} {vs gs hs : List α}

/-- The vector constraint returns these values, none if it is absent. -/
def BlockReturns (p : Problem α n) (c : Counters) (x : Grid α) (vs : List α) : Prop :=
  match p.block with
  | none => vs = []
  | some f => ∃ e, f c x = .ok e ∧ e.ravel = .ok vs

/-- **The values of all constraints** are those of the vector constraint,
with the single ones after them. -/
theorem constraintValues_eq_ok_iff (hgs : Singles c x p.inequalities gs)
    (hhs : Singles c x p.equalities hs) {y : Grid α} :
    p.constraintValues c x = .ok y ↔
      ∃ vs, p.BlockReturns c x vs ∧ y = .ofList (vs ++ gs ++ hs) := by
  obtain ⟨gparts, hgather, rfl⟩ := Singles.gather_eq hgs
  obtain ⟨hparts, hgather', rfl⟩ := Singles.gather_eq hhs
  -- an empty block is no part at all, and where there is no part nothing is put together
  have hconcat (first : List (List α)) :
      Grid.concat (first.map Grid.ofList ++ gparts.map Grid.ofList ++ hparts.map Grid.ofList) =
        .ok (.ofList (first.flatten ++ gparts.flatten ++ hparts.flatten)) := by
    simp only [← List.map_append, ← List.flatten_append, Grid.concat_ofList]
  unfold constraintValues BlockReturns
  rw [hgather, hgather']
  cases p.block with
  | none =>
    have hnone := hconcat []
    constructor
    · intro h
      exact ⟨[], rfl, (Except.ok.inj (hnone.symm.trans h)).symm⟩
    · rintro ⟨_, rfl, rfl⟩
      exact hnone
  | some f =>
    have hsome (vs : List α) := hconcat [vs]
    simp only [List.map_singleton, List.flatten_singleton] at hsome
    simp only [except_bind_eq_ok, except_pure_eq_ok]
    constructor
    · rintro ⟨e, he, vs, hvs, _, rfl, _, ⟨⟩, _, ⟨⟩, h⟩
      exact ⟨vs, ⟨e, he, hvs⟩, (Except.ok.inj ((hsome vs).symm.trans h)).symm⟩
    · rintro ⟨vs, ⟨e, he, hvs⟩, rfl⟩
      exact ⟨e, he, vs, hvs, _, rfl, _, rfl, _, rfl, hsome vs⟩

/-! ## An evaluation -/

theorem length_eq_constraintCount (hgs : Singles c x p.inequalities gs)
    (hhs : Singles c x p.equalities hs) :
    (vs ++ gs ++ hs).length = p.constraintCount ↔ vs.length = p.blockSize := by
  have hgcount : p.inequalities.length = gs.length := List.Forall₂.length_eq hgs
  have hhcount : p.equalities.length = hs.length := List.Forall₂.length_eq hhs
  rw [List.length_append, List.length_append, constraintCount]
  omega

/-- The constraints are returned where there are any and their values are in
the right number. -/
theorem constraintsOf_eq_ok {y : Grid α} {c' : Counters} :
    p.constraintsOf x c = .ok y c' ↔ 0 < p.constraintCount ∧
      p.constraintValues c.askConstraint x = .ok y ∧ y.entries.length = p.constraintCount ∧
        c.askConstraint = c' := by
  unfold constraintsOf
  by_cases hcount : p.constraintCount = 0
  · rw [if_pos hcount]
    exact iff_of_false nofun fun h => absurd hcount (Nat.ne_of_gt h.1)
  rw [if_neg hcount, and_iff_right (Nat.pos_of_ne_zero hcount)]
  cases hvalues : p.constraintValues c.askConstraint x with
  | error fault =>
    simp only [hvalues]
    exact iff_of_false nofun fun h => nomatch h.1
  | ok values =>
    by_cases hlength : values.entries.length = p.constraintCount
    · simp only [hvalues, if_pos hlength]
      constructor
      · rintro ⟨⟩
        exact ⟨rfl, hlength, rfl⟩
      · rintro ⟨⟨⟩, -, rfl⟩
        rfl
    · simp only [hvalues, if_neg hlength]
      refine iff_of_false nofun ?_
      rintro ⟨⟨⟩, h, -⟩
      exact hlength h

/-- **When constraints are returned:** there are some, and the vector
constraint has returned as many values as it should. They stand in the order
of their blocks. -/
theorem constraintsOf_eq_ok_iff (hgs : Singles c.askConstraint x p.inequalities gs)
    (hhs : Singles c.askConstraint x p.equalities hs) {y : Grid α} {c' : Counters} :
    p.constraintsOf x c = .ok y c' ↔ 0 < p.constraintCount ∧
      ∃ vs, p.BlockReturns c.askConstraint x vs ∧ vs.length = p.blockSize ∧
        y = .ofList (vs ++ gs ++ hs) ∧ c' = c.askConstraint := by
  rw [constraintsOf_eq_ok]
  constructor
  · rintro ⟨hcount, hvalues, hlength, rfl⟩
    obtain ⟨vs, hvs, rfl⟩ := (constraintValues_eq_ok_iff hgs hhs).1 hvalues
    exact ⟨hcount, vs, hvs, (length_eq_constraintCount hgs hhs).1 hlength, rfl, rfl⟩
  · rintro ⟨hcount, vs, hvs, hsize, rfl, rfl⟩
    exact ⟨hcount, (constraintValues_eq_ok_iff hgs hhs).2 ⟨vs, hvs, rfl⟩,
      (length_eq_constraintCount hgs hhs).2 hsize, rfl⟩

/-- **A wrong number of values** of the vector constraint is refused, and
what it is says how many there are in all. -/
theorem constraintsOf_eq_error (hgs : Singles c.askConstraint x p.inequalities gs)
    (hhs : Singles c.askConstraint x p.equalities hs)
    (hvs : p.BlockReturns c.askConstraint x vs) (hsize : vs.length ≠ p.blockSize)
    (hcount : 0 < p.constraintCount) :
    p.constraintsOf x c =
      .error (.constraintSize (vs ++ gs ++ hs).length p.constraintCount) c.askConstraint := by
  have hvalues := (constraintValues_eq_ok_iff hgs hhs).2 ⟨vs, hvs, rfl⟩
  simp only [constraintsOf, if_neg (Nat.ne_of_gt hcount), hvalues]
  exact if_neg (mt (length_eq_constraintCount hgs hhs).1 hsize)

end Problem

end DirectSearch
