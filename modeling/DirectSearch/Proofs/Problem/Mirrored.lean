import DirectSearch.Proofs.Binary64.Negation
import DirectSearch.Proofs.Problem.Joined
/-!
# Problems — a vector constraint and its mirror image

What a vector constraint says of its values can be said of the values turned
round, with the bounds turned round and exchanged. What is built of the mirror
image has the same size and the same violation everywhere, bit by bit. But the
size of the constraint is read off the lower bound first, and a single value
has the size one there, while it stands for a bound of any size otherwise:
where just one of two bounds is a single value and no size is stated, a
statement and its mirror image are not both accepted
(`mirrored_accepted_iff`).
-/

namespace DirectSearch

open Scalar

/-! ## Numbers changed one by one -/

namespace Entries

variable {α β γ : Type} {f : α → β}

/-- Every number changed. -/
def map (f : α → β) : Entries α → Entries β
  | one x => one (f x)
  | broken fault => broken fault
  | many parts => many (all parts)
where
  /-- All parts. -/
  all : List (Entries α) → List (Entries β)
  | [] => []
  | p :: ps => map f p :: all ps

mutual

theorem shape_map (f : α → β) : ∀ e : Entries α, (e.map f).shape = e.shape
  | one _ => rfl
  | broken _ => rfl
  | many parts => by rw [map, shape, shape, shapes_map]

theorem shapes_map (f : α → β) :
    ∀ parts : List (Entries α), shape.shapes (map.all f parts) = shape.shapes parts
  | [] => rfl
  | p :: ps => by rw [map.all, shape.shapes, shape.shapes, shape_map f p, shapes_map f ps]

end

mutual

theorem numbers_map (f : α → β) :
    ∀ e : Entries α, (e.map f).numbers = e.numbers.map (List.map f)
  | one _ => rfl
  | broken _ => rfl
  | many parts => all_map f parts

theorem all_map (f : α → β) : ∀ parts : List (Entries α),
    numbers.all (map.all f parts) = (numbers.all parts).map (List.map f)
  | [] => rfl
  | p :: ps => by
    rw [map.all, numbers.all, numbers.all, numbers_map f p, all_map f ps]
    cases p.numbers with
    | error fault => rfl
    | ok xs =>
      cases numbers.all ps with
      | error fault => rfl
      | ok ys => exact congrArg Except.ok (List.map_append ..).symm

end

/-- What is read row by row is changed entry by entry. -/
theorem ravel_map (f : α → β) (e : Entries α) : (e.map f).ravel = e.ravel.map (List.map f) := by
  rw [ravel, ravel, toGrid, toGrid, shape_map, numbers_map]
  cases e.shape with
  | none => rfl
  | some shape =>
    dsimp only
    split
    · rfl
    · cases e.numbers <;> rfl

mutual

theorem map_map_of_involutive (f : α → α) (h : ∀ x, f (f x) = x) :
    ∀ e : Entries α, (e.map f).map f = e
  | one x => by rw [map, map, h]
  | broken _ => rfl
  | many parts => by rw [map, map, all_all_of_involutive f h parts]

theorem all_all_of_involutive (f : α → α) (h : ∀ x, f (f x) = x) :
    ∀ parts : List (Entries α), map.all f (map.all f parts) = parts
  | [] => rfl
  | p :: ps => by
    rw [map.all, map.all, map_map_of_involutive f h p, all_all_of_involutive f h ps]

end

end Entries

/-! ## The mirror image -/

/-- Numbers turned round. -/
def Entries.mirrored (e : Entries Float) : Entries Float := e.map (- ·)

/-- A function with its values turned round. -/
def Callback.mirrored (f : Callback Float (Entries Float)) : Callback Float (Entries Float) :=
  fun c x => (f c x).map Entries.mirrored

/-- The same of a function that a caller supplies. -/
def Supplied.mirrored : Supplied (Callback Float (Entries Float)) →
    Supplied (Callback Float (Entries Float))
  | function f => function f.mirrored
  | unusable => unusable

/-- **The mirror image** of a statement: the vector constraint turned round,
between the bounds turned round and exchanged. -/
def Statement.mirrored (s : Statement Float) : Statement Float :=
  { s with
    block := s.block.map Supplied.mirrored
    constraintLower := s.constraintUpper.map Entries.mirrored
    constraintUpper := s.constraintLower.map Entries.mirrored }

/-- The mirror image of a problem without other constraints. -/
def Problem.mirrored {n : Nat} (p : Problem Float n) : Problem Float n :=
  { p with
    block := p.block.map Callback.mirrored
    constraintLower := p.constraintUpper.map (- ·)
    constraintUpper := p.constraintLower.map (- ·) }

theorem Entries.mirrored_mirrored (e : Entries Float) : e.mirrored.mirrored = e :=
  map_map_of_involutive _ Binary64.neg_neg_float e

theorem Entries.ravel_mirrored (e : Entries Float) :
    e.mirrored.ravel = e.ravel.map (List.map (- ·)) := ravel_map _ e

theorem Supplied.mirrored_mirrored (f : Supplied (Callback Float (Entries Float))) :
    f.mirrored.mirrored = f := by
  cases f with
  | unusable => rfl
  | function f =>
    rw [mirrored, mirrored]
    congr 1
    funext c x
    rw [Callback.mirrored, Callback.mirrored]
    cases f c x with
    | error fault => rfl
    | ok e => exact congrArg Except.ok e.mirrored_mirrored

/-- The image of the image is what it is the image of. -/
theorem Statement.mirrored_mirrored (s : Statement Float) : s.mirrored.mirrored = s := by
  have htwice {β : Type} {g : β → β} (hg : ∀ b, g (g b) = b) (v : Option β) :
      (v.map g).map g = v := by
    cases v with
    | none => rfl
    | some b => exact congrArg some (hg b)
  simp only [mirrored, htwice Supplied.mirrored_mirrored, htwice Entries.mirrored_mirrored]

/-! ## Bounds turned round -/

/-- A bound turned round is spread as the bound is. -/
theorem spreadBound_mirrored {v : Option (Entries Float)} {m : Value} {filling : Float}
    {name : String} {xs : List Float} (h : spreadBound v m filling name = .ok xs) (name' : String) :
    spreadBound (v.map Entries.mirrored) m (-filling) name' = .ok (xs.map (- ·)) := by
  cases v with
  | none =>
    change m.toSize.map _ = _ at h ⊢
    cases hsize : m.toSize with
    | error fault =>
      rw [hsize] at h
      cases h
    | ok size =>
      rw [hsize] at h
      cases h
      exact congrArg Except.ok List.map_replicate.symm
  | some e =>
    obtain ⟨zs, hzs, h⟩ := except_bind_eq_ok.1 h
    refine except_bind_eq_ok.2 ⟨zs.map (- ·), by rw [Entries.ravel_mirrored, hzs]; rfl, ?_⟩
    rw [List.length_map]
    split at h
    · rename_i hlength
      obtain rfl := except_pure_eq_ok.1 h
      rw [if_pos hlength]
      rfl
    · rename_i hlength
      rw [if_neg hlength]
      split at h
      · obtain ⟨size, hsize, h⟩ := except_bind_eq_ok.1 h
        obtain rfl := except_pure_eq_ok.1 h
        exact except_bind_eq_ok.2 ⟨size, hsize, by rw [List.map_replicate]; rfl⟩
      · cases h

/-- Bounds turned round and exchanged are crossed where the bounds are. -/
theorem crossed_mirrored (lower upper : List Float) :
    Statement.crossed (upper.map (- ·)) (lower.map (- ·)) = Statement.crossed lower upper := by
  have hlt (l u : Float) : lt (-l) (-u) = lt u l := Binary64.lt_neg_neg l u
  rw [Statement.crossed, Statement.crossed, List.zipWith_map, List.zipWith_comm]
  simp only [hlt]

/-! ## What is built -/

namespace Statement

variable {s : Statement Float} {n : Nat} {p : Problem Float n}

/-- A statement is accepted if a problem is built of it. -/
def IsAccepted (s : Statement Float) : Prop := ∃ n p, s.build = .ok ⟨n, p⟩

/-- The size of the vector constraint is to be read off two bounds of different
sizes, one of which is a single value. -/
structure IsLopsided (s : Statement Float) : Prop where
  block : s.block.isSome
  unstated : ¬ s.constraintSize.isPresent
  bounds : ∃ lower upper xs ys, s.constraintLower = some lower ∧ s.constraintUpper = some upper ∧
    lower.ravel = .ok xs ∧ upper.ravel = .ok ys ∧ xs.length ≠ ys.length ∧
      (xs.length = 1 ∨ ys.length = 1)

theorem IsLopsided.mirrored (h : s.IsLopsided) : s.mirrored.IsLopsided := by
  obtain ⟨lower, upper, xs, ys, hlower, hupper, hxs, hys, hne, hone⟩ := h.bounds
  refine ⟨by simpa [Statement.mirrored] using h.block, h.unstated,
    upper.mirrored, lower.mirrored, ys.map (- ·), xs.map (- ·), ?_, ?_, ?_, ?_, ?_, ?_⟩
  · rw [Statement.mirrored, hupper]
    rfl
  · rw [Statement.mirrored, hlower]
    rfl
  · rw [Entries.ravel_mirrored, hys]
    rfl
  · rw [Entries.ravel_mirrored, hxs]
    rfl
  · simpa using hne.symm
  · simpa using hone.symm

/-- A bound that is spread has the size or is a single value. -/
theorem length_of_spreadBound {e : Entries Float} {m : Nat} {filling : Float} {name : String}
    {xs zs : List Float} (h : spreadBound (some e) (.whole m) filling name = .ok zs)
    (hxs : e.ravel = .ok xs) : xs.length = m ∨ xs.length = 1 := by
  obtain ⟨-, hspreads⟩ := spreadBound_eq_ok h
  rcases hspreads with ⟨hzs, hlength⟩ | ⟨x, hx, -⟩
  · obtain rfl := Except.ok.inj (hxs.symm.trans hzs)
    exact .inl hlength
  · obtain rfl := Except.ok.inj (hxs.symm.trans hx)
    exact .inr rfl

/-- The size that is read off a lower bound is its own. -/
theorem blockSize_of_lower (hs : s.build = .ok ⟨n, p⟩) (hblock : s.block.isSome)
    (hunstated : ¬ s.constraintSize.isPresent) {e : Entries Float} {xs : List Float}
    (hlower : s.constraintLower = some e) (hxs : e.ravel = .ok xs) : xs.length = p.blockSize := by
  have hsize := blockSize_eq_ok (reads_of_build hs).blockSize
  rw [if_neg (by simpa [Option.isSome_iff_ne_none] using hblock), StatesSize, if_neg hunstated,
    hlower] at hsize
  obtain ⟨zs, hzs, hlength⟩ := hsize
  obtain rfl := Except.ok.inj (hxs.symm.trans hzs)
  omega

/-- Of a lopsided statement that is accepted, the upper bound is the single
value. -/
theorem IsLopsided.length_upper (h : s.IsLopsided) (hs : s.build = .ok ⟨n, p⟩)
    {upper : Entries Float} {ys : List Float} (hupper : s.constraintUpper = some upper)
    (hys : upper.ravel = .ok ys) : ys.length = 1 := by
  obtain ⟨lower, upper', xs, ys', hlower, hupper', hxs, hys', hne, -⟩ := h.bounds
  obtain rfl := Option.some.inj (hupper.symm.trans hupper')
  obtain rfl := Except.ok.inj (hys.symm.trans hys')
  have hsize := blockSize_of_lower hs h.block h.unstated hlower hxs
  obtain ⟨blockUpper, hspread, -⟩ := (reads_of_build hs).constraintUpper
  rw [hupper] at hspread
  exact (length_of_spreadBound hspread hys).resolve_left fun hlength => hne (by omega)

/-- A lopsided statement and its mirror image are not both accepted. -/
theorem IsLopsided.not_both (h : s.IsLopsided) (hs : s.IsAccepted) : ¬ s.mirrored.IsAccepted := by
  rintro ⟨n', p', hs'⟩
  obtain ⟨n, p, hs⟩ := hs
  obtain ⟨lower, upper, xs, ys, hlower, hupper, hxs, hys, hne, -⟩ := h.bounds
  have hlength := h.length_upper hs hupper hys
  have hlower' : s.mirrored.constraintUpper = some lower.mirrored := by
    rw [Statement.mirrored, hlower]
    rfl
  have hxs' : lower.mirrored.ravel = .ok (xs.map (- ·)) := by
    rw [Entries.ravel_mirrored, hxs]
    rfl
  have hlength' := h.mirrored.length_upper hs' hlower' hxs'
  rw [List.length_map] at hlength'
  omega

/-- Where a statement is not lopsided, its mirror image has the size that it
has. -/
theorem blockSize_mirrored (hl : ¬ s.IsLopsided) (h : s.Reads p) :
    s.mirrored.blockSize = .ok p.blockSize := by
  have hsize := h.blockSize
  have hlength (e : Entries Float) : (e.mirrored.ravel.map fun xs => (xs.length : Int)) =
      e.ravel.map fun xs => (xs.length : Int) := by
    rw [Entries.ravel_mirrored]
    cases e.ravel with
    | error fault => rfl
    | ok xs => exact congrArg (fun k : Nat => Except.ok (k : Int)) (List.length_map _)
  unfold blockSize at hsize ⊢
  have hnone : s.mirrored.block.isNone = s.block.isNone := Option.isNone_map
  have hstated : s.mirrored.constraintSize = s.constraintSize := rfl
  have hlower' : s.mirrored.constraintLower = s.constraintUpper.map Entries.mirrored := rfl
  have hupper' : s.mirrored.constraintUpper = s.constraintLower.map Entries.mirrored := rfl
  rw [hnone, hstated, hlower', hupper']
  by_cases hblock : s.block.isNone
  · rw [if_pos hblock] at hsize ⊢
    exact hsize
  rw [if_neg hblock] at hsize ⊢
  by_cases hpresent : s.constraintSize.isPresent
  · rw [if_pos hpresent] at hsize ⊢
    exact hsize
  rw [if_neg hpresent] at hsize ⊢
  cases hlower : s.constraintLower with
  | none =>
    rw [hlower] at hsize
    cases hupper : s.constraintUpper with
    | none =>
      rw [hupper] at hsize
      cases hsize
    | some e =>
      rw [hupper] at hsize
      exact (hlength e).trans hsize
  | some e =>
    rw [hlower] at hsize
    cases hupper : s.constraintUpper with
    | none => exact (hlength e).trans hsize
    | some e' =>
      -- the upper bound has the size that was read off the lower one, as it is not lopsided
      obtain ⟨blockUpper, hspread, -⟩ := h.constraintUpper
      rw [hupper] at hspread
      obtain ⟨ys, hys, -⟩ := except_bind_eq_ok.1 hspread
      change (e.ravel.map fun xs => (xs.length : Int)) = _ at hsize
      cases hxs : e.ravel with
      | error fault =>
        rw [hxs] at hsize
        cases hsize
      | ok xs =>
        rw [hxs] at hsize
        have hm : (xs.length : Int) = p.blockSize := Except.ok.inj hsize
        have heq : ys.length = p.blockSize := by
          refine (length_of_spreadBound hspread hys).elim id fun hone => ?_
          by_contra hne
          exact hl ⟨by simpa [Option.isSome_iff_ne_none] using hblock, hpresent, e, e', xs, ys,
            hlower, hupper, hxs, hys, by omega, .inr hone⟩
        refine (hlength e').trans ?_
        rw [hys, ← heq]
        rfl

/-- **The mirror image** of what is built is built of the mirror image, unless
the statement is lopsided. -/
theorem build_mirrored (hi : s.inequalities = []) (he : s.equalities = []) (hl : ¬ s.IsLopsided)
    (h : s.build = .ok ⟨n, p⟩) : s.mirrored.build = .ok ⟨n, p.mirrored⟩ := by
  have hreads := reads_of_build h
  have hi' : p.inequalities = [] := List.map_eq_nil_iff.1 (hreads.inequalities.symm.trans hi)
  have he' : p.equalities = [] := List.map_eq_nil_iff.1 (hreads.equalities.symm.trans he)
  obtain ⟨blockLower, hlower, hlower'⟩ := hreads.constraintLower
  obtain ⟨blockUpper, hupper, hupper'⟩ := hreads.constraintUpper
  have hblock : s.mirrored.block = p.mirrored.block.map .function := by
    change s.block.map Supplied.mirrored = (p.block.map Callback.mirrored).map .function
    rw [hreads.block]
    cases p.block <;> rfl
  have hsize := blockSize_mirrored hl hreads
  have hlowerList : p.mirrored.constraintLower.toList = p.constraintUpper.toList.map (- ·) :=
    Vector.toList_map
  have hupperList : p.mirrored.constraintUpper.toList = p.constraintLower.toList.map (- ·) :=
    Vector.toList_map
  refine build_of_reads ⟨hreads.name, hreads.objective, hblock, hreads.inequalities,
    hreads.equalities, hreads.start, hreads.lower, hreads.upper, hreads.ordered, hsize,
    ⟨blockUpper.map (- ·), spreadBound_mirrored hupper _, ?_⟩,
    ⟨blockLower.map (- ·), spreadBound_mirrored hlower _, ?_⟩, ?_⟩
  · rw [hlowerList, hupper']
    simp [Problem.mirrored, hi', he']
  · rw [hupperList, hlower']
    simp [Problem.mirrored, hi', he']
  · rw [hlowerList, hupperList, crossed_mirrored]
    exact hreads.constraintOrdered

end Statement

/-! ## What is violated -/

theorem excessOver_mirrored {m : Nat} (y lo hi : Point Float m) :
    Point.excessOver (y.map (- ·)) (hi.map (- ·)) (lo.map (- ·)) = y.excessOver lo hi := by
  have hget (z : Point Float m) (i : Fin m) : (z.map (- ·)).get i = -z.get i := by
    simp [Vector.get]
  have hexcess (lo v hi : Float) : square (excess (-hi) (-v) (-lo)) = square (excess lo v hi) := by
    rw [excess, excess, Binary64.neg_sub_neg, Binary64.neg_sub_neg, Binary64.square_maximum_comm]
  simp only [Point.excessOver, hget, hexcess]

namespace Problem

variable {n : Nat} {p : Problem Float n}

theorem constraintValues_mirrored (hi : p.inequalities = []) (he : p.equalities = [])
    (c : Counters) (x : Grid Float) :
    p.mirrored.constraintValues c x = (p.constraintValues c x).map (Grid.map (- ·)) := by
  have hnone {fs : List (Callback Float (Entries Float))} (hfs : fs = []) :
      gather c x fs = .ok [] := by
    rw [hfs]
    rfl
  have hi' : p.mirrored.inequalities = [] := hi
  have he' : p.mirrored.equalities = [] := he
  have hblock : p.mirrored.block = p.block.map Callback.mirrored := rfl
  rw [constraintValues, constraintValues, hnone hi, hnone he, hnone hi', hnone he', hblock]
  cases p.block with
  | none => rfl
  | some f =>
    have hconcat (ys : List Float) :
        Grid.concat ([Grid.ofList ys] ++ [] ++ []) = .ok (.ofList ys) := by
      simpa using Grid.concat_ofList [ys]
    simp only [Option.map_some, Callback.mirrored]
    cases f c x with
    | error fault => rfl
    | ok e =>
      have hravel := e.ravel_mirrored
      cases hxs : e.ravel with
      | error fault =>
        rw [hxs] at hravel
        simp only [hravel, hxs, Except.map, bind, Except.bind]
      | ok xs =>
        rw [hxs] at hravel
        simp only [hravel, hxs, Except.map, bind, Except.bind, pure, Except.pure, hconcat]
        rw [Grid.ofList, Grid.map, Grid.ofList, List.length_map]

/-- **The constraints of the mirror image** are those of the problem turned
round, and end with the same faults. -/
theorem constraintsOf_mirrored (hi : p.inequalities = []) (he : p.equalities = [])
    (c : Counters) (x : Grid Float) :
    p.mirrored.constraintsOf x c = match p.constraintsOf x c with
      | .ok y c' => .ok (y.map (- ·)) c'
      | .error fault c' => .error fault c' := by
  have hcount : p.mirrored.constraintCount = p.constraintCount := rfl
  have hvalues := constraintValues_mirrored hi he c.askConstraint x
  unfold constraintsOf
  rw [hcount]
  by_cases hzero : p.constraintCount = 0
  · rw [if_pos hzero, if_pos hzero]
    rfl
  rw [if_neg hzero, if_neg hzero]
  simp only [hvalues]
  cases p.constraintValues c.askConstraint x with
  | error fault => rfl
  | ok y =>
    have hlength : (y.map (- ·)).entries.length = y.entries.length := List.length_map _
    simp only [Except.map, hlength]
    split <;> rfl

/-- Constraints that are returned are a point between their bounds, or beside
them. -/
theorem exists_point_of_constraintsOf (hi : p.inequalities = []) (he : p.equalities = [])
    {c c' : Counters} {x y : Grid Float} (h : p.constraintsOf x c = .ok y c') :
    ∃ v : Point Float p.constraintCount, y = v.toGrid := by
  have hgs : Singles c.askConstraint x p.inequalities [] := hi ▸ .nil
  have hhs : Singles c.askConstraint x p.equalities [] := he ▸ .nil
  obtain ⟨-, vs, -, hlength, rfl, -⟩ := (constraintsOf_eq_ok_iff hgs hhs).1 h
  rw [List.append_nil, List.append_nil]
  have hcount : p.constraintCount = p.blockSize := by rw [constraintCount, hi, he]; rfl
  exact ⟨⟨vs.toArray, by simp [hcount, hlength]⟩, rfl⟩

/-- **The violation of the mirror image** is the violation, at any array and
after any evaluations, and fails as that fails. -/
theorem violationOf_mirrored (hi : p.inequalities = []) (he : p.equalities = []) (x : Grid Float) :
    p.mirrored.violationOf x = p.violationOf x := by
  have hfree : p.mirrored.isUnconstrained = p.isUnconstrained := rfl
  have hcount : p.mirrored.constraintCount = p.constraintCount := rfl
  unfold violationOf
  rw [hfree, hcount]
  refine ite_congr rfl (fun _ => rfl) fun _ => congrArg _ (funext fun bounds => ?_)
  refine ite_congr rfl (fun _ => rfl) fun _ => funext fun c => ?_
  have hvalues := constraintsOf_mirrored hi he c x
  simp only [bind, EStateM.bind, hvalues]
  cases h : p.constraintsOf x c with
  | error fault c' => rfl
  | ok y c' =>
    obtain ⟨v, rfl⟩ := exists_point_of_constraintsOf hi he h
    have hgrid (z : Point Float p.constraintCount) :
        z.toGrid.map (- ·) = Point.toGrid (z.map (- ·)) := by
      have hlist : (z.map (- ·)).toList = z.toList.map (- ·) := Vector.toList_map
      rw [Point.toGrid, Point.toGrid, Grid.ofList, Grid.ofList, Grid.map, hlist, List.length_map]
    have hexcess : totalExcess (v.toGrid.map (- ·)) (Point.toGrid p.mirrored.constraintLower)
          (Point.toGrid p.mirrored.constraintUpper) =
        totalExcess v.toGrid (Point.toGrid p.constraintLower) (Point.toGrid p.constraintUpper) := by
      rw [hgrid, Point.totalExcess_toGrid]
      refine (Point.totalExcess_toGrid _ _ _).trans (congrArg Except.ok ?_)
      exact excessOver_mirrored v p.constraintLower p.constraintUpper
    simp only [hexcess]

end Problem

/-- **A constraint and its mirror image.** Where a statement has no other
constraints, it and its mirror image are both accepted or both refused, unless
the size is to be read off two bounds of different sizes one of which is a
single value: then just one of them is accepted, if any. Where both are
accepted, they have as many variables and constraint values, and the same
violation at every array, with the same evaluations counted and the same
faults. -/
theorem mirrored_accepted_iff (s : Statement Float) (hi : s.inequalities = [])
    (he : s.equalities = []) :
    ((s.IsAccepted ↔ s.mirrored.IsAccepted) ↔
      ¬ (s.IsLopsided ∧ (s.IsAccepted ∨ s.mirrored.IsAccepted))) ∧
    ∀ n p n' p', s.build = .ok ⟨n, p⟩ → s.mirrored.build = .ok ⟨n', p'⟩ →
      n' = n ∧ p'.blockSize = p.blockSize ∧ ∀ x, p'.violationOf x = p.violationOf x := by
  have hsame (hl : ¬ s.IsLopsided) : s.IsAccepted ↔ s.mirrored.IsAccepted := by
    refine ⟨fun ⟨n, p, h⟩ => ⟨n, _, Statement.build_mirrored hi he hl h⟩, fun ⟨n, p, h⟩ => ?_⟩
    have hl' : ¬ s.mirrored.IsLopsided := fun hl' =>
      hl (by simpa only [s.mirrored_mirrored] using hl'.mirrored)
    have hback := Statement.build_mirrored (s := s.mirrored) hi he hl' h
    rw [s.mirrored_mirrored] at hback
    exact ⟨n, _, hback⟩
  refine ⟨⟨fun hiff hboth => ?_, fun hnone => ?_⟩, fun n p n' p' h h' => ?_⟩
  · obtain ⟨hl, haccepted⟩ := hboth
    have hs := haccepted.elim id hiff.2
    exact hl.not_both hs (hiff.1 hs)
  · by_cases hl : s.IsLopsided
    · have hneither := not_or.1 fun haccepted => hnone ⟨hl, haccepted⟩
      exact iff_of_false hneither.1 hneither.2
    · exact hsame hl
  · have hl : ¬ s.IsLopsided := fun hl => hl.not_both ⟨n, p, h⟩ ⟨n', p', h'⟩
    have hreads := Statement.reads_of_build h
    have hi' : p.inequalities = [] := List.map_eq_nil_iff.1 (hreads.inequalities.symm.trans hi)
    have he' : p.equalities = [] := List.map_eq_nil_iff.1 (hreads.equalities.symm.trans he)
    cases h'.symm.trans (Statement.build_mirrored hi he hl h)
    exact ⟨rfl, rfl, Problem.violationOf_mirrored hi' he'⟩

/-- Three copies of the one variable, none of which is to be negative. -/
def Statement.tripled : Statement Float where
  objective := .function fun _ _ => .ok zero
  dimension := .whole 1
  block := some (.function fun _ x =>
    let value := x.entries.headD zero
    .ok (.ofList [value, value, value]))
  constraintLower := some (.ofList [zero, zero, zero])

/-- They can as well be said to be below zero when turned round. -/
theorem tripled_mirrored :
    ∃ p p', Statement.tripled.build = .ok ⟨1, p⟩ ∧ Statement.tripled.mirrored.build = .ok ⟨1, p'⟩ ∧
      p'.blockSize = 3 ∧ ∀ x, p'.violationOf x = p.violationOf x := by
  obtain ⟨hiff, hsame⟩ := mirrored_accepted_iff .tripled rfl rfl
  have hbalanced : ¬ Statement.tripled.IsLopsided := by
    rintro ⟨-, -, lower, upper, xs, ys, -, hupper, -⟩
    cases hupper
  obtain ⟨p, hp, hthree⟩ : ∃ p, Statement.tripled.build = .ok ⟨1, p⟩ ∧ p.blockSize = 3 :=
    ⟨_, rfl, rfl⟩
  obtain ⟨n', p', hp'⟩ := (hiff.2 fun h => hbalanced h.1).1 ⟨1, p, hp⟩
  obtain ⟨rfl, hsize, hviolation⟩ := hsame 1 p n' p' hp hp'
  exact ⟨p, p', hp, hp', hsize.trans hthree, hviolation⟩

/-- The same between a single zero below and three ones above. -/
def Statement.boxed : Statement Float :=
  { Statement.tripled with
    constraintLower := some (.one zero), constraintUpper := some (.ofList [one, one, one]) }

/-- It is refused, but its mirror image is not. -/
theorem boxed_refused : ¬ Statement.boxed.IsAccepted ∧ Statement.boxed.mirrored.IsAccepted := by
  have hrefused : Statement.boxed.build = .error (.vectorSize "ucon" 3 (.whole 1)) := rfl
  refine ⟨?_, 1, _, rfl⟩
  rintro ⟨n, p, h⟩
  cases hrefused.symm.trans h

end DirectSearch
