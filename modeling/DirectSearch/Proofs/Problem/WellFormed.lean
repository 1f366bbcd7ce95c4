import DirectSearch.Problem.Statement
import DirectSearch.Proofs.Problem.Constraints
/-!
# Problems — what a statement is made into

A statement may leave out most of what it could say, and what it says may be
of any size. What `build` makes of it, if it makes anything, is a problem with
at least one variable, with bounds as they were stated and none above its
partner, and with constraints of which each stands in its own block
(`Statement.Yields`). An evaluation of these constraints returns the values
of all blocks, each as many as there are bounds for it, or nothing
(`build_wellFormed`).
-/

namespace DirectSearch

open Scalar

variable {α : Type}

/-! ## Bounds as stated -/

/-- A bound of size `m` as it was stated: the filling where nothing is
stated, the entries if they are `m` in number, and a single entry otherwise
repeated. -/
def Spreads (v : Option (Entries α)) (filling : α) (m : Nat) (xs : List α) : Prop :=
  match v with
  | none => xs = List.replicate m filling
  | some e => e.ravel = .ok xs ∧ xs.length = m ∨
      ∃ x, e.ravel = .ok [x] ∧ xs = List.replicate m x

section

variable {v : Option (Entries α)} {filling : α} {name : String} {xs ys : List α}

theorem Spreads.length_eq {m : Nat} (h : Spreads v filling m xs) : xs.length = m := by
  unfold Spreads at h
  cases v with
  | none => rw [h, List.length_replicate]
  | some e =>
    rcases h with ⟨-, hlength⟩ | ⟨x, -, rfl⟩
    · exact hlength
    · exact List.length_replicate

theorem arraySize_eq_ok {m : Int} {size : Nat} (h : arraySize m = .ok size) : m = size := by
  unfold arraySize at h
  split at h
  · cases h
  · rename_i hsize
    cases h
    simp only [Bool.or_eq_true, decide_eq_true_eq, not_or] at hsize
    omega

/-- **What is spread** over a size is a bound as stated, and a size below
zero takes none. -/
theorem spreadBound_eq_ok {m : Int} (h : spreadBound v (.whole m) filling name = .ok xs) :
    m = m.toNat ∧ Spreads v filling m.toNat xs := by
  unfold spreadBound at h
  cases v with
  | none =>
    cases hsize : (Value.whole m).toSize with
    | error fault =>
      rw [hsize] at h
      cases h
    | ok size =>
      obtain rfl := arraySize_eq_ok hsize
      rw [hsize] at h
      cases h
      exact ⟨rfl, rfl⟩
  | some e =>
    obtain ⟨zs, hzs, h⟩ := except_bind_eq_ok.1 h
    -- the size that was stated may be negative, and is only now compared
    by_cases hlength : m = zs.length
    · rw [if_pos (by simpa using hlength)] at h
      obtain rfl := except_pure_eq_ok.1 h
      exact ⟨by omega, .inl ⟨hzs, by omega⟩⟩
    · rw [if_neg (by simpa using hlength)] at h
      split at h
      · rename_i x
        obtain ⟨size, hsize, hsome⟩ := except_bind_eq_ok.1 h
        obtain rfl := arraySize_eq_ok hsize
        obtain rfl := except_pure_eq_ok.1 hsome
        exact ⟨rfl, .inr ⟨x, hzs, rfl⟩⟩
      · cases h

end

/-! ## Functions as supplied -/

theorem Supplied.need_eq_ok {φ : Type} {fault : Fault} {f : φ} {s : Supplied φ} :
    s.need fault = .ok f ↔ s = .function f := by
  cases s <;> simp [Supplied.need]

theorem Supplied.mapM_need_eq_ok {φ : Type} {fault : Fault} {fs : List φ}
    {ss : List (Supplied φ)} :
    ss.mapM (Supplied.need fault) = .ok fs ↔ ss = fs.map .function := by
  have heq : List.Forall₂ (fun s f => s = .function f) ss fs ↔ ss = fs.map .function := by
    rw [← List.forall₂_map_right_iff (R := (· = ·)), List.forall₂_eq_eq_eq]
  simpa only [except_mapM_eq_ok, Supplied.need_eq_ok] using heq

theorem Supplied.mapM_option_need_eq_ok {φ : Type} {fault : Fault} {f : Option φ}
    {s : Option (Supplied φ)} :
    s.mapM (Supplied.need fault) = .ok f ↔ s = f.map .function := by
  rcases s with _ | _ | f'
  · cases f <;> simp [pure, Except.pure]
  · cases f <;> simp [Supplied.need, Functor.map, Except.map]
  · cases f <;> simp [Supplied.need, Functor.map, Except.map]

namespace Statement

variable [Extended α] {n : Nat} {s : Statement α} {p : Problem α n}

/-! ## The start -/

theorem startVector_eq_ok {xs : List α} (h : s.startVector = .ok xs) :
    s.startNumbers = .ok xs ∧ 0 < xs.length ∧
      (s.dimension.isPresent → s.dimension.isWhole xs.length) := by
  obtain ⟨ys, hys, h⟩ := except_bind_eq_ok.1 h
  obtain ⟨k, hk, h⟩ := except_bind_eq_ok.1 h
  by_cases hpos : k.le (.whole 0)
  · rw [if_pos hpos] at h
    cases h
  rw [if_neg hpos] at h
  by_cases hsame : (Number.whole ys.length).same k
  · rw [if_neg (by simp [hsame])] at h
    obtain rfl := except_pure_eq_ok.1 h
    rw [Number.same, Bool.and_eq_true] at hsame
    refine ⟨hys, Nat.pos_of_ne_zero fun hzero => hpos ?_, fun hpresent => ?_⟩
    · -- what is the same as zero is not above zero
      rw [hzero] at hsame
      exact hsame.2
    · rw [if_pos hpresent] at hk
      simp [Value.isWhole, hk, Number.same, hsame]
  · rw [if_pos (by simp [hsame])] at h
    cases h

/-- Bounds are not crossed where none is above its partner. -/
theorem crossed_eq_false_iff {lower upper : Vector α n} :
    crossed lower.toList upper.toList = false ↔ ∀ i : Fin n, ¬ lt (upper.get i) (lower.get i) := by
  simp only [crossed, List.any_eq_false, id, List.mem_iff_getElem, List.length_zipWith,
    List.getElem_zipWith, Vector.length_toList, Vector.getElem_toList]
  constructor
  · intro h i
    exact h _ ⟨i, by omega, rfl⟩
  · rintro h _ ⟨i, hi, rfl⟩
    exact h ⟨i, by omega⟩

omit [Extended α] in
theorem sized_eq_ok {fault : Fault} {xs : List α} {x : Vector α n} :
    sized fault n xs = .ok x ↔ x.toList = xs := by
  constructor
  · intro h
    unfold sized at h
    split at h
    · cases h
      rfl
    · cases h
  · rintro rfl
    exact sized_toList fault x

/-! ## The problem -/

/-- The size that a statement gives its vector constraint: what it says, or
else the size of the first of its two bounds that is there. -/
def StatesSize (s : Statement α) (m : Int) : Prop :=
  if s.constraintSize.isPresent then s.constraintSize.toWhole = .ok m
  else match s.constraintLower, s.constraintUpper with
    | some e, _ | none, some e => ∃ xs, e.ravel = .ok xs ∧ xs.length = m
    | none, none => False

/-- **A problem as a statement describes it.** -/
structure Yields (s : Statement α) (p : Problem α n) : Prop where
  name : s.name = p.name
  objective : s.objective = .function p.objective
  block : s.block = p.block.map .function
  inequalities : s.inequalities = p.inequalities.map .function
  equalities : s.equalities = p.equalities.map .function
  /-- There is a variable, and as many as stated. -/
  pos : 0 < n
  dimension : s.dimension.isPresent → s.dimension.isWhole n
  start : s.startNumbers = .ok p.start.toList
  lower : Spreads s.lower (-Extended.infinity) n p.lower.toList
  upper : Spreads s.upper Extended.infinity n p.upper.toList
  ordered : ∀ i : Fin n, ¬ lt (p.upper.get i) (p.lower.get i)
  blockSize : if p.block.isNone then p.blockSize = 0 else s.StatesSize p.blockSize
  /-- Below stand the bounds of the vector constraint, then no bounds, then
  zeros. -/
  constraintLower : ∃ blockLower,
    Spreads s.constraintLower (-Extended.infinity) p.blockSize blockLower ∧
      p.constraintLower.toList = blockLower ++
        List.replicate p.inequalities.length (-Extended.infinity) ++
        List.replicate p.equalities.length zero
  /-- Above stand the bounds of the vector constraint, then zeros. -/
  constraintUpper : ∃ blockUpper,
    Spreads s.constraintUpper Extended.infinity p.blockSize blockUpper ∧
      p.constraintUpper.toList = blockUpper ++ List.replicate p.inequalities.length zero ++
        List.replicate p.equalities.length zero
  constraintOrdered : ∀ i : Fin p.constraintCount,
    ¬ lt (p.constraintUpper.get i) (p.constraintLower.get i)

omit [Extended α] in
theorem blockSize_eq_ok {m : Int} (h : s.blockSize = .ok m) :
    if s.block.isNone then m = 0 else s.StatesSize m := by
  unfold blockSize at h
  split at h
  · rename_i hnone
    rw [if_pos hnone]
    exact (Except.ok.inj h).symm
  · rename_i hsome
    rw [if_neg hsome, StatesSize]
    split at h
    · rename_i hpresent
      rw [if_pos hpresent]
      exact h
    · rename_i habsent
      rw [if_neg habsent]
      have hof {e : Entries α} (he : e.ravel.map (fun xs => (xs.length : Int)) = .ok m) :
          ∃ xs, e.ravel = .ok xs ∧ xs.length = m := by
        cases hxs : e.ravel with
        | error fault =>
          rw [hxs] at he
          cases he
        | ok xs =>
          rw [hxs] at he
          exact ⟨xs, rfl, Except.ok.inj he⟩
      cases hlower : s.constraintLower with
      | some e =>
        rw [hlower] at h
        exact hof h
      | none =>
        cases hupper : s.constraintUpper with
        | some e =>
          rw [hlower, hupper] at h
          exact hof h
        | none =>
          rw [hlower, hupper] at h
          cases h

/-- What is read off a statement when a problem is built, one part after the
other. -/
structure Reads (s : Statement α) (p : Problem α n) : Prop where
  name : s.name = p.name
  objective : s.objective = .function p.objective
  block : s.block = p.block.map .function
  inequalities : s.inequalities = p.inequalities.map .function
  equalities : s.equalities = p.equalities.map .function
  start : s.startVector = .ok p.start.toList
  lower : spreadBound s.lower (.whole n) (-Extended.infinity) "lvar" = .ok p.lower.toList
  upper : spreadBound s.upper (.whole n) Extended.infinity "uvar" = .ok p.upper.toList
  ordered : crossed p.lower.toList p.upper.toList = false
  blockSize : s.blockSize = .ok p.blockSize
  constraintLower : ∃ blockLower,
    spreadBound s.constraintLower (.whole p.blockSize) (-Extended.infinity) "lcon" =
      .ok blockLower ∧
    p.constraintLower.toList = blockLower ++ p.inequalities.map (fun _ => -Extended.infinity) ++
      p.equalities.map (fun _ => zero)
  constraintUpper : ∃ blockUpper,
    spreadBound s.constraintUpper (.whole p.blockSize) Extended.infinity "ucon" =
      .ok blockUpper ∧
    p.constraintUpper.toList = blockUpper ++ p.inequalities.map (fun _ => zero) ++
      p.equalities.map (fun _ => zero)
  constraintOrdered : crossed p.constraintLower.toList p.constraintUpper.toList = false

/-- What is built has been read off the statement. -/
theorem reads_of_build (h : s.build = .ok ⟨n, p⟩) : s.Reads p := by
  obtain ⟨objective, hobjective, h⟩ := except_bind_eq_ok.1 h
  obtain ⟨block, hblock, h⟩ := except_bind_eq_ok.1 h
  obtain ⟨inequalities, hinequalities, h⟩ := except_bind_eq_ok.1 h
  obtain ⟨equalities, hequalities, h⟩ := except_bind_eq_ok.1 h
  obtain ⟨xs, hxs, h⟩ := except_bind_eq_ok.1 h
  obtain ⟨lower, hlower, h⟩ := except_bind_eq_ok.1 h
  obtain ⟨upper, hupper, h⟩ := except_bind_eq_ok.1 h
  by_cases hcrossed : crossed lower upper
  · rw [if_pos hcrossed] at h
    cases h
  rw [if_neg hcrossed] at h
  obtain ⟨m, hm, h⟩ := except_bind_eq_ok.1 h
  obtain ⟨blockLower, hblockLower, h⟩ := except_bind_eq_ok.1 h
  obtain ⟨blockUpper, hblockUpper, h⟩ := except_bind_eq_ok.1 h
  by_cases hconstraints : crossed
      (blockLower ++ inequalities.map (fun _ => -Extended.infinity)
        ++ equalities.map (fun _ => zero))
      (blockUpper ++ inequalities.map (fun _ => zero) ++ equalities.map (fun _ => zero))
  · rw [if_pos hconstraints] at h
    cases h
  rw [if_neg hconstraints] at h
  obtain ⟨lower', hlower', h⟩ := except_bind_eq_ok.1 h
  obtain ⟨upper', hupper', h⟩ := except_bind_eq_ok.1 h
  obtain ⟨constraintLower, hconstraintLower, h⟩ := except_bind_eq_ok.1 h
  obtain ⟨constraintUpper, hconstraintUpper, h⟩ := except_bind_eq_ok.1 h
  cases except_pure_eq_ok.1 h
  obtain rfl := sized_eq_ok.1 hlower'
  obtain rfl := sized_eq_ok.1 hupper'
  rw [sized_eq_ok] at hconstraintLower hconstraintUpper
  -- a bound is spread over no negative size
  obtain ⟨hsize, -⟩ := spreadBound_eq_ok hblockLower
  rw [hsize] at hm hblockLower hblockUpper
  rw [← hconstraintLower, ← hconstraintUpper] at hconstraints
  exact ⟨rfl, Supplied.need_eq_ok.1 hobjective, Supplied.mapM_option_need_eq_ok.1 hblock,
    Supplied.mapM_need_eq_ok.1 hinequalities, Supplied.mapM_need_eq_ok.1 hequalities,
    by simpa using hxs, hlower, hupper, Bool.of_not_eq_true hcrossed, hm,
    ⟨blockLower, hblockLower, hconstraintLower⟩, ⟨blockUpper, hblockUpper, hconstraintUpper⟩,
    Bool.of_not_eq_true hconstraints⟩

/-- What can be read off a statement is built. -/
theorem build_of_reads (h : s.Reads p) : s.build = .ok ⟨n, p⟩ := by
  obtain ⟨blockLower, hblockLower, hconstraintLower⟩ := h.constraintLower
  obtain ⟨blockUpper, hblockUpper, hconstraintUpper⟩ := h.constraintUpper
  rcases p with ⟨name, objective, block, blockSize, inequalities, equalities, ⟨⟨xs⟩, rfl⟩, lower,
    upper, constraintLower, constraintUpper⟩
  obtain rfl : s.name = name := h.name
  -- the parts follow in the order in which they are read, each check after what it looks at
  refine except_bind_eq_ok.2 ⟨objective, Supplied.need_eq_ok.2 h.objective, ?_⟩
  refine except_bind_eq_ok.2 ⟨block, Supplied.mapM_option_need_eq_ok.2 h.block, ?_⟩
  refine except_bind_eq_ok.2 ⟨inequalities, Supplied.mapM_need_eq_ok.2 h.inequalities, ?_⟩
  refine except_bind_eq_ok.2 ⟨equalities, Supplied.mapM_need_eq_ok.2 h.equalities, ?_⟩
  refine except_bind_eq_ok.2 ⟨xs, h.start, ?_⟩
  refine except_bind_eq_ok.2 ⟨lower.toList, h.lower, ?_⟩
  refine except_bind_eq_ok.2 ⟨upper.toList, h.upper, ?_⟩
  rw [if_neg (Bool.eq_false_iff.1 h.ordered)]
  refine except_bind_eq_ok.2 ⟨blockSize, h.blockSize, ?_⟩
  refine except_bind_eq_ok.2 ⟨blockLower, hblockLower, ?_⟩
  refine except_bind_eq_ok.2 ⟨blockUpper, hblockUpper, ?_⟩
  rw [← hconstraintLower, ← hconstraintUpper]
  rw [if_neg (Bool.eq_false_iff.1 h.constraintOrdered)]
  refine except_bind_eq_ok.2 ⟨lower, sized_toList _ lower, ?_⟩
  refine except_bind_eq_ok.2 ⟨upper, sized_toList _ upper, ?_⟩
  refine except_bind_eq_ok.2 ⟨constraintLower, sized_toList _ constraintLower, ?_⟩
  exact except_bind_eq_ok.2 ⟨constraintUpper, sized_toList _ constraintUpper, rfl⟩

/-- **What is built** of a statement is as the statement describes it. -/
theorem yields_of_build (h : s.build = .ok ⟨n, p⟩) : s.Yields p := by
  have hreads := reads_of_build h
  obtain ⟨hstart, hpos, hdimension⟩ := startVector_eq_ok hreads.start
  obtain ⟨-, hlower⟩ := spreadBound_eq_ok hreads.lower
  obtain ⟨-, hupper⟩ := spreadBound_eq_ok hreads.upper
  obtain ⟨blockLower, hspread, hconstraintLower⟩ := hreads.constraintLower
  obtain ⟨blockUpper, hspread', hconstraintUpper⟩ := hreads.constraintUpper
  obtain ⟨-, hblockLower⟩ := spreadBound_eq_ok hspread
  obtain ⟨-, hblockUpper⟩ := spreadBound_eq_ok hspread'
  have hsize := blockSize_eq_ok hreads.blockSize
  rw [hreads.block, Option.isNone_map, Int.natCast_eq_zero] at hsize
  rw [Vector.length_toList] at hpos hdimension
  rw [List.map_const', List.map_const'] at hconstraintLower hconstraintUpper
  exact ⟨hreads.name, hreads.objective, hreads.block, hreads.inequalities, hreads.equalities,
    hpos, hdimension, hstart, hlower, hupper, crossed_eq_false_iff.1 hreads.ordered, hsize,
    ⟨blockLower, hblockLower, hconstraintLower⟩, ⟨blockUpper, hblockUpper, hconstraintUpper⟩,
    crossed_eq_false_iff.1 hreads.constraintOrdered⟩

end Statement

/-! ## What is well-formed -/

/-- **What a statement is made into, and what its constraints return.** The
problem is as stated, no evaluation is counted before the first, and where the
functions of the last two blocks return single numbers, the constraints
return an array just where there are any and the vector constraint has
returned as many values as it has bounds. Then the values of each block stand
where its bounds do. Any other number of values is refused. -/
theorem build_wellFormed [Extended α] {n : Nat} {s : Statement α} {p : Problem α n}
    (h : s.build = .ok ⟨n, p⟩) :
    s.Yields p ∧ (Tally.empty : Tally α).counters = ⟨0, 0⟩ ∧
      ∀ c x gs hs, Singles c.askConstraint x p.inequalities gs →
        Singles c.askConstraint x p.equalities hs →
          gs.length = p.inequalities.length ∧ hs.length = p.equalities.length ∧
          (∀ y c', p.constraintsOf x c = .ok y c' ↔ 0 < p.constraintCount ∧
            ∃ vs, p.BlockReturns c.askConstraint x vs ∧ vs.length = p.blockSize ∧
              y = .ofList (vs ++ gs ++ hs) ∧ c' = c.askConstraint) ∧
          ∀ vs, p.BlockReturns c.askConstraint x vs → vs.length ≠ p.blockSize →
            ∃ fault c', p.constraintsOf x c = .error fault c' := by
  refine ⟨Statement.yields_of_build h, rfl, fun c x gs hs hgs hhs => ?_⟩
  refine ⟨(List.Forall₂.length_eq hgs).symm, (List.Forall₂.length_eq hhs).symm,
    fun y c' => Problem.constraintsOf_eq_ok_iff hgs hhs, fun vs hvs hsize => ?_⟩
  rcases Nat.eq_zero_or_pos p.constraintCount with hzero | hcount
  · exact ⟨_, _, if_pos hzero⟩
  · exact ⟨_, _, Problem.constraintsOf_eq_error hgs hhs hvs hsize hcount⟩

/-- Two variables, and a constraint of each kind. -/
def Statement.stacked : Statement Float where
  objective := .function fun _ _ => .ok zero
  start := some (.ofList [zero, zero])
  block := some (.function fun _ x => .ok (.many [.one (x.entries.foldl (· + ·) zero)]))
  constraintLower := some (.ofList [one])
  constraintUpper := some (.ofList [two])
  inequalities := [.function fun _ x => .ok (.one (x.entries.headD zero - one))]
  equalities := [.function fun _ x => .ok (.one (x.entries.getLastD zero))]

/-- Its problem returns the sum, the first entry less one and the last one,
in this order. -/
theorem stacked_wellFormed :
    ∃ p : Problem Float 2, Statement.stacked.build = .ok ⟨2, p⟩ ∧ Statement.stacked.Yields p ∧
      p.constraintsOf (.ofList [two, one]) .zero =
        .ok (.ofList ([zero + two + one] ++ [two - one] ++ [one])) ⟨0, 1⟩ := by
  obtain ⟨hyields, -, hreturns⟩ := build_wellFormed (s := .stacked) rfl
  obtain ⟨-, -, hiff, -⟩ := hreturns .zero (.ofList [two, one]) [two - one] [one]
    (.cons rfl .nil) (.cons rfl .nil)
  refine ⟨_, rfl, hyields, (hiff _ _).2 ⟨by decide, [zero + two + one], ?_, rfl, rfl, rfl⟩⟩
  exact ⟨_, rfl, rfl⟩

end DirectSearch
