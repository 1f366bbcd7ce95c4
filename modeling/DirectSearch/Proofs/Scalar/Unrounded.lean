import DirectSearch.Scalar.Basic
import Mathlib.Algebra.BigOperators.Fin
import Mathlib.Analysis.Real.Sqrt
import Mathlib.Analysis.SpecialFunctions.Pow.Real
import Mathlib.Data.EReal.Inv
/-!
# Scalars — exact arithmetic with infinities

An absent bound is an infinity, and with infinities there are results that
are no number: what is left of one infinity when another is taken away, zero
times an infinity, a quotient by zero. Such a result is undefined, and fails
every test. All else is that of the extended real numbers, and nothing is
rounded.
-/

namespace DirectSearch

open Scalar

/-- An extended real number, or a result that is none. -/
inductive Unrounded where
  | undefined
  | defined (x : EReal)

namespace Unrounded

/-- A real number. -/
noncomputable def real (x : ℝ) : Unrounded := defined x

/-! ## Arithmetic -/

noncomputable instance : Add Unrounded where
  add
    | defined x, defined y =>
      if x = ⊤ ∧ y = ⊥ ∨ x = ⊥ ∧ y = ⊤ then undefined else defined (x + y)
    | _, _ => undefined

noncomputable instance : Neg Unrounded where
  neg
    | defined x => defined (-x)
    | undefined => undefined

noncomputable instance : Sub Unrounded := ⟨fun a b => a + -b⟩

/-- The product of extended real numbers; zero times an infinity is none. -/
noncomputable def product (x y : EReal) : Unrounded :=
  if x = 0 ∧ (y = ⊤ ∨ y = ⊥) ∨ y = 0 ∧ (x = ⊤ ∨ x = ⊥) then undefined else defined (x * y)

noncomputable instance : Mul Unrounded where
  mul
    | defined x, defined y => product x y
    | _, _ => undefined

noncomputable instance : Div Unrounded where
  div
    | defined x, defined y => if y = 0 then undefined else product x y⁻¹
    | _, _ => undefined

noncomputable instance : Extended Unrounded where
  ofInt k := real k
  sqrt
    | defined x => if x < 0 then undefined else if x = ⊤ then defined ⊤ else real (√x.toReal)
    | undefined => undefined
  le
    | defined x, defined y => decide (x ≤ y)
    | _, _ => false
  lt
    | defined x, defined y => decide (x < y)
    | _, _ => false
  leInt
    | defined x, k => decide (x ≤ (k : ℝ))
    | undefined, _ => false
  intLe
    | k, defined x => decide (((k : ℝ) : EReal) ≤ x)
    | _, undefined => false
  isFinite
    | defined x => decide (x ≠ ⊤ ∧ x ≠ ⊥)
    | undefined => false
  rootOfTwo k := real (((2 : ℕ) : ℝ) ^ (1 / k : ℝ))
  infinity := defined ⊤

/-! ## Real numbers among them -/

variable (x y c : ℝ) (a b : Unrounded)

theorem ofInt_eq (k : Int) : (ofInt k : Unrounded) = real k := rfl

theorem zero_eq : (zero : Unrounded) = real 0 := congrArg real Int.cast_zero

theorem one_eq : (one : Unrounded) = real 1 := congrArg real Int.cast_one

@[simp] theorem undefined_add : undefined + a = undefined := rfl

@[simp] theorem add_undefined : a + undefined = undefined := by
  cases a <;> rfl

theorem defined_add (x y : EReal) : defined x + defined y =
    if x = ⊤ ∧ y = ⊥ ∨ x = ⊥ ∧ y = ⊤ then undefined else defined (x + y) := rfl

@[simp] theorem defined_add_real (x : EReal) : defined x + real c = defined (x + c) := by
  simp [real, defined_add]

@[simp] theorem real_add_real : real x + real y = real (x + y) := by
  rw [real, defined_add_real, ← EReal.coe_add]
  rfl

@[simp] theorem real_mul_real : real x * real y = real (x * y) := by
  change product _ _ = _
  simp [product, real]

variable {y} in
theorem real_div_real (hy : y ≠ 0) : real x / real y = real (x / y) := by
  have hne : (y : EReal) ≠ 0 := by simpa using hy
  change (if (y : EReal) = 0 then undefined else product x (y : EReal)⁻¹) = _
  rw [if_neg hne, ← EReal.coe_inv]
  exact real_mul_real x y⁻¹

/-- Repeated squaring gives the power. -/
theorem power_real (k : ℕ) : power (real x) k = real (x ^ k) := by
  induction k using Nat.strong_induction_on generalizing x with
  | _ k ih =>
    rw [power]
    by_cases hzero : k = 0
    · rw [if_pos hzero, hzero, pow_zero, one_eq]
    have hlt : k / 2 < k := by omega
    rw [if_neg hzero, real_mul_real, ih _ hlt]
    split
    · rename_i heven
      rw [← sq, ← pow_mul, Nat.mul_div_cancel' (Nat.dvd_of_mod_eq_zero heven)]
    · rename_i hodd
      have hk : 2 * (k / 2) + 1 = k := by omega
      rw [real_mul_real, ← sq, ← pow_mul, ← pow_succ', hk]

@[simp] theorem abs_real : Scalar.abs (real x) = real |x| := by
  have hlt : lt (real x) zero = decide (x < 0) := by
    rw [zero_eq]
    change decide ((x : EReal) < (0 : ℝ)) = _
    simp
  unfold Scalar.abs
  rw [hlt]
  by_cases h : x < 0
  · rw [if_pos (by simpa using h), abs_of_neg h]
    rfl
  · rw [if_neg (by simpa using h), abs_of_nonneg (not_lt.1 h)]

@[simp] theorem isFinite_real : isFinite (real x) := by simp [isFinite, real]

/-! ## A real number added -/

/-- It does not change the order. -/
theorem lt_add_real_add_real : lt (a + real c) (b + real c) = lt a b := by
  have hmono : StrictMono fun z : EReal => z + c := fun _ _ h => EReal.add_lt_add_right_coe h c
  cases a with
  | undefined => rfl
  | defined x =>
    cases b with
    | undefined => rw [defined_add_real]; rfl
    | defined y =>
      rw [defined_add_real, defined_add_real]
      exact decide_eq_decide.2 hmono.lt_iff_lt

/-- It may be added last. -/
theorem add_real_add : a + real c + b = a + b + real c := by
  cases a with
  | undefined => rfl
  | defined x =>
    cases b with
    | undefined => simp
    | defined y =>
      have htop : x + c = ⊤ ↔ x = ⊤ := by
        induction x using EReal.rec <;> simp [← EReal.coe_add]
      have hbot : x + c = ⊥ ↔ x = ⊥ := by
        induction x using EReal.rec <;> simp [← EReal.coe_add]
      simp only [defined_add_real, defined_add, htop, hbot]
      split
      · rfl
      · rw [defined_add_real, add_right_comm]

/-- What is no real number is not changed by one. -/
theorem add_real_of_ne (h : ∀ x, a ≠ real x) : a + real c = a := by
  cases a with
  | undefined => rfl
  | defined x =>
    rw [defined_add_real]
    induction x using EReal.rec with
    | bot => rw [EReal.bot_add]
    | coe x => exact absurd rfl (h x)
    | top => rw [EReal.top_add_coe]

/-! ## Infinity -/

theorem isInfinity_iff : isInfinity a ↔ a = defined ⊤ := by
  cases a with
  | undefined => simp [isInfinity, isFinite, lt, zero_eq, real]
  | defined x =>
    induction x using EReal.rec <;> simp [isInfinity, isFinite, lt, zero_eq, real]

theorem not_isInfinity_real : ¬ isInfinity (real x) := by
  rw [isInfinity_iff, real, defined.injEq]
  exact EReal.coe_ne_top x

theorem isInfinity_add_real : isInfinity (a + real c) = isInfinity a := by
  rw [Bool.eq_iff_iff, isInfinity_iff, isInfinity_iff]
  cases a with
  | undefined => rfl
  | defined x =>
    induction x using EReal.rec <;> simp [← EReal.coe_add]

variable {x y : ℝ}

/-- A sum is as infinite with one multiple as with another of what is not
infinite itself. -/
theorem isInfinity_add_mul (hx : 0 ≤ x) (hy : 0 ≤ y) (hb : ¬ isInfinity b) :
    isInfinity (a + real x * b) = isInfinity (a + real y * b) := by
  cases b with
  | undefined => rfl
  | defined z =>
    induction z using EReal.rec with
    | top => exact absurd ((isInfinity_iff _).2 rfl) hb
    | coe z =>
      have hmul (x : ℝ) : real x * defined z = real (x * z) := real_mul_real x z
      rw [hmul, hmul, isInfinity_add_real, isInfinity_add_real]
    | bot =>
      -- a negative infinity makes the sum one as well, or undefined
      have hno {x : ℝ} (hx : 0 ≤ x) : isInfinity (a + real x * defined ⊥) = false := by
        rw [← Bool.not_eq_true, isInfinity_iff,
          show real x * defined ⊥ = product x ⊥ from rfl, product]
        rcases hx.eq_or_lt with rfl | hpos
        · simp
        · rw [EReal.coe_mul_bot_of_pos hpos, if_neg (by simp [hpos.ne'])]
          cases a with
          | undefined => simp
          | defined z =>
            rw [defined_add]
            split <;> simp
      rw [hno hx, hno hy]

section

variable {x y : ℝ} {a : Unrounded}

/-! ## The order of real numbers -/

@[simp] theorem le_real_real : le (real x) (real y) = decide (x ≤ y) := by
  change decide ((x : EReal) ≤ (y : EReal)) = _
  simp

@[simp] theorem lt_real_real : lt (real x) (real y) = decide (x < y) := by
  change decide ((x : EReal) < (y : EReal)) = _
  simp

theorem least_real_real : least (real x) (real y) = real (min x y) := by
  rw [least, lt_real_real]
  by_cases h : y < x
  · rw [if_pos (by simpa using h), min_eq_right h.le]
  · rw [if_neg (by simpa using h), min_eq_left (not_lt.1 h)]

/-- What is at most a real number is one as well, or the negative infinity. -/
theorem cases_of_le_real (h : le a (real x)) : a = defined ⊥ ∨ ∃ l, a = real l ∧ l ≤ x := by
  cases a with
  | undefined => cases h
  | defined z =>
    have hle : z ≤ x := of_decide_eq_true h
    induction z using EReal.rec with
    | bot => exact .inl rfl
    | coe l => exact .inr ⟨l, rfl, EReal.coe_le_coe_iff.1 hle⟩
    | top => exact absurd (top_le_iff.1 hle) (EReal.coe_ne_top x)

/-- What is at least one may be the positive infinity. -/
theorem cases_of_real_le (h : le (real x) a) : a = defined ⊤ ∨ ∃ u, a = real u ∧ x ≤ u := by
  cases a with
  | undefined => cases h
  | defined z =>
    have hle : x ≤ z := of_decide_eq_true h
    induction z using EReal.rec with
    | bot => exact absurd (le_bot_iff.1 hle) (EReal.coe_ne_bot x)
    | coe u => exact .inr ⟨u, rfl, EReal.coe_le_coe_iff.1 hle⟩
    | top => exact .inl rfl

/-! ## Differences -/

@[simp] theorem real_sub_real : real x - real y = real (x - y) := by
  change real x + real (-y) = _
  rw [real_add_real, sub_eq_add_neg]

theorem bot_sub_real : defined ⊥ - real x = defined ⊥ := by
  change defined ⊥ + real (-x) = _
  rw [defined_add_real, EReal.bot_add]

theorem real_sub_top : real x - defined ⊤ = defined ⊥ := by
  change defined x + defined ⊥ = _
  rw [defined_add, if_neg (by simp), EReal.add_bot]

/-! ## The larger of two, and sums -/

theorem maximum_real_real : maximum (real x) (real y) = real (max x y) := by
  have hdefined (z : ℝ) : isUndefined (real z) = false := by simp [isUndefined]
  rw [maximum, if_neg (by simp [hdefined]), if_neg (by simp [hdefined]), lt_real_real]
  by_cases h : x < y
  · rw [if_pos (by simpa using h), max_eq_right h.le]
  · rw [if_neg (by simpa using h), max_eq_left (not_lt.1 h)]

theorem maximum_bot_real : maximum (defined ⊥) (real y) = real y := by
  have hdefined : isUndefined (real y) = false := by simp [isUndefined]
  have hbot : isUndefined (defined ⊥) = false := by simp [isUndefined, le]
  have hlt : lt (defined ⊥) (real y) := decide_eq_true (EReal.bot_lt_coe y)
  rw [maximum, if_neg (by simp [hbot]), if_neg (by simp [hdefined]), if_pos hlt]

theorem sum_ofFn_real {n : ℕ} (f : Fin n → ℝ) :
    sum (List.ofFn fun i => real (f i)) = real (∑ i, f i) := by
  have hfold (xs : List ℝ) (b : ℝ) : (xs.map real).foldl (· + ·) (real b) = real (b + xs.sum) := by
    induction xs generalizing b with
    | nil => simp
    | cons x xs ih =>
      rw [List.map_cons, List.foldl_cons, real_add_real, ih, List.sum_cons, add_assoc]
  have hlist : (List.ofFn fun i => real (f i)) = (List.ofFn f).map real := by
    rw [List.map_ofFn]
    rfl
  rw [sum, hlist, zero_eq, hfold, zero_add, List.sum_ofFn]

end

end Unrounded

end DirectSearch
