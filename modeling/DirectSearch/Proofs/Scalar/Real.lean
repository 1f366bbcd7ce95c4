import DirectSearch.Number
import DirectSearch.Point
import DirectSearch.Proofs.Scalar.Order
import Mathlib.Analysis.Real.Sqrt
import Mathlib.Analysis.SpecialFunctions.Pow.Real
import Mathlib.LinearAlgebra.Matrix.DotProduct
/-!
# Scalars — exact arithmetic

Over the real numbers nothing is rounded, every value is finite, and the
tests are the order. A search read there is the search without rounding, and
its points are vectors: what the operations on points do is said here for
the vector of the coordinates.
-/

namespace DirectSearch

open Scalar

/-- Division is that of the field, also where a scalar's is in reach. -/
noncomputable instance divReal : Div ℝ := DivInvMonoid.toDiv

/-- The arithmetic of real numbers. -/
noncomputable instance : Scalar ℝ where
  ofInt k := k
  sqrt := Real.sqrt
  le a b := decide (a ≤ b)
  lt a b := decide (a < b)
  leInt a k := decide (a ≤ k)
  intLe k a := decide ((k : ℝ) ≤ a)
  isFinite _ := true
  rootOfTwo k := ((2 : ℕ) : ℝ) ^ (1 / k : ℝ)

namespace Scalar

variable {a b : ℝ}

@[simp] theorem ofInt_real (k : Int) : (ofInt k : ℝ) = k := rfl

@[simp] theorem zero_real : (zero : ℝ) = 0 := Int.cast_zero

@[simp] theorem one_real : (one : ℝ) = 1 := Int.cast_one

@[simp] theorem two_real : (two : ℝ) = 2 := Int.cast_two

@[simp] theorem le_real : le a b = decide (a ≤ b) := rfl

@[simp] theorem lt_real : lt a b = decide (a < b) := rfl

@[simp] theorem isFinite_real : isFinite a = true := rfl

@[simp] theorem sqrt_real : Scalar.sqrt a = Real.sqrt a := rfl

@[simp] theorem same_real : same a b = decide (a = b) := by
  rw [Bool.eq_iff_iff]
  simp [same, le_antisymm_iff]

@[simp] theorem isUndefined_real : isUndefined a = false := by
  simp [isUndefined]

@[simp] theorem abs_real : Scalar.abs a = |a| := by
  unfold Scalar.abs
  by_cases h : a < 0
  · simp [h, abs_of_neg]
  · simp [h, abs_of_nonneg (not_lt.1 h)]

@[simp] theorem least_real : least a b = min a b := by
  unfold least
  by_cases h : b < a
  · simp [h, min_eq_right h.le]
  · simp [h, min_eq_left (not_lt.1 h)]

@[simp] theorem sum_real (xs : List ℝ) : sum xs = xs.sum := by
  simp [sum, List.sum_eq_foldl]

end Scalar

instance : OrderedScalar ℝ where
  le_trans := by
    simp only [le_real, decide_eq_true_eq]
    exact fun hab hbc => hab.trans hbc
  le_total := by simp [le_total]
  defined_of_le := by simp
  lt_iff := by
    simp only [le_real, lt_real, decide_eq_true_eq]
    exact lt_iff_le_not_ge

/-! ## Numbers -/

namespace Number

/-- The value of a number. -/
def toReal : Number ℝ → ℝ
  | whole k => k
  | real x => x

@[simp] theorem toScalar_real (c : Number ℝ) : c.toScalar = .ok c.toReal := by
  cases c <;> rfl

@[simp] theorem toReal_complement (c : Number ℝ) : c.complement.toReal = 1 - c.toReal := by
  cases c <;> simp [complement, toReal]

@[simp] theorem toReal_neg (c : Number ℝ) : c.neg.toReal = -c.toReal := by
  cases c <;> simp [neg, toReal]

/-- A scalar is not below a number that it is above. -/
theorem real_lt_eq_false {x : ℝ} {c : Number ℝ} (h : c.toReal ≤ x) : (real x).lt c = false := by
  cases c with
  | whole k =>
    have hle : intLe k x = true := decide_eq_true (show (k : ℝ) ≤ x from h)
    simp [lt, hle]
  | real y => simpa [lt, toReal] using h

end Number

/-! ## Points -/

namespace Point

variable {n : Nat}

theorem get_eq {β : Type} (x : Point β n) (i : Fin n) : x.get i = x[i.val] := rfl

theorem ext_get {x y : Point ℝ n} (h : x.get = y.get) : x = y := by
  ext i hi
  exact congrFun h ⟨i, hi⟩

variable (x y : Point ℝ n)

theorem get_origin : (origin : Point ℝ n).get = 0 := by
  ext i
  simp [origin, get_eq]

theorem get_add : (add x y).get = x.get + y.get := by
  ext i
  simp [add, get_eq]

theorem get_sub : (sub x y).get = x.get - y.get := by
  ext i
  simp [sub, get_eq]

theorem get_quotient (c : ℝ) : (quotient x c).get = c⁻¹ • x.get := by
  ext i
  simp [quotient, get_eq, div_eq_inv_mul]

theorem get_midpoint : (midpoint x y).get = (2 : ℝ)⁻¹ • (x.get + y.get) := by
  rw [midpoint, get_quotient, get_add, two_real]

theorem get_blend (u v : ℝ) : (blend u x v y).get = u • x.get + v • y.get := by
  ext i
  simp [blend, get_eq, mul_comm]

theorem get_shift (i : Fin n) (c : ℝ) : (shift x i c).get = x.get + Pi.single i c := by
  ext j
  simp only [shift, get_eq, Pi.add_apply, Vector.getElem_set]
  by_cases h : i = j
  · subst h
    simp
  · simp [Fin.val_ne_of_ne h, Ne.symm h]

theorem get_centroid (xs : List (Point ℝ n)) :
    (centroid xs).get = (xs.length : ℝ)⁻¹ • (xs.map Vector.get).sum := by
  have hsum (y : Point ℝ n) : (xs.foldl add y).get = y.get + (xs.map Vector.get).sum := by
    induction xs generalizing y with
    | nil => simp
    | cons x xs ih => rw [List.foldl_cons, ih, get_add, List.map_cons, List.sum_cons, add_assoc]
  rw [centroid, get_quotient, hsum, get_origin, zero_add, ofInt_real, Int.cast_natCast]

theorem dot_eq : dot x y = x.get ⬝ᵥ y.get := by
  simp only [dot, sum_real, dotProduct]
  rw [← List.sum_ofFn]
  congr 1
  refine List.ext_getElem (by simp) fun i h₁ h₂ => ?_
  simp [get_eq]

theorem distance_nonneg : 0 ≤ distance x y := by
  simp [distance, norm, Real.sqrt_nonneg]

theorem distance_eq_zero_iff : distance x y = 0 ↔ x = y := by
  have hnonneg : 0 ≤ (x.get - y.get) ⬝ᵥ (x.get - y.get) :=
    Finset.sum_nonneg fun i _ => mul_self_nonneg _
  rw [distance, norm, dot_eq, get_sub, sqrt_real, Real.sqrt_eq_zero hnonneg,
    dotProduct_self_eq_zero, sub_eq_zero]
  exact ⟨ext_get, fun h => by rw [h]⟩

end Point

end DirectSearch
