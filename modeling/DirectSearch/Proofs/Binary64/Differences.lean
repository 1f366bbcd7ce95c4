import DirectSearch.Proofs.Binary64.Finite
import DirectSearch.Proofs.Scalar.Binary64
/-!
# 64-bit floats — differences, squares and sums

A difference of floats is positive just where the first is above the second
(`sub_pos_iff`): finite floats are whole multiples of the grain, so that no
difference of them is rounded to zero. A square can be, and is just where the
exact one is at most half the grain (`value_square_eq_zero_iff`). A sum of
floats from zero upwards is zero only if they all are (`value_sum`).
-/

namespace DirectSearch.Binary64

open Float.Model (UnpackedFloat)
open Float.Model.UnpackedFloat
open Scalar (square zero sum maximum isUndefined)

variable {x y : Float}

/-! ## Sums that are numbers -/

/-- A sum is a number unless its terms are infinities of two signs. -/
theorem add_ne_notANumber {a b : UnpackedFloat} (ha : a ≠ .notANumber) (hb : b ≠ .notANumber)
    (h : ∀ s t, a = .infinity s → b = .infinity t → s = t) :
    add .binary64 a b ≠ .notANumber := by
  rcases a with s | _ | s | ⟨s, m, e, hm⟩ <;> rcases b with t | _ | t | ⟨t, n, k, hn⟩
  case infinity.infinity =>
    obtain rfl := h s t rfl rfl
    cases s <;> nofun
  case zero.zero => cases s <;> cases t <;> nofun
  case finite.finite => exact ne_notANumber_of_isNumber (yields_normalize _ _ _).isNumber
  all_goals first | exact absurd rfl ha | exact absurd rfl hb | nofun

/-! ## Differences -/

theorem apply_neg (s : Sign) (m : ℕ) : (-s).apply m = -s.apply m := by
  cases s
  · exact (Int.neg_neg _).symm
  · rfl

/-- What is taken away is added with the other sign. -/
theorem sub_eq_add_neg (a b : UnpackedFloat) :
    sub .binary64 a b = add .binary64 a (neg b) := by
  cases a <;> cases b <;> try rfl
  simp only [sub, add, neg, apply_neg, Int.sub_eq_add_neg]

theorem reading_neg (a : UnpackedFloat) : reading (neg a) = -reading a := by
  have hsigned (s : Sign) (r : EReal) : signed (-s) r = -signed s r := by
    cases s
    · exact (InvolutiveNeg.neg_neg r).symm
    · rfl
  rcases a with s | _ | s | ⟨s, m, e, hm⟩
  · exact hsigned s ⊤
  · exact neg_zero.symm
  · exact neg_zero.symm
  · exact hsigned s _

theorem canonical_neg {a : UnpackedFloat} (h : Canonical a) : Canonical (neg a) := by
  cases a <;> exact h

theorem isNumber_neg (hx : IsNumber x) : IsNumber (-x) := by
  change unpack .binary64 (pack .binary64 (neg x.toModel.unpack)) ≠ .notANumber
  cases hunpack : x.toModel.unpack with
  | infinity s => exact (yields_infinity _).isNumber
  | notANumber => exact absurd hunpack hx
  | zero s => exact (yields_zero _).isNumber
  | finite s m e hm =>
    have hyields : Yields (.finite (-s) m e hm) _ := yields_finite (fits_of_unpack hunpack).1
    exact hyields.isNumber

theorem isNumber_abs (hx : IsNumber x) : IsNumber (Scalar.abs x) := by
  unfold Scalar.abs
  split
  · exact isNumber_neg hx
  · exact hx

/-- A number less a finite one, or a finite one less a number, is the exact
difference rounded. -/
theorem value_sub (hx : IsNumber x) (hy : IsNumber y) (h : x.isFinite ∨ y.isFinite) :
    IsNumber (x - y) ∧ value (x - y) = rounded (value x - value y) := by
  have hfinite {z : Float} {s : Sign} (hz : z.toModel.unpack = .infinity s) : ¬ z.isFinite := by
    change ¬ z.toModel.unpack.isFinite
    rw [hz]
    nofun
  have hneg {a : UnpackedFloat} (ha : a ≠ .notANumber) : neg a ≠ .notANumber := by
    cases a <;> first | exact absurd rfl ha | nofun
  have hne : add .binary64 x.toModel.unpack (neg y.toModel.unpack) ≠ .notANumber := by
    refine add_ne_notANumber hx (hneg hy) fun s t hs ht => ?_
    -- two infinities do not meet, as one of the two is finite
    refine absurd (h.resolve_left (hfinite hs)) ?_
    cases hunpack : y.toModel.unpack with
    | infinity t => exact hfinite hunpack
    | notANumber => exact absurd hunpack hy
    | zero t =>
      rw [hunpack] at ht
      cases ht
    | finite t n k hn =>
      rw [hunpack] at ht
      cases ht
  have hyields := yields_add (canonical_toModel x) (canonical_neg (canonical_toModel y)) hne
  rw [← sub_eq_add_neg, reading_neg] at hyields
  exact ⟨hyields.isNumber, hyields.value⟩

/-- **A finite float is a whole number of grains.** -/
theorem exists_grains (hx : x.isFinite) : ∃ k : ℤ, real x = k * 2 ^ (-1074 : ℤ) := by
  obtain ⟨hnumber, htop, hbot⟩ := isFinite_iff.1 hx
  by_cases hzero : value x = 0
  · exact ⟨0, by simp [real, hzero]⟩
  obtain ⟨s, m, e, hm, hunpack⟩ := exists_finite hnumber hzero htop hbot
  have hplace : -1074 ≤ e := (fits_of_unpack hunpack).1.ge
  have hsplit : (2 : ℝ) ^ e = ((2 ^ (e + 1074).toNat : ℕ) : ℝ) * 2 ^ (-1074 : ℤ) := by
    rw [Nat.cast_pow, Nat.cast_ofNat, ← zpow_natCast, Int.toNat_of_nonneg (by omega),
      ← zpow_add₀ two_ne_zero]
    congr 1
    omega
  have hvalue : real x = factor s * scaled m e := by
    rw [real, value, hunpack, reading, signed_coe, EReal.toReal_coe]
  cases s with
  | positive =>
    refine ⟨m * 2 ^ (e + 1074).toNat, ?_⟩
    rw [hvalue, factor, scaled, hsplit]
    push_cast
    ring
  | negative =>
    refine ⟨-(m * 2 ^ (e + 1074).toNat), ?_⟩
    rw [hvalue, factor, scaled, hsplit]
    push_cast
    ring

/-- **When a difference is positive:** the exact one is, whatever is
rounded. -/
theorem sub_pos_iff (hx : IsNumber x) (hy : IsNumber y) (h : x.isFinite ∨ y.isFinite) :
    0 < value (x - y) ↔ value y < value x := by
  rw [(value_sub hx hy h).2, rounded_pos_iff]
  constructor
  · intro hlt
    exact EReal.sub_pos.1 ((EReal.coe_pos.2 (two_zpow_pos _)).trans hlt)
  · intro hlt
    by_cases hxf : x.isFinite
    · by_cases hyf : y.isFinite
      · -- both are whole numbers of grains, and so is the difference
        obtain ⟨j, hj⟩ := exists_grains hxf
        obtain ⟨k, hk⟩ := exists_grains hyf
        rw [← coe_real hxf, ← coe_real hyf] at hlt ⊢
        rw [EReal.coe_lt_coe_iff, hj, hk, mul_lt_mul_iff_left₀ (two_zpow_pos _)] at hlt
        rw [← EReal.coe_sub, EReal.coe_lt_coe_iff, hj, hk, ← sub_mul]
        have hone : (1 : ℝ) ≤ j - k := by
          have hkj : k + 1 ≤ j := by exact_mod_cast hlt
          have hcast : (k : ℝ) + 1 ≤ j := by exact_mod_cast hkj
          linarith
        calc (2 : ℝ) ^ (-1075 : ℤ) < 2 ^ (-1074 : ℤ) := zpow_lt_zpow_right₀ one_lt_two (by omega)
          _ ≤ (j - k) * 2 ^ (-1074 : ℤ) := le_mul_of_one_le_left (two_zpow_pos _).le hone
      · -- below a finite float only minus infinity is infinite
        have hbot : value y = ⊥ := by
          by_contra hne
          exact hyf (isFinite_iff.2 ⟨hy, hlt.ne_top, hne⟩)
        rw [hbot, ← coe_real hxf]
        exact EReal.coe_lt_top _
    · have htop : value x = ⊤ := by
        by_contra hne
        exact hxf (isFinite_iff.2 ⟨hx, hne, hlt.ne_bot⟩)
      rw [htop, ← coe_real (h.resolve_left hxf)]
      exact EReal.coe_lt_top _

/-! ## The larger of two numbers -/

theorem value_maximum (hx : IsNumber x) (hy : IsNumber y) :
    IsNumber (maximum x y) ∧ value (maximum x y) = max (value x) (value y) := by
  have hdefined {z : Float} (hz : IsNumber z) : isUndefined z = false :=
    OrderedScalar.defined_iff.2 (le_self_iff.2 hz)
  unfold maximum
  rw [if_neg (by simp [hdefined hx]), if_neg (by simp [hdefined hy])]
  by_cases hlt : Scalar.lt x y
  · rw [if_pos hlt]
    exact ⟨hy, (max_eq_right (lt_iff.1 hlt).2.2.le).symm⟩
  · rw [if_neg hlt]
    have hle : value y ≤ value x := not_lt.1 fun hvalue => hlt (lt_iff.2 ⟨hx, hy, hvalue⟩)
    exact ⟨hx, (max_eq_left hle).symm⟩

/-! ## Squares -/

theorem mul_self_ne_notANumber {a : UnpackedFloat} (ha : a ≠ .notANumber) :
    mul .binary64 a a ≠ .notANumber := by
  cases a with
  | notANumber => exact absurd rfl ha
  | zero s => nofun
  | infinity s => nofun
  | finite s m e hm => exact roundWithAccuracy_ne_notANumber _ _ _ _

theorem value_square (hx : IsNumber x) :
    IsNumber (square x) ∧ value (square x) = rounded (value x * value x) := by
  have hyields := yields_mul (canonical_toModel x) (canonical_toModel x)
    (mul_self_ne_notANumber hx)
  exact ⟨hyields.isNumber, hyields.value⟩

/-- Zero is a bound of what is rounded as of what is not. -/
theorem rounded_nonneg {r : EReal} (h : 0 ≤ r) : 0 ≤ rounded r := by
  have hmono := rounded_mono h
  rwa [rounded_zero] at hmono

theorem value_square_nonneg (hx : IsNumber x) (hnonneg : 0 ≤ value x) :
    0 ≤ value (square x) := by
  rw [(value_square hx).2]
  exact rounded_nonneg (mul_nonneg hnonneg hnonneg)

/-- **When a square is zero:** the exact one is at most half the grain. -/
theorem value_square_eq_zero_iff (hx : IsNumber x) (hnonneg : 0 ≤ value x) :
    value (square x) = 0 ↔ value x * value x ≤ ((2 ^ (-1075 : ℤ) : ℝ) : EReal) := by
  have hsquare := value_square_nonneg hx hnonneg
  rw [← not_lt, ← rounded_pos_iff, ← (value_square hx).2, not_lt]
  exact ⟨fun h => h.le, fun h => h.antisymm hsquare⟩

/-! ## Sums -/

/-- A sum of numbers from zero upwards is a number, and no term is above
it. -/
theorem value_add_nonneg (hx : IsNumber x) (hy : IsNumber y) (hx0 : 0 ≤ value x)
    (hy0 : 0 ≤ value y) :
    IsNumber (x + y) ∧ value x ≤ value (x + y) ∧ value y ≤ value (x + y) := by
  have hpositive {z : Float} {s : Sign} (hz : 0 ≤ value z)
      (hunpack : z.toModel.unpack = .infinity s) : s = .positive := by
    rw [value, hunpack] at hz
    cases s
    · exact absurd hz (by simp [reading, signed])
    · rfl
  have hne : add .binary64 x.toModel.unpack y.toModel.unpack ≠ .notANumber :=
    add_ne_notANumber hx hy fun s t hs ht => (hpositive hx0 hs).trans (hpositive hy0 ht).symm
  have hyields := yields_add (canonical_toModel x) (canonical_toModel y) hne
  have hvalue : value (x + y) = rounded (value x + value y) := hyields.value
  refine ⟨hyields.isNumber, ?_, ?_⟩
  · rw [hvalue, ← rounded_value x]
    exact rounded_mono (by simpa [rounded_value] using le_add_of_nonneg_right hy0)
  · rw [hvalue, ← rounded_value y]
    exact rounded_mono (by simpa [rounded_value] using le_add_of_nonneg_left hx0)

theorem value_add_eq_zero_iff (hx : IsNumber x) (hy : IsNumber y) (hx0 : 0 ≤ value x)
    (hy0 : 0 ≤ value y) : value (x + y) = 0 ↔ value x = 0 ∧ value y = 0 := by
  obtain ⟨hsum, hxle, hyle⟩ := value_add_nonneg hx hy hx0 hy0
  constructor
  · intro h
    rw [h] at hxle hyle
    exact ⟨hxle.antisymm hx0, hyle.antisymm hy0⟩
  · rintro ⟨hx', hy'⟩
    rw [value_add hsum, hx', hy', add_zero, rounded_zero]

/-- **A sum of numbers from zero upwards** is one, and is zero just where
they all are. -/
theorem value_sum {xs : List Float} (h : ∀ z ∈ xs, IsNumber z ∧ 0 ≤ value z) :
    IsNumber (sum xs) ∧ 0 ≤ value (sum xs) ∧ (value (sum xs) = 0 ↔ ∀ z ∈ xs, value z = 0) := by
  have hfold (ys : List Float) (hys : ∀ z ∈ ys, IsNumber z ∧ 0 ≤ value z) (a : Float)
      (ha : IsNumber a) (ha0 : 0 ≤ value a) :
      IsNumber (ys.foldl (· + ·) a) ∧ 0 ≤ value (ys.foldl (· + ·) a) ∧
        (value (ys.foldl (· + ·) a) = 0 ↔ value a = 0 ∧ ∀ z ∈ ys, value z = 0) := by
    induction ys generalizing a with
    | nil => simp [ha, ha0]
    | cons y ys ih =>
      obtain ⟨hy, hy0⟩ := hys y List.mem_cons_self
      obtain ⟨hsum, hle, -⟩ := value_add_nonneg ha hy ha0 hy0
      obtain ⟨hnumber, hnonneg, hiff⟩ :=
        ih (fun z hz => hys z (List.mem_cons_of_mem y hz)) (a + y) hsum (ha0.trans hle)
      refine ⟨hnumber, hnonneg, hiff.trans ?_⟩
      rw [value_add_eq_zero_iff ha hy ha0 hy0, List.forall_mem_cons, and_assoc]
  obtain ⟨hnumber, hnonneg, hiff⟩ := hfold xs h zero isNumber_zero le_rfl
  exact ⟨hnumber, hnonneg, hiff.trans (and_iff_right rfl)⟩

end DirectSearch.Binary64
