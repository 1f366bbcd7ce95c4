import DirectSearch.Proofs.Binary64.Arithmetic
import DirectSearch.Scalar.Binary64
/-!
# 64-bit floats — the smallest positive ones

No positive float is below the grain, which is `2⁻¹⁰⁷⁴`. A quotient is
rounded to zero just where it is at most half of that (`div_pos_iff`).
Products and powers of floats from one upwards never fall below their first
factor, whatever is rounded and even where they overflow.
-/

namespace DirectSearch.Binary64

open Float.Model Scalar

/-- Zero is what is left of half the least float, and of nothing larger. -/
theorem rounded_pos_iff {x : EReal} : 0 < rounded x ↔ ((2 ^ (-1075 : ℤ) : ℝ) : EReal) < x := by
  induction x with
  | bot => simp
  | top => simp
  | coe x =>
    rw [rounded_coe, EReal.coe_lt_coe_iff]
    refine ⟨fun h => ?_, nearest_pos⟩
    by_contra hle
    exact absurd (nearest_tie ▸ nearest_mono (not_lt.1 hle)) (not_le.2 h)

/-! ## Values of given floats -/

theorem value_of_unpack {x : Float} (m : ℕ) (e : ℤ) (hm : 0 < m)
    (h : x.toModel.unpack = .finite .positive m e hm) : value x = (scaled m e : ℝ) := by
  rw [value, h]
  rfl

theorem isNumber_of_unpack {x : Float} (m : ℕ) (e : ℤ) (hm : 0 < m)
    (h : x.toModel.unpack = .finite .positive m e hm) : IsNumber x := by
  rw [IsNumber, h]
  intro hnan
  cases hnan

theorem isNumber_zero : IsNumber zero := nofun

theorem value_one : value one = 1 := by
  rw [value_of_unpack (2 ^ 52) (-52) (by decide) rfl]
  norm_num [scaled]

theorem value_two : value two = 2 := by
  rw [value_of_unpack (2 ^ 52) (-51) (by decide) rfl]
  norm_num [scaled]
  rfl

theorem value_four : value (ofInt 4) = 4 := by
  rw [value_of_unpack (2 ^ 52) (-50) (by decide) rfl]
  norm_num [scaled]
  rfl

/-! ## The grain -/

/-- The least positive float. -/
def grain : Float := Float.ofBits 1

theorem value_grain : value grain = (2 ^ (-1074 : ℤ) : ℝ) := by
  rw [value_of_unpack 1 (-1074) (by decide) rfl]
  simp [scaled]

theorem isNumber_grain : IsNumber grain :=
  isNumber_of_unpack 1 (-1074) (by decide) rfl

theorem isNumber_of_pos {x : Float} (h : 0 < value x) : IsNumber x := by
  intro hnan
  rw [value, hnan] at h
  exact absurd h (lt_irrefl _)

/-- No positive float is below the grain. -/
theorem grain_le_value {x : Float} (h : 0 < value x) : value grain ≤ value x := by
  by_cases htop : value x = ⊤
  · exact htop ▸ le_top
  obtain ⟨s, m, e, hm, hfinite⟩ := exists_finite (isNumber_of_pos h) h.ne' htop (ne_bot_of_gt h)
  cases s with
  | negative =>
    have hpos : (0 : EReal) < (scaled m e : ℝ) := by exact_mod_cast scaled_pos hm e
    rw [value, hfinite, reading, signed] at h
    exact absurd h (not_lt.2 (EReal.neg_le_zero.2 hpos.le))
  | positive =>
    have hplace : -1074 ≤ e := (fits_of_unpack hfinite).1.ge
    have hone : (1 : ℝ) ≤ m := by exact_mod_cast hm
    rw [value_grain, value_of_unpack _ _ _ hfinite, EReal.coe_le_coe_iff]
    calc (2 : ℝ) ^ (-1074 : ℤ) ≤ 2 ^ e := zpow_le_zpow_right₀ (by norm_num) hplace
      _ ≤ scaled m e := le_mul_of_one_le_left (two_zpow_pos e).le hone

theorem zero_lt_iff {x : Float} : (zero : Float).lt x ↔ 0 < value x :=
  ⟨fun h => (lt_iff.1 h).2.2, fun h => lt_iff.2 ⟨isNumber_zero, isNumber_of_pos h, h⟩⟩

theorem grain_lt_iff {x : Float} : grain.lt x ↔ value grain < value x := by
  refine ⟨fun h => (lt_iff.1 h).2.2, fun h => lt_iff.2 ⟨isNumber_grain, ?_, h⟩⟩
  exact isNumber_of_pos ((value_grain ▸ EReal.coe_pos.2 (two_zpow_pos _)).trans h)

theorem half_grain : ((2 ^ (-1075 : ℤ) : ℝ) : EReal) * 2 = value grain := by
  have h : (2 : ℝ) ^ (-1074 : ℤ) = 2 ^ (-1075 : ℤ) * 2 := zpow_add_one₀ two_ne_zero (-1075)
  rw [value_grain, h, EReal.coe_mul]
  rfl

/-! ## Quotients, products and powers -/

/-- **When a quotient is positive:** the exact one is above half the
grain. -/
theorem div_pos_iff {x y : Float} (hx : IsNumber x) (hy : 0 < value y) (htop : value y ≠ ⊤) :
    0 < value (x / y) ↔ ((2 ^ (-1075 : ℤ) : ℝ) : EReal) * value y < value x := by
  obtain ⟨-, hvalue⟩ := isNumber_div hx (isNumber_of_pos hy) hy.ne' htop (ne_bot_of_gt hy)
  rw [hvalue, rounded_pos_iff, EReal.lt_div_iff hy htop]

/-- A product with a factor from one upwards. -/
theorem le_value_mul {x y : Float} (hx : 0 < value x) (hy : 1 ≤ value y) :
    value x ≤ value (x * y) := by
  have hy' : 0 < value y := zero_lt_one.trans_le hy
  calc value x = rounded (value x) := (rounded_value x).symm
    _ ≤ rounded (value x * value y) := rounded_mono (le_mul_of_one_le_right hx.le hy)
    _ = value (x * y) := (value_mul (isNumber_mul hx hy')).symm

/-- A product with a factor from two upwards is above the grain. -/
theorem grain_lt_mul {x y : Float} (hx : 0 < value x) (hy : 2 ≤ value y) :
    value grain < value (x * y) := by
  have hy' : 0 < value y := zero_lt_two.trans_le hy
  have htwice : value grain * 2 = value (Float.ofBits 2) := by
    rw [value_grain, value_of_unpack (x := Float.ofBits 2) 2 (-1074) (by decide) rfl, scaled,
      mul_comm]
    rfl
  have hlt : value grain < value (Float.ofBits 2) := (lt_iff.1 (by decide +kernel)).2.2
  calc value grain < rounded (value (Float.ofBits 2)) := (rounded_value _).symm ▸ hlt
    _ = rounded (value grain * 2) := by rw [htwice]
    _ ≤ rounded (value x * value y) :=
      rounded_mono (mul_le_mul (grain_le_value hx) hy zero_le_two hx.le)
    _ = value (x * y) := (value_mul (isNumber_mul hx hy')).symm

/-- A power of a float from one upwards, whatever the roots of two are. -/
theorem one_le_value_power (root : Nat → Float) {x : Float} (hx : 1 ≤ value x) (k : ℕ) :
    letI := binary64 root
    1 ≤ value (power x k) ∧ (0 < k → value x ≤ value (power x k)) := by
  induction k using Nat.strong_induction_on generalizing x with
  | _ k ih =>
    have hpos : 0 < value x := zero_lt_one.trans_le hx
    have hsquare : value x ≤ value (x * x) := le_value_mul hpos hx
    unfold power
    split
    · exact ⟨value_one.ge, fun h => absurd h (by omega)⟩
    obtain ⟨hone, hle⟩ := ih (k / 2) (by omega) (hx.trans hsquare)
    split
    · have hbase := hsquare.trans (hle (by omega))
      exact ⟨hx.trans hbase, fun _ => hbase⟩
    · have hbase := le_value_mul hpos hone
      exact ⟨hx.trans hbase, fun _ => hbase⟩

end DirectSearch.Binary64
