import DirectSearch.Proofs.Binary64.Scaling
import DirectSearch.Proofs.Scalar.Binary64
import DirectSearch.Merit
/-!
# Penalty weight — from raise to raise

A raise doubles the weight without rounding it, up to the cap
(`value_raiseWeight`). A start within the cap therefore grows as it should
(`Grows`): it doubles until it meets the cap, and the merit of a fixed point
never falls. The start is held against one but not against the cap: a weight
that begins above it is brought down by the first raise, and grows from there
on (`startWeight_grows_iff`).
-/

namespace DirectSearch

open Scalar Binary64

/-- The weight after a number of raises. -/
def weightAfter (w : Float) (k : ℕ) : Float := raiseWeight^[k] w

/-- A weight grows with every raise and doubles up to the cap, and with it
grows the merit of any value and violation. -/
structure Grows (w : Float) : Prop where
  rises : ∀ k, le (weightAfter w k) (weightAfter w (k + 1))
  capped : ∀ k, le (weightAfter w k) weightCap
  doubled : ∀ k, value (weightAfter w k) = min (2 ^ k * value w) (value weightCap)
  merit : ∀ k f v, le zero v →
    ¬ lt (merit (weightAfter w (k + 1)) f v) (merit (weightAfter w k) f v)

/-! ## One raise -/

theorem value_weightCap : value weightCap = ((2 ^ 52 : ℝ) : EReal) := by
  rw [value_of_unpack (2 ^ 52) 0 (by decide) rfl, scaled]
  norm_num

theorem one_le_weightCap : 1 ≤ value weightCap := by
  rw [value_weightCap]
  exact_mod_cast one_le_pow₀ one_le_two

theorem weightCap_lt_overflow : value weightCap < (overflow : EReal) := by
  rw [value_weightCap, overflow, EReal.coe_lt_coe_iff, ← zpow_natCast]
  exact zpow_lt_zpow_right₀ one_lt_two (by norm_num)

variable {w : Float}

/-- **A raise doubles the weight up to the cap**, and rounds nothing. -/
theorem value_raiseWeight (hw : 1 ≤ value w) :
    value (raiseWeight w) = min (2 * value w) (value weightCap) := by
  have hpos : 0 < value w := zero_lt_one.trans_le hw
  have hnumber : IsNumber (two * w) := isNumber_mul (value_two ▸ zero_lt_two) hpos
  have hcap : IsNumber weightCap := isNumber_of_pos (zero_lt_one.trans_le one_le_weightCap)
  have hlt : lt weightCap (two * w) ↔ value weightCap < 2 * value w := by
    refine Iff.trans Binary64.lt_iff ?_
    rw [value_two_mul hpos]
    split
    · exact ⟨fun h => h.2.2, fun h => ⟨hcap, hnumber, h⟩⟩
    · rename_i hlarge
      have hbelow := weightCap_lt_overflow.trans_le (not_lt.1 hlarge)
      exact iff_of_true ⟨hcap, hnumber, hbelow.trans_le le_top⟩ hbelow
  unfold raiseWeight least
  split
  · rename_i h
    exact (min_eq_right (hlt.1 h).le).symm
  · rename_i h
    have hle := not_lt.1 (mt hlt.2 h)
    rw [min_eq_left hle, value_two_mul hpos, if_pos (hle.trans_lt weightCap_lt_overflow)]

theorem one_le_value_raiseWeight (hw : 1 ≤ value w) : 1 ≤ value (raiseWeight w) := by
  rw [value_raiseWeight hw]
  refine le_min ?_ one_le_weightCap
  calc (1 : EReal) ≤ value w := hw
    _ ≤ 2 * value w := le_mul_of_one_le_left (zero_le_one.trans hw) one_le_two

/-! ## Raise after raise -/

theorem weightAfter_succ (w : Float) (k : ℕ) :
    weightAfter w (k + 1) = raiseWeight (weightAfter w k) :=
  Function.iterate_succ_apply' ..

theorem one_le_weightAfter (hw : 1 ≤ value w) (k : ℕ) : 1 ≤ value (weightAfter w k) := by
  induction k with
  | zero => exact hw
  | succ k ih =>
    rw [weightAfter_succ]
    exact one_le_value_raiseWeight ih

/-- After a first raise the weight is the doubled one, cut at the cap,
wherever it began. -/
theorem value_weightAfter_succ (hw : 1 ≤ value w) (k : ℕ) :
    value (weightAfter w (k + 1)) = min (2 ^ (k + 1) * value w) (value weightCap) := by
  induction k with
  | zero =>
    rw [zero_add, pow_one]
    exact value_raiseWeight hw
  | succ k ih =>
    have hcap : value weightCap ≤ 2 * value weightCap :=
      le_mul_of_one_le_left (zero_le_one.trans one_le_weightCap) one_le_two
    have hdouble : Monotone fun x : EReal => 2 * x :=
      fun _ _ h => mul_le_mul_of_nonneg_left h zero_le_two
    rw [weightAfter_succ, value_raiseWeight (one_le_weightAfter hw _), ih, hdouble.map_min,
      min_assoc, min_eq_right hcap, ← mul_assoc, ← pow_succ']

theorem isNumber_weightAfter (hw : 1 ≤ value w) (k : ℕ) : IsNumber (weightAfter w k) :=
  isNumber_of_pos (zero_lt_one.trans_le (one_le_weightAfter hw k))

/-- Under a larger weight a violation costs at least as much. -/
theorem merit_mono_weight {u w f v : Float} (hw : value u ≤ value w) (hv : 0 ≤ value v)
    (h : IsNumber (merit u f v)) (h' : IsNumber (merit w f v)) :
    value (merit u f v) ≤ value (merit w f v) := by
  have huv := (isNumber_of_add h).2
  have hwv := (isNumber_of_add h').2
  rw [merit, merit, value_add h, value_add h', value_mul huv, value_mul hwv]
  exact rounded_mono (add_le_add le_rfl (rounded_mono (mul_le_mul_of_nonneg_right hw hv)))

/-- **A weight that begins within the cap grows.** -/
theorem grows_of_le (hw : 1 ≤ value w) (hcap : value w ≤ value weightCap) : Grows w := by
  have hdoubled (k : ℕ) :
      value (weightAfter w k) = min (2 ^ k * value w) (value weightCap) := by
    cases k with
    | zero =>
      rw [pow_zero, one_mul, min_eq_left hcap]
      rfl
    | succ k => exact value_weightAfter_succ hw k
  have hrises (k : ℕ) : value (weightAfter w k) ≤ value (weightAfter w (k + 1)) := by
    rw [hdoubled, hdoubled]
    refine min_le_min_right _ ?_
    rw [pow_succ', mul_assoc]
    refine le_mul_of_one_le_left ?_ one_le_two
    exact mul_nonneg (pow_nonneg zero_le_two k) (zero_le_one.trans hw)
  have hnumber := isNumber_weightAfter hw
  refine ⟨fun k => ?_, fun k => ?_, hdoubled, fun k f v hv hlt => ?_⟩
  · exact Binary64.le_iff.2 ⟨hnumber k, hnumber (k + 1), hrises k⟩
  · have hcap' : IsNumber weightCap := isNumber_of_pos (zero_lt_one.trans_le one_le_weightCap)
    refine Binary64.le_iff.2 ⟨hnumber k, hcap', ?_⟩
    rw [hdoubled]
    exact min_le_right _ _
  · obtain ⟨hnew, hold, hlt⟩ := Binary64.lt_iff.1 hlt
    obtain ⟨-, -, hv⟩ := Binary64.le_iff.1 hv
    exact absurd (merit_mono_weight (hrises k) hv hold hnew) (not_le.2 hlt)

/-- **When a weight grows.** A start that is a number is taken if it is one or
more. It then grows if it is within the cap, and only then: one above the cap
is brought down to it. From the first raise on the weight grows in any case,
and after every raise it is the start doubled as often, cut at the cap. -/
theorem startWeight_grows_iff (w₀ w : Float) (h : startWeight? w₀ = some w) (hw : le w w) :
    w = w₀ ∧ (Grows w ↔ le w weightCap) ∧ Grows (weightAfter w 1) ∧
    ∀ k, value (weightAfter w (k + 1)) = min (2 ^ (k + 1) * value w) (value weightCap) := by
  unfold startWeight? at h
  split at h
  · cases h
  rename_i hlow
  obtain rfl := Option.some.inj h
  have hnumber : IsNumber w₀ := le_self_iff.1 hw
  have hone : 1 ≤ value w₀ := by
    by_contra hlt
    have hone : IsNumber one := isNumber_of_pos (value_one ▸ zero_lt_one)
    exact hlow (Binary64.lt_iff.2 ⟨hnumber, hone, value_one ▸ not_le.1 hlt⟩)
  have hfirst : value (weightAfter w₀ 1) ≤ value weightCap :=
    (value_raiseWeight hone).trans_le (min_le_right _ _)
  refine ⟨rfl, ⟨fun hgrows => hgrows.capped 0, fun hcap => ?_⟩, ?_, value_weightAfter_succ hone⟩
  · exact grows_of_le hone (Binary64.le_iff.1 hcap).2.2
  · exact grows_of_le (one_le_weightAfter hone 1) hfirst

/-- One and a half is taken, and grows. -/
theorem startWeight_three_halves : Grows 1.5 := by
  obtain ⟨-, hgrows, -⟩ :=
    startWeight_grows_iff 1.5 1.5 (if_neg (by decide +kernel)) (by decide +kernel)
  exact hgrows.2 (by decide +kernel)

/-- A weight of twice the cap is taken as well, and falls to the cap at the
first raise: the merit of a violated point falls with it. -/
theorem heavy_weight_falls :
    startWeight? (two * weightCap : Float) = some (two * weightCap) ∧
    ¬ Grows (two * weightCap) ∧
    lt (weightAfter (two * weightCap) 1) (two * weightCap) ∧
    lt (merit (weightAfter (two * weightCap) 1) zero one) (merit (two * weightCap) zero one) :=
  ⟨if_neg (by decide +kernel), fun hgrows => absurd (hgrows.capped 0) (by decide +kernel),
    by decide +kernel, by decide +kernel⟩

end DirectSearch
