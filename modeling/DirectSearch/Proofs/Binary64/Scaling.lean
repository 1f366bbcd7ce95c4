import DirectSearch.Proofs.Binary64.Finite
/-!
# 64-bit floats — whole numbers and powers of two

Twice a float is exact unless it overflows (`rounded_two_mul`), and so is
every power of two. A whole number becomes the float nearest to it, and is
finite below a number of its own (`isFinite_ofNat_iff`); powers of four are
finite below `2¹⁰²⁴` (`isFinite_power_four_iff`).
-/

namespace DirectSearch.Binary64

open Float.Model Scalar
open Float.Model (UnpackedFloat)

/-! ## Powers of two -/

/-- A power of two is a float below `2¹⁰²⁴`. -/
theorem nearest_two_pow (j : ℕ) :
    nearest (2 ^ j) = if j < 1024 then ((2 ^ j : ℝ) : EReal) else ⊤ := by
  have hscaled : scaled (2 ^ 52) (j - 52) = 2 ^ j := by
    have hcast : ((2 ^ 52 : ℕ) : ℝ) = 2 ^ (52 : ℤ) := by norm_num
    rw [scaled, hcast, ← zpow_add₀ two_ne_zero, add_sub_cancel, zpow_natCast]
  have hfits : Fits (2 ^ 52) ((j : ℤ) - 52) := ⟨by norm_num, by omega, .inl le_rfl⟩
  have hrange : (2 : ℝ) ^ j < overflow ↔ j < 1024 := by
    rw [← hscaled, hfits.scaled_lt_overflow_iff]
    omega
  rw [nearest_of_nonneg (by positivity), roundedMagnitude, ← hscaled, hfits.toPlaces, bounded,
    hscaled]
  simp only [hrange]

theorem nearest_two_pow_pos (j : ℕ) : 0 < nearest (2 ^ j) := by
  rw [nearest_two_pow]
  split
  · exact EReal.coe_pos.2 (by positivity)
  · exact EReal.zero_lt_top

/-- Powers of two are multiplied without rounding, also where one has
overflowed. -/
theorem rounded_two_pow_mul (i j : ℕ) :
    rounded (nearest (2 ^ i) * nearest (2 ^ j)) = nearest (2 ^ (i + j)) := by
  have htop (k l : ℕ) (h : ¬ k < 1024) : nearest (2 ^ k) * nearest (2 ^ l) = ⊤ := by
    rw [nearest_two_pow k, if_neg h, EReal.top_mul_of_pos (nearest_two_pow_pos l)]
  have hsum (h : ¬ i + j < 1024) : nearest (2 ^ (i + j)) = ⊤ := by
    rw [nearest_two_pow, if_neg h]
  by_cases hi : i < 1024
  · by_cases hj : j < 1024
    · rw [nearest_two_pow i, nearest_two_pow j, if_pos hi, if_pos hj, ← EReal.coe_mul, ← pow_add,
        rounded_coe]
    · rw [mul_comm, htop j i hj, hsum (by omega), rounded_top]
  · rw [htop i j hi, hsum (by omega), rounded_top]

/-- A power of a power of two. -/
theorem value_power {x : Float} {i : ℕ} (hx : value x = nearest (2 ^ i)) (k : ℕ) :
    value (power x k) = nearest (2 ^ (i * k)) := by
  have hmul {y z : Float} {a b : ℕ} (hy : value y = nearest (2 ^ a))
      (hz : value z = nearest (2 ^ b)) : value (y * z) = nearest (2 ^ (a + b)) := by
    have hnumber : IsNumber (y * z) :=
      isNumber_mul (hy ▸ nearest_two_pow_pos a) (hz ▸ nearest_two_pow_pos b)
    rw [value_mul hnumber, hy, hz, rounded_two_pow_mul]
  induction k using Nat.strong_induction_on generalizing x i with
  | _ k ih =>
    unfold power
    split
    · rename_i hk
      rw [hk, mul_zero, nearest_two_pow, if_pos (by norm_num), value_one]
      norm_num
    · have hhalf := ih (k / 2) (by omega) (hmul hx hx)
      split
      · rename_i heven
        rw [hhalf, ← two_mul, mul_comm 2 i, mul_assoc, show 2 * (k / 2) = k by omega]
      · rename_i hodd
        have hodd : k = 1 + 2 * (k / 2) := by omega
        rw [hmul hx hhalf, ← two_mul, mul_comm 2 i, mul_assoc]
        conv_rhs => rw [hodd, mul_add, mul_one]

/-- **Where a power of four overflows.** -/
theorem isFinite_power_four_iff (k : ℕ) : (power (ofInt 4 : Float) k).isFinite ↔ k < 512 := by
  have hfour : value (ofInt 4) = nearest (2 ^ 2) := by
    rw [nearest_two_pow, if_pos (by norm_num), value_four]
    norm_num
    rfl
  have hvalue := value_power hfour k
  have hpos : 0 < value (power (ofInt 4) k) := hvalue ▸ nearest_two_pow_pos _
  have hrange : value (power (ofInt 4) k) ≠ ⊤ ↔ k < 512 := by
    rw [hvalue, nearest_two_pow]
    split
    · exact iff_of_true (EReal.coe_ne_top _) (by omega)
    · exact iff_of_false (by simp) (by omega)
  rw [isFinite_iff, ← hrange]
  exact ⟨fun h => h.2.1, fun h => ⟨isNumber_of_pos hpos, h, ne_bot_of_gt hpos⟩⟩

/-! ## Doubling -/

/-- Twice what fits has one place more or one more digit. -/
theorem Fits.double {m : ℕ} {e : ℤ} (h : Fits m e) :
    ∃ m' e', Fits m' e' ∧ scaled m' e' = 2 * scaled m e := by
  rcases le_or_gt (2 ^ 52) m with hfull | hshort
  · refine ⟨m, e + 1, ⟨h.lt, by have := h.ge; omega, .inl hfull⟩, ?_⟩
    rw [scaled, scaled, zpow_add_one₀ two_ne_zero]
    ring
  · have hlow : e = -1074 := h.full.resolve_left (by omega)
    refine ⟨2 * m, e, ⟨by omega, h.ge, .inr hlow⟩, ?_⟩
    rw [scaled, scaled]
    push_cast
    ring

/-- **Doubling is exact** below half of what overflows. -/
theorem rounded_two_mul {x : Float} (h0 : 0 < value x)
    (h : 2 * value x < (overflow : EReal)) : rounded (2 * value x) = 2 * value x := by
  have htop : value x ≠ ⊤ := by
    rintro htop
    rw [htop, EReal.mul_top_of_pos zero_lt_two] at h
    exact absurd h (not_lt.2 le_top)
  obtain ⟨s, m, e, hm, hunpack⟩ :=
    exists_finite (isNumber_of_pos h0) h0.ne' htop (ne_bot_of_gt h0)
  cases s with
  | negative =>
    rw [value, hunpack, reading, signed] at h0
    exact absurd h0 (not_lt.2 (neg_coe_scaled_neg hm e).le)
  | positive =>
    obtain ⟨m', e', hfits, hscaled⟩ := (fits_of_unpack hunpack).1.double
    have hvalue : 2 * value x = (scaled m' e' : ℝ) := by
      rw [value_of_unpack m e hm hunpack, hscaled, EReal.coe_mul]
      rfl
    rw [hvalue] at h ⊢
    rw [rounded_coe, nearest_of_nonneg (scaled_nonneg _ _), roundedMagnitude, hfits.toPlaces,
      bounded, if_pos (EReal.coe_lt_coe_iff.1 h)]

/-- Twice a positive float, which may be infinite. -/
theorem value_two_mul {x : Float} (h0 : 0 < value x) :
    value (two * x) = if 2 * value x < (overflow : EReal) then 2 * value x else ⊤ := by
  have hnumber : IsNumber (two * x) := isNumber_mul (value_two ▸ zero_lt_two) h0
  rw [value_mul hnumber, value_two]
  split
  · exact rounded_two_mul h0 ‹_›
  · rename_i hlarge
    have hoverflow : rounded (overflow : EReal) = ⊤ := by
      rw [rounded_coe, overflow, show (1024 : ℤ) = (1024 : ℕ) from rfl, zpow_natCast,
        nearest_two_pow, if_neg (by decide)]
    exact top_le_iff.1 (hoverflow ▸ rounded_mono (not_lt.1 hlarge))

/-! ## Whole numbers -/

/-- What lies more than a half below an integer is rounded below it. -/
theorem roundEven_lt {k : ℤ} {x : ℝ} (h : x < k - 1 / 2) : roundEven x < k := by
  have hfloor : ⌊x⌋ < k := Int.floor_lt.2 (by linarith)
  rcases (Int.le_sub_one_of_lt hfloor).lt_or_eq with hlt | heq
  · have := roundEven_le_floor_add_one x
    omega
  · have hfract : 2 * Int.fract x < 1 := by
      rw [Int.fract, heq]
      push_cast
      linarith
    rw [roundEven, if_pos hfract]
    exact hfloor

/-- The least number that is rounded to infinity: half a last place below
`2¹⁰²⁴`, a tie that goes up. -/
theorem roundedMagnitude_lt_top_iff {v : ℝ} (hv : 0 ≤ v) :
    roundedMagnitude v < ⊤ ↔ v < (2 ^ 53 - 1 / 2) * 2 ^ (971 : ℤ) := by
  have hpos := two_zpow_pos 971
  have hoverflow : overflow = 2 ^ 53 * 2 ^ (971 : ℤ) := by
    rw [overflow, ← zpow_natCast, ← zpow_add₀ two_ne_zero]
    norm_num
  -- between half the overflow and the overflow the last place is known
  have hplace {w : ℝ} (hlow : 2 ^ 52 * 2 ^ (971 : ℤ) ≤ w) (hhigh : w < overflow) :
      lastPlace w = 971 := by
    refine lastPlace_eq (lt_of_lt_of_le (by positivity) hlow) (by norm_num) hhigh (.inr ?_)
    rwa [zpow_add₀ two_ne_zero, mul_comm]
  have htop : roundedMagnitude v < ⊤ ↔ toPlaces v < overflow := by
    rw [roundedMagnitude, bounded]
    split
    · exact iff_of_true (EReal.coe_lt_top _) ‹_›
    · exact iff_of_false (lt_irrefl _) ‹_›
  rw [htop]
  refine ⟨fun h => ?_, fun h => ?_⟩
  · by_contra hge
    have hlast : lastPlace ((2 ^ 53 - 1 / 2) * 2 ^ (971 : ℤ)) = 971 :=
      hplace (by gcongr; norm_num) (hoverflow ▸ by gcongr; norm_num)
    have htie : roundEven (2 ^ 53 - 1 / 2) = 2 ^ 53 := by
      have hfloor : ⌊(2 ^ 53 - 1 / 2 : ℝ)⌋ = 2 ^ 53 - 1 := by
        rw [Int.floor_eq_iff]
        norm_num
      rw [roundEven, Int.fract, hfloor]
      norm_num
    have hround : toPlaces ((2 ^ 53 - 1 / 2) * 2 ^ (971 : ℤ)) = overflow := by
      rw [toPlaces, hlast, mul_div_cancel_right₀ _ hpos.ne', htie, hoverflow]
      norm_num
    have hmono := toPlaces_mono (mul_nonneg (by norm_num) hpos.le) (not_lt.1 hge)
    exact absurd h (not_lt.2 (hround ▸ hmono))
  · rcases lt_or_ge v (2 ^ 52 * 2 ^ (971 : ℤ)) with hlow | hhigh
    · -- below half the overflow nothing comes near it
      have hfits : Fits (2 ^ 52) 971 := ⟨by norm_num, by norm_num, .inl le_rfl⟩
      have hscaled : scaled (2 ^ 52) 971 = 2 ^ 52 * 2 ^ (971 : ℤ) := by
        rw [scaled, Nat.cast_pow, Nat.cast_ofNat]
      have hmono := toPlaces_mono hv hlow.le
      rw [← hscaled, hfits.toPlaces] at hmono
      exact hmono.trans_lt (hfits.scaled_lt_overflow_iff.2 le_rfl)
    · have hlast : lastPlace v = 971 :=
        hplace hhigh (h.trans (hoverflow ▸ by gcongr; norm_num))
      have hround : roundEven (v / 2 ^ (971 : ℤ)) < 2 ^ 53 := by
        refine roundEven_lt ?_
        rw [div_lt_iff₀ hpos, Int.cast_pow, Int.cast_ofNat]
        exact h
      rw [toPlaces, hlast, hoverflow]
      refine mul_lt_mul_of_pos_right ?_ hpos
      exact_mod_cast hround

theorem nearest_natCast_pos {k : ℕ} (hk : 0 < k) : 0 < nearest k := by
  have hone : (1 : ℝ) ≤ k := by exact_mod_cast hk
  exact nearest_pos ((zpow_lt_one_of_neg₀ one_lt_two (by norm_num)).trans_le hone)

/-- Whole numbers below `2⁵³` are floats. -/
theorem nearest_natCast {k : ℕ} (h : k < 2 ^ 53) : nearest k = ((k : ℝ) : EReal) := by
  rcases Nat.eq_zero_or_pos k with rfl | hk
  · rw [Nat.cast_zero, nearest_zero]
    rfl
  -- the digits are shifted up to the full number of places
  obtain ⟨j, hj⟩ : ∃ j, Nat.log2 k + j = 52 := by
    have := (Nat.log2_lt hk.ne').2 h
    exact ⟨52 - Nat.log2 k, by omega⟩
  have hlow : 2 ^ 52 ≤ k * 2 ^ j := by
    rw [← hj, pow_add]
    exact Nat.mul_le_mul_right _ (Nat.log2_self_le hk.ne')
  have hhigh : k * 2 ^ j < 2 ^ 53 := by
    rw [show 53 = Nat.log2 k + 1 + j by omega, pow_add]
    exact Nat.mul_lt_mul_of_pos_right Nat.lt_log2_self (by positivity)
  have hfits : Fits (k * 2 ^ j) (-j) := ⟨hhigh, by omega, .inl hlow⟩
  have hscaled : scaled (k * 2 ^ j) (-j) = k := by
    rw [scaled, zpow_neg, zpow_natCast]
    push_cast
    exact mul_inv_cancel_right₀ (by positivity) _
  have hrange : (k : ℝ) < overflow := by
    rw [← hscaled, hfits.scaled_lt_overflow_iff]
    omega
  rw [nearest_of_nonneg k.cast_nonneg, roundedMagnitude, ← hscaled, hfits.toPlaces, bounded,
    hscaled, if_pos hrange]

/-- A natural number becomes the float nearest to it. -/
theorem value_ofNat (k : ℕ) : IsNumber (Float.ofNat k) ∧ value (Float.ofNat k) = nearest k := by
  change IsNumber (Float.ofScientific k false 0) ∧ value (Float.ofScientific k false 0) = _
  rcases Nat.eq_zero_or_pos k with rfl | hk
  · rw [Nat.cast_zero, nearest_zero]
    exact ⟨nofun, rfl⟩
  rw [Float.ofScientific]
  split
  · rename_i h
    -- what has at most 53 digits comes through a word, times one
    have hsize : k.toUInt64.toNat = k :=
      UInt64.toNat_ofNat_of_lt' (h.1.trans (by norm_num [UInt64.size]))
    have hword : Yields (.ofUInt64 .binary64 k.toUInt64) (nearest k) := by
      have hyields := yields_normalize k 0 .positive
      rw [zpow_zero, mul_one, Int.cast_natCast] at hyields
      rw [UnpackedFloat.ofUInt64, hsize]
      exact hyields
    have hvalue : value k.toUInt64.toFloat = nearest k := hword.value
    have hnumber : IsNumber (k.toUInt64.toFloat * one) :=
      isNumber_mul (hvalue ▸ nearest_natCast_pos hk) (value_one ▸ zero_lt_one)
    have hproduct : value (k.toUInt64.toFloat * one) = nearest k := by
      rw [value_mul hnumber, value_one, mul_one, rounded_value, hvalue]
    exact ⟨hnumber, hproduct⟩
  · rename_i h
    have hlarge : 2 ^ 53 ≤ k := by simpa using h
    have hyields : Yields (.ofScientific .binary64 k 0) (nearest k) := by
      have hlow : ¬ (0 : ℤ) < -(2 ^ Format.binary64.exponentBits + (k.log2 : ℤ)) :=
        not_lt.2 (neg_nonpos.2 (by positivity))
      have hround := yields_roundWithAccuracy (e := -53) .positive
        (describes_exact ((k <<< 53) * 10 ^ 0)) (.inr (by rw [Nat.shiftLeft_eq]; omega))
      have hvalue : (((k <<< 53) * 10 ^ 0 : ℕ) : ℝ) * 2 ^ (-53 : ℤ) = k := by
        rw [pow_zero, mul_one, Nat.shiftLeft_eq, Nat.cast_mul, mul_assoc]
        norm_num
      rw [hvalue] at hround
      rw [UnpackedFloat.ofScientific, dif_neg hk.ne', if_neg (by decide), if_neg hlow,
        if_pos le_rfl, nearest_of_nonneg k.cast_nonneg]
      exact hround
    exact ⟨hyields.isNumber, hyields.value⟩

/-- Whole numbers below `2⁵³` keep their order. -/
theorem ofNat_lt_ofNat {j k : ℕ} (h : j < k) (hk : k < 2 ^ 53) :
    (Float.ofNat j).lt (Float.ofNat k) := by
  obtain ⟨hj, hvalue⟩ := value_ofNat j
  obtain ⟨hk', hvalue'⟩ := value_ofNat k
  refine lt_iff.2 ⟨hj, hk', ?_⟩
  rw [hvalue, hvalue', nearest_natCast (h.trans hk), nearest_natCast hk, EReal.coe_lt_coe_iff]
  exact_mod_cast h

/-- **Where a whole number overflows**: half a last place below `2¹⁰²⁴`. -/
theorem isFinite_ofNat_iff (k : ℕ) :
    (ofInt k : Float).isFinite ↔ k < (2 ^ 54 - 1) * 2 ^ 970 := by
  obtain ⟨hnumber, hvalue⟩ := value_ofNat k
  have hbound : (2 ^ 53 - 1 / 2) * 2 ^ (971 : ℤ) = (((2 ^ 54 - 1) * 2 ^ 970 : ℕ) : ℝ) := by
    have hpower : (2 : ℝ) ^ (971 : ℤ) = 2 * 2 ^ 970 := by
      rw [← pow_succ', ← zpow_natCast]
      rfl
    rw [hpower, Nat.cast_mul, Nat.cast_pow, ← mul_assoc]
    norm_num
  have hrange : value (Float.ofNat k) < ⊤ ↔ k < (2 ^ 54 - 1) * 2 ^ 970 := by
    rw [hvalue, nearest_of_nonneg k.cast_nonneg, roundedMagnitude_lt_top_iff k.cast_nonneg, hbound,
      Nat.cast_lt]
  have hnonneg : 0 ≤ value (Float.ofNat k) := by
    rw [hvalue, nearest_of_nonneg k.cast_nonneg]
    exact roundedMagnitude_nonneg k.cast_nonneg
  change (Float.ofNat k).isFinite ↔ _
  rw [isFinite_iff, ← hrange]
  exact ⟨fun h => lt_top_iff_ne_top.2 h.2.1,
    fun h => ⟨hnumber, h.ne, (EReal.bot_lt_zero.trans_le hnonneg).ne'⟩⟩

end DirectSearch.Binary64
