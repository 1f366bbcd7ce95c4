import DirectSearch.Proofs.Binary64.Word
/-!
# Binary64 — the rounding of a result

The magnitude of a result is kept as an integer with two bits after it:
the half of the last place, and whether anything is left below that
(`Represents`). A step to the right halves what is represented, and the
integer is rounded by the two bits as `roundEven` rounds the number. From
these two facts the packed result is the nearest float to the exact one
(`yields_roundWithAccuracy`), provided that the integer has its 53
digits, or that its last place is already the lowest there is.
-/

namespace DirectSearch.Binary64

open Float.Model (Format UnpackedFloat totalExponent)
open Float.Model.UnpackedFloat

/-! ## An integer and two bits -/

/-- The number that an extended mantissa stands for, but for a remainder
below the half, of which the last bit tells whether there is any. -/
def Represents (em : ExtendedMantissa) (x : ℝ) : Prop :=
  ∃ δ : ℝ, 0 ≤ δ ∧ δ < half ∧ (em.stickyBit ↔ 0 < δ) ∧
    x = em.mantissa + (if em.roundBit then half else 0) + δ

theorem Represents.lt_add_one {em : ExtendedMantissa} {x : ℝ} (h : Represents em x) :
    x < em.mantissa + 1 := by
  obtain ⟨δ, -, h1, -, rfl⟩ := h
  split <;> linarith [half_eq]

theorem Represents.le {em : ExtendedMantissa} {x : ℝ} (h : Represents em x) :
    (em.mantissa : ℝ) ≤ x := by
  obtain ⟨δ, h0, -, -, rfl⟩ := h
  split <;> linarith [half_eq]

/-- A step to the right halves. -/
theorem Represents.shiftRightOne {em : ExtendedMantissa} {x : ℝ} (h : Represents em x) :
    Represents em.shiftRightOne (x / 2) := by
  obtain ⟨δ, h0, h1, hsticky, rfl⟩ := h
  simp only [half_eq] at h1 ⊢
  have hdigit : (em.mantissa : ℝ) = 2 * (em.mantissa / 2 : ℕ) + (em.mantissa % 2 : ℕ) := by
    exact_mod_cast (Nat.div_add_mod em.mantissa 2).symm
  refine ⟨(if em.roundBit then 1 / 4 else 0) + δ / 2, ?_, ?_, ?_, ?_⟩
  · split <;> linarith
  · split <;> linarith [half_eq]
  · simp only [ExtendedMantissa.shiftRightOne, Bool.or_eq_true, hsticky]
    by_cases hround : em.roundBit
    · simp only [hround, true_or, if_true, true_iff]
      linarith
    · simp only [hround, false_or, if_false, Bool.false_eq_true]
      constructor <;> intro h <;> linarith
  · rw [half_eq, hdigit]
    rcases Nat.mod_two_eq_zero_or_one em.mantissa with hbit | hbit <;>
      simp only [ExtendedMantissa.shiftRightOne, hbit] <;>
      by_cases hround : em.roundBit <;> simp [hround] <;> ring

theorem Represents.shiftRight {em : ExtendedMantissa} {x : ℝ} (h : Represents em x) (k : ℕ) :
    Represents (em >>> k) (x / 2 ^ k) := by
  change Represents (k.repeat ExtendedMantissa.shiftRightOne em) _
  induction k with
  | zero => simpa [Nat.repeat] using h
  | succ k ih =>
    rw [pow_succ, ← div_div]
    exact ih.shiftRightOne

theorem roundEven_natCast_add {m : ℕ} {r : ℝ} (h0 : 0 ≤ r) (h1 : r < 1) :
    roundEven (m + r) =
      if 2 * r < 1 then (m : ℤ) else if 1 < 2 * r then (m + 1 : ℤ) else (m + m % 2 : ℤ) := by
  have hfloor : ⌊(m : ℝ) + r⌋ = m := by
    rw [Int.floor_eq_iff]
    push_cast
    constructor <;> linarith
  have hfract : Int.fract ((m : ℝ) + r) = r := by
    rw [Int.fract, hfloor]
    push_cast
    ring
  rw [roundEven, hfloor, hfract]

/-- **The two bits decide the rounding.** -/
theorem Represents.roundedMantissa {em : ExtendedMantissa} {x : ℝ} (h : Represents em x) :
    (em.roundedMantissa : ℤ) = roundEven x := by
  obtain ⟨δ, h0, h1, hsticky, rfl⟩ := h
  simp only [half_eq] at h1 ⊢
  obtain ⟨m, _ | _, _ | _⟩ := em
  all_goals
    simp only [ExtendedMantissa.roundedMantissa, ExtendedMantissa.accuracy,
      Accuracy.roundToNearestEven, Bool.false_eq_true, false_iff, true_iff, not_lt, if_false,
      if_true] at hsticky ⊢
    rw [add_assoc, roundEven_natCast_add (by linarith) (by linarith)]
  · rw [if_pos (by linarith)]
  · rw [if_pos (by linarith)]
  · rw [if_neg (by linarith), if_neg (by linarith)]
    push_cast
    rfl
  · rw [if_neg (by linarith), if_pos (by linarith)]
    push_cast
    rfl

/-! ## The last place -/

/-- The last place that an integer magnitude is moved to. -/
def place (m : ℕ) (e : ℤ) : ℤ := Format.binary64.targetExponent (totalExponent m e)

theorem place_eq (m : ℕ) (e : ℤ) : place m e = max (m.log2 + e - 52) (-1074) := by
  have hmin : Format.binary64.minExponent = -1074 := rfl
  have hbits : ((Format.binary64.mantissaBits : ℕ) : ℤ) = 53 := rfl
  rw [place, Format.targetExponent, totalExponent, hmin, hbits]
  omega

theorem place_of_full {m : ℕ} {e : ℤ} (hge : 2 ^ 52 ≤ m) (hlt : m < 2 ^ 53) (he : -1074 ≤ e) :
    place m e = e := by
  rw [place_eq, log2_eq_of_full hlt hge]
  omega

theorem place_of_short {m : ℕ} (hlt : m < 2 ^ 52) : place m (-1074) = -1074 := by
  have : m.log2 ≤ 52 := by
    rcases Nat.eq_zero_or_pos m with rfl | hpos
    · decide
    · exact (log2_lt_of_short hpos hlt).le
  rw [place_eq]
  omega

theorem place_ge (m : ℕ) (e : ℤ) : -1074 ≤ place m e := by
  rw [place_eq]
  omega

/-- **Where the digits end:** an integer with its 53 digits, or one whose
last place is as low as can be, has to be moved to the right only. -/
def Ample (m : ℕ) (e : ℤ) : Prop := e ≤ -1074 ∨ 2 ^ 52 ≤ m

theorem Ample.le_place {m : ℕ} {e : ℤ} (h : Ample m e) : e ≤ place m e := by
  rw [place_eq]
  rcases h with h | h
  · omega
  · have : 52 ≤ m.log2 := (Nat.le_log2 (by omega)).2 h
    omega

/-- At its place a magnitude has 53 digits at most. -/
theorem lt_zpow_place {m : ℕ} {x : ℝ} (hlt : x < m + 1) (e : ℤ) :
    x * 2 ^ e < 2 ^ (place m e + 53) := by
  have hdigits : (m : ℝ) + 1 ≤ 2 ^ (m.log2 + 1) := by exact_mod_cast Nat.lt_log2_self
  calc x * 2 ^ e < 2 ^ (m.log2 + 1) * 2 ^ e :=
        mul_lt_mul_of_pos_right (hlt.trans_le hdigits) (two_zpow_pos e)
    _ = 2 ^ (((m.log2 + 1 : ℕ) : ℤ) + e) := by rw [zpow_add₀ (by norm_num), zpow_natCast]
    _ ≤ 2 ^ (place m e + 53) := zpow_le_zpow_right₀ (by norm_num) (by rw [place_eq]; omega)

/-- Above the lowest place it has as many. -/
theorem Ample.zpow_place_le {m : ℕ} {e : ℤ} {x : ℝ} (h : Ample m e) (hle : (m : ℝ) ≤ x) :
    place m e = -1074 ∨ 2 ^ (place m e + 52) ≤ x * 2 ^ e := by
  rcases (place_ge m e).eq_or_lt with heq | hgt
  · exact Or.inl heq.symm
  have hplace : place m e + 52 = m.log2 + e := by rw [place_eq] at hgt ⊢; omega
  have hm : m ≠ 0 := by
    rintro rfl
    have hlog : Nat.log2 0 = 0 := rfl
    rcases h with h | h <;> omega
  refine Or.inr ?_
  have hdigits : (2 : ℝ) ^ m.log2 ≤ m := by exact_mod_cast Nat.log2_self_le hm
  rw [hplace, zpow_add₀ (by norm_num), zpow_natCast]
  exact mul_le_mul_of_nonneg_right (hdigits.trans hle) (two_zpow_pos e).le

theorem Ample.toPlaces {m : ℕ} {e : ℤ} {x : ℝ} (h : Ample m e) (hle : (m : ℝ) ≤ x)
    (hlt : x < m + 1) :
    toPlaces (x * 2 ^ e) = roundEven (x * 2 ^ e / 2 ^ place m e) * 2 ^ place m e := by
  rcases (m.cast_nonneg.trans hle).eq_or_lt with rfl | hpos
  · have := roundEven_intCast 0
    simp only [Int.cast_zero] at this
    simp [this]
  · rw [Binary64.toPlaces, lastPlace_eq (mul_pos hpos (two_zpow_pos e)) (place_ge m e)
      (lt_zpow_place hlt e) (h.zpow_place_le hle)]

/-! ## The rounded result -/

/-- A rounded integer: one that fits at its place, or the power of two
above the largest of those. -/
structure Rounded (r : ℕ) (p : ℤ) : Prop where
  le : r ≤ 2 ^ 53
  ge : -1074 ≤ p
  full : 2 ^ 52 ≤ r ∨ p = -1074

theorem Ample.rounded {m r : ℕ} {e : ℤ} {x : ℝ} (h : Ample m e) (hle : (m : ℝ) ≤ x)
    (hlt : x < m + 1) (hr : (r : ℤ) = roundEven (x * 2 ^ e / 2 ^ place m e)) :
    Rounded r (place m e) := by
  refine ⟨?_, place_ge m e, (h.zpow_place_le hle).symm.imp_left fun hge => ?_⟩
  · have : roundEven (x * 2 ^ e / 2 ^ place m e) ≤ ((2 ^ 53 : ℕ) : ℤ) := by
      refine roundEven_le ?_
      have hbelow := lt_zpow_place hlt e
      rw [zpow_add₀ (by norm_num)] at hbelow
      rw [div_le_iff₀ (two_zpow_pos _)]
      push_cast
      linarith
    omega
  · have : ((2 ^ 52 : ℕ) : ℤ) ≤ roundEven (x * 2 ^ e / 2 ^ place m e) := by
      refine le_roundEven ?_
      rw [zpow_add₀ (by norm_num)] at hge
      rw [le_div_iff₀ (two_zpow_pos _)]
      push_cast
      linarith
    omega

/-- The second move: at most one step, and nothing is lost. -/
theorem Rounded.fits {r : ℕ} {p : ℤ} (h : Rounded r p) :
    Fits (shiftToTargetExponent .binary64 r p .exact).1.mantissa
        (shiftToTargetExponent .binary64 r p .exact).2 ∧
      scaled (shiftToTargetExponent .binary64 r p .exact).1.mantissa
        (shiftToTargetExponent .binary64 r p .exact).2 = r * 2 ^ p := by
  have hmove : shiftToTargetExponent .binary64 r p .exact =
    ((⟨r, false, false⟩ : ExtendedMantissa) >>> (place r p - p).toNat,
      p + (place r p - p).toNat) := rfl
  have hge := h.ge
  rcases h.le.eq_or_lt with rfl | hlt
  · have hstep : (place (2 ^ 53) p - p).toNat = 1 := by
      rw [place_eq, Nat.log2_two_pow]
      omega
    have hhalf : ((⟨2 ^ 53, false, false⟩ : ExtendedMantissa) >>> 1).mantissa = 2 ^ 52 := rfl
    rw [hmove, hstep, hhalf]
    refine ⟨⟨by norm_num, by push_cast; omega, Or.inl le_rfl⟩, ?_⟩
    rw [scaled, zpow_add₀ (by norm_num)]
    push_cast
    ring
  · have hstep : (place r p - p).toNat = 0 := by
      rcases Nat.lt_or_ge r (2 ^ 52) with hshort | hfull
      · obtain rfl := h.full.resolve_left (by omega)
        rw [place_of_short hshort]
        rfl
      · rw [place_of_full hfull hlt hge, sub_self]
        rfl
    have hstay : ((⟨r, false, false⟩ : ExtendedMantissa) >>> 0).mantissa = r := rfl
    rw [hmove, hstep, hstay, Nat.cast_zero, add_zero]
    exact ⟨⟨hlt, hge, h.full⟩, rfl⟩

/-- The number that an integer and its accuracy stand for. -/
def Describes (m : ℕ) (acc : Accuracy) (x : ℝ) : Prop :=
  Represents (ExtendedMantissa.ofMantissaAndAccuracy m acc) x

theorem ofMantissaAndAccuracy_mantissa (m : ℕ) (acc : Accuracy) :
    (ExtendedMantissa.ofMantissaAndAccuracy m acc).mantissa = m := by
  rcases acc with _ | _ | _ | _ <;> rfl

theorem describes_exact (m : ℕ) : Describes m .exact m :=
  ⟨0, le_rfl, by norm_num [half_eq], by simp [ExtendedMantissa.ofMantissaAndAccuracy],
    by simp [ExtendedMantissa.ofMantissaAndAccuracy]⟩

/-- An unpacked result whose word has a given value, and is a number. -/
def Yields (u : UnpackedFloat) (x : EReal) : Prop :=
  unpack .binary64 (pack .binary64 u) ≠ .notANumber ∧
    reading (unpack .binary64 (pack .binary64 u)) = x

theorem yields_zero (s : Sign) : Yields (.zero s) 0 := by
  refine ⟨?_, ?_⟩ <;> simp [pack, reading]

theorem yields_of_fits {m : ℕ} {e : ℤ} (s : Sign) (h : Fits m e) :
    Yields (if hz : m = 0 then .zero s else .finite s m e (Nat.pos_of_ne_zero hz))
      (signed s (bounded (scaled m e))) := by
  split
  · rename_i hz
    have hzero : bounded (scaled m e) = 0 := by simp [hz, scaled, bounded, overflow]
    have hsigned : signed s 0 = 0 := by cases s <;> simp [signed]
    rw [hzero, hsigned]
    exact yields_zero s
  · rename_i hz
    have hm := Nat.pos_of_ne_zero hz
    refine ⟨?_, reading_pack hm h⟩
    rw [unpack_pack hm h]
    split <;> simp

/-- **The result is rounded to the nearest float.** -/
theorem yields_roundWithAccuracy {m : ℕ} {e : ℤ} {acc : Accuracy} {x : ℝ} (s : Sign)
    (hx : Describes m acc x) (h : Ample m e) :
    Yields (roundWithAccuracy .binary64 s m e acc) (signed s (roundedMagnitude (x * 2 ^ e))) := by
  have hmantissa := ofMantissaAndAccuracy_mantissa m acc
  have hle : (m : ℝ) ≤ x := hmantissa ▸ hx.le
  have hlt : x < m + 1 := by simpa [hmantissa] using hx.lt_add_one
  -- the first move brings the last place where it belongs
  obtain ⟨k, hk⟩ := Int.le.dest h.le_place
  have hmove : shiftToTargetExponent .binary64 m e acc =
      (ExtendedMantissa.ofMantissaAndAccuracy m acc >>> k, e + k) := by
    have hsteps : (place m e - e).toNat = k := by omega
    rw [← hsteps]
    rfl
  have hshift : x / 2 ^ k = x * 2 ^ e / 2 ^ place m e := by
    rw [← hk, zpow_add₀ (by norm_num), zpow_natCast, mul_comm x,
      mul_div_mul_left _ _ (two_zpow_pos e).ne']
  have hr := hshift ▸ (hx.shiftRight k).roundedMantissa
  have hround := hk ▸ h.rounded hle hlt hr
  have hvalue : roundedMagnitude (x * 2 ^ e) = bounded
      ((ExtendedMantissa.ofMantissaAndAccuracy m acc >>> k).roundedMantissa * 2 ^ (e + k)) := by
    rw [roundedMagnitude, h.toPlaces hle hlt, ← hr, hk]
    push_cast
    rfl
  rw [roundWithAccuracy, hmove, hvalue, ← hround.fits.2]
  exact yields_of_fits s hround.fits.1

/-! ## What is rounded with a sign -/

/-- A sign as a factor. -/
def factor : Sign → ℝ
  | .positive => 1
  | .negative => -1

theorem factor_mul (s t : Sign) : factor (s * t) = factor s * factor t := by
  cases s <;> cases t <;> norm_num [factor]

theorem signed_coe (s : Sign) (x : ℝ) : signed s (x : EReal) = (factor s * x : ℝ) := by
  cases s <;> simp [signed, factor]

theorem signed_roundedMagnitude (s : Sign) {v : ℝ} (h : 0 ≤ v) :
    signed s (roundedMagnitude v) = nearest (factor s * v) := by
  cases s
  · rw [factor, neg_one_mul, nearest_neg, nearest_of_nonneg h, signed]
  · rw [factor, one_mul, nearest_of_nonneg h, signed]

theorem ample_decrease {m : ℕ} (hm : 0 < m) (e : ℤ) :
    Ample (decreaseExponent m e (place m e)).1 (decreaseExponent m e (place m e)).2 := by
  rw [decreaseExponent, place_eq, Nat.shiftLeft_eq]
  have hlog := Nat.log2_self_le hm.ne'
  rcases le_or_gt (m.log2 + e - 52) (-1074) with hlow | hhigh
  · left
    simp only
    omega
  · right
    rw [max_eq_left hhigh.le]
    calc 2 ^ 52 ≤ 2 ^ (m.log2 + (e - (m.log2 + e - 52)).toNat) :=
          Nat.pow_le_pow_right (by norm_num) (by omega)
      _ = 2 ^ m.log2 * 2 ^ (e - (m.log2 + e - 52)).toNat := pow_add ..
      _ ≤ m * 2 ^ (e - (m.log2 + e - 52)).toNat := Nat.mul_le_mul_right _ hlog

theorem scaled_decrease (m : ℕ) (e p : ℤ) :
    scaled (decreaseExponent m e p).1 (decreaseExponent m e p).2 = scaled m e := by
  have hsum : e = (e - (e - p).toNat) + (e - p).toNat := by omega
  rw [decreaseExponent, scaled, scaled, Nat.shiftLeft_eq]
  conv_rhs => rw [hsum, zpow_add₀ (by norm_num), zpow_natCast]
  push_cast
  ring

theorem yields_round (s : Sign) {m : ℕ} (hm : 0 < m) (e : ℤ) :
    Yields (round .binary64 s m e) (nearest (factor s * scaled m e)) := by
  rw [← signed_roundedMagnitude s (scaled_nonneg m e), ← scaled_decrease m e (place m e)]
  exact yields_roundWithAccuracy s (describes_exact _) (ample_decrease hm e)

/-- An integer with an exponent is rounded to the nearest float. -/
theorem yields_normalize (k e : ℤ) (s : Sign) :
    Yields (normalize .binary64 k e s) (nearest (k * 2 ^ e)) := by
  rw [UnpackedFloat.normalize]
  rcases lt_trichotomy k 0 with hneg | rfl | hpos
  · have hvalue : (k : ℝ) * 2 ^ e = factor .negative * scaled (-k).toNat e := by
      have : (k : ℝ) = -((-k).toNat : ℕ) := by
        have := Int.toNat_of_nonneg (show 0 ≤ -k by omega)
        rw [← Int.cast_natCast, this]
        push_cast
        ring
      rw [this, factor, scaled]
      ring
    rw [compare_lt_iff_lt.2 hneg, hvalue]
    exact yields_round .negative (by omega) e
  · simpa using yields_zero s
  · have hvalue : (k : ℝ) * 2 ^ e = factor .positive * scaled k.toNat e := by
      have : (k : ℝ) = (k.toNat : ℕ) := by
        rw [← Int.cast_natCast, Int.toNat_of_nonneg hpos.le]
      rw [this, factor, scaled, one_mul]
    rw [compare_gt_iff_gt.2 hpos, hvalue]
    exact yields_round .positive (by omega) e

end DirectSearch.Binary64
