import DirectSearch.Proofs.Binary64.Rounding
/-!
# Binary64 — the arithmetic of floats

The `value` of a float is the extended real it stands for. A sum, a
product or a quotient that is a number has the rounded value of the exact
one, and the tests compare values. From this the order laws of the tests
and the monotonicity of the operations are read off.
-/

namespace DirectSearch.Binary64

open Float.Model (Format UnpackedFloat totalExponent)
open Float.Model.UnpackedFloat

/-! ## Quotients before rounding -/

theorem describes_fraction (q : ℕ) {num den : ℕ} (h : num < den) :
    Describes q (accuracyOfFraction num den) (q + num / den) := by
  have hden : (0 : ℝ) < den := by exact_mod_cast Nat.zero_lt_of_lt h
  have hlt : (num : ℝ) / den < 1 := (div_lt_one hden).2 (by exact_mod_cast h)
  have hnonneg : (0 : ℝ) ≤ (num : ℝ) / den := by positivity
  rw [accuracyOfFraction]
  by_cases hzero : num = 0
  · rw [if_pos hzero, hzero]
    simpa using describes_exact q
  have hpos : (0 : ℝ) < (num : ℝ) / den := by
    have : (0 : ℝ) < num := by exact_mod_cast Nat.pos_of_ne_zero hzero
    positivity
  rw [if_neg hzero]
  rcases lt_trichotomy (2 * num) den with hcmp | hcmp | hcmp
  · have hhalf : (num : ℝ) / den < 1 / 2 := by
      rw [div_lt_div_iff₀ hden (by norm_num)]
      have : (2 * num : ℝ) < den := by exact_mod_cast hcmp
      linarith
    rw [compare_lt_iff_lt.2 hcmp]
    exact ⟨num / den, hnonneg, hhalf, by simpa [ExtendedMantissa.ofMantissaAndAccuracy] using hpos,
      by simp [ExtendedMantissa.ofMantissaAndAccuracy]⟩
  · have hhalf : (num : ℝ) / den = 1 / 2 := by
      rw [div_eq_div_iff hden.ne' (by norm_num)]
      have : (2 * num : ℝ) = den := by exact_mod_cast hcmp
      linarith
    rw [compare_eq_iff_eq.2 hcmp, hhalf]
    exact ⟨0, le_rfl, by norm_num [half_eq],
      by simp [ExtendedMantissa.ofMantissaAndAccuracy],
      by simp [half_eq, ExtendedMantissa.ofMantissaAndAccuracy]⟩
  · have hhalf : 1 / 2 < (num : ℝ) / den := by
      rw [div_lt_div_iff₀ (by norm_num) hden]
      have : (den : ℝ) < 2 * num := by exact_mod_cast hcmp
      linarith
    rw [compare_gt_iff_gt.2 hcmp]
    refine ⟨num / den - 1 / 2, by linarith, by linarith [half_eq], ?_, ?_⟩
    · simpa [ExtendedMantissa.ofMantissaAndAccuracy] using hhalf
    · simp [half_eq, ExtendedMantissa.ofMantissaAndAccuracy]

/-- The quotient is taken to as many digits as rounding needs. -/
theorem ample_divCore {m₁ m₂ : ℕ} (h₁ : 0 < m₁) (h₂ : 0 < m₂) (e₁ e₂ : ℤ) :
    Ample (divCore .binary64 m₁ e₁ m₂ e₂).1 (divCore .binary64 m₁ e₁ m₂ e₂).2.1 := by
  have htarget : Format.binary64.targetExponent (totalExponent m₁ e₁ - totalExponent m₂ e₂) =
      max (m₁.log2 + e₁ - m₂.log2 - e₂ - 53) (-1074) := by
    have hmin : Format.binary64.minExponent = -1074 := rfl
    have hbits : ((Format.binary64.mantissaBits : ℕ) : ℤ) = 53 := rfl
    rw [Format.targetExponent, totalExponent, totalExponent, hmin, hbits]
    omega
  simp only [divCore, htarget, Nat.shiftLeft_eq]
  rcases le_or_gt (m₁.log2 + e₁ - m₂.log2 - e₂ - 53) (-1074) with hlow | hhigh
  · left
    omega
  · right
    rw [max_eq_left hhigh.le, Nat.le_div_iff_mul_le h₂]
    set k := (e₁ - e₂ - min (e₁ - e₂) (m₁.log2 + e₁ - m₂.log2 - e₂ - 53)).toNat with hk
    calc 2 ^ 52 * m₂ ≤ 2 ^ 52 * 2 ^ (m₂.log2 + 1) := Nat.mul_le_mul_left _ Nat.lt_log2_self.le
      _ = 2 ^ (52 + (m₂.log2 + 1)) := (pow_add ..).symm
      _ ≤ 2 ^ (m₁.log2 + k) := Nat.pow_le_pow_right (by norm_num) (by omega)
      _ = 2 ^ m₁.log2 * 2 ^ k := pow_add ..
      _ ≤ m₁ * 2 ^ k := Nat.mul_le_mul_right _ (Nat.log2_self_le h₁.ne')

/-- A quotient is rounded to the nearest float. -/
theorem yields_divCore (s : Sign) {m₁ m₂ : ℕ} (h₁ : 0 < m₁) (h₂ : 0 < m₂) (e₁ e₂ : ℤ) :
    Yields (roundWithAccuracy .binary64 s (divCore .binary64 m₁ e₁ m₂ e₂).1
        (divCore .binary64 m₁ e₁ m₂ e₂).2.1 (divCore .binary64 m₁ e₁ m₂ e₂).2.2)
      (nearest (factor s * (scaled m₁ e₁ / scaled m₂ e₂))) := by
  have hample := ample_divCore h₁ h₂ e₁ e₂
  rw [← signed_roundedMagnitude s (div_nonneg (scaled_nonneg _ _) (scaled_nonneg _ _))]
  simp only [divCore] at hample ⊢
  set p := min (e₁ - e₂)
    (Format.binary64.targetExponent (totalExponent m₁ e₁ - totalExponent m₂ e₂)) with hp
  set k := (e₁ - e₂ - p).toNat with hk
  have hden : (m₂ : ℝ) ≠ 0 := by exact_mod_cast h₂.ne'
  have hsplit : ((m₁ <<< k / m₂ : ℕ) : ℝ) + ((m₁ <<< k % m₂ : ℕ) : ℝ) / m₂ = m₁ * 2 ^ k / m₂ := by
    have := Nat.div_add_mod (m₁ <<< k) m₂
    rw [eq_div_iff hden, add_mul, div_mul_cancel₀ _ hden]
    rw [Nat.shiftLeft_eq] at this ⊢
    rw [mul_comm ((_ : ℕ) : ℝ)]
    exact_mod_cast this
  have hvalue : scaled m₁ e₁ / scaled m₂ e₂ = m₁ * 2 ^ k / m₂ * 2 ^ p := by
    have hsum : e₁ = k + p + e₂ := by omega
    rw [scaled, scaled]
    conv_lhs => rw [hsum, zpow_add₀ (by norm_num), zpow_add₀ (by norm_num), zpow_natCast]
    have := two_zpow_pos e₂
    field_simp
  rw [hvalue, ← hsplit]
  exact yields_roundWithAccuracy s (describes_fraction _ (Nat.mod_lt _ h₂)) hample

/-! ## The operations on unpacked floats -/

theorem yields_infinity (s : Sign) : Yields (.infinity s) (signed s ⊤) := by
  refine ⟨?_, ?_⟩ <;> simp [pack, reading]

@[simp] theorem rounded_signed_top (s : Sign) : rounded (signed s ⊤) = signed s ⊤ := by
  cases s <;> rfl

@[simp] theorem rounded_zero : rounded 0 = 0 := nearest_zero

/-- What fits needs no rounding. -/
theorem yields_finite {s : Sign} {m : ℕ} {e : ℤ} {hm : 0 < m} (h : Fits m e) :
    Yields (.finite s m e hm) (rounded (reading (.finite s m e hm))) := by
  have hvalue : rounded (reading (.finite s m e hm)) = signed s (bounded (scaled m e)) := by
    rw [reading, signed_coe, rounded_coe, ← signed_roundedMagnitude s (scaled_nonneg m e),
      roundedMagnitude, h.toPlaces]
  have := yields_of_fits s h
  rwa [dif_neg hm.ne', ← hvalue] at this

theorem signed_top_add_coe (s : Sign) (x : ℝ) : signed s ⊤ + (x : EReal) = signed s ⊤ := by
  cases s
  · exact EReal.bot_add _
  · exact EReal.top_add_coe x

/-- An integer sum over the smaller of two exponents. -/
theorem scaled_add_scaled (s t : Sign) (m n : ℕ) (e k : ℤ) :
    (((s.apply (decreaseExponent m e (min e k)).1
      + t.apply (decreaseExponent n k (min e k)).1 : ℤ) : ℝ)) * 2 ^ (min e k) =
      factor s * scaled m e + factor t * scaled n k := by
  have happly : ∀ (s : Sign) (j : ℕ), ((s.apply j : ℤ) : ℝ) = factor s * j := by
    intro s j
    cases s <;> simp [Sign.apply, factor]
  have hm := scaled_decrease m e (min e k)
  have hn := scaled_decrease n k (min e k)
  have hem : (decreaseExponent m e (min e k)).2 = min e k := by
    simp only [decreaseExponent]
    omega
  have hen : (decreaseExponent n k (min e k)).2 = min e k := by
    simp only [decreaseExponent]
    omega
  rw [scaled, hem] at hm
  rw [scaled, hen] at hn
  rw [← hm, ← hn, Int.cast_add, happly, happly]
  ring

/-- **A sum has the rounded value of the exact one.** -/
theorem yields_add {a b : UnpackedFloat} (ha : Canonical a) (hb : Canonical b)
    (h : add .binary64 a b ≠ .notANumber) :
    Yields (add .binary64 a b) (rounded (reading a + reading b)) := by
  rcases a with s | _ | s | ⟨s, m, e, hm⟩ <;> rcases b with t | _ | t | ⟨t, n, k, hn⟩
  case infinity.infinity =>
    by_cases hst : s = t
    · subst hst
      have hsum : signed s ⊤ + signed s ⊤ = signed s ⊤ := by cases s <;> rfl
      have hsame : (s == s) = true := by cases s <;> rfl
      simpa [add, reading, hsum, hsame] using yields_infinity s
    · cases s <;> cases t <;> first | exact absurd rfl hst | exact absurd rfl h
  case infinity.zero => simpa [add, reading] using yields_infinity s
  case infinity.finite =>
    rw [reading, reading, signed_coe, signed_top_add_coe, rounded_signed_top]
    exact yields_infinity s
  case zero.infinity => simpa [add, reading] using yields_infinity t
  case finite.infinity =>
    rw [reading, reading, signed_coe, add_comm, signed_top_add_coe, rounded_signed_top]
    exact yields_infinity t
  case zero.zero =>
    have : Yields (add .binary64 (.zero s) (.zero t)) 0 := by
      rw [add]
      split <;> exact yields_zero _
    simpa [reading] using this
  case zero.finite => simpa [add, reading] using yields_finite hb
  case finite.zero => simpa [add, reading] using yields_finite ha
  case finite.finite =>
    rw [reading, reading, signed_coe, signed_coe, ← EReal.coe_add, rounded_coe,
      ← scaled_add_scaled]
    exact yields_normalize _ _ .positive
  all_goals exact absurd rfl h

theorem signed_top_mul_signed_top (s t : Sign) :
    signed s ⊤ * signed t ⊤ = signed (s * t) ⊤ := by
  cases s <;> cases t <;> rfl

theorem signed_top_mul_coe (s t : Sign) {x : ℝ} (h : 0 < x) :
    signed s ⊤ * signed t (x : EReal) = signed (s * t) ⊤ := by
  have htop : (⊤ : EReal) * x = ⊤ := EReal.top_mul_coe_of_pos h
  cases s <;> cases t
  · rw [signed, signed, neg_mul_neg, htop]
    rfl
  · rw [signed, signed, neg_mul, htop]
    rfl
  · rw [signed, signed, mul_neg, htop]
    rfl
  · exact htop

theorem ample_mul {m n : ℕ} {e k : ℤ} (hm : 0 < m) (hn : 0 < n) (h₁ : Fits m e)
    (h₂ : Fits n k) : Ample (m * n) (e + k) := by
  rcases h₁.full with h | rfl
  · exact Or.inr (h.trans (Nat.le_mul_of_pos_right m hn))
  · rcases h₂.full with h | rfl
    · exact Or.inr (h.trans (Nat.le_mul_of_pos_left n hm))
    · exact Or.inl (by omega)

/-- **A product has the rounded value of the exact one.** -/
theorem yields_mul {a b : UnpackedFloat} (ha : Canonical a) (hb : Canonical b)
    (h : mul .binary64 a b ≠ .notANumber) :
    Yields (mul .binary64 a b) (rounded (reading a * reading b)) := by
  rcases a with s | _ | s | ⟨s, m, e, hm⟩ <;> rcases b with t | _ | t | ⟨t, n, k, hn⟩
  case infinity.infinity =>
    rw [reading, reading, signed_top_mul_signed_top, rounded_signed_top]
    exact yields_infinity (s * t)
  case infinity.finite =>
    rw [reading, reading, signed_top_mul_coe s t (scaled_pos hn k), rounded_signed_top]
    exact yields_infinity (s * t)
  case finite.infinity =>
    rw [reading, reading, mul_comm, signed_top_mul_coe t s (scaled_pos hm e), rounded_signed_top]
    have hsign : t * s = s * t := by cases s <;> cases t <;> rfl
    rw [hsign]
    exact yields_infinity (s * t)
  case zero.zero =>
    rw [reading, reading, mul_zero, rounded_zero]
    exact yields_zero (s * t)
  case zero.finite =>
    rw [reading, reading, zero_mul, rounded_zero]
    exact yields_zero (s * t)
  case finite.zero =>
    rw [reading, reading, mul_zero, rounded_zero]
    exact yields_zero (s * t)
  case finite.finite =>
    have hvalue : factor s * scaled m e * (factor t * scaled n k) =
        factor (s * t) * ((m * n : ℕ) * 2 ^ (e + k)) := by
      rw [factor_mul, scaled, scaled, zpow_add₀ (by norm_num)]
      push_cast
      ring
    rw [reading, reading, signed_coe, signed_coe, ← EReal.coe_mul, rounded_coe, hvalue,
      ← signed_roundedMagnitude _ (mul_nonneg (Nat.cast_nonneg _) (two_zpow_pos _).le)]
    exact yields_roundWithAccuracy (s * t) (describes_exact _) (ample_mul hm hn ha hb)
  all_goals exact absurd rfl h

theorem sign_div (s t : Sign) : s / t = s * t := by
  cases s <;> cases t <;> rfl

theorem factor_inv (s : Sign) : (factor s)⁻¹ = factor s := by
  cases s <;> norm_num [factor]

theorem signed_top_div_coe (s t : Sign) {x : ℝ} (h : 0 < x) :
    signed s ⊤ / (factor t * x : ℝ) = signed (s / t) ⊤ := by
  rw [EReal.div_eq_inv_mul, ← EReal.coe_inv, mul_inv, factor_inv, ← signed_coe, mul_comm,
    signed_top_mul_coe s t (inv_pos.2 h), sign_div]

/-- **A quotient by a number that is neither zero nor infinite** has the
rounded value of the exact one. -/
theorem yields_div {a : UnpackedFloat} {t : Sign} {n : ℕ} {k : ℤ} {hn : 0 < n}
    (ha : a ≠ .notANumber) :
    Yields (div .binary64 a (.finite t n k hn))
      (rounded (reading a / reading (.finite t n k hn))) := by
  rw [reading, signed_coe]
  rcases a with s | _ | s | ⟨s, m, e, hm⟩
  case infinity =>
    rw [reading, signed_top_div_coe s t (scaled_pos hn k), rounded_signed_top]
    exact yields_infinity (s / t)
  case notANumber => exact absurd rfl ha
  case zero =>
    rw [reading, EReal.zero_div, rounded_zero]
    exact yields_zero (s / t)
  case finite =>
    rw [reading, signed_coe, ← EReal.coe_div, rounded_coe]
    have hvalue : factor s * scaled m e / (factor t * scaled n k) =
        factor (s / t) * (scaled m e / scaled n k) := by
      rw [sign_div, factor_mul, div_eq_mul_inv, mul_inv, factor_inv, div_eq_mul_inv]
      ring
    rw [hvalue]
    exact yields_divCore (s / t) hm hn e k

/-! ## Floats -/

/-- The extended real that a float stands for; zero if it is no number. -/
noncomputable def value (x : Float) : EReal := reading x.toModel.unpack

/-- A float that is a number. -/
def IsNumber (x : Float) : Prop := x.toModel.unpack ≠ .notANumber

theorem canonical_toModel (x : Float) : Canonical x.toModel.unpack := canonical_unpack _

theorem isNumber_iff {x : Float} : IsNumber x ↔ x.isNaN = false := by
  rw [IsNumber, Float.isNaN, Float.Model.isNaN]
  cases x.toModel.unpack <;> simp [UnpackedFloat.isNaN]

theorem le_iff {x y : Float} : x.le y ↔ IsNumber x ∧ IsNumber y ∧ value x ≤ value y := by
  refine Iff.trans ?_ (le_iff_reading (canonical_toModel x) (canonical_toModel y))
  rw [Float.le, decide_eq_true_iff]
  exact Iff.rfl

theorem lt_iff {x y : Float} : x.lt y ↔ IsNumber x ∧ IsNumber y ∧ value x < value y := by
  refine Iff.trans ?_ (lt_iff_reading (canonical_toModel x) (canonical_toModel y))
  rw [Float.lt, decide_eq_true_iff]
  exact Iff.rfl

theorem Yields.isNumber {u : UnpackedFloat} {x : EReal} (h : Yields u x) :
    IsNumber (.ofModel (.pack u)) := h.1

theorem Yields.value {u : UnpackedFloat} {x : EReal} (h : Yields u x) :
    value (.ofModel (.pack u)) = x := h.2

/-- What is packed of no number is no number. -/
theorem ne_notANumber_of_isNumber {u : UnpackedFloat} (h : IsNumber (.ofModel (.pack u))) :
    u ≠ .notANumber := by
  rintro rfl
  exact h unpack_packedNaN

theorem value_add {x y : Float} (h : IsNumber (x + y)) :
    value (x + y) = rounded (value x + value y) :=
  (yields_add (canonical_toModel x) (canonical_toModel y) (ne_notANumber_of_isNumber h)).value

theorem value_mul {x y : Float} (h : IsNumber (x * y)) :
    value (x * y) = rounded (value x * value y) :=
  (yields_mul (canonical_toModel x) (canonical_toModel y) (ne_notANumber_of_isNumber h)).value

/-- The terms of a sum that is a number are numbers. -/
theorem isNumber_of_add {x y : Float} (h : IsNumber (x + y)) : IsNumber x ∧ IsNumber y := by
  have := ne_notANumber_of_isNumber h
  constructor <;> intro hnan
  · rw [hnan] at this
    exact this rfl
  · rw [hnan] at this
    cases hx : x.toModel.unpack <;> rw [hx] at this <;> exact this rfl

theorem isNumber_of_mul {x y : Float} (h : IsNumber (x * y)) : IsNumber x ∧ IsNumber y := by
  have := ne_notANumber_of_isNumber h
  constructor <;> intro hnan
  · rw [hnan] at this
    exact this rfl
  · rw [hnan] at this
    cases hx : x.toModel.unpack <;> rw [hx] at this <;> exact this rfl

/-- A float whose value is a real number other than zero is given by its
sign, its digits and its exponent. -/
theorem exists_finite {x : Float} (h : IsNumber x) (h0 : value x ≠ 0) (htop : value x ≠ ⊤)
    (hbot : value x ≠ ⊥) : ∃ s m e hm, x.toModel.unpack = .finite s m e hm := by
  rw [value] at h0 htop hbot
  rw [IsNumber] at h
  cases hx : x.toModel.unpack with
  | infinity s =>
    rw [hx] at htop hbot
    cases s
    · exact absurd rfl hbot
    · exact absurd rfl htop
  | notANumber => exact absurd hx h
  | zero s =>
    rw [hx] at h0
    exact absurd rfl h0
  | finite s m e hm => exact ⟨s, m, e, hm, rfl⟩

/-- A quotient by a real number other than zero is a number. -/
theorem isNumber_div {x y : Float} (hx : IsNumber x) (hy : IsNumber y) (h0 : value y ≠ 0)
    (htop : value y ≠ ⊤) (hbot : value y ≠ ⊥) :
    IsNumber (x / y) ∧ value (x / y) = rounded (value x / value y) := by
  obtain ⟨s, m, e, hm, hfinite⟩ := exists_finite hy h0 htop hbot
  have h : Yields (div .binary64 x.toModel.unpack (.finite s m e hm))
      (rounded (value x / reading (.finite s m e hm))) := yields_div hx
  rw [← hfinite] at h
  exact ⟨h.isNumber, h.value⟩

/-- The value of a float needs no rounding. -/
theorem rounded_value (x : Float) : rounded (value x) = value x := by
  rw [value]
  cases hx : x.toModel.unpack with
  | infinity s => exact rounded_signed_top s
  | notANumber => exact rounded_zero
  | zero s => exact rounded_zero
  | finite s m e hm =>
    obtain ⟨hfits, he⟩ := fits_of_unpack hx
    rw [reading, signed_coe, rounded_coe, ← signed_roundedMagnitude s (scaled_nonneg m e),
      roundedMagnitude, hfits.toPlaces, bounded, if_pos (hfits.scaled_lt_overflow_iff.2 he),
      signed_coe]

theorem roundWithAccuracy_ne_notANumber (s : Sign) (m : ℕ) (e : ℤ) (acc : Accuracy) :
    roundWithAccuracy .binary64 s m e acc ≠ .notANumber := by
  simp only [roundWithAccuracy]
  split
  · intro h
    cases h
  · intro h
    cases h

theorem mul_ne_notANumber {a b : UnpackedFloat} (ha : 0 < reading a) (hb : 0 < reading b) :
    mul .binary64 a b ≠ .notANumber := by
  cases a with
  | notANumber => exact absurd ha (lt_irrefl _)
  | zero s => exact absurd ha (lt_irrefl _)
  | infinity s =>
    cases b with
    | notANumber => exact absurd hb (lt_irrefl _)
    | zero t => exact absurd hb (lt_irrefl _)
    | infinity t => nofun
    | finite t n k hn => nofun
  | finite s m e hm =>
    cases b with
    | notANumber => exact absurd hb (lt_irrefl _)
    | zero t => exact absurd hb (lt_irrefl _)
    | infinity t => nofun
    | finite t n k hn => exact roundWithAccuracy_ne_notANumber _ _ _ _

/-- A product of positive numbers is a number. -/
theorem isNumber_mul {x y : Float} (hx : 0 < value x) (hy : 0 < value y) :
    IsNumber (x * y) :=
  (yields_mul (canonical_toModel x) (canonical_toModel y) (mul_ne_notANumber hx hy)).isNumber

end DirectSearch.Binary64
