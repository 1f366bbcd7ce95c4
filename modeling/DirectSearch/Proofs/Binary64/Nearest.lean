import Mathlib
/-!
# Binary64 — rounding a real number

Every operation of 64-bit arithmetic is the exact one followed by a
rounding: to the nearest number with 53 binary places, and with no place
below `2 ^ (-1074)`; a tie goes to the even neighbour, and what is too
large becomes infinite. `rounded` is that function on the extended reals.
It is monotone (`rounded_mono`) and leaves alone what needs no rounding
(`Fits.toPlaces`), and nothing else is asked of it.
-/

namespace DirectSearch.Binary64

/-! ## To the nearest integer -/

/-- One half. -/
noncomputable def half : ℝ := 1 / 2

theorem half_eq : half = 1 / 2 := rfl

/-- The nearest integer; a half goes to the even neighbour. -/
noncomputable def roundEven (x : ℝ) : ℤ :=
  if 2 * Int.fract x < 1 then ⌊x⌋
  else if 1 < 2 * Int.fract x then ⌊x⌋ + 1
  else ⌊x⌋ + ⌊x⌋ % 2

theorem floor_le_roundEven (x : ℝ) : ⌊x⌋ ≤ roundEven x := by
  unfold roundEven
  split_ifs <;> omega

theorem roundEven_le_floor_add_one (x : ℝ) : roundEven x ≤ ⌊x⌋ + 1 := by
  unfold roundEven
  split_ifs <;> omega

theorem roundEven_mono {x y : ℝ} (h : x ≤ y) : roundEven x ≤ roundEven y := by
  rcases (Int.floor_mono h).lt_or_eq with hlt | heq
  · have := roundEven_le_floor_add_one x
    have := floor_le_roundEven y
    omega
  · have hfract : Int.fract x ≤ Int.fract y := by
      rw [Int.fract, Int.fract, heq]
      linarith
    unfold roundEven
    rw [heq]
    split_ifs <;> first | omega | (exfalso; linarith)

@[simp] theorem roundEven_intCast (k : ℤ) : roundEven k = k := by
  simp [roundEven]

/-- An integer that a number lies above is not rounded past. -/
theorem le_roundEven {k : ℤ} {x : ℝ} (h : (k : ℝ) ≤ x) : k ≤ roundEven x := by
  simpa using roundEven_mono h

/-- An integer that a number lies below is not rounded past. -/
theorem roundEven_le {k : ℤ} {x : ℝ} (h : x ≤ k) : roundEven x ≤ k := by
  simpa using roundEven_mono h

/-! ## To 53 places -/

/-- The exponent of the last of the places that are kept. -/
noncomputable def lastPlace (v : ℝ) : ℤ := max (Int.log 2 v - 52) (-1074)

/-- A magnitude rounded, however large it is. -/
noncomputable def toPlaces (v : ℝ) : ℝ := roundEven (v / 2 ^ lastPlace v) * 2 ^ lastPlace v

theorem two_zpow_pos (e : ℤ) : (0 : ℝ) < 2 ^ e := zpow_pos (by norm_num) e

/-- The last place is the only one that the size of a magnitude allows. -/
theorem lastPlace_eq {v : ℝ} {e : ℤ} (hv : 0 < v) (he : -1074 ≤ e)
    (hlt : v < 2 ^ (e + 53)) (hle : e = -1074 ∨ 2 ^ (e + 52) ≤ v) : lastPlace v = e := by
  have h2 : ((2 : ℕ) : ℝ) = 2 := by norm_num
  have hlog : Int.log 2 v < e + 53 :=
    (Int.lt_zpow_iff_log_lt (by norm_num) hv).1 (by rwa [h2])
  rw [lastPlace]
  rcases hle with rfl | hle
  · omega
  · have : e + 52 ≤ Int.log 2 v := (Int.zpow_le_iff_le_log (by norm_num) hv).1 (by rwa [h2])
    omega

/-- A magnitude has at most 53 binary digits before its last place. -/
theorem lt_of_lastPlace (v : ℝ) : v < 2 ^ (lastPlace v + 53) := by
  have h := Int.lt_zpow_succ_log_self (b := 2) (by norm_num) v
  have hle : Int.log 2 v + 1 ≤ lastPlace v + 53 := by rw [lastPlace]; omega
  exact lt_of_lt_of_le (by simpa using h) (zpow_le_zpow_right₀ (by norm_num) hle)

/-- Above the lowest place of all it has just as many. -/
theorem le_of_lastPlace {v : ℝ} (hv : 0 < v) (h : -1074 < lastPlace v) :
    2 ^ (lastPlace v + 52) ≤ v := by
  have hlog : lastPlace v + 52 = Int.log 2 v := by rw [lastPlace] at h ⊢; omega
  have := Int.zpow_log_le_self (b := 2) (by norm_num) hv
  rw [hlog]
  simpa using this

@[simp] theorem toPlaces_zero : toPlaces 0 = 0 := by
  have := roundEven_intCast 0
  simp only [Int.cast_zero] at this
  simp [toPlaces, this]

theorem toPlaces_nonneg {v : ℝ} (hv : 0 ≤ v) : 0 ≤ toPlaces v := by
  have h : (0 : ℤ) ≤ roundEven (v / 2 ^ lastPlace v) :=
    le_roundEven (by simpa using div_nonneg hv (two_zpow_pos _).le)
  exact mul_nonneg (by exact_mod_cast h) (two_zpow_pos _).le

theorem toPlaces_mono {v w : ℝ} (hv : 0 ≤ v) (h : v ≤ w) : toPlaces v ≤ toPlaces w := by
  rcases hv.eq_or_lt with rfl | hpos
  · simpa using toPlaces_nonneg h
  have hle : lastPlace v ≤ lastPlace w := by
    have := Int.log_mono_right (b := 2) hpos h
    rw [lastPlace, lastPlace]
    omega
  rcases hle.eq_or_lt with heq | hlt
  · -- one last place for both: the order is that of the integers
    rw [toPlaces, toPlaces, heq]
    refine mul_le_mul_of_nonneg_right ?_ (two_zpow_pos _).le
    exact_mod_cast roundEven_mono (div_le_div_of_nonneg_right h (two_zpow_pos _).le)
  · -- a power of two separates the two magnitudes, and stays between them
    have hw : 0 < w := lt_of_lt_of_le hpos h
    have hbelow : toPlaces v ≤ 2 ^ (lastPlace v + 53) := by
      have hdiv : v / 2 ^ lastPlace v ≤ ((2 ^ 53 : ℤ) : ℝ) := by
        rw [div_le_iff₀ (two_zpow_pos _)]
        have := (lt_of_lastPlace v).le
        rw [zpow_add₀ (by norm_num)] at this
        push_cast
        linarith
      have hround : ((roundEven (v / 2 ^ lastPlace v) : ℤ) : ℝ) ≤ ((2 ^ 53 : ℤ) : ℝ) := by
        exact_mod_cast roundEven_le hdiv
      rw [toPlaces, zpow_add₀ (by norm_num), mul_comm ((2 : ℝ) ^ lastPlace v)]
      refine mul_le_mul_of_nonneg_right ?_ (two_zpow_pos _).le
      exact_mod_cast hround
    have habove : 2 ^ (lastPlace w + 52) ≤ toPlaces w := by
      have hplace : -1074 < lastPlace w := lt_of_le_of_lt (le_max_right _ _) hlt
      have hdiv : ((2 ^ 52 : ℤ) : ℝ) ≤ w / 2 ^ lastPlace w := by
        rw [le_div_iff₀ (two_zpow_pos _)]
        have := le_of_lastPlace hw hplace
        rw [zpow_add₀ (by norm_num)] at this
        push_cast
        linarith
      have hround : ((2 ^ 52 : ℤ) : ℝ) ≤ ((roundEven (w / 2 ^ lastPlace w) : ℤ) : ℝ) := by
        exact_mod_cast le_roundEven hdiv
      rw [toPlaces, zpow_add₀ (by norm_num), mul_comm ((2 : ℝ) ^ lastPlace w)]
      refine mul_le_mul_of_nonneg_right ?_ (two_zpow_pos _).le
      exact_mod_cast hround
    refine hbelow.trans (le_trans ?_ habove)
    exact zpow_le_zpow_right₀ (by norm_num) (by omega)

/-! ## To a float's value -/

/-- The least magnitude that is too large for a float. -/
noncomputable def overflow : ℝ := 2 ^ (1024 : ℤ)

/-- A magnitude, or infinity in place of one that is too large. -/
noncomputable def bounded (v : ℝ) : EReal := if v < overflow then (v : EReal) else ⊤

/-- A magnitude rounded; what is too large is infinite. -/
noncomputable def roundedMagnitude (v : ℝ) : EReal := bounded (toPlaces v)

theorem roundedMagnitude_nonneg {v : ℝ} (hv : 0 ≤ v) : 0 ≤ roundedMagnitude v := by
  unfold roundedMagnitude bounded
  split_ifs
  · exact_mod_cast toPlaces_nonneg hv
  · exact le_top

theorem roundedMagnitude_mono {v w : ℝ} (hv : 0 ≤ v) (h : v ≤ w) :
    roundedMagnitude v ≤ roundedMagnitude w := by
  have hle := toPlaces_mono hv h
  unfold roundedMagnitude bounded
  split_ifs with h1 h2
  · exact_mod_cast hle
  · exact le_top
  · linarith
  · exact le_rfl

/-- The number of 64-bit arithmetic nearest to a real number. -/
noncomputable def nearest (x : ℝ) : EReal :=
  if x < 0 then -roundedMagnitude (-x) else roundedMagnitude x

theorem nearest_of_nonneg {x : ℝ} (h : 0 ≤ x) : nearest x = roundedMagnitude x :=
  if_neg (not_lt.2 h)

@[simp] theorem nearest_zero : nearest 0 = 0 := by
  simp [nearest, roundedMagnitude, bounded, overflow]

theorem nearest_neg (x : ℝ) : nearest (-x) = -nearest x := by
  rcases lt_trichotomy x 0 with h | rfl | h
  · simp [nearest, h, not_lt.2 h.le]
  · simp
  · simp [nearest, h, not_lt.2 h.le]

theorem nearest_mono {x y : ℝ} (h : x ≤ y) : nearest x ≤ nearest y := by
  unfold nearest
  split_ifs with hx hy hy
  · exact EReal.neg_le_neg_iff.2 (roundedMagnitude_mono (by linarith) (by linarith))
  · have hleft := roundedMagnitude_nonneg (v := -x) (by linarith)
    exact (EReal.neg_le_neg_iff.2 hleft).trans
      (by simpa using roundedMagnitude_nonneg (not_lt.1 hy))
  · linarith
  · exact roundedMagnitude_mono (not_lt.1 hx) h

/-- The nearest number to an extended real: an infinity is its own. -/
noncomputable def rounded : EReal → EReal
  | (x : ℝ) => nearest x
  | ⊤ => ⊤
  | ⊥ => ⊥

@[simp] theorem rounded_coe (x : ℝ) : rounded x = nearest x := rfl

@[simp] theorem rounded_top : rounded ⊤ = ⊤ := rfl

@[simp] theorem rounded_bot : rounded ⊥ = ⊥ := rfl

/-- **Rounding is monotone.** -/
theorem rounded_mono {x y : EReal} (h : x ≤ y) : rounded x ≤ rounded y := by
  induction x with
  | bot => exact bot_le
  | top => rw [top_le_iff.1 h]
  | coe x =>
    induction y with
    | bot => exact absurd h (by simp)
    | top => exact le_top
    | coe y => exact nearest_mono (by exact_mod_cast h)

/-! ## What needs no rounding -/

/-- What a float holds of a magnitude: an integer of at most 53 digits and
the exponent of its last place, as low as the digits allow. -/
structure Fits (m : ℕ) (e : ℤ) : Prop where
  lt : m < 2 ^ 53
  ge : -1074 ≤ e
  full : 2 ^ 52 ≤ m ∨ e = -1074

/-- The value that a magnitude in this form has. -/
noncomputable def scaled (m : ℕ) (e : ℤ) : ℝ := m * 2 ^ e

theorem scaled_nonneg (m : ℕ) (e : ℤ) : 0 ≤ scaled m e :=
  mul_nonneg (Nat.cast_nonneg m) (two_zpow_pos e).le

theorem scaled_pos {m : ℕ} (h : 0 < m) (e : ℤ) : 0 < scaled m e :=
  mul_pos (by exact_mod_cast h) (two_zpow_pos e)

theorem Fits.lastPlace {m : ℕ} {e : ℤ} (h : Fits m e) (hm : 0 < m) :
    lastPlace (scaled m e) = e := by
  refine lastPlace_eq (scaled_pos hm e) h.ge ?_ ?_
  · rw [scaled, zpow_add₀ (by norm_num), mul_comm ((2 : ℝ) ^ e)]
    refine mul_lt_mul_of_pos_right ?_ (two_zpow_pos e)
    exact_mod_cast h.lt
  · refine h.full.symm.imp_right fun hfull => ?_
    rw [scaled, zpow_add₀ (by norm_num), mul_comm ((2 : ℝ) ^ e)]
    refine mul_le_mul_of_nonneg_right ?_ (two_zpow_pos e).le
    exact_mod_cast hfull

/-- **A magnitude that a float holds needs no rounding.** -/
theorem Fits.toPlaces {m : ℕ} {e : ℤ} (h : Fits m e) : toPlaces (scaled m e) = scaled m e := by
  rcases Nat.eq_zero_or_pos m with rfl | hm
  · simp [scaled]
  · rw [Binary64.toPlaces, h.lastPlace hm, scaled, mul_div_cancel_right₀ _ (two_zpow_pos e).ne']
    have := roundEven_intCast m
    push_cast at this
    rw [this]
    push_cast
    rfl

theorem scaled_lt_of_lt {m₁ m₂ : ℕ} (h : m₁ < m₂) (e : ℤ) : scaled m₁ e < scaled m₂ e :=
  mul_lt_mul_of_pos_right (by exact_mod_cast h) (two_zpow_pos e)

/-- A larger exponent makes a larger magnitude, whatever the digits. -/
theorem Fits.scaled_lt {m₁ m₂ : ℕ} {e₁ e₂ : ℤ} (h₁ : Fits m₁ e₁) (h₂ : Fits m₂ e₂)
    (h : e₁ < e₂) : scaled m₁ e₁ < scaled m₂ e₂ := by
  have hfull : 2 ^ 52 ≤ m₂ := h₂.full.resolve_right (by have := h₁.ge; omega)
  calc scaled m₁ e₁ < 2 ^ (53 : ℤ) * 2 ^ e₁ :=
        mul_lt_mul_of_pos_right (by exact_mod_cast h₁.lt) (two_zpow_pos e₁)
    _ = 2 ^ (53 + e₁) := (zpow_add₀ (by norm_num) _ _).symm
    _ ≤ 2 ^ (52 + e₂) := zpow_le_zpow_right₀ (by norm_num) (by omega)
    _ = 2 ^ (52 : ℤ) * 2 ^ e₂ := zpow_add₀ (by norm_num) _ _
    _ ≤ scaled m₂ e₂ := mul_le_mul_of_nonneg_right (by exact_mod_cast hfull) (two_zpow_pos e₂).le

/-- The exponent of what fits is out of range just when its value is. -/
theorem Fits.scaled_lt_overflow_iff {m : ℕ} {e : ℤ} (h : Fits m e) :
    scaled m e < overflow ↔ e ≤ 971 := by
  constructor
  · intro hlt
    by_contra hgt
    have hfull : 2 ^ 52 ≤ m := h.full.resolve_right (by omega)
    refine absurd hlt (not_lt.2 ?_)
    calc overflow ≤ 2 ^ (52 + e) := zpow_le_zpow_right₀ (by norm_num) (by omega)
      _ = 2 ^ (52 : ℤ) * 2 ^ e := zpow_add₀ (by norm_num) _ _
      _ ≤ scaled m e := mul_le_mul_of_nonneg_right (by exact_mod_cast hfull) (two_zpow_pos e).le
  · intro hle
    calc scaled m e < 2 ^ (53 : ℤ) * 2 ^ e :=
          mul_lt_mul_of_pos_right (by exact_mod_cast h.lt) (two_zpow_pos e)
      _ = 2 ^ (53 + e) := (zpow_add₀ (by norm_num) _ _).symm
      _ ≤ overflow := zpow_le_zpow_right₀ (by norm_num) (by omega)

/-! ## The least float -/

theorem roundEven_pos {x : ℝ} (h : 1 / 2 < x) : 0 < roundEven x := by
  rcases le_or_gt 1 x with hge | hlt
  · exact le_roundEven (k := 1) (by exact_mod_cast hge)
  · have hfloor : ⌊x⌋ = 0 := Int.floor_eq_zero_iff.2 ⟨by linarith, hlt⟩
    have hfract : Int.fract x = x := by simp [Int.fract, hfloor]
    rw [roundEven, hfract, hfloor, if_neg (by linarith), if_pos (by linarith)]
    norm_num

theorem roundEven_half : roundEven (1 / 2) = 0 := by
  have hfloor : ⌊(1 / 2 : ℝ)⌋ = 0 := by norm_num
  rw [roundEven, Int.fract, hfloor]
  norm_num

theorem lastPlace_of_lt {x : ℝ} (hx : 0 < x) (h : x < 2 ^ (-1021 : ℤ)) : lastPlace x = -1074 :=
  lastPlace_eq hx le_rfl (by norm_num at h ⊢; exact h) (Or.inl rfl)

/-- What lies above half the least float is not rounded to zero. -/
theorem nearest_pos {x : ℝ} (h : 2 ^ (-1075 : ℤ) < x) : 0 < nearest x := by
  -- below the least float itself the last place is the lowest; above it, rounding is monotone
  have key : ∀ y : ℝ, 2 ^ (-1075 : ℤ) < y → y < 2 ^ (-1021 : ℤ) → 0 < nearest y := by
    intro y hlow hhigh
    have hpos : 0 < y := (two_zpow_pos _).trans hlow
    have hround : 0 < roundEven (y / 2 ^ lastPlace y) := by
      refine roundEven_pos ?_
      rw [lastPlace_of_lt hpos hhigh, lt_div_iff₀ (two_zpow_pos _)]
      calc (1 / 2 : ℝ) * 2 ^ (-1074 : ℤ) = 2 ^ (-1 : ℤ) * 2 ^ (-1074 : ℤ) := by norm_num
        _ = 2 ^ (-1075 : ℤ) := by rw [← zpow_add₀ (by norm_num)]; norm_num
        _ < y := hlow
    have htoPlaces : 0 < toPlaces y := mul_pos (by exact_mod_cast hround) (two_zpow_pos _)
    rw [nearest_of_nonneg hpos.le, roundedMagnitude, bounded]
    split
    · exact_mod_cast htoPlaces
    · exact EReal.zero_lt_top
  rcases lt_or_ge x (2 ^ (-1021 : ℤ)) with hlt | hge
  · exact key x h hlt
  · have hstrict : (2 : ℝ) ^ (-1074 : ℤ) < 2 ^ (-1021 : ℤ) :=
      zpow_lt_zpow_right₀ (by norm_num) (by norm_num)
    exact (key _ (zpow_lt_zpow_right₀ (by norm_num) (by norm_num)) hstrict).trans_le
      (nearest_mono (hstrict.le.trans hge))

/-- Half the least float is a tie, and goes to zero. -/
theorem nearest_tie : nearest (2 ^ (-1075 : ℤ)) = 0 := by
  have hlast : lastPlace (2 ^ (-1075 : ℤ)) = -1074 :=
    lastPlace_of_lt (two_zpow_pos _) (zpow_lt_zpow_right₀ (by norm_num) (by norm_num))
  have hhalf : (2 : ℝ) ^ (-1075 : ℤ) / 2 ^ (-1074 : ℤ) = 1 / 2 := by
    rw [← zpow_sub₀ (by norm_num)]
    norm_num
  rw [nearest_of_nonneg (two_zpow_pos _).le, roundedMagnitude, toPlaces, hlast, hhalf,
    roundEven_half]
  simp [bounded, overflow]

end DirectSearch.Binary64
