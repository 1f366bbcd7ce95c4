import DirectSearch.Proofs.Binary64.Smallest
/-!
# 64-bit floats — the finite ones as real numbers

A finite float is a real number. Finite floats are compared as the real
numbers that they are (`le_iff_real`, `lt_iff_real`), and adding zero to one
leaves it the number that it is (`real_add_zero`). To infinities it makes no
difference either, and all floats compare as before (`lt_add_zero`).
-/

namespace DirectSearch.Binary64

open Float.Model Scalar

/-- The real number that a finite float is. -/
noncomputable def real (x : Float) : ℝ := (value x).toReal

theorem real_zero : real zero = 0 := by
  rw [real, show value zero = 0 from rfl, EReal.toReal_zero]

theorem real_one : real one = 1 := by
  rw [real, value_one, EReal.toReal_one]

variable {x y : Float}

theorem isFinite_iff : x.isFinite ↔ IsNumber x ∧ value x ≠ ⊤ ∧ value x ≠ ⊥ := by
  change x.toModel.unpack.isFinite = true ↔ _
  rw [IsNumber, value]
  cases x.toModel.unpack with
  | notANumber => simp [UnpackedFloat.isFinite]
  | infinity s => cases s <;> simp [UnpackedFloat.isFinite, reading, signed]
  | zero s => simp [UnpackedFloat.isFinite, reading]
  | finite s m e hm =>
    rw [reading, signed_coe]
    exact iff_of_true rfl ⟨by simp, EReal.coe_ne_top _, EReal.coe_ne_bot _⟩

theorem coe_real (hx : x.isFinite) : (real x : EReal) = value x := by
  obtain ⟨-, htop, hbot⟩ := isFinite_iff.1 hx
  exact EReal.coe_toReal htop hbot

theorem le_iff_real (hx : x.isFinite) (hy : y.isFinite) : x.le y ↔ real x ≤ real y := by
  rw [le_iff, ← coe_real hx, ← coe_real hy, EReal.coe_le_coe_iff]
  exact ⟨fun h => h.2.2, fun h => ⟨(isFinite_iff.1 hx).1, (isFinite_iff.1 hy).1, h⟩⟩

theorem lt_iff_real (hx : x.isFinite) (hy : y.isFinite) : x.lt y ↔ real x < real y := by
  rw [lt_iff, ← coe_real hx, ← coe_real hy, EReal.coe_lt_coe_iff]
  exact ⟨fun h => h.2.2, fun h => ⟨(isFinite_iff.1 hx).1, (isFinite_iff.1 hy).1, h⟩⟩

theorem add_zero_ne_notANumber {a : UnpackedFloat} (ha : a ≠ .notANumber) (s : UnpackedFloat.Sign) :
    a.add .binary64 (.zero s) ≠ .notANumber := by
  cases a with
  | notANumber => exact absurd rfl ha
  | infinity t => simp [UnpackedFloat.add]
  | finite t m e hm => simp [UnpackedFloat.add]
  | zero t =>
    rw [UnpackedFloat.add]
    split <;> simp

/-- **Adding zero** changes at most the sign of a zero. -/
theorem value_add_zero (hx : IsNumber x) : IsNumber (x + zero) ∧ value (x + zero) = value x := by
  have hsum := yields_add (canonical_toModel x) (canonical_toModel zero)
    (add_zero_ne_notANumber hx .positive)
  refine ⟨hsum.isNumber, ?_⟩
  rw [value_add hsum.isNumber, show value zero = 0 from rfl, add_zero, rounded_value]

theorem real_add_zero (hx : x.isFinite) : (x + zero).isFinite ∧ real (x + zero) = real x := by
  obtain ⟨hnumber, htop, hbot⟩ := isFinite_iff.1 hx
  obtain ⟨hsum, hvalue⟩ := value_add_zero hnumber
  refine ⟨isFinite_iff.2 ⟨hsum, ?_, ?_⟩, ?_⟩
  · rwa [hvalue]
  · rwa [hvalue]
  · rw [real, hvalue, real]

/-- Any floats compare as they do after zero has been added to them. -/
theorem lt_add_zero : (x + zero).lt (y + zero) ↔ x.lt y := by
  rw [lt_iff, lt_iff]
  constructor
  · rintro ⟨hx, hy, h⟩
    have hx' := (isNumber_of_add hx).1
    have hy' := (isNumber_of_add hy).1
    rw [(value_add_zero hx').2, (value_add_zero hy').2] at h
    exact ⟨hx', hy', h⟩
  · rintro ⟨hx, hy, h⟩
    obtain ⟨hx', hvalue⟩ := value_add_zero hx
    obtain ⟨hy', hvalue'⟩ := value_add_zero hy
    exact ⟨hx', hy', by rwa [hvalue, hvalue']⟩

end DirectSearch.Binary64
