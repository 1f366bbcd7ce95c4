import DirectSearch.Proofs.Binary64.Differences
/-!
# 64-bit floats — mirrored

Rounding is the same on both sides of zero, so that what is computed of
mirrored floats mirrors what is computed of the floats: differences change
their places (`neg_sub_neg`), and so does what is below with what is above
(`lt_neg_neg`). All of this holds of infinities, of zeros and of what is no
number as well, bit by bit. Only the larger of two floats may depend on which
of them comes first, by the sign of a zero, and its square does not
(`square_maximum_comm`).
-/

namespace DirectSearch.Binary64

open Float.Model (UnpackedFloat)
open Float.Model.UnpackedFloat
open Scalar (square maximum isUndefined)

variable {x y : Float}

/-! ## Unpacked floats -/

theorem neg_neg_unpacked (a : UnpackedFloat) : neg (neg a) = a := by
  rcases a with s | _ | s | ⟨s, m, e, hm⟩
  · cases s <;> rfl
  · rfl
  · cases s <;> rfl
  · cases s <;> rfl

theorem add_comm_unpacked (a b : UnpackedFloat) : add .binary64 a b = add .binary64 b a := by
  rcases a with s | _ | s | ⟨s, m, e, hm⟩ <;> rcases b with t | _ | t | ⟨t, n, k, hn⟩
  case infinity.infinity => cases s <;> cases t <;> rfl
  case zero.zero => cases s <;> cases t <;> rfl
  case finite.finite => simp only [add, min_comm e k, Int.add_comm]
  all_goals rfl

/-- What is unpacked of a mirrored float. -/
theorem unpack_neg (x : Float) : (-x).toModel.unpack = neg x.toModel.unpack := by
  change unpack .binary64 (pack .binary64 (neg x.toModel.unpack)) = neg x.toModel.unpack
  cases hunpack : x.toModel.unpack with
  | infinity s => simp [neg, pack]
  | notANumber => simp [neg, pack]
  | zero s => simp [neg, pack]
  | finite s m e hm =>
    obtain ⟨hfits, hrange⟩ := fits_of_unpack hunpack
    rw [neg, unpack_pack hm hfits, if_pos hrange]

/-- A float is known by what is unpacked of it. -/
theorem eq_of_unpack_eq (h : x.toModel.unpack = y.toModel.unpack) : x = y := by
  obtain ⟨⟨⟨a⟩, ha⟩⟩ := x
  obtain ⟨⟨⟨b⟩, hb⟩⟩ := y
  obtain rfl := (unpack_inj_of_valid ha hb).1 h
  rfl

/-! ## Mirrored floats -/

theorem neg_neg_float (x : Float) : - -x = x :=
  eq_of_unpack_eq (by rw [unpack_neg, unpack_neg, neg_neg_unpacked])

/-- **A difference of mirrored floats** is the difference the other way. -/
theorem neg_sub_neg (x y : Float) : -x - -y = y - x := by
  change Float.ofModel (.pack (sub .binary64 (-x).toModel.unpack (-y).toModel.unpack)) =
    Float.ofModel (.pack (sub .binary64 y.toModel.unpack x.toModel.unpack))
  rw [unpack_neg, unpack_neg, sub_eq_add_neg, sub_eq_add_neg, neg_neg_unpacked, add_comm_unpacked]

theorem isNumber_neg_iff : IsNumber (-x) ↔ IsNumber x := by
  rw [IsNumber, IsNumber, unpack_neg]
  cases x.toModel.unpack <;> simp [neg]

theorem value_neg (x : Float) : value (-x) = -value x := by
  rw [value, value, unpack_neg, reading_neg]

/-- **The order of mirrored floats** is the order the other way. -/
theorem lt_neg_neg (x y : Float) : (-x).lt (-y) = y.lt x := by
  rw [Bool.eq_iff_iff, lt_iff, lt_iff, isNumber_neg_iff, isNumber_neg_iff, value_neg, value_neg,
    EReal.neg_lt_neg_iff]
  exact ⟨fun ⟨hx, hy, h⟩ => ⟨hy, hx, h⟩, fun ⟨hy, hx, h⟩ => ⟨hx, hy, h⟩⟩

/-! ## The larger of two, squared -/

/-- Floats that compare as equal differ by the sign of a zero at most, and have
one square. -/
theorem mul_self_of_compare {a b : UnpackedFloat} (h : a.compare b = some .eq) :
    mul .binary64 a a = mul .binary64 b b := by
  rcases a with (_ | _) | _ | (_ | _) | ⟨_ | _, m, e, hm⟩ <;>
    rcases b with (_ | _) | _ | (_ | _) | ⟨_ | _, n, k, hn⟩ <;>
    simp [UnpackedFloat.compare] at h ⊢
  case zero.negative.zero.positive => rfl
  case zero.positive.zero.negative => rfl
  case finite.negative.finite.negative | finite.positive.finite.positive =>
    obtain ⟨rfl, rfl⟩ := h
    rfl

/-- **The larger of two floats**, squared, whichever comes first. -/
theorem square_maximum_comm (x y : Float) : square (maximum x y) = square (maximum y x) := by
  have hsquare {a b : Float} (h : mul .binary64 a.toModel.unpack a.toModel.unpack =
      mul .binary64 b.toModel.unpack b.toModel.unpack) : square a = square b :=
    congrArg (fun u => Float.ofModel (.pack u)) h
  have hundefined {z : Float} : isUndefined z ↔ z.toModel.unpack = .notANumber := by
    rw [isUndefined, Bool.not_eq_true', ← Bool.not_eq_true]
    exact not_iff_comm.1 le_self_iff.symm
  unfold maximum
  by_cases hx : isUndefined x <;> by_cases hy : isUndefined y
  · rw [if_pos hx, if_pos hy]
    exact hsquare (by rw [hundefined.1 hx, hundefined.1 hy])
  · rw [if_pos hx, if_neg hy, if_pos hx]
  · rw [if_neg hx, if_pos hy, if_pos hy]
  · have hx' : IsNumber x := mt hundefined.2 hx
    have hy' : IsNumber y := mt hundefined.2 hy
    have hlt {a b : Float} (h : value a < value b) (ha : IsNumber a) (hb : IsNumber b) :
        Scalar.lt a b ∧ ¬ Scalar.lt b a :=
      ⟨lt_iff.2 ⟨ha, hb, h⟩, fun h' => lt_asymm h (lt_iff.1 h').2.2⟩
    rw [if_neg hx, if_neg hy, if_neg hx, if_neg hy]
    cases hcompare : x.toModel.unpack.compare y.toModel.unpack with
    | none => exact absurd (compare_eq_none.1 hcompare) (not_or.2 ⟨hx', hy'⟩)
    | some o =>
      have ho := compares_reading (canonical_toModel x) (canonical_toModel y) hcompare
      cases o with
      | lt =>
        obtain ⟨hpos, hneg⟩ := hlt ho hx' hy'
        rw [if_pos hpos, if_neg hneg]
      | gt =>
        obtain ⟨hpos, hneg⟩ := hlt ho hy' hx'
        rw [if_neg hneg, if_pos hpos]
      | eq =>
        have hnone : ¬ Scalar.lt x y ∧ ¬ Scalar.lt y x :=
          ⟨fun h => (lt_iff.1 h).2.2.ne ho, fun h => (lt_iff.1 h).2.2.ne ho.symm⟩
        rw [if_neg hnone.1, if_neg hnone.2]
        exact hsquare (mul_self_of_compare hcompare)

end DirectSearch.Binary64
