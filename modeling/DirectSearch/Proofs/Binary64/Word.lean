import DirectSearch.Proofs.Binary64.Nearest
/-!
# Binary64 — what a word stands for

An operation on floats takes its arguments apart, computes a result in
the open and packs it into a word again. The value of what is packed is
`reading`; a magnitude that `Fits` comes back from its word as it went in
(`unpack_pack`), unless its exponent is too large, and then it comes back
infinite. The comparison of two unpacked floats is the comparison of their
readings (`compares_reading`).
-/

namespace DirectSearch.Binary64

open Float.Model (Format UnpackedFloat)
open Float.Model.UnpackedFloat

/-! ## Readings -/

/-- An extended real with a sign. -/
noncomputable def signed : Sign → EReal → EReal
  | .positive, x => x
  | .negative, x => -x

/-- The extended real that an unpacked float stands for. What is no
number stands for nothing and is read as zero. -/
noncomputable def reading : UnpackedFloat → EReal
  | .infinity s => signed s ⊤
  | .notANumber => 0
  | .zero _ => 0
  | .finite s m e _ => signed s (scaled m e : ℝ)

/-- An unpacked float whose magnitude needs no rounding. -/
def Canonical : UnpackedFloat → Prop
  | .finite _ m e _ => Fits m e
  | _ => True

/-! ## There and back -/

theorem toNat_one_append (v : BitVec 52) : (1#1 ++ v).toNat = 2 ^ 52 + v.toNat := by
  rw [BitVec.toNat_append, ← Nat.shiftLeft_add_eq_or_of_lt v.isLt]
  simp [Nat.shiftLeft_eq]

theorem toNat_pos {v : BitVec 52} (h : v ≠ 0#52) : 0 < v.toNat := by
  simpa [BitVec.toNat_pos, BitVec.pos_iff_ne_zero] using h

/-- What a sign, an exponent and a fraction of a word unpack to. -/
def ofFields (s : Sign) (e : BitVec 11) (m : BitVec 52) : UnpackedFloat :=
  if e = -1#11 then if m = 0#52 then .infinity s else .notANumber
  else if e = 0#11 then
    if h : m = 0#52 then .zero s else .finite s m.toNat (-1074) (toNat_pos h)
  else .finite s (2 ^ 52 + m.toNat) (e.toNat - 1075) (by positivity)

theorem unpack_eq (b : BitVec Format.binary64.numBits) :
    unpack .binary64 b =
      ofFields (Sign.ofBitVec (unpackSign b)) (unpackExponent b) (unpackMantissa b) := by
  have hbias : ((Format.binary64.exponentBias : ℕ) : ℤ) = 1023 := rfl
  rw [unpack, ofFields]
  simp only [hbias, toNat_one_append]
  split
  · rfl
  · split
    · rename_i h0
      split
      · rfl
      · simp [h0]
    · congr 1

theorem unpack_packComponents (s : Sign) (e : BitVec 11) (m : BitVec 52) :
    unpack .binary64 (packComponents .binary64 s e m) = ofFields s e m := by
  rw [unpack_eq, unpackSign_packComponents, unpackExponent_packComponents,
    unpackMantissa_packComponents, Sign.ofBitVec_toBitVec]

theorem fits_of_ofFields {s s' : Sign} {e' : BitVec 11} {m' : BitVec 52} {m : ℕ} {e : ℤ}
    {hm : 0 < m} (h : ofFields s' e' m' = .finite s m e hm) : Fits m e ∧ e ≤ 971 := by
  have hm' := m'.isLt
  have he' := e'.isLt
  rw [ofFields] at h
  split at h
  · split at h <;> cases h
  · rename_i hinf
    split at h
    · split at h
      · cases h
      · injection h with _ h1 h2
        subst h1 h2
        exact ⟨⟨by omega, by omega, Or.inr rfl⟩, by omega⟩
    · rename_i hzero
      injection h with _ h1 h2
      subst h1 h2
      have h1 : e'.toNat ≠ 2047 := fun hc => hinf (BitVec.eq_of_toNat_eq hc)
      have h0 : e'.toNat ≠ 0 := fun hc => hzero (BitVec.eq_of_toNat_eq hc)
      exact ⟨⟨by omega, by omega, Or.inl (by omega)⟩, by omega⟩

/-- **What a word holds fits**, and its exponent is in range. -/
theorem fits_of_unpack {b : BitVec Format.binary64.numBits} {s : Sign} {m : ℕ} {e : ℤ}
    {hm : 0 < m} (h : unpack .binary64 b = .finite s m e hm) : Fits m e ∧ e ≤ 971 :=
  fits_of_ofFields ((unpack_eq b).symm.trans h)

theorem canonical_unpack (b : BitVec Format.binary64.numBits) :
    Canonical (unpack .binary64 b) := by
  cases h : unpack .binary64 b with
  | finite s m e hm => exact (fits_of_unpack h).1
  | _ => trivial

theorem log2_eq_of_full {m : ℕ} (hlt : m < 2 ^ 53) (hge : 2 ^ 52 ≤ m) : m.log2 = 52 :=
  (Nat.log2_eq_iff (by omega)).2 ⟨hge, hlt⟩

theorem log2_lt_of_short {m : ℕ} (hpos : 0 < m) (hlt : m < 2 ^ 52) : m.log2 < 52 :=
  (Nat.log2_lt (by omega)).2 hlt

/-- The fields of a short magnitude: the least exponent and all its digits. -/
theorem ofFields_short (s : Sign) {m : ℕ} (hm : 0 < m) (h : m < 2 ^ 52) :
    ofFields s 0#11 (BitVec.ofNat 52 m) = .finite s m (-1074) hm := by
  have hfraction : (BitVec.ofNat 52 m).toNat = m := by
    rw [BitVec.toNat_ofNat]
    exact Nat.mod_eq_of_lt h
  have hne : BitVec.ofNat 52 m ≠ 0#52 := fun hc => by
    rw [hc] at hfraction
    simp at hfraction
    omega
  rw [ofFields, if_neg (by decide), if_pos rfl, dif_neg hne]
  simp only [hfraction]

/-- The fields of a full magnitude: its first digit goes without saying. -/
theorem ofFields_full (s : Sign) {m k : ℕ} (hm : 0 < m) (hge : 2 ^ 52 ≤ m) (hlt : m < 2 ^ 53)
    (hpos : 0 < k) (hk : k < 2047) :
    ofFields s (BitVec.ofNat 11 k) (BitVec.ofNat 52 m) = .finite s m (k - 1075) hm := by
  have hexponent : (BitVec.ofNat 11 k).toNat = k := by
    rw [BitVec.toNat_ofNat]
    exact Nat.mod_eq_of_lt (by omega)
  have hfraction : 2 ^ 52 + (BitVec.ofNat 52 m).toNat = m := by
    rw [BitVec.toNat_ofNat, Nat.mod_eq_sub_mod hge, Nat.mod_eq_of_lt (by omega)]
    omega
  have hinf : BitVec.ofNat 11 k ≠ -1#11 := fun hc => by
    rw [hc] at hexponent
    have : k = 2047 := hexponent.symm
    omega
  have hzero : BitVec.ofNat 11 k ≠ 0#11 := fun hc => by
    rw [hc] at hexponent
    have : k = 0 := hexponent.symm
    omega
  rw [ofFields, if_neg hinf, if_neg hzero]
  simp only [hfraction, hexponent]

/-- **What fits comes back as it was packed**, unless its exponent is out
of range: then it comes back infinite. -/
theorem unpack_pack {s : Sign} {m : ℕ} {e : ℤ} (hm : 0 < m) (h : Fits m e) :
    unpack .binary64 (pack .binary64 (.finite s m e hm)) =
      if e ≤ 971 then .finite s m e hm else .infinity s := by
  have hbias : (e + (Format.binary64.exponentBias : ℕ)
      + (Format.binary64.mantissaBitsWithoutImplicit : ℕ)).toNat = (e + 1075).toNat := by
    change (e + (1023 : ℕ) + (52 : ℕ)).toNat = _
    congr 1
    omega
  have hge := h.ge
  have hlt := h.lt
  have hbits : Format.binary64.mantissaBits = 53 := rfl
  simp only [pack, hbias, hbits]
  by_cases hrange : e ≤ 971
  · rw [if_neg (by omega), if_pos hrange]
    rcases Nat.lt_or_ge m (2 ^ 52) with hshort | hfull
    · have hlog := log2_lt_of_short hm hshort
      obtain rfl : e = -1074 := h.full.resolve_left (by omega)
      rw [if_neg (by omega)]
      exact (unpack_packComponents ..).trans (ofFields_short s hm hshort)
    · have hlog := log2_eq_of_full hlt hfull
      have hexponent : (((e + 1075).toNat : ℕ) : ℤ) - 1075 = e := by omega
      rw [if_pos (by omega)]
      refine (unpack_packComponents ..).trans ((ofFields_full s hm hfull hlt (by omega)
        (by omega)).trans ?_)
      simp only [hexponent]
  · rw [if_pos (by omega), if_neg hrange, packedInfinity]
    exact unpack_packComponents s (-1#11) 0#52

@[simp] theorem unpack_packedInfinity (s : Sign) :
    unpack .binary64 (packedInfinity .binary64 s) = .infinity s :=
  unpack_packComponents s (-1#11) 0#52

/-- The reading of what is packed. -/
theorem reading_pack {s : Sign} {m : ℕ} {e : ℤ} (hm : 0 < m) (h : Fits m e) :
    reading (unpack .binary64 (pack .binary64 (.finite s m e hm))) =
      signed s (bounded (scaled m e)) := by
  rw [unpack_pack hm h, bounded]
  by_cases hrange : e ≤ 971
  · rw [if_pos hrange, if_pos (h.scaled_lt_overflow_iff.2 hrange)]
    rfl
  · rw [if_neg hrange, if_neg (mt h.scaled_lt_overflow_iff.1 hrange)]
    rfl

/-! ## The order -/

/-- Magnitudes are compared exponent first. -/
theorem compares_scaled {m₁ m₂ : ℕ} {e₁ e₂ : ℤ} (h₁ : Fits m₁ e₁) (h₂ : Fits m₂ e₂) :
    ((compare e₁ e₂).then (compare m₁ m₂)).Compares (scaled m₁ e₁) (scaled m₂ e₂) := by
  rcases lt_trichotomy e₁ e₂ with he | rfl | he
  · rw [compare_lt_iff_lt.2 he]
    exact h₁.scaled_lt h₂ he
  · rw [compare_eq_iff_eq.2 rfl]
    rcases lt_trichotomy m₁ m₂ with hm | rfl | hm
    · rw [compare_lt_iff_lt.2 hm]
      exact scaled_lt_of_lt hm e₁
    · rw [compare_eq_iff_eq.2 rfl]
      rfl
    · rw [compare_gt_iff_gt.2 hm]
      exact scaled_lt_of_lt hm e₁
  · rw [compare_gt_iff_gt.2 he]
    exact h₂.scaled_lt h₁ he

theorem coe_compares {o : Ordering} {x y : ℝ} (h : o.Compares x y) :
    o.Compares (x : EReal) (y : EReal) := by
  cases o with
  | lt => exact EReal.coe_lt_coe_iff.2 h
  | eq => exact congrArg _ h
  | gt => exact EReal.coe_lt_coe_iff.2 h

theorem neg_compares {o : Ordering} {x y : EReal} (h : o.Compares x y) :
    o.swap.Compares (-x) (-y) := by
  cases o with
  | lt => exact EReal.neg_lt_neg_iff.2 h
  | eq => exact congrArg _ h
  | gt => exact EReal.neg_lt_neg_iff.2 h

theorem coe_scaled_pos {m : ℕ} (h : 0 < m) (e : ℤ) : (0 : EReal) < (scaled m e : ℝ) :=
  EReal.coe_pos.2 (scaled_pos h e)

theorem neg_coe_scaled_neg {m : ℕ} (h : 0 < m) (e : ℤ) : -((scaled m e : ℝ) : EReal) < 0 :=
  EReal.neg_lt_zero.2 (coe_scaled_pos h e)

theorem compares_infinity (s t : Sign) :
    (compare s t).Compares (signed s ⊤) (signed t ⊤) := by
  cases s <;> cases t
  · exact (rfl : (-⊤ : EReal) = -⊤)
  · exact (bot_lt_top : (⊥ : EReal) < ⊤)
  · exact (bot_lt_top : (⊥ : EReal) < ⊤)
  · exact (rfl : (⊤ : EReal) = ⊤)

/-- **Unpacked floats are compared by their readings.** -/
theorem compares_reading {a b : UnpackedFloat} (ha : Canonical a) (hb : Canonical b)
    {o : Ordering} (h : a.compare b = some o) : o.Compares (reading a) (reading b) := by
  rcases a with s | _ | _ | ⟨_ | _, m, e, hm⟩ <;> rcases b with t | _ | _ | ⟨_ | _, n, k, hn⟩
  case infinity.infinity =>
    cases h
    exact compares_infinity s t
  case finite.positive.finite.positive =>
    cases h
    exact coe_compares (compares_scaled ha hb)
  case finite.negative.finite.negative =>
    cases h
    exact neg_compares (coe_compares (compares_scaled ha hb))
  case finite.negative.finite.positive =>
    cases h
    exact (neg_coe_scaled_neg hm e).trans (coe_scaled_pos hn k)
  case finite.positive.finite.negative =>
    cases h
    exact (neg_coe_scaled_neg hn k).trans (coe_scaled_pos hm e)
  -- of all other pairs one is infinite, zero or undefined, and its sign decides
  case zero.finite.positive => cases h; exact coe_scaled_pos hn k
  case zero.finite.negative => cases h; exact neg_coe_scaled_neg hn k
  case finite.positive.zero => cases h; exact coe_scaled_pos hm e
  case finite.negative.zero => cases h; exact neg_coe_scaled_neg hm e
  case zero.zero => cases h; exact (rfl : (0 : EReal) = 0)
  all_goals first | cases h | cases s | cases t
  all_goals first | done | cases h; simp [Ordering.Compares, reading, signed, ← EReal.coe_neg]

theorem compare_eq_none {a b : UnpackedFloat} :
    a.compare b = none ↔ a = .notANumber ∨ b = .notANumber := by
  rcases a with (_ | _) | _ | _ | ⟨_ | _, m, e, hm⟩ <;>
    rcases b with (_ | _) | _ | _ | ⟨_ | _, n, k, hn⟩ <;>
    simp [UnpackedFloat.compare]

theorem le_iff_reading {a b : UnpackedFloat} (ha : Canonical a) (hb : Canonical b) :
    a.le b ↔ a ≠ .notANumber ∧ b ≠ .notANumber ∧ reading a ≤ reading b := by
  rw [UnpackedFloat.le]
  cases h : a.compare b with
  | none =>
    have hnan := compare_eq_none.1 h
    simp only [Option.any_none, Bool.false_eq_true, false_iff]
    tauto
  | some o =>
    have hnan : ¬(a = .notANumber ∨ b = .notANumber) := fun hc => by
      rw [compare_eq_none.2 hc] at h
      cases h
    have hcmp := compares_reading ha hb h
    rw [← hcmp.ne_gt]
    cases o <;> simp <;> tauto

theorem lt_iff_reading {a b : UnpackedFloat} (ha : Canonical a) (hb : Canonical b) :
    a.lt b ↔ a ≠ .notANumber ∧ b ≠ .notANumber ∧ reading a < reading b := by
  rw [UnpackedFloat.lt]
  cases h : a.compare b with
  | none =>
    have hnan := compare_eq_none.1 h
    simp only [reduceCtorEq, beq_iff_eq, false_iff]
    tauto
  | some o =>
    have hnan : ¬(a = .notANumber ∨ b = .notANumber) := fun hc => by
      rw [compare_eq_none.2 hc] at h
      cases h
    have hcmp := compares_reading ha hb h
    rw [← hcmp.eq_lt]
    cases o with
    | lt => simpa using not_or.1 hnan
    | _ => simp

end DirectSearch.Binary64
