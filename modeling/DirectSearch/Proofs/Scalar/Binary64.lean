import DirectSearch.Proofs.Binary64.Arithmetic
import DirectSearch.Proofs.Scalar.Order
import DirectSearch.Scalar.Binary64
/-!
# Scalars — the laws that 64-bit arithmetic has

The tests of floats order their values, and a number is what compares with
itself. Whatever the roots of two are, that is so.
-/

namespace DirectSearch

open Scalar Binary64

section

variable (root : Nat → Float)

theorem le_self_iff {x : Float} : x.le x ↔ IsNumber x := by
  simp [Binary64.le_iff]

instance : @OrderedScalar Float (binary64 root).toScalar :=
  letI := binary64 root
  { le_trans := by
      intro a b c hab hbc
      obtain ⟨ha, -, hab⟩ := Binary64.le_iff.1 hab
      obtain ⟨-, hc, hbc⟩ := Binary64.le_iff.1 hbc
      exact Binary64.le_iff.2 ⟨ha, hc, hab.trans hbc⟩
    le_total := by
      intro a b ha hb
      have ha' := le_self_iff.1 ha
      have hb' := le_self_iff.1 hb
      refine (LinearOrder.le_total (value a) (value b)).imp ?_ ?_
      · exact fun h => Binary64.le_iff.2 ⟨ha', hb', h⟩
      · exact fun h => Binary64.le_iff.2 ⟨hb', ha', h⟩
    defined_of_le := by
      intro a b h
      obtain ⟨ha, hb, -⟩ := Binary64.le_iff.1 h
      exact ⟨le_self_iff.2 ha, le_self_iff.2 hb⟩
    lt_iff := by
      intro a b
      refine Binary64.lt_iff.trans ⟨?_, ?_⟩
      · rintro ⟨ha, hb, h⟩
        refine ⟨Binary64.le_iff.2 ⟨ha, hb, h.le⟩, fun hba => ?_⟩
        exact absurd (Binary64.le_iff.1 hba).2.2 (not_le.2 h)
      · rintro ⟨hab, hba⟩
        obtain ⟨ha, hb, -⟩ := Binary64.le_iff.1 hab
        refine ⟨ha, hb, not_le.1 fun h => hba ?_⟩
        exact Binary64.le_iff.2 ⟨hb, ha, h⟩ }

end

end DirectSearch
