import DirectSearch.Scalar.Basic
/-!
# Scalars — an order with undefined values

What a theorem asks of the tests of a `Scalar` is that they order the
values that compare with themselves. A value that does not is undefined:
every test with it fails, and nothing else is known of it.
-/

namespace DirectSearch

open Scalar

/-- An arithmetic whose tests order its defined values. -/
class OrderedScalar (α : Type) [Scalar α] : Prop where
  le_trans {a b c : α} : le a b → le b c → le a c
  le_total {a b : α} : le a a → le b b → le a b ∨ le b a
  /-- What passes a test is defined. -/
  defined_of_le {a b : α} : le a b → le a a ∧ le b b
  lt_iff {a b : α} : lt a b ↔ le a b ∧ ¬ le b a

namespace OrderedScalar

variable {α : Type} [Scalar α] {a b c : α}

theorem defined_iff : isUndefined a = false ↔ le a a := by
  simp [isUndefined]

variable [OrderedScalar α]

theorem le_of_lt (h : lt a b) : le a b := (lt_iff.1 h).1

theorem not_le_of_lt (h : lt a b) : ¬ le b a := (lt_iff.1 h).2

theorem lt_irrefl (a : α) : ¬ lt a a := fun h => not_le_of_lt h (le_of_lt h)

theorem lt_of_lt_of_le (h₁ : lt a b) (h₂ : le b c) : lt a c :=
  lt_iff.2 ⟨le_trans (le_of_lt h₁) h₂, fun h => not_le_of_lt h₁ (le_trans h₂ h)⟩

theorem lt_of_le_of_lt (h₁ : le a b) (h₂ : lt b c) : lt a c :=
  lt_iff.2 ⟨le_trans h₁ (le_of_lt h₂), fun h => not_le_of_lt h₂ (le_trans h h₁)⟩

theorem lt_trans (h₁ : lt a b) (h₂ : lt b c) : lt a c := lt_of_lt_of_le h₁ (le_of_lt h₂)

/-- Of two defined values one is below the other or not above it. -/
theorem lt_or_le (ha : le a a) (hb : le b b) : lt a b ∨ le b a := by
  by_cases h : le b a
  · exact .inr h
  · exact .inl (lt_iff.2 ⟨(le_total ha hb).resolve_right h, h⟩)

theorem le_of_not_lt (ha : le a a) (hb : le b b) (h : ¬ lt a b) : le b a :=
  (lt_or_le ha hb).resolve_left h

/-! ## Running maxima -/

theorem le_greatest_self (ha : le a a) : le (greatest a b) (greatest a b) := by
  unfold greatest
  split
  · exact (defined_of_le (le_of_lt ‹_›)).2
  · exact ha

/-- The greatest of a defined value and another is within a bound if both
are, the other only where it is defined. -/
theorem greatest_le_iff (ha : le a a) :
    le (greatest a b) c ↔ le a c ∧ (le b b → le b c) := by
  unfold greatest
  split
  · rename_i hlt
    have hb := (defined_of_le (le_of_lt hlt)).2
    exact ⟨fun h => ⟨le_trans (le_of_lt hlt) h, fun _ => h⟩, fun h => h.2 hb⟩
  · rename_i hlt
    exact ⟨fun h => ⟨h, fun hb => le_trans (le_of_not_lt ha hb hlt) h⟩, fun h => h.1⟩

/-- **A running maximum** that begins at a defined value is an upper bound of
the defined values that it has met, and of no others. -/
theorem foldl_greatest_le_iff (ha : le a a) (bs : List α) :
    le (bs.foldl greatest a) c ↔ le a c ∧ ∀ b ∈ bs, le b b → le b c := by
  induction bs generalizing a with
  | nil => simp
  | cons b bs ih =>
    rw [List.foldl_cons, ih (le_greatest_self ha), greatest_le_iff ha, List.forall_mem_cons,
      and_assoc]

end OrderedScalar

end DirectSearch
