import DirectSearch.Journal.Basic
import Mathlib.Algebra.Order.Ring.Int
import Mathlib.Algebra.Ring.Divisibility.Basic
import Mathlib.Data.List.Infix
/-!
# Journal — lines in cadence

A journal does not look at the lines it has sent: it keeps a counter, which a
header resets and a row raises. Here the lines are looked at. `RowsSince` reads
off them how many rows there have been since the last header, `HeaderOwed`
whether the next row should have one before it, and `InCadence` describes the
lines of which every one has kept to that.

In such lines no more than so many rows follow one another
(`InCadence.length_le`), and where nobody asks for a header, headers stand
before every so many rows (`InCadence.headedEvery`).
-/

namespace DirectSearch

variable {α ρ : Type} {h : ℤ} {asked : Prop} {lines rows : List (Line α ρ)}

namespace Line

/-! ## Rows since the last header -/

/-- How many rows there have been since the last header, if there has been
one. -/
def RowsSince (lines : List (Line α ρ)) : Option ℕ → Prop
  | none => .header ∉ lines
  | some k => ∃ before rows, lines = before ++ .header :: rows ∧ .header ∉ rows ∧ rows.length = k

namespace RowsSince

variable {j k : ℕ}

theorem nil : RowsSince ([] : List (Line α ρ)) none := List.not_mem_nil

theorem push_header : RowsSince (lines ++ [.header]) (some 0) :=
  ⟨lines, [], rfl, List.not_mem_nil, rfl⟩

theorem push_row {k : Option ℕ} {r : Record α ρ} (hk : RowsSince lines k) :
    RowsSince (lines ++ [.row r]) (k.map (· + 1)) := by
  cases k with
  | none => simpa [RowsSince] using hk
  | some k =>
    obtain ⟨before, rows, rfl, hrows, rfl⟩ := hk
    exact ⟨before, rows ++ [.row r], by simp, by simpa using hrows, by simp⟩

/-- Any lines tell of a number, -/
theorem exists_number (lines : List (Line α ρ)) : ∃ k, RowsSince lines k := by
  induction lines using List.reverseRecOn with
  | nil => exact ⟨none, nil⟩
  | append_singleton lines l ih =>
    cases l with
    | header => exact ⟨some 0, push_header⟩
    | row r => exact ⟨_, ih.choose_spec.push_row⟩

/-- Rows at the end of the lines came after the last header. -/
theorem length_le (hk : RowsSince lines (some k)) (hsuffix : rows <:+ lines)
    (hrows : .header ∉ rows) : rows.length ≤ k := by
  obtain ⟨before, since, rfl, -, rfl⟩ := hk
  rcases List.suffix_or_suffix_of_suffix hsuffix (List.suffix_append before _) with hle | hge
  · rcases List.suffix_cons_iff.1 hle with rfl | hle
    · exact absurd List.mem_cons_self hrows
    · exact hle.length_le
  · exact absurd (hge.mem List.mem_cons_self) hrows

theorem le (hj : RowsSince lines (some j)) (hk : RowsSince lines (some k)) : j ≤ k := by
  obtain ⟨before, rows, hlines, hrows, rfl⟩ := hj
  exact hk.length_le ⟨before ++ [.header], by simp [hlines]⟩ hrows

theorem header_mem (hk : RowsSince lines (some k)) : .header ∈ lines := by
  obtain ⟨before, rows, rfl, -⟩ := hk
  simp

/-- and of one only. -/
theorem unique {j k : Option ℕ} (hj : RowsSince lines j) (hk : RowsSince lines k) : j = k := by
  cases j with
  | none => cases k with
    | none => rfl
    | some k => exact absurd hk.header_mem hj
  | some j => cases k with
    | none => exact absurd hj.header_mem hk
    | some k => exact congrArg some (le_antisymm (hj.le hk) (hk.le hj))

/-- The last line is a header if there has been no row since. -/
theorem getLast?_eq_header_iff (hk : RowsSince lines (some k)) :
    lines.getLast? = some .header ↔ k = 0 := by
  obtain ⟨before, rows, rfl, hrows, rfl⟩ := hk
  rw [List.length_eq_zero_iff]
  constructor
  · intro hlast
    rcases List.eq_nil_or_concat' rows with rfl | ⟨rows, l, rfl⟩
    · rfl
    · rw [← List.cons_append, ← List.append_assoc, List.getLast?_concat] at hlast
      exact absurd (by simp [Option.some.inj hlast]) hrows
  · rintro rfl
    simp

end RowsSince

/-! ## Headers that are owed -/

/-- **When the next row should have a header before it**: if there has been no
header, and if exactly `h` rows have been sent since the last one. -/
def HeaderOwed (h : ℤ) (lines : List (Line α ρ)) : Prop :=
  RowsSince lines none ∨ ∃ k : ℕ, (k : ℤ) = h ∧ RowsSince lines (some k)

theorem headerOwed_iff {k : ℕ} (hk : RowsSince lines (some k)) :
    HeaderOwed h lines ↔ (k : ℤ) = h := by
  constructor
  · rintro (hnone | ⟨j, hj, hsome⟩)
    · cases hnone.unique hk
    · cases hsome.unique hk
      exact hj
  · exact fun hh => .inr ⟨k, hh, hk⟩

theorem exists_rowsSince (howed : ¬ HeaderOwed h lines) : ∃ k, RowsSince lines (some k) := by
  obtain ⟨_ | k, hk⟩ := RowsSince.exists_number lines
  · exact absurd (.inl hk) howed
  · exact ⟨k, hk⟩

/-- A row after a header has none before it. -/
theorem not_headerOwed_push_header (hh : 0 < h) : ¬ HeaderOwed h (lines ++ [.header]) := by
  rw [headerOwed_iff RowsSince.push_header]
  exact hh.ne

/-! ## Lines in cadence -/

/-- Lines that were sent one by one: no row while a header was owed, and no
header, unless headers are asked for, while none was. -/
inductive InCadence (h : ℤ) (asked : Prop) : List (Line α ρ) → Prop
  /-- Nothing has been sent. -/
  | nil : InCadence h asked []
  /-- A header, which was asked for or owed. -/
  | header {lines : List (Line α ρ)} : InCadence h asked lines → asked ∨ HeaderOwed h lines →
      InCadence h asked (lines ++ [.header])
  /-- A row, before which no header was owed any more. -/
  | row {lines : List (Line α ρ)} (r : Record α ρ) : InCadence h asked lines →
      ¬ HeaderOwed h lines → InCadence h asked (lines ++ [.row r])

/-- Whether a line is that of a row. -/
def isRow : Line α ρ → Bool
  | .header => false
  | .row _ => true

/-- Headers stand before exactly the rows number 0, `h`, `2 * h` and so on. -/
structure HeadedEvery (h : ℤ) (lines : List (Line α ρ)) : Prop where
  /-- A row has a header right before it if and only if the rows before it are
  a multiple of `h`. -/
  before_row {before after : List (Line α ρ)} {r : Record α ρ} :
    lines = before ++ .row r :: after →
      (before.getLast? = some .header ↔ h ∣ (before.countP isRow : ℤ))
  /-- A header is followed by a row, if by anything. -/
  apart (before after : List (Line α ρ)) : lines ≠ before ++ .header :: .header :: after

namespace InCadence

/-- What was sent first was in cadence. -/
theorem of_isPrefix {first : List (Line α ρ)} (hlines : InCadence h asked lines)
    (hfirst : first <+: lines) : InCadence h asked first := by
  induction hlines with
  | nil => exact List.prefix_nil.1 hfirst ▸ nil
  | header hlines howed ih =>
    rcases List.prefix_concat_iff.1 hfirst with rfl | hfirst
    · exact hlines.header howed
    · exact ih hfirst
  | row r hlines howed ih =>
    rcases List.prefix_concat_iff.1 hfirst with rfl | hfirst
    · exact hlines.row r howed
    · exact ih hfirst

theorem headerOwed (hlines : InCadence h asked (lines ++ [.header])) :
    asked ∨ HeaderOwed h lines := by
  generalize hpush : lines ++ [.header] = pushed at hlines
  cases hlines with
  | nil => simp at hpush
  | header _ howed => exact (List.append_inj' hpush rfl).1 ▸ howed
  | row => simp at hpush

theorem not_headerOwed {r : Record α ρ} (hlines : InCadence h asked (lines ++ [.row r])) :
    ¬ HeaderOwed h lines := by
  generalize hpush : lines ++ [.row r] = pushed at hlines
  cases hlines with
  | nil => simp at hpush
  | header => simp at hpush
  | row _ _ howed => exact (List.append_inj' hpush rfl).1 ▸ howed

/-- **No more than `h` rows follow one another** without a header. -/
theorem length_le (hh : 0 < h) (hlines : InCadence h asked lines) (hwithin : rows <:+: lines)
    (hrows : .header ∉ rows) : (rows.length : ℤ) ≤ h := by
  induction hlines generalizing rows with
  | nil =>
    rw [List.infix_nil.1 hwithin]
    exact hh.le
  | header _ _ ih =>
    rcases List.infix_concat_iff.1 hwithin with hsuffix | hwithin
    · rcases List.suffix_concat_iff.1 hsuffix with rfl | ⟨_, rfl, -⟩
      · exact hh.le
      · simp at hrows
    · exact ih hwithin hrows
  | @row lines r _ howed ih =>
    rcases List.infix_concat_iff.1 hwithin with hsuffix | hwithin
    · rcases List.suffix_concat_iff.1 hsuffix with rfl | ⟨rows, rfl, hrest⟩
      · exact hh.le
      · -- the rows before the last are some of those since the last header
        obtain ⟨k, hk⟩ := exists_rowsSince howed
        have hle : rows.length ≤ k := hk.length_le hrest fun hmem => hrows (by simp [hmem])
        have hne : (k : ℤ) ≠ h := fun heq => howed ((headerOwed_iff hk).2 heq)
        obtain ⟨before, since, rfl, hsince, rfl⟩ := hk
        have := ih ⟨before ++ [.header], [], by simp⟩ hsince
        rw [List.length_append, List.length_singleton]
        omega
    · exact ih hwithin hrows

theorem rowsSince_le {k : ℕ} (hh : 0 < h) (hlines : InCadence h asked lines)
    (hk : RowsSince lines (some k)) : (k : ℤ) ≤ h := by
  obtain ⟨before, since, rfl, hsince, rfl⟩ := hk
  exact hlines.length_le hh ⟨before ++ [.header], [], by simp⟩ hsince

/-! ### Where nobody asks for a header -/

/-- The first line is a header. -/
theorem eq_nil (hlines : InCadence h asked lines) (hnone : RowsSince lines none) : lines = [] := by
  cases hlines with
  | nil => rfl
  | header => simp [RowsSince] at hnone
  | @row lines r _ howed =>
    exact absurd (.inl fun hmem => hnone (List.mem_append_left _ hmem)) howed

/-- Up to the last header there have been whole rounds of rows. -/
theorem dvd_countP_sub {k : ℕ} (hlines : InCadence h False lines)
    (hk : RowsSince lines (some k)) : h ∣ (lines.countP isRow : ℤ) - k := by
  induction hlines generalizing k with
  | nil => cases hk.unique RowsSince.nil
  | @header lines hlines howed ih =>
    cases hk.unique RowsSince.push_header
    -- a header that was owed is the first line, or ends a round
    rcases howed.resolve_left id with hnone | ⟨j, rfl, hj⟩
    · simp [hlines.eq_nil hnone, isRow]
    · simpa [isRow] using Int.dvd_add (ih hj) (Int.dvd_refl _)
  | @row lines r _ howed ih =>
    obtain ⟨j, hj⟩ := exists_rowsSince howed
    cases hk.unique (hj.push_row (r := r))
    have hcount : ((lines ++ [Line.row r]).countP isRow : ℤ) - (j + 1 : ℕ) =
        lines.countP isRow - j := by
      simp only [List.countP_append, List.countP_singleton, isRow, if_true]
      omega
    rw [hcount]
    exact ih hj

/-- **Headers stand before every `h` rows**, from the first row on. -/
theorem headedEvery (hh : 0 < h) (hlines : InCadence h False lines) : HeadedEvery h lines where
  before_row {before after r} hsplit := by
    have hrow : InCadence h False (before ++ [.row r]) :=
      hlines.of_isPrefix ⟨after, by simp [hsplit]⟩
    have hbefore := hrow.of_isPrefix (List.prefix_append before [.row r])
    obtain ⟨k, hk⟩ := exists_rowsSince hrow.not_headerOwed
    have hlt : (k : ℤ) < h := lt_of_le_of_ne (hbefore.rowsSince_le hh hk)
      fun heq => hrow.not_headerOwed ((headerOwed_iff hk).2 heq)
    rw [hk.getLast?_eq_header_iff, dvd_iff_dvd_of_dvd_sub (hbefore.dvd_countP_sub hk)]
    constructor
    · rintro rfl
      exact Int.dvd_zero h
    · intro hdvd
      exact_mod_cast Int.eq_zero_of_dvd_of_nonneg_of_lt (Int.natCast_nonneg k) hlt hdvd
  apart before after hsplit := by
    have htwice : InCadence h False ((before ++ [.header]) ++ [.header]) :=
      hlines.of_isPrefix ⟨after, by simp [hsplit]⟩
    exact not_headerOwed_push_header hh (htwice.headerOwed.resolve_left id)

end InCadence

end Line

end DirectSearch
