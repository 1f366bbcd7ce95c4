import DirectSearch.Journal.Writer
import DirectSearch.Proofs.Journal.Cadence
import Mathlib.Data.List.TakeWhile
/-!
# Journal — the headers of a writer

A writer is asked for headers and rows, and keeps the counter of its journal
right however that ends (`Keeps`): a line counts when it has been sent, and one
that cannot be written leaves no trace, although the row it is for stays on
record. So the lines of a writer are in cadence, and a row has a header before
it exactly where one is owed (`headers_in_cadence`).
-/

namespace DirectSearch

variable {h : ℤ} {asked : Prop}

/-! ## What a writer is asked for -/

namespace Writer

open Line

/-- What a writer is asked for: a header, or a row at a reading of the
clock. -/
inductive Call where
  | header
  | row (cells : Cells) (now : Float)

/-- The step that a call is. -/
def Call.step : Call → Writing
  | header => Writer.header
  | row cells now => Writer.row cells now

/-- The writer that a step leaves, whether with a line or with a fault. -/
def leaves (w : Writer) (act : Writing) : Writer :=
  match act w with
  | .ok _ w' => w'
  | .error _ w' => w'

/-- The writer after a call. -/
def serve (w : Writer) (c : Call) : Writer := w.leaves c.step

/-- Whether a row is refused: it has a cell under the writer's own name. -/
def isRefused (cells : Cells) : Bool := cells.any (·.1 == Value.itself)

/-- The record of a row. -/
def recordOf (w : Writer) (cells : Cells) (now : Float) : Record Float Cells :=
  ⟨Cells.completed w.columns cells, now - w.journal.opened⟩

/-- The record that a call puts on the journal: that of a row, unless it is
refused. -/
def record? (w : Writer) : Call → Option (Record Float Cells)
  | .header => none
  | .row cells now => if isRefused cells then none else some (w.recordOf cells now)

/-- The message of a line, if it can be written. -/
def messageOf (w : Writer) (l : Line Float Cells) : Except Fault Message :=
  l.message w.columns id w.level

/-- Whether a line can be written. -/
def writes (w : Writer) (l : Line Float Cells) : Bool := (w.messageOf l).isOk

/-- The lines that the journal sends for a call. -/
def due (w : Writer) : Call → List (Line Float Cells)
  | .header => w.journal.sendHeader.2
  | .row cells now =>
    if isRefused cells then [] else (w.journal.add (Cells.completed w.columns cells) now).2

/-- **The lines sent for a call**: those of the journal, up to the first that
cannot be written. -/
def sends (w : Writer) (c : Call) : List (Line Float Cells) := (w.due c).takeWhile w.writes

/-- The lines sent for one call after another. -/
def linesOf (w : Writer) : List Call → List (Line Float Cells)
  | [] => []
  | c :: calls => w.sends c ++ (w.serve c).linesOf calls

/-- **How rows go** at a writer that has sent these lines: with a header before
them where one is owed, and without where none is. -/
structure HeadsRows (h : ℤ) (lines : List (Line Float Cells)) (w : Writer) : Prop where
  /-- A row ends well if it is not refused and its lines can be written. -/
  ends {cells : Cells} {now : Float} : (∃ text w', row cells now w = .ok text w') ↔
    isRefused cells = false ∧ (HeaderOwed h lines → w.writes .header = true) ∧
      w.writes (.row (w.recordOf cells now)) = true
  /-- Where a header is owed, it sends one before its line. -/
  headed {cells : Cells} {now : Float} {text : String} {w' : Writer} :
    row cells now w = .ok text w' → HeaderOwed h lines →
      w.sends (.row cells now) = [.header, .row (w.recordOf cells now)] ∧
        ∃ title, headerLine w.columns = .ok title ∧
          w'.sent.toList = w.sent.toList ++ [⟨w.level, title⟩, ⟨w.level, stripEnd text⟩]
  /-- Where none is, it sends its line alone. -/
  plain {cells : Cells} {now : Float} {text : String} {w' : Writer} :
    row cells now w = .ok text w' → ¬ HeaderOwed h lines →
      w.sends (.row cells now) = [.row (w.recordOf cells now)] ∧
        w'.sent.toList = w.sent.toList ++ [⟨w.level, stripEnd text⟩]

/-! ## Single steps -/

section

variable {w w' : Writer} {cells : Cells} {now : Float} {record : Record Float Cells}
variable {l : Line Float Cells} {message : Message} {text : String} {fault : Fault}

theorem writes_of_ok (hmessage : w.messageOf l = .ok message) : w.writes l = true := by
  rw [writes, hmessage]
  rfl

theorem writes_of_error (hmessage : w.messageOf l = .error fault) : w.writes l ≠ true := by
  rw [writes, hmessage]
  exact Bool.false_ne_true

/-- Lines that were sent could be written. -/
theorem writes_of_sends {c : Call} {ls : List (Line Float Cells)} (hsends : w.sends c = ls)
    (hl : l ∈ ls) : w.writes l = true :=
  List.mem_takeWhile_imp (hsends ▸ hl)

theorem messageOf_header (w : Writer) :
    w.messageOf .header = (headerLine w.columns).map (⟨w.level, ·⟩) := rfl

theorem messageOf_row (w : Writer) (record : Record Float Cells) :
    w.messageOf (.row record) =
      (Cells.line w.columns (record.cells id)).map fun s => ⟨w.level, stripEnd s⟩ := rfl

/-- A header that ends well has been sent and counted. -/
theorem of_header_eq_ok (hheader : header w = .ok text w') :
    headerLine w.columns = .ok text ∧ w.messageOf .header = .ok ⟨w.level, text⟩ ∧
      w' = { w with journal := w.journal.afterHeader, sent := w.sent.push ⟨w.level, text⟩ } := by
  unfold header at hheader
  split at hheader <;> cases hheader
  rename_i htitle
  exact ⟨htitle, by rw [messageOf_header, htitle]; rfl, rfl⟩

/-- A header that cannot be written leaves no trace. -/
theorem of_header_eq_error (hheader : header w = .error fault w') :
    w.messageOf .header = .error fault ∧ w' = w := by
  unfold header at hheader
  split at hheader <;> cases hheader
  rename_i htitle
  exact ⟨by rw [messageOf_header, htitle]; rfl, rfl⟩

/-- The line of a row that ends well has been sent and counted. -/
theorem of_line_eq_ok (hline : line record w = .ok text w') :
    w.messageOf (.row record) = .ok ⟨w.level, stripEnd text⟩ ∧
      w' = { w with
        journal := w.journal.afterLine
        sent := w.sent.push ⟨w.level, stripEnd text⟩ } := by
  unfold line at hline
  split at hline <;> cases hline
  rename_i htext
  exact ⟨by rw [messageOf_row, htext]; rfl, rfl⟩

/-- The line of a row that cannot be written leaves no trace. -/
theorem of_line_eq_error (hline : line record w = .error fault w') :
    w.messageOf (.row record) = .error fault ∧ w' = w := by
  unfold line at hline
  split at hline <;> cases hline
  rename_i htext
  exact ⟨by rw [messageOf_row, htext]; rfl, rfl⟩

/-- The writer with a row on record whose lines have not been sent. -/
def recorded (w : Writer) (cells : Cells) (now : Float) : Writer :=
  { w with journal := (w.journal.keep (Cells.completed w.columns cells) now).1 }

/-- **A row** that is not refused is recorded, and sends a header first if the
journal says so. -/
theorem row_eq (hrefused : isRefused cells = false) :
    row cells now w = if w.journal.isHeaderDue then
        match header (w.recorded cells now) with
        | .error fault w' => .error fault w'
        | .ok _ w' => line (w.recordOf cells now) w'
      else line (w.recordOf cells now) (w.recorded cells now) := by
  unfold isRefused at hrefused
  rw [row, if_neg (hrefused ▸ Bool.false_ne_true)]
  rfl

/-- A row that is refused leaves no trace. -/
theorem row_of_refused (hrefused : isRefused cells = true) :
    row cells now w = .error .unknownField w := by
  unfold isRefused at hrefused
  rw [row, if_pos hrefused]

theorem isRefused_eq_false (hrow : row cells now w = .ok text w') :
    isRefused cells = false := by
  cases hrefused : isRefused cells with
  | false => rfl
  | true => cases (row_of_refused hrefused).symm.trans hrow

theorem due_row (hrefused : isRefused cells = false) :
    w.due (.row cells now) =
      (if w.journal.isHeaderDue then [.header] else []) ++ [.row (w.recordOf cells now)] := by
  have hkeep : (w.journal.keep (Cells.completed w.columns cells) now).1.isHeaderDue =
      w.journal.isHeaderDue := rfl
  simp only [due, Journal.add, hrefused, hkeep, Bool.false_eq_true, if_false]
  split <;> rfl

/-- **What a row sends** that ends with a line, if the journal says that a
header is due: a header and its line. -/
theorem row_of_due (hdue : w.journal.isHeaderDue = true) (hrow : row cells now w = .ok text w') :
    w.sends (.row cells now) = [.header, .row (w.recordOf cells now)] ∧
      ∃ title, headerLine w.columns = .ok title ∧
        w'.sent.toList = w.sent.toList ++ [⟨w.level, title⟩, ⟨w.level, stripEnd text⟩] := by
  have hrefused := isRefused_eq_false hrow
  rw [row_eq hrefused, if_pos hdue] at hrow
  cases hheader : header (w.recorded cells now) with
  | error fault headed =>
    rw [hheader] at hrow
    cases hrow
  | ok title headed =>
    rw [hheader] at hrow
    obtain ⟨htitle, hmessage, rfl⟩ := of_header_eq_ok hheader
    obtain ⟨hmessage', rfl⟩ := of_line_eq_ok hrow
    have hwrites : w.writes .header = true := writes_of_ok hmessage
    have hwrites' : w.writes (.row (w.recordOf cells now)) = true := writes_of_ok hmessage'
    constructor
    · rw [sends, due_row hrefused, if_pos hdue, List.singleton_append,
        List.takeWhile_cons_of_pos hwrites, List.takeWhile_cons_of_pos hwrites', List.takeWhile_nil]
    · exact ⟨title, htitle, by simp [recorded]⟩

/-- And if none is due: its line alone. -/
theorem row_of_not_due (hdue : w.journal.isHeaderDue ≠ true)
    (hrow : row cells now w = .ok text w') :
    w.sends (.row cells now) = [.row (w.recordOf cells now)] ∧
      w'.sent.toList = w.sent.toList ++ [⟨w.level, stripEnd text⟩] := by
  have hrefused := isRefused_eq_false hrow
  rw [row_eq hrefused, if_neg hdue] at hrow
  obtain ⟨hmessage, rfl⟩ := of_line_eq_ok hrow
  have hwrites : w.writes (.row (w.recordOf cells now)) = true := writes_of_ok hmessage
  constructor
  · rw [sends, due_row hrefused, if_neg hdue, List.nil_append,
      List.takeWhile_cons_of_pos hwrites, List.takeWhile_nil]
  · exact Array.toList_push

/-- A row ends well if it is not refused and its lines can be written. -/
theorem exists_row_iff : (∃ text w', row cells now w = .ok text w') ↔
    isRefused cells = false ∧ (w.journal.isHeaderDue = true → w.writes .header = true) ∧
      w.writes (.row (w.recordOf cells now)) = true := by
  constructor
  · rintro ⟨text, w', hrow⟩
    by_cases hdue : w.journal.isHeaderDue = true
    · have hsends := (row_of_due hdue hrow).1
      exact ⟨isRefused_eq_false hrow, fun _ => writes_of_sends hsends (by simp),
        writes_of_sends hsends (by simp)⟩
    · have hsends := (row_of_not_due hdue hrow).1
      exact ⟨isRefused_eq_false hrow, (absurd · hdue), writes_of_sends hsends (by simp)⟩
  · rintro ⟨hrefused, hheader, hline⟩
    have hwritten {w₁ : Writer} (hwrites : w₁.writes (.row (w.recordOf cells now)) = true) :
        ∃ text w', line (w.recordOf cells now) w₁ = .ok text w' := by
      cases hrow : line (w.recordOf cells now) w₁ with
      | ok text w' => exact ⟨text, w', rfl⟩
      | error fault w' => exact absurd hwrites (writes_of_error (of_line_eq_error hrow).1)
    rw [row_eq hrefused]
    by_cases hdue : w.journal.isHeaderDue = true
    · rw [if_pos hdue]
      cases hsent : header (w.recorded cells now) with
      | ok title headed =>
        obtain ⟨-, -, rfl⟩ := of_header_eq_ok hsent
        exact hwritten hline
      | error fault headed =>
        exact absurd (hheader hdue) (writes_of_error (of_header_eq_error hsent).1)
    · rw [if_neg hdue]
      exact hwritten hline

end

/-! ## What a writer keeps -/

/-- **What a writer keeps** since it began: its form, a record for every row,
the number of rows since the last header, and what was sent. -/
structure Keeps (h : ℤ) (asked : Prop) (start : Writer) (records : List (Record Float Cells))
    (lines : List (Line Float Cells)) (w : Writer) : Prop where
  columns : w.columns = start.columns
  level : w.level = start.level
  opened : w.journal.opened = start.journal.opened
  headerEvery : w.journal.headerEvery = h
  history : w.journal.history.toList = records
  sinceHeader : RowsSince lines w.journal.sinceHeader
  sent : lines.mapM start.messageOf = .ok w.sent.toList
  inCadence : InCadence h asked lines

variable {start w : Writer} {records : List (Record Float Cells)}
variable {lines : List (Line Float Cells)}

/-- A writer that has sent nothing. -/
theorem keeps_new (columns : List Column) (level : Level) (opened : Float) :
    Keeps h asked { columns, level, journal := .new opened h } [] []
      { columns, level, journal := .new opened h } where
  columns := rfl
  level := rfl
  opened := rfl
  headerEvery := rfl
  history := rfl
  sinceHeader := .nil
  sent := rfl
  inCadence := .nil

namespace Keeps

/-- The journal knows when a header is owed. -/
theorem isHeaderDue_iff (hh : 0 < h) (hk : Keeps h asked start records lines w) :
    w.journal.isHeaderDue = true ↔ HeaderOwed h lines := by
  have hsince := hk.sinceHeader
  unfold Journal.isHeaderDue
  cases hcount : w.journal.sinceHeader with
  | none =>
    rw [hcount] at hsince
    exact iff_of_true rfl (.inl hsince)
  | some k =>
    rw [hcount] at hsince
    have hle := hk.inCadence.rowsSince_le hh hsince
    rw [headerOwed_iff hsince, hk.headerEvery, decide_eq_true_iff]
    omega

theorem headsRows (hh : 0 < h) (hk : Keeps h asked start records lines w) :
    HeadsRows h lines w where
  ends := by
    rw [← hk.isHeaderDue_iff hh]
    exact exists_row_iff
  headed hrow howed := row_of_due ((hk.isHeaderDue_iff hh).2 howed) hrow
  plain hrow howed := row_of_not_due (fun hdue => howed ((hk.isHeaderDue_iff hh).1 hdue)) hrow

theorem messageOf (hk : Keeps h asked start records lines w) : w.messageOf = start.messageOf := by
  unfold Writer.messageOf
  rw [hk.columns, hk.level]

/-- A row on record. -/
theorem recorded (hk : Keeps h asked start records lines w) (cells : Cells) (now : Float) :
    Keeps h asked start (records ++ [w.recordOf cells now]) lines (w.recorded cells now) :=
  { hk with
    history := by
      rw [← hk.history]
      exact Array.toList_push }

/-- A line more, which was written and which the journal has counted. -/
theorem push {l : Line Float Cells} {message : Message} {t : Journal Float Cells}
    (hk : Keeps h asked start records lines w) (hmessage : w.messageOf l = .ok message)
    (hcadence : InCadence h asked (lines ++ [l])) (hsince : RowsSince (lines ++ [l]) t.sinceHeader)
    (ht : t = { w.journal with sinceHeader := t.sinceHeader }) :
    Keeps h asked start records (lines ++ [l])
      { w with journal := t, sent := w.sent.push message } where
  columns := hk.columns
  level := hk.level
  opened := ht ▸ hk.opened
  headerEvery := ht ▸ hk.headerEvery
  history := ht ▸ hk.history
  sinceHeader := hsince
  sent := by
    rw [List.mapM_append, hk.sent, List.mapM_cons, List.mapM_nil, ← hk.messageOf, hmessage,
      Array.toList_push]
    rfl
  inCadence := hcadence

/-- **A header**, sent if it can be written. -/
theorem header (hk : Keeps h asked start records lines w) (howed : asked ∨ HeaderOwed h lines) :
    Keeps h asked start records (lines ++ [Line.header].takeWhile w.writes)
      (w.leaves Writer.header) := by
  unfold leaves
  split
  · rename_i hheader
    obtain ⟨-, hmessage, rfl⟩ := of_header_eq_ok hheader
    rw [List.takeWhile_cons_of_pos (writes_of_ok hmessage)]
    exact hk.push hmessage (hk.inCadence.header howed) .push_header rfl
  · rename_i hheader
    obtain ⟨hmessage, rfl⟩ := of_header_eq_error hheader
    rw [List.takeWhile_cons_of_neg (writes_of_error hmessage), List.append_nil]
    exact hk

/-- **The line of a row**, sent if it can be written. -/
theorem line (hk : Keeps h asked start records lines w) (howed : ¬ HeaderOwed h lines)
    (record : Record Float Cells) :
    Keeps h asked start records (lines ++ [Line.row record].takeWhile w.writes)
      (w.leaves (Writer.line record)) := by
  unfold leaves
  split
  · rename_i hline
    obtain ⟨hmessage, rfl⟩ := of_line_eq_ok hline
    rw [List.takeWhile_cons_of_pos (writes_of_ok hmessage)]
    exact hk.push hmessage (hk.inCadence.row record howed) hk.sinceHeader.push_row rfl
  · rename_i hline
    obtain ⟨hmessage, rfl⟩ := of_line_eq_error hline
    rw [List.takeWhile_cons_of_neg (writes_of_error hmessage), List.append_nil]
    exact hk

/-- **A row**, however it ends. -/
theorem row (hh : 0 < h) (hk : Keeps h asked start records lines w) {cells : Cells} {now : Float}
    (hrefused : isRefused cells = false) :
    Keeps h asked start (records ++ [w.recordOf cells now]) (lines ++ w.sends (.row cells now))
      (w.leaves (Writer.row cells now)) := by
  have hrecorded := hk.recorded cells now
  rw [sends, due_row hrefused, leaves, row_eq hrefused]
  by_cases hdue : w.journal.isHeaderDue = true
  · have howed := (hk.isHeaderDue_iff hh).1 hdue
    rw [if_pos hdue, if_pos hdue, List.singleton_append]
    cases hheader : Writer.header (w.recorded cells now) with
    | ok title headed =>
      obtain ⟨-, hmessage, rfl⟩ := of_header_eq_ok hheader
      have hwrites : w.writes .header = true := writes_of_ok hmessage
      -- the header has reset the counter, so the row itself comes after none that is owed
      have hheaded := hrecorded.push hmessage (hrecorded.inCadence.header (.inr howed))
        (t := (w.recorded cells now).journal.afterHeader) .push_header rfl
      have hrow := hheaded.line (not_headerOwed_push_header hh) (w.recordOf cells now)
      rw [List.takeWhile_cons_of_pos hwrites]
      rw [List.append_assoc] at hrow
      exact hrow
    | error fault headed =>
      obtain ⟨hmessage, rfl⟩ := of_header_eq_error hheader
      have hwrites : w.writes .header ≠ true := writes_of_error hmessage
      rw [List.takeWhile_cons_of_neg hwrites, List.append_nil]
      exact hrecorded
  · rw [if_neg hdue, if_neg hdue]
    exact hrecorded.line (fun howed => hdue ((hk.isHeaderDue_iff hh).2 howed)) _

/-- **A call**, however it ends. -/
theorem serve (hh : 0 < h) (hk : Keeps h asked start records lines w) (c : Call)
    (hasked : c = .header → asked) :
    Keeps h asked start (records ++ (start.record? c).toList) (lines ++ w.sends c) (w.serve c) := by
  cases c with
  | header =>
    rw [record?, Option.toList, List.append_nil]
    exact hk.header (.inl (hasked rfl))
  | row cells now =>
    cases hrefused : isRefused cells with
    | true =>
      simpa [Writer.serve, leaves, Call.step, row_of_refused hrefused, record?, sends, due,
        hrefused] using hk
    | false =>
      have hrecord : (start.record? (.row cells now)).toList = [w.recordOf cells now] := by
        simp [record?, hrefused, recordOf, hk.columns, hk.opened]
      exact hrecord ▸ hk.row hh hrefused

/-- **One call after another.** -/
theorem serveAll (hh : 0 < h) (hk : Keeps h asked start records lines w) (calls : List Call)
    (hasked : .header ∈ calls → asked) :
    Keeps h asked start (records ++ calls.filterMap start.record?) (lines ++ w.linesOf calls)
      (calls.foldl Writer.serve w) := by
  induction calls generalizing records lines w with
  | nil => simpa [linesOf] using hk
  | cons c calls ih =>
    have hc := hk.serve hh c fun hheader => hasked (hheader ▸ List.mem_cons_self)
    have hcalls := ih hc fun hmem => hasked (List.mem_cons_of_mem _ hmem)
    rw [List.append_assoc, List.append_assoc] at hcalls
    rw [List.foldl_cons, linesOf, List.filterMap_cons]
    cases hrecord : start.record? c with
    | none => simpa [hrecord] using hcalls
    | some record => simpa [hrecord] using hcalls

end Keeps

/-- **The cadence of headers.** A writer that is to send a header every `h`
rows is asked for headers and rows, any number of times and in any order,
whether or not they can be written. What it then has sent are the messages of
its lines. The next row has a header before it if and only if there has been
none yet or exactly `h` rows have been sent since the last one. No more than `h`
rows follow one another without a header; if none was asked for, headers stand
before exactly the rows number 0, `h`, `2 * h` and so on. The journal has one
record for every row that was not refused, in order. -/
theorem headers_in_cadence (hh : 0 < h) (columns : List Column) (level : Level) (opened : Float)
    (calls : List Call) :
    let start : Writer := { columns, level, journal := .new opened h }
    let w := calls.foldl serve start
    let lines := start.linesOf calls
    lines.mapM start.messageOf = .ok w.sent.toList ∧
      HeadsRows h lines w ∧
      (∀ rows, rows <:+: lines → .header ∉ rows → (rows.length : ℤ) ≤ h) ∧
      (.header ∉ calls → HeadedEvery h lines) ∧
      w.journal.history.toList = calls.filterMap start.record? := by
  intro start w lines
  have hk (asked : Prop) (hasked : .header ∈ calls → asked) :
      Keeps h asked start (calls.filterMap start.record?) lines w :=
    (keeps_new columns level opened).serveAll hh calls hasked
  have hfree := hk True fun _ => trivial
  exact ⟨hfree.sent, hfree.headsRows hh, fun rows => hfree.inCadence.length_le hh,
    fun hnone => (hk False hnone).inCadence.headedEvery hh, hfree.history⟩

/-- Four rows with a header before every second, and the same with a header
asked for after the first of them. -/
theorem four_rows_in_cadence :
    let start : Writer := { columns := [⟨"k", "k", ">2d"⟩], level := .info, journal := .new 0 2 }
    let rowOf (k : ℤ) : Call := .row [("k", .whole k)] 0
    let plain := [rowOf 0, rowOf 1, rowOf 2, rowOf 3]
    let headed := [rowOf 0, .header, rowOf 1, rowOf 2, rowOf 3]
    ((start.linesOf plain).map isRow = [false, true, true, false, true, true] ∧
      (plain.foldl serve start).sent.toList.map (·.text) = [" k", " 0", " 1", " k", " 2", " 3"] ∧
      HeadsRows 2 (start.linesOf plain) (plain.foldl serve start) ∧
      HeadedEvery 2 (start.linesOf plain)) ∧
    (start.linesOf headed).map isRow = [false, true, false, true, true, false, true] ∧
      (∀ rows, rows <:+: start.linesOf headed → .header ∉ rows → (rows.length : ℤ) ≤ 2) ∧
      (headed.foldl serve start).journal.history.size = 4 := by
  intro start rowOf plain headed
  obtain ⟨-, hrows, -, hheaded, -⟩ :=
    headers_in_cadence (two_pos : (0 : ℤ) < 2) start.columns start.level 0 plain
  obtain ⟨-, -, hlength, -, hhistory⟩ :=
    headers_in_cadence (two_pos : (0 : ℤ) < 2) start.columns start.level 0 headed
  refine ⟨⟨by decide +kernel, by decide +kernel, hrows, hheaded (by simp [plain, rowOf])⟩,
    by decide +kernel, hlength, ?_⟩
  rw [← Array.length_toList, hhistory]
  rfl

end Writer

end DirectSearch
