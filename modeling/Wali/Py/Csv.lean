import Wali.Py.Text

/-!
# Comma separated values

`csv.writer` in its default dialect, and the automaton of `csv.reader`. A cell is put in quotes only
if a character in it needs them, and the quotes in it are doubled. What is written is read back, cell
by cell: `read_write`.
-/

namespace Py.Csv

-- ════════════════════════════════════════════════════════════════════════
-- Writing
-- ════════════════════════════════════════════════════════════════════════

/-- The delimiter, the quote and what ends a line. -/
def isSpecial (c : Char) : Bool := c == ',' || c == '"' || c == '\r' || c == '\n'

def doubled (cell : Str) : Str := cell.flatMap fun c => if c = '"' then ['"', '"'] else [c]

def writeCell (cell : Str) : Str :=
  if cell.any isSpecial then '"' :: doubled cell ++ ['"'] else cell

/-- `writerow`. A row that is one empty cell is told apart from one without cells. -/
def writeRow (row : List Str) : Str :=
  (if row = [[]] then ['"', '"'] else join "," (row.map writeCell)) ++ ['\r', '\n']

def write (rows : List (List Str)) : Str := rows.flatMap writeRow

-- ════════════════════════════════════════════════════════════════════════
-- Reading
-- ════════════════════════════════════════════════════════════════════════

inductive Mode where
  /-- Before the first character of a row. -/
  | start
  /-- Behind a delimiter. -/
  | cell
  | plain
  | quoted
  /-- Behind a quote in a quoted cell: it ends the cell or is the first of two. -/
  | quote
  /-- Behind a carriage return that has ended a row. -/
  | eol
  deriving DecidableEq, Repr

structure Reader where
  mode : Mode
  /-- The characters of the current cell. -/
  read : Str
  /-- The cells of the current row. -/
  cells : List Str
  rows : List (List Str)

namespace Reader

/-- Between two rows. -/
def fresh (rows : List (List Str)) : Reader := ⟨.start, [], [], rows⟩

variable (r : Reader)

def push (mode : Mode) (c : Char) : Reader := { r with mode, read := r.read ++ [c] }

def endCell : Reader := { r with mode := .cell, read := [], cells := r.cells ++ [r.read] }

def endRow (mode : Mode) : Reader := ⟨mode, [], [], r.rows ++ [r.cells ++ [r.read]]⟩

/-- What a character does where a cell may end. -/
def orEnd (c : Char) (otherwise : Reader) : Reader :=
  if c = ',' then r.endCell
  else if c = '\r' then r.endRow .eol
  else if c = '\n' then r.endRow .start
  else otherwise

def stepCell (c : Char) : Reader :=
  r.orEnd c (if c = '"' then { r with mode := .quoted } else r.push .plain c)

def stepStart (c : Char) : Reader :=
  if c = '\r' then ⟨.eol, [], [], r.rows ++ [[]]⟩
  else if c = '\n' then ⟨.start, [], [], r.rows ++ [[]]⟩
  else r.stepCell c

def step (c : Char) : Reader :=
  match r.mode with
  | .start => r.stepStart c
  | .cell => r.stepCell c
  | .plain => r.orEnd c (r.push .plain c)
  | .quoted => if c = '"' then { r with mode := .quote } else r.push .quoted c
  | .quote => r.orEnd c (if c = '"' then r.push .quoted c else r.push .plain c)
  | .eol => if c = '\n' then fresh r.rows else r.stepStart c

/-- A last row need not be ended. -/
def finish : List (List Str) :=
  match r.mode with
  | .start | .eol => r.rows
  | .cell | .plain | .quoted | .quote => r.rows ++ [r.cells ++ [r.read]]

end Reader

def read (s : Str) : List (List Str) := (s.foldl Reader.step (.fresh [])).finish

-- ════════════════════════════════════════════════════════════════════════
-- What is written is read
-- ════════════════════════════════════════════════════════════════════════

/-- A cell has been read and may end here. -/
structure Reader.MayEnd (r : Reader) (cell : Str) (cells : List Str) (rows : List (List Str)) : Prop where
  mode : r.mode = .cell ∨ r.mode = .plain ∨ r.mode = .quote
  read : r.read = cell
  cells : r.cells = cells
  rows : r.rows = rows

variable {r : Reader} {cell : Str} {cells : List Str} {rows : List (List Str)}

theorem Reader.MayEnd.step_comma (h : r.MayEnd cell cells rows) :
    r.step ',' = ⟨.cell, [], cells ++ [cell], rows⟩ := by
  obtain ⟨hm, rfl, rfl, rfl⟩ := h
  rcases hm with hm | hm | hm <;> simp [Reader.step, hm, Reader.stepCell, Reader.orEnd, Reader.endCell]

theorem Reader.MayEnd.step_return (h : r.MayEnd cell cells rows) :
    r.step '\r' = ⟨.eol, [], [], rows ++ [cells ++ [cell]]⟩ := by
  obtain ⟨hm, rfl, rfl, rfl⟩ := h
  rcases hm with hm | hm | hm <;> simp [Reader.step, hm, Reader.stepCell, Reader.orEnd, Reader.endRow]

/-- Characters that need no quotes. -/
theorem foldl_plain {s : Str} (hs : s.any isSpecial = false) (read : Str) :
    s.foldl Reader.step ⟨.plain, read, cells, rows⟩ = ⟨.plain, read ++ s, cells, rows⟩ := by
  induction s generalizing read with
  | nil => rw [List.foldl_nil, List.append_nil]
  | cons c s ih =>
    rw [List.any_cons, Bool.or_eq_false_iff] at hs
    have hc := hs.1
    simp only [isSpecial, Bool.or_eq_false_iff, beq_eq_false_iff_ne] at hc
    have hstep : Reader.step ⟨.plain, read, cells, rows⟩ c = ⟨.plain, read ++ [c], cells, rows⟩ := by
      simp [Reader.step, Reader.orEnd, Reader.push, hc]
    rw [List.foldl_cons, hstep, ih hs.2, List.append_assoc, List.singleton_append]

/-- Doubled quotes are read as one, and anything else between quotes as it is. -/
theorem foldl_doubled (s read : Str) :
    (doubled s).foldl Reader.step ⟨.quoted, read, cells, rows⟩ = ⟨.quoted, read ++ s, cells, rows⟩ := by
  induction s generalizing read with
  | nil => rw [doubled, List.flatMap_nil, List.foldl_nil, List.append_nil]
  | cons c s ih =>
    have hc : (if c = '"' then ['"', '"'] else [c]).foldl Reader.step ⟨.quoted, read, cells, rows⟩ =
        ⟨.quoted, read ++ [c], cells, rows⟩ := by
      by_cases hq : c = '"'
      · subst hq
        rfl
      · simp [hq, Reader.step, Reader.push]
    rw [doubled, List.flatMap_cons, List.foldl_append, hc, ← doubled, ih, List.append_assoc,
      List.singleton_append]

/-- A cell, where one begins. -/
theorem mayEnd_writeCell (cell : Str) (cells : List Str) (rows : List (List Str)) :
    ((writeCell cell).foldl Reader.step ⟨.cell, [], cells, rows⟩).MayEnd cell cells rows := by
  unfold writeCell
  by_cases hs : cell.any isSpecial = true
  · have hopen : Reader.step ⟨.cell, [], cells, rows⟩ '"' = ⟨.quoted, [], cells, rows⟩ := rfl
    rw [if_pos hs, List.cons_append, List.foldl_cons, hopen, List.foldl_append, foldl_doubled]
    exact ⟨.inr (.inr rfl), rfl, rfl, rfl⟩
  · rw [if_neg hs]
    rw [Bool.not_eq_true] at hs
    cases cell with
    | nil => exact ⟨.inl rfl, rfl, rfl, rfl⟩
    | cons c s =>
      rw [List.any_cons, Bool.or_eq_false_iff] at hs
      have hc := hs.1
      simp only [isSpecial, Bool.or_eq_false_iff, beq_eq_false_iff_ne] at hc
      have hstep : Reader.step ⟨.cell, [], cells, rows⟩ c = ⟨.plain, [c], cells, rows⟩ := by
        simp [Reader.step, Reader.stepCell, Reader.orEnd, Reader.push, hc]
      rw [List.foldl_cons, hstep, foldl_plain hs.2]
      exact ⟨.inr (.inl rfl), rfl, rfl, rfl⟩

/-- The cells of a row, from the first on. -/
theorem foldl_cells (cell : Str) (row : List Str) (cells : List Str) (rows : List (List Str)) :
    (join "," ((cell :: row).map writeCell) ++ ['\r']).foldl Reader.step ⟨.cell, [], cells, rows⟩ =
      ⟨.eol, [], [], rows ++ [cells ++ cell :: row]⟩ := by
  induction row generalizing cell cells with
  | nil =>
    rw [List.map_singleton, join, List.intercalate_singleton, List.foldl_append]
    exact (mayEnd_writeCell cell cells rows).step_return
  | cons next row ih =>
    have hcomma := (mayEnd_writeCell cell cells rows).step_comma
    rw [List.map_cons, List.map_cons, join_cons_cons, List.append_assoc, List.append_assoc, List.foldl_append]
    change (join "," ((next :: row).map writeCell) ++ ['\r']).foldl Reader.step (Reader.step _ ',') = _
    rw [hcomma, ih, List.append_assoc, List.singleton_append]

/-- The text of a row does not begin like the end of one. -/
theorem exists_head_cells {cell : Str} {row : List Str} (h : cell :: row ≠ [[]]) (tail : Str) :
    ∃ c s, join "," ((cell :: row).map writeCell) ++ tail = c :: s ∧ c ≠ '\r' ∧ c ≠ '\n' := by
  have hcell : cell ≠ [] → ∃ c s, writeCell cell = c :: s ∧ c ≠ '\r' ∧ c ≠ '\n' := by
    intro hne
    unfold writeCell
    by_cases hs : cell.any isSpecial = true
    · rw [if_pos hs]
      exact ⟨'"', _, rfl, by decide, by decide⟩
    · rw [if_neg hs]
      obtain ⟨c, s, rfl⟩ := List.exists_cons_of_ne_nil hne
      rw [Bool.not_eq_true, List.any_cons, Bool.or_eq_false_iff] at hs
      have hc := hs.1
      simp only [isSpecial, Bool.or_eq_false_iff, beq_eq_false_iff_ne] at hc
      exact ⟨c, s, rfl, hc.1.2, hc.2⟩
  cases row with
  | nil =>
    obtain ⟨c, s, hc, hne⟩ := hcell fun he => h (by rw [he])
    exact ⟨c, s ++ tail, by rw [List.map_singleton, join, List.intercalate_singleton, hc]; rfl, hne⟩
  | cons next row =>
    rw [List.map_cons, List.map_cons, join_cons_cons]
    by_cases hne : cell = []
    · subst hne
      exact ⟨',', _, rfl, by decide, by decide⟩
    · obtain ⟨c, s, hc, hne⟩ := hcell hne
      exact ⟨c, _, by rw [hc]; rfl, hne⟩

theorem step_fresh {c : Char} (hr : c ≠ '\r') (hn : c ≠ '\n') :
    (Reader.fresh rows).step c = Reader.step ⟨.cell, [], [], rows⟩ c := by
  simp only [Reader.fresh, Reader.step, Reader.stepStart, if_neg hr, if_neg hn]
  rfl

theorem foldl_writeRow (row : List Str) (rows : List (List Str)) :
    (writeRow row).foldl Reader.step (.fresh rows) = .fresh (rows ++ [row]) := by
  unfold writeRow
  cases row with
  | nil => rfl
  | cons cell row =>
    by_cases hrow : cell :: row = [[]]
    · rw [if_pos hrow, hrow]
      rfl
    · rw [if_neg hrow]
      obtain ⟨c, s, hcs, hr, hn⟩ := exists_head_cells hrow ['\r', '\n']
      have hcells : (c :: s).foldl Reader.step ⟨.cell, [], [], rows⟩ = .fresh (rows ++ [cell :: row]) := by
        rw [← hcs, show ['\r', '\n'] = ['\r'] ++ ['\n'] from rfl, ← List.append_assoc, List.foldl_append,
          foldl_cells]
        rfl
      rw [hcs, List.foldl_cons, step_fresh hr hn, ← List.foldl_cons, hcells]

theorem foldl_write (rows done : List (List Str)) :
    (write rows).foldl Reader.step (.fresh done) = .fresh (done ++ rows) := by
  induction rows generalizing done with
  | nil => rw [write, List.flatMap_nil, List.foldl_nil, List.append_nil]
  | cons row rows ih =>
    rw [write, List.flatMap_cons, List.foldl_append, foldl_writeRow, ← write, ih, List.append_assoc,
      List.singleton_append]

/-- **Round trip**: reading undoes writing. -/
theorem read_write (rows : List (List Str)) : read (write rows) = rows := by
  rw [read, foldl_write]
  rfl

end Py.Csv
