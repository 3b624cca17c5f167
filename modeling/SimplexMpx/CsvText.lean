import Mathlib.Data.List.Basic

/-!
Tables as comma-separated text. Text cells stand between quotes, with a quote inside written
twice; a number stands bare unless its text needs quotes; every row ends with a carriage return
and a line feed. What is written is read back.
-/

namespace CsvText

/-- A number is given by its text. -/
inductive Cell
  | text (value : List Char)
  | number (literal : List Char)
deriving DecidableEq, Repr

def quoteMark : Char := '"'

def special (character : Char) : Bool :=
  character = ',' || character = quoteMark || character = '\r' || character = '\n'

def escape : List Char → List Char
  | [] => []
  | character :: rest =>
      if character = quoteMark then quoteMark :: quoteMark :: escape rest
      else character :: escape rest

def quoted (value : List Char) : List Char := quoteMark :: (escape value ++ [quoteMark])

def writeCell : Cell → List Char
  | .text value => quoted value
  | .number literal => if literal.any special then quoted literal else literal

def writeCells : List Cell → List Char
  | [] => []
  | [cell] => writeCell cell
  | cell :: next :: rest => writeCell cell ++ ',' :: writeCells (next :: rest)

def writeRow (cells : List Cell) : List Char := writeCells cells ++ ['\r', '\n']

def writeRows (rows : List (List Cell)) : List Char := rows.flatMap writeRow

inductive Mode
  | rowStart
  | cellStart
  | inNumber (literal : List Char)
  | inText (value : List Char)
  | afterQuote (value : List Char)
  | lineFeed
deriving DecidableEq, Repr

structure Reader where
  mode : Mode
  cells : List Cell
deriving DecidableEq, Repr

namespace Reader

def start : Reader := { mode := .rowStart, cells := [] }

/-- A bare cell goes on to the next comma or to the end of the row. -/
def bare (literal : List Char) (character : Char) (cells : List Cell) : Option Reader :=
  if character = ',' then some { mode := .cellStart, cells := cells ++ [.number literal] }
  else if character = '\r' then some { mode := .lineFeed, cells := cells ++ [.number literal] }
  else if special character then none
  else some { mode := .inNumber (literal ++ [character]), cells := cells }

def opening (character : Char) (cells : List Cell) : Option Reader :=
  if character = quoteMark then some { mode := .inText [], cells := cells }
  else bare [] character cells

def inside (value : List Char) (character : Char) (cells : List Cell) : Option Reader :=
  if character = quoteMark then some { mode := .afterQuote value, cells := cells }
  else some { mode := .inText (value ++ [character]), cells := cells }

def closing (value : List Char) (character : Char) (cells : List Cell) : Option Reader :=
  if character = quoteMark then some { mode := .inText (value ++ [quoteMark]), cells := cells }
  else if character = ',' then some { mode := .cellStart, cells := cells ++ [.text value] }
  else if character = '\r' then some { mode := .lineFeed, cells := cells ++ [.text value] }
  else none

def step (character : Char) (reader : Reader) : Option Reader :=
  match reader.mode with
  | .rowStart | .cellStart => opening character reader.cells
  | .inNumber literal => bare literal character reader.cells
  | .inText value => inside value character reader.cells
  | .afterQuote value => closing value character reader.cells
  | .lineFeed => none

end Reader

/-- The rows of a text that ends where a row does. -/
def readFrom : List Char → Reader → Option (List (List Cell))
  | [], reader => if reader.mode = .rowStart then some [] else none
  | character :: rest, reader =>
      if reader.mode = .lineFeed then
        if character = '\n' then (readFrom rest .start).map (reader.cells :: ·) else none
      else (reader.step character).bind (readFrom rest)

def read (text : List Char) : Option (List (List Cell)) := readFrom text .start

/-! Reading one cell -/

def Cell.Plain : Cell → Prop
  | .text _ => True
  | .number literal => literal.any special = false

theorem readFrom_step {mode : Mode} {cells : List Cell} {next : Reader} {character : Char}
    (rest : List Char) (in_row : mode ≠ .lineFeed)
    (stepped : Reader.step character { mode := mode, cells := cells } = some next) :
    readFrom (character :: rest) { mode := mode, cells := cells } = readFrom rest next := by
  simp [readFrom, in_row, stepped]

theorem readFrom_escape (value read : List Char) (rest : List Char) (cells : List Cell) :
    readFrom (escape value ++ rest) { mode := .inText read, cells := cells } =
      readFrom rest { mode := .inText (read ++ value), cells := cells } := by
  induction value generalizing read with
  | nil => simp [escape]
  | cons character value ih =>
      by_cases mark : character = quoteMark
      · -- The two quotes are read as one.
        subst mark
        simp only [escape, if_true, List.cons_append]
        rw [readFrom_step _ (by simp) (by simp [Reader.step, Reader.inside]; rfl),
          readFrom_step _ (by simp) (by simp [Reader.step, Reader.closing]; rfl), ih]
        simp
      · simp only [escape, mark, if_false, List.cons_append]
        rw [readFrom_step _ (by simp) (by simp [Reader.step, Reader.inside, mark]; rfl), ih]
        simp

theorem readFrom_quoted {mode : Mode} (value rest : List Char) (cells : List Cell)
    (opens : mode = .rowStart ∨ mode = .cellStart) :
    readFrom (quoted value ++ rest) { mode := mode, cells := cells } =
      readFrom rest { mode := .afterQuote value, cells := cells } := by
  have in_row : mode ≠ .lineFeed := by rcases opens with rfl | rfl <;> simp
  have opened : Reader.step quoteMark { mode := mode, cells := cells } =
      some { mode := .inText [], cells := cells } := by
    rcases opens with rfl | rfl <;> simp [Reader.step, Reader.opening]
  simp only [quoted, List.cons_append, List.append_assoc]
  rw [readFrom_step _ in_row opened, readFrom_escape]
  simp only [List.nil_append]
  rw [readFrom_step _ (by simp) (by simp [Reader.step, Reader.inside]; rfl)]

theorem bare_ordinary {character : Char} (ordinary : special character = false)
    (literal : List Char) (cells : List Cell) :
    Reader.bare literal character cells =
      some { mode := .inNumber (literal ++ [character]), cells := cells } := by
  have apart := ordinary
  simp only [special, Bool.or_eq_false_iff, decide_eq_false_iff_not] at apart
  simp [Reader.bare, ordinary, apart]

theorem opening_ordinary {character : Char} (ordinary : special character = false)
    (cells : List Cell) :
    Reader.opening character cells = some { mode := .inNumber [character], cells := cells } := by
  have apart := ordinary
  simp only [special, Bool.or_eq_false_iff, decide_eq_false_iff_not] at apart
  rw [Reader.opening, if_neg apart.1.1.2, bare_ordinary ordinary]
  rfl

theorem readFrom_bare (literal read : List Char) (rest : List Char) (cells : List Cell)
    (plain : literal.any special = false) :
    readFrom (literal ++ rest) { mode := .inNumber read, cells := cells } =
      readFrom rest { mode := .inNumber (read ++ literal), cells := cells } := by
  induction literal generalizing read with
  | nil => simp
  | cons character literal ih =>
      simp only [List.any_cons, Bool.or_eq_false_iff] at plain
      obtain ⟨ordinary, plain⟩ := plain
      have stepped : Reader.step character { mode := .inNumber read, cells := cells } =
          some { mode := .inNumber (read ++ [character]), cells := cells } :=
        bare_ordinary ordinary read cells
      rw [List.cons_append, readFrom_step _ (by simp) stepped, ih _ plain]
      simp

/-- The separators after a cell: the next cell follows, or the row ends. -/
inductive Separator : Char → Mode → Prop
  | comma : Separator ',' .cellStart
  | rowEnd : Separator '\r' .lineFeed

theorem readFrom_cell {mode : Mode} {separator : Char} {following : Mode} (cell : Cell)
    (rest : List Char) (cells : List Cell) (opens : mode = .rowStart ∨ mode = .cellStart)
    (plain : cell.Plain) (separates : Separator separator following) :
    readFrom (writeCell cell ++ separator :: rest) { mode := mode, cells := cells } =
      readFrom rest { mode := following, cells := cells ++ [cell] } := by
  cases cell with
  | text value =>
      rw [writeCell, readFrom_quoted _ _ _ opens]
      cases separates <;>
        exact readFrom_step _ (by simp) (by simp [Reader.step, Reader.closing, quoteMark])
  | number literal =>
      have bare : literal.any special = false := plain
      have in_row : mode ≠ .lineFeed := by rcases opens with rfl | rfl <;> simp
      simp only [writeCell, bare]
      cases literal with
      | nil =>
          -- An empty number ends where it starts.
          rcases opens with rfl | rfl <;> cases separates <;>
            exact readFrom_step _ (by simp)
              (by simp [Reader.step, Reader.opening, Reader.bare, quoteMark])
      | cons character literal =>
          simp only [List.any_cons, Bool.or_eq_false_iff] at bare
          obtain ⟨ordinary, bare⟩ := bare
          have opened : Reader.step character { mode := mode, cells := cells } =
              some { mode := .inNumber [character], cells := cells } := by
            rcases opens with rfl | rfl <;> exact opening_ordinary ordinary cells
          simp only [Bool.false_eq_true, if_false, List.cons_append]
          rw [readFrom_step _ in_row opened, readFrom_bare _ _ _ _ bare]
          cases separates <;>
            exact readFrom_step _ (by simp) (by simp [Reader.step, Reader.bare])

/-! Reading rows -/

theorem readFrom_cells {mode : Mode} (row : List Cell) (rest : List Char) (cells : List Cell)
    (opens : mode = .rowStart ∨ mode = .cellStart) (nonempty : row ≠ [])
    (plain : ∀ cell ∈ row, cell.Plain) :
    readFrom (writeCells row ++ '\r' :: rest) { mode := mode, cells := cells } =
      readFrom rest { mode := .lineFeed, cells := cells ++ row } := by
  induction row generalizing mode cells with
  | nil => exact absurd rfl nonempty
  | cons cell row ih =>
      have first := plain cell (by simp)
      cases row with
      | nil => exact readFrom_cell cell rest cells opens first .rowEnd
      | cons next row =>
          simp only [writeCells, List.append_assoc, List.cons_append]
          rw [readFrom_cell cell _ cells opens first .comma,
            ih (cells ++ [cell]) (.inr rfl) (by simp)
              fun other member => plain other (List.mem_cons_of_mem _ member)]
          simp

theorem readFrom_row (row : List Cell) (rest : List Char) (nonempty : row ≠ [])
    (plain : ∀ cell ∈ row, cell.Plain) :
    readFrom (writeRow row ++ rest) .start = (readFrom rest .start).map (row :: ·) := by
  simp only [writeRow, List.append_assoc, List.cons_append, List.nil_append]
  rw [Reader.start, readFrom_cells row _ [] (.inl rfl) nonempty plain]
  simp [readFrom, Reader.start]

/-- Rows with a cell each and with bare numbers are read as they were written. -/
theorem read_writeRows (rows : List (List Cell)) (nonempty : ∀ row ∈ rows, row ≠ [])
    (plain : ∀ row ∈ rows, ∀ cell ∈ row, cell.Plain) :
    read (writeRows rows) = some rows := by
  induction rows with
  | nil => rfl
  | cons row rows ih =>
      have rest := ih (fun other member => nonempty other (List.mem_cons_of_mem _ member))
        fun other member => plain other (List.mem_cons_of_mem _ member)
      rw [read] at rest ⊢
      rw [writeRows, List.flatMap_cons, readFrom_row row _ (nonempty row (by simp))
        (plain row (by simp)), ← writeRows, rest]
      rfl

example : writeRow [.text ['a', quoteMark], .number ['1']] =
    [quoteMark, 'a', quoteMark, quoteMark, quoteMark, ',', '1', '\r', '\n'] := by decide

end CsvText
