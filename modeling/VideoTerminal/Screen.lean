import VideoTerminal.History

/-!
# The screen

A grid of rows, the rows that have left it at the top, and the view on both.  Rows are shifted
within a region; those that leave the grid at its top go into the history, of which only so many
are kept.  The view may be moved back into the history and then stays with the rows it shows.
-/

namespace VideoTerminal

/-- A range of rows, first and last included. -/
structure Region where
  top : Nat
  bottom : Nat
deriving DecidableEq, Repr

/-- The way rows move. -/
inductive Direction where
  | up
  | down
deriving DecidableEq, Repr

/-- A grid of rows with its history. -/
structure Screen where
  cols : Nat
  rows : Nat
  grid : Array Row
  /-- The rows that have left the grid, oldest first. -/
  history : History := .empty
  historyLimit : Nat
  /-- The rows that scroll. -/
  region : Region
  /-- How many rows the view has been moved back. -/
  viewOffset : Nat := 0
deriving DecidableEq, Repr

namespace Screen

/-- The region of a whole screen. -/
def wholeRegion (rows : Nat) : Region := ⟨0, rows - 1⟩

/-- An empty screen. -/
def empty (cols rows historyLimit : Nat) : Screen where
  cols
  rows
  grid := Array.replicate rows (Row.empty cols)
  historyLimit
  region := wholeRegion rows

/-- Lines of text, one below the other. -/
def joinLines (rows : Array Row) : String := "\n".intercalate (rows.toList.map Row.text)

/-- The text of the grid. -/
def text (s : Screen) : String := joinLines s.grid

/-- The text of one row; nothing where there is no row. -/
def rowText (s : Screen) (row : Nat) : String := (s.grid[row]?.map Row.text).getD ""

/-- The cell at a place. -/
def cell? (s : Screen) (row col : Nat) : Option Cell := s.grid[row]?.bind fun r => r.cells[col]?

/-- Changes one row. -/
def modifyRow (s : Screen) (row : Nat) (f : Row → Row) : Screen :=
  { s with grid := s.grid.modify row f }

/-- Puts a cell at a place; places off the grid are ignored. -/
def put (s : Screen) (row col : Nat) (c : Cell) : Screen := s.modifyRow row (·.put col c)

/-- Marks a row as going on in the next. -/
def markWrapped (s : Screen) (row : Nat) : Screen :=
  s.modifyRow row fun r => { r with wrapped := true }

/-- Fills the grid with one cell. -/
def fill (s : Screen) (c : Cell) : Screen := { s with grid := s.grid.map (·.fill c) }

/-! ## The region -/

/-- A region that has rows, all of them on the grid. -/
def acceptsRegion (s : Screen) (r : Region) : Bool := r.top ≤ r.bottom && r.bottom < s.rows

/-- Sets the region, where it is acceptable. -/
def setRegion (s : Screen) (r : Region) : Screen :=
  if s.acceptsRegion r then { s with region := r } else s

/-- Lets all rows scroll. -/
def resetRegion (s : Screen) : Screen := { s with region := wholeRegion s.rows }

/-! ## The history -/

/-- Adds a row to the history.  A view that has been moved back stays with its rows. -/
def remember (s : Screen) (r : Row) : Screen :=
  if s.historyLimit = 0 then s
  else
    let history := (s.history.push r).truncate s.historyLimit
    { s with
      history
      viewOffset := if s.viewOffset = 0 then 0 else min (s.viewOffset + 1) history.size }

/-- Changes the number of rows that are kept. -/
def setHistoryLimit (s : Screen) (limit : Nat) : Screen :=
  let history := s.history.truncate limit
  { s with history, historyLimit := limit, viewOffset := min s.viewOffset history.size }

/-- Forgets the history. -/
def clearHistory (s : Screen) : Screen := { s with history := .empty, viewOffset := 0 }

/-! ## Shifting rows -/

/-- A range of rows after shifting them by `n`, with blank rows where others have left. -/
def shifted (dir : Direction) (n : Nat) (blank : Row) (rows : Array Row) : Array Row :=
  match dir with
  | .up => rows.drop n ++ Array.replicate n blank
  | .down => Array.replicate n blank ++ rows.take (rows.size - n)

/-- The last row of a range, as far as it is on the grid. -/
def lastRow (s : Screen) (bottom : Nat) : Nat := min bottom (s.grid.size - 1)

/-- Shifts a range of rows; those that leave it are lost. -/
def shiftRows (s : Screen) (top bottom count : Nat) (dir : Direction) (blank : Cell) : Screen :=
  let bottom := s.lastRow bottom
  if s.grid.isEmpty ∨ bottom < top then s
  else
    let height := bottom + 1 - top
    let rows := s.grid.extract top (bottom + 1)
    let rows := shifted dir (min count height) (Row.filled s.cols blank) rows
    { s with grid := s.grid.take top ++ rows ++ s.grid.drop (bottom + 1) }

/-- Scrolls a range of rows.  Rows that leave the grid at its top go into the history. -/
def scroll (s : Screen) (top bottom count : Nat) (dir : Direction) (blank : Cell) : Screen :=
  if dir = .up ∧ top = 0 then
    let leaving := s.grid.take (min count (s.lastRow bottom + 1))
    leaving.foldl remember (s.shiftRows top bottom count dir blank)
  else s.shiftRows top bottom count dir blank

/-! ## Resizing -/

/-- Cuts or pads the screen to a size, leaving the top left corner where it is. -/
def resize (s : Screen) (cols rows : Nat) : Screen :=
  let grid := s.grid.take rows ++ Array.replicate (rows - s.grid.size) (Row.empty cols)
  { s with
    cols
    rows
    grid := grid.map (·.resize cols)
    history := s.history.map (·.resize cols)
    region := wholeRegion rows
    viewOffset := min s.viewOffset s.history.size }

/-! ## The view -/

/-- Offsets are machine words: this is the first number that is none. -/
def offsetModulus : Nat := 18446744073709551616

/-- Moves the view back.  The count is added before the sum is cut to the history, and where the
sum is no machine word the addition fails. -/
def viewUp? (s : Screen) (n : Nat) : Option Screen :=
  if s.viewOffset + n < offsetModulus then
    some { s with viewOffset := min (s.viewOffset + n) s.history.size }
  else none

/-- Moves the view forward. -/
def viewDown (s : Screen) (n : Nat) : Screen := { s with viewOffset := s.viewOffset - n }

/-- Moves the view to the grid. -/
def viewReset (s : Screen) : Screen := { s with viewOffset := 0 }

/-- A line of the view, counted from its top. -/
def viewRow? (s : Screen) (i : Nat) : Option Row :=
  if s.rows ≤ i then none
  else
    let line := s.history.size - s.viewOffset + i
    if line < s.history.size then s.history.get? line else s.grid[line - s.history.size]?

/-- The lines of the view. -/
def view (s : Screen) : Array Row := (Array.range s.rows).filterMap s.viewRow?

/-- The text of the view. -/
def viewText (s : Screen) : String := joinLines s.view

end Screen

end VideoTerminal
