import VideoTerminal.Cell

/-!
# Rows

A row of cells, and what can be done to one row: writing, erasing, inserting and deleting.  The
operations mend wide characters of which they have hit only one half.
-/

namespace VideoTerminal

/-- A row of cells, and whether its text goes on in the next row. -/
structure Row where
  cells : Array Cell
  wrapped : Bool := false
deriving DecidableEq, Repr, Inhabited

/-- Changes `n` elements from `start` on. -/
def modifyRange (f : α → α) (start : Nat) : (n : Nat) → Array α → Array α
  | 0, xs => xs
  | n + 1, xs => modifyRange f (start + 1) n (xs.modify start f)

namespace Row

/-- A row that repeats one cell. -/
def filled (cols : Nat) (c : Cell) : Row := { cells := Array.replicate cols c }

/-- An empty row. -/
def empty (cols : Nat) : Row := filled cols {}

/-- A character in front of a text whose blanks at the end do not count. -/
def putBefore (c : Char) (cs : List Char) : List Char :=
  if c = ' ' ∧ cs.isEmpty then [] else c :: cs

/-- The text of a row without the blanks at its end. -/
def text (r : Row) : String :=
  String.ofList <| r.cells.foldr
    (fun c cs => if c.isContinuation then cs else putBefore c.base (c.marks.foldr putBefore cs)) []

/-- Fills the row with one cell. -/
def fill (r : Row) (c : Cell) : Row := filled r.cells.size c

/-- Whether the cell at a column is a continuation. -/
def continuesAt (cells : Array Cell) (col : Nat) : Bool :=
  (cells[col]?.map Cell.isContinuation).getD false

/-- Whether the cell at a column is the first half of a wide character. -/
def isWideAt (cells : Array Cell) (col : Nat) : Bool := (cells[col]?.map Cell.isWide).getD false

/-- Cells of which the last one has lost its second half: it becomes blank. -/
def mendEnd (cells : Array Cell) : Array Cell :=
  cells.modify (cells.size - 1) fun c => if c.isWide then Cell.blank c.rendition else c

/-- Cuts or pads the row to a number of columns. -/
def resize (r : Row) (cols : Nat) : Row :=
  { r with cells := mendEnd (r.cells.take cols ++ Array.replicate (cols - r.cells.size) {}) }

/-- Puts a cell at a column. -/
def put (r : Row) (col : Nat) (c : Cell) : Row := { r with cells := r.cells.setIfInBounds col c }

/-- Changes the cell at a column. -/
def modify (r : Row) (col : Nat) (f : Cell → Cell) : Row :=
  { r with cells := r.cells.modify col f }

/-- Blanks the halves that are left of wide characters when the columns from `col` to `last` are
overwritten. -/
def mendAround (blank : Cell) (col last : Nat) (cells : Array Cell) : Array Cell :=
  let cells :=
    if 0 < col && continuesAt cells col then cells.setIfInBounds (col - 1) blank else cells
  if isWideAt cells last then cells.setIfInBounds (last + 1) blank else cells

/-- Writes a character into its one or two columns. -/
def write (r : Row) (col : Nat) (blank glyph continuation : Cell) : Row :=
  if glyph.isWide then
    let cells := (mendAround blank col (col + 1) r.cells).setIfInBounds col glyph
    { r with cells := cells.setIfInBounds (col + 1) continuation }
  else { r with cells := (mendAround blank col col r.cells).setIfInBounds col glyph }

/-- Erases the columns from `start` up to `stop`.  Selective erasing spares protected cells.
Behind the columns the rest of a wide character is erased too, and so it is before them where the
first column has kept a continuation. -/
def erase (r : Row) (blank : Cell) (start stop : Nat) (selective : Bool) : Row :=
  let stop := min stop r.cells.size
  let start := min start stop
  let erased := fun (c : Cell) => if selective && c.isProtected then c else blank
  let cells := modifyRange erased start (stop - start) r.cells
  let cells :=
    if 0 < start && start < stop && continuesAt cells start then
      cells.setIfInBounds (start - 1) blank
    else cells
  let cells := if continuesAt cells stop then cells.setIfInBounds stop blank else cells
  { cells, wrapped := r.wrapped && stop != cells.size }

/-- Cells of which the ones from `col` on have moved `n` columns to the right. -/
def moveRight (blank : Cell) (col n : Nat) (cells : Array Cell) : Array Cell :=
  cells.take col ++ Array.replicate n blank ++ cells.extract col (cells.size - n)

/-- Cells of which the ones from `col + n` on have moved `n` columns to the left. -/
def moveLeft (blank : Cell) (col n : Nat) (cells : Array Cell) : Array Cell :=
  cells.take col ++ cells.drop (col + n) ++ Array.replicate n blank

/-- Inserts `n` blank cells at a column; what passes the last column is lost. -/
def insert (r : Row) (blank : Cell) (col n : Nat) : Row :=
  let cells :=
    if 0 < col && continuesAt r.cells col then
      (r.cells.setIfInBounds (col - 1) blank).setIfInBounds col blank
    else r.cells
  let cells := moveRight blank col (min n (cells.size - col)) cells
  let cells :=
    if isWideAt cells (cells.size - 1) then cells.setIfInBounds (cells.size - 1) blank else cells
  { r with cells }

/-- Deletes `n` cells at a column; blank cells fill the end. -/
def delete (r : Row) (blank : Cell) (col n : Nat) : Row :=
  let cells :=
    if 0 < col && continuesAt r.cells col then r.cells.setIfInBounds (col - 1) blank else r.cells
  let cells := moveLeft blank col (min n (cells.size - col)) cells
  let cells := if continuesAt cells col then cells.setIfInBounds col blank else cells
  { r with cells }

end Row

end VideoTerminal
