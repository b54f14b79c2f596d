import VideoTerminal.Terminal.Motion

/-!
# Erasing, inserting and deleting
-/

namespace VideoTerminal.Terminal

/-! ## Erasing -/

/-- Erases columns of the cursor row. -/
def eraseColumns (t : Terminal) (start stop : Nat) (selective : Bool) : Terminal :=
  let blank := t.blank
  t.onCursorRow (·.erase blank start stop selective)

/-- Erases whole rows, from `first` up to `stop`. -/
def eraseRows (t : Terminal) (first stop : Nat) (selective : Bool) : Terminal :=
  let blank := t.blank
  let cols := t.cols
  t.onScreen fun s =>
    { s with grid := modifyRange (·.erase blank 0 cols selective) first (stop - first) s.grid }

/-- Erases in the row of the cursor: from the cursor on (0), up to the cursor (1) or all (2). -/
def eraseInLine (t : Terminal) (extent : Nat) (selective : Bool) : Terminal :=
  let col := t.cursor.col
  let t' := match extent with
    | 0 => t.eraseColumns col t.cols selective
    | 1 => t.eraseColumns 0 (col + 1) selective
    | 2 => t.eraseColumns 0 t.cols selective
    | _ => t
  t'.clearPending

/-- Erases on the screen: from the cursor on (0), up to the cursor (1) or all (2), or else the
history (3). -/
def eraseInDisplay (t : Terminal) (extent : Nat) (selective : Bool) : Terminal :=
  let row := t.cursor.row
  let t' := match extent with
    | 0 => (t.eraseInLine 0 selective).eraseRows (row + 1) t.rows selective
    | 1 => (t.eraseRows 0 row selective).eraseInLine 1 selective
    | 2 => t.eraseRows 0 t.rows selective
    | 3 => t.onScreen Screen.clearHistory
    | _ => t
  t'.clearPending

/-- Erases `n` cells from the cursor on. -/
def eraseChars (t : Terminal) (n : Nat) : Terminal :=
  (t.eraseColumns t.cursor.col (min (t.cursor.col + n) t.cols) false).clearPending

/-! ## Inserting and deleting -/

/-- Inserts `n` blank cells at the cursor. -/
def insertChars (t : Terminal) (n : Nat) : Terminal :=
  let blank := t.blank
  let col := t.cursor.col
  if t.isOnGrid then (t.onCursorRow (·.insert blank col n)).clearPending else t

/-- Deletes `n` cells at the cursor. -/
def deleteChars (t : Terminal) (n : Nat) : Terminal :=
  let blank := t.blank
  let col := t.cursor.col
  if t.isOnGrid then (t.onCursorRow (·.delete blank col n)).clearPending else t

/-- Shifts the rows from the cursor to the bottom of the region, if the cursor is in it. -/
def shiftFromCursor (t : Terminal) (n : Nat) (dir : Direction) : Terminal :=
  let row := t.cursor.row
  let region := t.region
  let blank := t.blank
  if row < region.top ∨ region.bottom < row then t
  else (t.onScreen (·.shiftRows row region.bottom n dir blank)).carriageReturn

/-- Inserts `n` blank rows at the cursor. -/
def insertLines (t : Terminal) (n : Nat) : Terminal := t.shiftFromCursor n .down

/-- Deletes `n` rows at the cursor. -/
def deleteLines (t : Terminal) (n : Nat) : Terminal := t.shiftFromCursor n .up

end VideoTerminal.Terminal
