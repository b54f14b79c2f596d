import VideoTerminal.Terminal

/-!
# Moving the cursor

Every motion forgets that the next character wraps.  In origin mode the region bounds the rows
that the cursor can be sent to.
-/

namespace VideoTerminal.Terminal

/-- To the first column. -/
def carriageReturn (t : Terminal) : Terminal := t.moveTo t.cursor.row 0

/-- One column to the left, or out of the wrap that is due. -/
def backspace (t : Terminal) : Terminal :=
  if t.cursor.pendingWrap then t.clearPending else t.moveTo t.cursor.row (t.cursor.col - 1)

/-- The rows that the cursor can be sent to. -/
def rowBounds (t : Terminal) : Region :=
  if t.modes.origin then t.region else Screen.wholeRegion t.rows

/-- Upwards, as far as the bounds if the cursor is below their top. -/
def cursorUp (t : Terminal) (n : Nat) : Terminal :=
  let top := t.rowBounds.top
  let top := if t.cursor.row < top then 0 else top
  t.moveTo (max (t.cursor.row - n) top) t.cursor.col

/-- Downwards, as far as the bounds if the cursor is above their bottom. -/
def cursorDown (t : Terminal) (n : Nat) : Terminal :=
  let bottom := t.rowBounds.bottom
  let bottom := if bottom < t.cursor.row then t.rows - 1 else bottom
  t.moveTo (min (t.cursor.row + n) bottom) t.cursor.col

/-- To the right. -/
def cursorForward (t : Terminal) (n : Nat) : Terminal :=
  t.moveTo t.cursor.row (min (t.cursor.col + n) (t.cols - 1))

/-- To the left. -/
def cursorBackward (t : Terminal) (n : Nat) : Terminal :=
  t.moveTo t.cursor.row (t.cursor.col - n)

/-- To a place counted from the top of the bounds. -/
def setPosition (t : Terminal) (row col : Nat) : Terminal :=
  let bounds := t.rowBounds
  t.moveTo (min (row + bounds.top) bounds.bottom) (min col (t.cols - 1))

/-- To a column. -/
def setColumn (t : Terminal) (col : Nat) : Terminal :=
  t.moveTo t.cursor.row (min col (t.cols - 1))

/-- To a row counted from the top of the bounds. -/
def setRow (t : Terminal) (row : Nat) : Terminal := t.setPosition row t.cursor.col

/-- The place of the cursor as it is reported: counted from one, and in origin mode from the top
of the region. -/
def reportedPosition (t : Terminal) : Nat × Nat :=
  let top := if t.modes.origin then t.region.top else 0
  (t.cursor.row - top + 1, t.cursor.col + 1)

/-! ## Scrolling -/

/-- Scrolls the region. -/
def scroll (t : Terminal) (n : Nat) (dir : Direction) : Terminal :=
  let region := t.region
  let blank := t.blank
  t.onScreen (·.scroll region.top region.bottom n dir blank)

/-- Scrolls the region up. -/
def scrollUp (t : Terminal) (n : Nat) : Terminal := t.scroll n .up

/-- Scrolls the region down. -/
def scrollDown (t : Terminal) (n : Nat) : Terminal := t.scroll n .down

/-- One row down, scrolling at the bottom of the region. -/
def index (t : Terminal) : Terminal :=
  let t := t.clearPending
  if t.cursor.row = t.region.bottom then t.scrollUp 1
  else if t.cursor.row + 1 < t.rows then t.moveTo (t.cursor.row + 1) t.cursor.col
  else t

/-- One row up, scrolling at the top of the region. -/
def reverseIndex (t : Terminal) : Terminal :=
  let t := t.clearPending
  if t.cursor.row = t.region.top then t.scrollDown 1
  else t.moveTo (t.cursor.row - 1) t.cursor.col

/-- One row down, and to the first column if the mode asks for it. -/
def linefeed (t : Terminal) : Terminal :=
  let t := t.index
  if t.modes.linefeedNewline then t.carriageReturn else t

/-- To the first column of the next row. -/
def nextLine (t : Terminal) : Terminal := t.carriageReturn.index

/-- Sets the region of both screens from rows counted from one, and sends the cursor home.  A
missing top is the first row, a missing bottom the last; an empty region is ignored. -/
def setScrollRegion (t : Terminal) (top bottom : Nat) : Terminal :=
  let first := max top 1 - 1
  let stop := if bottom = 0 then t.rows else min bottom t.rows
  if stop = 0 ∨ stop - 1 < first then t
  else
    let r : Region := ⟨first, stop - 1⟩
    let t := { t with primary := t.primary.setRegion r, alternate := t.alternate.setRegion r }
    t.setPosition 0 0

end VideoTerminal.Terminal
