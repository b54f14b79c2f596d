import VideoTerminal.Terminal.Edit
import VideoTerminal.Text.Width

/-!
# Printing

A character goes to the cursor, which then moves behind it.  Behind the last column it stays there
instead, and the wrap is due: it takes place when the next character comes.
-/

namespace VideoTerminal.Terminal

/-- To the first column of the next row; the row that is left goes on there. -/
def wrapLine (t : Terminal) : Terminal :=
  let row := t.cursor.row
  ((t.onScreen (·.markWrapped row)).moveTo row 0).index

/-- The column of the character printed last, seen from the cursor. -/
def previousColumn? (t : Terminal) : Option Nat :=
  let col := if t.cursor.pendingWrap then some t.cursor.col
    else if t.cursor.col = 0 then none
    else some (t.cursor.col - 1)
  col.map fun col =>
    let isContinuation := ((t.screen.cell? t.cursor.row col).map Cell.isContinuation).getD false
    if 0 < col && isContinuation then col - 1 else col

/-- Puts a mark on the character before the cursor. -/
def addMark (t : Terminal) (c : Char) : Terminal :=
  match t.previousColumn? with
  | some col => t.onCursorRow (·.modify col (·.addMark c))
  | none => t

/-- Takes the wrap that is due. -/
def takeWrap (t : Terminal) : Terminal :=
  if t.cursor.pendingWrap && t.modes.autowrap then t.wrapLine else t

/-- Makes room for a wide character in the last column: in the next row, or else one column
further left. -/
def makeRoom (t : Terminal) (width : Nat) : Terminal :=
  if width = 2 ∧ t.cols ≤ t.cursor.col + 1 then
    if t.modes.autowrap then t.wrapLine else t.onCursor ({ · with col := t.cols - 2 })
  else t

/-- Moves the rest of the row away in insert mode. -/
def makeGap (t : Terminal) (width : Nat) : Terminal :=
  if t.modes.insert then t.insertChars width else t

/-- The cell of a character as the pen draws it. -/
def glyph (t : Terminal) (c : Char) (width : Nat) : Cell :=
  { base := c, width, rendition := t.pen, isProtected := t.penProtected, link := t.openLink }

/-- Writes a character at the cursor. -/
def writeGlyph (t : Terminal) (c : Char) (width : Nat) : Terminal :=
  let col := t.cursor.col
  let blank := t.blank
  let glyph := t.glyph c width
  let continuation := t.glyph ' ' 0
  t.onCursorRow (·.write col blank glyph continuation)

/-- Moves the cursor behind a character. -/
def advance (t : Terminal) (width : Nat) : Terminal :=
  let next := t.cursor.col + width
  let cols := t.cols
  let autowrap := t.modes.autowrap
  t.onCursor fun c =>
    if cols ≤ next then { c with col := cols - 1, pendingWrap := autowrap }
    else { c with col := next, pendingWrap := false }

/-- Prints a character of a width that the screen has room for. -/
def place (t : Terminal) (c : Char) (width : Nat) : Terminal :=
  let t := ((t.takeWrap.makeRoom width).makeGap width).writeGlyph c width
  { t.advance width with lastPrinted := some c }

/-- Prints a character.  A character without a width is not printed, one of width zero goes onto
the character before it, and one that is wider than the screen is dropped. -/
def print (t : Terminal) (c : Char) : Terminal :=
  let c := t.charsets.glyph c
  match Width.columns? c with
  | none => t
  | some 0 => t.addMark c
  | some w => if t.cols < min w 2 then t else t.place c (min w 2)

/-- Prints the last character `n` times more, at most as often as the screen has cells. -/
def repeatLast (t : Terminal) (n : Nat) : Terminal :=
  match t.lastPrinted with
  | some c => Nat.repeat (·.print c) (min n (t.cols * t.rows)) t
  | none => t

end VideoTerminal.Terminal
