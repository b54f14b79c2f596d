import VideoTerminal.Charset
import VideoTerminal.Cursor
import VideoTerminal.Link
import VideoTerminal.Mode
import VideoTerminal.Rendition.Select
import VideoTerminal.Screen
import VideoTerminal.Size

/-!
# The terminal

Everything a program can change: two screens, of which one is shown, the cursor, the pen, modes,
tab stops, titles and links.  The alternate screen has no history.
-/

namespace VideoTerminal

/-- What saving the cursor keeps. -/
structure SavedCursor where
  row : Nat
  col : Nat
  pendingWrap : Bool
  pen : Rendition
  penProtected : Bool
  origin : Bool
  autowrap : Bool
  charsets : Charsets
deriving DecidableEq, Repr

/-- The state of a terminal. -/
structure Terminal where
  cols : Nat
  rows : Nat
  primary : Screen
  alternate : Screen
  cursor : Cursor := {}
  /-- The cursor of the primary screen while the alternate screen is shown. -/
  primaryCursor : Option Cursor := none
  primarySaved : Option SavedCursor := none
  alternateSaved : Option SavedCursor := none
  /-- The place that the short form of saving keeps, apart from the saved cursors. -/
  savedPlace : Option (Nat × Nat) := none
  /-- The rendition of the characters printed next. -/
  pen : Rendition := {}
  /-- Whether the characters printed next are spared by selective erasing. -/
  penProtected : Bool := false
  /-- The link of the characters printed next; zero for none. -/
  openLink : Nat := 0
  links : LinkTable := {}
  modes : Modes := {}
  charsets : Charsets := {}
  /-- For each column whether it has a stop. -/
  tabStops : Array Bool
  title : String := ""
  iconName : String := ""
  /-- Titles and icon names put aside, the last one first. -/
  titleStack : List (String × String) := []
  sgr21 : Sgr21
  /-- The character that is repeated on request. -/
  lastPrinted : Option Char := none
  foreground : Option Rgb := none
  background : Option Rgb := none
deriving DecidableEq, Repr

namespace Terminal

/-- The distance of the tab stops at the start. -/
def tabWidth : Nat := 8

/-- Whether a column has a stop at the start. -/
def isDefaultStop (col : Nat) : Bool := col != 0 && col % tabWidth == 0

/-- A new terminal. -/
def new (cols rows historyLimit : Nat) (sgr21 : Sgr21) : Terminal where
  cols
  rows
  primary := Screen.empty cols rows historyLimit
  alternate := Screen.empty cols rows 0
  tabStops := (Array.range cols).map isDefaultStop
  sgr21

/-- The size of the terminal. -/
def size (t : Terminal) : Size := ⟨t.cols, t.rows⟩

/-- The screen that is shown. -/
def screen (t : Terminal) : Screen := if t.modes.alternateScreen then t.alternate else t.primary

/-- Changes the screen that is shown. -/
@[inline] def onScreen (t : Terminal) (f : Screen → Screen) : Terminal :=
  if t.modes.alternateScreen then { t with alternate := f t.alternate }
  else { t with primary := f t.primary }

/-- Changes the row of the cursor. -/
@[inline] def onCursorRow (t : Terminal) (f : Row → Row) : Terminal :=
  let row := t.cursor.row
  t.onScreen (·.modifyRow row f)

/-- Changes the cursor. -/
@[inline] def onCursor (t : Terminal) (f : Cursor → Cursor) : Terminal :=
  { t with cursor := f t.cursor }

/-- Forgets that the next character wraps. -/
def clearPending (t : Terminal) : Terminal := t.onCursor ({ · with pendingWrap := false })

/-- Moves the cursor. -/
def moveTo (t : Terminal) (row col : Nat) : Terminal :=
  t.onCursor ({ · with row, col, pendingWrap := false })

/-- The region that scrolls. -/
def region (t : Terminal) : Region := t.screen.region

/-- The cell that erasing leaves behind. -/
def blank (t : Terminal) : Cell := Cell.blank t.pen

/-- Whether the cursor stands on a cell. -/
def isOnGrid (t : Terminal) : Bool := (t.screen.cell? t.cursor.row t.cursor.col).isSome

end Terminal

end VideoTerminal
