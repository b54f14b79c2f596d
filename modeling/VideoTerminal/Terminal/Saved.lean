import VideoTerminal.Terminal.Motion

/-!
# Saving the cursor, and the alternate screen

Each screen has one saved cursor.  The alternate screen is shown instead of the primary one, whose
cursor is put aside meanwhile.
-/

namespace VideoTerminal.Terminal

/-- What saving the cursor keeps now. -/
def snapshot (t : Terminal) : SavedCursor where
  row := t.cursor.row
  col := t.cursor.col
  pendingWrap := t.cursor.pendingWrap
  pen := t.pen
  penProtected := t.penProtected
  origin := t.modes.origin
  autowrap := t.modes.autowrap
  charsets := t.charsets

/-- Saves the cursor of the screen that is shown. -/
def saveCursor (t : Terminal) : Terminal :=
  if t.modes.alternateScreen then { t with alternateSaved := some t.snapshot }
  else { t with primarySaved := some t.snapshot }

/-- The saved cursor of the screen that is shown. -/
def savedCursor? (t : Terminal) : Option SavedCursor :=
  if t.modes.alternateScreen then t.alternateSaved else t.primarySaved

/-- Brings back what was saved, with the place cut to the screen. -/
def restore (t : Terminal) (s : SavedCursor) : Terminal :=
  { t with
    cursor := { t.cursor with
      row := min s.row (t.rows - 1)
      col := min s.col (t.cols - 1)
      pendingWrap := s.pendingWrap && s.col < t.cols }
    pen := s.pen
    penProtected := s.penProtected
    modes := { t.modes with origin := s.origin, autowrap := s.autowrap }
    charsets := s.charsets }

/-- What restoring gives when nothing was saved: the cursor at home and a plain pen. -/
def restoreDefault (t : Terminal) : Terminal :=
  { t.moveTo 0 0 with
    pen := {}
    penProtected := false
    modes := { t.modes with origin := false }
    charsets := {} }

/-- Restores the cursor of the screen that is shown. -/
def restoreCursor (t : Terminal) : Terminal :=
  match t.savedCursor? with
  | some s => t.restore s
  | none => t.restoreDefault

/-- Saves the place of the cursor only. -/
def savePlace (t : Terminal) : Terminal :=
  { t with savedPlace := some (t.cursor.row, t.cursor.col) }

/-- Goes back to the saved place. -/
def restorePlace (t : Terminal) : Terminal :=
  match t.savedPlace with
  | some (row, col) => t.moveTo (min row (t.rows - 1)) (min col (t.cols - 1))
  | none => t

/-- Blanks the alternate screen. -/
def blankAlternate (t : Terminal) : Terminal :=
  { t with alternate := t.alternate.fill t.blank }

/-- Shows the alternate screen, blank or as it was left. -/
def enterAlternate (t : Terminal) (clear : Bool) : Terminal :=
  if t.modes.alternateScreen then t
  else
    let t := if clear then t.blankAlternate else t
    { t with
      primaryCursor := some t.cursor
      modes := { t.modes with alternateScreen := true }
      alternate := t.alternate.viewReset }

/-- Shows the primary screen again, with the cursor it had. -/
def exitAlternate (t : Terminal) (clear : Bool) : Terminal :=
  if t.modes.alternateScreen then
    let t := if clear then t.blankAlternate else t
    { t with
      modes := { t.modes with alternateScreen := false }
      cursor := t.primaryCursor.getD t.cursor
      primaryCursor := none }
  else t

end VideoTerminal.Terminal
