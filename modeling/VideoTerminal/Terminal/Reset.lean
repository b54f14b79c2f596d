import VideoTerminal.Terminal.Motion

/-!
# Resizing and resetting
-/

namespace VideoTerminal.Terminal

/-- The cursor with its place cut to a size. -/
def clampCursor (cols rows : Nat) (c : Cursor) : Cursor :=
  { c with row := min c.row (rows - 1), col := min c.col (cols - 1), pendingWrap := false }

/-- Tab stops for a number of columns: those there are, and default ones in new columns. -/
def resizeStops (stops : Array Bool) (cols : Nat) : Array Bool :=
  stops.take cols ++ (Array.range' stops.size (cols - stops.size)).map isDefaultStop

/-- Changes the size of both screens. -/
def resize (t : Terminal) (cols rows : Nat) : Terminal :=
  { t with
    cols
    rows
    primary := t.primary.resize cols rows
    alternate := t.alternate.resize cols rows
    cursor := clampCursor cols rows t.cursor
    primaryCursor := t.primaryCursor.map (clampCursor cols rows)
    tabStops := resizeStops t.tabStops cols }

/-- Lets all rows of both screens scroll. -/
def resetRegions (t : Terminal) : Terminal :=
  { t with primary := t.primary.resetRegion, alternate := t.alternate.resetRegion }

/-- Fills the screen with the letter E, for adjusting it. -/
def screenAlignment (t : Terminal) : Terminal :=
  (t.resetRegions.onScreen (·.fill { base := 'E' })).setPosition 0 0

/-- Brings modes, region, pen and saved cursors back to the start; the text stays. -/
def softReset (t : Terminal) : Terminal :=
  { t.resetRegions.clearPending with
    modes := { t.modes with
      insert := false
      origin := false
      autowrap := true
      cursorVisible := true
      applicationKeypad := false
      applicationCursor := false }
    pen := {}
    penProtected := false
    charsets := {}
    primarySaved := none
    alternateSaved := none }

/-- Brings everything back to the start but the size, the history limit and the meaning of
rendition 21. -/
def fullReset (t : Terminal) : Terminal := new t.cols t.rows t.primary.historyLimit t.sgr21

end VideoTerminal.Terminal
