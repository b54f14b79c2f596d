/-!
# Modes

The settings that programs switch on and off, and the numbers by which they name them.
-/

namespace VideoTerminal

/-- Which actions of the mouse are reported. -/
inductive MouseTracking where
  | off
  /-- Presses only. -/
  | x10
  /-- Presses and releases. -/
  | normal
  /-- Also motion with a button held. -/
  | buttonEvent
  /-- All motion. -/
  | anyEvent
deriving DecidableEq, Repr

/-- How mouse actions are reported. -/
inductive MouseEncoding where
  | default
  | utf8
  | sgr
  | urxvt
deriving DecidableEq, Repr

/-- The state of all modes. -/
structure Modes where
  autowrap : Bool := true
  origin : Bool := false
  insert : Bool := false
  alternateScreen : Bool := false
  bracketedPaste : Bool := false
  cursorVisible : Bool := true
  applicationKeypad : Bool := false
  applicationCursor : Bool := false
  linefeedNewline : Bool := false
  reverseVideo : Bool := false
  focusReporting : Bool := false
  mouseTracking : MouseTracking := .off
  mouseEncoding : MouseEncoding := .default
  /-- The private modes a program has saved, by ascending number. -/
  saved : List (Nat × Bool) := []
deriving DecidableEq, Repr

/-- A private mode. -/
inductive PrivateMode where
  | applicationCursor
  | reverseVideo
  | origin
  | autowrap
  | cursorBlinking
  | cursorVisible
  | applicationKeypad
  | focusReporting
  | bracketedPaste
  /-- One of the kinds of mouse tracking, which exclude each other. -/
  | mouseTracking (t : MouseTracking)
  /-- One of the encodings of the mouse, which exclude each other. -/
  | mouseEncoding (e : MouseEncoding)
  /-- The alternate screen as it was left. -/
  | alternateScreen
  /-- The alternate screen, blank on entering and leaving. -/
  | blankAlternateScreen
  /-- The saved cursor, set by saving and reset by restoring. -/
  | savedCursor
  /-- The blank alternate screen together with the saved cursor. -/
  | alternateScreenAndCursor
deriving DecidableEq, Repr

namespace PrivateMode

/-- The mode of a number. -/
def ofNumber? : Nat → Option PrivateMode
  | 1 => some .applicationCursor
  | 5 => some .reverseVideo
  | 6 => some .origin
  | 7 => some .autowrap
  | 9 => some (.mouseTracking .x10)
  | 12 => some .cursorBlinking
  | 25 => some .cursorVisible
  | 47 => some .alternateScreen
  | 66 => some .applicationKeypad
  | 1000 => some (.mouseTracking .normal)
  | 1002 => some (.mouseTracking .buttonEvent)
  | 1003 => some (.mouseTracking .anyEvent)
  | 1004 => some .focusReporting
  | 1005 => some (.mouseEncoding .utf8)
  | 1006 => some (.mouseEncoding .sgr)
  | 1015 => some (.mouseEncoding .urxvt)
  | 1047 => some .blankAlternateScreen
  | 1048 => some .savedCursor
  | 1049 => some .alternateScreenAndCursor
  | 2004 => some .bracketedPaste
  | _ => none

/-- The numbers of the modes that are saved when a program names none. -/
def saveable : List Nat :=
  [1, 5, 6, 7, 9, 12, 25, 66, 1000, 1002, 1003, 1004, 1005, 1006, 1015, 2004]

end PrivateMode

namespace Modes

/-- Puts a saved value in its place among the others. -/
def insertSaved (mode : Nat) (value : Bool) : List (Nat × Bool) → List (Nat × Bool)
  | [] => [(mode, value)]
  | (m, v) :: rest =>
      if mode < m then (mode, value) :: (m, v) :: rest
      else if mode = m then (mode, value) :: rest
      else (m, v) :: insertSaved mode value rest

/-- Saves the value of a mode. -/
def save (ms : Modes) (mode : Nat) (value : Bool) : Modes :=
  { ms with saved := insertSaved mode value ms.saved }

/-- The saved value of a mode. -/
def saved? (ms : Modes) (mode : Nat) : Option Bool := ms.saved.lookup mode

/-- Switches a kind of mouse tracking; switching one off that is not on changes nothing. -/
def setMouseTracking (ms : Modes) (t : MouseTracking) (on : Bool) : Modes :=
  if on then { ms with mouseTracking := t }
  else if ms.mouseTracking = t then { ms with mouseTracking := .off }
  else ms

/-- Switches an encoding of the mouse; switching one off that is not on changes nothing. -/
def setMouseEncoding (ms : Modes) (e : MouseEncoding) (on : Bool) : Modes :=
  if on then { ms with mouseEncoding := e }
  else if ms.mouseEncoding = e then { ms with mouseEncoding := .default }
  else ms

end Modes

end VideoTerminal
