import VideoTerminal.Terminal.Saved

/-!
# Switching modes

Private modes and the two modes of the standard, by number.  The values of private modes can be
saved and brought back.
-/

namespace VideoTerminal.Terminal

/-- Changes the modes. -/
def onModes (t : Terminal) (f : Modes → Modes) : Terminal := { t with modes := f t.modes }

/-- Switches a mode of the standard: insertion (4) or line feeds that return the carriage (20). -/
def setMode (t : Terminal) (mode : Nat) (on : Bool) : Terminal :=
  match mode with
  | 4 => t.onModes ({ · with insert := on })
  | 20 => t.onModes ({ · with linefeedNewline := on })
  | _ => t

/-- The value of a mode of the standard. -/
def mode? (t : Terminal) (mode : Nat) : Option Bool :=
  match mode with
  | 4 => some t.modes.insert
  | 20 => some t.modes.linefeedNewline
  | _ => none

/-- Switches a private mode. -/
def switch (t : Terminal) (mode : PrivateMode) (on : Bool) : Terminal :=
  match mode with
  | .applicationCursor => t.onModes ({ · with applicationCursor := on })
  | .reverseVideo => t.onModes ({ · with reverseVideo := on })
  | .origin => (t.onModes ({ · with origin := on })).setPosition 0 0
  | .autowrap => t.onModes ({ · with autowrap := on })
  | .cursorBlinking => t.onCursor fun c => { c with style := { c.style with blinking := on } }
  | .cursorVisible => t.onModes ({ · with cursorVisible := on })
  | .applicationKeypad => t.onModes ({ · with applicationKeypad := on })
  | .focusReporting => t.onModes ({ · with focusReporting := on })
  | .bracketedPaste => t.onModes ({ · with bracketedPaste := on })
  | .mouseTracking k => t.onModes (·.setMouseTracking k on)
  | .mouseEncoding e => t.onModes (·.setMouseEncoding e on)
  | .alternateScreen => if on then t.enterAlternate false else t.exitAlternate false
  | .blankAlternateScreen => if on then t.enterAlternate true else t.exitAlternate true
  | .savedCursor => if on then t.saveCursor else t.restoreCursor
  | .alternateScreenAndCursor =>
      if on then
        if t.modes.alternateScreen then t else t.saveCursor.enterAlternate true
      else
        if t.modes.alternateScreen then (t.exitAlternate false).restoreCursor else t

/-- Whether a private mode is on; the saved cursor is never so. -/
def isOn? (t : Terminal) : PrivateMode → Option Bool
  | .applicationCursor => some t.modes.applicationCursor
  | .reverseVideo => some t.modes.reverseVideo
  | .origin => some t.modes.origin
  | .autowrap => some t.modes.autowrap
  | .cursorBlinking => some t.cursor.style.blinking
  | .cursorVisible => some t.modes.cursorVisible
  | .applicationKeypad => some t.modes.applicationKeypad
  | .focusReporting => some t.modes.focusReporting
  | .bracketedPaste => some t.modes.bracketedPaste
  | .mouseTracking k => some (t.modes.mouseTracking = k)
  | .mouseEncoding e => some (t.modes.mouseEncoding = e)
  | .alternateScreen => some t.modes.alternateScreen
  | .blankAlternateScreen => some t.modes.alternateScreen
  | .savedCursor => none
  | .alternateScreenAndCursor => some t.modes.alternateScreen

/-- Switches the private mode of a number; unknown numbers are ignored. -/
def setPrivateMode (t : Terminal) (mode : Nat) (on : Bool) : Terminal :=
  match PrivateMode.ofNumber? mode with
  | some m => t.switch m on
  | none => t

/-- The value of the private mode of a number, where it has one. -/
def privateMode? (t : Terminal) (mode : Nat) : Option Bool :=
  (PrivateMode.ofNumber? mode).bind t.isOn?

/-- Saves the value of one private mode. -/
def savePrivateMode (t : Terminal) (mode : Nat) : Terminal :=
  match t.privateMode? mode with
  | some value => t.onModes (·.save mode value)
  | none => t

/-- Saves the values of private modes, or of all saveable ones if none are named. -/
def savePrivateModes (t : Terminal) (modes : List Nat) : Terminal :=
  (if modes = [] then PrivateMode.saveable else modes).foldl savePrivateMode t

/-- Brings back the saved value of one private mode. -/
def restorePrivateMode (t : Terminal) (mode : Nat) : Terminal :=
  match t.modes.saved? mode with
  | some value => t.setPrivateMode mode value
  | none => t

/-- Brings back saved values of private modes, of all that were saved if none are named. -/
def restorePrivateModes (t : Terminal) (modes : List Nat) : Terminal :=
  (if modes = [] then t.modes.saved.map Prod.fst else modes).foldl restorePrivateMode t

end VideoTerminal.Terminal
