import VideoTerminal.Params

/-!
# Control functions

The meaning of a control sequence, apart from the selection of a rendition.
-/

namespace VideoTerminal

/-- The function that a control sequence calls for, with its arguments. -/
inductive ControlFunction where
  | cursorUp (n : Nat)
  | cursorDown (n : Nat)
  | cursorForward (n : Nat)
  | cursorBackward (n : Nat)
  | nextLine (n : Nat)
  | precedingLine (n : Nat)
  /-- To a column, counted from one. -/
  | cursorColumn (col : Nat)
  /-- To a row, counted from one. -/
  | cursorRow (row : Nat)
  /-- To a place, counted from one. -/
  | cursorPosition (row col : Nat)
  | forwardTab (n : Nat)
  | backwardTab (n : Nat)
  | eraseInDisplay (extent : Nat) (selective : Bool)
  | eraseInLine (extent : Nat) (selective : Bool)
  | eraseChars (n : Nat)
  | scrollUp (n : Nat)
  | scrollDown (n : Nat)
  | insertLines (n : Nat)
  | deleteLines (n : Nat)
  | insertChars (n : Nat)
  | deleteChars (n : Nat)
  | repeatLast (n : Nat)
  | clearTab (extent : Nat)
  | setMode (modes : List Nat) (on : Bool)
  | setPrivateMode (modes : List Nat) (on : Bool)
  | deviceStatus (request : Nat)
  | privateDeviceStatus (request : Nat)
  | deviceAttributes
  | secondaryAttributes
  | tertiaryAttributes
  /-- From one row to another, counted from one, zero being the default. -/
  | setScrollRegion (top bottom : Nat)
  | saveCursor
  | restoreCursor
  | savePrivateModes (modes : List Nat)
  | restorePrivateModes (modes : List Nat)
  | windowOperation (args : List Nat)
  | cursorStyle (n : Nat)
  | protection (n : Nat)
  | softReset
  | requestMode (mode : Nat)
  | requestPrivateMode (mode : Nat)
  | unknown
deriving DecidableEq, Repr

namespace ControlFunction

/-- The functions without marker and intermediates, by their final character. -/
def ofPlain (p : Params) (final : Char) : ControlFunction :=
  let n := p.positiveD 0 1
  match final with
  | 'A' => .cursorUp n
  | 'B' => .cursorDown n
  | 'e' => .cursorDown n
  | 'C' => .cursorForward n
  | 'a' => .cursorForward n
  | 'D' => .cursorBackward n
  | 'E' => .nextLine n
  | 'F' => .precedingLine n
  | 'G' => .cursorColumn n
  | '\x60' => .cursorColumn n
  | 'd' => .cursorRow n
  | 'H' => .cursorPosition n (p.positiveD 1 1)
  | 'f' => .cursorPosition n (p.positiveD 1 1)
  | 'I' => .forwardTab n
  | 'Z' => .backwardTab n
  | 'J' => .eraseInDisplay (p.getD 0 0) false
  | 'K' => .eraseInLine (p.getD 0 0) false
  | 'X' => .eraseChars n
  | 'S' => .scrollUp n
  | 'T' => .scrollDown n
  | 'L' => .insertLines n
  | 'M' => .deleteLines n
  | '@' => .insertChars n
  | 'P' => .deleteChars n
  | 'b' => .repeatLast n
  | 'g' => .clearTab (p.getD 0 0)
  | 'h' => .setMode p.values true
  | 'l' => .setMode p.values false
  | 'n' => .deviceStatus (p.getD 0 0)
  | 'c' => if p.getD 0 0 = 0 then .deviceAttributes else .unknown
  | 'r' => .setScrollRegion (p.getD 0 0) (p.getD 1 0)
  | 's' => .saveCursor
  | 'u' => .restoreCursor
  | 't' => .windowOperation p.values
  | _ => .unknown

/-- The functions marked by a question mark. -/
def ofPrivate (p : Params) (final : Char) : ControlFunction :=
  match final with
  | 'J' => .eraseInDisplay (p.getD 0 0) true
  | 'K' => .eraseInLine (p.getD 0 0) true
  | 'h' => .setPrivateMode p.values true
  | 'l' => .setPrivateMode p.values false
  | 's' => .savePrivateModes p.values
  | 'r' => .restorePrivateModes p.values
  | 'n' => .privateDeviceStatus (p.getD 0 0)
  | _ => .unknown

/-- The function of a control sequence. -/
def ofSequence (marker : Option Char) (p : Params) (intermediates : List Char) (final : Char) :
    ControlFunction :=
  match marker, intermediates with
  | none, [] => ofPlain p final
  | some '?', [] => ofPrivate p final
  | some '>', [] => if final = 'c' ∧ p.getD 0 0 = 0 then .secondaryAttributes else .unknown
  | some '=', [] => if final = 'c' ∧ p.getD 0 0 = 0 then .tertiaryAttributes else .unknown
  | none, ['$'] => if final = 'p' then .requestMode (p.getD 0 0) else .unknown
  | some '?', ['$'] => if final = 'p' then .requestPrivateMode (p.getD 0 0) else .unknown
  | none, [' '] => if final = 'q' then .cursorStyle (p.getD 0 0) else .unknown
  | none, ['\x22'] => if final = 'q' then .protection (p.getD 0 0) else .unknown
  | none, ['!'] => if final = 'p' then .softReset else .unknown
  | _, _ => .unknown

end ControlFunction

end VideoTerminal
