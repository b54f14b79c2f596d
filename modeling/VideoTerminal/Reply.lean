import VideoTerminal.Color
import VideoTerminal.Message
import VideoTerminal.Text.Base64

/-!
# Replies

What the terminal sends back to a program that asked.
-/

namespace VideoTerminal

/-- A reply to a request. -/
inductive Reply where
  /-- The terminal is in order. -/
  | deviceStatus
  /-- The place of the cursor, counted from one. -/
  | cursorPosition (row col : Nat)
  /-- The place of the cursor and the page, which is always the first. -/
  | extendedCursorPosition (row col : Nat)
  /-- The kind of terminal: a VT220 with colors. -/
  | deviceAttributes
  /-- The version of the terminal. -/
  | secondaryAttributes
  /-- The identity of the unit. -/
  | tertiaryAttributes
  /-- The state of a mode: 0 unknown, 1 set, 2 reset. -/
  | modeReport (isPrivate : Bool) (mode value : Nat)
  /-- The size of the text area. -/
  | windowSize (rows cols : Nat)
  /-- The sequence that would select a setting, or none for a setting that is not known. -/
  | statusString (setting : Option (List Char))
  /-- A default color. -/
  | dynamicColor (code : Nat) (color : Rgb) (ending : StringEnd)
deriving DecidableEq, Repr

namespace Reply

/-- The introducer of a control sequence. -/
def csi : List Char := ['\x1b', '[']

/-- The string terminator. -/
def st : List Char := ['\x1b', '\x5c']

/-- The introducer of a device control string. -/
def dcs : List Char := ['\x1b', 'P']

/-- The introducer of a system command. -/
def osc : List Char := ['\x1b', ']']

/-- Two numbers as parameters. -/
def pair (a b : Nat) : List Char := Numeral.decimal a ++ [';'] ++ Numeral.decimal b

/-- The reply as text, without the end of a system command. -/
def text : Reply → List Char
  | .deviceStatus => csi ++ ['0', 'n']
  | .cursorPosition row col => csi ++ pair row col ++ ['R']
  | .extendedCursorPosition row col => csi ++ ['?'] ++ pair row col ++ [';', '1', 'R']
  | .deviceAttributes => csi ++ ['?', '6', '2', ';', '2', '2', 'c']
  | .secondaryAttributes => csi ++ ['>', '1', ';', '1', '0', ';', '0', 'c']
  | .tertiaryAttributes => dcs ++ ['!', '|', '0', '0', '0', '0', '0', '0', '0', '0'] ++ st
  | .modeReport isPrivate mode value =>
      csi ++ (if isPrivate then ['?'] else []) ++ pair mode value ++ ['$', 'y']
  | .windowSize rows cols => csi ++ ['8', ';'] ++ pair rows cols ++ ['t']
  | .statusString (some s) => dcs ++ ['1', '$', 'r'] ++ s ++ st
  | .statusString none => dcs ++ ['0', '$', 'r'] ++ st
  | .dynamicColor code color _ => osc ++ Numeral.decimal code ++ [';'] ++ color.text

/-- The bytes of the reply. -/
def bytes (r : Reply) : List UInt8 :=
  Utf8.encode r.text ++
    match r with
    | .dynamicColor _ _ ending => ending.bytes
    | _ => []

end Reply

/-- The answer to a request for the contents of a clipboard. -/
def clipboardReply (selection : String) (contents : List UInt8) (ending : StringEnd) : List UInt8 :=
  let payload := selection.toList ++ [';'] ++ Base64.encode contents
  Utf8.encode (Reply.osc ++ ['5', '2', ';'] ++ payload) ++ ending.bytes

end VideoTerminal
