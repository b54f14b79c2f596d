import VideoTerminal.Session

/-!
# Line disciplines

What stands between the input of a terminal device and the command that reads it.  It collects
the input into lines, lets the line that is being typed be edited, and echoes what is typed, so
that it shows on the screen; controls are echoed in caret notation.  The keys are those that a
new device comes with.  Complete lines stay until they are read, and here nobody reads them, so in
the end there is no room for more.
-/

namespace VideoTerminal

/-- What a byte of input does. -/
inductive LineKey where
  /-- It belongs to the line. -/
  | text
  /-- It ends the line. -/
  | newline
  /-- It hands over the line as it is; an empty one means that the input ends. -/
  | endOfInput
  | erase
  | eraseWord
  | eraseLine
  /-- The byte behind it belongs to the line, whatever it is. -/
  | literal
  /-- The line is shown once more. -/
  | reprint
  /-- Output is held back. -/
  | pause
  /-- Output goes on. -/
  | resume
  /-- It discards the line and sends a signal, which may end the command. -/
  | signal (endsCommand : Bool)
deriving DecidableEq, Repr

/-- The meaning of a byte. -/
def LineKey.ofByte (b : UInt8) : LineKey :=
  match b with
  | 0x03 | 0x1C => .signal true
  | 0x04 => .endOfInput
  | 0x0A | 0x0D => .newline
  | 0x11 => .resume
  | 0x12 => .reprint
  | 0x13 => .pause
  | 0x15 => .eraseLine
  | 0x16 => .literal
  | 0x17 => .eraseWord
  | 0x1A => .signal false
  | 0x7F => .erase
  | _ => .text

/-- The line that is being typed, and its echo on the way to the screen. -/
structure LineDiscipline where
  /-- The number of bytes in complete lines, which nobody has read. -/
  unread : Nat := 0
  line : Array UInt8 := #[]
  /-- The column where the line begins. -/
  start : Nat := 0
  /-- Whether the next byte belongs to the line whatever it is. -/
  isLiteral : Bool := false
  isPaused : Bool := false
  /-- Whether a signal has ended the command. -/
  isEnded : Bool := false
  /-- The echo that has not been sent, as it is while output is held back. -/
  echo : Array UInt8 := #[]
  /-- The column behind everything that was sent. -/
  column : Nat := 0
  /-- What was sent and not yet read. -/
  output : Array UInt8 := #[]
deriving DecidableEq, Repr

namespace LineDiscipline

/-- The control that moves to the next tab stop, and is echoed as it is. -/
def tab : UInt8 := 0x09

/-- The control that moves back by one column. -/
def backspace : UInt8 := 0x08

/-- The echo of a byte of a line: a control shows as a caret and the character 64 places on. -/
def echoOf (b : UInt8) : List UInt8 :=
  if (Byte.isC0 b || b == Byte.delete) && b != tab then [0x5E, b ^^^ 0x40] else [b]

/-- The echo of the end of a line. -/
def lineEnd : List UInt8 := [0x0D, 0x0A]

/-- The column behind a byte that is echoed in a column. -/
def columnAfter (column : Nat) (b : UInt8) : Nat :=
  if b = tab then column + (8 - column % 8) else column + (echoOf b).length

/-- The column behind the line. -/
def lineColumn (d : LineDiscipline) : Nat := d.line.foldl columnAfter d.start

/-- A byte of a word: a letter of Latin-1, a digit or the underscore. -/
def isWord (b : UInt8) : Bool :=
  (0x30 ≤ b && b ≤ 0x39) || (0x41 ≤ b && b ≤ 0x5A) || (0x61 ≤ b && b ≤ 0x7A) || b == 0x5F ||
    (0xC0 ≤ b && b != 0xD7 && b != 0xF7)

/-- Echoes bytes. -/
def emit (d : LineDiscipline) (bytes : List UInt8) : LineDiscipline :=
  { d with echo := d.echo ++ bytes }

/-- Adds a byte to the line. -/
def add (d : LineDiscipline) (b : UInt8) : LineDiscipline :=
  { d with line := d.line.push b }.emit (echoOf b)

/-- The echo that wipes out a byte in a column. -/
def wiped (column : Nat) (b : UInt8) : List UInt8 :=
  if b = tab then List.replicate (columnAfter column b - column) backspace
  else (echoOf b).flatMap fun _ => [backspace, 0x20, backspace]

/-- Takes the last byte from the line and wipes it out where it was echoed. -/
def erase (d : LineDiscipline) : LineDiscipline :=
  match d.line.back? with
  | none => d
  | some b =>
      let d := { d with line := d.line.pop }
      d.emit (wiped (if b = tab then d.lineColumn else 0) b)

/-- Takes several bytes from the line. -/
def eraseMany (d : LineDiscipline) : Nat → LineDiscipline
  | 0 => d
  | n + 1 => d.erase.eraseMany n

/-- The number of bytes in the last word of the line and in what follows it. -/
def lastWord (d : LineDiscipline) : Nat :=
  let bytes := d.line.toList.reverse
  let behind := (bytes.takeWhile fun b => !isWord b).length
  behind + ((bytes.drop behind).takeWhile isWord).length

/-- Completes the line, together with the byte that ends it, and begins the next in a column. -/
def complete (d : LineDiscipline) (start : Nat) : LineDiscipline :=
  { d with unread := d.unread + d.line.size + 1, line := #[], start }

/-- Sends the echo. -/
def send (d : LineDiscipline) : LineDiscipline :=
  { d with echo := #[], column := d.lineColumn, output := d.output ++ d.echo }

/-- The number of bytes that there is room for. -/
def capacity : Nat := 4095

/-- Makes room for one byte more, if that can be done: a line that is full loses its last byte,
but lines that are complete stay. -/
def makeRoom? (d : LineDiscipline) : Option LineDiscipline :=
  if d.unread + d.line.size < capacity then some d
  else if d.unread = 0 then some { d with line := d.line.take capacity }
  else none

/-- What a byte does for which there is room.  A signal drops the lines that nobody has read, and
all echo before its own. -/
def act (d : LineDiscipline) (b : UInt8) : LineDiscipline :=
  if d.isLiteral then { d with isLiteral := false }.add b
  else
    match LineKey.ofByte b with
    | .text => d.add b
    | .newline => (d.emit lineEnd).complete 0
    | .endOfInput => d.complete d.lineColumn
    | .erase => d.erase
    | .eraseWord => d.eraseMany d.lastWord
    | .eraseLine => d.eraseMany d.line.size
    | .literal => { d with isLiteral := true }.emit [0x5E, backspace]
    | .reprint =>
        { d with start := 0 }.emit (echoOf b ++ lineEnd ++ d.line.toList.flatMap echoOf)
    | .pause => { d with isPaused := true }
    | .resume => { d with isPaused := false }.send
    | .signal ends =>
        { d with
          unread := 0, line := #[], start := d.column + 2, isPaused := false,
          isEnded := d.isEnded || ends, echo := (echoOf b).toArray, output := #[] }

/-- Takes a byte of input.  Where there is no room it is lost. -/
def receive (d : LineDiscipline) (b : UInt8) : LineDiscipline :=
  match d.makeRoom? with
  | some d => d.act b
  | none => d

/-- Takes input, and sends its echo. -/
def receiveAll (d : LineDiscipline) (bytes : List UInt8) : LineDiscipline :=
  let d := bytes.foldl receive d
  if d.isPaused then d else d.send

/-- Reads what was sent. -/
def read (d : LineDiscipline) : LineDiscipline × List UInt8 :=
  ({ d with output := #[] }, d.output.toList)

/-- Nothing more is going to be typed: the input ends a line, so that what follows stands alone, and
then itself. -/
def hangUp (d : LineDiscipline) : LineDiscipline := d.receiveAll [0x0A, 0x04]

instance : TerminalDevice LineDiscipline where
  receive := receiveAll
  hangUp := hangUp
  read := read
  hasEnded := isEnded

end LineDiscipline

end VideoTerminal
