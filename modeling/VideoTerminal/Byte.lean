/-!
# Bytes of control sequences

The classes of bytes that ECMA-48 builds its sequences from, and the names of the controls.
-/

namespace VideoTerminal.Byte

/-- The control that begins every sequence. -/
def escape : UInt8 := 0x1B

/-- The control that rings the bell and may end a system command. -/
def bell : UInt8 := 0x07

/-- The byte that is ignored inside sequences. -/
def delete : UInt8 := 0x7F

/-- The byte that completes a string terminator behind an escape. -/
def backslash : UInt8 := 0x5C

/-- The controls that abandon a sequence: cancel and substitute. -/
def isCancel (b : UInt8) : Bool := b == 0x18 || b == 0x1A

/-- A control of the C0 set. -/
def isC0 (b : UInt8) : Bool := b < 0x20

/-- A byte between the introducer and the final byte that selects a family of functions. -/
def isIntermediate (b : UInt8) : Bool := 0x20 ≤ b && b ≤ 0x2F

/-- A decimal digit of a parameter. -/
def isDigit (b : UInt8) : Bool := 0x30 ≤ b && b ≤ 0x39

/-- The colon between the parts of a parameter. -/
def colon : UInt8 := 0x3A

/-- The semicolon between parameters. -/
def semicolon : UInt8 := 0x3B

/-- One of the four bytes that mark a private parameter string. -/
def isMarker (b : UInt8) : Bool := 0x3C ≤ b && b ≤ 0x3F

/-- Any byte of a parameter string: digit, separator or marker. -/
def isParameter (b : UInt8) : Bool := 0x30 ≤ b && b ≤ 0x3F

/-- The last byte of a control sequence. -/
def isFinal (b : UInt8) : Bool := 0x40 ≤ b && b ≤ 0x7E

/-- The last byte of an escape sequence. -/
def isEscapeFinal (b : UInt8) : Bool := 0x30 ≤ b && b ≤ 0x7E

/-- The mnemonics of the C0 controls, in order. -/
def c0Names : List String :=
  ["NUL", "SOH", "STX", "ETX", "EOT", "ENQ", "ACK", "BEL", "BS", "HT", "LF", "VT", "FF", "CR",
   "SO", "SI", "DLE", "DC1", "DC2", "DC3", "DC4", "NAK", "SYN", "ETB", "CAN", "EM", "SUB", "ESC",
   "FS", "GS", "RS", "US"]

/-- The mnemonic of a control; a question mark for any other byte. -/
def controlName (b : UInt8) : String :=
  if b = delete then "DEL" else c0Names.getD b.toNat "?"

end VideoTerminal.Byte
