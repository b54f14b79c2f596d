import VideoTerminal.Params
import VideoTerminal.Text.Utf8
import VideoTerminal.Text.Field

/-!
# Messages

The units into which a stream of bytes falls: text, controls and whole sequences.
-/

namespace VideoTerminal

/-- How a system command was ended.  A reply to it ends in the same way. -/
inductive StringEnd where
  | bel
  | st
deriving DecidableEq, Repr

/-- The bytes that end a string. -/
def StringEnd.bytes : StringEnd → List UInt8
  | .bel => [0x07]
  | .st => [0x1B, 0x5C]

/-- One complete unit of input. -/
inductive Message where
  /-- A run of printable characters. -/
  | print (text : List Char)
  /-- A control of the C0 set, or delete. -/
  | control (byte : UInt8)
  /-- A control sequence, other than a plain selection of graphic rendition. -/
  | csi (marker : Option UInt8) (params : Params) (intermediates : List UInt8) (final : UInt8)
  /-- A selection of graphic rendition. -/
  | sgr (params : Params)
  /-- An operating system command: its number, if it has one, and the text behind it. -/
  | osc (code : Option Nat) (data : String) (ending : StringEnd)
  /-- An escape sequence: intermediates and the final byte. -/
  | esc (sequence : List UInt8)
  /-- A device control string. -/
  | dcs (params : Params) (intermediates : List UInt8) (final : UInt8) (data : List UInt8)
deriving DecidableEq, Repr

namespace Message

/-- The message of a complete control sequence. -/
def ofControlSequence (marker : Option UInt8) (params : Params) (intermediates : List UInt8)
    (final : UInt8) : Message :=
  if final = 0x6D ∧ marker = none ∧ intermediates = [] then .sgr params
  else .csi marker params intermediates final

/-- The message of a complete system command.  What stands before the first semicolon is its
number if it is a numeral; otherwise the whole text is data without a number. -/
def ofSystemCommand (bytes : List UInt8) (ending : StringEnd) : Message :=
  let text := Utf8.decodeLossy bytes
  let (head, rest) := (Field.splitFirst? ';' text).getD (text, [])
  match Numeral.decimal? Params.maxValue head with
  | some n => .osc (some n) (String.ofList rest) ending
  | none => .osc none (String.ofList text) ending

end Message

end VideoTerminal
