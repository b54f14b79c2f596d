import VideoTerminal.Proofs.Machine

/-!
# The decoder in registers

The decoder once more, on a fixed set of registers that all phases share.  A register keeps what
was put into it until something else is put there.  Nothing is cleared on the way back between two
units, so registers that have read something and are idle are in general not those of a new
machine: a marker, a number, half a string or the bytes of a character may be left in them.
-/

namespace VideoTerminal

/-- Where in the stream the registers stand. -/
inductive Phase where
  | ground
  | escape
  | escapeIntermediate
  | csi
  | csiIntermediate
  | csiIgnore
  | osc
  | oscEscape
  | dcs
  | dcsData
  | dcsEscape
  | controlString
  | controlStringEscape
deriving DecidableEq, Repr

namespace Decoder

/-- The phase of the stream alone. -/
def phase : Decoder → Phase
  | .ground | .character _ _ => .ground
  | .escape => .escape
  | .escapeIntermediate _ => .escapeIntermediate
  | .csi _ _ => .csi
  | .csiIntermediate _ _ _ => .csiIntermediate
  | .csiIgnore => .csiIgnore
  | .osc _ => .osc
  | .oscEscape _ => .oscEscape
  | .dcs _ _ _ => .dcs
  | .dcsData _ _ _ _ => .dcsData
  | .dcsEscape _ _ _ _ => .dcsEscape
  | .controlString => .controlString
  | .controlStringEscape => .controlStringEscape

/-- What can be asked of a decoder. -/
inductive Call where
  | push (bytes : List UInt8)
  | flush

/-- The effect of a call. -/
def call (d : Decoder) : Call → Decoder × List Message
  | .push bytes => d.push bytes
  | .flush => d.flush

end Decoder

/-- The registers.  The buffer holds the bytes of a character under way, of which `length` have
come and `needed` are needed; none are needed if no character is under way.  The text is the open
run of printable characters. -/
structure Registers where
  phase : Phase := .ground
  marker : Option UInt8 := none
  intermediates : List UInt8 := []
  params : ParamReader := {}
  final : UInt8 := 0
  payload : Payload := {}
  buffer : Vector UInt8 4 := Vector.replicate 4 0
  length : Nat := 0
  needed : Nat := 0
  text : List Char := []
deriving DecidableEq

namespace Registers

/-- No sequence and no character is under way. -/
def isIdle (r : Registers) : Bool := r.phase = .ground && r.needed = 0

/-! ## Steps -/

/-- Goes into a phase.  The other registers are left as they are. -/
def enter (r : Registers) (phase : Phase) : Registers := { r with phase }

/-- Gives out the open run of text. -/
def flushText (r : Registers) : Registers × List Message :=
  ({ r with text := [] }, if r.text = [] then [] else [.print r.text])

/-- Gives out a message behind the open run of text. -/
def emit (r : Registers) (m : Message) : Registers × List Message :=
  let (r, out) := r.flushText
  (r, out ++ [m])

/-- Adds a character to the open run of text. -/
def glyph (r : Registers) (c : Char) : Registers := { r with text := r.text ++ [c] }

/-- Clears what belongs to a sequence. -/
def clearSequence (r : Registers) : Registers :=
  { r with marker := none, intermediates := [], params := {} }

/-- Clears what belongs to a string. -/
def clearString (r : Registers) : Registers := { r with payload := {} }

/-- Takes the sequence out.  The open slots of the parameters stay as they are. -/
def takeSequence (r : Registers) : Registers :=
  { r with marker := none, intermediates := [], params := { r.params with groups := [] } }

/-- Takes the string out. -/
def takeString (r : Registers) : Registers :=
  { r with payload := { r.payload with bytes := #[] } }

/-- Begins an escape sequence. -/
def enterEscape (r : Registers) : Registers := (r.enter .escape).clearSequence

/-- Begins a character. -/
def startCharacter (r : Registers) (b : UInt8) (needed : Nat) : Registers :=
  { r with buffer := r.buffer.setIfInBounds 0 b, length := 1, needed }

/-- Puts a byte behind those of the character under way. -/
def continueCharacter (r : Registers) (b : UInt8) : Registers :=
  { r with buffer := r.buffer.setIfInBounds r.length b, length := r.length + 1 }

/-- Leaves the character under way. -/
def endCharacter (r : Registers) : Registers := { r with length := 0, needed := 0 }

/-- The bytes of the character under way. -/
def characterBytes (r : Registers) : List UInt8 := r.buffer.toList.take r.length

/-- A byte between two units. -/
def between (r : Registers) (b : UInt8) : Registers × List Message :=
  if b = Byte.escape then
    let (r, out) := r.flushText
    (r.enterEscape, out)
  else if Byte.isC0 b || b == Byte.delete then r.emit (.control b)
  else if b < 0x80 then (r.glyph (Char.ofNat b.toNat), [])
  else if 0xC2 ≤ b && b ≤ 0xDF then (r.startCharacter b 2, [])
  else if 0xE0 ≤ b && b ≤ 0xEF then (r.startCharacter b 3, [])
  else if 0xF0 ≤ b && b ≤ 0xF4 then (r.startCharacter b 4, [])
  else (r.glyph Utf8.replacement, [])

/-- A byte inside a character. -/
def fromCharacter (r : Registers) (b : UInt8) : Registers × List Message :=
  if Utf8.isContinuation b then
    let r := r.continueCharacter b
    if r.length = r.needed then
      (r.endCharacter.glyph ((Utf8.decode? r.characterBytes).getD Utf8.replacement), [])
    else (r, [])
  else (r.endCharacter.glyph Utf8.replacement).between b

/-- A byte outside all sequences. -/
def ground (r : Registers) (b : UInt8) : Registers × List Message :=
  if 0 < r.needed then r.fromCharacter b else r.between b

/-- A byte that is no part of the sequence under way. -/
def interrupt (r : Registers) (b : UInt8) : Registers × List Message :=
  if b = Byte.escape then (r.enterEscape, [])
  else if Byte.isCancel b then (r.enter .ground, [])
  else if Byte.isC0 b then r.emit (.control b)
  else if b < 0x80 then (r, [])
  else (r.enter .ground).ground b

/-- A byte behind an escape. -/
def fromEscape (r : Registers) (b : UInt8) : Registers × List Message :=
  if b = 0x5B then (r.clearSequence.enter .csi, [])
  else if b = 0x5D then (r.clearString.enter .osc, [])
  else if b = 0x50 then (r.clearSequence.clearString.enter .dcs, [])
  else if b = 0x58 || b == 0x5E || b == 0x5F then (r.enter .controlString, [])
  else if Byte.isIntermediate b then
    ({ r with intermediates := r.intermediates ++ [b] }.enter .escapeIntermediate, [])
  else if Byte.isEscapeFinal b then (r.enter .ground, [.esc [b]])
  else r.interrupt b

/-- A byte behind an escape and intermediates. -/
def fromEscapeIntermediate (r : Registers) (b : UInt8) : Registers × List Message :=
  if Byte.isIntermediate b then
    ({ r with intermediates := Decoder.keepIntermediate r.intermediates b }, [])
  else if Byte.isEscapeFinal b then
    ({ r with intermediates := [] }.enter .ground, [.esc (r.intermediates ++ [b])])
  else r.interrupt b

/-- Gives out a control sequence. -/
def dispatchCsi (r : Registers) (final : UInt8) : Registers × List Message :=
  (r.takeSequence.enter .ground).emit
    (Message.ofControlSequence r.marker ⟨r.params.groups⟩ r.intermediates final)

/-- A byte in the parameters of a control sequence. -/
def fromCsi (r : Registers) (b : UInt8) : Registers × List Message :=
  match Decoder.readParameter? r.params b with
  | some params => ({ r with params }, [])
  | none =>
      if Byte.isMarker b then
        if r.marker.isNone && !r.params.started then ({ r with marker := some b }, [])
        else (r.enter .csiIgnore, [])
      else if Byte.isIntermediate b then
        ({ r with params := r.params.finish, intermediates := r.intermediates ++ [b] }.enter
          .csiIntermediate, [])
      else if Byte.isFinal b then { r with params := r.params.finish }.dispatchCsi b
      else r.interrupt b

/-- A byte in the intermediates of a control sequence. -/
def fromCsiIntermediate (r : Registers) (b : UInt8) : Registers × List Message :=
  if Byte.isIntermediate b then
    if r.intermediates.length < Decoder.maxIntermediates then
      ({ r with intermediates := r.intermediates ++ [b] }, [])
    else (r.enter .csiIgnore, [])
  else if Byte.isParameter b then (r.enter .csiIgnore, [])
  else if Byte.isFinal b then r.dispatchCsi b
  else r.interrupt b

/-- A byte in a malformed control sequence. -/
def fromCsiIgnore (r : Registers) (b : UInt8) : Registers × List Message :=
  if Byte.isFinal b then (r.enter .ground, [])
  else if Byte.isIntermediate b || Byte.isParameter b then (r, [])
  else r.interrupt b

/-- Gives out a system command, unless it was too long. -/
def dispatchOsc (r : Registers) (ending : StringEnd) : Registers × List Message :=
  if r.payload.overflowed then (r.clearString, [])
  else r.takeString.emit (Message.ofSystemCommand r.payload.bytes.toList ending)

/-- A byte in a system command. -/
def fromOsc (r : Registers) (b : UInt8) : Registers × List Message :=
  if b = Byte.bell then
    let (r, out) := r.dispatchOsc .bel
    (r.enter .ground, out)
  else if b = Byte.escape then (r.enter .oscEscape, [])
  else if Byte.isCancel b then (r.clearString.enter .ground, [])
  else if Byte.isC0 b then (r, [])
  else ({ r with payload := r.payload.push b }, [])

/-- A byte behind an escape that ended a string. -/
def afterString (r : Registers) (b : UInt8) : Registers × List Message :=
  if b = Byte.backslash then (r.enter .ground, []) else r.enterEscape.fromEscape b

/-- A byte behind an escape in a system command. -/
def fromOscEscape (r : Registers) (b : UInt8) : Registers × List Message :=
  let (r, out) := r.dispatchOsc .st
  let (r, rest) := r.afterString b
  (r, out ++ rest)

/-- A byte in the header of a device control string. -/
def fromDcs (r : Registers) (b : UInt8) : Registers × List Message :=
  match Decoder.readParameter? r.params b with
  | some params => ({ r with params }, [])
  | none =>
      if Byte.isMarker b then
        if r.marker.isNone && !r.params.started then ({ r with marker := some b }, [])
        else (r.enter .controlString, [])
      else if Byte.isIntermediate b then
        let r := { r with params := r.params.finish }
        if r.intermediates.length < Decoder.maxIntermediates then
          ({ r with intermediates := r.intermediates ++ [b] }, [])
        else (r.enter .controlString, [])
      else if Byte.isFinal b then
        ({ r with params := r.params.finish, final := b }.enter .dcsData, [])
      else if b = Byte.escape then (r.enter .controlStringEscape, [])
      else if Byte.isCancel b then (r.enter .ground, [])
      else if b < 0x80 then (r, [])
      else (r.enter .controlString, [])

/-- Gives out a device control string, unless it was too long. -/
def dispatchDcs (r : Registers) : Registers × List Message :=
  if r.payload.overflowed then (r.clearString, [])
  else r.takeSequence.takeString.emit
    (.dcs ⟨r.params.groups⟩ r.intermediates r.final r.payload.bytes.toList)

/-- A byte in the data of a device control string. -/
def fromDcsData (r : Registers) (b : UInt8) : Registers × List Message :=
  if b = Byte.escape then (r.enter .dcsEscape, [])
  else if Byte.isCancel b then (r.clearString.enter .ground, [])
  else if b = Byte.delete then (r, [])
  else ({ r with payload := r.payload.push b }, [])

/-- A byte behind an escape in the data of a device control string. -/
def fromDcsEscape (r : Registers) (b : UInt8) : Registers × List Message :=
  let (r, out) := r.dispatchDcs
  let (r, rest) := r.afterString b
  (r, out ++ rest)

/-- A byte in a string whose content is dropped. -/
def fromControlString (r : Registers) (b : UInt8) : Registers × List Message :=
  if b = Byte.escape then (r.enter .controlStringEscape, [])
  else if Byte.isCancel b then (r.enter .ground, [])
  else (r, [])

/-- Takes one byte. -/
def step (r : Registers) (b : UInt8) : Registers × List Message :=
  match r.phase with
  | .ground => r.ground b
  | .escape => r.fromEscape b
  | .escapeIntermediate => r.fromEscapeIntermediate b
  | .csi => r.fromCsi b
  | .csiIntermediate => r.fromCsiIntermediate b
  | .csiIgnore => r.fromCsiIgnore b
  | .osc => r.fromOsc b
  | .oscEscape => r.fromOscEscape b
  | .dcs => r.fromDcs b
  | .dcsData => r.fromDcsData b
  | .dcsEscape => r.fromDcsEscape b
  | .controlString => r.fromControlString b
  | .controlStringEscape => r.afterString b

/-- Takes bytes and gives the messages they complete. -/
def push (r : Registers) (bytes : List UInt8) : Registers × List Message :=
  let (r, out) := Machine.run step r bytes
  let (r, rest) := r.flushText
  (r, out ++ rest)

/-- What the end of the input completes.  Registers of other sequences keep their content. -/
def resolve (r : Registers) : Registers × List Message :=
  match r.phase with
  | .osc | .oscEscape => r.dispatchOsc .st
  | .dcsData | .dcsEscape => r.dispatchDcs
  | _ => (r, [])

/-- Ends the input. -/
def flush (r : Registers) : Registers × List Message :=
  let r := if 0 < r.needed then r.endCharacter.glyph Utf8.replacement else r
  let (r, out) := r.resolve
  let (r, rest) := (r.enter .ground).flushText
  (r, out ++ rest)

/-- The effect of a call. -/
def call (r : Registers) : Decoder.Call → Registers × List Message
  | .push bytes => r.push bytes
  | .flush => r.flush

end Registers

end VideoTerminal
