import VideoTerminal.Byte
import VideoTerminal.Message

/-!
# The decoder

Splits a stream of bytes into messages, as DEC terminals and ECMA-48 do.  The decoder is the
phase in which the stream stands, and each phase carries what was read for it and nothing else;
so a decoder between two units is the same as a new one.

Bytes are taken one at a time by `step`.  What a byte completes are emissions; `batch` joins the
characters among them into runs of text.
-/

namespace VideoTerminal

/-- What a byte completes. -/
inductive Emission where
  /-- A printable character. -/
  | glyph (c : Char)
  /-- The beginning of a sequence, which ends a run of text. -/
  | cut
  /-- A unit other than text. -/
  | message (m : Message)
deriving DecidableEq, Repr

/-- The body of a string while it is read.  Bytes beyond the limit are not kept, and then the
whole string is void. -/
structure Payload where
  bytes : Array UInt8 := #[]
  overflowed : Bool := false
deriving DecidableEq, Repr

/-- The longest body of a string. -/
def Payload.limit : Nat := 1048576

/-- Takes one more byte of the body. -/
def Payload.push (p : Payload) (b : UInt8) : Payload :=
  if p.bytes.size < Payload.limit then { p with bytes := p.bytes.push b }
  else { p with overflowed := true }

/-- The phase of the stream. -/
inductive Decoder where
  /-- Between units. -/
  | ground
  /-- Inside a character: its bytes so far, and the number of bytes to come. -/
  | character (bytes : List UInt8) (missing : Nat)
  /-- Behind an escape. -/
  | escape
  /-- Behind an escape and intermediates. -/
  | escapeIntermediate (intermediates : List UInt8)
  /-- In the parameters of a control sequence. -/
  | csi (marker : Option UInt8) (params : ParamReader)
  /-- In the intermediates of a control sequence. -/
  | csiIntermediate (marker : Option UInt8) (params : Params) (intermediates : List UInt8)
  /-- In a malformed control sequence. -/
  | csiIgnore
  /-- In a system command. -/
  | osc (payload : Payload)
  /-- Behind an escape in a system command. -/
  | oscEscape (payload : Payload)
  /-- In the header of a device control string. -/
  | dcs (marked : Bool) (params : ParamReader) (intermediates : List UInt8)
  /-- In the data of a device control string. -/
  | dcsData (params : Params) (intermediates : List UInt8) (final : UInt8) (payload : Payload)
  /-- Behind an escape in the data of a device control string. -/
  | dcsEscape (params : Params) (intermediates : List UInt8) (final : UInt8) (payload : Payload)
  /-- In a string whose content is dropped. -/
  | controlString
  /-- Behind an escape in a dropped string. -/
  | controlStringEscape
deriving DecidableEq, Repr

namespace Decoder

/-- The number of intermediates kept. -/
def maxIntermediates : Nat := 4

/-- No unit is under way. -/
def isIdle (d : Decoder) : Bool := d = .ground

/-- A byte between units. -/
def fromGround (b : UInt8) : Decoder × List Emission :=
  if b = Byte.escape then (.escape, [.cut])
  else if Byte.isC0 b || b == Byte.delete then (.ground, [.message (.control b)])
  else if b < 0x80 then (.ground, [.glyph (Char.ofNat b.toNat)])
  else if 0xC2 ≤ b && b ≤ 0xDF then (.character [b] 1, [])
  else if 0xE0 ≤ b && b ≤ 0xEF then (.character [b] 2, [])
  else if 0xF0 ≤ b && b ≤ 0xF4 then (.character [b] 3, [])
  else (.ground, [.glyph Utf8.replacement])

/-- A byte inside a character.  A byte that cannot continue it leaves a replacement character
behind and is taken as if it stood between units. -/
def fromCharacter (bytes : List UInt8) (missing : Nat) (b : UInt8) : Decoder × List Emission :=
  if Utf8.isContinuation b then
    let bytes := bytes ++ [b]
    if missing ≤ 1 then (.ground, [.glyph ((Utf8.decode? bytes).getD Utf8.replacement)])
    else (.character bytes (missing - 1), [])
  else
    let (d, es) := fromGround b
    (d, .glyph Utf8.replacement :: es)

/-- A byte that is no part of the sequence under way.  Controls are executed in the middle of it,
an escape starts anew, and bytes of text end it. -/
def interrupt (d : Decoder) (b : UInt8) : Decoder × List Emission :=
  if b = Byte.escape then (.escape, [])
  else if Byte.isCancel b then (.ground, [])
  else if Byte.isC0 b then (d, [.message (.control b)])
  else if b < 0x80 then (d, [])
  else fromGround b

/-- A byte behind an escape. -/
def fromEscape (b : UInt8) : Decoder × List Emission :=
  if b = 0x5B then (.csi none {}, [])
  else if b = 0x5D then (.osc {}, [])
  else if b = 0x50 then (.dcs false {} [], [])
  else if b = 0x58 || b == 0x5E || b == 0x5F then (.controlString, [])
  else if Byte.isIntermediate b then (.escapeIntermediate [b], [])
  else if Byte.isEscapeFinal b then (.ground, [.message (.esc [b])])
  else interrupt .escape b

/-- Intermediates with one more, as far as there is room. -/
def keepIntermediate (is : List UInt8) (b : UInt8) : List UInt8 :=
  if is.length < maxIntermediates then is ++ [b] else is

/-- A byte behind an escape and intermediates. -/
def fromEscapeIntermediate (is : List UInt8) (b : UInt8) : Decoder × List Emission :=
  if Byte.isIntermediate b then (.escapeIntermediate (keepIntermediate is b), [])
  else if Byte.isEscapeFinal b then (.ground, [.message (.esc (is ++ [b]))])
  else interrupt (.escapeIntermediate is) b

/-- A digit, colon or semicolon of a parameter string. -/
def readParameter? (r : ParamReader) (b : UInt8) : Option ParamReader :=
  if Byte.isDigit b then some (r.digit (b.toNat - 0x30))
  else if b = Byte.colon then some r.closeSlot
  else if b = Byte.semicolon then some r.closeGroup
  else none

/-- A byte in the parameters of a control sequence.  A marker is well formed only in front of
them, and only once. -/
def fromCsi (marker : Option UInt8) (r : ParamReader) (b : UInt8) : Decoder × List Emission :=
  match readParameter? r b with
  | some r' => (.csi marker r', [])
  | none =>
      if Byte.isMarker b then
        if marker.isNone && !r.started then (.csi (some b) r, []) else (.csiIgnore, [])
      else if Byte.isIntermediate b then (.csiIntermediate marker r.params [b], [])
      else if Byte.isFinal b then
        (.ground, [.message (Message.ofControlSequence marker r.params [] b)])
      else interrupt (.csi marker r) b

/-- A byte in the intermediates of a control sequence. -/
def fromCsiIntermediate (marker : Option UInt8) (params : Params) (is : List UInt8) (b : UInt8) :
    Decoder × List Emission :=
  if Byte.isIntermediate b then
    if is.length < maxIntermediates then (.csiIntermediate marker params (is ++ [b]), [])
    else (.csiIgnore, [])
  else if Byte.isParameter b then (.csiIgnore, [])
  else if Byte.isFinal b then (.ground, [.message (Message.ofControlSequence marker params is b)])
  else interrupt (.csiIntermediate marker params is) b

/-- A byte in a malformed control sequence. -/
def fromCsiIgnore (b : UInt8) : Decoder × List Emission :=
  if Byte.isFinal b then (.ground, [])
  else if Byte.isIntermediate b || Byte.isParameter b then (.csiIgnore, [])
  else interrupt .csiIgnore b

/-- What the end of a system command completes. -/
def finishOsc (p : Payload) (ending : StringEnd) : List Emission :=
  if p.overflowed then [] else [.message (Message.ofSystemCommand p.bytes.toList ending)]

/-- A byte in a system command. -/
def fromOsc (p : Payload) (b : UInt8) : Decoder × List Emission :=
  if b = Byte.bell then (.ground, finishOsc p .bel)
  else if b = Byte.escape then (.oscEscape p, [])
  else if Byte.isCancel b then (.ground, [])
  else if Byte.isC0 b then (.osc p, [])
  else (.osc (p.push b), [])

/-- A byte behind an escape that ended a string: either it completes the terminator, or the
escape began a sequence of its own. -/
def afterString (b : UInt8) : Decoder × List Emission :=
  if b = Byte.backslash then (.ground, []) else fromEscape b

/-- A byte behind an escape in a system command. -/
def fromOscEscape (p : Payload) (b : UInt8) : Decoder × List Emission :=
  let (d, es) := afterString b
  (d, finishOsc p .st ++ es)

/-- A byte in the header of a device control string. -/
def fromDcs (marked : Bool) (r : ParamReader) (is : List UInt8) (b : UInt8) :
    Decoder × List Emission :=
  match readParameter? r b with
  | some r' => (.dcs marked r' is, [])
  | none =>
      if Byte.isMarker b then
        if !marked && !r.started then (.dcs true r is, []) else (.controlString, [])
      else if Byte.isIntermediate b then
        if is.length < maxIntermediates then (.dcs marked r.finish (is ++ [b]), [])
        else (.controlString, [])
      else if Byte.isFinal b then (.dcsData r.params is b {}, [])
      else if b = Byte.escape then (.controlStringEscape, [])
      else if Byte.isCancel b then (.ground, [])
      else if b < 0x80 then (.dcs marked r is, [])
      else (.controlString, [])

/-- What the end of a device control string completes. -/
def finishDcs (params : Params) (is : List UInt8) (final : UInt8) (p : Payload) : List Emission :=
  if p.overflowed then [] else [.message (.dcs params is final p.bytes.toList)]

/-- A byte in the data of a device control string. -/
def fromDcsData (params : Params) (is : List UInt8) (final : UInt8) (p : Payload) (b : UInt8) :
    Decoder × List Emission :=
  if b = Byte.escape then (.dcsEscape params is final p, [])
  else if Byte.isCancel b then (.ground, [])
  else if b = Byte.delete then (.dcsData params is final p, [])
  else (.dcsData params is final (p.push b), [])

/-- A byte behind an escape in the data of a device control string. -/
def fromDcsEscape (params : Params) (is : List UInt8) (final : UInt8) (p : Payload) (b : UInt8) :
    Decoder × List Emission :=
  let (d, es) := afterString b
  (d, finishDcs params is final p ++ es)

/-- A byte in a string whose content is dropped. -/
def fromControlString (b : UInt8) : Decoder × List Emission :=
  if b = Byte.escape then (.controlStringEscape, [])
  else if Byte.isCancel b then (.ground, [])
  else (.controlString, [])

/-- Takes one byte. -/
def step (d : Decoder) (b : UInt8) : Decoder × List Emission :=
  match d with
  | .ground => fromGround b
  | .character bytes missing => fromCharacter bytes missing b
  | .escape => fromEscape b
  | .escapeIntermediate is => fromEscapeIntermediate is b
  | .csi marker r => fromCsi marker r b
  | .csiIntermediate marker params is => fromCsiIntermediate marker params is b
  | .csiIgnore => fromCsiIgnore b
  | .osc p => fromOsc p b
  | .oscEscape p => fromOscEscape p b
  | .dcs marked r is => fromDcs marked r is b
  | .dcsData params is final p => fromDcsData params is final p b
  | .dcsEscape params is final p => fromDcsEscape params is final p b
  | .controlString => fromControlString b
  | .controlStringEscape => afterString b

/-- Takes bytes in order and collects what they complete. -/
def feed (d : Decoder) (bytes : List UInt8) : Decoder × Array Emission :=
  bytes.foldl (fun (d, es) b => let (d', fs) := d.step b; (d', es ++ fs)) (d, #[])

/-- What the end of the input completes: strings as if they had been ended, and a replacement
character for one under way.  Other sequences are dropped. -/
def resolve : Decoder → List Emission
  | .character _ _ => [.glyph Utf8.replacement]
  | .osc p | .oscEscape p => finishOsc p .st
  | .dcsData params is final p | .dcsEscape params is final p => finishDcs params is final p
  | _ => []

end Decoder

namespace Emission

/-- The messages so far in reverse, and the open run of text in reverse. -/
structure Batch where
  messages : List Message := []
  run : List Char := []

/-- The messages in reverse, with the open run among them. -/
def Batch.close (b : Batch) : List Message :=
  if b.run = [] then b.messages else .print b.run.reverse :: b.messages

/-- Adds an emission. -/
def Batch.add (b : Batch) : Emission → Batch
  | .glyph c => { b with run := c :: b.run }
  | .cut => { messages := b.close }
  | .message m => { messages := m :: b.close }

/-- Joins characters that follow each other into runs of text. -/
def batch (es : Array Emission) : List Message :=
  (es.foldl Batch.add {}).close.reverse

end Emission

namespace Decoder

/-- Takes bytes and gives the messages they complete.  Text is given out even when more text may
follow. -/
def push (d : Decoder) (bytes : List UInt8) : Decoder × List Message :=
  let (d', es) := d.feed bytes
  (d', Emission.batch es)

/-- Ends the input. -/
def flush (d : Decoder) : Decoder × List Message :=
  (.ground, Emission.batch d.resolve.toArray)

end Decoder

end VideoTerminal
