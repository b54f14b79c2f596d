/-!
# Character sets

The sets that can be designated to the two slots, and the glyphs that they show for characters
received.
-/

namespace VideoTerminal

/-- A designated character set. -/
inductive Charset where
  | ascii
  /-- The line drawing set. -/
  | specialGraphics
  /-- ASCII with a pound sign for the number sign. -/
  | unitedKingdom
deriving DecidableEq, Repr

namespace Charset

/-- The set that the final byte of a designation names. -/
def ofDesignator? (b : UInt8) : Option Charset :=
  if b = 0x42 then some .ascii
  else if b = 0x30 then some .specialGraphics
  else if b = 0x41 then some .unitedKingdom
  else none

/-- The line drawing character of a lower-case letter or a sign near them. -/
def lineDrawing (c : Char) : Char :=
  match c with
  | '\x60' => '◆'
  | 'a' => '▒'
  | 'b' => '␉'
  | 'c' => '␌'
  | 'd' => '␍'
  | 'e' => '␊'
  | 'f' => '°'
  | 'g' => '±'
  | 'h' => '␤'
  | 'i' => '␋'
  | 'j' => '┘'
  | 'k' => '┐'
  | 'l' => '┌'
  | 'm' => '└'
  | 'n' => '┼'
  | 'o' => '⎺'
  | 'p' => '⎻'
  | 'q' => '─'
  | 'r' => '⎼'
  | 's' => '⎽'
  | 't' => '├'
  | 'u' => '┤'
  | 'v' => '┴'
  | 'w' => '┬'
  | 'x' => '│'
  | 'y' => '≤'
  | 'z' => '≥'
  | '\x7b' => 'π'
  | '|' => '≠'
  | '\x7d' => '£'
  | '~' => '·'
  | c => c

/-- The glyph that a set shows for a character. -/
def glyph (s : Charset) (c : Char) : Char :=
  match s with
  | .ascii => c
  | .unitedKingdom => if c = '#' then '£' else c
  | .specialGraphics => lineDrawing c

end Charset

/-- A slot to which a set can be designated. -/
inductive CharsetSlot where
  | g0
  | g1
deriving DecidableEq, Repr

/-- The designated sets, and the slot in use. -/
structure Charsets where
  g0 : Charset := .ascii
  g1 : Charset := .ascii
  active : CharsetSlot := .g0
deriving DecidableEq, Repr

namespace Charsets

/-- Designates a set to a slot. -/
def designate (cs : Charsets) (slot : CharsetSlot) (s : Charset) : Charsets :=
  match slot with
  | .g0 => { cs with g0 := s }
  | .g1 => { cs with g1 := s }

/-- Uses another slot. -/
def shift (cs : Charsets) (slot : CharsetSlot) : Charsets := { cs with active := slot }

/-- The glyph that the slot in use shows for a character. -/
def glyph (cs : Charsets) (c : Char) : Char :=
  match cs.active with
  | .g0 => cs.g0.glyph c
  | .g1 => cs.g1.glyph c

end Charsets

end VideoTerminal
