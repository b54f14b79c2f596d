import VideoTerminal.Text.Field
import VideoTerminal.Text.Numeral

/-!
# Colors

The colors a cell can have, and the two forms in which a color is written: six hexadecimal digits
behind a number sign, or three components of one to four digits behind `rgb:`.
-/

namespace VideoTerminal

/-- A color by its three components. -/
structure Rgb where
  red : UInt8
  green : UInt8
  blue : UInt8
deriving DecidableEq, Repr

/-- A color of a cell. -/
inductive Color where
  /-- One of the eight normal and eight bright colors. -/
  | named (n : Fin 16)
  /-- An entry of the palette. -/
  | indexed (n : UInt8)
  /-- A color by its components. -/
  | rgb (c : Rgb)
deriving DecidableEq, Repr

namespace Rgb

/-- The color of six digits. -/
def ofSixDigits? : List Char → Option Rgb
  | [a, b, c, d, e, f] => do
      let r ← Numeral.hex? 255 [a, b]
      let g ← Numeral.hex? 255 [c, d]
      let b ← Numeral.hex? 255 [e, f]
      some ⟨UInt8.ofNat r, UInt8.ofNat g, UInt8.ofNat b⟩
  | _ => none

/-- A component, as a fraction of the largest number with as many digits. -/
def component? (cs : List Char) : Option UInt8 := do
  if cs.length = 0 ∨ 4 < cs.length then none
  else
    let v ← Numeral.hex? 4294967295 cs
    some (UInt8.ofNat (v * 255 / (Nat.pow 16 cs.length - 1)))

/-- The color of three components. -/
def ofComponents? : List (List Char) → Option Rgb
  | [r, g, b] => do some ⟨← component? r, ← component? g, ← component? b⟩
  | _ => none

/-- Reads a written color. -/
def parse? (cs : List Char) : Option Rgb :=
  match cs with
  | '#' :: digits => ofSixDigits? digits
  | _ => (Field.after? ['r', 'g', 'b', ':'] cs).bind fun body => ofComponents? (Field.all '/' body)

/-- Writes a color with four digits to a component, each component twice over. -/
def text (c : Rgb) : List Char :=
  ['r', 'g', 'b', ':'] ++ Numeral.hex4 (c.red.toNat * 257) ++ ['/'] ++
    Numeral.hex4 (c.green.toNat * 257) ++ ['/'] ++ Numeral.hex4 (c.blue.toNat * 257)

end Rgb

end VideoTerminal
