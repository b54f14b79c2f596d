import VideoTerminal.Rendition
import VideoTerminal.Text.Numeral

/-!
# Writing a rendition

The parameter string that selects a rendition.  It begins with a reset, so that it gives the same
rendition whatever was selected before.
-/

namespace VideoTerminal.Rendition

/-- Numbers with a separator between them. -/
def joined (sep : Char) (ns : List Nat) : List Char :=
  List.intercalate [sep] (ns.map Numeral.decimal)

/-- An extended color behind the parameter that introduces it. -/
def extendedColor (introducer : Nat) : Color → List Nat
  | .named n => [introducer, 5, n.val]
  | .indexed n => [introducer, 5, n.toNat]
  | .rgb c => [introducer, 2, c.red.toNat, c.green.toNat, c.blue.toNat]

/-- A color as parameters: the named ones have parameters of their own, from `normal` and from
`bright` upwards. -/
def colorNumbers (normal bright introducer : Nat) : Color → List Nat
  | .named n => if n.val < 8 then [normal + n.val] else [bright + (n.val - 8)]
  | c => extendedColor introducer c

/-- A parameter that is written only where it holds. -/
def flag (on : Bool) (n : Nat) : List (List Char) := if on then [Numeral.decimal n] else []

/-- The parameter of an underline. -/
def underlineText : Option Underline → List (List Char)
  | none => []
  | some .single => [['4']]
  | some u => [joined ':' [4, u.number]]

/-- The parameters of a color. -/
def colorText (numbers : Color → List Nat) : Option Color → List (List Char)
  | none => []
  | some c => [joined ';' (numbers c)]

/-- The parameters that select the rendition, in order. -/
def pieces (r : Rendition) : List (List Char) :=
  [['0']] ++ flag r.bold 1 ++ flag r.faint 2 ++ flag r.italic 3 ++ underlineText r.underline ++
    flag r.blink 5 ++ flag r.inverse 7 ++ flag r.hidden 8 ++ flag r.strikethrough 9 ++
    colorText (colorNumbers 30 90 38) r.foreground ++
    colorText (colorNumbers 40 100 48) r.background ++
    colorText (extendedColor 58) r.underlineColor

/-- The parameter string that selects the rendition. -/
def encode (r : Rendition) : List Char := List.intercalate [';'] r.pieces

end VideoTerminal.Rendition
