import VideoTerminal.Color

/-!
# Graphic rendition

How a character is drawn: weight, slant, underline and colors.
-/

namespace VideoTerminal

/-- The line under a character. -/
inductive Underline where
  | single
  | double
  | curly
  | dotted
  | dashed
deriving DecidableEq, Repr

namespace Underline

/-- The style for the number in the second slot of an underline parameter. -/
def ofNumber? : Nat → Option Underline
  | 1 => some .single
  | 2 => some .double
  | 3 => some .curly
  | 4 => some .dotted
  | 5 => some .dashed
  | _ => none

/-- The number of a style. -/
def number : Underline → Nat
  | .single => 1
  | .double => 2
  | .curly => 3
  | .dotted => 4
  | .dashed => 5

end Underline

/-- How a character is drawn. -/
structure Rendition where
  bold : Bool := false
  faint : Bool := false
  italic : Bool := false
  underline : Option Underline := none
  blink : Bool := false
  inverse : Bool := false
  hidden : Bool := false
  strikethrough : Bool := false
  foreground : Option Color := none
  background : Option Color := none
  underlineColor : Option Color := none
deriving DecidableEq, Repr, Inhabited

namespace Rendition

/-- What an erased cell keeps: the background. -/
def erased (r : Rendition) : Rendition := { background := r.background }

end Rendition

end VideoTerminal
