import VideoTerminal.Rendition

/-!
# Cells

One place of the screen.  A character that is two columns wide fills two cells: the first holds
it, and the second is a continuation of width zero without a character.
-/

namespace VideoTerminal

/-- One place of the screen. -/
structure Cell where
  base : Char := ' '
  /-- The marks that are drawn on the base, in the order they came. -/
  marks : List Char := []
  width : Nat := 1
  rendition : Rendition := {}
  /-- Spared by selective erasing. -/
  isProtected : Bool := false
  /-- The link the cell is part of; zero for none. -/
  link : Nat := 0
deriving DecidableEq, Repr, Inhabited

namespace Cell

/-- The number of marks a cell takes. -/
def maxMarks : Nat := 8

/-- An empty cell with the background of a rendition. -/
def blank (r : Rendition) : Cell := { rendition := r.erased }

/-- The second half of a wide character. -/
def isContinuation (c : Cell) : Bool := c.width == 0

/-- The first half of a wide character. -/
def isWide (c : Cell) : Bool := c.width == 2

/-- The text of a cell; a continuation has none. -/
def text (c : Cell) : List Char := if c.isContinuation then [] else c.base :: c.marks

/-- Puts one more mark on the base, as far as there is room. -/
def addMark (c : Cell) (m : Char) : Cell :=
  if c.marks.length < maxMarks then { c with marks := c.marks ++ [m] } else c

end Cell

end VideoTerminal
