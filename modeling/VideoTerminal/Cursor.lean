/-!
# The cursor
-/

namespace VideoTerminal

/-- The shape in which the cursor is drawn. -/
inductive CursorShape where
  | block
  | underline
  | bar
deriving DecidableEq, Repr

/-- Shape and blinking of the cursor. -/
structure CursorStyle where
  shape : CursorShape := .block
  blinking : Bool := true
deriving DecidableEq, Repr

namespace CursorStyle

/-- The style of a number, zero being the default. -/
def ofNumber? : Nat → Option CursorStyle
  | 0 => some ⟨.block, true⟩
  | 1 => some ⟨.block, true⟩
  | 2 => some ⟨.block, false⟩
  | 3 => some ⟨.underline, true⟩
  | 4 => some ⟨.underline, false⟩
  | 5 => some ⟨.bar, true⟩
  | 6 => some ⟨.bar, false⟩
  | _ => none

/-- The number of a style. -/
def number (s : CursorStyle) : Nat :=
  let steady := if s.blinking then 0 else 1
  match s.shape with
  | .block => 1 + steady
  | .underline => 3 + steady
  | .bar => 5 + steady

end CursorStyle

/-- The cursor: its place, counted from zero, and whether the next character wraps first because
the last one went into the last column. -/
structure Cursor where
  row : Nat := 0
  col : Nat := 0
  pendingWrap : Bool := false
  style : CursorStyle := {}
deriving DecidableEq, Repr

end VideoTerminal
