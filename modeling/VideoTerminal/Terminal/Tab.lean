import VideoTerminal.Terminal

/-!
# Tabulation
-/

namespace VideoTerminal.Terminal

/-- The first column with a stop among `n` columns from `col` on, or else the one behind them. -/
def firstStop (stops : Array Bool) : (n col : Nat) → Nat
  | 0, col => col
  | n + 1, col => if stops.getD col false then col else firstStop stops n (col + 1)

/-- The next column with a stop behind a column, or else the last column. -/
def nextStop (stops : Array Bool) (last col : Nat) : Nat :=
  if last ≤ col then last else firstStop stops (last - (col + 1)) (col + 1)

/-- The next column with a stop before a column, or else the first column. -/
def previousStop (stops : Array Bool) : (col : Nat) → Nat
  | 0 => 0
  | col + 1 => if stops.getD col false then col else previousStop stops col

/-- Forward by `n` stops. -/
def forwardTab (t : Terminal) (n : Nat) : Terminal :=
  t.moveTo t.cursor.row (Nat.repeat (nextStop t.tabStops (t.cols - 1)) n t.cursor.col)

/-- Backward by `n` stops. -/
def backwardTab (t : Terminal) (n : Nat) : Terminal :=
  t.moveTo t.cursor.row (Nat.repeat (previousStop t.tabStops) n t.cursor.col)

/-- Sets a stop at the cursor. -/
def setTabStop (t : Terminal) : Terminal :=
  { t with tabStops := t.tabStops.setIfInBounds t.cursor.col true }

/-- Clears the stop at the cursor (0) or all stops (3). -/
def clearTabStop (t : Terminal) (extent : Nat) : Terminal :=
  match extent with
  | 0 => { t with tabStops := t.tabStops.setIfInBounds t.cursor.col false }
  | 3 => { t with tabStops := t.tabStops.map fun _ => false }
  | _ => t

end VideoTerminal.Terminal
