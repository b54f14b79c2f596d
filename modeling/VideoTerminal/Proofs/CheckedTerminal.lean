import VideoTerminal.Proofs.CheckedRows
import VideoTerminal.Proofs.WideCharacters

/-!
# A terminal with checks

Motion, scrolling, editing and printing once more, with a check wherever columns and rows are added
to or taken from, and wherever a row or the grid is cut.  Columns and rows are words of 16 bits.

On a well-formed terminal there is no fault, and each operation gives what it gives without checks:
the cursor is on the grid, the region is too, every row is as long as the screen is wide, and no
screen is so large that a place beside it would not fit into its word.
-/

namespace VideoTerminal.Terminal

open Checked

/-! ## The shown screen -/

/-- Changes the screen that is shown by a step. -/
def checkedOnScreen (t : Terminal) (f : Screen → Checked Screen) : Checked Terminal := do
  let s ← f t.screen
  return t.onScreen fun _ => s

/-- Changes `n` rows from `first` on, each by a step. -/
def checkedRows (t : Terminal) (first n : Nat) (f : Row → Checked Row) : Checked Terminal :=
  t.checkedOnScreen fun s => do return { s with grid := ← overRange f first n s.grid }

/-- Scrolls the region. -/
def checkedScroll (t : Terminal) (n : Nat) (dir : Direction) : Checked Terminal :=
  t.checkedOnScreen (·.checkedScroll t.region.top t.region.bottom n dir t.blank)

/-! ## Motion -/

/-- One column to the left, or out of the wrap that is due. -/
def checkedBackspace (t : Terminal) : Checked Terminal := do
  if t.cursor.pendingWrap then return t.clearPending
  else if 0 < t.cursor.col then return t.moveTo t.cursor.row (← sub t.cursor.col 1)
  else return t

/-- One row down, scrolling at the bottom of the region. -/
def checkedIndex (t : Terminal) : Checked Terminal := do
  let t := t.clearPending
  if t.cursor.row = t.region.bottom then t.checkedScroll 1 .up
  else
    let next ← add 16 t.cursor.row 1
    return if next < t.rows then t.moveTo next t.cursor.col else t

/-- One row up, scrolling at the top of the region. -/
def checkedReverseIndex (t : Terminal) : Checked Terminal := do
  let t := t.clearPending
  if t.cursor.row = t.region.top then t.checkedScroll 1 .down
  else if 0 < t.cursor.row then return t.moveTo (← sub t.cursor.row 1) t.cursor.col
  else return t

/-- One row down, and to the first column if the mode asks for it. -/
def checkedLinefeed (t : Terminal) : Checked Terminal := do
  let t ← t.checkedIndex
  return if t.modes.linefeedNewline then t.carriageReturn else t

/-- To the first column of the next row; the row that is left goes on there. -/
def checkedWrapLine (t : Terminal) : Checked Terminal :=
  ((t.onScreen (·.markWrapped t.cursor.row)).moveTo t.cursor.row 0).checkedIndex

/-- The place of the cursor as it is reported. -/
def checkedPosition (t : Terminal) : Checked (Nat × Nat) := do
  let top := if t.modes.origin then t.region.top else 0
  return (← add 16 (← sub t.cursor.row (min top t.cursor.row)) 1, ← add 16 t.cursor.col 1)

/-- Sets the region of both screens from rows counted from one. -/
def checkedScrollRegion (t : Terminal) (top bottom : Nat) : Checked Terminal := do
  let first ← sub (max top 1) 1
  let stop := if bottom = 0 then t.rows else min bottom t.rows
  if stop = 0 then return t
  else
    let last ← sub stop 1
    if last < first then return t
    else
      let r : Region := ⟨first, last⟩
      let t := { t with primary := t.primary.setRegion r, alternate := t.alternate.setRegion r }
      return t.setPosition 0 0

/-! ## Erasing, inserting and deleting -/

/-- Erases columns of the cursor row. -/
def checkedEraseColumns (t : Terminal) (start stop : Nat) (selective : Bool) : Checked Terminal :=
  t.checkedRows t.cursor.row 1 fun r => r.checkedErase t.blank start stop t.cols selective

/-- Erases whole rows, from `first` up to `stop`. -/
def checkedEraseRows (t : Terminal) (first stop : Nat) (selective : Bool) : Checked Terminal :=
  t.checkedRows first (stop - first) fun r => r.checkedErase t.blank 0 t.cols t.cols selective

/-- Erases in the row of the cursor. -/
def checkedEraseInLine (t : Terminal) (extent : Nat) (selective : Bool) : Checked Terminal :=
  clearPending <$> match extent with
    | 0 => t.checkedEraseColumns t.cursor.col t.cols selective
    | 1 => do t.checkedEraseColumns 0 (← add 16 t.cursor.col 1) selective
    | 2 => t.checkedEraseColumns 0 t.cols selective
    | _ => pure t

/-- Erases on the screen. -/
def checkedEraseInDisplay (t : Terminal) (extent : Nat) (selective : Bool) : Checked Terminal :=
  let row := t.cursor.row
  clearPending <$> match extent with
    | 0 => do
        (← t.checkedEraseInLine 0 selective).checkedEraseRows (← add 16 row 1) t.rows selective
    | 1 => do (← t.checkedEraseRows 0 row selective).checkedEraseInLine 1 selective
    | 2 => t.checkedEraseRows 0 t.rows selective
    | 3 => pure (t.onScreen Screen.clearHistory)
    | _ => pure t

/-- Erases `n` cells from the cursor on. -/
def checkedEraseChars (t : Terminal) (n : Nat) : Checked Terminal := do
  let t ← t.checkedEraseColumns t.cursor.col (min (t.cursor.col + n) t.cols) false
  return t.clearPending

/-- Changes the row of the cursor, if the cursor stands on a cell. -/
def checkedEdit (t : Terminal) (f : Row → Checked Row) : Checked Terminal := do
  if t.isOnGrid then return (← t.checkedRows t.cursor.row 1 f).clearPending else return t

/-- Inserts `n` blank cells at the cursor. -/
def checkedInsertChars (t : Terminal) (n : Nat) : Checked Terminal :=
  t.checkedEdit (·.checkedInsert t.blank t.cursor.col n)

/-- Deletes `n` cells at the cursor. -/
def checkedDeleteChars (t : Terminal) (n : Nat) : Checked Terminal :=
  t.checkedEdit (·.checkedDelete t.blank t.cursor.col n)

/-- Shifts the rows from the cursor to the bottom of the region, if the cursor is in it. -/
def checkedShiftFromCursor (t : Terminal) (n : Nat) (dir : Direction) : Checked Terminal := do
  if t.cursor.row < t.region.top ∨ t.region.bottom < t.cursor.row then return t
  else
    let t ← t.checkedOnScreen (·.checkedShiftRows t.cursor.row t.region.bottom n dir t.blank)
    return t.carriageReturn

/-! ## Printing -/

/-- Puts a mark on the character before the cursor. -/
def checkedMark (t : Terminal) (c : Char) : Checked Terminal := do
  if ¬t.cursor.pendingWrap ∧ t.cursor.col = 0 then return t
  else
    let col ← stepIf (¬t.cursor.pendingWrap) (sub · 1) t.cursor.col
    let col ← stepIf (0 < col ∧ (t.screen.cell? t.cursor.row col).any Cell.isContinuation)
      (sub · 1) col
    return t.onCursorRow (·.modify col (·.addMark c))

/-- Makes room for a wide character in the last column. -/
def checkedRoom (t : Terminal) (width : Nat) : Checked Terminal := do
  if width = 2 then
    if t.cols ≤ (← add 16 t.cursor.col 1) then
      if t.modes.autowrap then t.checkedWrapLine
      else
        let col ← sub t.cols 2
        return t.onCursor ({ · with col })
    else return t
  else return t

/-- Blanks the halves that are left of wide characters when a character is overwritten. -/
def checkedOverwrite (t : Terminal) (width : Nat) : Checked Terminal := do
  let row := t.cursor.row
  let col := t.cursor.col
  let blank := t.blank
  let t ← stepIf (0 < col ∧ (t.screen.cell? row col).any Cell.isContinuation)
    (fun t => do
      let before ← sub col 1
      return t.onScreen (·.put row before blank)) t
  let last ← sub (← add 16 col width) 1
  stepIf ((t.screen.cell? row last).any Cell.isWide)
    (fun t => do
      let behind ← add 16 last 1
      return t.onScreen (·.put row behind blank)) t

/-- Writes a character at the cursor. -/
def checkedWriteGlyph (t : Terminal) (c : Char) (width : Nat) : Checked Terminal := do
  let row := t.cursor.row
  let col := t.cursor.col
  let glyph := t.glyph c width
  let continuation := t.glyph ' ' 0
  let t ← t.checkedOverwrite width
  let t := t.onScreen (·.put row col glyph)
  stepIf (width = 2)
    (fun t => do
      let next ← add 16 col 1
      return t.onScreen (·.put row next continuation)) t

/-- Moves the cursor behind a character. -/
def checkedAdvance (t : Terminal) (width : Nat) : Checked Terminal := do
  let next ← add 16 t.cursor.col width
  if t.cols ≤ next then
    let col ← sub t.cols 1
    return t.onCursor ({ · with col, pendingWrap := t.modes.autowrap })
  else return t.onCursor ({ · with col := next, pendingWrap := false })

/-- Prints a character of a width that the screen has room for. -/
def checkedPlace (t : Terminal) (c : Char) (width : Nat) : Checked Terminal := do
  let t ← stepIf (t.cursor.pendingWrap && t.modes.autowrap) checkedWrapLine t
  let t ← t.checkedRoom width
  let t ← stepIf t.modes.insert (checkedInsertChars · width) t
  let t ← t.checkedWriteGlyph c width
  let t ← t.checkedAdvance width
  return { t with lastPrinted := some c }

/-- Prints a character. -/
def checkedPrint (t : Terminal) (c : Char) : Checked Terminal :=
  let c := t.charsets.glyph c
  match Width.columns? c with
  | none => pure t
  | some 0 => t.checkedMark c
  | some w => if t.cols < min w 2 then pure t else t.checkedPlace c (min w 2)

/-- Prints the last character `n` times more, at most as often as the screen has cells. -/
def checkedRepeat (t : Terminal) (n : Nat) : Checked Terminal := do
  match t.lastPrinted with
  | some c => iterate (·.checkedPrint c) (min n (← mul 64 t.cols t.rows)) t
  | none => return t

/-! ## Without faults: the shown screen -/

/-- What passes its checks on the shown screen passes them in the terminal. -/
theorem checkedOnScreen_eq {t : Terminal} {f : Screen → Checked Screen} {g : Screen → Screen}
    (h : f t.screen = pure (g t.screen)) : t.checkedOnScreen f = pure (t.onScreen g) := by
  rw [checkedOnScreen, h, pure_bind]
  congr 1
  rw [onScreen, onScreen, screen]
  split <;> rfl

/-- Moving the cursor to where it is changes nothing unless a wrap is due. -/
theorem moveTo_self {t : Terminal} (hpending : t.cursor.pendingWrap = false) :
    t.moveTo t.cursor.row t.cursor.col = t := by
  rw [moveTo, onCursor, ← hpending]

/-- One column is only taken from a column that is not the first. -/
theorem checkedBackspace_eq (t : Terminal) : t.checkedBackspace = pure t.backspace := by
  rw [checkedBackspace, backspace]
  split
  · rfl
  · rename_i hpending
    split
    · rename_i hcol
      rw [sub_eq hcol, pure_bind]
    · -- in the first column the cursor stays where it is
      rename_i hcol
      have hself := moveTo_self (Bool.eq_false_iff.mpr hpending)
      rw [Nat.eq_zero_of_not_pos hcol] at hself ⊢
      rw [hself]

/-- The bounds are cut before they are compared, so no difference is negative. -/
theorem checkedScrollRegion_eq (t : Terminal) (top bottom : Nat) :
    t.checkedScrollRegion top bottom = pure (t.setScrollRegion top bottom) := by
  rw [checkedScrollRegion, setScrollRegion, sub_eq (Nat.le_max_right _ _), pure_bind]
  generalize (if bottom = 0 then t.rows else min bottom t.rows) = stop
  dsimp only
  by_cases hstop : stop = 0
  · rw [if_pos hstop, if_pos (.inl hstop)]
  · rw [if_neg hstop, sub_eq (Nat.pos_of_ne_zero hstop), pure_bind]
    by_cases hrows : stop - 1 < max top 1 - 1
    · rw [if_pos hrows, if_pos (.inr hrows)]
    · rw [if_neg hrows, if_neg (not_or.mpr ⟨hstop, hrows⟩)]

namespace WellFormed

variable {limit : Nat} {t : Terminal} (h : t.WellFormed limit)

include h

/-- The grid has fewer rows than a word can count. -/
theorem size_grid_lt : t.screen.grid.size < 2 ^ 64 := by
  have hrows : t.rows ≤ 1000 := h.rows_le
  rw [h.size_grid]
  omega

/-- Rows of the right length are changed by a step without a fault. -/
theorem checkedRows {f : Row → Checked Row} {g : Row → Row}
    (hf : ∀ r : Row, r.Fits Cell.FewMarks t.cols → f r = pure (g r))
    (hg : ∀ r : Row, r.Fits Cell.FewMarks t.cols → (g r).Fits Cell.FewMarks t.cols)
    (first n : Nat) :
    t.checkedRows first n f
      = pure (t.onScreen fun s => { s with grid := modifyRange g first n s.grid }) := by
  obtain ⟨limit, hscreen⟩ := h.exists_screen
  refine checkedOnScreen_eq ?_
  rw [Safe.overRange ⟨hf, hg⟩ hscreen.grid, pure_bind]

/-- The rows of the region are those of the grid. -/
theorem checkedScroll (n : Nat) (dir : Direction) :
    t.checkedScroll n dir = pure (t.scroll n dir) :=
  checkedOnScreen_eq (g := (·.scroll t.region.top t.region.bottom n dir t.blank))
    (Screen.checkedScroll_eq _ _ _ _ _ _ h.size_grid_lt)

/-! ## Without faults: motion -/

/-- The row below the cursor has a number. -/
theorem add_row : add 16 t.cursor.row 1 = pure (t.cursor.row + 1) := by
  have hrow := h.cursor.1
  have hrows : t.rows ≤ 1000 := h.rows_le
  exact add_eq (by omega)

/-- A place at most two columns behind the cursor has a number. -/
theorem add_col {n : Nat} (hn : n ≤ 2) : add 16 t.cursor.col n = pure (t.cursor.col + n) := by
  have hcol := h.cursor.2
  have hcols : t.cols ≤ 2000 := h.cols_le
  exact add_eq (by omega)

/-- The row below is only looked for above the last row. -/
theorem checkedIndex : t.checkedIndex = pure t.index := by
  dsimp only [Terminal.checkedIndex, Terminal.index]
  split
  · exact h.clearPending.checkedScroll 1 .up
  · rw [h.clearPending.add_row, pure_bind]

/-- The row above is only looked for below the first. -/
theorem checkedReverseIndex : t.checkedReverseIndex = pure t.reverseIndex := by
  dsimp only [Terminal.checkedReverseIndex, Terminal.reverseIndex]
  split
  · exact h.clearPending.checkedScroll 1 .down
  · split
    · rename_i hrow
      rw [sub_eq hrow, pure_bind]
    · rename_i hrow
      have hzero : t.clearPending.cursor.row = 0 := Nat.eq_zero_of_not_pos hrow
      have hself := moveTo_self (t := t.clearPending) rfl
      rw [hzero] at hself ⊢
      rw [hself]

/-- A line feed needs no checks but those of the index. -/
theorem checkedLinefeed : t.checkedLinefeed = pure t.linefeed := by
  rw [Terminal.checkedLinefeed, h.checkedIndex, pure_bind]
  rfl

/-- The row that wraps is one of the grid. -/
theorem checkedWrapLine : t.checkedWrapLine = pure t.wrapLine := by
  have hmarked := h.onScreen (f := (·.markWrapped t.cursor.row)) fun hs => hs.markWrapped _
  have hrow := hmarked.cursor.1
  rw [onScreen_cursor] at hrow
  exact (hmarked.moveTo hrow hmarked.cols_pos).checkedIndex

/-- The row that is reported is counted from a top that is not below the cursor. -/
theorem checkedPosition : t.checkedPosition = pure t.reportedPosition := by
  have hrow := h.cursor.1
  have hrows : t.rows ≤ 1000 := h.rows_le
  rw [Terminal.checkedPosition, reportedPosition]
  generalize (if t.modes.origin then t.region.top else 0) = top
  have hdistance : t.cursor.row - min top t.cursor.row = t.cursor.row - top := by omega
  rw [sub_eq (Nat.min_le_right _ _), pure_bind, add_eq (by omega), pure_bind,
    h.add_col (by omega), pure_bind, hdistance]

/-! ### Erasing, inserting and deleting -/

/-- The columns of the range are cells of the row. -/
theorem checkedEraseColumns (start stop : Nat) (selective : Bool) :
    t.checkedEraseColumns start stop selective = pure (t.eraseColumns start stop selective) :=
  h.checkedRows (g := (·.erase t.blank start stop selective))
    (fun r hr => r.checkedErase_eq _ _ _ _ hr.size)
    (fun _ hr => hr.erase (Cell.heldByBlanks_fewMarks _) start stop selective) t.cursor.row 1

/-- The rows of the range are rows of the grid. -/
theorem checkedEraseRows (first stop : Nat) (selective : Bool) :
    t.checkedEraseRows first stop selective = pure (t.eraseRows first stop selective) :=
  h.checkedRows (g := (·.erase t.blank 0 t.cols selective))
    (fun r hr => r.checkedErase_eq _ _ _ _ hr.size)
    (fun _ hr => hr.erase (Cell.heldByBlanks_fewMarks _) 0 t.cols selective) first (stop - first)

/-- Where the range begins and ends depends on the cursor, which is within the row. -/
theorem checkedEraseInLine (extent : Nat) (selective : Bool) :
    t.checkedEraseInLine extent selective = pure (t.eraseInLine extent selective) := by
  match extent with
  | 0 =>
      show Terminal.clearPending <$> t.checkedEraseColumns t.cursor.col t.cols selective = _
      rw [h.checkedEraseColumns]
      rfl
  | 1 =>
      show Terminal.clearPending <$> (do t.checkedEraseColumns 0 (← add 16 t.cursor.col 1) _) = _
      rw [h.add_col (by omega), pure_bind, h.checkedEraseColumns]
      rfl
  | 2 =>
      show Terminal.clearPending <$> t.checkedEraseColumns 0 t.cols selective = _
      rw [h.checkedEraseColumns]
      rfl
  | _ + 3 => rfl

/-- The same for the rows above and below. -/
theorem checkedEraseInDisplay (extent : Nat) (selective : Bool) :
    t.checkedEraseInDisplay extent selective = pure (t.eraseInDisplay extent selective) := by
  match extent with
  | 0 =>
      show Terminal.clearPending <$> (do
        (← t.checkedEraseInLine 0 selective).checkedEraseRows (← add 16 t.cursor.row 1) _ _) = _
      rw [h.checkedEraseInLine, pure_bind, h.add_row, pure_bind,
        (h.eraseInLine 0 selective).checkedEraseRows]
      rfl
  | 1 =>
      show Terminal.clearPending <$> (do
        (← t.checkedEraseRows 0 t.cursor.row selective).checkedEraseInLine 1 selective) = _
      rw [h.checkedEraseRows, pure_bind, (h.eraseRows 0 t.cursor.row selective).checkedEraseInLine]
      rfl
  | 2 =>
      show Terminal.clearPending <$> t.checkedEraseRows 0 t.rows selective = _
      rw [h.checkedEraseRows]
      rfl
  | 3 => rfl
  | _ + 4 => rfl

/-- The end of the range is cut to the row before it is added. -/
theorem checkedEraseChars (n : Nat) : t.checkedEraseChars n = pure (t.eraseChars n) := by
  rw [Terminal.checkedEraseChars, h.checkedEraseColumns, pure_bind]
  rfl

/-- Editing the row of the cursor needs the checks of the row only. -/
theorem checkedEdit {f : Row → Checked Row} {g : Row → Row}
    (hf : ∀ r : Row, r.Fits Cell.FewMarks t.cols → f r = pure (g r))
    (hg : ∀ r : Row, r.Fits Cell.FewMarks t.cols → (g r).Fits Cell.FewMarks t.cols) :
    t.checkedEdit f
      = pure (if t.isOnGrid then (t.onCursorRow g).clearPending else t) := by
  rw [Terminal.checkedEdit]
  split
  · rw [h.checkedRows hf hg, pure_bind]
    rfl
  · rfl

/-- Cells that are pushed out are not looked at. -/
theorem checkedInsertChars (n : Nat) : t.checkedInsertChars n = pure (t.insertChars n) := by
  have hcol := h.cursor.2
  have hcols : t.cols ≤ 2000 := h.cols_le
  refine h.checkedEdit (g := (·.insert t.blank t.cursor.col n)) ?_ ?_
  · intro r hr
    have hsize : r.cells.size = t.cols := hr.size
    exact r.checkedInsert_eq _ n (by omega) (by omega)
  · exact fun _ hr => hr.insert (Cell.heldByBlanks_fewMarks _) _ n

/-- Cells beyond the end are not fetched. -/
theorem checkedDeleteChars (n : Nat) : t.checkedDeleteChars n = pure (t.deleteChars n) := by
  have hcol := h.cursor.2
  refine h.checkedEdit (g := (·.delete t.blank t.cursor.col n)) ?_ ?_
  · intro r hr
    have hsize : r.cells.size = t.cols := hr.size
    exact r.checkedDelete_eq _ n (by omega)
  · exact fun _ hr => hr.delete (Cell.heldByBlanks_fewMarks _) _ n

/-- Lines are shifted within the rest of the region. -/
theorem checkedShiftFromCursor (n : Nat) (dir : Direction) :
    t.checkedShiftFromCursor n dir = pure (t.shiftFromCursor n dir) := by
  have hshift := Screen.checkedShiftRows_eq t.screen t.cursor.row t.region.bottom n dir t.blank
    h.size_grid_lt
  rw [Terminal.checkedShiftFromCursor, Terminal.shiftFromCursor]
  split
  · rfl
  · rw [checkedOnScreen_eq (g := (·.shiftRows t.cursor.row t.region.bottom n dir t.blank)) hshift,
      pure_bind]

end WellFormed

/-! ## Without faults: printing -/

/-- A test of a cell that may not be there. -/
theorem any_eq_getD (p : Cell → Bool) (c : Option Cell) : c.any p = (c.map p).getD false := by
  cases c <;> rfl

/-- A difference that is only formed where it is positive. -/
theorem stepIf_sub {p : Prop} [Decidable p] {a : Nat} (h : p → 0 < a) :
    stepIf p (sub · 1) a = pure (if p then a - 1 else a) :=
  stepIf_eq (f := (sub · 1)) fun hp => sub_eq (h hp)

/-- The column before the cursor is a cell of the row, if there is one. -/
theorem checkedMark_eq (t : Terminal) (c : Char) : t.checkedMark c = pure (t.addMark c) := by
  -- in the first column there is nothing to the left
  by_cases hfirst : ¬t.cursor.pendingWrap = true ∧ t.cursor.col = 0
  · rw [checkedMark, if_pos hfirst, addMark, previousColumn?, if_neg hfirst.1, if_pos hfirst.2]
    rfl
  · have hleft : ¬t.cursor.pendingWrap = true → 0 < t.cursor.col := by
      intro hpending
      exact Nat.pos_of_ne_zero fun hcol => hfirst ⟨hpending, hcol⟩
    have hcolumn : (if t.cursor.pendingWrap = true then some t.cursor.col
          else if t.cursor.col = 0 then none else some (t.cursor.col - 1))
        = some (if ¬t.cursor.pendingWrap = true then t.cursor.col - 1 else t.cursor.col) := by
      by_cases hpending : t.cursor.pendingWrap = true
      · rw [if_pos hpending, if_neg (not_not.mpr hpending)]
      · rw [if_neg hpending, if_neg (Nat.ne_of_gt (hleft hpending)), if_pos hpending]
    rw [checkedMark, if_neg hfirst, stepIf_sub hleft, pure_bind, stepIf_sub And.left, pure_bind,
      addMark, previousColumn?, hcolumn, any_eq_getD]
    simp only [Option.map_some, Bool.and_eq_true, decide_eq_true_eq]

/-! ### The row of the cursor

While a character is written the terminal is the one before with another row at the cursor.
-/

/-- The terminal with another row where the cursor is. -/
def withRow (t : Terminal) (r : Row) : Terminal := t.onCursorRow fun _ => r

/-- Only the outcome of the last change of a row counts. -/
theorem modifyRow_const (s : Screen) (row : Nat) (r : Row) (f : Row → Row) :
    (s.modifyRow row fun _ => r).modifyRow row f = s.modifyRow row fun _ => f r := by
  have hgrid : (s.grid.modify row fun _ => r).modify row f = s.grid.modify row fun _ => f r := by
    apply Array.ext_getElem?
    intro i
    simp only [Array.getElem?_modify]
    split
    · rw [Option.map_map]
      rfl
    · rfl
  rw [Screen.modifyRow, Screen.modifyRow, Screen.modifyRow, hgrid]

/-- A change of the row of the cursor changes the row that has been fetched. -/
theorem onCursorRow_withRow (t : Terminal) (r : Row) (f : Row → Row) :
    (t.withRow r).onCursorRow f = t.withRow (f r) := by
  rw [withRow, withRow, onCursorRow, onCursorRow, onCursorRow, onScreen_cursor, onScreen_onScreen]
  simp only [modifyRow_const]

/-- So the fetched row may be changed in its place. -/
theorem onCursorRow_eq {t : Terminal} {r : Row} (hr : t.screen.grid[t.cursor.row]? = some r)
    (f : Row → Row) : t.onCursorRow f = t.withRow (f r) := by
  have hgrid : t.screen.grid.modify t.cursor.row f
      = t.screen.grid.modify t.cursor.row fun _ => f r := by
    apply Array.ext_getElem?
    intro i
    simp only [Array.getElem?_modify]
    split
    · rename_i hi
      rw [← hi, hr]
      rfl
    · rfl
  rw [onCursorRow, withRow, onCursorRow]
  refine onScreen_congr ?_
  rw [Screen.modifyRow, Screen.modifyRow, hgrid]

/-- The terminal as it is has the row it has. -/
theorem withRow_self {t : Terminal} {r : Row} (hr : t.screen.grid[t.cursor.row]? = some r) :
    t.withRow r = t := by
  have hid : t.onCursorRow id = t.withRow r := onCursorRow_eq hr id
  have hself : t.screen.modifyRow t.cursor.row id = t.screen := by
    have hgrid : t.screen.grid.modify t.cursor.row id = t.screen.grid := by
      apply Array.ext_getElem?
      intro i
      simp [Array.getElem?_modify]
    rw [Screen.modifyRow, hgrid]
  rw [← hid, onCursorRow, onScreen_congr (g := id) hself, onScreen_id]

/-- A cell of the row of the cursor is one of the fetched row. -/
theorem cell?_withRow {t : Terminal} {r : Row} (hrow : t.cursor.row < t.screen.grid.size)
    (col : Nat) : (t.withRow r).screen.cell? t.cursor.row col = r.cells[col]? := by
  rw [withRow, onCursorRow, screen_onScreen, Screen.cell?, Screen.modifyRow]
  simp [hrow, Array.getElem_modify]

/-- A cell is put into the fetched row. -/
theorem put_withRow (t : Terminal) (r : Row) (col : Nat) (c : Cell) :
    (t.withRow r).onScreen (·.put t.cursor.row col c) = t.withRow (r.put col c) := by
  rw [← onCursorRow_withRow t r (·.put col c), onCursorRow, withRow, onCursorRow, onScreen_cursor]
  rfl

/-- A cell of the row of the cursor is replaced under a condition. -/
theorem stepIf_put {p : Prop} [Decidable p] (t : Terminal) (r : Row) {col : Checked Nat}
    {i : Nat} (hcol : p → col = pure i) (c : Cell) :
    stepIf p (fun u => do return u.onScreen (·.put t.cursor.row (← col) c)) (t.withRow r)
      = pure (t.withRow
          { r with cells := if p then r.cells.setIfInBounds i c else r.cells }) := by
  have hput : p → (do return (t.withRow r).onScreen (·.put t.cursor.row (← col) c))
      = (pure (t.withRow (r.put i c)) : Checked Terminal) := by
    intro hp
    rw [hcol hp, pure_bind, put_withRow]
  rw [stepIf_eq hput]
  split <;> rfl

/-- The halves that are mended are cells of the row, and the columns behind the character are words.
    -/
theorem checkedOverwrite_eq {t : Terminal} {r : Row}
    (hr : t.screen.grid[t.cursor.row]? = some r) {width : Nat} (hwidth : 0 < width)
    (hword : t.cursor.col + width < 2 ^ 16) :
    t.checkedOverwrite width = pure (t.withRow { r with
      cells := Row.mendAround t.blank t.cursor.col (t.cursor.col + width - 1) r.cells }) := by
  obtain ⟨hrow, -⟩ := Array.getElem?_eq_some_iff.mp hr
  have hcell : t.screen.cell? t.cursor.row t.cursor.col = r.cells[t.cursor.col]? := by
    rw [Screen.cell?, hr, Option.bind_some]
  -- the first half of a character of which the cursor stands on the second
  have hbefore := stepIf_put t r (c := t.blank) (i := t.cursor.col - 1)
    (p := 0 < t.cursor.col ∧ (t.screen.cell? t.cursor.row t.cursor.col).any Cell.isContinuation)
    fun h => sub_eq h.1
  rw [withRow_self hr, hcell, any_eq_getD] at hbefore
  rw [checkedOverwrite, hcell, any_eq_getD, hbefore, pure_bind, add_eq hword, pure_bind,
    sub_eq (by omega), pure_bind]
  -- the second half of one of which the last column that is written holds the first
  rw [cell?_withRow hrow, any_eq_getD, stepIf_put t _ fun _ => add_eq (by omega)]
  simp only [Row.mendAround, Row.continuesAt, Row.isWideAt, Bool.and_eq_true, decide_eq_true_eq]

/-- The cells of a glyph are looked up one by one, the last of them behind a wide character. -/
theorem checkedWriteGlyph_eq {t : Terminal} {r : Row}
    (hr : t.screen.grid[t.cursor.row]? = some r) (c : Char) {width : Nat}
    (hwidth : width = 1 ∨ width = 2) (hword : t.cursor.col + 2 < 2 ^ 16) :
    t.checkedWriteGlyph c width = pure (t.writeGlyph c width) := by
  have hnext : add 16 t.cursor.col 1 = pure (t.cursor.col + 1) := add_eq (by omega)
  rw [checkedWriteGlyph, checkedOverwrite_eq hr (by omega) (by omega), pure_bind]
  dsimp only
  rw [put_withRow, stepIf_put t _ fun _ => hnext, writeGlyph, onCursorRow_eq hr]
  congr 2
  obtain rfl | rfl := hwidth
  · rfl
  · rfl

namespace WellFormed

variable {limit : Nat} {t : Terminal} (h : t.WellFormed limit)

include h

/-- The wrap that is due has its checks. -/
theorem checkedTakeWrap :
    stepIf (t.cursor.pendingWrap && t.modes.autowrap) Terminal.checkedWrapLine t
      = pure t.takeWrap := by
  rw [stepIf_eq fun _ => h.checkedWrapLine]
  rfl

/-- There are at least as many columns as the character is wide. -/
theorem checkedRoom {width : Nat} (hwidth : width ≤ t.cols) :
    t.checkedRoom width = pure (t.makeRoom width) := by
  rw [Terminal.checkedRoom, Terminal.makeRoom]
  by_cases hwide : width = 2
  · rw [if_pos hwide, h.add_col (by omega), pure_bind]
    by_cases hend : t.cols ≤ t.cursor.col + 1
    · have hboth : width = 2 ∧ t.cols ≤ t.cursor.col + 1 := ⟨hwide, hend⟩
      rw [if_pos hend, if_pos hboth, h.checkedWrapLine, sub_eq (by omega), pure_bind]
      split <;> rfl
    · rw [if_neg hend, if_neg fun hboth => hend hboth.2]
  · rw [if_neg hwide, if_neg fun hboth => hwide hboth.1]

/-- The gap is as wide as the character. -/
theorem checkedGap (width : Nat) :
    stepIf t.modes.insert (Terminal.checkedInsertChars · width) t = pure (t.makeGap width) := by
  rw [stepIf_eq (f := (Terminal.checkedInsertChars · width)) fun _ => h.checkedInsertChars width]
  rfl

/-- The columns of the glyph are words, since the grid has at most 2000 columns. -/
theorem checkedWriteGlyph (c : Char) {width : Nat} (hwidth : width = 1 ∨ width = 2) :
    t.checkedWriteGlyph c width = pure (t.writeGlyph c width) := by
  have hcol := h.cursor.2
  have hcols : t.cols ≤ 2000 := h.cols_le
  have hrow : t.cursor.row < t.screen.grid.size := h.size_grid ▸ h.cursor.1
  exact checkedWriteGlyph_eq (Array.getElem?_eq_getElem hrow) c hwidth (by omega)

/-- The cursor goes no further than the last column. -/
theorem checkedAdvance {width : Nat} (hwidth : width ≤ 2) :
    t.checkedAdvance width = pure (t.advance width) := by
  rw [Terminal.checkedAdvance, h.add_col hwidth, pure_bind, sub_eq h.cols_pos, pure_bind,
    Terminal.advance]
  split <;> rfl

/-- All steps of writing a character pass their checks. -/
theorem checkedPlace (c : Char) {width : Nat} (hwidth : width = 1 ∨ width = 2)
    (hcols : width ≤ t.cols) : t.checkedPlace c width = pure (t.place c width) := by
  have hwrapped := h.takeWrap
  have hroom := hwrapped.makeRoom width
  have hgap := hroom.makeGap width
  have hwritten := hgap.writeGlyph c width
  rw [Terminal.checkedPlace, h.checkedTakeWrap, pure_bind,
    hwrapped.checkedRoom (takeWrap_cols t ▸ hcols), pure_bind, hroom.checkedGap, pure_bind,
    hgap.checkedWriteGlyph c hwidth, pure_bind, hwritten.checkedAdvance (by omega), pure_bind]
  rfl

/-- Whatever the character: a mark, one that is not shown, or one that has a place. -/
theorem checkedPrint (c : Char) : t.checkedPrint c = pure (t.print c) := by
  dsimp only [Terminal.checkedPrint, Terminal.print]
  match Width.columns? (t.charsets.glyph c) with
  | none => rfl
  | some 0 => exact checkedMark_eq t _
  | some (width + 1) =>
      show (if t.cols < min (width + 1) 2 then _ else _)
        = pure (if t.cols < min (width + 1) 2 then _ else _)
      split
      · rfl
      · exact h.checkedPlace _ (by omega) (by omega)

/-- The count of repetitions is cut before it is used. -/
theorem checkedRepeat (n : Nat) : t.checkedRepeat n = pure (t.repeatLast n) := by
  have hcells : t.cols * t.rows ≤ 2000 * 1000 := Nat.mul_le_mul h.cols_le h.rows_le
  rw [Terminal.checkedRepeat, Terminal.repeatLast]
  cases t.lastPrinted with
  | some c =>
      have hprint : Safe (WellFormed limit) (·.checkedPrint c) (·.print c) :=
        ⟨fun _ ht => ht.checkedPrint c, fun _ ht => ht.print c⟩
      dsimp only
      rw [mul_eq (by omega), pure_bind, hprint.iterate h]
  | none => rfl

end WellFormed

end VideoTerminal.Terminal
