import VideoTerminal.Terminal.Print
import VideoTerminal.Terminal.Reset
import VideoTerminal.Terminal.SetMode
import VideoTerminal.Terminal.Tab
import VideoTerminal.Terminal.Title
import VideoTerminal.Proofs.ScreenShape

/-!
# The shape of a terminal

What every operation on a terminal keeps: both screens well formed for the size of the terminal
and scrolling in one region, every cursor that is kept in use on the grid, one tab stop flag to a
column, and bounded histories, marks and titles.

There is one lemma for each operation.  Operations that act on the shown screen or move the cursor
go through `onScreen` and `moveTo`; those that leave size, screens, cursors, stops and titles alone
keep every field of `WellFormed` as it is.
-/

namespace VideoTerminal

/-- What one application of a function keeps, any number of them keeps. -/
theorem repeat_invariant {α : Type} {I : α → Prop} {f : α → α} (hf : ∀ a, I a → I (f a)) {a : α}
    (h : I a) (n : Nat) : I (Nat.repeat f n a) := by
  induction n with
  | zero => exact h
  | succ n ih => exact hf _ ih

/-- A cell carries at most as many marks as a cell takes. -/
def Cell.FewMarks (c : Cell) : Prop := c.marks.length ≤ Cell.maxMarks

/-- A blank cell has no marks at all. -/
theorem Cell.heldByBlanks_fewMarks : Cell.HeldByBlanks Cell.FewMarks := fun _ => Nat.zero_le _

/-- A mark that would be one too many is dropped. -/
theorem Cell.FewMarks.addMark {c : Cell} (h : c.FewMarks) (m : Char) : (c.addMark m).FewMarks := by
  rw [Cell.addMark]
  split
  · rename_i hroom
    show (c.marks ++ [m]).length ≤ maxMarks
    rw [List.length_append]
    exact hroom
  · exact h

/-- The cursor stands on a grid of `cols` times `rows` cells. -/
def Cursor.Within (cols rows : Nat) (c : Cursor) : Prop := c.row < rows ∧ c.col < cols

namespace Terminal

/-- What holds of a terminal at any time; `limit` is the number of rows its history may have. -/
structure WellFormed (limit : Nat) (t : Terminal) : Prop where
  size : t.size.isValid = true
  primary : t.primary.WellFormed Cell.FewMarks t.cols t.rows t.primary.region limit
  alternate : t.alternate.WellFormed Cell.FewMarks t.cols t.rows t.primary.region 0
  region : t.primary.region.Within t.rows
  cursor : t.cursor.Within t.cols t.rows
  primaryCursor : ∀ c ∈ t.primaryCursor, c.Within t.cols t.rows
  tabStops : t.tabStops.size = t.cols
  titles : t.titleStack.length ≤ titleDepth

variable {limit : Nat} {t : Terminal}

/-- A new terminal fills its size with blank rows and has the cursor in the corner. -/
theorem wellFormed_new {cols rows : Nat} (hsize : (Size.mk cols rows).isValid = true)
    (limit : Nat) (sgr21 : Sgr21) : (new cols rows limit sgr21).WellFormed limit := by
  have hpos : 0 < cols ∧ 0 < rows := by
    simp only [Size.isValid, Bool.and_eq_true, decide_eq_true_eq] at hsize
    omega
  have hempty := Screen.wellFormed_empty Cell.heldByBlanks_fewMarks cols rows
  exact {
    size := hsize
    primary := hempty limit
    alternate := hempty 0
    region := Screen.within_wholeRegion hpos.2
    cursor := ⟨hpos.2, hpos.1⟩
    primaryCursor := by
      intro c hc
      exact absurd hc (Option.not_mem_none c)
    tabStops := by
      show ((Array.range cols).map isDefaultStop).size = cols
      rw [Array.size_map, Array.size_range]
    titles := Nat.zero_le _ }

/-- What is done to the screen leaves the cursor alone. -/
@[simp] theorem onScreen_cursor (t : Terminal) (f : Screen → Screen) :
    (t.onScreen f).cursor = t.cursor := by
  rw [onScreen]
  split <;> rfl

/-- What is done to the screen is done to the one that is shown. -/
theorem screen_onScreen (t : Terminal) (f : Screen → Screen) :
    (t.onScreen f).screen = f t.screen := by
  by_cases hshown : t.modes.alternateScreen = true
  · simp [onScreen, screen, hshown]
  · simp [onScreen, screen, hshown]

/-- Two changes of the screen in a row are one. -/
theorem onScreen_onScreen (t : Terminal) (f g : Screen → Screen) :
    (t.onScreen f).onScreen g = t.onScreen fun s => g (f s) := by
  by_cases hshown : t.modes.alternateScreen = true
  · simp [onScreen, hshown]
  · simp [onScreen, hshown]

/-- The identity changes nothing. -/
theorem onScreen_id (t : Terminal) : t.onScreen id = t := by
  rw [onScreen]
  split <;> rfl

/-- Only what an operation makes of the shown screen counts. -/
theorem onScreen_congr {t : Terminal} {f g : Screen → Screen} (h : f t.screen = g t.screen) :
    t.onScreen f = t.onScreen g := by
  by_cases hshown : t.modes.alternateScreen = true
  · simpa [onScreen, screen, hshown] using h
  · simpa [onScreen, screen, hshown] using h

namespace WellFormed

/-- No terminal is without columns. -/
theorem cols_pos (h : t.WellFormed limit) : 0 < t.cols := Nat.zero_lt_of_lt h.cursor.2

/-- No terminal is without rows. -/
theorem rows_pos (h : t.WellFormed limit) : 0 < t.rows := Nat.zero_lt_of_lt h.cursor.1

/-- The rows are bounded by the largest size. -/
theorem rows_le (h : t.WellFormed limit) : t.rows ≤ Size.maxRows := by
  have hsize := h.size
  simp only [Size.isValid, Bool.and_eq_true] at hsize
  exact of_decide_eq_true hsize.2

/-- So are the columns. -/
theorem cols_le (h : t.WellFormed limit) : t.cols ≤ Size.maxCols := by
  have hsize := h.size
  simp only [Size.isValid, Bool.and_eq_true] at hsize
  exact of_decide_eq_true hsize.1.1.2

/-- The shown screen is well-formed; how long its history may be depends on which screen it is. -/
theorem exists_screen (h : t.WellFormed limit) : ∃ n,
    t.screen.WellFormed Cell.FewMarks t.cols t.rows t.primary.region n := by
  rw [screen]
  split
  · exact ⟨0, h.alternate⟩
  · exact ⟨limit, h.primary⟩

/-- The grid has as many rows as the terminal. -/
theorem size_grid (h : t.WellFormed limit) : t.screen.grid.size = t.rows := by
  obtain ⟨n, hscreen⟩ := h.exists_screen
  exact hscreen.grid.size

/-- Every row of the grid has as many cells as the terminal has columns. -/
theorem size_row (h : t.WellFormed limit) {r : Row} (hr : r ∈ t.screen.grid) :
    r.cells.size = t.cols := by
  obtain ⟨n, hscreen⟩ := h.exists_screen
  exact (hscreen.grid.each r hr).size

/-- The region of the shown screen is the common one. -/
theorem region_eq (h : t.WellFormed limit) : t.region = t.primary.region := by
  rw [Terminal.region, screen]
  split
  · exact h.alternate.region_eq
  · rfl

/-- The scroll region lies within the rows. -/
theorem region_within (h : t.WellFormed limit) : t.region.Within t.rows :=
  h.region_eq ▸ h.region

/-! ### The shown screen and the cursor -/

/-- Both screens may be replaced by others that scroll in one region. -/
theorem withScreens (h : t.WellFormed limit) {p a : Screen} {r : Region} (hr : r.Within t.rows)
    (hp : p.WellFormed Cell.FewMarks t.cols t.rows r limit)
    (ha : a.WellFormed Cell.FewMarks t.cols t.rows r 0) :
    ({ t with primary := p, alternate := a } : Terminal).WellFormed limit := by
  obtain rfl := hp.region_eq
  exact { h with primary := hp, alternate := ha, region := hr }

/-- An operation that is right for both screens is right for the one that is shown. -/
theorem onScreen (h : t.WellFormed limit) {f : Screen → Screen}
    (hf : ∀ {n : Nat} {s : Screen},
      s.WellFormed Cell.FewMarks t.cols t.rows t.primary.region n →
      (f s).WellFormed Cell.FewMarks t.cols t.rows t.primary.region n) :
    (t.onScreen f).WellFormed limit := by
  rw [Terminal.onScreen]
  split
  · exact h.withScreens h.region h.primary (hf h.alternate)
  · exact h.withScreens h.region (hf h.primary) h.alternate

/-- A row that is replaced by another of its width keeps the terminal well-formed. -/
theorem onCursorRow (h : t.WellFormed limit) {f : Row → Row}
    (hf : ∀ r, Row.Fits Cell.FewMarks t.cols r → Row.Fits Cell.FewMarks t.cols (f r)) :
    (t.onCursorRow f).WellFormed limit :=
  h.onScreen fun hs => hs.modifyRow hf _

/-- The cursor may be moved anywhere within the grid. -/
theorem onCursor (h : t.WellFormed limit) {f : Cursor → Cursor}
    (hf : (f t.cursor).Within t.cols t.rows) : (t.onCursor f).WellFormed limit :=
  { h with cursor := hf }

/-- Giving up a wrap does not move the cursor. -/
theorem clearPending (h : t.WellFormed limit) : t.clearPending.WellFormed limit :=
  h.onCursor h.cursor

/-- A move within the grid. -/
theorem moveTo (h : t.WellFormed limit) {row col : Nat} (hrow : row < t.rows)
    (hcol : col < t.cols) : (t.moveTo row col).WellFormed limit :=
  h.onCursor ⟨hrow, hcol⟩

/-- Along the row of the cursor. -/
theorem moveToCol (h : t.WellFormed limit) {col : Nat} (hcol : col < t.cols) :
    (t.moveTo t.cursor.row col).WellFormed limit :=
  h.moveTo h.cursor.1 hcol

/-- Along the column of the cursor. -/
theorem moveToRow (h : t.WellFormed limit) {row : Nat} (hrow : row < t.rows) :
    (t.moveTo row t.cursor.col).WellFormed limit :=
  h.moveTo hrow h.cursor.2

/-! ### Motion -/

/-- The first column is one, since no terminal is without columns. -/
theorem carriageReturn (h : t.WellFormed limit) : t.carriageReturn.WellFormed limit :=
  h.moveToCol h.cols_pos

/-- A column further left is a column. -/
theorem backspace (h : t.WellFormed limit) : t.backspace.WellFormed limit := by
  rw [Terminal.backspace]
  split
  · exact h.clearPending
  · exact h.moveToCol (Nat.lt_of_le_of_lt (Nat.sub_le _ _) h.cursor.2)

/-- The cursor is bounded by the region or by all rows. -/
theorem rowBounds_within (h : t.WellFormed limit) : t.rowBounds.Within t.rows := by
  rw [rowBounds]
  split
  · exact h.region_within
  · exact Screen.within_wholeRegion h.rows_pos

/-- Going up ends at a bound. -/
theorem cursorUp (h : t.WellFormed limit) (n : Nat) : (t.cursorUp n).WellFormed limit := by
  obtain ⟨htop, hbottom⟩ := h.rowBounds_within
  have hrow := h.cursor.1
  refine h.moveToRow ?_
  split <;> omega

/-- Going down ends at a bound. -/
theorem cursorDown (h : t.WellFormed limit) (n : Nat) : (t.cursorDown n).WellFormed limit := by
  obtain ⟨htop, hbottom⟩ := h.rowBounds_within
  have hrow := h.cursor.1
  refine h.moveToRow ?_
  split <;> omega

/-- Going forward ends in the last column. -/
theorem cursorForward (h : t.WellFormed limit) (n : Nat) :
    (t.cursorForward n).WellFormed limit := by
  have hcols := h.cols_pos
  exact h.moveToCol (by omega)

/-- Going backward ends in the first column. -/
theorem cursorBackward (h : t.WellFormed limit) (n : Nat) :
    (t.cursorBackward n).WellFormed limit :=
  h.moveToCol (Nat.lt_of_le_of_lt (Nat.sub_le _ _) h.cursor.2)

/-- A position is cut to the grid, or to the region in origin mode. -/
theorem setPosition (h : t.WellFormed limit) (row col : Nat) :
    (t.setPosition row col).WellFormed limit := by
  have hbottom := h.rowBounds_within.2
  have hcols := h.cols_pos
  exact h.moveTo (by omega) (by omega)

theorem setColumn (h : t.WellFormed limit) (col : Nat) : (t.setColumn col).WellFormed limit := by
  have hcols := h.cols_pos
  exact h.moveToCol (by omega)

/-- The same for the row alone. -/
theorem setRow (h : t.WellFormed limit) (row : Nat) : (t.setRow row).WellFormed limit :=
  h.setPosition row t.cursor.col

/-- A scroll brings in as many rows as it takes away. -/
theorem scroll (h : t.WellFormed limit) (n : Nat) (dir : Direction) :
    (t.scroll n dir).WellFormed limit :=
  h.onScreen fun hs => hs.scroll (Cell.heldByBlanks_fewMarks _) _ _ _ _

/-- At the end of the region rows are scrolled, elsewhere the cursor goes down, but not below the
    grid. -/
theorem index (h : t.WellFormed limit) : t.index.WellFormed limit := by
  dsimp only [Terminal.index]
  split
  · exact h.clearPending.scroll 1 .up
  · split
    · rename_i hbelow
      exact h.clearPending.moveToRow hbelow
    · exact h.clearPending

/-- The same the other way. -/
theorem reverseIndex (h : t.WellFormed limit) : t.reverseIndex.WellFormed limit := by
  dsimp only [Terminal.reverseIndex]
  split
  · exact h.clearPending.scroll 1 .down
  · exact h.clearPending.moveToRow (Nat.lt_of_le_of_lt (Nat.sub_le _ _) h.cursor.1)

/-- A line feed is an index, and maybe a carriage return. -/
theorem linefeed (h : t.WellFormed limit) : t.linefeed.WellFormed limit := by
  dsimp only [Terminal.linefeed]
  split
  · exact h.index.carriageReturn
  · exact h.index

theorem nextLine (h : t.WellFormed limit) : t.nextLine.WellFormed limit :=
  h.carriageReturn.index

/-- The rows that are accepted as a region lie on the grid. -/
theorem setScrollRegion (h : t.WellFormed limit) (top bottom : Nat) :
    (t.setScrollRegion top bottom).WellFormed limit := by
  have hle : (if bottom = 0 then t.rows else min bottom t.rows) ≤ t.rows := by
    split
    · exact Nat.le_refl _
    · exact Nat.min_le_right _ _
  rw [Terminal.setScrollRegion]
  generalize (if bottom = 0 then t.rows else min bottom t.rows) = stop at hle ⊢
  dsimp only
  split
  · exact h
  · rename_i hrows
    have hr : (Region.mk (max top 1 - 1) (stop - 1)).Within t.rows := by
      constructor <;> dsimp only <;> omega
    exact (h.withScreens hr (h.primary.setRegion hr) (h.alternate.setRegion hr)).setPosition 0 0

/-! ### Erasing, inserting and deleting -/

/-- Erasing within the row of the cursor. -/
theorem eraseColumns (h : t.WellFormed limit) (start stop : Nat) (selective : Bool) :
    (t.eraseColumns start stop selective).WellFormed limit :=
  h.onCursorRow fun _ hr => hr.erase (Cell.heldByBlanks_fewMarks _) start stop selective

/-- Erasing whole rows. -/
theorem eraseRows (h : t.WellFormed limit) (first stop : Nat) (selective : Bool) :
    (t.eraseRows first stop selective).WellFormed limit :=
  h.onScreen fun hs =>
    hs.modifyRows (fun _ hr => hr.erase (Cell.heldByBlanks_fewMarks _) 0 t.cols selective) _ _

theorem eraseInLine (h : t.WellFormed limit) (extent : Nat) (selective : Bool) :
    (t.eraseInLine extent selective).WellFormed limit := by
  simp only [Terminal.eraseInLine]
  refine clearPending ?_
  split
  · exact h.eraseColumns _ _ _
  · exact h.eraseColumns _ _ _
  · exact h.eraseColumns _ _ _
  · exact h

/-- The rows above or below the cursor, and part of its own. -/
theorem eraseInDisplay (h : t.WellFormed limit) (extent : Nat) (selective : Bool) :
    (t.eraseInDisplay extent selective).WellFormed limit := by
  simp only [Terminal.eraseInDisplay]
  refine clearPending ?_
  split
  · exact (h.eraseInLine 0 selective).eraseRows _ _ _
  · exact (h.eraseRows _ _ _).eraseInLine 1 selective
  · exact h.eraseRows _ _ _
  · exact h.onScreen Screen.WellFormed.clearHistory
  · exact h

theorem eraseChars (h : t.WellFormed limit) (n : Nat) : (t.eraseChars n).WellFormed limit :=
  (h.eraseColumns _ _ _).clearPending

/-- What is pushed out of the row is lost, so it keeps its width. -/
theorem insertChars (h : t.WellFormed limit) (n : Nat) : (t.insertChars n).WellFormed limit := by
  dsimp only [Terminal.insertChars]
  split
  · exact (h.onCursorRow fun _ hr => hr.insert (Cell.heldByBlanks_fewMarks _) _ n).clearPending
  · exact h

/-- What is missing at the end is blank. -/
theorem deleteChars (h : t.WellFormed limit) (n : Nat) : (t.deleteChars n).WellFormed limit := by
  dsimp only [Terminal.deleteChars]
  split
  · exact (h.onCursorRow fun _ hr => hr.delete (Cell.heldByBlanks_fewMarks _) _ n).clearPending
  · exact h

/-- Lines are inserted and deleted by a scroll of part of the region. -/
theorem shiftFromCursor (h : t.WellFormed limit) (n : Nat) (dir : Direction) :
    (t.shiftFromCursor n dir).WellFormed limit := by
  dsimp only [Terminal.shiftFromCursor]
  split
  · exact h
  · exact (h.onScreen fun hs => hs.shiftRows (Cell.heldByBlanks_fewMarks _) _ _ _ _).carriageReturn

/-! ### Printing -/

/-- A wrapped row is as wide as before. -/
theorem wrapLine (h : t.WellFormed limit) : t.wrapLine.WellFormed limit := by
  have hmarked := h.onScreen (f := (·.markWrapped t.cursor.row)) fun hs => hs.markWrapped _
  -- marking a row does not move the cursor
  have hrow := hmarked.cursor.1
  rw [onScreen_cursor] at hrow
  exact (hmarked.moveTo hrow hmarked.cols_pos).index

/-- A wrap that is due is taken, otherwise nothing is done. -/
theorem takeWrap (h : t.WellFormed limit) : t.takeWrap.WellFormed limit := by
  rw [Terminal.takeWrap]
  split
  · exact h.wrapLine
  · exact h

/-- A wide character at the end of the row wraps early. -/
theorem makeRoom (h : t.WellFormed limit) (width : Nat) : (t.makeRoom width).WellFormed limit := by
  rw [Terminal.makeRoom]
  split
  · split
    · exact h.wrapLine
    · -- without automatic wrap the wide character overwrites the last two columns
      exact h.onCursor ⟨h.cursor.1, Nat.sub_lt h.cols_pos Nat.two_pos⟩
  · exact h

/-- In insert mode the rest of the row makes room. -/
theorem makeGap (h : t.WellFormed limit) (width : Nat) : (t.makeGap width).WellFormed limit := by
  rw [Terminal.makeGap]
  split
  · exact h.insertChars width
  · exact h

/-- A glyph replaces the cells it is written over, and halves of wide characters beside them. -/
theorem writeGlyph (h : t.WellFormed limit) (c : Char) (width : Nat) :
    (t.writeGlyph c width).WellFormed limit :=
  h.onCursorRow fun _ hr =>
    hr.write _ (Cell.heldByBlanks_fewMarks _) (Nat.zero_le _) (Nat.zero_le _)

/-- Behind the last column the cursor does not go. -/
theorem advance (h : t.WellFormed limit) (width : Nat) : (t.advance width).WellFormed limit := by
  refine { h with cursor := ?_ }
  show Cursor.Within t.cols t.rows (if t.cols ≤ t.cursor.col + width then _ else _)
  split
  · exact ⟨h.cursor.1, Nat.sub_lt h.cols_pos Nat.one_pos⟩
  · rename_i hroom
    exact ⟨h.cursor.1, Nat.lt_of_not_le hroom⟩

/-- Writing a character is made of wrap, gap, glyph and advance. -/
theorem place (h : t.WellFormed limit) (c : Char) (width : Nat) :
    (t.place c width).WellFormed limit := by
  have hplaced := (((h.takeWrap.makeRoom width).makeGap width).writeGlyph c width).advance width
  exact { hplaced with }

/-- A mark joins a cell of the row, where there is one. -/
theorem addMark (h : t.WellFormed limit) (c : Char) : (t.addMark c).WellFormed limit := by
  rw [Terminal.addMark]
  split
  · exact h.onCursorRow fun _ hr => hr.modify (fun _ hc => hc.addMark c) _
  · exact h

/-- A printed character is a mark or has a place. -/
theorem print (h : t.WellFormed limit) (c : Char) : (t.print c).WellFormed limit := by
  dsimp only [Terminal.print]
  split
  · exact h
  · exact h.addMark _
  · split
    · exact h
    · exact h.place _ _

/-- Repeating prints, and only so many times. -/
theorem repeatLast (h : t.WellFormed limit) (n : Nat) : (t.repeatLast n).WellFormed limit := by
  rw [Terminal.repeatLast]
  split
  · exact repeat_invariant (fun _ ht => ht.print _) h _
  · exact h

/-! ### Saving the cursor, and the alternate screen -/

/-- The cursor that is saved is within the grid. -/
theorem saveCursor (h : t.WellFormed limit) : t.saveCursor.WellFormed limit := by
  rw [Terminal.saveCursor]
  split
  · exact { h with }
  · exact { h with }

/-- Saved places may lie off a screen that has become smaller; restoring cuts them to it. -/
theorem restore (h : t.WellFormed limit) (s : SavedCursor) : (t.restore s).WellFormed limit := by
  have hrows := h.rows_pos
  have hcols := h.cols_pos
  refine { h with cursor := ?_ }
  constructor <;> dsimp only [Terminal.restore] <;> omega

theorem restoreDefault (h : t.WellFormed limit) : t.restoreDefault.WellFormed limit :=
  { h.moveTo h.rows_pos h.cols_pos with }

/-- What was saved is within the grid that there was, and is cut to this one. -/
theorem restoreCursor (h : t.WellFormed limit) : t.restoreCursor.WellFormed limit := by
  rw [Terminal.restoreCursor]
  split
  · exact h.restore _
  · exact h.restoreDefault

/-- The position for the second kind of saving is within the grid. -/
theorem savePlace (h : t.WellFormed limit) : t.savePlace.WellFormed limit := { h with }

/-- It is cut to the grid where it is restored. -/
theorem restorePlace (h : t.WellFormed limit) : t.restorePlace.WellFormed limit := by
  have hrows := h.rows_pos
  have hcols := h.cols_pos
  rw [Terminal.restorePlace]
  split
  · exact h.moveTo (by omega) (by omega)
  · exact h

/-- The alternate screen is filled with blank rows of its width. -/
theorem blankAlternate (h : t.WellFormed limit) : t.blankAlternate.WellFormed limit :=
  { h with alternate := h.alternate.fill (Cell.heldByBlanks_fewMarks _) }

/-- The cursor that is put aside is the one that was on the grid. -/
theorem enterAlternate (h : t.WellFormed limit) (clear : Bool) :
    (t.enterAlternate clear).WellFormed limit := by
  rw [Terminal.enterAlternate]
  split
  · exact h
  · have hcleared : (if clear then t.blankAlternate else t).WellFormed limit := by
      split
      · exact h.blankAlternate
      · exact h
    -- from here on it does not matter whether the screen was cleared
    generalize (if clear then t.blankAlternate else t) = u at hcleared
    refine { hcleared with alternate := hcleared.alternate.viewReset, primaryCursor := ?_ }
    intro c hc
    rw [← Option.some.inj hc]
    exact hcleared.cursor

/-- The primary screen comes back with its own rows. -/
theorem exitAlternate (h : t.WellFormed limit) (clear : Bool) :
    (t.exitAlternate clear).WellFormed limit := by
  rw [Terminal.exitAlternate]
  split
  · have hcleared : (if clear then t.blankAlternate else t).WellFormed limit := by
      split
      · exact h.blankAlternate
      · exact h
    generalize (if clear then t.blankAlternate else t) = u at hcleared
    refine { hcleared with cursor := ?_, primaryCursor := ?_ }
    · show (u.primaryCursor.getD u.cursor).Within u.cols u.rows
      cases hput : u.primaryCursor with
      | none => exact hcleared.cursor
      | some c => exact hcleared.primaryCursor c hput
    · intro c hc
      exact absurd hc (Option.not_mem_none c)
  · exact h

/-! ### Modes -/

/-- Modes are no part of the shape. -/
theorem onModes (h : t.WellFormed limit) (f : Modes → Modes) : (t.onModes f).WellFormed limit :=
  { h with }

/-- A mode that is not private changes no rows. -/
theorem setMode (h : t.WellFormed limit) (mode : Nat) (on : Bool) :
    (t.setMode mode on).WellFormed limit := by
  simp only [Terminal.setMode]
  split
  · exact h.onModes _
  · exact h.onModes _
  · exact h

/-- Switching a private mode may exchange the screens. -/
theorem switch (h : t.WellFormed limit) (mode : PrivateMode) (on : Bool) :
    (t.switch mode on).WellFormed limit := by
  cases mode with
  | origin => exact (h.onModes _).setPosition 0 0
  | alternateScreen =>
      cases on with
      | true => exact h.enterAlternate false
      | false => exact h.exitAlternate false
  | blankAlternateScreen =>
      cases on with
      | true => exact h.enterAlternate true
      | false => exact h.exitAlternate true
  | savedCursor =>
      cases on with
      | true => exact h.saveCursor
      | false => exact h.restoreCursor
  | alternateScreenAndCursor =>
      dsimp only [Terminal.switch]
      split <;> split
      · exact h
      · exact h.saveCursor.enterAlternate true
      · exact (h.exitAlternate false).restoreCursor
      · exact h
  | _ => exact { h with }

/-- A number that stands for no mode changes nothing. -/
theorem setPrivateMode (h : t.WellFormed limit) (mode : Nat) (on : Bool) :
    (t.setPrivateMode mode on).WellFormed limit := by
  rw [Terminal.setPrivateMode]
  split
  · exact h.switch _ on
  · exact h

/-- What one step of a list keeps, the whole list keeps. -/
theorem foldl {α : Type} {f : Terminal → α → Terminal}
    (hf : ∀ {t : Terminal} (x : α), t.WellFormed limit → (f t x).WellFormed limit)
    (h : t.WellFormed limit) (xs : List α) : (xs.foldl f t).WellFormed limit :=
  List.foldlRecOn xs f h fun _ ht x _ => hf x ht

/-- Values that are saved are no part of the screen. -/
theorem savePrivateMode (h : t.WellFormed limit) (mode : Nat) :
    (t.savePrivateMode mode).WellFormed limit := by
  rw [Terminal.savePrivateMode]
  split
  · exact h.onModes _
  · exact h

theorem savePrivateModes (h : t.WellFormed limit) (modes : List Nat) :
    (t.savePrivateModes modes).WellFormed limit :=
  h.foldl (fun mode ht => ht.savePrivateMode mode) _

/-- A mode is restored by switching it. -/
theorem restorePrivateMode (h : t.WellFormed limit) (mode : Nat) :
    (t.restorePrivateMode mode).WellFormed limit := by
  rw [Terminal.restorePrivateMode]
  split
  · exact h.setPrivateMode mode _
  · exact h

/-- Modes are restored one after the other. -/
theorem restorePrivateModes (h : t.WellFormed limit) (modes : List Nat) :
    (t.restorePrivateModes modes).WellFormed limit :=
  h.foldl (fun mode ht => ht.restorePrivateMode mode) _

/-! ### Tab stops, titles and links -/

/-- The search ends with the columns it was given. -/
theorem firstStop_le (stops : Array Bool) (n col : Nat) : firstStop stops n col ≤ col + n := by
  induction n generalizing col with
  | zero => exact Nat.le_refl col
  | succ n ih =>
      rw [firstStop]
      split
      · exact Nat.le_add_right col (n + 1)
      · have hnext := ih (col + 1)
        omega

/-- The search forward ends in the last column. -/
theorem nextStop_le (stops : Array Bool) (last col : Nat) : nextStop stops last col ≤ last := by
  rw [nextStop]
  split
  · exact Nat.le_refl last
  · have hstop := firstStop_le stops (last - (col + 1)) (col + 1)
    omega

/-- The search backward does not go forward. -/
theorem previousStop_le (stops : Array Bool) (col : Nat) : previousStop stops col ≤ col := by
  induction col with
  | zero => exact Nat.le_refl 0
  | succ col ih =>
      rw [previousStop]
      split
      · exact Nat.le_succ col
      · exact Nat.le_succ_of_le ih

/-- Forward tabulation ends in the last column. -/
theorem forwardTab (h : t.WellFormed limit) (n : Nat) : (t.forwardTab n).WellFormed limit := by
  have hlast : t.cols - 1 < t.cols := Nat.sub_lt h.cols_pos Nat.one_pos
  refine h.moveToCol (repeat_invariant (I := (· < t.cols)) ?_ h.cursor.2 _)
  intro col _
  exact Nat.lt_of_le_of_lt (nextStop_le t.tabStops (t.cols - 1) col) hlast

/-- Backward tabulation goes no further than the first column. -/
theorem backwardTab (h : t.WellFormed limit) (n : Nat) : (t.backwardTab n).WellFormed limit := by
  refine h.moveToCol (repeat_invariant (I := (· < t.cols)) ?_ h.cursor.2 _)
  intro col hcol
  exact Nat.lt_of_le_of_lt (previousStop_le t.tabStops col) hcol

/-- There are as many places for stops as before. -/
theorem setTabStop (h : t.WellFormed limit) : t.setTabStop.WellFormed limit :=
  { h with tabStops := Array.size_setIfInBounds.trans h.tabStops }

theorem clearTabStop (h : t.WellFormed limit) (extent : Nat) :
    (t.clearTabStop extent).WellFormed limit := by
  simp only [Terminal.clearTabStop]
  split
  · exact { h with tabStops := Array.size_setIfInBounds.trans h.tabStops }
  · exact { h with tabStops := Array.size_map.trans h.tabStops }
  · exact h

/-- Titles have no shape. -/
theorem pushTitle (h : t.WellFormed limit) : t.pushTitle.WellFormed limit := by
  refine { h with titles := ?_ }
  show (t.titleStack.take (titleDepth - 1)).length + 1 ≤ titleDepth
  rw [List.length_take]
  have hdepth : 0 < titleDepth := by decide
  omega

theorem popTitle? (h : t.WellFormed limit) {u : Terminal} (hu : t.popTitle? = some u) :
    u.WellFormed limit := by
  rw [Terminal.popTitle?] at hu
  split at hu
  · rename_i title iconName rest hstack
    obtain rfl := Option.some.inj hu
    refine { h with titles := ?_ }
    have htitles := h.titles
    rw [hstack] at htitles
    exact Nat.le_of_succ_le htitles
  · exact absurd hu nofun

/-- The link that is open is no part of the screen. -/
theorem openHyperlink (h : t.WellFormed limit) (id target : String) :
    (t.openHyperlink id target).WellFormed limit := by
  rw [Terminal.openHyperlink]
  split
  · exact { h with }
  · exact { h with }

/-! ### Resizing and resetting -/

/-- Stops are cut or added with the columns. -/
theorem size_resizeStops (stops : Array Bool) (cols : Nat) :
    (resizeStops stops cols).size = cols := by
  rw [resizeStops, Array.size_append, Array.size_map, Array.size_range', Array.size_extract]
  omega

/-- A cursor that is cut to a grid is within it. -/
theorem clampCursor_within {cols rows : Nat} (hcols : 0 < cols) (hrows : 0 < rows) (c : Cursor) :
    (clampCursor cols rows c).Within cols rows := by
  constructor <;> dsimp only [clampCursor] <;> omega

/-- Every place that is kept in use is cut to the new size. -/
theorem resize (h : t.WellFormed limit) {cols rows : Nat}
    (hsize : (Size.mk cols rows).isValid = true) : (t.resize cols rows).WellFormed limit := by
  have hpos : 0 < cols ∧ 0 < rows := by
    simp only [Size.isValid, Bool.and_eq_true, decide_eq_true_eq] at hsize
    omega
  exact {
    size := hsize
    primary := h.primary.resize Cell.heldByBlanks_fewMarks cols rows
    alternate := h.alternate.resize Cell.heldByBlanks_fewMarks cols rows
    region := Screen.within_wholeRegion hpos.2
    cursor := clampCursor_within hpos.1 hpos.2 t.cursor
    primaryCursor := by
      intro c hc
      obtain ⟨d, _, rfl⟩ := Option.map_eq_some_iff.mp hc
      exact clampCursor_within hpos.1 hpos.2 d
    tabStops := size_resizeStops t.tabStops cols
    titles := h.titles }

/-- The region of all rows is a region. -/
theorem resetRegions (h : t.WellFormed limit) : t.resetRegions.WellFormed limit :=
  h.withScreens (Screen.within_wholeRegion h.rows_pos) h.primary.resetRegion
    h.alternate.resetRegion

/-- The alignment pattern fills the grid with narrow cells. -/
theorem screenAlignment (h : t.WellFormed limit) : t.screenAlignment.WellFormed limit :=
  (h.resetRegions.onScreen fun hs => hs.fill (Nat.zero_le _)).setPosition 0 0

/-- After a soft reset the cursor is where it was, and the region is that of all rows. -/
theorem softReset (h : t.WellFormed limit) : t.softReset.WellFormed limit :=
  { h.resetRegions.clearPending with }

/-- A full reset starts anew in the same size. -/
theorem fullReset (h : t.WellFormed limit) : t.fullReset.WellFormed limit := by
  rw [Terminal.fullReset, h.primary.limit_eq]
  exact wellFormed_new h.size limit t.sgr21

end WellFormed

end Terminal

end VideoTerminal
