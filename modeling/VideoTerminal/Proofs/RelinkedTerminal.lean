import VideoTerminal.Proofs.Machine
import VideoTerminal.Proofs.Renumbering
import VideoTerminal.Proofs.TerminalShape

/-!
# Terminals with other numbers for links

Two terminals that differ in the numbers of their links only, and in the tables behind them, do the
same: after any message they still differ in these only, and by the same change of numbers.  The
exception is a message that opens a link, since it takes its number from the table.

There is one lemma for each operation.  It goes through both terminals at once; conditions are the
same on both sides, because they never ask for a link.
-/

namespace VideoTerminal.Terminal

/-- A terminal and one that differs from it in the numbers of links only, and in the table of
    links, which is given. -/
inductive Relinked (f : Renumbering) (links : LinkTable) (t : Terminal) : Terminal → Prop
  | intro {primary alternate : Screen} (hprimary : t.primary.Relinked f primary)
      (halternate : t.alternate.Relinked f alternate) :
      Relinked f links t { t with primary, alternate, openLink := f t.openLink, links }

namespace Relinked

variable {f : Renumbering} {links : LinkTable} {t u : Terminal}

/-! ### What is the same -/

/-- The change of numbers leaves the width alone. -/
theorem cols_eq (h : t.Relinked f links u) : u.cols = t.cols := by
  cases h
  rfl

theorem rows_eq (h : t.Relinked f links u) : u.rows = t.rows := by
  cases h
  rfl

/-- The cursor carries no link: the link that is open belongs to the terminal. -/
theorem cursor_eq (h : t.Relinked f links u) : u.cursor = t.cursor := by
  cases h
  rfl

theorem modes_eq (h : t.Relinked f links u) : u.modes = t.modes := by
  cases h
  rfl

/-- What is printed next looks the same but for its link. -/
theorem pen_eq (h : t.Relinked f links u) : u.pen = t.pen := by
  cases h
  rfl

/-- An erased cell has no link, so both terminals erase with the same cell. -/
theorem blank_eq (h : t.Relinked f links u) : u.blank = t.blank := congrArg Cell.blank h.pen_eq

/-- The screens that are shown differ in numbers only, whichever of the two they are. -/
theorem screen (h : t.Relinked f links u) : t.screen.Relinked f u.screen := by
  obtain ⟨hprimary, halternate⟩ := h
  rw [Terminal.screen, Terminal.screen]
  dsimp only
  split
  · exact halternate
  · exact hprimary

/-- The scroll region is the same. -/
theorem region_eq (h : t.Relinked f links u) : u.region = t.region := h.screen.region_eq

/-- So is the range of rows that the cursor may reach. -/
theorem rowBounds_eq (h : t.Relinked f links u) : u.rowBounds = t.rowBounds := by
  rw [rowBounds, rowBounds, h.modes_eq, h.region_eq, h.rows_eq]

/-- The cursor is on the grid of both terminals or of neither. -/
theorem isOnGrid_eq (h : t.Relinked f links u) : u.isOnGrid = t.isOnGrid := by
  rw [isOnGrid, isOnGrid, h.cursor_eq, h.screen.cell?_eq, Option.isSome_map]

/-! ### The shown screen and the cursor -/

/-- What keeps the relation of screens keeps that of terminals. -/
theorem onScreen (h : t.Relinked f links u) {g k : Screen → Screen}
    (hgk : ∀ {s v : Screen}, s.Relinked f v → (g s).Relinked f (k v)) :
    (t.onScreen g).Relinked f links (u.onScreen k) := by
  obtain ⟨hprimary, halternate⟩ := h
  rw [Terminal.onScreen, Terminal.onScreen]
  dsimp only
  split
  · exact .intro hprimary (hgk halternate)
  · exact .intro (hgk hprimary) halternate

/-- The same for the row of the cursor. -/
theorem onCursorRow (h : t.Relinked f links u) {g k : Row → Row}
    (hgk : ∀ r, k (Row.relink f r) = (g r).relink f) :
    (t.onCursorRow g).Relinked f links (u.onCursorRow k) := by
  rw [Terminal.onCursorRow, Terminal.onCursorRow, h.cursor_eq]
  exact h.onScreen fun hs => hs.modifyRow hgk _

/-- The cursor may be changed in any way, as long as it is the same on both sides. -/
theorem onCursor (h : t.Relinked f links u) (g : Cursor → Cursor) :
    (t.onCursor g).Relinked f links (u.onCursor g) := by
  obtain ⟨hprimary, halternate⟩ := h
  exact .intro hprimary halternate

theorem clearPending (h : t.Relinked f links u) : t.clearPending.Relinked f links u.clearPending :=
  h.onCursor _

/-- Moving the cursor asks for nothing. -/
theorem moveTo (h : t.Relinked f links u) (row col : Nat) :
    (t.moveTo row col).Relinked f links (u.moveTo row col) := h.onCursor _

/-- The same for the modes. -/
theorem onModes (h : t.Relinked f links u) (g : Modes → Modes) :
    (t.onModes g).Relinked f links (u.onModes g) := by
  obtain ⟨hprimary, halternate⟩ := h
  exact .intro hprimary halternate

/-! ### Motion -/

theorem carriageReturn (h : t.Relinked f links u) :
    t.carriageReturn.Relinked f links u.carriageReturn := by
  rw [Terminal.carriageReturn, Terminal.carriageReturn, h.cursor_eq]
  exact h.moveTo _ _

theorem backspace (h : t.Relinked f links u) : t.backspace.Relinked f links u.backspace := by
  rw [Terminal.backspace, Terminal.backspace, h.cursor_eq]
  split
  · exact h.clearPending
  · exact h.moveTo _ _

/-- The rows that bound the motion are the same, so the cursor ends in the same place. -/
theorem cursorUp (h : t.Relinked f links u) (n : Nat) :
    (t.cursorUp n).Relinked f links (u.cursorUp n) := by
  rw [Terminal.cursorUp, Terminal.cursorUp, h.rowBounds_eq, h.cursor_eq]
  exact h.moveTo _ _

theorem cursorDown (h : t.Relinked f links u) (n : Nat) :
    (t.cursorDown n).Relinked f links (u.cursorDown n) := by
  rw [Terminal.cursorDown, Terminal.cursorDown, h.rowBounds_eq, h.cursor_eq, h.rows_eq]
  exact h.moveTo _ _

theorem cursorForward (h : t.Relinked f links u) (n : Nat) :
    (t.cursorForward n).Relinked f links (u.cursorForward n) := by
  rw [Terminal.cursorForward, Terminal.cursorForward, h.cursor_eq, h.cols_eq]
  exact h.moveTo _ _

theorem cursorBackward (h : t.Relinked f links u) (n : Nat) :
    (t.cursorBackward n).Relinked f links (u.cursorBackward n) := by
  rw [Terminal.cursorBackward, Terminal.cursorBackward, h.cursor_eq]
  exact h.moveTo _ _

/-- Origin mode and scroll region, which the position is relative to, are the same. -/
theorem setPosition (h : t.Relinked f links u) (row col : Nat) :
    (t.setPosition row col).Relinked f links (u.setPosition row col) := by
  rw [Terminal.setPosition, Terminal.setPosition, h.rowBounds_eq, h.cols_eq]
  exact h.moveTo _ _

theorem setColumn (h : t.Relinked f links u) (col : Nat) :
    (t.setColumn col).Relinked f links (u.setColumn col) := by
  rw [Terminal.setColumn, Terminal.setColumn, h.cursor_eq, h.cols_eq]
  exact h.moveTo _ _

theorem setRow (h : t.Relinked f links u) (row : Nat) :
    (t.setRow row).Relinked f links (u.setRow row) := by
  rw [Terminal.setRow, Terminal.setRow, h.cursor_eq]
  exact h.setPosition _ _

/-- A scroll moves rows with the links in them and brings in erased ones, which have none. -/
theorem scroll (h : t.Relinked f links u) (n : Nat) (dir : Direction) :
    (t.scroll n dir).Relinked f links (u.scroll n dir) := by
  rw [Terminal.scroll, Terminal.scroll, h.region_eq, h.blank_eq]
  refine h.onScreen fun {s v} hs => ?_
  have hscroll := hs.scroll t.region.top t.region.bottom n dir t.blank
  rwa [Terminal.blank, Cell.relink_blank] at hscroll

/-- At the end of the region both terminals scroll, elsewhere both move the cursor. -/
theorem index (h : t.Relinked f links u) : t.index.Relinked f links u.index := by
  have hclear := h.clearPending
  rw [Terminal.index, Terminal.index]
  rw [hclear.cursor_eq, hclear.region_eq, hclear.rows_eq]
  split
  · exact hclear.scroll 1 .up
  · split
    · exact hclear.moveTo _ _
    · exact hclear

theorem reverseIndex (h : t.Relinked f links u) :
    t.reverseIndex.Relinked f links u.reverseIndex := by
  have hclear := h.clearPending
  rw [Terminal.reverseIndex, Terminal.reverseIndex]
  rw [hclear.cursor_eq, hclear.region_eq]
  split
  · exact hclear.scroll 1 .down
  · exact hclear.moveTo _ _

/-- Whether a line feed returns the cursor is a question of modes. -/
theorem linefeed (h : t.Relinked f links u) : t.linefeed.Relinked f links u.linefeed := by
  rw [Terminal.linefeed, Terminal.linefeed]
  rw [h.index.modes_eq]
  split
  · exact h.index.carriageReturn
  · exact h.index

theorem nextLine (h : t.Relinked f links u) : t.nextLine.Relinked f links u.nextLine :=
  h.carriageReturn.index

/-- Both take the region or both refuse it. -/
theorem setScrollRegion (h : t.Relinked f links u) (top bottom : Nat) :
    (t.setScrollRegion top bottom).Relinked f links (u.setScrollRegion top bottom) := by
  rw [Terminal.setScrollRegion, Terminal.setScrollRegion, h.rows_eq]
  generalize (if bottom = 0 then t.rows else min bottom t.rows) = stop
  dsimp only
  split
  · exact h
  · refine setPosition ?_ 0 0
    obtain ⟨hprimary, halternate⟩ := h
    exact .intro (hprimary.setRegion _) (halternate.setRegion _)

/-! ### Erasing, inserting and deleting -/

/-- Erasing and renumbering may be exchanged: a cell is protected by its rendition, and what comes
    in its place has no link. -/
theorem erase_relink (f : Renumbering) (t : Terminal) (start stop : Nat) (selective : Bool)
    (r : Row) :
    (r.relink f).erase t.blank start stop selective =
      (r.erase t.blank start stop selective).relink f := by
  have herase := Row.erase_relink f r t.blank start stop selective
  rwa [blank, Cell.relink_blank] at herase

/-- The same columns of the row of the cursor are erased. -/
theorem eraseColumns (h : t.Relinked f links u) (start stop : Nat) (selective : Bool) :
    (t.eraseColumns start stop selective).Relinked f links
      (u.eraseColumns start stop selective) := by
  rw [Terminal.eraseColumns, Terminal.eraseColumns, h.blank_eq]
  exact h.onCursorRow (erase_relink f t start stop selective)

/-- The same rows are erased as a whole. -/
theorem eraseRows (h : t.Relinked f links u) (first stop : Nat) (selective : Bool) :
    (t.eraseRows first stop selective).Relinked f links (u.eraseRows first stop selective) := by
  rw [Terminal.eraseRows, Terminal.eraseRows, h.blank_eq, h.cols_eq]
  exact h.onScreen fun hs => hs.modifyRows (erase_relink f t 0 t.cols selective) _ _

theorem eraseInLine (h : t.Relinked f links u) (extent : Nat) (selective : Bool) :
    (t.eraseInLine extent selective).Relinked f links (u.eraseInLine extent selective) := by
  simp only [Terminal.eraseInLine, h.cursor_eq, h.cols_eq]
  refine clearPending ?_
  split
  · exact h.eraseColumns _ _ _
  · exact h.eraseColumns _ _ _
  · exact h.eraseColumns _ _ _
  · exact h

/-- What is erased beside the row of the cursor is a range of rows. -/
theorem eraseInDisplay (h : t.Relinked f links u) (extent : Nat) (selective : Bool) :
    (t.eraseInDisplay extent selective).Relinked f links (u.eraseInDisplay extent selective) := by
  simp only [Terminal.eraseInDisplay, h.cursor_eq, h.rows_eq]
  refine clearPending ?_
  split
  · exact (h.eraseInLine 0 selective).eraseRows _ _ _
  · exact (h.eraseRows _ _ _).eraseInLine 1 selective
  · exact h.eraseRows _ _ _
  · exact h.onScreen fun hs => hs.clearHistory
  · exact h

theorem eraseChars (h : t.Relinked f links u) (n : Nat) :
    (t.eraseChars n).Relinked f links (u.eraseChars n) := by
  rw [Terminal.eraseChars, Terminal.eraseChars, h.cursor_eq, h.cols_eq]
  exact (h.eraseColumns _ _ _).clearPending

/-- Cells are moved with their links. -/
theorem insertChars (h : t.Relinked f links u) (n : Nat) :
    (t.insertChars n).Relinked f links (u.insertChars n) := by
  rw [Terminal.insertChars, Terminal.insertChars, h.blank_eq, h.cursor_eq, h.isOnGrid_eq]
  split
  · refine clearPending (h.onCursorRow fun r => ?_)
    have hinsert := Row.insert_relink f r t.blank t.cursor.col n
    rwa [blank, Cell.relink_blank] at hinsert
  · exact h

/-- The same the other way. -/
theorem deleteChars (h : t.Relinked f links u) (n : Nat) :
    (t.deleteChars n).Relinked f links (u.deleteChars n) := by
  rw [Terminal.deleteChars, Terminal.deleteChars, h.blank_eq, h.cursor_eq, h.isOnGrid_eq]
  split
  · refine clearPending (h.onCursorRow fun r => ?_)
    have hdelete := Row.delete_relink f r t.blank t.cursor.col n
    rwa [blank, Cell.relink_blank] at hdelete
  · exact h

/-- Lines are moved only where the cursor is in the region, which it is on both sides or on neither.
    -/
theorem shiftFromCursor (h : t.Relinked f links u) (n : Nat) (dir : Direction) :
    (t.shiftFromCursor n dir).Relinked f links (u.shiftFromCursor n dir) := by
  rw [Terminal.shiftFromCursor, Terminal.shiftFromCursor, h.cursor_eq, h.region_eq, h.blank_eq]
  split
  · exact h
  · refine carriageReturn (h.onScreen fun {s v} hs => ?_)
    have hshift := hs.shiftRows t.cursor.row t.region.bottom n dir t.blank
    rwa [blank, Cell.relink_blank] at hshift

/-! ### Printing -/

/-- The row that is left is marked as wrapped, and the next may come by a scroll. -/
theorem wrapLine (h : t.Relinked f links u) : t.wrapLine.Relinked f links u.wrapLine := by
  rw [Terminal.wrapLine, Terminal.wrapLine, h.cursor_eq]
  exact ((h.onScreen fun hs => hs.markWrapped _).moveTo _ _).index

/-- A wrap is due on both sides or on neither. -/
theorem takeWrap (h : t.Relinked f links u) : t.takeWrap.Relinked f links u.takeWrap := by
  rw [Terminal.takeWrap, Terminal.takeWrap, h.cursor_eq, h.modes_eq]
  split
  · exact h.wrapLine
  · exact h

/-- A wide character wraps early on both sides or on neither. -/
theorem makeRoom (h : t.Relinked f links u) (width : Nat) :
    (t.makeRoom width).Relinked f links (u.makeRoom width) := by
  rw [Terminal.makeRoom, Terminal.makeRoom, h.cursor_eq, h.modes_eq, h.cols_eq]
  split
  · split
    · exact h.wrapLine
    · exact h.onCursor _
  · exact h

/-- In insert mode the rest of the row moves. -/
theorem makeGap (h : t.Relinked f links u) (width : Nat) :
    (t.makeGap width).Relinked f links (u.makeGap width) := by
  rw [Terminal.makeGap, Terminal.makeGap, h.modes_eq]
  split
  · exact h.insertChars width
  · exact h

/-- A character that is printed has the open link. -/
theorem glyph_eq (h : t.Relinked f links u) (c : Char) (width : Nat) :
    u.glyph c width = (t.glyph c width).relink f := by
  cases h
  rfl

/-- The link that is open differs by the change of numbers, and so does the cell that is written. -/
theorem writeGlyph (h : t.Relinked f links u) (c : Char) (width : Nat) :
    (t.writeGlyph c width).Relinked f links (u.writeGlyph c width) := by
  rw [Terminal.writeGlyph, Terminal.writeGlyph, h.cursor_eq, h.blank_eq, h.glyph_eq, h.glyph_eq]
  refine h.onCursorRow fun r => ?_
  have hwrite := Row.write_relink f r t.blank t.cursor.col (t.glyph c width) (t.glyph ' ' 0)
  rwa [blank, Cell.relink_blank] at hwrite

/-- Where the cursor goes depends on the width of the character and on the modes. -/
theorem advance (h : t.Relinked f links u) (width : Nat) :
    (t.advance width).Relinked f links (u.advance width) := by
  rw [Terminal.advance, Terminal.advance, h.cursor_eq, h.cols_eq, h.modes_eq]
  exact h.onCursor _

/-- The last character printed is remembered without its link. -/
theorem printed (h : t.Relinked f links u) (c : Option Char) :
    Relinked f links { t with lastPrinted := c } { u with lastPrinted := c } := by
  obtain ⟨hprimary, halternate⟩ := h
  exact .intro hprimary halternate

/-- A character is written after the same preparations. -/
theorem place (h : t.Relinked f links u) (c : Char) (width : Nat) :
    (t.place c width).Relinked f links (u.place c width) := by
  have hroom := (h.takeWrap.makeRoom width).makeGap width
  exact ((hroom.writeGlyph c width).advance width).printed _

/-- The cell before the cursor is in the same column. -/
theorem previousColumn?_eq (h : t.Relinked f links u) : u.previousColumn? = t.previousColumn? := by
  have hcell : ∀ row col, ((u.screen.cell? row col).map Cell.isContinuation) =
      (t.screen.cell? row col).map Cell.isContinuation := by
    intro row col
    rw [h.screen.cell?_eq, Option.map_map]
    rfl
  simp only [previousColumn?, h.cursor_eq, hcell]

/-- A mark joins a cell and keeps its link. -/
theorem addMark (h : t.Relinked f links u) (c : Char) :
    (t.addMark c).Relinked f links (u.addMark c) := by
  rw [Terminal.addMark, Terminal.addMark, h.previousColumn?_eq]
  split
  · exact h.onCursorRow fun r => Row.modify_relink f r (fun cell => Cell.addMark_relink f cell c) _
  · exact h

/-- A character is translated by the same charset and has the same width. -/
theorem print (h : t.Relinked f links u) (c : Char) : (t.print c).Relinked f links (u.print c) := by
  have hglyph : u.charsets.glyph c = t.charsets.glyph c := by
    cases h
    rfl
  rw [Terminal.print, Terminal.print, hglyph, h.cols_eq]
  split
  · exact h
  · exact h.addMark _
  · split
    · exact h
    · exact h.place _ _

/-- Both terminals go through a list in step. -/
theorem foldl {α : Type} {g : Terminal → α → Terminal}
    (hg : ∀ {t u : Terminal} (a : α), t.Relinked f links u → (g t a).Relinked f links (g u a))
    (h : t.Relinked f links u) (as : List α) : (as.foldl g t).Relinked f links (as.foldl g u) := by
  induction as generalizing t u with
  | nil => exact h
  | cons a as ih => exact ih (hg a h)

/-- Repeating prints the same character as often. -/
theorem repeatLast (h : t.Relinked f links u) (n : Nat) :
    (t.repeatLast n).Relinked f links (u.repeatLast n) := by
  have hlast : u.lastPrinted = t.lastPrinted := by
    cases h
    rfl
  have hrepeat : ∀ c n,
      (Nat.repeat (·.print c) n t).Relinked f links (Nat.repeat (·.print c) n u) := by
    intro c n
    induction n with
    | zero => exact h
    | succ n ih => exact ih.print c
  rw [Terminal.repeatLast, Terminal.repeatLast, hlast, h.cols_eq, h.rows_eq]
  split
  · exact hrepeat _ _
  · exact h

/-! ### Tabulation -/

/-- Tab stops have nothing to do with links. -/
theorem tabStops_eq (h : t.Relinked f links u) : u.tabStops = t.tabStops := by
  cases h
  rfl

/-- A tabulation asks for the stops, the width and the cursor. -/
theorem forwardTab (h : t.Relinked f links u) (n : Nat) :
    (t.forwardTab n).Relinked f links (u.forwardTab n) := by
  rw [Terminal.forwardTab, Terminal.forwardTab, h.cursor_eq, h.tabStops_eq, h.cols_eq]
  exact h.moveTo _ _

theorem backwardTab (h : t.Relinked f links u) (n : Nat) :
    (t.backwardTab n).Relinked f links (u.backwardTab n) := by
  rw [Terminal.backwardTab, Terminal.backwardTab, h.cursor_eq, h.tabStops_eq]
  exact h.moveTo _ _

theorem setTabStop (h : t.Relinked f links u) : t.setTabStop.Relinked f links u.setTabStop := by
  obtain ⟨hprimary, halternate⟩ := h
  exact .intro hprimary halternate

theorem clearTabStop (h : t.Relinked f links u) (extent : Nat) :
    (t.clearTabStop extent).Relinked f links (u.clearTabStop extent) := by
  obtain ⟨hprimary, halternate⟩ := h
  simp only [Terminal.clearTabStop]
  split <;> exact .intro hprimary halternate

/-! ### Saved cursors and the alternate screen -/

/-- What is saved of the cursor is the same, so a later restore finds the same. -/
theorem saveCursor (h : t.Relinked f links u) : t.saveCursor.Relinked f links u.saveCursor := by
  obtain ⟨hprimary, halternate⟩ := h
  rw [Terminal.saveCursor, Terminal.saveCursor]
  dsimp only
  split <;> exact .intro hprimary halternate

/-- A restore brings back the pen without a link. -/
theorem restoreCursor (h : t.Relinked f links u) :
    t.restoreCursor.Relinked f links u.restoreCursor := by
  have hsaved : u.savedCursor? = t.savedCursor? := by
    cases h
    rfl
  obtain ⟨hprimary, halternate⟩ := h
  rw [Terminal.restoreCursor, Terminal.restoreCursor, hsaved]
  split <;> exact .intro hprimary halternate

theorem savePlace (h : t.Relinked f links u) : t.savePlace.Relinked f links u.savePlace := by
  obtain ⟨hprimary, halternate⟩ := h
  exact .intro hprimary halternate

theorem restorePlace (h : t.Relinked f links u) :
    t.restorePlace.Relinked f links u.restorePlace := by
  have hplace : u.savedPlace = t.savedPlace := by
    cases h
    rfl
  rw [Terminal.restorePlace, Terminal.restorePlace, hplace, h.rows_eq, h.cols_eq]
  split
  · exact h.moveTo _ _
  · exact h

theorem blankAlternate (h : t.Relinked f links u) :
    t.blankAlternate.Relinked f links u.blankAlternate := by
  obtain ⟨hprimary, halternate⟩ := h
  have hfill := halternate.fill t.blank
  rw [blank, Cell.relink_blank] at hfill
  exact .intro hprimary hfill

/-- The screen that is left is kept with its links. -/
theorem enterAlternate (h : t.Relinked f links u) (clear : Bool) :
    (t.enterAlternate clear).Relinked f links (u.enterAlternate clear) := by
  have hcleared : (if clear then t.blankAlternate else t).Relinked f links
      (if clear then u.blankAlternate else u) := by
    split
    · exact h.blankAlternate
    · exact h
  rw [Terminal.enterAlternate, Terminal.enterAlternate, h.modes_eq]
  split
  · exact h
  · generalize (if clear then t.blankAlternate else t) = t' at hcleared
    generalize (if clear then u.blankAlternate else u) = u' at hcleared
    obtain ⟨hprimary, halternate⟩ := hcleared
    exact .intro hprimary (halternate.setView 0)

/-- The primary screen comes back as it was left, on both sides. -/
theorem exitAlternate (h : t.Relinked f links u) (clear : Bool) :
    (t.exitAlternate clear).Relinked f links (u.exitAlternate clear) := by
  have hcleared : (if clear then t.blankAlternate else t).Relinked f links
      (if clear then u.blankAlternate else u) := by
    split
    · exact h.blankAlternate
    · exact h
  rw [Terminal.exitAlternate, Terminal.exitAlternate, h.modes_eq]
  split
  · generalize (if clear then t.blankAlternate else t) = t' at hcleared
    generalize (if clear then u.blankAlternate else u) = u' at hcleared
    obtain ⟨hprimary, halternate⟩ := hcleared
    exact .intro hprimary halternate
  · exact h

/-! ### Modes -/

theorem setMode (h : t.Relinked f links u) (mode : Nat) (on : Bool) :
    (t.setMode mode on).Relinked f links (u.setMode mode on) := by
  simp only [Terminal.setMode]
  split
  · exact h.onModes _
  · exact h.onModes _
  · exact h

/-- Switching a mode may change the screen, the cursor and the modes, all of them in the same way.
    -/
theorem switch (h : t.Relinked f links u) (mode : PrivateMode) (on : Bool) :
    (t.switch mode on).Relinked f links (u.switch mode on) := by
  cases mode with
  | origin => exact (h.onModes _).setPosition 0 0
  | cursorBlinking =>
      rw [Terminal.switch, Terminal.switch]
      exact h.onCursor _
  | alternateScreen =>
      cases on with
      | true => exact h.enterAlternate false
      | false => exact h.exitAlternate false
  | blankAlternateScreen =>
      cases on with
      | true => exact h.enterAlternate true
      | false => exact h.exitAlternate true
  | savedCursor =>
      cases on with
      | true => exact h.saveCursor
      | false => exact h.restoreCursor
  | alternateScreenAndCursor =>
      rw [Terminal.switch, Terminal.switch, h.modes_eq]
      split
      · split
        · exact h
        · exact h.saveCursor.enterAlternate true
      · split
        · exact (h.exitAlternate false).restoreCursor
        · exact h
  | _ =>
      rw [Terminal.switch, Terminal.switch]
      exact h.onModes _

/-- A mode that is not known changes nothing on either side. -/
theorem setPrivateMode (h : t.Relinked f links u) (mode : Nat) (on : Bool) :
    (t.setPrivateMode mode on).Relinked f links (u.setPrivateMode mode on) := by
  rw [Terminal.setPrivateMode, Terminal.setPrivateMode]
  split
  · exact h.switch _ on
  · exact h

/-- The value of a mode is the same, so it is saved and reported alike. -/
theorem isOn?_eq (h : t.Relinked f links u) (mode : PrivateMode) : u.isOn? mode = t.isOn? mode := by
  cases h
  cases mode <;> rfl

theorem savePrivateMode (h : t.Relinked f links u) (mode : Nat) :
    (t.savePrivateMode mode).Relinked f links (u.savePrivateMode mode) := by
  have hvalue : u.privateMode? mode = t.privateMode? mode :=
    congrArg _ (funext fun m => h.isOn?_eq m)
  rw [Terminal.savePrivateMode, Terminal.savePrivateMode, hvalue]
  split
  · exact h.onModes _
  · exact h

theorem restorePrivateMode (h : t.Relinked f links u) (mode : Nat) :
    (t.restorePrivateMode mode).Relinked f links (u.restorePrivateMode mode) := by
  rw [Terminal.restorePrivateMode, Terminal.restorePrivateMode, h.modes_eq]
  split
  · exact h.setPrivateMode mode _
  · exact h

/-- Modes are restored one after the other. -/
theorem restorePrivateModes (h : t.Relinked f links u) (modes : List Nat) :
    (t.restorePrivateModes modes).Relinked f links (u.restorePrivateModes modes) := by
  rw [Terminal.restorePrivateModes, Terminal.restorePrivateModes, h.modes_eq]
  exact h.foldl (fun mode h => h.restorePrivateMode mode) _

/-! ### Resizing and resetting -/

/-- A new terminal has no links, so any change of numbers relates it to itself. -/
theorem new (f : Renumbering) (cols rows limit : Nat) (sgr21 : Sgr21) :
    (Terminal.new cols rows limit sgr21).Relinked f {} (Terminal.new cols rows limit sgr21) := by
  have hempty := @Relinked.intro f {} (Terminal.new cols rows limit sgr21) _ _
    (Screen.Relinked.empty f cols rows limit) (Screen.Relinked.empty f cols rows 0)
  rwa [show f (Terminal.new cols rows limit sgr21).openLink = 0 from f.zero] at hempty

/-- Rows are cut or extended by erased cells, in both screens. -/
theorem resize (h : t.Relinked f links u) (cols rows : Nat) :
    (t.resize cols rows).Relinked f links (u.resize cols rows) := by
  obtain ⟨hprimary, halternate⟩ := h
  exact .intro (hprimary.resize cols rows) (halternate.resize cols rows)

theorem resetRegions (h : t.Relinked f links u) :
    t.resetRegions.Relinked f links u.resetRegions := by
  obtain ⟨hprimary, halternate⟩ := h
  exact .intro hprimary.resetRegion halternate.resetRegion

/-- The alignment pattern has no links. -/
theorem screenAlignment (h : t.Relinked f links u) :
    t.screenAlignment.Relinked f links u.screenAlignment := by
  refine setPosition (h.resetRegions.onScreen fun {s v} hs => ?_) 0 0
  have hfill := hs.fill { base := 'E' }
  rwa [Cell.relink_of_link f rfl] at hfill

/-- What a soft reset resets has no links in it. -/
theorem softReset (h : t.Relinked f links u) : t.softReset.Relinked f links u.softReset := by
  obtain ⟨hprimary, halternate⟩ := h
  exact .intro hprimary.resetRegion halternate.resetRegion

/-- The full reset gives both an empty table. -/
theorem fullReset (h : t.Relinked f links u) : t.fullReset.Relinked f {} u.fullReset := by
  have hlimit : u.primary.historyLimit = t.primary.historyLimit := by
    obtain ⟨hprimary, halternate⟩ := h
    cases hprimary
    rfl
  have hmeaning : u.sgr21 = t.sgr21 := by
    cases h
    rfl
  rw [Terminal.fullReset, Terminal.fullReset, h.cols_eq, h.rows_eq, hlimit, hmeaning]
  exact .new f _ _ _ _

/-! ### Titles and colors -/

/-- Titles are kept beside the screens. -/
theorem pushTitle (h : t.Relinked f links u) : t.pushTitle.Relinked f links u.pushTitle := by
  obtain ⟨hprimary, halternate⟩ := h
  exact .intro hprimary halternate

/-- Operations on the window change titles only. -/
theorem applyWindowOperation (h : t.Relinked f links u) (args : List Nat) :
    (t.applyWindowOperation args).1.Relinked f links (u.applyWindowOperation args).1 := by
  rw [Terminal.applyWindowOperation, Terminal.applyWindowOperation]
  split
  · exact h
  · exact h.pushTitle
  · have hstack : u.titleStack = t.titleStack := by
      cases h
      rfl
    rw [popTitle?, popTitle?, hstack]
    cases t.titleStack with
    | nil => exact h
    | cons entry rest =>
        obtain ⟨hprimary, halternate⟩ := h
        exact .intro hprimary halternate
  · exact h

theorem setCursorStyle (h : t.Relinked f links u) (n : Nat) :
    (t.setCursorStyle n).Relinked f links (u.setCursorStyle n) := by
  rw [Terminal.setCursorStyle, Terminal.setCursorStyle]
  split
  · exact h.onCursor _
  · exact h

/-- The colors that a program sets are kept beside the screens. -/
theorem applyColor (h : t.Relinked f links u) (ending : StringEnd) (code : Nat) (spec : List Char) :
    (Terminal.applyColor ending t code spec).1.Relinked f links
      (Terminal.applyColor ending u code spec).1 := by
  obtain ⟨hprimary, halternate⟩ := h
  rw [Terminal.applyColor, Terminal.applyColor]
  split
  · exact .intro hprimary halternate
  · split
    · dsimp only
      split <;> exact .intro hprimary halternate
    · exact .intro hprimary halternate

theorem applyColors (h : t.Relinked f links u) (ending : StringEnd) (code : Nat)
    (specs : List (List Char)) :
    (Terminal.applyColors ending t code specs).1.Relinked f links
      (Terminal.applyColors ending u code specs).1 := by
  induction specs generalizing t u code with
  | nil => exact h
  | cons spec specs ih =>
      rw [Terminal.applyColors, Terminal.applyColors]
      split
      · exact h
      · exact ih (h.applyColor ending code spec) (code + 1)

/-! ### Messages -/

/-- Controls move the cursor, scroll and shift charsets. -/
theorem applyControl (h : t.Relinked f links u) (b : UInt8) :
    (t.applyControl b).1.Relinked f links (u.applyControl b).1 := by
  rw [Terminal.applyControl, Terminal.applyControl]
  split
  · exact h
  split
  · exact h.backspace
  split
  · exact h.forwardTab 1
  split
  · exact h.linefeed
  split
  · exact h.carriageReturn
  obtain ⟨hprimary, halternate⟩ := h
  split
  · exact .intro hprimary halternate
  split
  · exact .intro hprimary halternate
  · exact .intro hprimary halternate

/-- One case for each control function. -/
theorem applyFunction (h : t.Relinked f links u) (c : ControlFunction) :
    (t.applyFunction c).1.Relinked f links (u.applyFunction c).1 := by
  cases c with
  | cursorUp n => exact h.cursorUp n
  | cursorDown n => exact h.cursorDown n
  | cursorForward n => exact h.cursorForward n
  | cursorBackward n => exact h.cursorBackward n
  | nextLine n => exact (h.cursorDown n).carriageReturn
  | precedingLine n => exact (h.cursorUp n).carriageReturn
  | cursorColumn col => exact h.setColumn _
  | cursorRow row => exact h.setRow _
  | cursorPosition row col => exact h.setPosition _ _
  | forwardTab n => exact h.forwardTab n
  | backwardTab n => exact h.backwardTab n
  | eraseInDisplay extent selective => exact h.eraseInDisplay extent selective
  | eraseInLine extent selective => exact h.eraseInLine extent selective
  | eraseChars n => exact h.eraseChars n
  | scrollUp n => exact h.scroll n .up
  | scrollDown n => exact h.scroll n .down
  | insertLines n => exact h.shiftFromCursor n .down
  | deleteLines n => exact h.shiftFromCursor n .up
  | insertChars n => exact h.insertChars n
  | deleteChars n => exact h.deleteChars n
  | repeatLast n => exact h.repeatLast n
  | clearTab extent => exact h.clearTabStop extent
  | setMode modes on => exact h.foldl (fun mode h => h.setMode mode on) modes
  | setPrivateMode modes on => exact h.foldl (fun mode h => h.setPrivateMode mode on) modes
  | savePrivateModes modes => exact h.foldl (fun mode h => h.savePrivateMode mode) _
  | restorePrivateModes modes => exact h.restorePrivateModes modes
  | setScrollRegion top bottom => exact h.setScrollRegion top bottom
  | saveCursor => exact h.savePlace
  | restoreCursor => exact h.restorePlace
  | windowOperation args => exact h.applyWindowOperation args
  | cursorStyle n => exact h.setCursorStyle n
  | protection n =>
      obtain ⟨hprimary, halternate⟩ := h
      exact .intro hprimary halternate
  | softReset => exact h.softReset
  | deviceStatus request =>
      rw [applyFunction_deviceStatus, applyFunction_deviceStatus]
      exact h
  | privateDeviceStatus request =>
      rw [applyFunction_privateDeviceStatus, applyFunction_privateDeviceStatus]
      exact h
  | _ => exact h

theorem designate (h : t.Relinked f links u) (slot : CharsetSlot) (b : UInt8) :
    (t.designate slot b).Relinked f links (u.designate slot b) := by
  obtain ⟨hprimary, halternate⟩ := h
  rw [Terminal.designate, Terminal.designate]
  split <;> exact .intro hprimary halternate

/-- The exception is a full reset, which forgets the table of links. -/
theorem applyEscape (h : t.Relinked f links u) {sequence : List UInt8}
    (hreset : (sequence.map fun b => Char.ofNat b.toNat) ≠ ['c']) :
    (t.applyEscape sequence).Relinked f links (u.applyEscape sequence) := by
  rw [Terminal.applyEscape, Terminal.applyEscape]
  split
  · exact h.saveCursor
  · exact h.restoreCursor
  · exact h.index
  · exact h.nextLine
  · exact h.reverseIndex
  · exact h.setTabStop
  · rename_i hsequence
    exact absurd hsequence hreset
  · exact h.onModes _
  · exact h.onModes _
  · exact h.screenAlignment
  · exact h.designate _ _
  · exact h.designate _ _
  · exact h

end Relinked

end VideoTerminal.Terminal

namespace VideoTerminal

/-- The identity and the target of the link that a system command opens, if it opens one. -/
def SystemCommand.opened? : SystemCommand → Option (String × String)
  | .hyperlink id target => if target = "" then none else some (id, target)
  | _ => none

/-- The identity and the target of the link that a message opens, if it opens one. -/
def Message.opened? : Message → Option (String × String)
  | .osc code data _ => (SystemCommand.ofOsc code data).opened?
  | _ => none

/-- Whether a message resets everything. -/
def Message.isFullReset : Message → Bool
  | .esc sequence => decide ((sequence.map fun b => Char.ofNat b.toNat) = ['c'])
  | _ => false

namespace Terminal

/-- A full reset leaves nothing of what was before but the size and what was set for good. -/
theorem apply_fullReset {m : Message} (hm : m.isFullReset = true) (t : Terminal) :
    (t.apply m).1 = t.fullReset := by
  cases m with
  | esc sequence =>
      have hsequence := of_decide_eq_true hm
      show t.applyEscape sequence = t.fullReset
      rw [applyEscape, hsequence]
      rfl
  | _ => cases hm

/-- A message that opens a link does only this. -/
theorem apply_opened {m : Message} {id target : String} (hm : m.opened? = some (id, target))
    (t : Terminal) : (t.apply m).1 = t.openHyperlink id target ∧ target ≠ "" := by
  cases m with
  | osc code data ending =>
      rw [Message.opened?] at hm
      rw [apply]
      generalize SystemCommand.ofOsc code data = c at hm
      cases c with
      | hyperlink id' target' =>
          rw [SystemCommand.opened?] at hm
          split at hm
          · cases hm
          · rename_i htarget
            cases hm
            rw [applyCommand, if_neg htarget]
            exact ⟨rfl, htarget⟩
      | _ => cases hm
  | _ => cases hm

namespace Relinked

variable {f : Renumbering} {links : LinkTable} {t u : Terminal}

/-- The end of a link is no link on either side. -/
theorem closeHyperlink (h : t.Relinked f links u) :
    t.closeHyperlink.Relinked f links u.closeHyperlink := by
  obtain ⟨hprimary, halternate⟩ := h
  have hclosed := @Relinked.intro f links t.closeHyperlink _ _ hprimary halternate
  rwa [show f t.closeHyperlink.openLink = 0 from f.zero] at hclosed

/-- The exception is a command that opens a link, which takes its number from the table. -/
theorem applyCommand (h : t.Relinked f links u) {c : SystemCommand} (hc : c.opened? = none)
    (ending : StringEnd) :
    (t.applyCommand c ending).1.Relinked f links (u.applyCommand c ending).1 := by
  cases c with
  | hyperlink id target =>
      by_cases htarget : target = ""
      · rw [Terminal.applyCommand, Terminal.applyCommand, if_pos htarget, if_pos htarget]
        exact h.closeHyperlink
      · rw [SystemCommand.opened?, if_neg htarget] at hc
        cases hc
  | dynamicColors first specs => exact h.applyColors ending first specs
  | resetDynamicColor code =>
      rw [applyCommand_resetDynamicColor, applyCommand_resetDynamicColor]
      obtain ⟨hprimary, halternate⟩ := h
      dsimp only
      split <;> exact .intro hprimary halternate
  | _ =>
      obtain ⟨hprimary, halternate⟩ := h
      exact .intro hprimary halternate

/-- **Numbers make no difference.**  A message that opens no link does the same to terminals that
    differ in the numbers of links only, and it leaves the table alone, unless it resets
    everything. -/
theorem apply (h : t.Relinked f links u) {m : Message} (hm : m.opened? = none)
    (hreset : m.isFullReset = false) : (t.apply m).1.Relinked f links (u.apply m).1 := by
  cases m with
  | print text => exact h.foldl (fun c h => h.print c) text
  | control b => exact h.applyControl b
  | sgr params =>
      obtain ⟨hprimary, halternate⟩ := h
      exact .intro hprimary halternate
  | csi marker params intermediates final => exact h.applyFunction _
  | osc code data ending => exact h.applyCommand hm ending
  | esc sequence => exact h.applyEscape (of_decide_eq_false hreset)
  | dcs params intermediates final data => exact h

end Relinked

end Terminal

end VideoTerminal
