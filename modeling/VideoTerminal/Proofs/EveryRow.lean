import VideoTerminal.Proofs.Printing
import VideoTerminal.Proofs.Reachable
import VideoTerminal.Proofs.RowHalves

/-!
# What holds of every row

A property of single rows that nothing ends that is done to a row holds of all rows of a terminal at
any time: on the grids of both screens and in their histories.  What is done to rows is listed once,
in `Row.Lasting`, and erasing apart from the rest in `Row.LastingErased`, since it is less careful
with wide characters.  From there the property is carried to screens and to terminals, with one
lemma for each operation, and then to messages and calls.

Of the cursor only the column matters, which has to be one of the row.
-/

namespace VideoTerminal

/-- A blank cell of any background, which is narrow and has no link. -/
structure Cell.IsPlain (b : Cell) : Prop where
  narrow : b.IsNarrow
  unlinked : b.link = 0

/-- An erased cell is plain. -/
theorem Cell.isPlain_blank (a : Rendition) : (Cell.blank a).IsPlain := ⟨isNarrow_blank a, rfl⟩

/-- A mark that joins a cell changes nothing but the marks. -/
theorem Cell.addMark_eq (c : Cell) (m : Char) : ∃ marks, c.addMark m = { c with marks } := by
  rw [addMark]
  split
  · exact ⟨_, rfl⟩
  · exact ⟨c.marks, rfl⟩

/-- What changes the marks of a cell leaves its width alone. -/
theorem Cell.width_of_marks {f : Cell → Cell} (hf : ∀ c, ∃ marks, f c = { c with marks })
    (c : Cell) : (f c).width = c.width := by
  obtain ⟨marks, hmarks⟩ := hf c
  rw [hmarks]

/-- A property of rows of a width that is kept by all that is done to a row but erasing, where only
cells of the kind `Ink` are written. -/
structure Row.Lasting (Ink : Cell → Prop) (P : Nat → Row → Prop) : Prop where
  size {cols : Nat} {r : Row} : P cols r → r.cells.size = cols
  filled {b : Cell} : b.IsPlain → ∀ cols, P cols (Row.filled cols b)
  wrapped {cols : Nat} {r : Row} : P cols r → P cols { r with wrapped := true }
  modify {cols : Nat} {r : Row} {f : Cell → Cell} : (∀ c, ∃ marks, f c = { c with marks }) →
    ∀ col, P cols r → P cols (r.modify col f)
  write {cols col : Nat} {r : Row} {b g k : Cell} : b.IsPlain → Ink g → Ink k →
    g.isContinuation = false → k.isContinuation = true → col < cols →
    (g.isWide = true → col + 1 < cols) → P cols r → P cols (r.write col b g k)
  insert {cols col : Nat} {r : Row} {b : Cell} : b.IsPlain → col < cols → ∀ n,
    P cols r → P cols (r.insert b col n)
  delete {cols col : Nat} {r : Row} {b : Cell} : b.IsPlain → col < cols → ∀ n,
    P cols r → P cols (r.delete b col n)
  resize {cols : Nat} {r : Row} : ∀ n, P cols r → P n (r.resize n)

/-- A property that is also kept by erasing. -/
structure Row.LastingErased (Ink : Cell → Prop) (P : Nat → Row → Prop) : Prop
    extends Row.Lasting Ink P where
  erase {cols : Nat} {r : Row} {b : Cell} : b.IsPlain → ∀ start stop selective,
    P cols r → P cols (r.erase b start stop selective)

/-! ## Screens -/

/-- A screen of a width, with a property that holds of each of its rows. -/
structure Screen.RowsHold (P : Nat → Row → Prop) (cols : Nat) (s : Screen) : Prop where
  cols_eq : s.cols = cols
  grid : ∀ r ∈ s.grid, P cols r
  history : ∀ r ∈ s.history.toList, P cols r

namespace Screen.RowsHold

variable {P : Nat → Row → Prop} {cols : Nat} {s : Screen} {b : Cell}

/-- The rows of the grid, as one array that satisfies the property throughout. -/
theorem rows (h : s.RowsHold P cols) : AllOf (P cols) s.grid.size s.grid := ⟨rfl, h.grid⟩

/-- A row may be changed by what keeps the property. -/
theorem modifyRow (h : s.RowsHold P cols) {f : Row → Row} (hf : ∀ r, P cols r → P cols (f r))
    (row : Nat) : (s.modifyRow row f).RowsHold P cols :=
  { h with grid := (h.rows.modify hf row).each }

/-- So may several rows. -/
theorem modifyRows (h : s.RowsHold P cols) {f : Row → Row} (hf : ∀ r, P cols r → P cols (f r))
    (first n : Nat) :
    ({ s with grid := modifyRange f first n s.grid } : Screen).RowsHold P cols :=
  { h with grid := (AllOf.modifyRange hf first n h.rows).each }

/-- The region has no rows of its own. -/
theorem setRegion (h : s.RowsHold P cols) (r : Region) : (s.setRegion r).RowsHold P cols := by
  rw [Screen.setRegion]
  split
  · exact { h with }
  · exact h

theorem resetRegion (h : s.RowsHold P cols) : s.resetRegion.RowsHold P cols := { h with }

theorem viewReset (h : s.RowsHold P cols) : s.viewReset.RowsHold P cols := { h with }

theorem clearHistory (h : s.RowsHold P cols) : s.clearHistory.RowsHold P cols :=
  { h with history := fun _ hr => absurd hr List.not_mem_nil }

/-- A row joins the history, from which others may be dropped. -/
theorem remember (h : s.RowsHold P cols) {r : Row} (hr : P cols r) :
    (s.remember r).RowsHold P cols := by
  rw [Screen.remember]
  split
  · exact h
  · refine { h with history := fun q hq => ?_ }
    rw [History.toList_truncate, History.toList_push] at hq
    rcases List.mem_append.mp (List.mem_of_mem_drop hq) with hq | hq
    · exact h.history q hq
    · rw [List.mem_singleton.mp hq]
      exact hr

/-- Rows join the history one by one. -/
theorem rememberAll (h : s.RowsHold P cols) {leaving : Array Row}
    (hl : ∀ r ∈ leaving, P cols r) : (leaving.foldl Screen.remember s).RowsHold P cols := by
  refine Array.foldl_induction (motive := fun _ s => Screen.RowsHold P cols s) h ?_
  intro i s hs
  exact hs.remember (hl _ (Array.getElem_mem i.isLt))

variable {Ink : Cell → Prop} (hP : Row.Lasting Ink P)

include hP

/-- Rows filled with a blank are erased rows. -/
theorem fill (h : s.RowsHold P cols) (hb : b.IsPlain) : (s.fill b).RowsHold P cols := by
  refine { h with grid := (h.rows.map fun r hr => ?_).each }
  rw [Row.fill, hP.size hr]
  exact hP.filled hb cols

/-- Rows that are shifted stay as they are, and blank rows come in. -/
theorem shiftRows (h : s.RowsHold P cols) (hb : b.IsPlain) (top bottom count : Nat)
    (dir : Direction) : (s.shiftRows top bottom count dir b).RowsHold P cols := by
  rw [Screen.shiftRows]
  dsimp only
  split
  · exact h
  · rename_i hrange
    rw [not_or, Array.isEmpty_iff_size_eq_zero] at hrange
    have hlast : s.lastRow bottom < s.grid.size := by
      rw [lastRow]
      omega
    have hblank : P cols (Row.filled s.cols b) := h.cols_eq ▸ hP.filled hb s.cols
    have hshifted := allOf_shifted (h.rows.extract top (s.lastRow bottom + 1)) hblank
      (k := min count (s.lastRow bottom + 1 - top)) (by omega) dir
    -- above the region, the shifted rows of it, and below
    exact { h with grid := (((h.rows.extract 0 top).append hshifted).append
      (h.rows.extract (s.lastRow bottom + 1) s.grid.size)).each }

/-- Rows are moved, remembered or replaced by blank ones. -/
theorem scroll (h : s.RowsHold P cols) (hb : b.IsPlain) (top bottom count : Nat)
    (dir : Direction) : (s.scroll top bottom count dir b).RowsHold P cols := by
  rw [Screen.scroll]
  split
  · exact (h.shiftRows hP hb top bottom count dir).rememberAll (h.rows.extract 0 _).each
  · exact h.shiftRows hP hb top bottom count dir

/-- An empty screen has blank rows only. -/
theorem empty (cols rows limit : Nat) : (empty cols rows limit).RowsHold P cols :=
  ⟨rfl, (AllOf.replicate (hP.filled ⟨⟨rfl, rfl⟩, rfl⟩ cols) rows).each, nofun⟩

/-- Rows are cut or extended to the new width, in grid and history. -/
theorem resize (h : s.RowsHold P cols) (cols' rows' : Nat) :
    (s.resize cols' rows').RowsHold P cols' where
  cols_eq := rfl
  grid := by
    have hrows : ∀ r ∈ s.grid.take rows' ++ Array.replicate (rows' - s.grid.size) (Row.empty cols'),
        P cols' (r.resize cols') := by
      refine Array.forall_mem_append.mpr ⟨fun r hr => ?_, fun r hr => ?_⟩
      · exact hP.resize cols' ((h.rows.extract 0 rows').each r hr)
      · rw [(Array.mem_replicate.mp hr).2]
        exact hP.resize cols' (hP.filled ⟨⟨rfl, rfl⟩, rfl⟩ cols')
    intro r hr
    obtain ⟨q, hq, rfl⟩ := Array.mem_map.mp hr
    exact hrows q hq
  history := by
    intro r hr
    rw [show (s.resize cols' rows').history = s.history.map (·.resize cols') from rfl,
      History.toList_map] at hr
    obtain ⟨q, hq, rfl⟩ := List.mem_map.mp hr
    exact hP.resize cols' (h.history q hq)

end Screen.RowsHold

/-! ## Terminals -/

namespace Terminal

/-- A property that holds of every row, on the grids of both screens and in their histories. -/
structure RowsHold (P : Nat → Row → Prop) (t : Terminal) : Prop where
  primary : t.primary.RowsHold P t.cols
  alternate : t.alternate.RowsHold P t.cols

/-- The same, and the cursor stands in a column of the rows. -/
structure CursorRowsHold (P : Nat → Row → Prop) (t : Terminal) : Prop extends t.RowsHold P where
  cursor : t.cursor.col < t.cols

variable {P : Nat → Row → Prop} {t : Terminal}

namespace RowsHold

/-- An operation that is right for both screens is right for the one that is shown. -/
theorem onScreen (h : t.RowsHold P) {f : Screen → Screen}
    (hf : ∀ {s : Screen}, s.RowsHold P t.cols → (f s).RowsHold P t.cols) :
    (t.onScreen f).RowsHold P := by
  rw [Terminal.onScreen]
  split
  · exact { h with alternate := hf h.alternate }
  · exact { h with primary := hf h.primary }

/-- The row of the cursor is one of the grid. -/
theorem onCursorRow (h : t.RowsHold P) {f : Row → Row} (hf : ∀ r, P t.cols r → P t.cols (f r)) :
    (t.onCursorRow f).RowsHold P :=
  h.onScreen fun hs => hs.modifyRow hf _

/-- Where the cursor is makes no difference to rows. -/
theorem onCursor (h : t.RowsHold P) (f : Cursor → Cursor) : (t.onCursor f).RowsHold P := { h with }

theorem clearPending (h : t.RowsHold P) : t.clearPending.RowsHold P := h.onCursor _

/-- Neither do its moves. -/
theorem moveTo (h : t.RowsHold P) (row col : Nat) : (t.moveTo row col).RowsHold P := h.onCursor _

theorem setPosition (h : t.RowsHold P) (row col : Nat) : (t.setPosition row col).RowsHold P :=
  h.moveTo _ _

theorem backspace (h : t.RowsHold P) : t.backspace.RowsHold P := by
  rw [Terminal.backspace]
  split
  · exact h.onCursor _
  · exact h.moveTo _ _

/-- Nor the region they are scrolled in. -/
theorem setScrollRegion (h : t.RowsHold P) (top bottom : Nat) :
    (t.setScrollRegion top bottom).RowsHold P := by
  rw [Terminal.setScrollRegion]
  generalize (if bottom = 0 then t.rows else min bottom t.rows) = stop
  dsimp only
  split
  · exact h
  · refine setPosition ?_ 0 0
    exact ⟨h.primary.setRegion _, h.alternate.setRegion _⟩

theorem resetRegions (h : t.RowsHold P) : t.resetRegions.RowsHold P :=
  ⟨h.primary.resetRegion, h.alternate.resetRegion⟩

/-- A soft reset leaves the rows as they are. -/
theorem softReset (h : t.RowsHold P) : t.softReset.RowsHold P := { h.resetRegions with }

theorem saveCursor (h : t.RowsHold P) : t.saveCursor.RowsHold P := by
  rw [Terminal.saveCursor]
  split <;> exact { h with }

/-- A restored cursor comes without rows. -/
theorem restoreCursor (h : t.RowsHold P) : t.restoreCursor.RowsHold P := by
  rw [Terminal.restoreCursor]
  split <;> exact { h with }

theorem restorePlace (h : t.RowsHold P) : t.restorePlace.RowsHold P := by
  rw [Terminal.restorePlace]
  split
  · exact h.moveTo _ _
  · exact h

/-- Only private modes exchange the screens. -/
theorem setMode (h : t.RowsHold P) (mode : Nat) (on : Bool) : (t.setMode mode on).RowsHold P := by
  simp only [Terminal.setMode]
  split
  · exact { h with }
  · exact { h with }
  · exact h

theorem savePrivateMode (h : t.RowsHold P) (mode : Nat) : (t.savePrivateMode mode).RowsHold P := by
  rw [Terminal.savePrivateMode]
  split
  · exact { h with }
  · exact h

/-- What one step of a list keeps, the whole list keeps. -/
theorem foldl {α : Type} {f : Terminal → α → Terminal}
    (hf : ∀ {t : Terminal} (a : α), t.RowsHold P → (f t a).RowsHold P) (h : t.RowsHold P)
    (as : List α) : (as.foldl f t).RowsHold P :=
  List.foldlRecOn as f h fun _ ht a _ => hf a ht

section Lasting

variable {Ink : Cell → Prop} (hP : Row.Lasting Ink P)

include hP

/-- A new terminal has blank rows only. -/
theorem new (cols rows limit : Nat) (sgr21 : Sgr21) : (new cols rows limit sgr21).RowsHold P :=
  ⟨.empty hP cols rows limit, .empty hP cols rows 0⟩

/-- A scroll brings in blank rows. -/
theorem scroll (h : t.RowsHold P) (n : Nat) (dir : Direction) : (t.scroll n dir).RowsHold P :=
  h.onScreen fun hs => hs.scroll hP (Cell.isPlain_blank _) _ _ _ _

/-- At the end of the region an index is a scroll. -/
theorem index (h : t.RowsHold P) : t.index.RowsHold P := by
  have hclear := h.clearPending
  dsimp only [Terminal.index]
  split
  · exact hclear.scroll hP 1 .up
  · split
    · exact hclear.moveTo _ _
    · exact hclear

theorem reverseIndex (h : t.RowsHold P) : t.reverseIndex.RowsHold P := by
  have hclear := h.clearPending
  dsimp only [Terminal.reverseIndex]
  split
  · exact hclear.scroll hP 1 .down
  · exact hclear.moveTo _ _

theorem linefeed (h : t.RowsHold P) : t.linefeed.RowsHold P := by
  dsimp only [Terminal.linefeed]
  split
  · exact (h.index hP).moveTo _ _
  · exact h.index hP

/-- Inserting and deleting lines are scrolls of part of the region. -/
theorem shiftFromCursor (h : t.RowsHold P) (n : Nat) (dir : Direction) :
    (t.shiftFromCursor n dir).RowsHold P := by
  dsimp only [Terminal.shiftFromCursor]
  split
  · exact h
  · refine moveTo ?_ _ _
    exact h.onScreen fun hs => hs.shiftRows hP (Cell.isPlain_blank _) _ _ _ _

/-- The mark of a wrapped row is all that changes in it. -/
theorem wrapLine (h : t.RowsHold P) : t.wrapLine.RowsHold P := by
  have hmarked : (t.onScreen (·.markWrapped t.cursor.row)).RowsHold P :=
    h.onCursorRow fun _ hr => hP.wrapped hr
  exact (hmarked.moveTo _ _).index hP

/-- A wrap may be due or not. -/
theorem takeWrap (h : t.RowsHold P) : t.takeWrap.RowsHold P := by
  rw [Terminal.takeWrap]
  split
  · exact h.wrapLine hP
  · exact h

theorem makeRoom (h : t.RowsHold P) (width : Nat) : (t.makeRoom width).RowsHold P := by
  rw [Terminal.makeRoom]
  split
  · split
    · exact h.wrapLine hP
    · exact h.onCursor _
  · exact h

/-- A mark is added to a cell, whose width it leaves alone. -/
theorem addMark (h : t.RowsHold P) (c : Char) : (t.addMark c).RowsHold P := by
  rw [Terminal.addMark]
  split
  · exact h.onCursorRow fun _ hr => hP.modify (fun cell => cell.addMark_eq c) _ hr
  · exact h

/-- Every row is filled with the same narrow cell. -/
theorem screenAlignment (h : t.RowsHold P) : t.screenAlignment.RowsHold P :=
  (h.resetRegions.onScreen fun hs => hs.fill hP ⟨⟨rfl, rfl⟩, rfl⟩).setPosition 0 0

/-- All rows of both screens and histories get the new width. -/
theorem resize (h : t.RowsHold P) (cols rows : Nat) : (t.resize cols rows).RowsHold P :=
  ⟨h.primary.resize hP cols rows, h.alternate.resize hP cols rows⟩

/-! ### Screen switches -/

/-- The alternate screen is blanked, or left. -/
theorem blankAlternateIf (h : t.RowsHold P) (clear : Bool) :
    (if clear then t.blankAlternate else t).RowsHold P := by
  split
  · exact { h with alternate := h.alternate.fill hP (Cell.isPlain_blank _) }
  · exact h

theorem enterAlternate (h : t.RowsHold P) (clear : Bool) : (t.enterAlternate clear).RowsHold P := by
  rw [Terminal.enterAlternate]
  split
  · exact h
  · have hcleared := h.blankAlternateIf hP clear
    exact { hcleared with alternate := hcleared.alternate.viewReset }

/-- The primary screen comes back with the rows it had. -/
theorem exitAlternate (h : t.RowsHold P) (clear : Bool) : (t.exitAlternate clear).RowsHold P := by
  rw [Terminal.exitAlternate]
  split
  · exact { h.blankAlternateIf hP clear with }
  · exact h

/-- Switching a mode exchanges screens or changes no row. -/
theorem switch (h : t.RowsHold P) (mode : PrivateMode) (on : Bool) :
    (t.switch mode on).RowsHold P := by
  cases mode with
  | alternateScreen =>
      cases on with
      | true => exact h.enterAlternate hP false
      | false => exact h.exitAlternate hP false
  | blankAlternateScreen =>
      cases on with
      | true => exact h.enterAlternate hP true
      | false => exact h.exitAlternate hP true
  | savedCursor =>
      cases on with
      | true => exact h.saveCursor
      | false => exact h.restoreCursor
  | alternateScreenAndCursor =>
      dsimp only [Terminal.switch]
      split <;> split
      · exact h
      · exact h.saveCursor.enterAlternate hP true
      · exact (h.exitAlternate hP false).restoreCursor
      · exact h
  | _ => exact { h with }

theorem setPrivateMode (h : t.RowsHold P) (mode : Nat) (on : Bool) :
    (t.setPrivateMode mode on).RowsHold P := by
  rw [Terminal.setPrivateMode]
  split
  · exact h.switch hP _ on
  · exact h

/-- A restored mode is a switched one. -/
theorem restorePrivateMode (h : t.RowsHold P) (mode : Nat) :
    (t.restorePrivateMode mode).RowsHold P := by
  rw [Terminal.restorePrivateMode]
  split
  · exact h.setPrivateMode hP mode _
  · exact h

end Lasting

end RowsHold

/-! ### In the row of the cursor -/

/-- The cells of a character, were it printed now, are of a kind. -/
structure DrawsAs (Ink : Cell → Prop) (t : Terminal) (c : Char) : Prop where
  glyph (width : Nat) : Ink (t.glyph (t.charsets.glyph c) width)
  continuation : Ink (t.glyph ' ' 0)

/-- Printing changes neither the pen nor the open link. -/
theorem DrawsAs.print {Ink : Cell → Prop} {c : Char} (h : t.DrawsAs Ink c) (d : Char) :
    (t.print d).DrawsAs Ink c := by
  have hsame : (t.print d).surroundings = t.surroundings :=
    (blind_surroundings t.surroundings).print rfl d
  have hdraws := surroundings_congr (fun u => u.DrawsAs Ink c) (fun u => ?_) hsame
  · exact hdraws ▸ h
  · exact propext ⟨fun hu => ⟨hu.glyph, hu.continuation⟩, fun hu => ⟨hu.glyph, hu.continuation⟩⟩

/-- Any cells are of the kind to which all belong. -/
theorem drawsAs_any (t : Terminal) (c : Char) : t.DrawsAs (fun _ => True) c :=
  ⟨fun _ => trivial, trivial⟩

/-- The characters that a control function prints. -/
def drawnBy (t : Terminal) : ControlFunction → List Char
  | .repeatLast _ => t.lastPrinted.toList
  | _ => []

/-- The characters that a message prints. -/
def drawn (t : Terminal) : Message → List Char
  | .print text => text
  | .csi marker params intermediates final =>
      t.drawnBy (functionOf marker params intermediates final)
  | _ => []

namespace CursorRowsHold

/-- The column of the cursor is one, so there is one. -/
theorem cols_pos (h : t.CursorRowsHold P) : 0 < t.cols := Nat.zero_lt_of_lt h.cursor

/-- What keeps the property of the row of the cursor also leaves its column a column. -/
theorem onCursorRow (h : t.CursorRowsHold P) {f : Row → Row}
    (hf : ∀ r, P t.cols r → P t.cols (f r)) : (t.onCursorRow f).CursorRowsHold P := by
  refine { h.toRowsHold.onCursorRow hf with cursor := ?_ }
  rw [onCursorRow_cursor, Terminal.onCursorRow, onScreen_cols]
  exact h.cursor

theorem clearPending (h : t.CursorRowsHold P) : t.clearPending.CursorRowsHold P := { h with }

variable {Ink : Cell → Prop} (hP : Row.Lasting Ink P)

include hP

/-- Inserted cells are blank, and a wide character that is cut loses its other half. -/
theorem insertChars (h : t.CursorRowsHold P) (n : Nat) : (t.insertChars n).CursorRowsHold P := by
  dsimp only [Terminal.insertChars]
  split
  · exact (h.onCursorRow fun _ hr =>
      hP.insert (Cell.isPlain_blank _) h.cursor n hr).clearPending
  · exact h

/-- Deleted cells leave blank ones at the end. -/
theorem deleteChars (h : t.CursorRowsHold P) (n : Nat) : (t.deleteChars n).CursorRowsHold P := by
  dsimp only [Terminal.deleteChars]
  split
  · exact (h.onCursorRow fun _ hr =>
      hP.delete (Cell.isPlain_blank _) h.cursor n hr).clearPending
  · exact h

theorem wrapLine (h : t.CursorRowsHold P) : t.wrapLine.CursorRowsHold P := by
  refine { h.toRowsHold.wrapLine hP with cursor := ?_ }
  rw [wrapLine_col, wrapLine_cols]
  exact h.cols_pos

theorem takeWrap (h : t.CursorRowsHold P) : t.takeWrap.CursorRowsHold P := by
  rw [Terminal.takeWrap]
  split
  · exact h.wrapLine hP
  · exact h

theorem makeRoom (h : t.CursorRowsHold P) (width : Nat) : (t.makeRoom width).CursorRowsHold P := by
  rw [Terminal.makeRoom]
  split
  · split
    · exact h.wrapLine hP
    · exact { h with cursor := Nat.sub_lt h.cols_pos Nat.two_pos }
  · exact h

/-- The gap is made of blank cells. -/
theorem makeGap (h : t.CursorRowsHold P) (width : Nat) : (t.makeGap width).CursorRowsHold P := by
  rw [Terminal.makeGap]
  split
  · exact h.insertChars hP width
  · exact h

/-- A glyph that is written is ink, and so is the cell behind a wide one; there is room for both. -/
theorem writeGlyph (h : t.CursorRowsHold P) {c : Char} {width : Nat} (hg : Ink (t.glyph c width))
    (hk : Ink (t.glyph ' ' 0)) (hwidth : width ≠ 0)
    (hroom : width = 2 → t.cursor.col + 1 < t.cols) : (t.writeGlyph c width).CursorRowsHold P := by
  refine h.onCursorRow fun r hr => hP.write (Cell.isPlain_blank _) hg hk ?_ rfl h.cursor ?_ hr
  · exact beq_false_of_ne hwidth
  · exact fun hwide => hroom (beq_iff_eq.mp hwide)

/-- A character is given a place by what has been said of wrap, gap and glyph. -/
theorem place (h : t.CursorRowsHold P) {c : Char} {width : Nat} (hg : Ink (t.glyph c width))
    (hk : Ink (t.glyph ' ' 0)) (hwidth : width ≠ 0) (hcols : width ≤ t.cols) :
    (t.place c width).CursorRowsHold P := by
  have hready : (t.ready width).CursorRowsHold P :=
    ((h.takeWrap hP).makeRoom hP width).makeGap hP width
  -- the pen is the same as before the wrap and the gap
  have hglyph : ∀ c n, (t.ready width).glyph c n = t.glyph c n := fun c n =>
    surroundings_congr (·.glyph c n) (fun _ => rfl) (t.ready_surroundings width)
  have hroom : width = 2 → (t.ready width).cursor.col + 1 < (t.ready width).cols := by
    rintro rfl
    rw [ready, makeGap_col, makeGap_cols]
    exact makeRoom_col _ (takeWrap_cols t ▸ hcols)
  have hwritten : ((t.ready width).writeGlyph c width).CursorRowsHold P :=
    hready.writeGlyph hP ((hglyph c width).symm ▸ hg) ((hglyph ' ' 0).symm ▸ hk) hwidth hroom
  refine ⟨{ hwritten with }, ?_⟩
  rw [place_cursor, cols_congr (t.place_surroundings c width)]
  split
  · exact Nat.sub_lt h.cols_pos Nat.one_pos
  · rename_i hroom
    exact Nat.lt_of_not_le hroom

/-- A character that is printed is drawn with the pen and the link that are there. -/
theorem print (h : t.CursorRowsHold P) {c : Char} (hink : t.DrawsAs Ink c) :
    (t.print c).CursorRowsHold P := by
  dsimp only [Terminal.print]
  split
  · exact h
  · refine { h.toRowsHold.addMark hP _ with cursor := ?_ }
    rw [Terminal.addMark]
    split
    · rw [onCursorRow_cursor, Terminal.onCursorRow, onScreen_cols]
      exact h.cursor
    · exact h.cursor
  · rename_i width hzero _
    have hwidth : width ≠ 0 := hzero
    split
    · exact h
    · exact h.place hP (hink.glyph _) hink.continuation (by omega) (by omega)

/-- A text is drawn with the pen that there was before it. -/
theorem printAll (h : t.CursorRowsHold P) {text : List Char}
    (hink : ∀ c ∈ text, t.DrawsAs Ink c) : (text.foldl Terminal.print t).CursorRowsHold P := by
  induction text generalizing t with
  | nil => exact h
  | cons c text ih =>
      refine ih (h.print hP (hink c List.mem_cons_self)) fun d hd => ?_
      exact (hink d (List.mem_cons_of_mem c hd)).print c

/-- Repeating draws the last character as often. -/
theorem repeatLast (h : t.CursorRowsHold P) (hink : ∀ c ∈ t.lastPrinted, t.DrawsAs Ink c)
    (n : Nat) : (t.repeatLast n).CursorRowsHold P := by
  rw [Terminal.repeatLast]
  split
  · rename_i c hc
    have hstep : ∀ u : Terminal, u.CursorRowsHold P ∧ u.DrawsAs Ink c →
        (u.print c).CursorRowsHold P ∧ (u.print c).DrawsAs Ink c :=
      fun _ hu => ⟨hu.1.print hP hu.2, hu.2.print c⟩
    exact (repeat_invariant hstep ⟨h, hink c hc⟩ _).1
  · exact h

end CursorRowsHold

/-! ### Erasing -/

namespace RowsHold

variable {Ink : Cell → Prop} (hP : Row.LastingErased Ink P)

include hP

/-- Erased cells are blank, and so are the halves of wide characters beside them. -/
theorem eraseColumns (h : t.RowsHold P) (start stop : Nat) (selective : Bool) :
    (t.eraseColumns start stop selective).RowsHold P :=
  h.onCursorRow fun _ hr => hP.erase (Cell.isPlain_blank _) start stop selective hr

/-- Erased rows are blank, but for what is protected. -/
theorem eraseRows (h : t.RowsHold P) (first stop : Nat) (selective : Bool) :
    (t.eraseRows first stop selective).RowsHold P :=
  h.onScreen fun hs =>
    hs.modifyRows (fun _ hr => hP.erase (Cell.isPlain_blank _) 0 t.cols selective hr) _ _

theorem eraseInLine (h : t.RowsHold P) (extent : Nat) (selective : Bool) :
    (t.eraseInLine extent selective).RowsHold P := by
  simp only [Terminal.eraseInLine]
  refine clearPending ?_
  split
  · exact h.eraseColumns hP _ _ _
  · exact h.eraseColumns hP _ _ _
  · exact h.eraseColumns hP _ _ _
  · exact h

/-- Erasing in the display erases rows and columns. -/
theorem eraseInDisplay (h : t.RowsHold P) (extent : Nat) (selective : Bool) :
    (t.eraseInDisplay extent selective).RowsHold P := by
  simp only [Terminal.eraseInDisplay]
  refine clearPending ?_
  split
  · exact (h.eraseInLine hP 0 selective).eraseRows hP _ _ _
  · exact (h.eraseRows hP _ _ _).eraseInLine hP 1 selective
  · exact h.eraseRows hP _ _ _
  · exact h.onScreen Screen.RowsHold.clearHistory
  · exact h

theorem eraseChars (h : t.RowsHold P) (n : Nat) : (t.eraseChars n).RowsHold P :=
  (h.eraseColumns hP _ _ _).clearPending

end RowsHold

/-! ## Messages -/

namespace RowsHold

/-- Stops are beside the rows. -/
theorem clearTabStop (h : t.RowsHold P) (extent : Nat) : (t.clearTabStop extent).RowsHold P := by
  simp only [Terminal.clearTabStop]
  split
  · exact { h with }
  · exact { h with }
  · exact h

/-- Operations on the window move titles. -/
theorem applyWindowOperation (h : t.RowsHold P) (args : List Nat) :
    (t.applyWindowOperation args).1.RowsHold P := by
  rw [Terminal.applyWindowOperation]
  split
  · exact h
  · exact { h with }
  · rw [popTitle?]
    split
    · rename_i u hu
      split at hu
      · rw [← Option.some.inj hu]
        exact { h with }
      · cases hu
    · exact h
  · exact h

theorem setCursorStyle (h : t.RowsHold P) (n : Nat) : (t.setCursorStyle n).RowsHold P := by
  rw [Terminal.setCursorStyle]
  split
  · exact h.onCursor _
  · exact h

theorem designate (h : t.RowsHold P) (slot : CharsetSlot) (b : UInt8) :
    (t.designate slot b).RowsHold P := by
  rw [Terminal.designate]
  split
  · exact { h with }
  · exact h

end RowsHold

namespace CursorRowsHold

variable {Ink : Cell → Prop} (hP : Row.LastingErased Ink P)

include hP

/-- Controls scroll at most. -/
theorem applyControl (h : t.CursorRowsHold P) (b : UInt8) : (t.applyControl b).1.RowsHold P := by
  have hrows := h.toRowsHold
  rw [Terminal.applyControl]
  split
  · exact hrows
  split
  · exact hrows.backspace
  split
  · exact hrows.moveTo _ _
  split
  · exact hrows.linefeed hP.toLasting
  split
  · exact hrows.moveTo _ _
  split
  · exact { hrows with }
  split
  · exact { hrows with }
  · exact hrows

/-- One case for each control function, where only repeating draws. -/
theorem applyFunction (h : t.CursorRowsHold P) (f : ControlFunction)
    (hink : ∀ c ∈ t.drawnBy f, t.DrawsAs Ink c) : (t.applyFunction f).1.RowsHold P := by
  have hlasting := hP.toLasting
  have hrows := h.toRowsHold
  cases f with
  | eraseInDisplay extent selective => exact hrows.eraseInDisplay hP extent selective
  | eraseInLine extent selective => exact hrows.eraseInLine hP extent selective
  | eraseChars n => exact hrows.eraseChars hP n
  | scrollUp n => exact hrows.scroll hlasting n .up
  | scrollDown n => exact hrows.scroll hlasting n .down
  | insertLines n => exact hrows.shiftFromCursor hlasting n .down
  | deleteLines n => exact hrows.shiftFromCursor hlasting n .up
  | insertChars n => exact (h.insertChars hlasting n).toRowsHold
  | deleteChars n => exact (h.deleteChars hlasting n).toRowsHold
  | repeatLast n =>
      exact (h.repeatLast hlasting (fun c hc => hink c (Option.mem_toList.mpr hc)) n).toRowsHold
  | clearTab extent => exact hrows.clearTabStop extent
  | setMode modes on => exact hrows.foldl (fun mode ht => ht.setMode mode on) modes
  | setPrivateMode modes on =>
      exact hrows.foldl (fun mode ht => ht.setPrivateMode hlasting mode on) modes
  | savePrivateModes modes => exact hrows.foldl (fun mode ht => ht.savePrivateMode mode) _
  | restorePrivateModes modes =>
      exact hrows.foldl (fun mode ht => ht.restorePrivateMode hlasting mode) _
  | setScrollRegion top bottom => exact hrows.setScrollRegion top bottom
  | restoreCursor => exact hrows.restorePlace
  | windowOperation args => exact hrows.applyWindowOperation args
  | cursorStyle n => exact hrows.setCursorStyle n
  | softReset => exact hrows.softReset
  | deviceStatus request =>
      rw [applyFunction_deviceStatus]
      exact hrows
  | privateDeviceStatus request =>
      rw [applyFunction_privateDeviceStatus]
      exact hrows
  | _ => exact { hrows with }

/-- One case for each escape sequence. -/
theorem applyEscape (h : t.CursorRowsHold P) (sequence : List UInt8) :
    (t.applyEscape sequence).RowsHold P := by
  have hlasting := hP.toLasting
  have hrows := h.toRowsHold
  rw [Terminal.applyEscape]
  split
  · exact hrows.saveCursor
  · exact hrows.restoreCursor
  · exact hrows.index hlasting
  · exact (hrows.moveTo _ _).index hlasting
  · exact hrows.reverseIndex hlasting
  · exact { hrows with }
  · exact .new hlasting _ _ _ _
  · exact { hrows with }
  · exact { hrows with }
  · exact hrows.screenAlignment hlasting
  · exact hrows.designate _ _
  · exact hrows.designate _ _
  · exact hrows

/-- A message keeps the property in all rows, if what it prints is of the kind. -/
theorem apply (h : t.CursorRowsHold P) (m : Message) (hink : ∀ c ∈ t.drawn m, t.DrawsAs Ink c) :
    (t.apply m).1.RowsHold P := by
  cases m with
  | print text => exact (h.printAll hP.toLasting hink).toRowsHold
  | control b => exact h.applyControl hP b
  | sgr params => exact { h.toRowsHold with }
  | csi marker params intermediates final => exact h.applyFunction hP _ hink
  | osc code data ending =>
      obtain ⟨_, _, _, _, _, _, hsame⟩ := sameScreens_applyCommand t (.ofOsc code data) ending
      show RowsHold P (t.applyCommand _ ending).1
      rw [hsame]
      exact { h.toRowsHold with }
  | esc sequence => exact h.applyEscape hP sequence
  | dcs params intermediates final data => exact h.toRowsHold

end CursorRowsHold

end Terminal

namespace Emulator

/-- A lasting property holds of every row that can be reached. -/
theorem Reachable.rowsHold {P : Nat → Row → Prop} (hP : Row.LastingErased (fun _ => True) P)
    {e : Emulator} (he : e.Reachable) : e.terminal.RowsHold P := by
  refine (he.terminal (I := fun t => (∃ limit, t.WellFormed limit) ∧ t.RowsHold P) ?_ ?_).2
  · constructor
    · rintro t m ⟨⟨limit, hformed⟩, hrows⟩
      have hcursor : t.CursorRowsHold P := ⟨hrows, hformed.cursor.2⟩
      exact ⟨⟨limit, hformed.apply m⟩, hcursor.apply hP m fun c _ => t.drawsAs_any c⟩
    · rintro t size hsize ⟨⟨limit, hformed⟩, hrows⟩
      exact ⟨⟨limit, hformed.resize hsize⟩, hrows.resize hP.toLasting _ _⟩
    · rintro t offset hoffset ⟨⟨limit, hformed⟩, hrows⟩
      exact ⟨⟨limit, (keeps_wellFormed limit).view hoffset hformed⟩,
        hrows.onScreen fun hs => { hs with }⟩
  · exact fun hsize limit sgr21 =>
      ⟨⟨limit, Terminal.wellFormed_new hsize limit sgr21⟩, .new hP.toLasting _ _ _ _⟩

end Emulator

end VideoTerminal
