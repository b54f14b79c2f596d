import VideoTerminal.Proofs.EveryRow

/-!
# Wide characters stay whole

Printing and shifting can cut a wide character at the cursor, at the end of what moves, at the
right margin and at a new width.  Every row nevertheless stays one in which the halves of wide
characters go together.  `RowHalves` says so of each operation on a single row, which makes it a
property that `EveryRow` carries to both screens of a terminal; only erasing does not keep it.  Of
the cursor the column matters, which has to be one of the row.
-/

namespace VideoTerminal

/-! ## Rows and screens -/

/-- A row of `cols` cells in which the halves of wide characters go together. -/
structure Row.Whole (cols : Nat) (r : Row) : Prop where
  size : r.cells.size = cols
  pairs : Row.PairIntact r.cells

namespace Row

variable {cols : Nat} {r : Row} {b : Cell}

/-- In a row of narrow cells nothing can be torn. -/
theorem whole_filled (hb : b.IsNarrow) (cols : Nat) : (filled cols b).Whole cols :=
  ⟨Array.size_replicate, .replicate hb cols⟩

namespace Whole

/-- A whole row has the width it should have. -/
theorem fits (h : r.Whole cols) : r.Fits (fun _ => True) cols := ⟨h.size, fun _ _ => trivial⟩

/-- What leaves the widths alone tears nothing. -/
theorem modify (h : r.Whole cols) {f : Cell → Cell} (hf : ∀ c, (f c).width = c.width) (col : Nat) :
    (r.modify col f).Whole cols :=
  ⟨(h.fits.modify (fun _ _ => trivial) col).size, h.pairs.modify hf col⟩

/-- Inserting mends both ends: the character at the column and the one that is cut at the margin. -/
theorem insert (h : r.Whole cols) (hb : b.IsNarrow) {col : Nat} (hcol : col < cols) (n : Nat) :
    (r.insert b col n).Whole cols :=
  ⟨(h.fits.insert trivial col n).size, h.pairs.insert hb (h.size.symm ▸ hcol) n⟩

/-- Deleting mends the character at the column and the one behind what is deleted. -/
theorem delete (h : r.Whole cols) (hb : b.IsNarrow) {col : Nat} (hcol : col < cols) (n : Nat) :
    (r.delete b col n).Whole cols :=
  ⟨(h.fits.delete trivial col n).size, h.pairs.delete hb (h.size.symm ▸ hcol) n⟩

/-- Writing mends what it covers one half of. -/
theorem write (h : r.Whole cols) {g k : Cell} (hb : b.IsNarrow) (hg : g.isContinuation = false)
    (hk : k.isContinuation = true) {col : Nat} (hcol : col < cols)
    (hroom : g.isWide = true → col + 1 < cols) : (r.write col b g k).Whole cols := by
  obtain rfl := h.size
  exact ⟨(h.fits.write col trivial trivial trivial).size, h.pairs.write hb hg hk hcol hroom⟩

/-- A row that is cut mends its end. -/
theorem resize (h : r.Whole cols) (n : Nat) : (r.resize n).Whole n :=
  ⟨(h.fits.resize (fun _ => trivial) n).size, h.pairs.resize n⟩

end Whole

/-- What is done to a row, erasing apart, leaves its wide characters whole. -/
theorem lasting_whole : Lasting (fun _ => True) Whole where
  size h := h.size
  filled hb cols := whole_filled hb.narrow cols
  wrapped h := ⟨h.size, h.pairs⟩
  modify hf col h := h.modify (Cell.width_of_marks hf) col
  write hb _ _ hg hk hcol hroom h := h.write hb.narrow hg hk hcol hroom
  insert hb hcol n h := h.insert hb.narrow hcol n
  delete hb hcol n h := h.delete hb.narrow hcol n
  resize n h := h.resize n

end Row

/-- A screen of whole rows. -/
structure Screen.Whole (cols : Nat) (s : Screen) : Prop where
  cols_eq : s.cols = cols
  grid : ∀ r ∈ s.grid, r.Whole cols
  history : ∀ r ∈ s.history.toList, r.Whole cols

/-- Rows that are whole are rows with a lasting property. -/
theorem Screen.whole_iff {cols : Nat} {s : Screen} : s.Whole cols ↔ s.RowsHold Row.Whole cols :=
  ⟨fun h => ⟨h.cols_eq, h.grid, h.history⟩, fun h => ⟨h.cols_eq, h.grid, h.history⟩⟩

/-! ## Terminals -/

namespace Terminal

/-- The rows of both screens are whole, in their histories too. -/
structure WholeRows (t : Terminal) : Prop where
  primary : t.primary.Whole t.cols
  alternate : t.alternate.Whole t.cols

/-- The rows are whole, and the cursor stands in one of their columns. -/
structure Whole (t : Terminal) : Prop extends t.WholeRows where
  cursor : t.cursor.col < t.cols

variable {t : Terminal}

/-- The same for both screens. -/
theorem wholeRows_iff : t.WholeRows ↔ t.RowsHold Row.Whole :=
  ⟨fun h => ⟨Screen.whole_iff.mp h.primary, Screen.whole_iff.mp h.alternate⟩,
    fun h => ⟨Screen.whole_iff.mpr h.primary, Screen.whole_iff.mpr h.alternate⟩⟩

/-- The same with the row of the cursor. -/
theorem whole_iff : t.Whole ↔ t.CursorRowsHold Row.Whole :=
  ⟨fun h => ⟨wholeRows_iff.mp h.toWholeRows, h.cursor⟩,
    fun h => ⟨wholeRows_iff.mpr h.toRowsHold, h.cursor⟩⟩

open Row (lasting_whole)

namespace WholeRows

/-- A motion tears nothing. -/
theorem moveTo (h : t.WholeRows) (row col : Nat) : (t.moveTo row col).WholeRows := { h with }

/-- The pattern consists of narrow cells. -/
theorem screenAlignment (h : t.WholeRows) : t.screenAlignment.WholeRows :=
  wholeRows_iff.mpr ((wholeRows_iff.mp h).screenAlignment lasting_whole)

/-- All rows of both screens are cut in the same way. -/
theorem resize (h : t.WholeRows) (cols rows : Nat) : (t.resize cols rows).WholeRows :=
  wholeRows_iff.mpr ((wholeRows_iff.mp h).resize lasting_whole cols rows)

/-- The screen that is entered is whole, blank or not. -/
theorem enterAlternate (h : t.WholeRows) (clear : Bool) : (t.enterAlternate clear).WholeRows :=
  wholeRows_iff.mpr ((wholeRows_iff.mp h).enterAlternate lasting_whole clear)

/-- The screen that comes back has been whole all the time. -/
theorem exitAlternate (h : t.WholeRows) (clear : Bool) : (t.exitAlternate clear).WholeRows :=
  wholeRows_iff.mpr ((wholeRows_iff.mp h).exitAlternate lasting_whole clear)

/-- Switching a mode tears nothing, whichever it is. -/
theorem setPrivateMode (h : t.WholeRows) (mode : Nat) (on : Bool) :
    (t.setPrivateMode mode on).WholeRows :=
  wholeRows_iff.mpr ((wholeRows_iff.mp h).setPrivateMode lasting_whole mode on)

end WholeRows

namespace Whole

/-- Giving up a wrap does not either. -/
theorem clearPending (h : t.Whole) : t.clearPending.Whole := { h with }

/-- An operation that keeps the rows whole and the cursor in its column, or moves it to the first
    one. -/
theorem of_rowsHold (h : t.Whole) {u : Terminal} (hrows : u.RowsHold Row.Whole)
    (hcols : u.cols = t.cols) (hcol : u.cursor.col = t.cursor.col ∨ u.cursor.col = 0) :
    u.Whole := by
  refine whole_iff.mpr ⟨hrows, ?_⟩
  have hcursor := h.cursor
  rw [hcols]
  omega

/-- A scroll moves whole rows. -/
theorem scroll (h : t.Whole) (n : Nat) (dir : Direction) : (t.scroll n dir).Whole :=
  h.of_rowsHold ((whole_iff.mp h).toRowsHold.scroll lasting_whole n dir) (onScreen_cols _ _)
    (.inl (congrArg Cursor.col (onScreen_cursor _ _)))

/-- An index does too. -/
theorem index (h : t.Whole) : t.index.Whole :=
  h.of_rowsHold ((whole_iff.mp h).toRowsHold.index lasting_whole)
    (cols_congr ((blind_surroundings t.surroundings).index rfl)) (.inl t.index_col)

/-- So does a reverse index. -/
theorem reverseIndex (h : t.Whole) : t.reverseIndex.Whole := by
  refine h.of_rowsHold ((whole_iff.mp h).toRowsHold.reverseIndex lasting_whole)
    (cols_congr ((blind_surroundings t.surroundings).reverseIndex rfl)) (.inl ?_)
  dsimp only [Terminal.reverseIndex]
  split
  · rw [scrollDown, Terminal.scroll, onScreen_cursor]
    rfl
  · rfl

/-- Inserting and deleting lines move whole rows. -/
theorem shiftFromCursor (h : t.Whole) (n : Nat) (dir : Direction) :
    (t.shiftFromCursor n dir).Whole := by
  refine h.of_rowsHold ((whole_iff.mp h).toRowsHold.shiftFromCursor lasting_whole n dir)
    (cols_congr ((blind_surroundings t.surroundings).shiftFromCursor rfl n dir)) ?_
  dsimp only [Terminal.shiftFromCursor]
  split
  · exact .inl rfl
  · exact .inr rfl

/-- Inserted cells keep the row of the cursor whole. -/
theorem insertChars (h : t.Whole) (n : Nat) : (t.insertChars n).Whole :=
  whole_iff.mpr ((whole_iff.mp h).insertChars lasting_whole n)

/-- So do deleted ones. -/
theorem deleteChars (h : t.Whole) (n : Nat) : (t.deleteChars n).Whole :=
  whole_iff.mpr ((whole_iff.mp h).deleteChars lasting_whole n)

/-- Printing keeps all rows whole: narrow or wide, with a wrap or in insert mode, or as a mark. -/
theorem print (h : t.Whole) (c : Char) : (t.print c).Whole :=
  whole_iff.mpr ((whole_iff.mp h).print lasting_whole (t.drawsAs_any c))

/-- Repeating prints. -/
theorem repeatLast (h : t.Whole) (n : Nat) : (t.repeatLast n).Whole :=
  whole_iff.mpr ((whole_iff.mp h).repeatLast lasting_whole (fun c _ => t.drawsAs_any c) n)

end Whole

/-! ## The operations together -/

/-- What prints, shifts, switches screens or changes the size. -/
inductive Edit where
  | print (c : Char)
  | repeatLast (n : Nat)
  | insertChars (n : Nat)
  | deleteChars (n : Nat)
  | insertLines (n : Nat)
  | deleteLines (n : Nat)
  | scrollUp (n : Nat)
  | scrollDown (n : Nat)
  | index
  | reverseIndex
  | screenAlignment
  | enterAlternate (clear : Bool)
  | exitAlternate (clear : Bool)
  | setPrivateMode (mode : Nat) (on : Bool)
  | resize (cols rows : Nat)

/-- The terminal after an operation. -/
def edit (t : Terminal) : Edit → Terminal
  | .print c => t.print c
  | .repeatLast n => t.repeatLast n
  | .insertChars n => t.insertChars n
  | .deleteChars n => t.deleteChars n
  | .insertLines n => t.insertLines n
  | .deleteLines n => t.deleteLines n
  | .scrollUp n => t.scrollUp n
  | .scrollDown n => t.scrollDown n
  | .index => t.index
  | .reverseIndex => t.reverseIndex
  | .screenAlignment => t.screenAlignment
  | .enterAlternate clear => t.enterAlternate clear
  | .exitAlternate clear => t.exitAlternate clear
  | .setPrivateMode mode on => t.setPrivateMode mode on
  | .resize cols rows => t.resize cols rows

/-- The rows of both screens and of their histories. -/
def allRows (t : Terminal) : List Row :=
  t.primary.grid.toList ++ t.primary.history.toList ++
    (t.alternate.grid.toList ++ t.alternate.history.toList)

/-- Screens and rows are as wide as the terminal, and the cursor is on the grid. -/
structure Geometry (t : Terminal) : Prop where
  primary : t.primary.cols = t.cols
  alternate : t.alternate.cols = t.cols
  rows : ∀ r ∈ t.allRows, r.cells.size = t.cols
  cursor : t.cursor.Within t.cols t.rows

/-- Something holds of all rows if it does of both grids and both histories. -/
theorem forall_mem_allRows {Q : Row → Prop} : (∀ r ∈ t.allRows, Q r) ↔
    ((∀ r ∈ t.primary.grid, Q r) ∧ ∀ r ∈ t.primary.history.toList, Q r) ∧
    (∀ r ∈ t.alternate.grid, Q r) ∧ ∀ r ∈ t.alternate.history.toList, Q r := by
  simp only [allRows, List.forall_mem_append, Array.mem_toList_iff]

/-- A terminal of the right shape is whole if its rows are not torn. -/
theorem Geometry.whole (h : t.Geometry) (hpairs : ∀ r ∈ t.allRows, Row.PairIntact r.cells) :
    t.Whole := by
  have hrows : ∀ r ∈ t.allRows, r.Whole t.cols := fun r hr => ⟨h.rows r hr, hpairs r hr⟩
  obtain ⟨⟨hgrid, hhistory⟩, hgrid', hhistory'⟩ := forall_mem_allRows.mp hrows
  exact ⟨⟨⟨h.primary, hgrid, hhistory⟩, ⟨h.alternate, hgrid', hhistory'⟩⟩, h.cursor.2⟩

/-- In a whole terminal no row is torn. -/
theorem WholeRows.pairs (h : t.WholeRows) : ∀ r ∈ t.allRows, Row.PairIntact r.cells :=
  forall_mem_allRows.mpr ⟨⟨fun r hr => (h.primary.grid r hr).pairs,
    fun r hr => (h.primary.history r hr).pairs⟩, fun r hr => (h.alternate.grid r hr).pairs,
    fun r hr => (h.alternate.history r hr).pairs⟩

/-- What holds of a terminal at any time includes its geometry. -/
theorem WellFormed.geometry {limit : Nat} (h : t.WellFormed limit) : t.Geometry where
  primary := h.primary.cols_eq
  alternate := h.alternate.cols_eq
  rows := forall_mem_allRows.mpr ⟨⟨fun r hr => (h.primary.grid.each r hr).size,
    fun r hr => (h.primary.history r hr).size⟩, fun r hr => (h.alternate.grid.each r hr).size,
    fun r hr => (h.alternate.history r hr).size⟩
  cursor := h.cursor

/-- A new terminal is blank, so it is whole. -/
theorem whole_new {cols : Nat} (hcols : 0 < cols) (rows limit : Nat) (sgr21 : Sgr21) :
    (new cols rows limit sgr21).Whole :=
  whole_iff.mpr ⟨.new lasting_whole cols rows limit sgr21, hcols⟩

/-- **Wide characters stay whole.**  Whatever the modes, the character sets and the place of the
    cursor on the grid are: if every first half of a wide character is followed by a second half
    and every second half follows a first, in all rows of both screens and of their histories, then
    so it is after printing, inserting, deleting, scrolling, switching screens and resizing. -/
theorem wide_characters_edit (hgeometry : t.Geometry)
    (hpairs : ∀ r ∈ t.allRows, Row.PairIntact r.cells) (op : Edit) :
    ∀ r ∈ (t.edit op).allRows, Row.PairIntact r.cells := by
  have h := hgeometry.whole hpairs
  refine WholeRows.pairs ?_
  cases op with
  | print c => exact (h.print c).toWholeRows
  | repeatLast n => exact (h.repeatLast n).toWholeRows
  | insertChars n => exact (h.insertChars n).toWholeRows
  | deleteChars n => exact (h.deleteChars n).toWholeRows
  | insertLines n => exact (h.shiftFromCursor n .down).toWholeRows
  | deleteLines n => exact (h.shiftFromCursor n .up).toWholeRows
  | scrollUp n => exact (h.scroll n .up).toWholeRows
  | scrollDown n => exact (h.scroll n .down).toWholeRows
  | index => exact h.index.toWholeRows
  | reverseIndex => exact h.reverseIndex.toWholeRows
  | screenAlignment => exact h.toWholeRows.screenAlignment
  | enterAlternate clear => exact h.toWholeRows.enterAlternate clear
  | exitAlternate clear => exact h.toWholeRows.exitAlternate clear
  | setPrivateMode mode on => exact h.toWholeRows.setPrivateMode mode on
  | resize cols rows => exact h.toWholeRows.resize cols rows

/-- A character that is printed over the second half of a wide one takes the first half away. -/
theorem wide_characters_overprint :
    let t := ((new 4 2 8 .cancelBold).print '日').backspace
    (∃ r ∈ t.allRows, Row.isWideAt r.cells 0 = true) ∧ t.cursor.col = 1 ∧
      ∀ r ∈ (t.edit (.print 'x')).allRows, Row.PairIntact r.cells := by
  have hwell := ((@wellFormed_new 4 2 rfl 8 .cancelBold).print '日').backspace
  have hwhole := (@whole_new 4 (Nat.succ_pos 3) 2 8 .cancelBold).print '日'
  have hrows : ((new 4 2 8 .cancelBold).print '日').backspace.WholeRows := by
    rw [backspace]
    split
    · exact hwhole.clearPending.toWholeRows
    · exact hwhole.toWholeRows.moveTo _ _
  refine ⟨by decide +kernel, by decide +kernel, ?_⟩
  exact wide_characters_edit hwell.geometry hrows.pairs (.print 'x')

end Terminal

end VideoTerminal
