import VideoTerminal.Proofs.ScreenShape

/-!
# Other numbers for links

The number of a link is carried from cell to cell and never looked at on the way.  So an operation
on a row or a screen does the same whatever the numbers are: rows that differ in them still differ
in them only, and by the same change of numbers, provided that it keeps zero, the number of blank
cells.

For a row this is an equation, since changing numbers is a function of the cells.  Of a history only
the rows that count are of interest, and the others need not agree; so for a screen it is a
relation, `Screen.Relinked`.
-/

namespace VideoTerminal

/-- A change of numbers, under which no link stays no link. -/
structure Renumbering where
  number : Nat → Nat
  zero : number 0 = 0

instance : CoeFun Renumbering fun _ => Nat → Nat := ⟨Renumbering.number⟩

/-! ## Cells -/

namespace Cell

/-- The cell with another number. -/
def relink (f : Renumbering) (c : Cell) : Cell := { c with link := f c.link }

variable (f : Renumbering) (c : Cell)

/-- How wide a cell is has nothing to do with its link. -/
@[simp] theorem isWide_relink : (c.relink f).isWide = c.isWide := rfl

@[simp] theorem isProtected_relink : (c.relink f).isProtected = c.isProtected := rfl

/-- A blank cell is part of no link. -/
theorem relink_of_link {c : Cell} (hc : c.link = 0) : c.relink f = c := by
  obtain ⟨base, marks, width, rendition, isProtected, link⟩ := c
  obtain rfl : link = 0 := hc
  rw [relink, f.zero]

/-- A blank cell has no link, and no link is given another number. -/
@[simp] theorem relink_blank (r : Rendition) : (blank r).relink f = blank r :=
  relink_of_link f rfl

/-- An empty cell has none either. -/
@[simp] theorem relink_default : ({} : Cell).relink f = {} := relink_of_link f rfl

/-- A mark leaves the link of its cell alone. -/
theorem addMark_relink (m : Char) : (c.relink f).addMark m = (c.addMark m).relink f := by
  rw [addMark, addMark]
  show (if c.marks.length < maxMarks then _ else _) = _
  split <;> rfl

end Cell

/-! ## Arrays -/

/-- One element may be changed before or after all of them are. -/
theorem modify_map {α β : Type} {φ : α → β} {g : α → α} {h : β → β}
    (hgh : ∀ x, h (φ x) = φ (g x)) (xs : Array α) (i : Nat) :
    (xs.map φ).modify i h = (xs.modify i g).map φ := by
  refine Array.ext_getElem? fun j => ?_
  simp only [Array.getElem?_modify, Array.getElem?_map]
  split
  · cases xs[j]? with
    | none => rfl
    | some x => exact congrArg some (hgh x)
  · rfl

/-- The same for a range of elements. -/
theorem modifyRange_map {α β : Type} {φ : α → β} {g : α → α} {h : β → β}
    (hgh : ∀ x, h (φ x) = φ (g x)) (start n : Nat) (xs : Array α) :
    modifyRange h start n (xs.map φ) = (modifyRange g start n xs).map φ := by
  induction n generalizing start xs with
  | zero => rfl
  | succ n ih => rw [modifyRange, modify_map hgh, ih, modifyRange]

/-! ## Rows -/

namespace Row

/-- The row with other numbers. -/
def relink (f : Renumbering) (r : Row) : Row := { r with cells := r.cells.map (Cell.relink f) }

variable (f : Renumbering) (r : Row) (cells : Array Cell) (b : Cell)

/-- A row of equal cells is renumbered by renumbering the cell. -/
theorem filled_relink (cols : Nat) : filled cols (b.relink f) = (filled cols b).relink f := by
  rw [filled, filled, relink, Array.map_replicate]

theorem empty_relink (cols : Nat) : empty cols = (empty cols).relink f := by
  have hfilled := filled_relink f {} cols
  rwa [Cell.relink_default] at hfilled

/-- Filling a row takes the new numbers from the cell. -/
theorem fill_relink : (r.relink f).fill (b.relink f) = (r.fill b).relink f := by
  rw [fill, fill, ← filled_relink, relink, Array.size_map]

/-- A cell of the row may be changed before or after. -/
theorem modify_relink {g h : Cell → Cell} (hgh : ∀ c, h (Cell.relink f c) = (g c).relink f)
    (col : Nat) : (r.relink f).modify col h = (r.modify col g).relink f :=
  congrArg (fun cells => ({ r with cells } : Row)) (modify_map hgh r.cells col)

@[simp] theorem continuesAt_map (col : Nat) :
    continuesAt (cells.map (Cell.relink f)) col = continuesAt cells col := by
  rw [continuesAt, continuesAt, Array.getElem?_map, Option.map_map]
  rfl

@[simp] theorem isWideAt_map (col : Nat) :
    isWideAt (cells.map (Cell.relink f)) col = isWideAt cells col := by
  rw [isWideAt, isWideAt, Array.getElem?_map, Option.map_map]
  rfl

/-- The choice between two rows may be made before or after. -/
theorem ite_map (c : Bool) (xs ys : Array Cell) :
    (if c then xs.map (Cell.relink f) else ys.map (Cell.relink f)) =
      (if c then xs else ys).map (Cell.relink f) := by
  cases c <;> rfl

/-- Which halves are mended depends on widths only. -/
theorem mendAround_map (col last : Nat) :
    mendAround (b.relink f) col last (cells.map (Cell.relink f)) =
      (mendAround b col last cells).map (Cell.relink f) := by
  simp only [mendAround, continuesAt_map, isWideAt_map, ← Array.map_setIfInBounds, ite_map]

/-- A half at the end is mended on both sides or on neither. -/
theorem mendEnd_map :
    mendEnd (cells.map (Cell.relink f)) = (mendEnd cells).map (Cell.relink f) := by
  rw [mendEnd, mendEnd, Array.size_map]
  refine modify_map (fun c => ?_) _ _
  rw [Cell.isWide_relink]
  split
  · exact (Cell.relink_blank f c.rendition).symm
  · rfl

/-- Columns that are added have no links. -/
theorem resize_relink (cols : Nat) : (r.relink f).resize cols = (r.resize cols).relink f := by
  have hpadded : (r.relink f).cells.take cols ++
      Array.replicate (cols - (r.relink f).cells.size) ({} : Cell) =
      (r.cells.take cols ++ Array.replicate (cols - r.cells.size) ({} : Cell)).map
        (Cell.relink f) := by
    rw [relink, Array.map_append, Array.map_replicate, Cell.relink_default, Array.size_map]
    simp only [Array.take_eq_extract, Array.map_extract]
  rw [resize, hpadded, mendEnd_map]
  rfl

/-- A character is written with the numbers of its glyph, whatever halves are mended. -/
theorem write_relink (col : Nat) (glyph continuation : Cell) :
    (r.relink f).write col (b.relink f) (glyph.relink f) (continuation.relink f) =
      (r.write col b glyph continuation).relink f := by
  rw [write, write, Cell.isWide_relink]
  split
  · simp only [relink, mendAround_map, Array.map_setIfInBounds]
  · simp only [relink, mendAround_map, Array.map_setIfInBounds]

/-- What is protected stays, with its link. -/
theorem erase_relink (start stop : Nat) (selective : Bool) :
    (r.relink f).erase (b.relink f) start stop selective =
      (r.erase b start stop selective).relink f := by
  -- a cell is spared or erased whatever its number
  have herased : ∀ first n, modifyRange
      (fun c => if selective && c.isProtected then c else b.relink f) first n
      (r.cells.map (Cell.relink f)) =
        (modifyRange (fun c => if selective && c.isProtected then c else b) first n r.cells).map
          (Cell.relink f) := by
    refine fun first n => modifyRange_map (fun c => ?_) first n r.cells
    rw [Cell.isProtected_relink]
    split <;> rfl
  simp only [erase, relink, Array.size_map, herased, continuesAt_map, ← Array.map_setIfInBounds,
    ite_map]

/-- Cells are moved to the right with their links. -/
theorem moveRight_map (col n : Nat) :
    moveRight (b.relink f) col n (cells.map (Cell.relink f)) =
      (moveRight b col n cells).map (Cell.relink f) := by
  simp only [moveRight, Array.map_append, Array.map_replicate, Array.take_eq_extract,
    Array.map_extract, Array.size_map]

/-- Cells are moved to the left with their links. -/
theorem moveLeft_map (col n : Nat) :
    moveLeft (b.relink f) col n (cells.map (Cell.relink f)) =
      (moveLeft b col n cells).map (Cell.relink f) := by
  simp only [moveLeft, Array.map_append, Array.map_replicate, Array.take_eq_extract,
    Array.drop_eq_extract, Array.map_extract, Array.size_map]

/-- Inserting moves cells, and mends halves that are torn. -/
theorem insert_relink (col n : Nat) :
    (r.relink f).insert (b.relink f) col n = (r.insert b col n).relink f := by
  simp only [insert, relink, continuesAt_map, ← Array.map_setIfInBounds, ite_map, Array.size_map,
    moveRight_map, isWideAt_map]

/-- So does deleting. -/
theorem delete_relink (col n : Nat) :
    (r.relink f).delete (b.relink f) col n = (r.delete b col n).relink f := by
  simp only [delete, relink, continuesAt_map, ← Array.map_setIfInBounds, ite_map, Array.size_map,
    moveLeft_map]

end Row

/-! ## Screens -/

namespace Screen

/-- A screen and one that differs from it in the numbers of links only, as far as rows count. -/
inductive Relinked (f : Renumbering) (s : Screen) : Screen → Prop
  | intro (history : History) (hrows : history.toList = s.history.toList.map (Row.relink f)) :
      Relinked f s { s with grid := s.grid.map (Row.relink f), history }

namespace Relinked

variable {f : Renumbering} {s u : Screen}

/-- The region is no matter of links. -/
theorem region_eq (h : s.Relinked f u) : u.region = s.region := by
  cases h
  rfl

/-- A cell of the other screen is the cell of this one with its number changed. -/
theorem cell?_eq (h : s.Relinked f u) (row col : Nat) :
    u.cell? row col = (s.cell? row col).map (Cell.relink f) := by
  cases h
  show ((s.grid.map (Row.relink f))[row]?.bind fun r => r.cells[col]?) = _
  rw [Array.getElem?_map, cell?]
  cases s.grid[row]? with
  | none => rfl
  | some r => exact Array.getElem?_map

theorem history_size (h : s.Relinked f u) : u.history.size = s.history.size := by
  obtain ⟨history, hrows⟩ := h
  rw [← History.length_toList, ← History.length_toList, hrows, List.length_map]

/-- An empty screen has no links. -/
theorem empty (f : Renumbering) (cols rows limit : Nat) :
    (Screen.empty cols rows limit).Relinked f (Screen.empty cols rows limit) := by
  have hgrid : (Array.replicate rows (Row.empty cols)).map (Row.relink f) =
      Array.replicate rows (Row.empty cols) := by
    rw [Array.map_replicate, ← Row.empty_relink]
  have hempty := @Relinked.intro f (Screen.empty cols rows limit) .empty rfl
  rwa [show (Screen.empty cols rows limit).grid.map (Row.relink f) = _ from hgrid] at hempty

/-- A row is changed on both sides, in ways that fit each other. -/
theorem modifyRow (h : s.Relinked f u) {g k : Row → Row}
    (hgk : ∀ r, k (Row.relink f r) = (g r).relink f) (row : Nat) :
    (s.modifyRow row g).Relinked f (u.modifyRow row k) := by
  obtain ⟨history, hrows⟩ := h
  rw [Screen.modifyRow, Screen.modifyRow]
  dsimp only
  rw [modify_map hgk]
  exact .intro history hrows

theorem markWrapped (h : s.Relinked f u) (row : Nat) :
    (s.markWrapped row).Relinked f (u.markWrapped row) := by
  rw [Screen.markWrapped, Screen.markWrapped]
  refine h.modifyRow (fun r => ?_) row
  rfl

/-- The same for several rows. -/
theorem modifyRows (h : s.Relinked f u) {g k : Row → Row}
    (hgk : ∀ r, k (Row.relink f r) = (g r).relink f) (first n : Nat) :
    Relinked f { s with grid := modifyRange g first n s.grid }
      { u with grid := modifyRange k first n u.grid } := by
  obtain ⟨history, hrows⟩ := h
  dsimp only
  rw [modifyRange_map hgk]
  exact .intro history hrows

/-- Every row is filled. -/
theorem fill (h : s.Relinked f u) (b : Cell) : (s.fill b).Relinked f (u.fill (b.relink f)) := by
  obtain ⟨history, hrows⟩ := h
  have hgrid : (s.grid.map (Row.relink f)).map (·.fill (b.relink f)) =
      (s.grid.map (·.fill b)).map (Row.relink f) := by
    rw [Array.map_map, Array.map_map]
    exact Array.map_congr_left fun r _ => Row.fill_relink f r b
  rw [Screen.fill, Screen.fill]
  dsimp only
  rw [hgrid]
  exact .intro history hrows

theorem setRegion (h : s.Relinked f u) (r : Region) :
    (s.setRegion r).Relinked f (u.setRegion r) := by
  obtain ⟨history, hrows⟩ := h
  rw [Screen.setRegion, Screen.setRegion]
  show (if s.acceptsRegion r then _ else _ : Screen).Relinked f
    (if s.acceptsRegion r then _ else _)
  split
  · exact .intro history hrows
  · exact .intro history hrows

theorem resetRegion (h : s.Relinked f u) : s.resetRegion.Relinked f u.resetRegion := by
  obtain ⟨history, hrows⟩ := h
  exact .intro history hrows

/-! ### The history -/

/-- Where the view is has nothing to do with links. -/
theorem setView (h : s.Relinked f u) (offset : Nat) :
    Relinked f { s with viewOffset := offset } { u with viewOffset := offset } := by
  obtain ⟨history, hrows⟩ := h
  exact .intro history hrows

theorem viewOffset_eq (h : s.Relinked f u) : u.viewOffset = s.viewOffset := by
  cases h
  rfl

theorem viewDown (h : s.Relinked f u) (n : Nat) : (s.viewDown n).Relinked f (u.viewDown n) := by
  rw [Screen.viewDown, Screen.viewDown, h.viewOffset_eq]
  exact h.setView _

theorem viewReset (h : s.Relinked f u) : s.viewReset.Relinked f u.viewReset := h.setView 0

theorem clearHistory (h : s.Relinked f u) : s.clearHistory.Relinked f u.clearHistory := by
  obtain ⟨history, hrows⟩ := h
  exact .intro .empty rfl

/-- A row is remembered, and rows may be forgotten: the same on both sides, since as many count. -/
theorem remember (h : s.Relinked f u) (r : Row) :
    (s.remember r).Relinked f (u.remember (r.relink f)) := by
  have hsize := h.history_size
  obtain ⟨history, hrows⟩ := h
  rw [Screen.remember, Screen.remember]
  show (if s.historyLimit = 0 then _ else _ : Screen).Relinked f
    (if s.historyLimit = 0 then _ else _)
  split
  · exact .intro history hrows
  · have hkept : ((history.push (r.relink f)).truncate s.historyLimit).toList =
        ((s.history.push r).truncate s.historyLimit).toList.map (Row.relink f) := by
      rw [History.toList_truncate, History.toList_truncate, History.toList_push,
        History.toList_push, History.size_push, History.size_push, hrows, List.map_drop,
        List.map_append, show history.size = s.history.size from hsize]
      rfl
    have hkeptSize : ((history.push (r.relink f)).truncate s.historyLimit).size =
        ((s.history.push r).truncate s.historyLimit).size := by
      rw [← History.length_toList, hkept, List.length_map, History.length_toList]
    dsimp only
    rw [hkeptSize]
    exact .intro _ hkept

/-! ### Shifting and resizing -/

/-- Rows are moved with their links. -/
theorem shifted_relink (dir : Direction) (n : Nat) (b : Row) (rows : Array Row) :
    shifted dir n (b.relink f) (rows.map (Row.relink f)) =
      (shifted dir n b rows).map (Row.relink f) := by
  cases dir with
  | up =>
      simp only [shifted, Array.map_append, Array.map_replicate, Array.drop_eq_extract,
        Array.map_extract, Array.size_map]
  | down =>
      simp only [shifted, Array.map_append, Array.map_replicate, Array.take_eq_extract,
        Array.map_extract, Array.size_map]

/-- The rows that come in are blank, with the numbers of the cell they are filled with. -/
theorem shiftRows (h : s.Relinked f u) (top bottom count : Nat) (dir : Direction) (b : Cell) :
    (s.shiftRows top bottom count dir b).Relinked f
      (u.shiftRows top bottom count dir (b.relink f)) := by
  obtain ⟨history, hrows⟩ := h
  have hempty : (s.grid.map (Row.relink f)).isEmpty = s.grid.isEmpty := by
    rw [Array.isEmpty, Array.isEmpty, Array.size_map]
  have hlast : lastRow { s with grid := s.grid.map (Row.relink f), history } bottom =
      s.lastRow bottom := by
    rw [lastRow, lastRow, Array.size_map]
  rw [Screen.shiftRows, Screen.shiftRows]
  dsimp only
  rw [hempty, hlast]
  split
  · exact .intro history hrows
  · simp only [Row.filled_relink, ← Array.map_extract, shifted_relink, Array.take_eq_extract,
      Array.drop_eq_extract, Array.size_map, ← Array.map_append]
    exact .intro history hrows

/-- Rows join both histories, and push out as many. -/
theorem rememberAll (h : s.Relinked f u) (rows : List Row) :
    (rows.foldl Screen.remember s).Relinked f
      ((rows.map (Row.relink f)).foldl Screen.remember u) := by
  induction rows generalizing s u with
  | nil => exact h
  | cons r rows ih => exact ih (h.remember r)

/-- A scroll moves rows, and the ones that leave at the top join the history. -/
theorem scroll (h : s.Relinked f u) (top bottom count : Nat) (dir : Direction) (b : Cell) :
    (s.scroll top bottom count dir b).Relinked f
      (u.scroll top bottom count dir (b.relink f)) := by
  have hshifted := h.shiftRows top bottom count dir b
  rw [Screen.scroll, Screen.scroll]
  split
  · have hleaving : (u.grid.take (min count (u.lastRow bottom + 1))).toList =
        (s.grid.take (min count (s.lastRow bottom + 1))).toList.map (Row.relink f) := by
      cases h
      simp only [lastRow, Array.size_map, Array.take_eq_extract, ← Array.map_extract,
        Array.toList_map]
    dsimp only
    rw [← Array.foldl_toList, ← Array.foldl_toList, hleaving]
    exact hshifted.rememberAll _
  · exact hshifted

/-- Grid and history get the same width on both sides. -/
theorem resize (h : s.Relinked f u) (cols rows : Nat) :
    (s.resize cols rows).Relinked f (u.resize cols rows) := by
  have hsize := h.history_size
  obtain ⟨history, hrows⟩ := h
  have hresize : ∀ r, (Row.relink f r).resize cols = (r.resize cols).relink f :=
    fun r => Row.resize_relink f r cols
  have hgrid : ((s.grid.map (Row.relink f)).take rows ++
      Array.replicate (rows - (s.grid.map (Row.relink f)).size) (Row.empty cols)).map
        (·.resize cols) =
      ((s.grid.take rows ++ Array.replicate (rows - s.grid.size) (Row.empty cols)).map
        (·.resize cols)).map (Row.relink f) := by
    have hpadded : (s.grid.map (Row.relink f)).take rows ++
        Array.replicate (rows - (s.grid.map (Row.relink f)).size) (Row.empty cols) =
        (s.grid.take rows ++
          Array.replicate (rows - s.grid.size) (Row.empty cols)).map (Row.relink f) := by
      rw [Array.map_append, Array.map_replicate, ← Row.empty_relink, Array.size_map]
      simp only [Array.take_eq_extract, Array.map_extract]
    rw [hpadded, Array.map_map, Array.map_map]
    exact Array.map_congr_left fun r _ => hresize r
  have hhistory : (history.map (·.resize cols)).toList =
      (s.history.map (·.resize cols)).toList.map (Row.relink f) := by
    rw [History.toList_map, History.toList_map, hrows, List.map_map, List.map_map]
    exact List.map_congr_left fun r _ => hresize r
  rw [Screen.resize, Screen.resize]
  dsimp only
  rw [hgrid, show history.size = s.history.size from hsize]
  exact .intro _ hhistory

end Relinked

end Screen

end VideoTerminal
