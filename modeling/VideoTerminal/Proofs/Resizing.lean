import VideoTerminal.Proofs.Erasing
import VideoTerminal.Proofs.EveryRow

/-!
# Changes of size

A change of size cuts or pads every row of both screens at the right and the grids at the bottom,
so each cell stays in its place.  Only a row that is cut through a wide character changes otherwise:
the half that is left in the last column becomes blank.

No row ever ends with the first half of a wide character, whatever was erased around it.  Hence
padding a row leaves all its cells as they are, and cutting the padding off again gives the row
back.
-/

namespace VideoTerminal

/-! ## Rows that end with a whole character -/

namespace Row

/-- A row of `cols` cells of which the last is not the first half of a wide character. -/
structure EndsNarrow (cols : Nat) (r : Row) : Prop where
  size : r.cells.size = cols
  last : isWideAt r.cells (cols - 1) = false

variable {cols : Nat} {r : Row} {b : Cell}

theorem endsNarrow_filled (hb : b.IsNarrow) (cols : Nat) : (filled cols b).EndsNarrow cols := by
  refine ⟨Array.size_replicate, ?_⟩
  exact (holdsAt_replicate cols (cols - 1)).trans (by rw [hb.isWide, Bool.and_false])

/-- A first half in the last cell is blanked. -/
theorem isWideAt_mendLast (hb : b.IsNarrow) (cells : Array Cell) :
    isWideAt (if isWideAt cells (cells.size - 1) then cells.setIfInBounds (cells.size - 1) b
      else cells) (cells.size - 1) = false := by
  have hinside : isWideAt cells (cells.size - 1) = true → cells.size - 1 < cells.size :=
    lt_of_holdsAt
  have hwide := hb.isWide
  grind [isWideAt_set]

theorem isWideAt_mendEnd (cells : Array Cell) :
    isWideAt (mendEnd cells) (cells.size - 1) = false := by
  obtain ⟨a, hmended⟩ := mendEnd_eq cells
  rw [hmended]
  exact isWideAt_mendLast (Cell.isNarrow_blank a) cells

theorem size_padded (cells : Array Cell) (cols : Nat) (c : Cell) :
    (cells.take cols ++ Array.replicate (cols - cells.size) c).size = cols := by
  rw [Array.size_append, Array.take, Array.size_extract, Array.size_replicate]
  omega

theorem endsNarrow_resize (r : Row) (cols : Nat) : (r.resize cols).EndsNarrow cols := by
  have hsize := size_padded r.cells cols {}
  have hmended := isWideAt_mendEnd
    (r.cells.take cols ++ Array.replicate (cols - r.cells.size) ({} : Cell))
  rw [hsize] at hmended
  exact ⟨Array.size_modify.trans hsize, hmended⟩

/-- A range that ends before it begins is an empty one. -/
theorem erase_eq_min (r : Row) (b : Cell) (start stop : Nat) (selective : Bool) :
    r.erase b start stop selective = r.erase b (min start stop) stop selective := by
  have hstart : min (min start stop) (min stop r.cells.size) = min start (min stop r.cells.size) :=
    by omega
  simp only [Row.erase, hstart]

namespace EndsNarrow

theorem fits (h : r.EndsNarrow cols) : r.Fits (fun _ => True) cols :=
  ⟨h.size, fun _ _ => trivial⟩

theorem modify (h : r.EndsNarrow cols) {f : Cell → Cell} (hf : ∀ c, (f c).width = c.width)
    (col : Nat) : (r.modify col f).EndsNarrow cols := by
  have hwide : Cell.isWide ∘ f = Cell.isWide := funext fun c => congrArg (· == 2) (hf c)
  refine ⟨(h.fits.modify (fun _ _ => trivial) col).size, (holdsAt_modify col _).trans ?_⟩
  rw [hwide, ite_self]
  exact h.last

theorem write (h : r.EndsNarrow cols) {g k : Cell} (hb : b.IsNarrow)
    (hk : k.isContinuation = true) {col : Nat} (hroom : g.isWide = true → col + 1 < cols) :
    (r.write col b g k).EndsNarrow cols := by
  have hwide := hb.isWide
  have hsecond : k.isWide = false := by simp_all [Cell.isWide, Cell.isContinuation]
  obtain ⟨hsize, hlast⟩ := h
  refine ⟨?_, ?_⟩
  · rw [Row.write]
    split <;> simp only [Array.size_setIfInBounds, size_mendAround, hsize]
  · rw [Row.write]
    -- the cells around the character are blanked or stay, and its own first half is not the last
    grind [isWideAt_set, mendAround]

theorem insert (h : r.EndsNarrow cols) (hb : b.IsNarrow) (col n : Nat) :
    (r.insert b col n).EndsNarrow cols := by
  have hsize := (h.fits.insert (b := b) trivial col n).size
  refine ⟨hsize, ?_⟩
  rw [Row.insert] at hsize ⊢
  dsimp only at hsize ⊢
  generalize moveRight _ _ _ _ = cells at hsize ⊢
  have hcols : cells.size = cols := by rw [← hsize, size_ite_setIfInBounds]
  rw [← hcols]
  exact isWideAt_mendLast hb cells

theorem delete (h : r.EndsNarrow cols) (hb : b.IsNarrow) {col : Nat} (hcol : col < cols)
    (n : Nat) : (r.delete b col n).EndsNarrow cols := by
  refine ⟨(h.fits.delete trivial col n).size, ?_⟩
  rw [Row.delete]
  dsimp only
  generalize hcells : (if 0 < col && continuesAt r.cells col then
    r.cells.setIfInBounds (col - 1) b else r.cells) = cells
  obtain ⟨hsize, hlast⟩ := h
  have hwide := hb.isWide
  have hparted : cells.size = cols ∧ isWideAt cells (cols - 1) = false := by
    rw [← hcells]
    constructor <;> grind [isWideAt_set]
  obtain ⟨hcols, hkept⟩ := hparted
  -- the last column gets the cell it had, or else a blank one
  have hmoved : isWideAt (moveLeft b col (min n (cells.size - col)) cells) (cols - 1) = false := by
    rw [isWideAt_moveLeft hb (Nat.min_le_right _ _) (by omega), if_neg (by omega)]
    rcases Nat.eq_zero_or_pos (min n (cells.size - col)) with hnone | hsome
    · rw [hnone]
      exact hkept
    · rw [isWideAt, Array.getElem?_eq_none (by omega)]
      rfl
  split
  · rw [isWideAt_set, hwide, hmoved, ite_self]
  · exact hmoved

theorem erase (h : r.EndsNarrow cols) (hb : b.IsNarrow) (start stop : Nat) (selective : Bool) :
    (r.erase b start stop selective).EndsNarrow cols := by
  refine ⟨(h.fits.erase trivial start stop selective).size, ?_⟩
  have hlast := h.last
  rw [isWideAt] at hlast
  rw [erase_eq_min, isWideAt, getElem?_erase hb (Nat.min_le_right _ _)]
  cases hc : r.cells[cols - 1]? with
  | none => rfl
  | some c =>
      rw [hc] at hlast
      dsimp only [Option.map_some, Option.getD_some] at hlast ⊢
      split
      · exact hb.isWide
      · exact hlast

end EndsNarrow

/-- Nothing that is done to a row leaves a first half in its last column. -/
theorem lastingErased_endsNarrow : LastingErased (fun _ => True) EndsNarrow where
  size h := h.size
  filled hb cols := endsNarrow_filled hb.narrow cols
  wrapped h := ⟨h.size, h.last⟩
  modify hf col h := h.modify (Cell.width_of_marks hf) col
  write hb _ _ _ hk _ hroom h := h.write hb.narrow hk hroom
  insert hb _ n h := h.insert hb.narrow _ n
  delete hb hcol n h := h.delete hb.narrow hcol n
  resize n _ := endsNarrow_resize _ n
  erase hb start stop selective h := h.erase hb.narrow start stop selective

end Row

/-! ## Cutting and padding -/

/-- What becomes of the cell at a column when its row is cut to `cols` columns: the first half of a
    wide character that gets into the last column is blanked, and keeps its background. -/
def Cell.clip (cols col : Nat) (c : Cell) : Cell :=
  if col + 1 = cols ∧ c.isWide then Cell.blank c.rendition else c

/-- An empty cell stays one. -/
@[simp] theorem Cell.clip_empty (cols col : Nat) : Cell.clip cols col {} = {} := ite_self _

/-- A row that has been cut or padded to a number of columns. -/
structure Row.Clipped (cols : Nat) (r r' : Row) : Prop where
  cell (col : Nat) : r'.cells[col]?
    = if col < cols then some ((r.cells[col]?.map (·.clip cols col)).getD {}) else none
  wrapped : r'.wrapped = r.wrapped

/-- A screen of which the grid, and each row of the history, has been cut or padded to a size.
    Whether the text of a row goes on in the next one stays as it was. -/
structure Screen.Clipped (cols rows : Nat) (s s' : Screen) : Prop where
  cell (row col : Nat) : s'.cell? row col
    = if row < rows ∧ col < cols then some (((s.cell? row col).map (·.clip cols col)).getD {})
      else none
  wrapped (row : Nat) : s'.grid[row]?.map Row.wrapped
    = if row < rows then some ((s.grid[row]?.map Row.wrapped).getD false) else none
  history : List.Forall₂ (Row.Clipped cols) s.history.toList s'.history.toList

/-- The same rows, on the grid and in the history, in the same view. -/
structure Screen.SameRows (s s' : Screen) : Prop where
  grid : s'.grid = s.grid
  history : s'.history.toList = s.history.toList
  viewOffset : s'.viewOffset = s.viewOffset

namespace Row

variable {cols : Nat} {r : Row}

/-- Cutting and padding leaves each cell in its column. -/
theorem resize_clipped (r : Row) (cols : Nat) : r.Clipped cols (r.resize cols) := by
  refine ⟨fun col => ?_, rfl⟩
  have hpadded : (r.cells.take cols ++ Array.replicate (cols - r.cells.size) ({} : Cell))[col]?
      = if col < cols then some (r.cells[col]?.getD {}) else none := by
    grind
  rw [Row.resize, mendEnd, size_padded, Array.getElem?_modify, hpadded]
  by_cases hcol : col < cols
  · rw [if_pos hcol, if_pos hcol, Option.map_some]
    cases r.cells[col]? with
    | none => exact ite_self _
    | some c =>
        have hlast : cols - 1 = col ↔ col + 1 = cols := by omega
        simp only [Option.map_some, Option.getD_some, Cell.clip, hlast, ite_and]
        split <;> rfl
  · rw [if_neg hcol, if_neg hcol, Option.map_none, ite_self]

/-- The cells and the mark say all about a row. -/
theorem Clipped.unique {p q : Row} (hp : r.Clipped cols p) (hq : r.Clipped cols q) : p = q := by
  have hcells : p.cells = q.cells :=
    Array.ext_getElem? fun col => (hp.cell col).trans (hq.cell col).symm
  cases p
  cases q
  cases hcells
  cases hp.wrapped.trans hq.wrapped.symm
  rfl

/-- The last column is the only one that cutting may change, and only if a wide character begins
    there. -/
theorem EndsNarrow.clip_eq (h : r.EndsNarrow cols) {n col : Nat} (hn : cols ≤ n) {c : Cell}
    (hc : r.cells[col]? = some c) : c.clip n col = c := by
  rw [Cell.clip, if_neg]
  rintro ⟨hlast, hwide⟩
  have hcol : col < r.cells.size := (Array.getElem?_eq_some_iff.mp hc).1
  have hnarrow := h.last
  rw [h.size] at hcol
  rw [isWideAt, show cols - 1 = col by omega, hc] at hnarrow
  exact Bool.false_ne_true (hnarrow.symm.trans hwide)

/-- A row with the cells of another one in its columns is what cutting that one gives. -/
theorem EndsNarrow.clipped_of_cells (h : r.EndsNarrow cols) {q : Row}
    (hcells : ∀ col < cols, q.cells[col]? = r.cells[col]?) (hwrapped : r.wrapped = q.wrapped) :
    q.Clipped cols r := by
  refine ⟨fun col => ?_, hwrapped⟩
  by_cases hcol : col < cols
  · have hinside : col < r.cells.size := h.size.symm ▸ hcol
    have hc : r.cells[col]? = some r.cells[col] := Array.getElem?_eq_getElem hinside
    rw [if_pos hcol, hcells col hcol, hc, Option.map_some, h.clip_eq (Nat.le_refl cols) hc]
    rfl
  · rw [if_neg hcol, Array.getElem?_eq_none (h.size.symm ▸ Nat.le_of_not_lt hcol)]

/-- A row that is cut at its end stays as it is. -/
theorem EndsNarrow.resize_self (h : r.EndsNarrow cols) : r.resize cols = r :=
  (resize_clipped r cols).unique (h.clipped_of_cells (fun _ _ => rfl) rfl)

/-- Cutting takes off what padding has added. -/
theorem EndsNarrow.resize_resize (h : r.EndsNarrow cols) {n : Nat} (hn : cols ≤ n) :
    (r.resize n).resize cols = r := by
  refine (resize_clipped (r.resize n) cols).unique (h.clipped_of_cells (fun col hcol => ?_) rfl)
  have hinside : col < r.cells.size := h.size.symm ▸ hcol
  have hc : r.cells[col]? = some r.cells[col] := Array.getElem?_eq_getElem hinside
  rw [(resize_clipped r n).cell, if_pos (Nat.lt_of_lt_of_le hcol hn), hc, Option.map_some,
    h.clip_eq hn hc]
  rfl

end Row

/-! ## Screens -/

/-- Screens with the same rows have been cut and padded alike. -/
theorem Screen.Clipped.of_sameRows {cols rows : Nat} {s u v : Screen}
    (hu : s.Clipped cols rows u) (h : v.SameRows u) : s.Clipped cols rows v where
  cell row col := by
    rw [cell?, ← h.grid]
    exact hu.cell row col
  wrapped row := h.grid ▸ hu.wrapped row
  history := h.history ▸ hu.history

namespace Screen

variable {cols rows : Nat} {s : Screen}

/-- A row of the new grid is the one that was in its place, or an empty one. -/
theorem getElem?_resize (s : Screen) (cols rows row : Nat) : (s.resize cols rows).grid[row]?
    = if row < rows then some ((s.grid[row]?.getD (Row.empty cols)).resize cols) else none := by
  have hpadded : (s.grid.take rows ++ Array.replicate (rows - s.grid.size) (Row.empty cols))[row]?
      = if row < rows then some (s.grid[row]?.getD (Row.empty cols)) else none := by
    grind
  rw [resize, Array.getElem?_map, hpadded]
  split <;> rfl

theorem toList_history_resize (s : Screen) (cols rows : Nat) :
    (s.resize cols rows).history.toList = s.history.toList.map (·.resize cols) :=
  History.toList_map _ _

/-- Every row of the grid and of the history is cut or padded. -/
theorem resize_clipped (s : Screen) (cols rows : Nat) :
    s.Clipped cols rows (s.resize cols rows) where
  cell row col := by
    rw [cell?, getElem?_resize, cell?]
    by_cases hrow : row < rows
    · rw [if_pos hrow, Option.bind_some, (Row.resize_clipped _ cols).cell]
      by_cases hcol : col < cols
      · cases s.grid[row]? <;> simp [hrow, hcol, Row.empty, Row.filled]
      · rw [if_neg hcol, if_neg fun h => hcol h.2]
    · rw [if_neg hrow, if_neg fun h => hrow h.1]
      rfl
  wrapped row := by
    rw [getElem?_resize]
    split
    · cases s.grid[row]? <;> rfl
    · rfl
  history := by
    rw [toList_history_resize, List.forall₂_map_right_iff, List.forall₂_same]
    exact fun r _ => Row.resize_clipped r cols

/-- Changing rows into themselves leaves the history as it is. -/
theorem RowsHold.map_history {P : Nat → Row → Prop} (h : s.RowsHold P cols) {f : Row → Row}
    (hf : ∀ r, P cols r → f r = r) : s.history.toList.map f = s.history.toList :=
  (List.map_congr_left fun r hr => hf r (h.history r hr)).trans (List.map_id _)

namespace RowsHold

variable (h : s.RowsHold Row.EndsNarrow cols) (hrows : s.grid.size = rows)
  (hview : s.viewOffset ≤ s.history.size)

include h hrows hview

/-- On a screen that has the size already every row is cut at its end. -/
theorem sameRows_resize_self : s.SameRows (s.resize cols rows) where
  grid := by
    refine Array.ext_getElem? fun row => ?_
    rw [getElem?_resize]
    by_cases hrow : row < s.grid.size
    · rw [if_pos (hrows ▸ hrow), Array.getElem?_eq_getElem hrow, Option.getD_some,
        (h.grid _ (Array.getElem_mem hrow)).resize_self]
    · rw [if_neg (hrows ▸ hrow), Array.getElem?_eq_none (Nat.le_of_not_lt hrow)]
  history := by
    rw [toList_history_resize]
    exact h.map_history fun r hr => hr.resize_self
  viewOffset := Nat.min_eq_left hview

/-- Rows that have been added are taken off again, and so are the columns. -/
theorem sameRows_resize_resize {cols' rows' : Nat} (hcols' : cols ≤ cols') (hrows' : rows ≤ rows') :
    s.SameRows ((s.resize cols' rows').resize cols rows) where
  grid := by
    refine Array.ext_getElem? fun row => ?_
    rw [getElem?_resize, getElem?_resize]
    by_cases hrow : row < s.grid.size
    · rw [if_pos (hrows ▸ hrow), if_pos (by omega), Array.getElem?_eq_getElem hrow,
        Option.getD_some, Option.getD_some,
        (h.grid _ (Array.getElem_mem hrow)).resize_resize hcols']
    · rw [if_neg (hrows ▸ hrow), Array.getElem?_eq_none (Nat.le_of_not_lt hrow)]
  history := by
    rw [toList_history_resize, toList_history_resize, List.map_map]
    exact h.map_history fun r hr => hr.resize_resize hcols'
  viewOffset := by
    show min (min s.viewOffset s.history.size) (s.history.map (·.resize cols')).size = s.viewOffset
    rw [History.size_map, Nat.min_eq_left hview, Nat.min_eq_left hview]

end RowsHold

end Screen

/-! ## Terminals -/

namespace Terminal

/-- A terminal of which screens and tab stops have been cut or padded to a size.  In columns that
    are new there are stops at the multiples of eight. -/
structure Clipped (cols rows : Nat) (t t' : Terminal) : Prop where
  primary : t.primary.Clipped cols rows t'.primary
  alternate : t.alternate.Clipped cols rows t'.alternate
  tabStops (col : Nat) : t'.tabStops[col]?
    = if col < cols then some (t.tabStops[col]?.getD (col % 8 == 0)) else none

/-- The same size, rows, views and tab stops, with the cursor in the same place. -/
structure SameFace (t t' : Terminal) : Prop where
  size : t'.size = t.size
  primary : t.primary.SameRows t'.primary
  alternate : t.alternate.SameRows t'.alternate
  tabStops : t'.tabStops = t.tabStops
  row : t'.cursor.row = t.cursor.row
  col : t'.cursor.col = t.cursor.col

variable {limit : Nat} {t : Terminal}

theorem SameFace.refl (t : Terminal) : t.SameFace t :=
  ⟨rfl, ⟨rfl, rfl, rfl⟩, ⟨rfl, rfl, rfl⟩, rfl, rfl, rfl⟩

theorem getElem?_resizeStops {stops : Array Bool} (hstops : 0 < stops.size) (cols col : Nat) :
    (resizeStops stops cols)[col]?
      = if col < cols then some (stops[col]?.getD (col % 8 == 0)) else none := by
  have hdefault : ∀ i, 0 < i → isDefaultStop i = (i % 8 == 0) := by
    intro i hi
    rw [isDefaultStop, bne_iff_ne.mpr (Nat.pos_iff_ne_zero.mp hi), Bool.true_and]
    rfl
  have hnew : stops.size ≤ col → col < cols → stops.size + (col - stops.size) = col := by omega
  rw [resizeStops]
  grind

theorem WellFormed.resize_clipped (h : t.WellFormed limit) (cols rows : Nat) :
    t.Clipped cols rows (t.resize cols rows) where
  primary := t.primary.resize_clipped cols rows
  alternate := t.alternate.resize_clipped cols rows
  tabStops := getElem?_resizeStops (h.tabStops.symm ▸ h.cols_pos) cols

/-- Stops that have been added are taken off again. -/
theorem resizeStops_resizeStops {stops : Array Bool} (hstops : 0 < stops.size) {cols : Nat}
    (hcols : stops.size ≤ cols) : resizeStops (resizeStops stops cols) stops.size = stops := by
  have hnew : 0 < (resizeStops stops cols).size := by
    rw [WellFormed.size_resizeStops]
    omega
  refine Array.ext_getElem? fun col => ?_
  rw [getElem?_resizeStops hnew, getElem?_resizeStops hstops]
  grind

/-- On a terminal that has the size already nothing is cut. -/
theorem WellFormed.clipped_self (h : t.WellFormed limit) (hrows : t.RowsHold Row.EndsNarrow) :
    t.Clipped t.cols t.rows t where
  primary := (t.primary.resize_clipped t.cols t.rows).of_sameRows
    (hrows.primary.sameRows_resize_self h.primary.grid.size h.primary.view_le)
  alternate := (t.alternate.resize_clipped t.cols t.rows).of_sameRows
    (hrows.alternate.sameRows_resize_self h.alternate.grid.size h.alternate.view_le)
  tabStops col := by
    rw [← h.tabStops]
    grind

/-- Growing is undone by shrinking. -/
theorem WellFormed.sameFace_resize_resize (h : t.WellFormed limit)
    (hrows : t.RowsHold Row.EndsNarrow) {cols rows : Nat} (hcols : t.cols ≤ cols)
    (hlines : t.rows ≤ rows) : t.SameFace ((t.resize cols rows).resize t.cols t.rows) := by
  obtain ⟨hrow, hcol⟩ := h.cursor
  constructor
  case size => rfl
  case primary =>
    exact hrows.primary.sameRows_resize_resize h.primary.grid.size h.primary.view_le hcols hlines
  case alternate =>
    exact hrows.alternate.sameRows_resize_resize h.alternate.grid.size h.alternate.view_le hcols
      hlines
  case tabStops =>
    have hstops := resizeStops_resizeStops (h.tabStops.symm ▸ h.cols_pos) (h.tabStops.symm ▸ hcols)
    rw [h.tabStops] at hstops
    exact hstops
  case row =>
    show min (min t.cursor.row (rows - 1)) (t.rows - 1) = t.cursor.row
    omega
  case col =>
    show min (min t.cursor.col (cols - 1)) (t.cols - 1) = t.cursor.col
    omega

end Terminal

/-! ## Emulators -/

namespace Emulator

theorem resize_of_ne {e : Emulator} {size : Size} (hsize : size.isValid = true)
    (hne : size ≠ e.terminal.size) : ∃ e', e.resize size = .ok e' ∧
      e'.terminal = e.terminal.resize size.cols size.rows := by
  refine ⟨{ e with
    terminal := e.terminal.resize size.cols size.rows
    events := e.events.push .screenUpdated }, ?_, rfl⟩
  rw [resize_eq, if_pos hsize, if_neg hne]

/-- **A change of size leaves every cell in its place, and growing is undone by shrinking.**  At
    any time every valid size is accepted.  On both screens the cells inside both sizes are the old
    ones, but for the first half of a wide character that gets into the last column, which becomes
    blank and keeps its background; all other cells are empty.  The history has as many rows as
    before, which are cut and padded in the same way.  Tab stops stay in the columns inside both
    sizes, and new columns have them at the multiples of eight.

    When the new size is no smaller in either direction, going back to the old one gives back the
    rows of both screens and of their histories, the views, the tab stops and the place of the
    cursor. -/
theorem resize_anchored {e : Emulator} (he : e.Reachable) {size : Size}
    (hsize : size.isValid = true) :
    ∃ e', e.resize size = .ok e' ∧
      e.terminal.Clipped size.cols size.rows e'.terminal ∧
      (e.terminal.cols ≤ size.cols → e.terminal.rows ≤ size.rows →
        ∃ back, e'.resize e.terminal.size = .ok back ∧ e.terminal.SameFace back.terminal) := by
  obtain ⟨limit, hformed⟩ := he.wellFormed
  have hrows := he.rowsHold Row.lastingErased_endsNarrow
  by_cases hsame : size = e.terminal.size
  · -- nothing is done in either direction
    have hkept : e.resize size = .ok e := by rw [resize_eq, if_pos hsize, if_pos hsame]
    refine ⟨e, hkept, ?_, fun _ _ => ⟨e, hsame ▸ hkept, .refl e.terminal⟩⟩
    rw [hsame]
    exact hformed.clipped_self hrows
  · obtain ⟨e', he', hresized⟩ := resize_of_ne hsize hsame
    refine ⟨e', he', hresized ▸ hformed.resize_clipped _ _, fun hcols hlines => ?_⟩
    have hne : e.terminal.size ≠ e'.terminal.size := by
      rw [hresized]
      exact Ne.symm hsame
    obtain ⟨back, hback, hrestored⟩ := resize_of_ne hformed.size hne
    refine ⟨back, hback, ?_⟩
    rw [hrestored, hresized]
    exact hformed.sameFace_resize_resize hrows hcols hlines

/-- With the view on a history of one wide row, a smaller size cuts through a wide character, and
    a bigger one is taken back. -/
theorem resize_anchored_wide :
    let e := Emulator.run { terminal := .new 4 2 3 .cancelBold }
      [.write (Utf8.ofString "日本\r\n\x1b[44m日本\r\n\x1b[0mab"), .viewUp 1]
    (e.Reachable ∧ (Size.mk 3 2).isValid = true ∧ (Size.mk 9 3).isValid = true ∧
      e.terminal.cols ≤ 9 ∧ e.terminal.rows ≤ 3) ∧
    (∃ e', e.resize ⟨3, 2⟩ = .ok e' ∧ e.terminal.Clipped 3 2 e'.terminal) ∧
    ∃ grown, e.resize ⟨9, 3⟩ = .ok grown ∧
      ∃ back, grown.resize e.terminal.size = .ok back ∧ e.terminal.SameFace back.terminal := by
  intro e
  have he : e.Reachable :=
    ⟨⟨4, 2⟩, 3, .cancelBold, _, _, create_of_valid (by decide) _ _, rfl⟩
  have hsize : e.terminal.cols = 4 ∧ e.terminal.rows = 2 := by decide +kernel
  have hcols : e.terminal.cols ≤ 9 := by omega
  have hrows : e.terminal.rows ≤ 3 := by omega
  obtain ⟨small, hsmall, hclipped, _⟩ := @resize_anchored e he ⟨3, 2⟩ (by decide)
  obtain ⟨grown, hgrown, _, hback⟩ := @resize_anchored e he ⟨9, 3⟩ (by decide)
  exact ⟨⟨he, by decide, by decide, hcols, hrows⟩, ⟨small, hsmall, hclipped⟩, grown, hgrown,
    hback hcols hrows⟩

end Emulator

end VideoTerminal
