import VideoTerminal.Proofs.TerminalShape

/-!
# Rows under each other

A terminal on which rows have been filled one after the other: those that are done stand above the
row of the cursor, those below it are empty, and what did not fit on the grid is in the history.
This holds of a new terminal, and two things keep it: a change of the row of the cursor, and the
step from that row to the next, whether or not the screen has to scroll for it.
-/

namespace VideoTerminal

/-! ## Changes at a place known by what is in front of it -/

theorem modify_append {α : Type} (f : α → α) (xs : List α) (x : α) (ys : List α) :
    (xs ++ x :: ys).modify xs.length f = xs ++ f x :: ys := by
  induction xs with
  | nil => rfl
  | cons y xs ih =>
      rw [List.cons_append, List.length_cons, List.modify_succ_cons, ih]
      rfl

theorem set_append {α : Type} (xs : List α) (x y : α) (ys : List α) :
    (xs ++ x :: ys).set xs.length y = xs ++ y :: ys := by
  rw [List.set_append_right _ _ Nat.le.refl, Nat.sub_self, List.set_cons_zero]

namespace Row

/-- Cells of which all from a column on are default cells. -/
def padded (cells : List Cell) (n : Nat) : Array Cell :=
  (cells ++ List.replicate n ({} : Cell)).toArray

theorem getElem?_padded {cells : List Cell} {n i : Nat} (hle : cells.length ≤ i)
    (hlt : i < cells.length + n) : (padded cells n)[i]? = some {} := by
  rw [padded, List.getElem?_toArray, List.getElem?_append_right hle,
    List.getElem?_replicate_of_lt (by omega)]

/-- Behind the text of a row there are no halves of wide characters to mend. -/
theorem mendAround_padded {cells : List Cell} {n last : Nat} (blank : Cell)
    (hle : cells.length ≤ last) (hlt : last < cells.length + n) :
    mendAround blank cells.length last (padded cells n) = padded cells n := by
  have hfirst : continuesAt (padded cells n) cells.length = false := by
    rw [continuesAt, getElem?_padded Nat.le.refl (by omega)]
    rfl
  have hlast : isWideAt (padded cells n) last = false := by
    rw [isWideAt, getElem?_padded hle hlt]
    rfl
  unfold mendAround
  rw [hfirst, Bool.and_false]
  dsimp only
  rw [if_neg Bool.false_ne_true, hlast, if_neg Bool.false_ne_true]

/-- A character of one column behind the text. -/
theorem write_padded_narrow {cells : List Cell} {n : Nat} {wrapped : Bool} {glyph : Cell}
    (hglyph : glyph.isWide = false) (blank continuation : Cell) :
    write ⟨padded cells (n + 1), wrapped⟩ cells.length blank glyph continuation
      = ⟨padded (cells ++ [glyph]) n, wrapped⟩ := by
  rw [write, hglyph, if_neg Bool.false_ne_true, mendAround_padded blank Nat.le.refl (by omega)]
  refine congrArg (Row.mk · wrapped) (Array.toList_inj.mp ?_)
  simp only [padded]
  rw [Array.toList_setIfInBounds, List.replicate_succ, set_append, List.append_assoc]
  rfl

/-- A character of two columns behind the text. -/
theorem write_padded_wide {cells : List Cell} {n : Nat} {wrapped : Bool} {glyph : Cell}
    (hglyph : glyph.isWide = true) (blank continuation : Cell) :
    write ⟨padded cells (n + 2), wrapped⟩ cells.length blank glyph continuation
      = ⟨padded (cells ++ [glyph, continuation]) n, wrapped⟩ := by
  have hsecond : (cells ++ [glyph]).length = cells.length + 1 := List.length_append
  rw [write, hglyph, if_pos rfl, mendAround_padded blank (Nat.le_succ _) (by omega)]
  refine congrArg (Row.mk · wrapped) (Array.toList_inj.mp ?_)
  dsimp only [padded]
  rw [Array.toList_setIfInBounds, Array.toList_setIfInBounds, List.replicate_succ, set_append,
    List.replicate_succ, List.append_cons, ← hsecond, set_append, List.append_assoc,
    List.append_assoc]
  rfl

end Row

/-! ## The screen -/

/-- A screen with rows under each other: the ones above the row of the cursor, and that row. -/
structure Screen.Page (cols rows limit : Nat) (above : List Row) (row : Row) (s : Screen) :
    Prop where
  cols_eq : s.cols = cols
  region_eq : s.region = wholeRegion rows
  limit_eq : s.historyLimit = limit
  grid : s.grid.toList = above.drop (above.length + 1 - rows)
    ++ row :: List.replicate (rows - (above.length + 1)) (Row.empty cols)
  history : s.history.toList
    = (above.take (above.length + 1 - rows)).drop (above.length + 1 - rows - limit)

namespace Screen

variable {cols rows limit : Nat} {above : List Row} {row : Row} {s : Screen}

theorem page_empty (hrows : 0 < rows) (cols limit : Nat) :
    (empty cols rows limit).Page cols rows limit [] (Row.empty cols) where
  cols_eq := rfl
  region_eq := rfl
  limit_eq := rfl
  grid := by
    show (Array.replicate rows (Row.empty cols)).toList = _
    rw [Array.toList_replicate, List.drop_nil, List.nil_append, ← List.replicate_succ]
    exact congrArg (List.replicate · _) (by simp only [List.length_nil]; omega)
  history := by
    rw [List.take_nil, List.drop_nil]
    rfl

/-- What is remembered joins the newest rows, and nothing but the history changes and the view. -/
theorem remember_eq (hle : s.history.toList.length ≤ s.historyLimit) (r : Row) :
    ∃ history viewOffset, s.remember r = { s with history, viewOffset } ∧
      history.toList = (s.history.toList ++ [r]).drop
        (s.history.toList.length + 1 - s.historyLimit) := by
  rw [remember]
  by_cases hnone : s.historyLimit = 0
  · rw [if_pos hnone]
    have hempty : s.history.toList = [] :=
      List.eq_nil_of_length_eq_zero (Nat.le_zero.mp (hnone ▸ hle))
    refine ⟨s.history, s.viewOffset, rfl, ?_⟩
    rw [hempty, hnone]
    rfl
  · rw [if_neg hnone]
    refine ⟨_, _, rfl, ?_⟩
    rw [History.toList_truncate, History.toList_push, History.size_push, History.length_toList]

/-- Scrolling all rows up by one takes the first one off the grid, into the history, and leaves
    everything else but the view. -/
theorem scroll_one (hsize : s.grid.size = rows) (hrows : 0 < rows)
    (hle : s.history.toList.length ≤ s.historyLimit) {first : Row} {rest : List Row}
    (hgrid : s.grid.toList = first :: rest) (blank : Cell) :
    ∃ grid history viewOffset,
      s.scroll 0 (rows - 1) 1 .up blank = { s with grid, history, viewOffset } ∧
      grid.toList = rest ++ [Row.filled s.cols blank] ∧
      history.toList = (s.history.toList ++ [first]).drop
        (s.history.toList.length + 1 - s.historyLimit) := by
  -- the region is the whole grid, so nothing is cut off at its bottom
  have hlast : s.lastRow (rows - 1) = rows - 1 := by
    rw [lastRow, hsize, Nat.min_self]
  have hall : rows - 1 + 1 = rows := by omega
  have hone : min 1 rows = 1 := by omega
  have hshift : s.shiftRows 0 (rows - 1) 1 .up blank
      = { s with grid := (rest ++ [Row.filled s.cols blank]).toArray } := by
    have hsome : ¬(s.grid.isEmpty = true ∨ rows - 1 < 0) := by
      rw [Array.isEmpty_iff_size_eq_zero, hsize]
      omega
    rw [shiftRows, hlast, if_neg hsome, hall]
    dsimp only
    have hwhole : s.grid.extract 0 rows = s.grid := by rw [← hsize, Array.extract_size]
    rw [Nat.sub_zero, hone, hwhole]
    have hrest : s.grid.size - 1 = rest.length := by
      rw [← Array.length_toList, hgrid, List.length_cons, Nat.add_sub_cancel]
    refine congrArg (fun g => { s with grid := g }) (Array.toList_inj.mp ?_)
    simp [shifted, hgrid, ← hsize, hrest]
  -- the rows that leave are taken from the grid as it was
  have hleaving : s.grid.take (min 1 (s.lastRow (rows - 1) + 1)) = #[first] := by
    rw [hlast, hall, hone]
    refine Array.toList_inj.mp ?_
    simp [hgrid]
  obtain ⟨history, viewOffset, hremember, hhistory⟩ :=
    remember_eq (s := { s with grid := (rest ++ [Row.filled s.cols blank]).toArray }) hle first
  refine ⟨_, history, viewOffset, ?_, rfl, hhistory⟩
  rw [scroll, if_pos ⟨rfl, rfl⟩, hshift, hleaving]
  exact hremember

namespace Page

theorem size_grid (h : s.Page cols rows limit above row) (hrows : 0 < rows) :
    s.grid.size = rows := by
  rw [← Array.length_toList, h.grid, List.length_append, List.length_drop, List.length_cons,
    List.length_replicate]
  omega

/-- A change of the row of the cursor. -/
theorem modifyRow (h : s.Page cols rows limit above row) (f : Row → Row) :
    (s.modifyRow (above.length - (above.length + 1 - rows)) f).Page cols rows limit above (f row) :=
  { h with
    grid := by
      show (s.grid.modify _ f).toList = _
      rw [Array.toList_modify, h.grid, ← List.length_drop, modify_append] }

/-- To the next row where there is one on the grid. -/
theorem next (h : s.Page cols rows limit above row) (hroom : above.length + 1 < rows) :
    s.Page cols rows limit (above ++ [row]) (Row.empty cols) where
  cols_eq := h.cols_eq
  region_eq := h.region_eq
  limit_eq := h.limit_eq
  grid := by
    -- one of the empty rows below becomes the row of the cursor
    obtain ⟨n, hn⟩ : ∃ n, rows - (above.length + 1) = n + 1 := ⟨rows - (above.length + 2), by omega⟩
    have hlength : (above ++ [row]).length = above.length + 1 := List.length_append
    have htop : above.length + 1 - rows = 0 := by omega
    have htop' : above.length + 1 + 1 - rows = 0 := by omega
    have hn' : rows - (above.length + 1 + 1) = n := by omega
    rw [h.grid, hlength, htop, htop', hn, hn', List.drop_zero, List.drop_zero,
      List.replicate_succ, List.append_assoc, List.singleton_append]
  history := by
    have hlength : (above ++ [row]).length = above.length + 1 := List.length_append
    have htop : above.length + 1 - rows = 0 := by omega
    have htop' : above.length + 1 + 1 - rows = 0 := by omega
    rw [h.history, hlength, htop, htop', List.take_zero, List.take_zero]

/-- To the next row where the grid has to scroll for it. -/
theorem scroll (h : s.Page cols rows limit above row) (hrows : 0 < rows)
    (hfull : rows ≤ above.length + 1) :
    (s.scroll 0 (rows - 1) 1 .up {}).Page cols rows limit (above ++ [row]) (Row.empty cols) := by
  have hlength : (above ++ [row]).length = above.length + 1 := List.length_append
  have hnone : rows - (above.length + 1) = 0 := by omega
  have hnone' : rows - (above.length + 1 + 1) = 0 := by omega
  -- `k` rows are off the grid before the scroll, and one more behind it
  obtain ⟨k, hk⟩ : ∃ k, above.length + 1 - rows = k := ⟨_, rfl⟩
  have hk' : above.length + 1 + 1 - rows = k + 1 := by omega
  have hle : k ≤ above.length := by omega
  have hgrid := h.grid
  have hhistory := h.history
  rw [hk, hnone, List.replicate_zero, ← List.drop_append_of_le_length hle] at hgrid
  rw [hk] at hhistory
  have hsplit : (above ++ [row]).drop k
      = (above ++ [row])[k] :: (above ++ [row]).drop (k + 1) :=
    List.drop_eq_getElem_cons (by omega)
  have hkept : s.history.toList.length = k - (k - limit) := by
    rw [hhistory, List.length_drop, List.length_take]
    omega
  obtain ⟨grid, history, viewOffset, hscroll, hgrid', hhistory'⟩ :=
    scroll_one (h.size_grid hrows) hrows (by rw [hkept, h.limit_eq]; omega) (hgrid.trans hsplit) {}
  rw [hscroll]
  refine ⟨h.cols_eq, h.region_eq, h.limit_eq, ?_, ?_⟩
  · rw [hlength, hk', hnone', List.replicate_zero]
    rw [h.cols_eq] at hgrid'
    exact hgrid'
  · -- dropping to the limit twice is dropping to it once
    have htake : (above ++ [row]).take (k + 1) = above.take k ++ [(above ++ [row])[k]] := by
      rw [List.take_succ_eq_append_getElem (by omega), List.take_append_of_le_length hle]
    have hdrop : (above.take k).drop (k - limit) ++ [(above ++ [row])[k]]
        = (above.take k ++ [(above ++ [row])[k]]).drop (k - limit) := by
      rw [List.drop_append_of_le_length (by rw [List.length_take]; omega)]
    have hoffset : k - limit + (k - (k - limit) + 1 - limit) = k + 1 - limit := by omega
    rw [hlength, hk', htake]
    show history.toList = _
    rw [hhistory', hkept, h.limit_eq, hhistory, hdrop, List.drop_drop, hoffset]

end Page

end Screen

/-! ## The terminal -/

namespace Terminal

/-- A terminal whose pen, modes and character sets are those of a new one. -/
structure Plain (cols rows : Nat) (t : Terminal) : Prop where
  cols_eq : t.cols = cols
  rows_eq : t.rows = rows
  modes : t.modes = {}
  charsets : t.charsets = {}
  pen : t.pen = {}
  unprotected : t.penProtected = false
  unlinked : t.openLink = 0

theorem Plain.onScreen {cols rows : Nat} {t : Terminal} (h : t.Plain cols rows)
    (f : Screen → Screen) : t.onScreen f = { t with primary := f t.primary } := by
  rw [Terminal.onScreen, h.modes]
  rfl

theorem Plain.screen {cols rows : Nat} {t : Terminal} (h : t.Plain cols rows) :
    t.screen = t.primary := by
  rw [Terminal.screen, h.modes]
  rfl

/-- A plain terminal with rows under each other, and the cursor in the last of them. -/
structure Page (cols rows limit : Nat) (above : List Row) (row : Row) (t : Terminal) : Prop where
  rows_pos : 0 < rows
  plain : t.Plain cols rows
  primary : t.primary.Page cols rows limit above row
  cursor_row : t.cursor.row = above.length - (above.length + 1 - rows)

theorem page_new {rows : Nat} (hrows : 0 < rows) (cols limit : Nat) (sgr21 : Sgr21) :
    (new cols rows limit sgr21).Page cols rows limit [] (Row.empty cols) where
  rows_pos := hrows
  plain := ⟨rfl, rfl, rfl, rfl, rfl, rfl, rfl⟩
  primary := Screen.page_empty hrows cols limit
  cursor_row := (Nat.zero_sub _).symm

namespace Page

variable {cols rows limit : Nat} {above : List Row} {row : Row} {t : Terminal}

theorem onCursorRow (h : t.Page cols rows limit above row) (f : Row → Row) :
    (t.onCursorRow f).Page cols rows limit above (f row) := by
  dsimp only [Terminal.onCursorRow]
  rw [h.plain.onScreen, h.cursor_row]
  exact { h with plain := { h.plain with }, primary := h.primary.modifyRow f }

/-- The cursor may move within its row. -/
theorem onCursor (h : t.Page cols rows limit above row) {f : Cursor → Cursor}
    (hf : (f t.cursor).row = t.cursor.row) : (t.onCursor f).Page cols rows limit above row :=
  { h with plain := { h.plain with }, cursor_row := hf.trans h.cursor_row }

theorem moveTo (h : t.Page cols rows limit above row) (col : Nat) :
    (t.moveTo t.cursor.row col).Page cols rows limit above row := h.onCursor rfl

theorem scrollUp_one (h : t.Page cols rows limit above row) (hfull : rows ≤ above.length + 1) :
    (t.scrollUp 1).Page cols rows limit (above ++ [row]) (Row.empty cols) := by
  have hlength : (above ++ [row]).length = above.length + 1 := List.length_append
  have hpos := h.rows_pos
  have hregion : t.region = Screen.wholeRegion rows := by
    rw [Terminal.region, h.plain.screen, h.primary.region_eq]
  have hblank : t.blank = {} := by
    rw [Terminal.blank, h.plain.pen]
    rfl
  dsimp only [Terminal.scrollUp, Terminal.scroll]
  rw [h.plain.onScreen, hregion, hblank]
  refine { h with
    plain := { h.plain with }, primary := h.primary.scroll h.rows_pos hfull, cursor_row := ?_ }
  rw [hlength]
  show t.cursor.row = _
  rw [h.cursor_row]
  omega

/-- To the next row, in the same column. -/
theorem index (h : t.Page cols rows limit above row) :
    t.index.Page cols rows limit (above ++ [row]) (Row.empty cols) ∧
    t.index.cursor.col = t.cursor.col ∧ t.index.cursor.pendingWrap = false := by
  have hlength : (above ++ [row]).length = above.length + 1 := List.length_append
  have hpos := h.rows_pos
  have hclear : t.clearPending.Page cols rows limit above row := h.onCursor rfl
  have hregion : t.clearPending.region = Screen.wholeRegion rows := by
    rw [Terminal.region, hclear.plain.screen, hclear.primary.region_eq]
  dsimp only [Terminal.index]
  rw [hregion, hclear.cursor_row, hclear.plain.rows_eq]
  by_cases hfull : rows ≤ above.length + 1
  · -- the cursor is in the last row, where the grid scrolls under it
    have hbottom : above.length - (above.length + 1 - rows) = (Screen.wholeRegion rows).bottom := by
      show _ = rows - 1
      omega
    rw [if_pos hbottom]
    refine ⟨hclear.scrollUp_one hfull, ?_, ?_⟩
    · rw [Terminal.scrollUp, Terminal.scroll]
      rw [onScreen_cursor]
      rfl
    · rw [Terminal.scrollUp, Terminal.scroll]
      rw [onScreen_cursor]
      rfl
  · have hbottom : above.length - (above.length + 1 - rows) ≠ (Screen.wholeRegion rows).bottom := by
      show _ ≠ rows - 1
      omega
    rw [if_neg hbottom, if_pos (by omega)]
    refine ⟨{ hclear with
      plain := { hclear.plain with }, primary := hclear.primary.next (by omega),
      cursor_row := ?_ }, rfl, rfl⟩
    rw [hlength]
    show above.length - (above.length + 1 - rows) + 1 = _
    omega

theorem carriageReturn (h : t.Page cols rows limit above row) :
    t.carriageReturn.Page cols rows limit above row := h.moveTo 0

theorem linefeed (h : t.Page cols rows limit above row) :
    t.linefeed.Page cols rows limit (above ++ [row]) (Row.empty cols) ∧
    t.linefeed.cursor.col = t.cursor.col ∧ t.linefeed.cursor.pendingWrap = false := by
  have hstay : t.linefeed = t.index := by
    dsimp only [Terminal.linefeed]
    rw [h.index.1.plain.modes]
    rfl
  rw [hstay]
  exact h.index

/-- To the first column of the next row, with a mark on the row that is left. -/
theorem wrapLine (h : t.Page cols rows limit above row) :
    t.wrapLine.Page cols rows limit (above ++ [{ row with wrapped := true }]) (Row.empty cols) ∧
    t.wrapLine.cursor.col = 0 ∧ t.wrapLine.cursor.pendingWrap = false := by
  have hmarked : (t.onScreen (·.markWrapped t.cursor.row)).Page cols rows limit above
      { row with wrapped := true } := h.onCursorRow fun r => { r with wrapped := true }
  have hmoved := hmarked.moveTo 0
  rw [onScreen_cursor] at hmoved
  exact hmoved.index

end Page

end Terminal

end VideoTerminal
