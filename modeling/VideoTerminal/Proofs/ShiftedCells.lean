import VideoTerminal.Proofs.CursorRow
import VideoTerminal.Proofs.Reachable
import VideoTerminal.Proofs.WideCharacters

/-!
# Inserting and deleting characters

When characters are inserted or deleted, the cells from the cursor on move along the row.  What the
row holds then is said by where each cell comes from: `CellShift.source?` gives the column that the
cell at a column has come from, or none for a blank cell that has taken a free place.  A half of a
wide character is torn if the other half has not come along beside it, and then it is blank as well.

The operations know nothing of this.  They look for halves at certain places only, some before the
cells have moved and some afterwards.  So the places at which a half can be torn are worked out
first: in front of the cursor, where the cells part; at the cursor or behind the gap, where others
have come together; and at the margin, which a first half may reach without its second.
-/

namespace VideoTerminal

/-- A shift of the cells from the cursor on. -/
inductive CellShift where
  /-- To the right, to make room for blank cells. -/
  | insert
  /-- To the left, over cells that are deleted. -/
  | delete
deriving DecidableEq, Repr

namespace CellShift

/-- The control function that shifts cells by `n`. -/
def function (n : Nat) : CellShift → ControlFunction
  | .insert => .insertChars n
  | .delete => .deleteChars n

/-- What a shift by `n` makes of a row. -/
def row (r : Row) (blank : Cell) (col n : Nat) : CellShift → Row
  | .insert => r.insert blank col n
  | .delete => r.delete blank col n

/-- The column from which the cell at column `j` has come when the cells of `cols` columns are
    shifted by `k` from `col` on.  Blank cells in the gap, or at the end, have come from none. -/
def source? (cols col k j : Nat) : CellShift → Option Nat
  | .insert => if j < col then some j else if j < col + k ∨ cols ≤ j then none else some (j - k)
  | .delete => if j < col then some j else if j + k < cols then some (j + k) else none

/-- Whether the cell at column `j`, which has come from column `i`, is a half of a wide character of
    which the other half is not beside it any more. -/
def tears (x : CellShift) (cells : Array Cell) (col k j i : Nat) : Bool :=
  Row.isWideAt cells i && x.source? cells.size col k (j + 1) != some (i + 1) ||
    Row.continuesAt cells i && (j == 0 || x.source? cells.size col k (j - 1) != some (i - 1))

/-- The cell at column `j` behind a shift: the one that has come there, if it is not torn. -/
def cell? (x : CellShift) (blank : Cell) (cells : Array Cell) (col k j : Nat) : Option Cell :=
  match x.source? cells.size col k j with
  | none => some blank
  | some i => if x.tears cells col k j i then some blank else cells[i]?

variable {blank : Cell} {cells : Array Cell} {col k j i : Nat}

theorem cell?_of_some {x : CellShift} (h : x.source? cells.size col k j = some i) :
    x.cell? blank cells col k j = if x.tears cells col k j i then some blank else cells[i]? := by
  rw [cell?, h]

theorem cell?_of_none {x : CellShift} (h : x.source? cells.size col k j = none) :
    x.cell? blank cells col k j = some blank := by
  rw [cell?, h]

theorem source?_left (x : CellShift) (cols k : Nat) (hj : j < col) :
    x.source? cols col k j = some j := by
  cases x with
  | insert => exact if_pos hj
  | delete => exact if_pos hj

theorem source?_insert_gap (cols : Nat) (hj : col ≤ j) (hgap : j < col + k) :
    insert.source? cols col k j = none := by
  rw [source?, if_neg (Nat.not_lt.mpr hj), if_pos (Or.inl hgap)]

theorem source?_insert_moved {cols : Nat} (hj : col + k ≤ j) (hinside : j < cols) :
    insert.source? cols col k j = some (j - k) := by
  rw [source?, if_neg (by omega), if_neg (by omega)]

theorem source?_delete_moved {cols : Nat} (hj : col ≤ j) (hinside : j + k < cols) :
    delete.source? cols col k j = some (j + k) := by
  rw [source?, if_neg (Nat.not_lt.mpr hj), if_pos hinside]

theorem source?_delete_end {cols : Nat} (hj : col ≤ j) (hend : cols ≤ j + k) :
    delete.source? cols col k j = none := by
  rw [source?, if_neg (Nat.not_lt.mpr hj), if_neg (Nat.not_lt.mpr hend)]

end CellShift

/-! ## One row -/

namespace Row

variable {r : Row} {b : Cell} {col k j : Nat}

/-- In front of the cursor nothing moves, so only the last cell there can be torn. -/
theorem PairIntact.tears_left (h : PairIntact r.cells) (x : CellShift) (hk : 0 < k)
    (hcol : col < r.cells.size) (hj : j < col) :
    x.tears r.cells col k j j = (continuesAt r.cells col && j + 1 == col) := by
  obtain ⟨hfirst, hpairs⟩ := pairIntact_iff.mp h
  have hprevious : (continuesAt r.cells j && (j == 0 ||
      x.source? r.cells.size col k (j - 1) != some (j - 1))) = false := by
    cases j with
    | zero => rw [hfirst, Bool.false_and]
    | succ j => cases x <;> simp [CellShift.source?, Nat.lt_of_succ_lt hj]
  have hnext : (x.source? r.cells.size col k (j + 1) != some (j + 1)) = (j + 1 == col) := by
    cases x <;> grind [CellShift.source?]
  rw [CellShift.tears, hprevious, hnext, hpairs, Bool.or_false]
  grind

/-- Behind the gap the first cell can be torn, and so can a first half at the margin. -/
theorem tears_insert (hk : 0 < k) (hj : col + k ≤ j) (hinside : j < r.cells.size) :
    CellShift.insert.tears r.cells col k j (j - k)
      = (continuesAt r.cells col && j == col + k ||
        isWideAt r.cells (j - k) && j + 1 == r.cells.size) := by
  have hprevious : (j == 0 || CellShift.insert.source? r.cells.size col k (j - 1)
      != some (j - k - 1)) = (j == col + k) := by
    grind [CellShift.source?]
  have hnext : (CellShift.insert.source? r.cells.size col k (j + 1) != some (j - k + 1))
      = (j + 1 == r.cells.size) := by
    grind [CellShift.source?]
  rw [CellShift.tears, hprevious, hnext, Bool.or_comm]
  congr 1
  by_cases hedge : j = col + k
  · rw [hedge, Nat.add_sub_cancel]
  · rw [beq_eq_false_iff_ne.mpr hedge, Bool.and_false, Bool.and_false]

/-- What has moved to the cursor can be torn, and nothing behind it. -/
theorem PairIntact.tears_delete (h : PairIntact r.cells) (hk : 0 < k) (hj : col ≤ j)
    (hinside : j + k < r.cells.size) :
    CellShift.delete.tears r.cells col k j (j + k)
      = (continuesAt r.cells (col + k) && j == col) := by
  have hprevious : (j == 0 || CellShift.delete.source? r.cells.size col k (j - 1)
      != some (j + k - 1)) = (j == col) := by
    grind [CellShift.source?]
  have hnext : (isWideAt r.cells (j + k) &&
      CellShift.delete.source? r.cells.size col k (j + 1) != some (j + k + 1)) = false := by
    have hsecond : isWideAt r.cells (j + k) = true → j + k + 1 < r.cells.size :=
      fun hwide => lt_of_holdsAt ((h (j + k)).1 hwide)
    grind [CellShift.source?]
  rw [CellShift.tears, hprevious, hnext, Bool.false_or]
  by_cases hedge : j = col
  · rw [hedge]
  · rw [beq_eq_false_iff_ne.mpr hedge, Bool.and_false, Bool.and_false]

/-- A character that lies across the cursor is blanked before the others move. -/
theorem PairIntact.getElem?_separate (h : PairIntact r.cells) (hcol : col < r.cells.size)
    (i : Nat) : (if 0 < col && continuesAt r.cells col then
      (r.cells.setIfInBounds (col - 1) b).setIfInBounds col b else r.cells)[i]?
      = if continuesAt r.cells col && (i + 1 == col || i == col) then some b
        else r.cells[i]? := by
  have hpos : continuesAt r.cells col = true → 0 < col := fun hseam => ((h col).2 hseam).1
  grind

/-- The first half of a character that lies across the cursor is blanked. -/
theorem PairIntact.getElem?_part (h : PairIntact r.cells) (hcol : col < r.cells.size) (i : Nat) :
    (if 0 < col && continuesAt r.cells col then r.cells.setIfInBounds (col - 1) b
      else r.cells)[i]?
      = if continuesAt r.cells col && i + 1 == col then some b else r.cells[i]? := by
  have hpos : continuesAt r.cells col = true → 0 < col := fun hseam => ((h col).2 hseam).1
  rw [getElem?_ite_setIfInBounds (by omega)]
  exact if_congr (by grind) rfl rfl

/-- A first half that has reached the margin is blanked. -/
theorem getElem?_mendLast {cells : Array Cell} (hj : j < cells.size) :
    (if isWideAt cells (cells.size - 1) then cells.setIfInBounds (cells.size - 1) b else cells)[j]?
      = if isWideAt cells j && j + 1 == cells.size then some b else cells[j]? := by
  rw [getElem?_ite_setIfInBounds (by omega)]
  exact if_congr (by grind) rfl rfl

/-- A second half that has come to the cursor is blanked. -/
theorem getElem?_mendFirst {cells : Array Cell} (hcol : col < cells.size) (j : Nat) :
    (if continuesAt cells col then cells.setIfInBounds col b else cells)[j]?
      = if continuesAt cells j && j == col then some b else cells[j]? := by
  rw [getElem?_ite_setIfInBounds hcol]
  exact if_congr (by grind) rfl rfl

/-- **What an insertion makes of a row.** -/
theorem PairIntact.getElem?_insert (h : PairIntact r.cells) (hcol : col < r.cells.size) {n : Nat}
    (hn : 0 < n) (hj : j < r.cells.size) :
    (r.insert b col n).cells[j]?
      = CellShift.insert.cell? b r.cells col (min n (r.cells.size - col)) j := by
  have hseparate := h.getElem?_separate (b := b) hcol
  rw [Row.insert]
  generalize hcells : (if 0 < col && continuesAt r.cells col then
    (r.cells.setIfInBounds (col - 1) b).setIfInBounds col b else r.cells) = cells at hseparate
  have hsize : cells.size = r.cells.size := by
    rw [← hcells]
    split
    · rw [Array.size_setIfInBounds, Array.size_setIfInBounds]
    · rfl
  dsimp only
  rw [hsize]
  generalize hk : min n (r.cells.size - col) = k
  have hmoved := getElem?_moveRight (b := b) (n := k) (hsize ▸ Nat.le_of_lt hcol) j
  have hlength : (Row.moveRight b col k cells).size = r.cells.size := by
    rw [size_moveRight (by omega) (by omega), hsize]
  generalize Row.moveRight b col k cells = moved at hmoved hlength
  rw [getElem?_mendLast (hlength ▸ hj), hlength]
  by_cases hleft : j < col
  · rw [if_pos hleft, hseparate, beq_eq_false_iff_ne.mpr (Nat.ne_of_lt hleft), Bool.or_false]
      at hmoved
    rw [CellShift.cell?_of_some (CellShift.source?_left _ _ _ hleft),
      h.tears_left .insert (by omega) hcol hleft, beq_eq_false_iff_ne.mpr (by omega),
      Bool.and_false, if_neg Bool.false_ne_true]
    exact hmoved
  rw [if_neg hleft] at hmoved
  by_cases hgap : j < col + k
  · rw [if_pos hgap] at hmoved
    rw [CellShift.cell?_of_none (CellShift.source?_insert_gap _ (Nat.le_of_not_lt hleft) hgap),
      hmoved, ite_self]
  · -- the first cell behind the gap is the one that was at the cursor
    rw [if_neg hgap, hsize, if_pos hj, hseparate, beq_eq_false_iff_ne.mpr (by omega),
      Bool.false_or, show (j - k == col) = (j == col + k) by grind] at hmoved
    rw [CellShift.cell?_of_some (CellShift.source?_insert_moved (Nat.le_of_not_lt hgap) hj),
      tears_insert (by omega) (Nat.le_of_not_lt hgap) hj, isWideAt, hmoved]
    cases continuesAt r.cells col && j == col + k with
    | true => rw [Bool.true_or, if_pos rfl, ite_self]
    | false => rw [Bool.false_or, if_neg Bool.false_ne_true]; rfl

/-- **What a deletion makes of a row.** -/
theorem PairIntact.getElem?_delete (h : PairIntact r.cells) (hcol : col < r.cells.size) {n : Nat}
    (hn : 0 < n) (hj : j < r.cells.size) :
    (r.delete b col n).cells[j]?
      = CellShift.delete.cell? b r.cells col (min n (r.cells.size - col)) j := by
  have hpart := h.getElem?_part (b := b) hcol
  rw [Row.delete]
  generalize hcells : (if 0 < col && continuesAt r.cells col then
    r.cells.setIfInBounds (col - 1) b else r.cells) = cells at hpart
  have hsize : cells.size = r.cells.size := by rw [← hcells, size_ite_setIfInBounds]
  dsimp only
  rw [hsize]
  generalize hk : min n (r.cells.size - col) = k
  have hroom : k ≤ cells.size - col := by omega
  have hmoved := getElem?_moveLeft (b := b) hroom (hsize ▸ Nat.le_of_lt hcol) j
  have hlength : (Row.moveLeft b col k cells).size = r.cells.size := by
    rw [size_moveLeft hroom (by omega), hsize]
  generalize Row.moveLeft b col k cells = moved at hmoved hlength
  rw [getElem?_mendFirst (hlength ▸ hcol)]
  by_cases hleft : j < col
  · rw [if_pos hleft, hpart] at hmoved
    rw [CellShift.cell?_of_some (CellShift.source?_left _ _ _ hleft),
      h.tears_left .delete (by omega) hcol hleft, beq_eq_false_iff_ne.mpr (Nat.ne_of_lt hleft),
      Bool.and_false, if_neg Bool.false_ne_true]
    exact hmoved
  rw [if_neg hleft] at hmoved
  by_cases hinside : j + k < r.cells.size
  · rw [hsize, if_pos hinside, hpart, beq_eq_false_iff_ne.mpr (by omega), Bool.and_false,
      if_neg Bool.false_ne_true] at hmoved
    rw [CellShift.cell?_of_some (CellShift.source?_delete_moved (Nat.le_of_not_lt hleft) hinside),
      h.tears_delete (by omega) (Nat.le_of_not_lt hleft) hinside, continuesAt, hmoved]
    by_cases hfirst : j = col
    · rw [hfirst]
      rfl
    · rw [beq_eq_false_iff_ne.mpr hfirst, Bool.and_false, Bool.and_false]
  · rw [hsize, if_neg hinside, if_pos hj] at hmoved
    rw [CellShift.cell?_of_none (CellShift.source?_delete_end (Nat.le_of_not_lt hleft)
      (Nat.le_of_not_lt hinside)), hmoved, ite_self]

variable {n : Nat} (x : CellShift)

/-- What a shift makes of a row, cell by cell. -/
theorem PairIntact.getElem?_shift (h : PairIntact r.cells) (hcol : col < r.cells.size) (hn : 0 < n)
    (hj : j < r.cells.size) :
    (x.row r b col n).cells[j]? = x.cell? b r.cells col (min n (r.cells.size - col)) j := by
  cases x with
  | insert => exact h.getElem?_insert hcol hn hj
  | delete => exact h.getElem?_delete hcol hn hj

theorem wrapped_shift (r : Row) (b : Cell) (col n : Nat) :
    (x.row r b col n).wrapped = r.wrapped := by
  cases x with
  | insert => rfl
  | delete => rfl

theorem Whole.shift {cols : Nat} (h : r.Whole cols) (hb : b.IsNarrow) (hcol : col < cols)
    (n : Nat) : (x.row r b col n).Whole cols := by
  cases x with
  | insert => exact h.insert hb hcol n
  | delete => exact h.delete hb hcol n

end Row

/-! ## The terminal -/

namespace Terminal

variable {t : Terminal}

/-- The terminal after cells have been shifted. -/
def shiftCells (t : Terminal) (x : CellShift) (n : Nat) : Terminal :=
  (t.applyFunction (x.function n)).1

theorem shiftCells_eq (hcell : t.isOnGrid = true) (x : CellShift) (n : Nat) :
    t.shiftCells x n
      = (t.onCursorRow fun r => x.row r t.blank t.cursor.col n).clearPending := by
  cases x with
  | insert => exact if_pos hcell
  | delete => exact if_pos hcell

theorem sameBeside_shiftCells (t : Terminal) (x : CellShift) (n : Nat) :
    t.SameBeside (t.shiftCells x n) := by
  cases x with
  | insert => exact (SameBeside.refl t).insertChars n
  | delete => exact (SameBeside.refl t).deleteChars n

end Terminal

namespace Emulator

/-- **Inserting and deleting characters shifts the cells and tears no wide character.**  On an
    emulator that can be reached, and with no defect in the row of the cursor, each cell of that
    row is afterwards the one that has come there, or a blank with the background of the pen: where
    none has come, and where a half has come without the other one.  Nothing else changes but that
    a wrap is not due any more. -/
theorem shiftCells_exact {e : Emulator} (he : e.Reachable)
    (hpairs : ∀ r ∈ e.terminal.screen.grid[e.terminal.cursor.row]?, Row.PairIntact r.cells)
    (x : CellShift) {n : Nat} (hn : 1 ≤ n) :
    let t := e.terminal
    let u := t.shiftCells x n
    let k := min n (t.cols - t.cursor.col)
    let blank : Cell := { rendition := { background := t.pen.background } }
    (∃ r r', t.screen.grid[t.cursor.row]? = some r ∧ u.screen.grid[t.cursor.row]? = some r' ∧
      r'.cells.size = t.cols ∧ r'.wrapped = r.wrapped ∧ Row.PairIntact r'.cells ∧
      ∀ j < t.cols, r'.cells[j]? = x.cell? blank r.cells t.cursor.col k j) ∧
    (∀ i : Nat, i ≠ t.cursor.row → u.screen.grid[i]? = t.screen.grid[i]?) ∧
    u.screen = { t.screen with grid := u.screen.grid } ∧ u.otherScreen = t.otherScreen ∧
    u.surroundings = t.surroundings ∧ u.cursor = { t.cursor with pendingWrap := false } := by
  intro t u k blank
  obtain ⟨limit, hwell⟩ := he.wellFormed
  have hrow : t.cursor.row < t.screen.grid.size := hwell.size_grid ▸ hwell.cursor.1
  obtain ⟨r, hr⟩ : ∃ r, t.screen.grid[t.cursor.row]? = some r :=
    ⟨_, Array.getElem?_eq_getElem hrow⟩
  have hsize : r.cells.size = t.cols := hwell.size_row (Array.mem_of_getElem? hr)
  have hcol : t.cursor.col < t.cols := hwell.cursor.2
  have hwhole : r.Whole t.cols := ⟨hsize, hpairs r hr⟩
  have hcell : t.isOnGrid = true := by
    rw [Terminal.isOnGrid, Screen.cell?, hr, Option.bind_some,
      Array.getElem?_eq_getElem (hsize ▸ hcol)]
    rfl
  have hu : u = (t.onCursorRow fun r => x.row r t.blank t.cursor.col n).clearPending :=
    Terminal.shiftCells_eq hcell x n
  have hbeside : t.SameBeside u := t.sameBeside_shiftCells x n
  refine ⟨⟨r, x.row r t.blank t.cursor.col n, hr, ?_, ?_, Row.wrapped_shift x r _ _ _, ?_, ?_⟩,
    hbeside.grid, hbeside.screen, hbeside.other, hbeside.surroundings, ?_⟩
  · rw [hu]
    show (t.onCursorRow _).screen.grid[t.cursor.row]? = _
    rw [Terminal.onCursorRow, Terminal.screen_onScreen, Screen.modifyRow, Array.getElem?_modify,
      if_pos rfl, hr, Option.map_some]
  · exact (hwhole.shift x (Cell.isNarrow_blank _) hcol n).size
  · exact (hwhole.shift x (Cell.isNarrow_blank _) hcol n).pairs
  · intro j hj
    rw [hwhole.pairs.getElem?_shift x (hsize ▸ hcol) hn (hsize ▸ hj), hsize]
    rfl
  · rw [hu]
    show ({ (t.onCursorRow _).cursor with pendingWrap := false } : Cursor) = _
    rw [Terminal.onCursorRow_cursor]

/-- Three wide characters, and the cursor on the second half of the first one.  An insertion tears
    that one at the cursor and the third one at the margin; a deletion of two cells tears the first
    one and the second one, of which one half is deleted. -/
theorem shiftCells_exact_torn :
    let calls : List Call := [.write (Utf8.ofString "日本語\x1b[44m\x1b[1;2H")]
    let e := run { terminal := .new 6 2 0 .cancelBold } calls
    let inserted := e.terminal.shiftCells .insert 1
    let deleted := e.terminal.shiftCells .delete 2
    let blank : Cell := { rendition := { background := some (.named 4) } }
    (e.Reachable ∧
      ∀ r ∈ e.terminal.screen.grid[e.terminal.cursor.row]?, Row.PairIntact r.cells) ∧
    (∃ r', inserted.screen.grid[e.terminal.cursor.row]? = some r' ∧ Row.PairIntact r'.cells) ∧
    inserted.screen.rowText 0 = "   本" ∧
    [0, 1, 2, 5].all (fun col => inserted.screen.cell? 0 col = some blank) = true ∧
    (∃ r', deleted.screen.grid[e.terminal.cursor.row]? = some r' ∧ Row.PairIntact r'.cells) ∧
    deleted.screen.rowText 0 = "  語" ∧
    [0, 1, 4, 5].all (fun col => deleted.screen.cell? 0 col = some blank) = true := by
  intro calls e inserted deleted blank
  have he : e.Reachable := ⟨⟨6, 2⟩, 0, .cancelBold, _, calls, rfl, rfl⟩
  have hpairs : ∀ r ∈ e.terminal.screen.grid[e.terminal.cursor.row]?, Row.PairIntact r.cells := by
    decide +kernel
  obtain ⟨⟨-, r₁, -, hr₁, -, -, hwhole₁, -⟩, -⟩ :=
    shiftCells_exact he hpairs .insert (n := 1) (Nat.le_refl 1)
  obtain ⟨⟨-, r₂, -, hr₂, -, -, hwhole₂, -⟩, -⟩ :=
    shiftCells_exact he hpairs .delete (n := 2) (by decide)
  refine ⟨⟨he, hpairs⟩, ⟨r₁, hr₁, hwhole₁⟩, ?_, ?_, ⟨r₂, hr₂, hwhole₂⟩, ?_, ?_⟩
  · decide +kernel
  · decide +kernel
  · decide +kernel
  · decide +kernel

end Emulator

end VideoTerminal
