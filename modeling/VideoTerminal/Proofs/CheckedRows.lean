import VideoTerminal.Proofs.Checked
import VideoTerminal.Proofs.ScreenShape

/-!
# Rows and screens with checks

Erasing, inserting and deleting in a row, and shifting the rows of a screen, with a check at every
place, range, rotation, sum and difference.  A row has to be as long as the screen is wide, and a
range of rows has to be on the grid; then there is no fault, and the outcome is that of the
operations without checks.
-/

namespace VideoTerminal

open Checked

namespace Row

/-- Blanks a cell if another one passes a test.  The target is worked out only then. -/
def checkedMend (test : Cell → Bool) (i : Nat) (target : Checked Nat) (blank : Cell)
    (cells : Array Cell) : Checked (Array Cell) := do
  if test (← found cells[i]?) then store cells (← target) blank else return cells

/-- Erases columns of a row on a screen of `cols` columns. -/
def checkedErase (r : Row) (blank : Cell) (start stop cols : Nat) (selective : Bool) :
    Checked Row := do
  let fullRow := start == 0 && cols ≤ stop
  let stop := min stop r.cells.size
  let start := min start stop
  let erased := fun (c : Cell) => if selective && c.isProtected then c else blank
  let cells ← mapSlice erased start stop r.cells
  let cells ← stepIf (0 < start ∧ start < stop)
    (checkedMend Cell.isContinuation start (sub start 1) blank) cells
  let cells ← stepIf (stop < cells.size)
    (checkedMend Cell.isContinuation stop (pure stop) blank) cells
  return { cells, wrapped := r.wrapped && !(fullRow || stop == cells.size) }

/-- Blanks both halves of a wide character of which a column is the second. -/
def checkedPart (blank : Cell) (col : Nat) (cells : Array Cell) : Checked (Array Cell) := do
  if (← found cells[col]?).isContinuation then
    store (← store cells (← sub col 1) blank) col blank
  else return cells

/-- Inserts `n` blank cells at a column. -/
def checkedInsert (r : Row) (blank : Cell) (col n : Nat) : Checked Row := do
  let size := r.cells.size
  let cells ← stepIf (0 < col) (checkedPart blank col) r.cells
  let n := min n (← sub size col)
  let cells ← onSlice (rotateRight n) col size cells
  let cells ← mapSlice (fun _ => blank) col (← add 64 col n) cells
  let cells ← checkedMend Cell.isWide (← sub size 1) (sub size 1) blank cells
  return { r with cells }

/-- Deletes `n` cells at a column. -/
def checkedDelete (r : Row) (blank : Cell) (col n : Nat) : Checked Row := do
  let size := r.cells.size
  let n := min n (← sub size col)
  let cells ← stepIf (0 < col) (checkedMend Cell.isContinuation col (sub col 1) blank) r.cells
  let cells ← onSlice (rotateLeft n) col size cells
  let cells ← mapSlice (fun _ => blank) (← sub size n) size cells
  let cells ← checkedMend Cell.isContinuation col (pure col) blank cells
  return { r with cells }

/-! ## Without faults -/

variable {cells : Array Cell} {blank : Cell}

theorem checkedMend_eq {test : Cell → Bool} {i j : Nat} {target : Checked Nat}
    (hi : i < cells.size) (hj : target = pure j) (hsize : j < cells.size) :
    checkedMend test i target blank cells
      = pure (if (cells[i]?.map test).getD false then cells.setIfInBounds j blank else cells) := by
  rw [checkedMend, Array.getElem?_eq_getElem hi, found, pure_bind, Option.map_some,
    Option.getD_some]
  split
  · rw [hj, pure_bind, store_eq hsize]
  · rfl

/-- Something is mended under a condition. -/
theorem stepIf_checkedMend_eq {p : Prop} [Decidable p] {test : Cell → Bool} {i j : Nat}
    {target : Checked Nat} (h : p → i < cells.size ∧ target = pure j ∧ j < cells.size) :
    stepIf p (checkedMend test i target blank) cells
      = pure (if p ∧ (cells[i]?.map test).getD false = true then cells.setIfInBounds j blank
        else cells) := by
  rw [stepIf_eq (p := p) fun hp => checkedMend_eq (h hp).1 (h hp).2.1 (h hp).2.2, ite_and]

/-- A cell is mended itself where it is there. -/
theorem stepIf_checkedMend_self (test : Cell → Bool) (i : Nat) :
    stepIf (i < cells.size) (checkedMend test i (pure i) blank) cells
      = pure (if (cells[i]?.map test).getD false = true then cells.setIfInBounds i blank
        else cells) := by
  rw [stepIf_checkedMend_eq fun hi => ⟨hi, rfl, hi⟩]
  by_cases hi : i < cells.size
  · simp only [hi, true_and]
  · rw [if_neg fun h => hi h.1, Array.getElem?_eq_none (Nat.le_of_not_lt hi)]
    rfl

theorem checkedErase_eq (r : Row) (blank : Cell) (start stop : Nat) {cols : Nat}
    (selective : Bool) (hcols : r.cells.size = cols) :
    r.checkedErase blank start stop cols selective = pure (r.erase blank start stop selective) := by
  have hstop : min stop r.cells.size ≤ r.cells.size := Nat.min_le_right _ _
  have hstart : min start (min stop r.cells.size) ≤ min stop r.cells.size := Nat.min_le_right _ _
  -- a row that is erased from end to end is erased up to its end
  have hfull : (start == 0 && decide (cols ≤ stop)) = true →
      min stop r.cells.size = r.cells.size := by
    intro h
    simp only [Bool.and_eq_true, decide_eq_true_eq] at h
    omega
  rw [checkedErase, erase]
  rw [mapSlice_eq ⟨hstart, hstop⟩, pure_bind]
  generalize min start (min stop r.cells.size) = first at hstart ⊢
  generalize min stop r.cells.size = last at hstart hstop hfull ⊢
  generalize hcells : modifyRange _ _ _ r.cells = cells
  have hsize : cells.size = r.cells.size := by rw [← hcells, size_modifyRange]
  have hbefore : (0 < first ∧ first < last) →
      first < cells.size ∧ sub first 1 = pure (first - 1) ∧ first - 1 < cells.size := by
    rintro ⟨hpos, hlt⟩
    exact ⟨by omega, sub_eq hpos, by omega⟩
  rw [stepIf_checkedMend_eq hbefore, pure_bind, stepIf_checkedMend_self, pure_bind]
  simp only [continuesAt, Bool.and_eq_true, decide_eq_true_eq, size_ite_setIfInBounds, hsize]
  congr 3
  -- the flag is cleared by the same condition
  by_cases hend : last = r.cells.size
  · simp [hend]
  · rw [Bool.eq_false_iff.mpr fun h => hend (hfull h), Bool.false_or]
    rfl

/-- Rotating a part of the cells and blanking its beginning moves it to the right. -/
theorem rotated_moveRight (blank : Cell) {col n : Nat} (hcol : col ≤ cells.size)
    (hn : n ≤ cells.size - col) :
    ∃ rotated, onSlice (rotateRight n) col cells.size cells = pure rotated ∧
      rotated.size = cells.size ∧
      modifyRange (fun _ => blank) col n rotated = moveRight blank col n cells := by
  have hsize : (cells.extract col cells.size).size = cells.size - col := by simp
  refine ⟨_, onSlice_eq ⟨hcol, Nat.le_refl _⟩ (rotateRight_eq (by omega)), by simp; omega, ?_⟩
  -- what has come to the front of the part is blanked
  have hchange := modifyRange_append (fun _ => blank) (cells.take col)
    ((cells.extract col cells.size).drop (cells.size - col - n))
    ((cells.extract col cells.size).take (cells.size - col - n) ++ cells.drop cells.size)
  have hfront : (cells.take col).size = col := by simp [hcol]
  have hcount : ((cells.extract col cells.size).drop (cells.size - col - n)).size = n := by
    simp; omega
  rw [hfront, hcount] at hchange
  have hkept : (cells.extract col cells.size).take (cells.size - col - n)
      = cells.extract col (cells.size - n) := by
    rw [Array.take_eq_extract, Array.extract_extract]
    congr 1
    omega
  have hnone : cells.drop cells.size = #[] := by simp
  rw [hsize, ← Array.append_assoc, Array.append_assoc, hchange, Array.map_const', hcount, hkept,
    hnone, Array.append_empty, moveRight]

/-- Rotating a part of the cells and blanking its end moves it to the left. -/
theorem rotated_moveLeft (blank : Cell) {col n : Nat} (hcol : col ≤ cells.size)
    (hn : n ≤ cells.size - col) :
    ∃ rotated, onSlice (rotateLeft n) col cells.size cells = pure rotated ∧
      rotated.size = cells.size ∧
      modifyRange (fun _ => blank) (cells.size - n) n rotated = moveLeft blank col n cells := by
  have hsize : (cells.extract col cells.size).size = cells.size - col := by simp
  refine ⟨_, onSlice_eq ⟨hcol, Nat.le_refl _⟩ (rotateLeft_eq (by omega)), by simp; omega, ?_⟩
  -- what has gone to the end of the part is blanked
  have hchange := modifyRange_append (fun _ => blank)
    (cells.take col ++ (cells.extract col cells.size).drop n)
    ((cells.extract col cells.size).take n) (cells.drop cells.size)
  have hfront : (cells.take col ++ (cells.extract col cells.size).drop n).size
      = cells.size - n := by
    simp; omega
  have hcount : ((cells.extract col cells.size).take n).size = n := by simp; omega
  rw [hfront, hcount] at hchange
  have hkept : (cells.extract col cells.size).drop n = cells.drop (col + n) := by
    rw [Array.drop_eq_extract, Array.drop_eq_extract, Array.extract_extract, hsize]
    congr 1
    omega
  have hnone : cells.drop cells.size = #[] := by simp
  rw [← Array.append_assoc, hchange, Array.map_const', hcount, hkept, hnone, Array.append_empty,
    moveLeft]

theorem checkedPart_eq {col : Nat} (hpos : 0 < col) (hcol : col < cells.size) :
    checkedPart blank col cells
      = pure (if continuesAt cells col = true then
          (cells.setIfInBounds (col - 1) blank).setIfInBounds col blank
        else cells) := by
  have hbefore : col - 1 < cells.size := by omega
  have hself : col < (cells.setIfInBounds (col - 1) blank).size := by simpa using hcol
  rw [checkedPart, continuesAt, Array.getElem?_eq_getElem hcol, found, pure_bind,
    Option.map_some, Option.getD_some]
  split
  · rw [sub_eq hpos, pure_bind, store_eq hbefore, pure_bind, store_eq hself]
  · rfl

theorem checkedInsert_eq (r : Row) (blank : Cell) {col : Nat} (n : Nat)
    (hcol : col < r.cells.size) (hword : r.cells.size < 2 ^ 64) :
    r.checkedInsert blank col n = pure (r.insert blank col n) := by
  have hpart : stepIf (0 < col) (checkedPart blank col) r.cells
      = pure (if (0 < col && continuesAt r.cells col) = true then
          (r.cells.setIfInBounds (col - 1) blank).setIfInBounds col blank
        else r.cells) := by
    rw [stepIf_eq fun hpos => checkedPart_eq hpos hcol, ← ite_and]
    simp only [Bool.and_eq_true, decide_eq_true_eq]
  rw [checkedInsert, insert, hpart, pure_bind]
  generalize hparted : (if (0 < col && continuesAt r.cells col) = true then
      (r.cells.setIfInBounds (col - 1) blank).setIfInBounds col blank else r.cells) = parted
  have hsize : parted.size = r.cells.size := by
    rw [← hparted]
    split <;> simp
  have hn : min n (parted.size - col) ≤ parted.size - col := Nat.min_le_right _ _
  obtain ⟨rotated, hrotated, hrsize, hmoved⟩ :=
    rotated_moveRight blank (hsize ▸ Nat.le_of_lt hcol) hn
  have hmsize := size_modifyRange (fun _ => blank) col (min n (parted.size - col)) rotated
  rw [hmoved, hrsize] at hmsize
  rw [← hsize] at hcol hword ⊢
  rw [sub_eq (Nat.le_of_lt hcol), pure_bind]
  dsimp only
  generalize min n (parted.size - col) = count at *
  rw [hrotated, pure_bind, add_eq (by omega), pure_bind, mapSlice_eq (by omega),
    pure_bind, sub_eq (by omega), pure_bind, Nat.add_sub_cancel_left, hmoved,
    checkedMend_eq (by omega) rfl (by omega), pure_bind, hmsize]
  rfl

theorem checkedDelete_eq (r : Row) (blank : Cell) {col : Nat} (n : Nat)
    (hcol : col < r.cells.size) :
    r.checkedDelete blank col n = pure (r.delete blank col n) := by
  have hmend : stepIf (0 < col)
        (checkedMend Cell.isContinuation col (sub col 1) blank) r.cells
      = pure (if (0 < col && continuesAt r.cells col) = true then
          r.cells.setIfInBounds (col - 1) blank
        else r.cells) := by
    have hbefore : 0 < col → col < r.cells.size ∧ sub col 1 = pure (col - 1) ∧
        col - 1 < r.cells.size := by
      intro hpos
      exact ⟨hcol, sub_eq hpos, by omega⟩
    rw [stepIf_checkedMend_eq hbefore]
    simp only [continuesAt, Bool.and_eq_true, decide_eq_true_eq]
  rw [checkedDelete, delete, sub_eq (Nat.le_of_lt hcol), pure_bind]
  dsimp only
  rw [hmend, pure_bind]
  generalize hmended : (if (0 < col && continuesAt r.cells col) = true then
      r.cells.setIfInBounds (col - 1) blank else r.cells) = mended
  have hsize : mended.size = r.cells.size := by rw [← hmended, size_ite_setIfInBounds]
  have hn : min n (mended.size - col) ≤ mended.size - col := Nat.min_le_right _ _
  obtain ⟨rotated, hrotated, hrsize, hmoved⟩ :=
    rotated_moveLeft blank (hsize ▸ Nat.le_of_lt hcol) hn
  have hmsize := size_modifyRange (fun _ => blank) (mended.size - min n (mended.size - col))
    (min n (mended.size - col)) rotated
  rw [hmoved, hrsize] at hmsize
  rw [← hsize] at hcol ⊢
  generalize min n (mended.size - col) = count at *
  rw [hrotated, pure_bind, sub_eq (by omega), pure_bind, mapSlice_eq (by omega), pure_bind,
    Nat.sub_sub_self (by omega), hmoved, checkedMend_eq (by omega) rfl (by omega), pure_bind]
  rfl

end Row

/-! ## Screens -/

namespace Screen

/-- Shifts all of so many rows by `n`, and gives those that have come round. -/
def checkedShifted (dir : Direction) (height n : Nat) (blank : Row) (rows : Array Row) :
    Checked (Array Row × List Row) :=
  match dir with
  | .up => do
      let rows ← rotateLeft n rows
      replaceRange blank (← sub height n) n rows
  | .down => do
      let rows ← rotateRight n rows
      replaceRange blank 0 n rows

/-- Shifts a range of rows, and gives those that have left it. -/
def checkedRotate (s : Screen) (top bottom count : Nat) (dir : Direction) (blank : Cell) :
    Checked (Screen × List Row) := do
  let bottom := s.lastRow bottom
  if s.grid.isEmpty ∨ bottom < top ∨ count = 0 then return (s, [])
  else
    let height ← add 64 (← sub bottom top) 1
    let stop ← add 64 bottom 1
    within top stop s.grid.size
    let (rows, left) ← checkedShifted dir height (min count height) (Row.filled s.cols blank)
      (s.grid.extract top stop)
    return ({ s with grid := s.grid.take top ++ rows ++ s.grid.drop stop }, left)

/-- Shifts a range of rows; those that leave it are lost. -/
def checkedShiftRows (s : Screen) (top bottom count : Nat) (dir : Direction) (blank : Cell) :
    Checked Screen := do
  return (← s.checkedRotate top bottom count dir blank).1

/-- Scrolls a range of rows.  Rows that leave the grid at its top go into the history. -/
def checkedScroll (s : Screen) (top bottom count : Nat) (dir : Direction) (blank : Cell) :
    Checked Screen := do
  let (s, left) ← s.checkedRotate top bottom count dir blank
  return if dir = .up ∧ top = 0 then left.foldl remember s else s

theorem checkedShifted_eq (dir : Direction) {n : Nat} (blank : Row) {rows : Array Row}
    (hn : n ≤ rows.size) :
    ∃ left, checkedShifted dir rows.size n blank rows = pure (shifted dir n blank rows, left) ∧
      (dir = .up → left = (rows.take n).toList) := by
  cases dir with
  | up =>
      have hreplace := replaceRange_append blank (rows.drop n) (rows.take n) #[]
      have hfront : (rows.drop n).size = rows.size - n := by simp
      have hcount : (rows.take n).size = n := by simp [hn]
      rw [hfront, hcount, Array.append_empty, Array.append_empty] at hreplace
      refine ⟨_, ?_, fun _ => rfl⟩
      rw [checkedShifted, rotateLeft_eq hn, pure_bind, sub_eq hn, pure_bind, hreplace]
      rfl
  | down =>
      have hreplace := replaceRange_append blank #[] (rows.drop (rows.size - n))
        (rows.take (rows.size - n))
      have hcount : (rows.drop (rows.size - n)).size = n := by simp; omega
      rw [hcount, Array.empty_append, Array.empty_append] at hreplace
      refine ⟨(rows.drop (rows.size - n)).toList, ?_, fun h => absurd h nofun⟩
      rw [checkedShifted, rotateRight_eq hn, pure_bind]
      exact hreplace

theorem checkedRotate_eq (s : Screen) (top bottom count : Nat) (dir : Direction) (blank : Cell)
    (hword : s.grid.size < 2 ^ 64) :
    ∃ left, s.checkedRotate top bottom count dir blank
        = pure (s.shiftRows top bottom count dir blank, left) ∧
      (dir = .up → top = 0 → left = (s.grid.take (min count (s.lastRow bottom + 1))).toList) := by
  rw [checkedRotate]
  dsimp only
  by_cases hrows : s.grid.isEmpty ∨ s.lastRow bottom < top
  · refine ⟨[], ?_, ?_⟩
    · rw [if_pos (hrows.imp_right .inl), shiftRows]
      dsimp only
      rw [if_pos hrows]
    · rintro - rfl
      have hempty : s.grid.isEmpty = true := hrows.resolve_right (Nat.not_lt_zero _)
      rw [Array.isEmpty_iff.mp hempty]
      simp
  have hgrid : 0 < s.grid.size ∧ top ≤ s.lastRow bottom := by
    rw [not_or, Array.isEmpty_iff_size_eq_zero] at hrows
    omega
  have hlast : s.lastRow bottom < s.grid.size := by
    rw [lastRow]
    omega
  by_cases hcount : count = 0
  · subst hcount
    refine ⟨[], ?_, ?_⟩
    · rw [if_pos (.inr (.inr rfl)), shiftRows_zero]
    · rintro - -
      simp
  have hgo : ¬(s.grid.isEmpty = true ∨ s.lastRow bottom < top ∨ count = 0) := by
    rintro (hempty | hbelow | hzero)
    · exact hrows (.inl hempty)
    · exact hrows (.inr hbelow)
    · exact hcount hzero
  have hheight : (s.grid.extract top (s.lastRow bottom + 1)).size = s.lastRow bottom + 1 - top := by
    simp
    omega
  obtain ⟨left, hshifted, hleft⟩ := checkedShifted_eq dir (Row.filled s.cols blank)
    (Nat.min_le_right count (s.grid.extract top (s.lastRow bottom + 1)).size)
  rw [hheight] at hshifted hleft
  refine ⟨left, ?_, ?_⟩
  · rw [if_neg hgo, sub_eq hgrid.2, pure_bind, add_eq (by omega), pure_bind,
      add_eq (by omega), pure_bind, within_eq (by omega), pure_bind,
      ← Nat.sub_add_comm hgrid.2, hshifted, pure_bind, shiftRows]
    dsimp only
    rw [if_neg hrows]
  · rintro hup rfl
    rw [hleft hup, Array.take_eq_extract, Array.take_eq_extract, Array.extract_extract]
    congr 2
    omega

theorem checkedShiftRows_eq (s : Screen) (top bottom count : Nat) (dir : Direction) (blank : Cell)
    (hword : s.grid.size < 2 ^ 64) :
    s.checkedShiftRows top bottom count dir blank
      = pure (s.shiftRows top bottom count dir blank) := by
  obtain ⟨left, hrotate, -⟩ := s.checkedRotate_eq top bottom count dir blank hword
  rw [checkedShiftRows, hrotate, pure_bind]

theorem checkedScroll_eq (s : Screen) (top bottom count : Nat) (dir : Direction) (blank : Cell)
    (hword : s.grid.size < 2 ^ 64) :
    s.checkedScroll top bottom count dir blank = pure (s.scroll top bottom count dir blank) := by
  obtain ⟨left, hrotate, hleft⟩ := s.checkedRotate_eq top bottom count dir blank hword
  rw [checkedScroll, hrotate, pure_bind, scroll]
  dsimp only
  by_cases hup : dir = .up ∧ top = 0
  · rw [if_pos hup, if_pos hup, hleft hup.1 hup.2, Array.foldl_toList]
  · rw [if_neg hup, if_neg hup]

end Screen

end VideoTerminal
