import VideoTerminal.Screen
import VideoTerminal.Proofs.RowShape

/-!
# The shape of a screen

A screen has its rows on the grid, all of them as long as the screen is wide, no more rows in the
history than the limit allows, and a view that is not moved back beyond the history.  Shifting and
scrolling keep this; setting the region and resizing change the figures that go with it.

As for rows, the cells are only known to have some property that blank cells have.
-/

namespace VideoTerminal

/-! ## The number of rows in the history -/

namespace History

/-- A row that is pushed is one row more. -/
theorem size_push (h : History) (r : Row) : (h.push r).size = h.size + 1 := by
  rw [← length_toList, toList_push, List.length_append, length_toList]
  rfl

/-- What is cut is beyond the limit. -/
theorem size_truncate (h : History) (limit : Nat) : (h.truncate limit).size = min h.size limit := by
  rw [← length_toList, toList_truncate, List.length_drop, length_toList]
  omega

theorem size_map (h : History) (f : Row → Row) : (h.map f).size = h.size := by
  rw [← length_toList, toList_map, List.length_map, length_toList]

end History

/-! ## Well-formed screens -/

/-- A region that has rows, all of them among the first `rows`. -/
def Region.Within (rows : Nat) (r : Region) : Prop := r.top ≤ r.bottom ∧ r.bottom < rows

/-- The whole screen is a region of it. -/
theorem Screen.within_wholeRegion {rows : Nat} (h : 0 < rows) :
    (Screen.wholeRegion rows).Within rows :=
  ⟨Nat.zero_le _, Nat.sub_lt h Nat.one_pos⟩

/-- A screen of `cols` times `rows` cells, each with a property, that scrolls in a given region
    and keeps at most `limit` rows. -/
structure Screen.WellFormed (P : Cell → Prop) (cols rows : Nat) (region : Region) (limit : Nat)
    (s : Screen) : Prop where
  cols_eq : s.cols = cols
  rows_eq : s.rows = rows
  grid : AllOf (Row.Fits P cols) rows s.grid
  history : ∀ r ∈ s.history.toList, r.Fits P cols
  region_eq : s.region = region
  limit_eq : s.historyLimit = limit
  history_le : s.history.size ≤ limit
  view_le : s.viewOffset ≤ s.history.size

namespace Screen

variable {P : Cell → Prop} {cols rows limit : Nat} {region : Region} {s : Screen}

/-- An empty screen has the shape it was made with. -/
theorem wellFormed_empty (hP : Cell.HeldByBlanks P) (cols rows limit : Nat) :
    (empty cols rows limit).WellFormed P cols rows (wholeRegion rows) limit where
  cols_eq := rfl
  rows_eq := rfl
  grid := AllOf.replicate (Row.fits_empty hP cols) rows
  history := by
    intro r hr
    exact absurd hr List.not_mem_nil
  region_eq := rfl
  limit_eq := rfl
  history_le := Nat.zero_le limit
  view_le := Nat.zero_le _

/-- A range of rows has as many rows after shifting as before. -/
theorem allOf_shifted {Q : Row → Prop} {n k : Nat} {xs : Array Row} (h : AllOf Q n xs)
    {b : Row} (hb : Q b) (hk : k ≤ n) (dir : Direction) : AllOf Q n (shifted dir k b xs) := by
  cases dir with
  | up =>
      refine ((h.extract k xs.size).append (AllOf.replicate hb k)).cast ?_
      rw [h.size]
      omega
  | down =>
      refine ((AllOf.replicate hb k).append (h.extract 0 (xs.size - k))).cast ?_
      rw [h.size]
      omega

/-- To shift by no rows changes nothing. -/
theorem shifted_zero (dir : Direction) (blank : Row) (rows : Array Row) :
    shifted dir 0 blank rows = rows := by
  cases dir <;> simp [shifted]

/-- Rows that are not shifted stay where they are. -/
theorem shiftRows_zero (s : Screen) (top bottom : Nat) (dir : Direction) (blank : Cell) :
    s.shiftRows top bottom 0 dir blank = s := by
  rw [shiftRows]
  dsimp only
  split
  · rfl
  · rename_i hrows
    rw [not_or] at hrows
    have hparts : s.grid.take top ++ s.grid.extract top (s.lastRow bottom + 1)
        ++ s.grid.drop (s.lastRow bottom + 1) = s.grid := by
      rw [Array.take_eq_extract, Array.drop_eq_extract, Array.extract_append_extract,
        Nat.zero_min, Nat.max_eq_right (by omega), Array.extract_append_extract, Nat.zero_min]
      exact Array.extract_eq_self_of_le (Nat.le_max_right _ _)
    rw [Nat.zero_min, shifted_zero, hparts]

namespace WellFormed

/-! ### Changes of the grid -/

/-- The grid may be replaced by any other of the same size. -/
theorem setGrid (h : s.WellFormed P cols rows region limit) {g : Array Row}
    (hg : AllOf (Row.Fits P cols) rows g) :
    ({ s with grid := g } : Screen).WellFormed P cols rows region limit :=
  { h with grid := hg }

/-- A change of one row that keeps its shape keeps that of the screen. -/
theorem modifyRow (h : s.WellFormed P cols rows region limit) {f : Row → Row}
    (hf : ∀ r, Row.Fits P cols r → Row.Fits P cols (f r)) (row : Nat) :
    (s.modifyRow row f).WellFormed P cols rows region limit :=
  h.setGrid (h.grid.modify hf row)

/-- So does a change of several rows. -/
theorem modifyRows (h : s.WellFormed P cols rows region limit) {f : Row → Row}
    (hf : ∀ r, Row.Fits P cols r → Row.Fits P cols (f r)) (first n : Nat) :
    ({ s with grid := modifyRange f first n s.grid } : Screen).WellFormed P cols rows region
      limit :=
  h.setGrid (AllOf.modifyRange hf first n h.grid)

theorem markWrapped (h : s.WellFormed P cols rows region limit) (row : Nat) :
    (s.markWrapped row).WellFormed P cols rows region limit :=
  h.modifyRow (fun _ hr => hr.markWrapped) row

theorem fill (h : s.WellFormed P cols rows region limit) {c : Cell} (hc : P c) :
    (s.fill c).WellFormed P cols rows region limit :=
  h.setGrid (h.grid.map fun _ hr => hr.fill hc)

/-! ### Changes of the history and the view -/

/-- A row more in the history: the oldest one goes where there is no room for it. -/
theorem remember (h : s.WellFormed P cols rows region limit) {r : Row} (hr : r.Fits P cols) :
    (s.remember r).WellFormed P cols rows region limit := by
  rw [Screen.remember]
  split
  · exact h
  · have hsize : ((s.history.push r).truncate s.historyLimit).size
        = min (s.history.size + 1) limit := by
      rw [History.size_truncate, History.size_push, h.limit_eq]
    refine { h with history := ?_, history_le := ?_, view_le := ?_ }
    · intro q hq
      rw [History.toList_truncate, History.toList_push] at hq
      rcases List.mem_append.mp (List.mem_of_mem_drop hq) with hq | hq
      · exact h.history q hq
      · rw [List.mem_singleton.mp hq]
        exact hr
    · show History.size _ ≤ limit
      rw [hsize]
      exact Nat.min_le_right _ _
    · show (if s.viewOffset = 0 then 0 else min (s.viewOffset + 1) _) ≤ History.size _
      split
      · exact Nat.zero_le _
      · exact Nat.min_le_right _ _

/-- Rows of the right shape may go to the history, which is cut to its limit. -/
theorem rememberAll (h : s.WellFormed P cols rows region limit) {leaving : Array Row}
    (hl : ∀ r ∈ leaving, Row.Fits P cols r) :
    (leaving.foldl Screen.remember s).WellFormed P cols rows region limit := by
  obtain ⟨leaving⟩ := leaving
  rw [List.foldl_toArray]
  induction leaving generalizing s with
  | nil => exact h
  | cons r rest ih =>
      refine ih (h.remember (hl r (by simp))) ?_
      intro q hq
      exact hl q (by simp_all)

theorem clearHistory (h : s.WellFormed P cols rows region limit) :
    s.clearHistory.WellFormed P cols rows region limit := by
  refine { h with history := ?_, history_le := Nat.zero_le _, view_le := Nat.zero_le _ }
  intro r hr
  exact absurd hr List.not_mem_nil

theorem viewReset (h : s.WellFormed P cols rows region limit) :
    s.viewReset.WellFormed P cols rows region limit :=
  { h with view_le := Nat.zero_le _ }

/-! ### Shifting and scrolling -/

/-- To shift rows is to drop some and to put blank ones in, as many. -/
theorem shiftRows (h : s.WellFormed P cols rows region limit) {b : Cell} (hb : P b)
    (top bottom count : Nat) (dir : Direction) :
    (s.shiftRows top bottom count dir b).WellFormed P cols rows region limit := by
  rw [Screen.shiftRows]
  dsimp only
  split
  · exact h
  · rename_i hrange
    rw [not_or, Array.isEmpty_iff_size_eq_zero, h.grid.size] at hrange
    have hlast : s.lastRow bottom < rows := by
      simp only [lastRow, h.grid.size]
      omega
    have hblank : (Row.filled s.cols b).Fits P cols := by
      rw [h.cols_eq]
      exact Row.fits_filled hb cols
    have hshifted := allOf_shifted (h.grid.extract top (s.lastRow bottom + 1)) hblank
      (k := min count (s.lastRow bottom + 1 - top)) (by omega) dir
    -- above the region, the shifted rows of it, and below
    refine h.setGrid ((((h.grid.extract 0 top).append hshifted).append
      (h.grid.extract (s.lastRow bottom + 1) s.grid.size)).cast ?_)
    rw [h.grid.size]
    omega

/-- To scroll is to shift, and to remember the rows that leave at the top. -/
theorem scroll (h : s.WellFormed P cols rows region limit) {b : Cell} (hb : P b)
    (top bottom count : Nat) (dir : Direction) :
    (s.scroll top bottom count dir b).WellFormed P cols rows region limit := by
  rw [Screen.scroll]
  split
  · exact (h.shiftRows hb top bottom count dir).rememberAll (h.grid.extract 0 _).each
  · exact h.shiftRows hb top bottom count dir

/-! ### Regions and resizing -/

theorem setRegion (h : s.WellFormed P cols rows region limit) {r : Region} (hr : r.Within rows) :
    (s.setRegion r).WellFormed P cols rows r limit := by
  have haccepts : s.acceptsRegion r = true := by
    simp only [acceptsRegion, h.rows_eq, Bool.and_eq_true, decide_eq_true_eq]
    exact hr
  rw [Screen.setRegion, if_pos haccepts]
  exact { h with region_eq := rfl }

theorem resetRegion (h : s.WellFormed P cols rows region limit) :
    s.resetRegion.WellFormed P cols rows (wholeRegion rows) limit :=
  { h with region_eq := congrArg wholeRegion h.rows_eq }

/-- A screen that is resized has the new shape, and the whole of it for a region. -/
theorem resize (hP : Cell.HeldByBlanks P) (h : s.WellFormed P cols rows region limit)
    (cols' rows' : Nat) :
    (s.resize cols' rows').WellFormed P cols' rows' (wholeRegion rows') limit where
  cols_eq := rfl
  rows_eq := rfl
  grid := by
    -- the rows that are added are empty, and changed in length like the others
    have hold : AllOf (fun r : Row => Row.Fits P cols' (r.resize cols')) _ s.grid :=
      ⟨h.grid.size, fun r hr => (h.grid.each r hr).resize hP cols'⟩
    have hnew := AllOf.replicate (P := fun r : Row => Row.Fits P cols' (r.resize cols'))
      ((Row.fits_empty hP cols').resize hP cols') (rows' - s.grid.size)
    refine (((hold.extract 0 rows').append hnew).map fun _ hr => hr).cast ?_
    rw [h.grid.size]
    omega
  history := by
    intro r hr
    rw [show (s.resize cols' rows').history = s.history.map (·.resize cols') from rfl,
      History.toList_map] at hr
    obtain ⟨q, hq, rfl⟩ := List.mem_map.mp hr
    exact (h.history q hq).resize hP cols'
  region_eq := rfl
  limit_eq := h.limit_eq
  history_le := by
    show (s.history.map _).size ≤ limit
    rw [History.size_map]
    exact h.history_le
  view_le := by
    show min s.viewOffset s.history.size ≤ (s.history.map _).size
    rw [History.size_map]
    exact Nat.min_le_right _ _

end WellFormed

end Screen

end VideoTerminal
