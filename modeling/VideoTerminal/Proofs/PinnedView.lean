import VideoTerminal.Proofs.Scrolling

/-!
# A view that stays with its rows

The history and the grid are one run of lines, and the view is a window on it.  When the whole grid
scrolls up, the run grows by blank lines at its end and loses its oldest lines to the limit of the
history; the view that has been moved back goes on by as many rows as were remembered.  Both
together leave the window where it was, until the line at its top is lost.
-/

namespace VideoTerminal

/-- Looking up the places from `start` on, as many as `n`, gives the elements there. -/
theorem filterMap_getElem?_range {α : Type} (xs : List α) (start n : Nat) :
    (List.range n).filterMap (fun i => xs[start + i]?) = (xs.drop start).take n := by
  induction n with
  | zero => rfl
  | succ n ih =>
      rw [List.range_succ, List.filterMap_append, ih, List.take_add_one, List.getElem?_drop]
      cases h : xs[start + n]? <;> simp [h]

namespace Screen

variable {s : Screen}

/-! ## The window -/

/-- All lines, those of the history first, the oldest in front. -/
def lines (s : Screen) : List Row := s.history.toList ++ s.grid.toList

/-- The place in all lines of the line at the top of the view. -/
def viewTop (s : Screen) : Nat := s.history.size - s.viewOffset

theorem viewRow?_eq {i : Nat} (hi : i < s.rows) : s.viewRow? i = s.lines[s.viewTop + i]? := by
  rw [viewRow?, if_neg (Nat.not_le.mpr hi), lines]
  dsimp only
  rw [← viewTop]
  split
  · rename_i hline
    rw [List.getElem?_append_left (by rw [History.length_toList]; exact hline),
      History.getElem?_toList]
  · rename_i hline
    rw [List.getElem?_append_right (by rw [History.length_toList]; omega),
      History.length_toList, Array.getElem?_toList]

/-- The view is a window on all lines. -/
theorem toList_view (s : Screen) : s.view.toList = (s.lines.drop s.viewTop).take s.rows := by
  rw [view, Array.toList_filterMap, Array.toList_range, ← filterMap_getElem?_range]
  refine List.filterMap_congr ?_
  intro i hi
  exact viewRow?_eq (List.mem_range.mp hi)

theorem viewRow?_eq_view (s : Screen) (i : Nat) : s.viewRow? i = s.view[i]? := by
  rw [← Array.getElem?_toList, toList_view]
  by_cases hi : i < s.rows
  · rw [viewRow?_eq hi, List.getElem?_take_of_lt hi, List.getElem?_drop]
  · rw [viewRow?, if_pos (Nat.le_of_not_lt hi), List.getElem?_take, if_neg hi]

/-! ## Scrolling under a view -/

/-- Where rows are kept, one row more is counted, and a view that has been moved back goes on. -/
theorem remember_of_back (hback : 0 < s.viewOffset) (hlimit : s.historyLimit ≠ 0) (r : Row) :
    (s.remember r).history.size = min (s.history.size + 1) s.historyLimit ∧
    (s.remember r).viewOffset
      = min (s.viewOffset + 1) (min (s.history.size + 1) s.historyLimit) ∧
    (s.remember r).historyLimit = s.historyLimit := by
  have hsize : ((s.history.push r).truncate s.historyLimit).size
      = min (s.history.size + 1) s.historyLimit := by
    rw [History.size_truncate, History.size_push]
  rw [remember, if_neg hlimit]
  refine ⟨hsize, ?_, rfl⟩
  dsimp only
  rw [if_neg (Nat.ne_of_gt hback), hsize]

/-- A view that has been moved back goes on with every row, as far as the history can hold. -/
theorem viewOffset_foldl_remember (hback : 0 < s.viewOffset)
    (hview : s.viewOffset ≤ s.history.size) (hhistory : s.history.size ≤ s.historyLimit)
    (rows : List Row) :
    (rows.foldl remember s).viewOffset = min (s.viewOffset + rows.length) s.historyLimit := by
  induction rows generalizing s with
  | nil => exact (Nat.min_eq_left (Nat.le_trans hview hhistory)).symm
  | cons r rows ih =>
      obtain ⟨hsize, hoffset, hlimit⟩ := remember_of_back hback (by omega) r
      rw [List.foldl_cons, ih (by omega) (by omega) (by omega), hoffset, hlimit, List.length_cons]
      omega

/-- A grid with rows is a range of its own. -/
theorem split_grid (hgrid : s.grid.size = s.rows) (hrows : 0 < s.rows) :
    s.Split 0 (s.rows - 1) #[] s.grid #[] where
  grid := by simp
  top_eq := rfl
  last_eq := by
    rw [lastRow]
    omega
  size_pos := hgrid ▸ hrows

/-- What scrolling the whole grid up makes of all lines, and of the view. -/
theorem scroll_grid (hgrid : s.grid.size = s.rows) (hhistory : s.history.size ≤ s.historyLimit)
    (hback : 0 < s.viewOffset) (hview : s.viewOffset ≤ s.history.size) (n : Nat) (blank : Cell) :
    let next := s.scroll 0 (s.rows - 1) n .up blank
    let k := min n s.rows
    next.lines = s.lines.drop (s.history.size + k - s.historyLimit)
      ++ List.replicate k (Row.filled s.cols blank) ∧
    next.history.size = min (s.history.size + k) s.historyLimit ∧
    next.viewOffset = min (s.viewOffset + k) s.historyLimit ∧
    next.rows = s.rows := by
  intro next k
  rcases Nat.eq_zero_or_pos s.rows with hnone | hrows
  · -- there is nothing to scroll
    have hnext : next = s := scroll_of_outside (.inl (hgrid.trans hnone)) n .up blank
    have hk : k = 0 := by omega
    rw [hnext, hk]
    refine ⟨?_, ?_, ?_, rfl⟩
    · rw [Nat.add_zero, Nat.sub_eq_zero_of_le hhistory, List.drop_zero, List.replicate_zero,
        List.append_nil]
    · exact (Nat.min_eq_left hhistory).symm
    · exact (Nat.min_eq_left (Nat.le_trans hview hhistory)).symm
  · have h := split_grid hgrid hrows
    obtain ⟨history, viewOffset, hleft, hkept⟩ := foldl_remember_eq hhistory (s.grid.toList.take k)
    have hoffset := viewOffset_foldl_remember hback hview hhistory (s.grid.toList.take k)
    have hlength : (s.grid.toList.take k).length = k := by
      rw [List.length_take, Array.length_toList]
      omega
    have hmin : min n s.grid.size = k := congrArg (min n) hgrid
    have hnext : next = { s with
        grid := shifted .up k (Row.filled s.cols blank) s.grid, history, viewOffset } := by
      show s.scroll 0 (s.rows - 1) n .up blank = _
      rw [h.scroll_eq, h.shiftRows_eq, hmin, hleft, Array.empty_append, Array.append_empty]
    rw [List.rtake, List.length_append, History.length_toList, hlength] at hkept
    rw [hleft, hlength] at hoffset
    refine ⟨?_, ?_, ?_, ?_⟩
    · -- the rows that leave the grid are the next ones of the history
      have hdrop : s.history.size + k - s.historyLimit
          ≤ (s.history.toList ++ s.grid.toList.take k).length := by
        rw [List.length_append, History.length_toList, hlength]
        omega
      have hlines : s.lines = s.history.toList ++ s.grid.toList.take k ++ s.grid.toList.drop k := by
        rw [List.append_assoc, List.take_append_drop, lines]
      rw [hnext, hlines, List.drop_append_of_le_length hdrop, ← hkept, List.append_assoc]
      exact congrArg (history.toList ++ ·) (toList_shifted .up k _ s.grid)
    · rw [hnext, ← History.length_toList]
      dsimp only
      rw [hkept, List.length_drop, List.length_append, History.length_toList, hlength]
      omega
    · rw [hnext]
      exact hoffset
    · rw [hnext]

/-- **A view that has been moved back stays with its rows.**  The view shows as many consecutive
    lines as the grid has rows, of the history and the grid behind it, beginning so far in front of
    the grid as it has been moved back.  When the whole grid scrolls up, the oldest of these lines
    are evicted, as many as the history has then no room for, and blank ones come behind the others.
    As long as the line at the top of the view is not evicted, the view shows the same rows as
    before; and if it is, the view begins with the oldest line that is kept. -/
theorem view_pinned (hgrid : s.grid.size = s.rows) (hhistory : s.history.size ≤ s.historyLimit)
    (hback : 0 < s.viewOffset) (hview : s.viewOffset ≤ s.history.size) (n : Nat) (blank : Cell) :
    let top := s.history.size - s.viewOffset
    let next := s.scroll 0 (s.rows - 1) n .up blank
    let evicted := s.history.size + min n s.rows - s.historyLimit
    (s.view.toList = (s.lines.drop top).take s.rows ∧ s.view.size = s.rows ∧
      ∀ i, s.viewRow? i = s.view[i]?) ∧
    next.lines = s.lines.drop evicted ++ List.replicate (min n s.rows) (Row.filled s.cols blank) ∧
    (evicted ≤ top → next.view = s.view) ∧
    (top < evicted → 0 < next.history.size ∧ next.view.toList = next.lines.take s.rows) := by
  intro top next evicted
  obtain ⟨hlines, hsize, hoffset, hrows⟩ := scroll_grid hgrid hhistory hback hview n blank
  have hlength : s.lines.length = s.history.size + s.rows := by
    rw [lines, List.length_append, History.length_toList, Array.length_toList, hgrid]
  refine ⟨⟨toList_view s, ?_, viewRow?_eq_view s⟩, hlines, ?_, ?_⟩
  · rw [← Array.length_toList, toList_view, List.length_take, List.length_drop, hlength, viewTop]
    omega
  · intro hkept
    -- the place of the first visible line has gone down by the lines that are lost in front of it
    have htop : viewTop next = top - evicted := by
      rw [viewTop, hsize, hoffset]
      omega
    have hfull : s.rows ≤ (s.lines.drop top).length := by
      rw [List.length_drop, hlength]
      omega
    have hwithin : top - evicted ≤ (s.lines.drop evicted).length := by
      rw [List.length_drop, hlength]
      omega
    refine Array.toList_inj.mp ?_
    rw [toList_view, toList_view, htop, hlines, hrows, List.drop_append_of_le_length hwithin,
      List.drop_drop, Nat.add_sub_cancel' hkept, List.take_append_of_le_length hfull, viewTop]
  · intro hevicted
    have htop : viewTop next = 0 := by
      rw [viewTop, hsize, hoffset]
      omega
    refine ⟨?_, ?_⟩
    · rw [hsize]
      omega
    · rw [toList_view, htop, List.drop_zero, hrows]

/-- The limit is reached in the middle of a scroll: the line at the top of the view is the oldest
    one that is kept then. -/
theorem view_pinned_full :
    let row : Char → Row := fun c => Row.filled 1 { base := c }
    let s : Screen :=
      { cols := 1, rows := 2, grid := #[row 'd', row 'e']
        history := ((History.empty.push (row 'a')).push (row 'b')).push (row 'c')
        historyLimit := 4, region := ⟨0, 1⟩, viewOffset := 2 }
    (s.grid.size = s.rows ∧ s.history.size ≤ s.historyLimit ∧ 0 < s.viewOffset ∧
      s.viewOffset ≤ s.history.size) ∧
    s.view = #[row 'b', row 'c'] ∧ (s.scroll 0 1 2 .up {}).view = s.view := by
  intro row s
  have hgrid : s.grid.size = s.rows := by decide
  have hhistory : s.history.size ≤ s.historyLimit := by decide
  have hback : 0 < s.viewOffset := by decide
  have hview : s.viewOffset ≤ s.history.size := by decide
  obtain ⟨⟨hshown, -⟩, -, hkept, -⟩ := view_pinned hgrid hhistory hback hview 2 {}
  exact ⟨⟨hgrid, hhistory, hback, hview⟩, Array.toList_inj.mp (hshown.trans (by decide)),
    hkept (by decide)⟩

end Screen

end VideoTerminal
