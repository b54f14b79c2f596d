import Mathlib.Data.List.DropRight
import VideoTerminal.Proofs.Page

/-!
# Scrolling conserves rows

Scrolling moves the rows of a range and leaves the others where they are.  What a range loses at
the top of the grid is added to the history, row by row, and of both together the newest rows are
kept.

A range cuts the grid into the rows above it, its own, and those below: that is `Screen.Split`.
One equation says what shifting makes of a grid cut in this way, and another what scrolling does
besides to the history.  Both also hold one row at a time, so scrolling by some rows is scrolling
by one row as often.
-/

namespace VideoTerminal

/-- Keeping the newest elements before more are added makes no difference to those kept then. -/
theorem rtake_rtake_append {α : Type} (xs ys : List α) (n : Nat) :
    (xs.rtake n ++ ys).rtake n = (xs ++ ys).rtake n := by
  simp only [List.rtake, List.length_append, List.length_drop, List.drop_append, List.drop_drop]
  congr 2 <;> omega

/-- A family of functions that goes on by its first member repeats it. -/
theorem eq_repeat_of_succ {α : Type} {f : Nat → α → α} {a : α} (hzero : f 0 a = a) {bound : Nat}
    (hsucc : ∀ n < bound, f (n + 1) a = f 1 (f n a)) {k : Nat} (hk : k ≤ bound) :
    f k a = Nat.repeat (f 1) k a := by
  induction k with
  | zero => exact hzero
  | succ k ih =>
      rw [hsucc k hk, ih (Nat.le_of_lt hk)]
      rfl

theorem repeat_of_fixed {α : Type} {f : α → α} {a : α} (hf : f a = a) (n : Nat) :
    Nat.repeat f n a = a :=
  repeat_invariant (I := (· = a)) (fun _ hb => hb ▸ hf) rfl n

namespace Screen

variable {s : Screen} {top bottom : Nat} {above range below : Array Row}

/-! ## Shifting a range -/

theorem toList_shifted (dir : Direction) (n : Nat) (blank : Row) (rows : Array Row) :
    (shifted dir n blank rows).toList = match dir with
      | .up => rows.toList.drop n ++ List.replicate n blank
      | .down => List.replicate n blank ++ rows.toList.take (rows.size - n) := by
  cases dir with
  | up => simp [shifted, List.take_of_length_le]
  | down => simp [shifted]

theorem size_shifted (dir : Direction) {n : Nat} (blank : Row) {rows : Array Row}
    (hn : n ≤ rows.size) : (shifted dir n blank rows).size = rows.size :=
  (allOf_shifted (Q := fun _ => True) ⟨rfl, fun _ _ => trivial⟩ trivial hn dir).size

/-- Shifting goes on by one row. -/
theorem shifted_succ (dir : Direction) {n : Nat} (blank : Row) {rows : Array Row}
    (hn : n < rows.size) :
    shifted dir (n + 1) blank rows = shifted dir 1 blank (shifted dir n blank rows) := by
  refine Array.toList_inj.mp ?_
  have hsize := size_shifted dir blank (Nat.le_of_lt hn)
  cases dir with
  | up =>
      simp only [toList_shifted]
      rw [List.drop_append_of_le_length (by simp; omega), List.drop_drop, List.append_assoc,
        List.replicate_succ']
      rfl
  | down =>
      -- `k` rows are still there behind both shifts
      obtain ⟨k, hk⟩ : ∃ k, rows.size = n + 1 + k := ⟨rows.size - (n + 1), by omega⟩
      have hboth : rows.size - (n + 1) = k := by omega
      have hfirst : rows.size - n = k + 1 := by omega
      have hsecond : rows.size - 1 = n + k := by omega
      simp only [toList_shifted]
      rw [hsize, hboth, hfirst, hsecond, List.take_append, List.length_replicate,
        List.take_replicate, List.take_take, Nat.add_sub_cancel_left,
        Nat.min_eq_right (Nat.le_add_right n k), Nat.min_eq_left (Nat.le_succ k),
        List.replicate_succ]
      rfl

/-- A grid cut into the rows above a range, those of the range, and those below. -/
structure Split (s : Screen) (top bottom : Nat) (above range below : Array Row) : Prop where
  grid : s.grid = above ++ range ++ below
  top_eq : above.size = top
  last_eq : s.lastRow bottom + 1 = top + range.size
  size_pos : 0 < range.size

/-- A range on the grid cuts it. -/
theorem split_extract (hgrid : 0 < s.grid.size) (htop : top ≤ s.lastRow bottom) :
    s.Split top bottom (s.grid.extract 0 top) (s.grid.extract top (s.lastRow bottom + 1))
      (s.grid.extract (s.lastRow bottom + 1) s.grid.size) := by
  have hlast : s.lastRow bottom < s.grid.size := by
    rw [lastRow]
    omega
  refine ⟨?_, ?_, ?_, ?_⟩
  · rw [Array.extract_append_extract, Nat.zero_min, Nat.max_eq_right (by omega),
      Array.extract_append_extract, Nat.zero_min]
    exact (Array.extract_eq_self_of_le (Nat.le_max_right _ _)).symm
  all_goals
    rw [Array.size_extract]
    omega

/-- A range of which no row is on the grid is left alone. -/
theorem shiftRows_of_outside (hout : s.grid.size = 0 ∨ s.lastRow bottom < top) (count : Nat)
    (dir : Direction) (blank : Cell) : s.shiftRows top bottom count dir blank = s := by
  rw [shiftRows]
  dsimp only
  rw [if_pos (hout.imp_left Array.isEmpty_iff_size_eq_zero.mpr)]

namespace Split

variable (h : s.Split top bottom above range below)

include h

/-- The grid behind a shift, which is cut in the same way. -/
theorem shift {rows : Array Row} (hrows : rows.size = range.size) {u : Screen}
    (hu : u.grid = above ++ rows ++ below) : u.Split top bottom above rows below where
  grid := hu
  top_eq := h.top_eq
  last_eq := by
    have hsize : u.grid.size = s.grid.size := by
      rw [hu, h.grid, Array.size_append, Array.size_append, Array.size_append, Array.size_append,
        hrows]
    rw [hrows, ← h.last_eq, lastRow, lastRow, hsize]
  size_pos := hrows ▸ h.size_pos

/-- What shifting does: it moves the rows of the range. -/
theorem shiftRows_eq (count : Nat) (dir : Direction) (blank : Cell) :
    s.shiftRows top bottom count dir blank = { s with
      grid := above ++ shifted dir (min count range.size) (Row.filled s.cols blank) range
        ++ below } := by
  have hpos := h.size_pos
  have hlast := h.last_eq
  have htop := h.top_eq
  have hinside : ¬(s.grid.isEmpty = true ∨ s.lastRow bottom < top) := by
    rw [Array.isEmpty_iff_size_eq_zero, h.grid, Array.size_append, Array.size_append]
    omega
  have habove : s.grid.take top = above := by
    rw [h.grid, ← htop]
    simp
  have hrange : s.grid.extract top (s.lastRow bottom + 1) = range := by
    rw [hlast, h.grid, ← htop]
    simp
  have hbelow : s.grid.drop (s.lastRow bottom + 1) = below := by
    rw [hlast, h.grid, ← htop]
    simp
  have hheight : s.lastRow bottom + 1 - top = range.size := by omega
  rw [shiftRows]
  dsimp only
  rw [if_neg hinside, habove, hrange, hbelow, hheight]

theorem shiftRows_min (count : Nat) (dir : Direction) (blank : Cell) :
    s.shiftRows top bottom (min count range.size) dir blank
      = s.shiftRows top bottom count dir blank := by
  rw [h.shiftRows_eq, h.shiftRows_eq, Nat.min_assoc, Nat.min_self]

/-- The grid behind a shift by some rows of the range. -/
theorem shiftRows_split {n : Nat} (hn : n ≤ range.size) (dir : Direction) (blank : Cell) :
    (s.shiftRows top bottom n dir blank).Split top bottom above
      (shifted dir n (Row.filled s.cols blank) range) below := by
  refine h.shift (size_shifted dir _ hn) ?_
  rw [h.shiftRows_eq, Nat.min_eq_left hn]

theorem shiftRows_succ {n : Nat} (hn : n < range.size) (dir : Direction) (blank : Cell) :
    s.shiftRows top bottom (n + 1) dir blank
      = (s.shiftRows top bottom n dir blank).shiftRows top bottom 1 dir blank := by
  have hone : min 1 range.size = 1 := Nat.min_eq_left h.size_pos
  rw [(h.shiftRows_split (Nat.le_of_lt hn) dir blank).shiftRows_eq,
    size_shifted dir _ (Nat.le_of_lt hn), hone, h.shiftRows_eq, h.shiftRows_eq,
    Nat.min_eq_left hn, Nat.min_eq_left (Nat.le_of_lt hn), shifted_succ dir _ hn]

theorem shiftRows_eq_repeat (count : Nat) (dir : Direction) (blank : Cell) :
    s.shiftRows top bottom count dir blank
      = Nat.repeat (·.shiftRows top bottom 1 dir blank) (min count range.size) s := by
  rw [← h.shiftRows_min]
  exact eq_repeat_of_succ (f := fun n (u : Screen) => u.shiftRows top bottom n dir blank)
    (shiftRows_zero s top bottom dir blank) (fun n hn => h.shiftRows_succ hn dir blank)
    (Nat.min_le_right _ _)

end Split

/-! ## What the history keeps -/

/-- Remembering does not look at the grid. -/
theorem foldl_remember_setGrid (s : Screen) (g : Array Row) (rows : List Row) :
    rows.foldl remember { s with grid := g } = { rows.foldl remember s with grid := g } := by
  have hone : ∀ (u : Screen) r,
      remember { u with grid := g } r = { u.remember r with grid := g } := by
    intro u r
    unfold remember
    dsimp only
    split <;> rfl
  induction rows generalizing s with
  | nil => rfl
  | cons r rows ih => rw [List.foldl_cons, hone, ih, List.foldl_cons]

/-- Of what was in the history and the rows that are added, the newest are kept. -/
theorem foldl_remember_eq (hle : s.history.size ≤ s.historyLimit) (rows : List Row) :
    ∃ history viewOffset, rows.foldl remember s = { s with history, viewOffset } ∧
      history.toList = (s.history.toList ++ rows).rtake s.historyLimit := by
  induction rows generalizing s with
  | nil =>
      refine ⟨s.history, s.viewOffset, rfl, ?_⟩
      rw [List.append_nil, List.rtake, History.length_toList, Nat.sub_eq_zero_of_le hle,
        List.drop_zero]
  | cons r rows ih =>
      obtain ⟨history, viewOffset, hone, hkept⟩ :=
        remember_eq (by rw [History.length_toList]; exact hle) r
      have hkept : history.toList = (s.history.toList ++ [r]).rtake s.historyLimit := by
        rw [hkept, List.rtake, List.length_append]
        rfl
      have hle' : history.size ≤ s.historyLimit := by
        rw [← History.length_toList, hkept, List.rtake, List.length_drop]
        omega
      obtain ⟨history', viewOffset', hrest, hkept'⟩ :=
        ih (s := { s with history, viewOffset }) hle'
      refine ⟨history', viewOffset', ?_, ?_⟩
      · rw [List.foldl_cons, hone, hrest]
      · rw [hkept', hkept, rtake_rtake_append, List.append_assoc]
        rfl

/-! ## Scrolling a range -/

theorem scroll_of_outside (hout : s.grid.size = 0 ∨ s.lastRow bottom < top) (count : Nat)
    (dir : Direction) (blank : Cell) : s.scroll top bottom count dir blank = s := by
  rw [scroll, shiftRows_of_outside hout]
  split
  · -- no row lies above the first one, so the grid is empty
    rename_i htop
    have hempty : s.grid.size = 0 := hout.resolve_right (by omega)
    rw [Array.eq_empty_of_size_eq_zero hempty]
    simp
  · rfl

theorem scroll_zero (s : Screen) (top bottom : Nat) (dir : Direction) (blank : Cell) :
    s.scroll top bottom 0 dir blank = s := by
  rw [scroll, shiftRows_zero]
  split
  · simp
  · rfl

theorem scroll_eq_shiftRows {dir : Direction} (hdir : ¬(dir = .up ∧ top = 0)) (count : Nat)
    (blank : Cell) :
    s.scroll top bottom count dir blank = s.shiftRows top bottom count dir blank := if_neg hdir

namespace Split

/-- What scrolling up at the top of the grid does: the rows that leave it are remembered. -/
theorem scroll_eq (h : s.Split 0 bottom above range below) (count : Nat) (blank : Cell) :
    s.scroll 0 bottom count .up blank
      = { (range.toList.take (min count range.size)).foldl remember s with
          grid := (s.shiftRows 0 bottom count .up blank).grid } := by
  have hlast : s.lastRow bottom + 1 = range.size := h.last_eq.trans (Nat.zero_add _)
  have hleaving : (s.grid.take (min count (s.lastRow bottom + 1))).toList
      = range.toList.take (min count range.size) := by
    have hwithin : min count range.size - range.size = 0 :=
      Nat.sub_eq_zero_of_le (Nat.min_le_right _ _)
    rw [hlast, h.grid, Array.eq_empty_of_size_eq_zero h.top_eq]
    simp [hwithin]
  rw [scroll, if_pos ⟨rfl, rfl⟩, ← Array.foldl_toList, hleaving, h.shiftRows_eq,
    foldl_remember_setGrid]

theorem scroll_min (h : s.Split top bottom above range below) (count : Nat) (dir : Direction)
    (blank : Cell) :
    s.scroll top bottom (min count range.size) dir blank = s.scroll top bottom count dir blank := by
  by_cases hdir : dir = .up ∧ top = 0
  · obtain ⟨rfl, rfl⟩ := hdir
    rw [h.scroll_eq, h.scroll_eq, h.shiftRows_min, Nat.min_assoc, Nat.min_self]
  · rw [scroll_eq_shiftRows hdir, scroll_eq_shiftRows hdir, h.shiftRows_min]

/-- The row that leaves next is the first one of the range as it has been shifted. -/
theorem scroll_succ (h : s.Split top bottom above range below)
    (hle : s.history.size ≤ s.historyLimit) {n : Nat} (hn : n < range.size) (dir : Direction)
    (blank : Cell) :
    s.scroll top bottom (n + 1) dir blank
      = (s.scroll top bottom n dir blank).scroll top bottom 1 dir blank := by
  by_cases hdir : dir = .up ∧ top = 0
  · obtain ⟨rfl, rfl⟩ := hdir
    have hle_range := Nat.le_of_lt hn
    have hn' : n < range.toList.length := hn
    obtain ⟨history, viewOffset, hleft, -⟩ := foldl_remember_eq hle (range.toList.take n)
    -- behind the first `n` rows the grid is the shifted one, with another history
    have hfirst : s.scroll 0 bottom n .up blank
        = { s.shiftRows 0 bottom n .up blank with history, viewOffset } := by
      rw [h.scroll_eq, Nat.min_eq_left hle_range, hleft, h.shiftRows_eq]
    have hsplit : (s.scroll 0 bottom n .up blank).Split 0 bottom above
        (shifted .up n (Row.filled s.cols blank) range) below := by
      rw [hfirst]
      exact { h.shiftRows_split hle_range .up blank with }
    have hnext : (shifted .up n (Row.filled s.cols blank) range).toList.take 1
        = [range.toList[n]] := by
      rw [toList_shifted]
      dsimp only
      rw [List.drop_eq_getElem_cons hn']
      rfl
    have hgrid : ((s.scroll 0 bottom n .up blank).shiftRows 0 bottom 1 .up blank).grid
        = (s.shiftRows 0 bottom (n + 1) .up blank).grid := by
      rw [h.shiftRows_succ hn, hsplit.shiftRows_eq,
        (h.shiftRows_split hle_range .up blank).shiftRows_eq, hfirst, h.shiftRows_eq]
    rw [hsplit.scroll_eq, size_shifted .up _ hle_range, Nat.min_eq_left h.size_pos, hnext, hgrid,
      h.scroll_eq, Nat.min_eq_left hn, List.take_succ_eq_append_getElem hn', List.foldl_append,
      hleft, h.scroll_eq, Nat.min_eq_left hle_range, hleft, foldl_remember_setGrid]
  · rw [scroll_eq_shiftRows hdir, scroll_eq_shiftRows hdir, scroll_eq_shiftRows hdir,
      h.shiftRows_succ hn]

theorem scroll_eq_repeat (h : s.Split top bottom above range below)
    (hle : s.history.size ≤ s.historyLimit) (count : Nat) (dir : Direction) (blank : Cell) :
    s.scroll top bottom count dir blank
      = Nat.repeat (·.scroll top bottom 1 dir blank) (min count range.size) s := by
  rw [← h.scroll_min]
  exact eq_repeat_of_succ (f := fun n (u : Screen) => u.scroll top bottom n dir blank)
    (scroll_zero s top bottom dir blank) (fun n hn => h.scroll_succ hle hn dir blank)
    (Nat.min_le_right _ _)

end Split

/-! ## The rows of a range -/

/-- The rows of a range, first and last included. -/
def rowsOf (s : Screen) (first last : Nat) : List Row := (s.grid.extract first (last + 1)).toList

namespace Split

variable (h : s.Split top bottom above range below)

include h

theorem rowsOf_eq : s.rowsOf top (s.lastRow bottom) = range.toList := by
  rw [rowsOf, h.last_eq, h.grid, ← h.top_eq]
  simp

/-- A shift moves the rows of the range. -/
theorem rowsOf_shiftRows (count : Nat) (dir : Direction) (blank : Cell) :
    (s.shiftRows top bottom count dir blank).rowsOf top (s.lastRow bottom)
      = (shifted dir (min count range.size) (Row.filled s.cols blank) range).toList := by
  have hk : min count range.size ≤ range.size := Nat.min_le_right _ _
  have hmoved := h.shiftRows_split hk dir blank
  have hlast := hmoved.last_eq
  rw [size_shifted dir _ hk, ← h.last_eq] at hlast
  rw [← Nat.succ.inj hlast, ← h.shiftRows_min]
  exact hmoved.rowsOf_eq

theorem size_shiftRows (count : Nat) (dir : Direction) (blank : Cell) :
    (s.shiftRows top bottom count dir blank).grid.size = s.grid.size := by
  rw [h.shiftRows_eq, h.grid, Array.size_append, Array.size_append,
    size_shifted dir _ (Nat.min_le_right _ _), Array.size_append, Array.size_append]

/-- A shift leaves the other rows alone. -/
theorem getElem?_shiftRows (count : Nat) (dir : Direction) (blank : Cell) {i : Nat}
    (hi : i < top ∨ s.lastRow bottom < i) :
    (s.shiftRows top bottom count dir blank).grid[i]? = s.grid[i]? := by
  have htop := h.top_eq
  have hlast := h.last_eq
  have hsize : (shifted dir (min count range.size) (Row.filled s.cols blank) range).size
      = range.size := size_shifted dir _ (Nat.min_le_right _ _)
  rw [h.shiftRows_eq, h.grid]
  dsimp only
  rcases hi with hi | hi
  · rw [Array.append_assoc, Array.append_assoc, Array.getElem?_append_left (by omega),
      Array.getElem?_append_left (by omega)]
  · rw [Array.getElem?_append_right (by rw [Array.size_append]; omega),
      Array.getElem?_append_right (by rw [Array.size_append]; omega), Array.size_append,
      Array.size_append, hsize]

/-- Scrolling is shifting, but for the history of a range that begins at the top of the grid. -/
theorem exists_scroll_eq (hle : s.history.size ≤ s.historyLimit) (count : Nat) (dir : Direction)
    (blank : Cell) :
    ∃ history viewOffset,
      s.scroll top bottom count dir blank
        = { s.shiftRows top bottom count dir blank with history, viewOffset } ∧
      (dir = .up ∧ top = 0 → history.toList
        = (s.history.toList ++ range.toList.take (min count range.size)).rtake s.historyLimit) ∧
      (¬(dir = .up ∧ top = 0) → history = s.history ∧ viewOffset = s.viewOffset) := by
  by_cases hdir : dir = .up ∧ top = 0
  · obtain ⟨rfl, rfl⟩ := hdir
    obtain ⟨history, viewOffset, hleft, hkept⟩ :=
      foldl_remember_eq hle (range.toList.take (min count range.size))
    refine ⟨history, viewOffset, ?_, fun _ => hkept, fun hdir => absurd ⟨rfl, rfl⟩ hdir⟩
    rw [h.scroll_eq, hleft, h.shiftRows_eq]
  · refine ⟨s.history, s.viewOffset, ?_, fun hup => absurd hup hdir, fun _ => ⟨rfl, rfl⟩⟩
    rw [scroll_eq_shiftRows hdir, h.shiftRows_eq]

end Split

/-- Scrolling a range of which no row is on the grid moves nothing into the history either. -/
theorem exists_scroll_of_outside (hout : s.grid.size = 0 ∨ s.lastRow bottom < top)
    (hle : s.history.size ≤ s.historyLimit) (count k : Nat) (dir : Direction) (blank : Cell) :
    ∃ history viewOffset,
      s.scroll top bottom count dir blank
        = { s.shiftRows top bottom count dir blank with history, viewOffset } ∧
      (dir = .up ∧ top = 0 → history.toList
        = (s.history.toList ++ (s.rowsOf top (s.lastRow bottom)).take k).rtake s.historyLimit) ∧
      (¬(dir = .up ∧ top = 0) → history = s.history ∧ viewOffset = s.viewOffset) := by
  refine ⟨s.history, s.viewOffset, ?_, ?_, fun _ => ⟨rfl, rfl⟩⟩
  · rw [shiftRows_of_outside hout, scroll_of_outside hout]
  · rintro ⟨-, rfl⟩
    -- no row lies above the first one, so the grid is empty
    have hempty : s.grid.size = 0 := hout.resolve_right (Nat.not_lt_zero _)
    have hnone : s.rowsOf 0 (s.lastRow bottom) = [] := by
      rw [rowsOf, Array.eq_empty_of_size_eq_zero hempty]
      simp
    rw [hnone, List.take_nil, List.append_nil, List.rtake, History.length_toList,
      Nat.sub_eq_zero_of_le hle, List.drop_zero]

/-- A shift changes nothing but the grid. -/
theorem shiftRows_frame (s : Screen) (top bottom count : Nat) (dir : Direction) (blank : Cell) :
    s.shiftRows top bottom count dir blank
      = { s with grid := (s.shiftRows top bottom count dir blank).grid } := by
  rw [shiftRows]
  dsimp only
  split <;> rfl

/-- **Scrolling conserves rows.**  The last row of the range is cut to the grid, and the number of
    rows `k` by which it is scrolled to the height of the range.  Where there is no range or nothing
    to scroll, nothing changes.  Otherwise the rows outside the range stay; upwards the range keeps
    all but its first `k` rows, followed by blank ones, and downwards it begins with blank rows that
    all but its last `k` rows follow.  Scrolling a range up that begins at the top of the grid adds
    its first `k` rows to the history, of which the newest rows are kept; in every other direction
    or range, and wherever rows are only shifted, history and view stay.  And all of the screen is
    what `k` scrolls by one row make of it. -/
theorem scroll_conserves (hgrid : s.grid.size = s.rows) (hhistory : s.history.size ≤ s.historyLimit)
    (top bottom count : Nat) (dir : Direction) (blank : Cell) :
    let last := min bottom (s.rows - 1)
    let height := last + 1 - top
    let k := min count height
    let range := s.rowsOf top last
    let blanks := List.replicate k (Row.filled s.cols blank)
    let shifted := s.shiftRows top bottom count dir blank
    let scrolled := s.scroll top bottom count dir blank
    (last < top ∨ count = 0 ∨ s.rows = 0 → shifted = s ∧ scrolled = s) ∧
    (top ≤ last → 0 < s.rows →
      range.length = height ∧ shifted.grid.size = s.rows ∧
      (∀ i, i < top ∨ last < i → shifted.grid[i]? = s.grid[i]?) ∧
      shifted.rowsOf top last = match dir with
        | .up => range.drop k ++ blanks
        | .down => blanks ++ range.take (height - k)) ∧
    shifted = { s with grid := shifted.grid } ∧
    (∃ history viewOffset, scrolled = { shifted with history, viewOffset } ∧
      (dir = .up ∧ top = 0 →
        history.toList = (s.history.toList ++ range.take k).rtake s.historyLimit) ∧
      (¬(dir = .up ∧ top = 0) → history = s.history ∧ viewOffset = s.viewOffset)) ∧
    shifted = Nat.repeat (·.shiftRows top bottom 1 dir blank) k s ∧
    scrolled = Nat.repeat (·.scroll top bottom 1 dir blank) k s := by
  have hlast : min bottom (s.rows - 1) = s.lastRow bottom := by rw [lastRow, hgrid]
  rw [hlast]
  intro last height k range blanks shifted scrolled
  have hframe : shifted = { s with grid := shifted.grid } := shiftRows_frame ..
  by_cases hin : 0 < s.grid.size ∧ top ≤ last
  · have h := split_extract hin.1 hin.2
    generalize s.grid.extract 0 top = above, s.grid.extract top (s.lastRow bottom + 1) = rows,
      s.grid.extract (s.lastRow bottom + 1) s.grid.size = below at h
    have hheight : height = rows.size := by
      have hlast := h.last_eq
      omega
    have hk : k = min count rows.size := congrArg (min count) hheight
    have hrange : range = rows.toList := h.rowsOf_eq
    refine ⟨?_, fun _ _ => ⟨?_, ?_, ?_, ?_⟩, hframe, ?_, ?_, ?_⟩
    · rintro (hout | rfl | hempty)
      · omega
      · exact ⟨shiftRows_zero .., scroll_zero ..⟩
      · omega
    · rw [hrange, hheight, Array.length_toList]
    · exact (h.size_shiftRows count dir blank).trans hgrid
    · exact fun i hi => h.getElem?_shiftRows count dir blank hi
    · rw [hrange, hheight]
      show shifted.rowsOf top last = match dir with
        | .up => rows.toList.drop k ++ List.replicate k _
        | .down => List.replicate k _ ++ rows.toList.take (rows.size - k)
      rw [hk]
      exact (h.rowsOf_shiftRows count dir blank).trans (toList_shifted ..)
    · rw [hrange, hk]
      exact h.exists_scroll_eq hhistory count dir blank
    · rw [hk]
      exact h.shiftRows_eq_repeat count dir blank
    · rw [hk]
      exact h.scroll_eq_repeat hhistory count dir blank
  · have hout : s.grid.size = 0 ∨ last < top := by omega
    have hshifted : ∀ n, s.shiftRows top bottom n dir blank = s := fun n =>
      shiftRows_of_outside hout n dir blank
    have hscrolled : ∀ n, s.scroll top bottom n dir blank = s := fun n =>
      scroll_of_outside hout n dir blank
    refine ⟨fun _ => ⟨hshifted count, hscrolled count⟩, fun htop hrows => ?_, hframe,
      exists_scroll_of_outside hout hhistory count k dir blank, ?_, ?_⟩
    · exact absurd ⟨hgrid ▸ hrows, htop⟩ hin
    · exact (hshifted count).trans (repeat_of_fixed (hshifted 1) k).symm
    · exact (hscrolled count).trans (repeat_of_fixed (hscrolled 1) k).symm

/-- Three rows leave a grid by a scroll that is meant for nine, into a history with room for one
    row more: the newest two are kept. -/
theorem scroll_conserves_evicting :
    let row : Char → Row := fun c => Row.filled 1 { base := c }
    let s : Screen :=
      { cols := 1, rows := 3, grid := #[row 'b', row 'c', row 'd']
        history := History.empty.push (row 'a'), historyLimit := 2, region := ⟨1, 1⟩
        viewOffset := 1 }
    (s.grid.size = s.rows ∧ s.history.size ≤ s.historyLimit) ∧
    (s.scroll 0 7 9 .up {}).history.toList = [row 'c', row 'd'] ∧
    s.scroll 0 7 9 .up {} = Nat.repeat (·.scroll 0 7 1 .up {}) 3 s := by
  intro row s
  have hgrid : s.grid.size = s.rows := by decide
  have hhistory : s.history.size ≤ s.historyLimit := by decide
  obtain ⟨-, -, -, ⟨history, viewOffset, hscrolled, hkept, -⟩, -, hrepeat⟩ :=
    scroll_conserves hgrid hhistory 0 7 9 .up {}
  refine ⟨⟨hgrid, hhistory⟩, ?_, hrepeat⟩
  rw [hscrolled]
  exact (hkept ⟨rfl, rfl⟩).trans (by decide)

end Screen

end VideoTerminal
