import VideoTerminal.Proofs.Reachable

/-!
# Tabulation

The cursor is moved from stop to stop, one at a time, by searches that each look for the next stop
and give up at the margin.  What comes of them is said without a search: the stops ahead are listed,
the nearest first, and `n` steps lead to the `n`th one of the list, or to the margin if the list has
none.

One step does two things to the list: it leads to the head, and what it leaves ahead is the tail.
This is `StepsTo`, which follows the search of each direction column by column.  A walk of any
number of steps is then the same for both.
-/

namespace VideoTerminal

/-! ## Walks -/

/-- From one column to the next: the nearest of those ahead, or the edge if none is, with the others
still ahead. -/
structure StepsTo (ahead : Nat → List Nat) (edge col next : Nat) : Prop where
  nearest : next = (ahead col).head?.getD edge
  others : ahead next = (ahead col).tail

namespace StepsTo

variable {ahead : Nat → List Nat} {edge col next : Nat}

theorem of_cons (h : ahead col = next :: ahead next) : StepsTo ahead edge col next where
  nearest := by rw [h, List.head?_cons, Option.getD_some]
  others := by rw [h, List.tail_cons]

/-- At the end of the way a step leads to the edge. -/
theorem of_nil (h : ahead col = []) (hedge : ahead edge = []) : StepsTo ahead edge col edge where
  nearest := by rw [h, List.head?_nil, Option.getD_none]
  others := by rw [h, hedge, List.tail_nil]

/-- A column that has the same ahead may be passed. -/
theorem pass {mid : Nat} (h : StepsTo ahead edge mid next) (hpass : ahead col = ahead mid) :
    StepsTo ahead edge col next := ⟨hpass ▸ h.nearest, hpass ▸ h.others⟩

variable {f : Nat → Nat} (hf : ∀ col, StepsTo ahead edge col (f col))

include hf

theorem ahead_repeat (n col : Nat) : ahead (Nat.repeat f n col) = (ahead col).drop n := by
  induction n with
  | zero => rfl
  | succ n ih =>
      show ahead (f (Nat.repeat f n col)) = _
      rw [(hf _).others, ih, List.tail_drop]

/-- A walk leads as far as its number of steps, or to the edge. -/
theorem repeat_eq {n : Nat} (hn : 1 ≤ n) (col : Nat) :
    Nat.repeat f n col = (ahead col)[n - 1]?.getD edge := by
  obtain ⟨k, rfl⟩ : ∃ k, n = k + 1 := Nat.exists_eq_add_of_le' hn
  show f (Nat.repeat f k col) = _
  rw [(hf _).nearest, ahead_repeat hf, List.head?_drop, Nat.add_sub_cancel]

end StepsTo

/-! ## Stops -/

namespace Terminal

/-- Whether a column has a stop.  There are none beyond the last column. -/
def hasStop (t : Terminal) (col : Nat) : Bool := t.tabStops.getD col false

/-- The columns with a stop behind a column, the nearest first. -/
def stopsBehind (t : Terminal) (col : Nat) : List Nat :=
  (List.range' (col + 1) (t.cols - (col + 1))).filter t.hasStop

/-- The columns with a stop in front of a column, the nearest first. -/
def stopsBefore (t : Terminal) (col : Nat) : List Nat :=
  ((List.range col).filter t.hasStop).reverse

variable {t : Terminal} {limit col c n : Nat}

theorem hasStop_eq (t : Terminal) (col : Nat) : t.hasStop col = t.tabStops[col]?.getD false :=
  Array.getD_eq_getD_getElem? ..

theorem lt_of_hasStop (h : t.hasStop col = true) : col < t.tabStops.size := by
  refine Decidable.of_not_not fun hout => ?_
  rw [hasStop_eq, Array.getElem?_eq_none (Nat.le_of_not_lt hout)] at h
  exact Bool.false_ne_true h

theorem pairwise_stopsBehind (t : Terminal) (col : Nat) :
    (t.stopsBehind col).Pairwise (· < ·) := List.Pairwise.filter _ List.pairwise_lt_range'

theorem pairwise_stopsBefore (t : Terminal) (col : Nat) :
    (t.stopsBefore col).Pairwise (· > ·) :=
  List.pairwise_reverse.mpr (List.pairwise_lt_range.filter _)

theorem mem_stopsBehind (hsize : t.tabStops.size = t.cols) :
    c ∈ t.stopsBehind col ↔ col < c ∧ t.hasStop c = true := by
  rw [stopsBehind, List.mem_filter, List.mem_range'_1]
  refine and_congr_left fun hstop => ?_
  have hinside := lt_of_hasStop hstop
  omega

theorem mem_stopsBefore : c ∈ t.stopsBefore col ↔ c < col ∧ t.hasStop c = true := by
  rw [stopsBefore, List.mem_reverse, List.mem_filter, List.mem_range]

/-! ### Setting and clearing -/

theorem hasStop_setTabStop (hcol : t.cursor.col < t.tabStops.size) :
    t.setTabStop.hasStop c = true ↔ c = t.cursor.col ∨ t.hasStop c = true := by
  rw [hasStop_eq, hasStop_eq, setTabStop, Array.getElem?_setIfInBounds]
  by_cases hc : t.cursor.col = c
  · subst hc
    simp [hcol]
  · simp [hc, Ne.symm hc]

theorem hasStop_clearTabStop_zero :
    (t.clearTabStop 0).hasStop c = true ↔ c ≠ t.cursor.col ∧ t.hasStop c = true := by
  rw [hasStop_eq, hasStop_eq, clearTabStop, Array.getElem?_setIfInBounds]
  by_cases hc : t.cursor.col = c
  · subst hc
    by_cases hcol : t.cursor.col < t.tabStops.size <;> simp [hcol]
  · simp [hc, Ne.symm hc]

theorem hasStop_clearTabStop_three : (t.clearTabStop 3).hasStop c = false := by
  rw [hasStop_eq, clearTabStop, Array.getElem?_map]
  cases t.tabStops[c]? <;> rfl

/-! ### Forward -/

theorem stopsBehind_eq_nil (h : t.cols ≤ col + 1) : t.stopsBehind col = [] := by
  rw [stopsBehind, Nat.sub_eq_zero_of_le h, List.range'_zero, List.filter_nil]

theorem stopsBehind_of_lt (t : Terminal) {col : Nat} (h : col + 1 < t.cols) :
    t.stopsBehind col
      = if t.hasStop (col + 1) then (col + 1) :: t.stopsBehind (col + 1)
        else t.stopsBehind (col + 1) := by
  rw [stopsBehind, show t.cols - (col + 1) = t.cols - (col + 1 + 1) + 1 by omega,
    List.range'_succ, List.filter_cons]
  rfl

/-- A search over all columns behind one but the last. -/
theorem stepsTo_firstStop (hcols : col + n + 2 = t.cols) :
    StepsTo t.stopsBehind (t.cols - 1) col (firstStop t.tabStops n (col + 1)) := by
  induction n generalizing col with
  | zero =>
      -- only the last column is left, where the search ends whether or not it has a stop
      have hlast : t.cols - 1 = col + 1 := by omega
      have hnone : t.stopsBehind (col + 1) = [] := stopsBehind_eq_nil (by omega)
      have hbehind : t.stopsBehind col = _ := t.stopsBehind_of_lt (by omega)
      rw [firstStop, hlast]
      cases hstop : t.hasStop (col + 1) with
      | true => exact .of_cons (by rw [hbehind, if_pos hstop])
      | false => exact .of_nil (by rw [hbehind, hstop, if_neg Bool.false_ne_true, hnone]) hnone
  | succ n ih =>
      have hbehind : t.stopsBehind col = _ := t.stopsBehind_of_lt (by omega)
      rw [firstStop]
      show StepsTo _ _ _ (if t.hasStop (col + 1) then _ else _)
      split
      · next hstop => exact .of_cons (by rw [hbehind, if_pos hstop])
      · next hstop => exact (ih (by omega)).pass (by rw [hbehind, if_neg hstop])

theorem stepsTo_nextStop (t : Terminal) (col : Nat) :
    StepsTo t.stopsBehind (t.cols - 1) col (nextStop t.tabStops (t.cols - 1) col) := by
  rw [nextStop]
  split
  · exact .of_nil (stopsBehind_eq_nil (by omega)) (stopsBehind_eq_nil (by omega))
  · exact stepsTo_firstStop (by omega)

/-- **Forward to the `n`th stop.** -/
theorem forwardTab_eq (t : Terminal) (hn : 1 ≤ n) :
    t.forwardTab n
      = t.moveTo t.cursor.row ((t.stopsBehind t.cursor.col)[n - 1]?.getD (t.cols - 1)) := by
  rw [forwardTab, StepsTo.repeat_eq t.stepsTo_nextStop hn]

/-! ### Backward -/

theorem stopsBefore_succ (t : Terminal) (col : Nat) :
    t.stopsBefore (col + 1)
      = if t.hasStop col then col :: t.stopsBefore col else t.stopsBefore col := by
  rw [stopsBefore, List.range_succ, List.filter_append, List.reverse_append, List.filter_cons]
  split <;> rfl

theorem stepsTo_previousStop (t : Terminal) (col : Nat) :
    StepsTo t.stopsBefore 0 col (previousStop t.tabStops col) := by
  induction col with
  | zero => exact .of_nil rfl rfl
  | succ col ih =>
      have hbefore := t.stopsBefore_succ col
      rw [previousStop]
      show StepsTo _ _ _ (if t.hasStop col then _ else _)
      split
      · next hstop => exact .of_cons (by rw [hbefore, if_pos hstop])
      · next hstop => exact ih.pass (by rw [hbefore, if_neg hstop])

/-- **Backward to the `n`th stop.** -/
theorem backwardTab_eq (t : Terminal) (hn : 1 ≤ n) :
    t.backwardTab n
      = t.moveTo t.cursor.row ((t.stopsBefore t.cursor.col)[n - 1]?.getD 0) := by
  rw [backwardTab, StepsTo.repeat_eq t.stepsTo_previousStop hn]

end Terminal

namespace Emulator

/-- **Tabulation finds the right stop.**  On an emulator that can be reached, a tabulation by `n`
    moves the cursor to the `n`th stop behind it or before it, in the order of their distance, or to
    the last or the first column if there are fewer; the row stays, a wrap is not due any more, and
    nothing else changes.  The lists of stops have all of them, in order.  Setting a stop adds the
    column of the cursor, and clearing takes it or all columns away.  These are the tabulations that
    a control and two control functions call for, none of them by zero. -/
theorem tabulation_exact {e : Emulator} (he : e.Reachable) {n : Nat} (hn : 1 ≤ n) :
    let t := e.terminal
    let col := t.cursor.col
    t.forwardTab n = { t with cursor := { t.cursor with
      col := (t.stopsBehind col)[n - 1]?.getD (t.cols - 1), pendingWrap := false } } ∧
    t.backwardTab n = { t with cursor := { t.cursor with
      col := (t.stopsBefore col)[n - 1]?.getD 0, pendingWrap := false } } ∧
    ((t.stopsBehind col).Pairwise (· < ·) ∧
      ∀ c, c ∈ t.stopsBehind col ↔ col < c ∧ t.hasStop c = true) ∧
    ((t.stopsBefore col).Pairwise (· > ·) ∧
      ∀ c, c ∈ t.stopsBefore col ↔ c < col ∧ t.hasStop c = true) ∧
    (∀ c, (t.setTabStop.hasStop c = true ↔ c = col ∨ t.hasStop c = true) ∧
      ((t.clearTabStop 0).hasStop c = true ↔ c ≠ col ∧ t.hasStop c = true) ∧
      (t.clearTabStop 3).hasStop c = false) ∧
    (t.apply (.control 0x09)).1 = t.forwardTab 1 ∧
    ∀ p : Params, 1 ≤ p.positiveD 0 1 ∧
      (t.apply (.csi none p [] 0x49)).1 = t.forwardTab (p.positiveD 0 1) ∧
      (t.apply (.csi none p [] 0x5A)).1 = t.backwardTab (p.positiveD 0 1) := by
  intro t col
  obtain ⟨limit, hwell⟩ := he.wellFormed
  have hcol : t.cursor.col < t.tabStops.size := hwell.tabStops ▸ hwell.cursor.2
  refine ⟨t.forwardTab_eq hn, t.backwardTab_eq hn, ⟨t.pairwise_stopsBehind col, ?_⟩,
    ⟨t.pairwise_stopsBefore col, fun c => Terminal.mem_stopsBefore⟩, ?_, rfl, ?_⟩
  · exact fun c => Terminal.mem_stopsBehind hwell.tabStops
  · exact fun c => ⟨Terminal.hasStop_setTabStop hcol, Terminal.hasStop_clearTabStop_zero,
      Terminal.hasStop_clearTabStop_three⟩
  · exact fun p => ⟨p.positiveD_pos 0 Nat.one_pos, rfl, rfl⟩

/-- All stops are cleared and one is set; then the screen becomes wider, which adds the usual ones
    in the new columns.  Two stops forward there is one, and there is none two stops backward. -/
theorem tabulation_exact_widened :
    let calls : List Call := [.write (Utf8.ofString "\x1b[3g\x1b[4G\x1bH"), .resize ⟨40, 1⟩,
      .write (Utf8.ofString "\x1b[11G")]
    let e := run { terminal := .new 20 1 0 .cancelBold } calls
    let t := e.terminal
    (e.Reachable ∧ 1 ≤ 2) ∧
    (List.range 40).filter t.hasStop = [3, 24, 32] ∧ t.cursor.col = 10 ∧
    (t.forwardTab 2).cursor.col = 32 ∧ (t.backwardTab 2).cursor.col = 0 := by
  intro calls e t
  have he : e.Reachable := ⟨⟨20, 1⟩, 0, .cancelBold, _, calls, rfl, rfl⟩
  obtain ⟨hforward, hbackward, -⟩ := tabulation_exact he (n := 2) (by decide)
  refine ⟨⟨he, by decide⟩, by decide +kernel, by decide +kernel, ?_, ?_⟩
  · rw [hforward]
    decide +kernel
  · rw [hbackward]
    decide +kernel

end Emulator

end VideoTerminal
