import VideoTerminal.Row

/-!
# The history

Rows that have left the screen, oldest first.  Only so many are kept.  Rows that no longer count
stay in front of the others for a while and are removed many at a time, so that keeping one row
more takes no longer when the history is full.

The rows that count are the view `toList`.  Adding a row puts it at the end of the view, and
keeping fewer rows drops the oldest from it, whenever the others are removed.
-/

namespace VideoTerminal

/-- Rows that have left the screen. -/
structure History where
  /-- The rows that count, behind those that no longer do. -/
  rows : Array Row
  /-- The number of rows that no longer count. -/
  dropped : Nat
  dropped_le : dropped ≤ rows.size
deriving DecidableEq, Repr

namespace History

/-- No rows. -/
def empty : History := ⟨#[], 0, Nat.le_refl 0⟩

/-- The rows that count, oldest first. -/
def toList (h : History) : List Row := h.rows.toList.drop h.dropped

/-- The number of rows that count. -/
def size (h : History) : Nat := h.rows.size - h.dropped

/-- The row at an index, the oldest being the first. -/
def get? (h : History) (i : Nat) : Option Row := h.rows[h.dropped + i]?

/-- Removes the rows that do not count. -/
def compact (h : History) : History :=
  ⟨h.rows.extract h.dropped h.rows.size, 0, Nat.zero_le _⟩

/-- Keeps only the newest rows, as many as the limit allows. -/
def truncate (h : History) (limit : Nat) : History :=
  let dropped := max h.dropped (h.rows.size - limit)
  let kept : History := ⟨h.rows, dropped, Nat.max_le.2 ⟨h.dropped_le, Nat.sub_le _ _⟩⟩
  if dropped ≤ limit then kept else kept.compact

/-- Adds a row behind the others. -/
def push (h : History) (r : Row) : History :=
  ⟨h.rows.push r, h.dropped, Array.size_push r ▸ Nat.le_succ_of_le h.dropped_le⟩

/-- Changes every row. -/
def map (h : History) (f : Row → Row) : History :=
  ⟨h.rows.map f, h.dropped, by rw [Array.size_map]; exact h.dropped_le⟩

/-! ## The view -/

theorem length_toList (h : History) : h.toList.length = h.size := by
  simp [toList, size]

theorem getElem?_toList (h : History) (i : Nat) : h.toList[i]? = h.get? i := by
  simp [toList, get?]

theorem toList_empty : empty.toList = [] := rfl

theorem toList_compact (h : History) : h.compact.toList = h.toList := by
  simp [toList, compact, List.take_of_length_le]

theorem toList_push (h : History) (r : Row) : (h.push r).toList = h.toList ++ [r] := by
  simp [toList, push, List.drop_append_of_le_length, h.dropped_le]

theorem toList_map (h : History) (f : Row → Row) : (h.map f).toList = h.toList.map f := by
  simp [toList, map]

/-- Of the rows that count, the newest are kept. -/
theorem toList_truncate (h : History) (limit : Nat) :
    (h.truncate limit).toList = h.toList.drop (h.size - limit) := by
  have split : max h.dropped (h.rows.size - limit) = h.dropped + (h.size - limit) := by
    have := h.dropped_le
    simp only [size]
    omega
  have kept : (h.truncate limit).toList =
      h.rows.toList.drop (max h.dropped (h.rows.size - limit)) := by
    simp only [truncate]
    split
    · rfl
    · rw [toList_compact]; rfl
  rw [kept, split, ← List.drop_drop, toList]

end History

end VideoTerminal
