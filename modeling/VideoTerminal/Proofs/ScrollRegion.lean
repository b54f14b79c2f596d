import VideoTerminal.Proofs.Printing
import VideoTerminal.Proofs.Scrolling

/-!
# Within the scroll region

A cursor in the scroll region does not leave it by printing, line feeds or indexing: at the bottom
and at the top of the region the rows scroll instead.  And what these operations change are rows of
the region, so a status line above or below it stays.

`Regional` collects what such operations are made of: a change of the cursor's row, a scroll of the
region, a shift of its rows from the cursor on, a motion along the row, and a step down or up that
does not cross the edge of the region.  A property that all of these keep is kept by every operation
below, and by every list of messages that calls for no others.
-/

namespace VideoTerminal

/-- A row is one of a region. -/
def Region.Contains (r : Region) (row : Nat) : Prop := r.top ≤ row ∧ row ≤ r.bottom

instance (r : Region) (row : Nat) : Decidable (r.Contains row) :=
  inferInstanceAs (Decidable (_ ∧ _))

namespace Terminal

/-- A property that is kept as long as only rows of the region change and the cursor does not cross
    its edges. -/
structure Regional (I : Terminal → Prop) : Prop where
  onCursorRow {t : Terminal} {f : Row → Row} : I t → I (t.onCursorRow f)
  scroll {t : Terminal} (n : Nat) (dir : Direction) : I t → I (t.scroll n dir)
  shift {t : Terminal} (n : Nat) (dir : Direction) (blank : Cell) :
    t.region.Contains t.cursor.row → I t →
      I (t.onScreen (·.shiftRows t.cursor.row t.region.bottom n dir blank))
  onCursor {t : Terminal} {f : Cursor → Cursor} :
    (f t.cursor).row = t.cursor.row → I t → I (t.onCursor f)
  down {t : Terminal} :
    t.cursor.row ≠ t.region.bottom → I t → I (t.moveTo (t.cursor.row + 1) t.cursor.col)
  up {t : Terminal} :
    t.cursor.row ≠ t.region.top → I t → I (t.moveTo (t.cursor.row - 1) t.cursor.col)
  pen {t : Terminal} {pen : Rendition} : I t → I { t with pen }
  printed {t : Terminal} {c : Option Char} : I t → I { t with lastPrinted := c }

namespace Regional

variable {I : Terminal → Prop} (hI : Regional I) {t : Terminal}

include hI

/-! ## Motion -/

/-- A motion along the row keeps it. -/
theorem moveToCol (h : I t) (col : Nat) : I (t.moveTo t.cursor.row col) := hI.onCursor rfl h

/-- Giving up a wrap moves nothing. -/
theorem clearPending (h : I t) : I t.clearPending := hI.onCursor rfl h

/-- One column back is a motion along the row. -/
theorem backspace (h : I t) : I t.backspace := by
  rw [Terminal.backspace]
  split
  · exact hI.clearPending h
  · exact hI.moveToCol h _

/-- At the bottom of the region an index is a scroll, elsewhere a step down. -/
theorem index (h : I t) : I t.index := by
  have hclear := hI.clearPending h
  dsimp only [Terminal.index]
  split
  · exact hI.scroll 1 .up hclear
  · rename_i hbottom
    split
    · exact hI.down hbottom hclear
    · exact hclear

/-- At the top of the region a reverse index is a scroll, elsewhere a step up. -/
theorem reverseIndex (h : I t) : I t.reverseIndex := by
  have hclear := hI.clearPending h
  dsimp only [Terminal.reverseIndex]
  split
  · exact hI.scroll 1 .down hclear
  · rename_i htop
    exact hI.up htop hclear

/-- A line feed is an index, and maybe a motion to the first column. -/
theorem linefeed (h : I t) : I t.linefeed := by
  dsimp only [Terminal.linefeed]
  split
  · exact hI.moveToCol (hI.index h) 0
  · exact hI.index h

theorem nextLine (h : I t) : I t.nextLine := hI.index (hI.moveToCol h 0)

/-! ## Erasing, inserting and deleting -/

/-- Columns are erased in the row of the cursor. -/
theorem eraseColumns (h : I t) (start stop : Nat) (selective : Bool) :
    I (t.eraseColumns start stop selective) := hI.onCursorRow h

/-- Which columns, depends on the extent. -/
theorem eraseInLine (h : I t) (extent : Nat) (selective : Bool) :
    I (t.eraseInLine extent selective) := by
  simp only [Terminal.eraseInLine]
  refine hI.clearPending ?_
  split
  · exact hI.eraseColumns h _ _ _
  · exact hI.eraseColumns h _ _ _
  · exact hI.eraseColumns h _ _ _
  · exact h

theorem eraseChars (h : I t) (n : Nat) : I (t.eraseChars n) :=
  hI.clearPending (hI.eraseColumns h _ _ _)

/-- Inserting changes the row of the cursor. -/
theorem insertChars (h : I t) (n : Nat) : I (t.insertChars n) := by
  dsimp only [Terminal.insertChars]
  split
  · exact hI.clearPending (hI.onCursorRow h)
  · exact h

/-- Deleting changes it too. -/
theorem deleteChars (h : I t) (n : Nat) : I (t.deleteChars n) := by
  dsimp only [Terminal.deleteChars]
  split
  · exact hI.clearPending (hI.onCursorRow h)
  · exact h

/-- Lines are shifted if the cursor is in the region, and otherwise nothing happens. -/
theorem shiftFromCursor (h : I t) (n : Nat) (dir : Direction) : I (t.shiftFromCursor n dir) := by
  dsimp only [Terminal.shiftFromCursor]
  split
  · exact h
  · rename_i hout
    have hin : t.region.Contains t.cursor.row := by
      rw [Region.Contains]
      omega
    exact hI.moveToCol (hI.shift n dir t.blank hin h) 0

/-! ## Printing -/

/-- The row that is left is marked as going on, and this is the row of the cursor. -/
theorem wrapLine (h : I t) : I t.wrapLine := by
  have hmarked : I (t.onScreen (·.markWrapped t.cursor.row)) :=
    hI.onCursorRow (f := ({ · with wrapped := true })) h
  have hfirst := hI.moveToCol hmarked 0
  rw [onScreen_cursor] at hfirst
  exact hI.index hfirst

/-- A wrap marks the row and goes to the next by an index. -/
theorem takeWrap (h : I t) : I t.takeWrap := by
  rw [Terminal.takeWrap]
  split
  · exact hI.wrapLine h
  · exact h

/-- A wide character wraps early in the same way. -/
theorem makeRoom (h : I t) (width : Nat) : I (t.makeRoom width) := by
  rw [Terminal.makeRoom]
  split
  · split
    · exact hI.wrapLine h
    · exact hI.onCursor rfl h
  · exact h

/-- A gap is inserted in the row of the cursor. -/
theorem makeGap (h : I t) (width : Nat) : I (t.makeGap width) := by
  rw [Terminal.makeGap]
  split
  · exact hI.insertChars h width
  · exact h

/-- Behind a character the cursor moves along the row. -/
theorem advance (h : I t) (width : Nat) : I (t.advance width) := by
  dsimp only [Terminal.advance]
  refine hI.onCursor ?_ h
  split <;> rfl

/-- A character is written in the row of the cursor, after a wrap perhaps. -/
theorem place (h : I t) (c : Char) (width : Nat) : I (t.place c width) := by
  have hready := hI.makeGap (hI.makeRoom (hI.takeWrap h) width) width
  exact hI.printed (hI.advance (hI.onCursorRow hready) width)

/-- A mark joins a cell of the row of the cursor. -/
theorem addMark (h : I t) (c : Char) : I (t.addMark c) := by
  rw [Terminal.addMark]
  split
  · exact hI.onCursorRow h
  · exact h

/-- A character that is printed is a mark or has a place. -/
theorem print (h : I t) (c : Char) : I (t.print c) := by
  dsimp only [Terminal.print]
  split
  · exact h
  · exact hI.addMark h _
  · split
    · exact h
    · exact hI.place h _ _

/-- Repeating prints several times. -/
theorem repeatLast (h : I t) (n : Nat) : I (t.repeatLast n) := by
  rw [Terminal.repeatLast]
  split
  · exact repeat_invariant (I := I) (fun _ ht => hI.print ht _) h _
  · exact h

end Regional

end Terminal

/-! ## Messages -/

/-- Whether a function acts within the region: scrolling, inserting and deleting rows or cells,
erasing in the row of the cursor, and repeating. -/
def ControlFunction.isRegional : ControlFunction → Bool
  | .scrollUp _ | .scrollDown _ | .insertLines _ | .deleteLines _ | .insertChars _ | .deleteChars _
  | .eraseChars _ | .eraseInLine _ _ | .repeatLast _ => true
  | _ => false

/-- Whether a message acts within the region: text, a rendition, a motion along the row or to one of
the next rows, and the functions that do. -/
def Message.isRegional : Message → Bool
  | .print _ | .sgr _ => true
  | .control b => b ∈ [0x08, 0x09, 0x0A, 0x0B, 0x0C, 0x0D]
  | .esc sequence => sequence ∈ [[0x44], [0x45], [0x4D]]
  | .csi marker params intermediates final =>
      (Terminal.functionOf marker params intermediates final).isRegional
  | _ => false

namespace Terminal.Regional

variable {I : Terminal → Prop} (hI : Regional I) {t : Terminal}

include hI

/-- The controls among the messages that stay in the region. -/
theorem applyControl (h : I t) {b : UInt8} (hb : (Message.control b).isRegional = true) :
    I (t.applyControl b).1 := by
  simp only [Message.isRegional, List.mem_cons, List.not_mem_nil, or_false,
    decide_eq_true_eq] at hb
  rcases hb with rfl | rfl | rfl | rfl | rfl | rfl
  · exact hI.backspace h
  · exact hI.moveToCol h _
  · exact hI.linefeed h
  · exact hI.linefeed h
  · exact hI.linefeed h
  · exact hI.moveToCol h 0

/-- The control functions among them. -/
theorem applyFunction (h : I t) {f : ControlFunction} (hf : f.isRegional = true) :
    I (t.applyFunction f).1 := by
  cases f with
  | scrollUp n => exact hI.scroll n .up h
  | scrollDown n => exact hI.scroll n .down h
  | insertLines n => exact hI.shiftFromCursor h n .down
  | deleteLines n => exact hI.shiftFromCursor h n .up
  | insertChars n => exact hI.insertChars h n
  | deleteChars n => exact hI.deleteChars h n
  | eraseChars n => exact hI.eraseChars h n
  | eraseInLine extent selective => exact hI.eraseInLine h extent selective
  | repeatLast n => exact hI.repeatLast h n
  | _ => cases hf

/-- **One message that stays in the region** keeps what is kept by what it is made of. -/
theorem apply (h : I t) {m : Message} (hm : m.isRegional = true) : I (t.apply m).1 := by
  cases m with
  | print text => exact List.foldlRecOn text Terminal.print h fun _ hu c _ => hI.print hu c
  | control b => exact hI.applyControl h hm
  | sgr params => exact hI.pen h
  | csi marker params intermediates final => exact hI.applyFunction h hm
  | esc sequence =>
      simp only [Message.isRegional, List.mem_cons, List.not_mem_nil, or_false,
        decide_eq_true_eq] at hm
      rcases hm with rfl | rfl | rfl
      · exact hI.index h
      · exact hI.nextLine h
      · exact hI.reverseIndex h
  | osc code data ending => cases hm
  | dcs params intermediates final data => cases hm

end Terminal.Regional

/-! ## Outside the region -/

namespace Screen

variable {s u v : Screen} {blank : Cell}

/-- A shift changes no row outside its range, and nothing but the grid. -/
theorem getElem?_shiftRows_of_outside {top bottom i : Nat} (hi : i < top ∨ bottom < i)
    (s : Screen) (count : Nat) (dir : Direction) (blank : Cell) :
    (s.shiftRows top bottom count dir blank).grid[i]? = s.grid[i]? := by
  by_cases hin : 0 < s.grid.size ∧ top ≤ s.lastRow bottom
  · refine (split_extract hin.1 hin.2).getElem?_shiftRows count dir blank (hi.imp_right ?_)
    exact Nat.lt_of_le_of_lt (Nat.min_le_left _ _)
  · rw [shiftRows_of_outside (by omega)]

/-- Scrolling makes of the grid what shifting does, and keeps the region. -/
theorem grid_scroll (s : Screen) (top bottom count : Nat) (dir : Direction) (blank : Cell) :
    (s.scroll top bottom count dir blank).grid = (s.shiftRows top bottom count dir blank).grid ∧
      (s.scroll top bottom count dir blank).region = s.region := by
  have hshift : (s.shiftRows top bottom count dir blank).region = s.region := by
    rw [shiftRows_frame]
  rw [scroll]
  split
  · refine Array.foldl_induction (motive := fun _ (u : Screen) =>
      u.grid = (s.shiftRows top bottom count dir blank).grid ∧ u.region = s.region)
      ⟨rfl, hshift⟩ ?_
    intro i u hu
    rw [remember]
    split <;> exact hu
  · exact ⟨rfl, hshift⟩

/-- A screen like another one outside the region: the rows there are the same, and if rows lie above
    the region, so is all but the grid. -/
structure SameOutside (s u : Screen) : Prop where
  region : u.region = s.region
  rows : ∀ i, ¬ s.region.Contains i → u.grid[i]? = s.grid[i]?
  rest : 0 < s.region.top → u = { s with grid := u.grid }

namespace SameOutside

/-- Nothing has changed. -/
theorem refl (s : Screen) : s.SameOutside s := ⟨rfl, fun _ _ => rfl, fun _ => rfl⟩

/-- What two changes leave outside the region, both together leave there. -/
theorem trans (h : s.SameOutside u) (h' : u.SameOutside v) : s.SameOutside v where
  region := h'.region.trans h.region
  rows i hi := (h'.rows i (h.region ▸ hi)).trans (h.rows i hi)
  rest htop := by
    rw [h'.rest (h.region ▸ htop), h.rest htop]

/-- A row of the region is none outside it. -/
theorem modifyRow {row : Nat} (hrow : s.region.Contains row) (f : Row → Row) :
    s.SameOutside (s.modifyRow row f) where
  region := rfl
  rows i hi := by
    rw [Screen.modifyRow, Array.getElem?_modify, if_neg]
    rintro rfl
    exact hi hrow
  rest _ := rfl

/-- Rows are shifted from a row of the region on, to its bottom. -/
theorem shiftRows {row : Nat} (hrow : s.region.top ≤ row) (count : Nat) (dir : Direction)
    (blank : Cell) : s.SameOutside (s.shiftRows row s.region.bottom count dir blank) where
  region := by rw [shiftRows_frame]
  rows i hi := by
    refine getElem?_shiftRows_of_outside ?_ s count dir blank
    rw [Region.Contains] at hi
    omega
  rest _ := shiftRows_frame ..

/-- Only a region at the top of the grid loses rows to the history. -/
theorem scroll (count : Nat) (dir : Direction) (blank : Cell) :
    s.SameOutside (s.scroll s.region.top s.region.bottom count dir blank) := by
  have hshift := shiftRows (s := s) (Nat.le_refl _) count dir blank
  obtain ⟨hgrid, hregion⟩ := grid_scroll s s.region.top s.region.bottom count dir blank
  refine ⟨hregion, fun i hi => ?_, fun htop => ?_⟩
  · rw [hgrid]
    exact hshift.rows i hi
  · rw [scroll_eq_shiftRows fun hup => Nat.ne_of_gt htop hup.2]
    exact hshift.rest htop

end SameOutside

end Screen

namespace Terminal

variable {x t : Terminal}

/-- The screen that is not shown. -/
def otherScreen (t : Terminal) : Screen :=
  if t.modes.alternateScreen then t.primary else t.alternate

/-- The screen that is not shown is left alone. -/
theorem otherScreen_onScreen (t : Terminal) (f : Screen → Screen) :
    (t.onScreen f).otherScreen = t.otherScreen := by
  by_cases hshown : t.modes.alternateScreen = true
  · simp [onScreen, otherScreen, hshown]
  · simp [onScreen, otherScreen, hshown]

/-- What is outside the region of a terminal is there in another one, whose cursor is in it. -/
structure Spares (x t : Terminal) : Prop where
  modes : t.modes = x.modes
  other : t.otherScreen = x.otherScreen
  screen : x.screen.SameOutside t.screen
  cursor : x.region.Contains t.cursor.row

namespace Spares

/-- A terminal spares itself. -/
theorem refl (hrow : x.region.Contains x.cursor.row) : x.Spares x := ⟨rfl, rfl, .refl _, hrow⟩

/-- The region is the same. -/
theorem region (h : x.Spares t) : t.region = x.region := h.screen.region

/-- The shown screen may be changed within the region. -/
theorem onScreen (h : x.Spares t) {f : Screen → Screen} (hf : t.screen.SameOutside (f t.screen)) :
    x.Spares (t.onScreen f) where
  modes := (blind_modes x.modes).onScreen h.modes
  other := (otherScreen_onScreen t f).trans h.other
  screen := by
    rw [screen_onScreen]
    exact h.screen.trans hf
  cursor := by
    rw [onScreen_cursor]
    exact h.cursor

/-- The cursor may be moved within the region. -/
theorem onCursor (h : x.Spares t) {f : Cursor → Cursor} (hf : x.region.Contains (f t.cursor).row) :
    x.Spares (t.onCursor f) :=
  { h with cursor := hf }

/-- Sparing what is outside the region is kept by all operations in it. -/
theorem regional (x : Terminal) : Regional (Spares x) where
  onCursorRow := by
    intro t f h
    have hrow : t.region.Contains t.cursor.row := h.region ▸ h.cursor
    exact h.onScreen (f := (·.modifyRow t.cursor.row f)) (.modifyRow hrow f)
  scroll := by
    intro t n dir h
    have hscroll := Screen.SameOutside.scroll (s := t.screen) n dir t.blank
    exact h.onScreen (f := (·.scroll t.region.top t.region.bottom n dir t.blank)) hscroll
  shift n dir blank hrow h := h.onScreen (.shiftRows hrow.1 n dir blank)
  onCursor := by
    intro t f hrow h
    refine h.onCursor ?_
    rw [hrow]
    exact h.cursor
  down := by
    intro t hbottom h
    rw [h.region] at hbottom
    have hrow := h.cursor
    refine h.onCursor ?_
    rw [Region.Contains] at hrow ⊢
    dsimp only
    omega
  up := by
    intro t htop h
    rw [h.region] at htop
    have hrow := h.cursor
    refine h.onCursor ?_
    rw [Region.Contains] at hrow ⊢
    dsimp only
    omega
  pen h := ⟨h.modes, h.other, h.screen, h.cursor⟩
  printed h := ⟨h.modes, h.other, h.screen, h.cursor⟩

end Spares

/-- **A scroll region protects the rows outside it.**  Whatever text, renditions, motions along the
    row and to the next rows, scrolls, and insertions and deletions a program sends while the cursor
    is in the region, and whatever the modes are: at every stage the cursor is still in it, no row
    of the shown screen above or below it has changed, and the other screen has not changed at all.
    If rows lie above the region, nothing of the shown screen has changed but its grid, so nothing
    has gone into the history. -/
theorem region_protects (hrow : t.region.Contains t.cursor.row) {ms : List Message}
    (hms : ∀ m ∈ ms, m.isRegional = true) {done : List Message} (hdone : done <+: ms) :
    let u := (t.applyAll done).1
    t.region.Contains u.cursor.row ∧ u.region = t.region ∧
    (∀ i, ¬ t.region.Contains i → u.screen.grid[i]? = t.screen.grid[i]?) ∧
    (0 < t.region.top → u.screen = { t.screen with grid := u.screen.grid }) ∧
    u.otherScreen = t.otherScreen ∧ u.modes = t.modes := by
  intro u
  have hu : t.Spares u := by
    show t.Spares (t.applyAll done).1
    rw [applyAll_eq_run]
    refine Machine.run_invariant (I := t.Spares) (fun v m hm hv => ?_) (.refl hrow)
    exact (Spares.regional t).apply hv (hms m (hdone.subset hm))
  exact ⟨hu.cursor, hu.region, hu.screen.rows, hu.screen.rest, hu.other, hu.modes⟩

/-- Text that wraps at the bottom of a region of two rows, below a row and above a status line. -/
theorem region_protects_status :
    let t := (((new 2 4 8 .cancelBold).setScrollRegion 2 3).setPosition 2 0)
    let ms : List Message :=
      [.print ['a', 'b', 'c'], .csi none ⟨[[some 9]]⟩ [] 0x62, .esc [0x4D], .csi none ⟨[]⟩ [] 0x4C]
    t.region = ⟨1, 2⟩ ∧ t.region.Contains t.cursor.row ∧ (∀ m ∈ ms, m.isRegional = true) ∧
      ms <+: ms ∧ (t.applyAll ms).1.region.Contains (t.applyAll ms).1.cursor.row := by
  intro t ms
  have hregion : t.region = ⟨1, 2⟩ := by decide +kernel
  have hrow : t.region.Contains t.cursor.row := by decide +kernel
  have hms : ∀ m ∈ ms, m.isRegional = true := by decide +kernel
  obtain ⟨hin, hsame, -⟩ := region_protects hrow hms List.prefix_rfl
  exact ⟨hregion, hrow, hms, List.prefix_rfl, hsame.symm ▸ hin⟩

end Terminal

end VideoTerminal
