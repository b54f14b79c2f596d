import VideoTerminal.Proofs.ShownScreen

/-!
# Where a character goes

Before a character is written, the wrap that is due is taken, a wide character gets room for both
its halves, and in insert mode the rest of the row moves away.  Of all this only the column is left
in which the character lands (`landingColumn`).  Nothing of it reaches the modes, the pen or the
size, which are surroundings of the screens.
-/

namespace VideoTerminal.Terminal

/-! ## What printing leaves alone -/

@[simp] theorem onScreen_cols (t : Terminal) (f : Screen → Screen) :
    (t.onScreen f).cols = t.cols := by
  rw [onScreen]
  split <;> rfl

/-- All of a terminal but its screens, its cursor and what was printed last. -/
def surroundings (t : Terminal) : Terminal :=
  { t with
    primary := .empty 0 0 0
    alternate := .empty 0 0 0
    cursor := {}
    lastPrinted := none }

theorem blind_surroundings (x : Terminal) : Blind (·.surroundings = x) where
  onScreen := by
    intro t f h
    rw [onScreen]
    split <;> exact h
  onCursor := id
  printed := id

/-- What depends on the surroundings only is the same in the same surroundings. -/
theorem surroundings_congr {α : Type} (f : Terminal → α)
    (hf : ∀ t : Terminal, f t.surroundings = f t) {t u : Terminal}
    (h : t.surroundings = u.surroundings) : f t = f u := by
  rw [← hf t, h, hf u]

theorem cols_congr {t u : Terminal} (h : t.surroundings = u.surroundings) : t.cols = u.cols :=
  surroundings_congr cols (fun _ => rfl) h

/-! ## The cursor -/

theorem onCursorRow_cursor (t : Terminal) (f : Row → Row) : (t.onCursorRow f).cursor = t.cursor :=
  onScreen_cursor t _

/-- Going one row down does not change the column. -/
theorem index_col (t : Terminal) : t.index.cursor.col = t.cursor.col := by
  dsimp only [index]
  split
  · rw [scrollUp, scroll, onScreen_cursor]
    rfl
  · split <;> rfl

theorem wrapLine_col (t : Terminal) : t.wrapLine.cursor.col = 0 := index_col _

theorem wrapLine_cols (t : Terminal) : t.wrapLine.cols = t.cols :=
  cols_congr ((blind_surroundings t.surroundings).wrapLine rfl)

theorem takeWrap_cols (t : Terminal) : t.takeWrap.cols = t.cols :=
  cols_congr ((blind_surroundings t.surroundings).takeWrap rfl)

/-- On a screen of two columns or more there is room for the second half of a wide character. -/
theorem makeRoom_col (t : Terminal) (hcols : 2 ≤ t.cols) :
    (t.makeRoom 2).cursor.col + 1 < (t.makeRoom 2).cols := by
  rw [makeRoom]
  split
  · split
    · rw [wrapLine_col, wrapLine_cols]
      omega
    · show t.cols - 2 + 1 < t.cols
      omega
  · omega

/-- A gap is made behind the cursor, which at most loses its due wrap. -/
theorem makeGap_cursor (t : Terminal) (width : Nat) :
    ∃ pendingWrap, (t.makeGap width).cursor = { t.cursor with pendingWrap } := by
  rw [makeGap]
  split
  · dsimp only [insertChars]
    split
    · refine ⟨false, ?_⟩
      show ({ (t.onCursorRow _).cursor with pendingWrap := false } : Cursor) = _
      rw [onCursorRow_cursor]
    · exact ⟨_, rfl⟩
  · exact ⟨_, rfl⟩

theorem makeGap_col (t : Terminal) (width : Nat) :
    (t.makeGap width).cursor.col = t.cursor.col := by
  obtain ⟨_, hcursor⟩ := t.makeGap_cursor width
  rw [hcursor]

theorem makeGap_cols (t : Terminal) (width : Nat) : (t.makeGap width).cols = t.cols :=
  cols_congr ((blind_surroundings t.surroundings).makeGap rfl width)

/-! ## Landing -/

/-- The terminal just before a character is written. -/
def ready (t : Terminal) (width : Nat) : Terminal := (t.takeWrap.makeRoom width).makeGap width

/-- The column in which a character is written: the first one behind a wrap, and otherwise that of
the cursor, unless a wide character has to begin further left. -/
def landingColumn (t : Terminal) (width : Nat) : Nat :=
  if t.modes.autowrap then
    if t.cursor.pendingWrap ∨ t.cols < t.cursor.col + width then 0 else t.cursor.col
  else min t.cursor.col (t.cols - width)

theorem ready_surroundings (t : Terminal) (width : Nat) :
    (t.ready width).surroundings = t.surroundings := by
  have hblind := blind_surroundings t.surroundings
  exact hblind.makeGap (hblind.makeRoom (hblind.takeWrap rfl) width) width

theorem place_surroundings (t : Terminal) (c : Char) (width : Nat) :
    (t.place c width).surroundings = t.surroundings :=
  (blind_surroundings t.surroundings).place rfl c width

theorem takeWrap_of_settled {t : Terminal} (h : t.cursor.pendingWrap = false) :
    t.takeWrap = t := by
  rw [takeWrap, h]
  rfl

theorem takeWrap_of_unwrapped {t : Terminal} (h : t.modes.autowrap = false) : t.takeWrap = t := by
  rw [takeWrap, h, Bool.and_false]
  rfl

theorem makeRoom_of_fits {t : Terminal} {width : Nat} (h : t.cursor.col + width ≤ t.cols) :
    t.makeRoom width = t :=
  if_neg (by omega)

variable {t : Terminal} {width : Nat}

/-- There is room for the character where it lands. -/
theorem landingColumn_le (hfits : width ≤ t.cols) : t.landingColumn width + width ≤ t.cols := by
  rw [landingColumn]
  split
  · split <;> omega
  · omega

theorem ready_col (hwidth : width = 1 ∨ width = 2) (hfits : width ≤ t.cols)
    (hcol : t.cursor.col < t.cols) : (t.ready width).cursor.col = t.landingColumn width := by
  rw [ready, makeGap_col, landingColumn]
  by_cases hwraps : t.modes.autowrap = true
  · rw [if_pos hwraps]
    by_cases hdue : t.cursor.pendingWrap = true
    · -- the wrap that is due leads to the first column, where there is room
      have htaken : t.takeWrap = t.wrapLine := by
        rw [takeWrap, hdue, hwraps]
        rfl
      have hroom : t.wrapLine.cursor.col + width ≤ t.wrapLine.cols := by
        rw [wrapLine_col, wrapLine_cols]
        omega
      rw [if_pos (.inl hdue), htaken, makeRoom_of_fits hroom, wrapLine_col]
    · rw [takeWrap_of_settled (Bool.eq_false_iff.mpr hdue)]
      by_cases hroom : t.cursor.col + width ≤ t.cols
      · rw [makeRoom_of_fits hroom, if_neg (by simp [hdue, hroom])]
      · have hlast : width = 2 ∧ t.cols ≤ t.cursor.col + 1 := by omega
        rw [if_pos (.inr (Nat.lt_of_not_le hroom)), makeRoom, if_pos hlast, if_pos hwraps,
          wrapLine_col]
  · rw [if_neg hwraps, takeWrap_of_unwrapped (Bool.eq_false_iff.mpr hwraps)]
    by_cases hroom : t.cursor.col + width ≤ t.cols
    · rw [makeRoom_of_fits hroom]
      omega
    · have hlast : width = 2 ∧ t.cols ≤ t.cursor.col + 1 := by omega
      rw [makeRoom, if_pos hlast, if_neg hwraps]
      show t.cols - 2 = _
      omega

/-- Away from the margin a character goes to the row of the cursor. -/
theorem ready_row (hsettled : t.cursor.pendingWrap = false)
    (hroom : t.cursor.col + width ≤ t.cols) : (t.ready width).cursor.row = t.cursor.row := by
  rw [ready, takeWrap_of_settled hsettled, makeRoom_of_fits hroom]
  obtain ⟨_, hcursor⟩ := t.makeGap_cursor width
  rw [hcursor]

/-- The cursor behind a character: it has moved on, or waits in the last column. -/
theorem place_cursor (t : Terminal) (c : Char) (width : Nat) :
    (t.place c width).cursor
      = if t.cols ≤ (t.ready width).cursor.col + width then
          { (t.ready width).cursor with col := t.cols - 1, pendingWrap := t.modes.autowrap }
        else
          { (t.ready width).cursor with
            col := (t.ready width).cursor.col + width, pendingWrap := false } := by
  have hwritten : ((t.ready width).writeGlyph c width).cursor = (t.ready width).cursor :=
    onCursorRow_cursor _ _
  have hsame : ((t.ready width).writeGlyph c width).surroundings = t.surroundings :=
    (blind_surroundings t.surroundings).writeGlyph (t.ready_surroundings width) c width
  show (((t.ready width).writeGlyph c width).advance width).cursor = _
  dsimp only [advance, onCursor]
  rw [hwritten, cols_congr hsame, surroundings_congr modes (fun _ => rfl) hsame]

theorem place_row (t : Terminal) (c : Char) (width : Nat) :
    (t.place c width).cursor.row = (t.ready width).cursor.row := by
  rw [place_cursor]
  split <;> rfl

end VideoTerminal.Terminal
