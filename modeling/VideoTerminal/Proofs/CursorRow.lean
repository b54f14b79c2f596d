import VideoTerminal.Proofs.Printing
import VideoTerminal.Proofs.ScrollRegion

/-!
# Within the row of the cursor

Some operations change nothing but cells in the row of the cursor: those that insert and delete
characters, and printing as long as text does not wrap.  Beside that row they leave the shown
screen alone with its history, the screen that is not shown, the modes and the pen; and of every
row they leave alone whether its text goes on in the next.

`SameBeside` collects this.  A change of cells in the row of the cursor keeps it, and so does a
motion along that row.  With autowrap off printing consists of nothing else: a wrap that is due is
not taken, and a wide character at the margin is pulled back instead of wrapped.  So one character
keeps it, and from that a whole text does.
-/

namespace VideoTerminal

/-! ## Rows go on in the next as before -/

namespace Row

theorem wrapped_write (r : Row) (col : Nat) (blank glyph continuation : Cell) :
    (r.write col blank glyph continuation).wrapped = r.wrapped := by
  rw [write]
  split
  · rfl
  · rfl

end Row

namespace Terminal

/-! ## What is beside the row of the cursor -/

/-- What is beside the row of the cursor of a terminal is there in another one, whose cursor is in
    the same row. -/
structure SameBeside (x t : Terminal) : Prop where
  row : t.cursor.row = x.cursor.row
  surroundings : t.surroundings = x.surroundings
  other : t.otherScreen = x.otherScreen
  screen : t.screen = { x.screen with grid := t.screen.grid }
  grid : ∀ i : Nat, i ≠ x.cursor.row → t.screen.grid[i]? = x.screen.grid[i]?
  wrapped : ∀ i : Nat, t.screen.grid[i]?.map Row.wrapped = x.screen.grid[i]?.map Row.wrapped

namespace SameBeside

variable {x t : Terminal}

theorem refl (x : Terminal) : x.SameBeside x := ⟨rfl, rfl, rfl, rfl, fun _ _ => rfl, fun _ => rfl⟩

theorem modes (h : x.SameBeside t) : t.modes = x.modes :=
  surroundings_congr Terminal.modes (fun _ => rfl) h.surroundings

/-- Cells of the row of the cursor may be changed. -/
theorem onCursorRow (h : x.SameBeside t) {f : Row → Row} (hf : ∀ r, (f r).wrapped = r.wrapped) :
    x.SameBeside (t.onCursorRow f) where
  row := (congrArg Cursor.row (onCursorRow_cursor t f)).trans h.row
  surroundings := (blind_surroundings x.surroundings).onCursorRow h.surroundings
  other := (otherScreen_onScreen t _).trans h.other
  screen := by
    dsimp only [Terminal.onCursorRow]
    rw [screen_onScreen, Screen.modifyRow, h.screen]
  grid := by
    intro i hi
    dsimp only [Terminal.onCursorRow]
    rw [screen_onScreen, Screen.modifyRow, Array.getElem?_modify, if_neg (h.row ▸ Ne.symm hi)]
    exact h.grid i hi
  wrapped := by
    intro i
    dsimp only [Terminal.onCursorRow]
    rw [screen_onScreen, Screen.modifyRow, Array.getElem?_modify, ← h.wrapped i]
    split
    · rw [Option.map_map]
      exact congrArg (fun p => t.screen.grid[i]?.map p) (funext hf)
    · rfl

/-- The cursor may be moved along its row. -/
theorem onCursor (h : x.SameBeside t) {f : Cursor → Cursor}
    (hf : (f t.cursor).row = t.cursor.row) : x.SameBeside (t.onCursor f) :=
  { h with row := hf.trans h.row }

theorem clearPending (h : x.SameBeside t) : x.SameBeside t.clearPending := h.onCursor rfl

theorem printed (h : x.SameBeside t) (c : Option Char) :
    x.SameBeside { t with lastPrinted := c } := { h with }

theorem insertChars (h : x.SameBeside t) (n : Nat) : x.SameBeside (t.insertChars n) := by
  have hrow := h.onCursorRow (f := (·.insert t.blank t.cursor.col n)) fun _ => rfl
  dsimp only [Terminal.insertChars]
  split
  · exact hrow.clearPending
  · exact h

theorem deleteChars (h : x.SameBeside t) (n : Nat) : x.SameBeside (t.deleteChars n) := by
  have hrow := h.onCursorRow (f := (·.delete t.blank t.cursor.col n)) fun _ => rfl
  dsimp only [Terminal.deleteChars]
  split
  · exact hrow.clearPending
  · exact h

/-! ### Printing without wraps -/

theorem addMark (h : x.SameBeside t) (c : Char) : x.SameBeside (t.addMark c) := by
  rw [Terminal.addMark]
  split
  · exact h.onCursorRow fun _ => rfl
  · exact h

theorem makeGap (h : x.SameBeside t) (width : Nat) : x.SameBeside (t.makeGap width) := by
  rw [Terminal.makeGap]
  split
  · exact h.insertChars width
  · exact h

/-- Without wraps room is made in the row of the cursor, one column further left. -/
theorem makeRoom (h : x.SameBeside t) (hoff : t.modes.autowrap = false) (width : Nat) :
    x.SameBeside (t.makeRoom width) := by
  rw [Terminal.makeRoom, hoff]
  split
  · exact h.onCursor (f := ({ · with col := t.cols - 2 })) rfl
  · exact h

theorem writeGlyph (h : x.SameBeside t) (c : Char) (width : Nat) :
    x.SameBeside (t.writeGlyph c width) := by
  dsimp only [Terminal.writeGlyph]
  exact h.onCursorRow fun r => r.wrapped_write _ _ _ _

theorem advance (h : x.SameBeside t) (width : Nat) : x.SameBeside (t.advance width) := by
  dsimp only [Terminal.advance]
  refine h.onCursor ?_
  split
  · rfl
  · rfl

theorem place (h : x.SameBeside t) (hoff : x.modes.autowrap = false) (c : Char) (width : Nat) :
    x.SameBeside (t.place c width) := by
  rw [← h.modes] at hoff
  have hready : x.SameBeside (t.ready width) := by
    rw [ready, takeWrap_of_unwrapped hoff]
    exact (h.makeRoom hoff width).makeGap width
  exact ((hready.writeGlyph c width).advance width).printed (some c)

theorem print (h : x.SameBeside t) (hoff : x.modes.autowrap = false) (c : Char) :
    x.SameBeside (t.print c) := by
  dsimp only [Terminal.print]
  split
  · exact h
  · exact h.addMark _
  · split
    · exact h
    · exact h.place hoff _ _

/-- A text of any length keeps to the row of the cursor. -/
theorem foldl_print (h : x.SameBeside t) (hoff : x.modes.autowrap = false) (text : List Char) :
    x.SameBeside (text.foldl Terminal.print t) :=
  List.foldlRecOn (motive := x.SameBeside) text Terminal.print h fun _ ht c _ => ht.print hoff c

end SameBeside

/-! ## The wrap that is due -/

/-- Whether a character is placed on the screen, and not dropped or put on another one. -/
def places (t : Terminal) (c : Char) : Bool :=
  (Width.columns? (t.charsets.glyph c)).any fun w => decide (0 < w ∧ min w 2 ≤ t.cols)

variable {t : Terminal}

theorem addMark_cursor (t : Terminal) (c : Char) : (t.addMark c).cursor = t.cursor := by
  rw [addMark]
  split
  · exact onCursorRow_cursor _ _
  · rfl

theorem place_pendingWrap (hoff : t.modes.autowrap = false) (c : Char) (width : Nat) :
    (t.place c width).cursor.pendingWrap = false := by
  rw [place_cursor]
  split
  · exact hoff
  · rfl

/-- Without wraps a wrap that is due stays so until a character is placed. -/
theorem print_pendingWrap (hoff : t.modes.autowrap = false) (c : Char) :
    (t.print c).cursor.pendingWrap = (t.cursor.pendingWrap && !t.places c) := by
  dsimp only [print]
  rw [places]
  split
  · next hnone => rw [hnone, Option.any_none, Bool.not_false, Bool.and_true]
  · next hmark =>
    rw [hmark, addMark_cursor]
    exact (Bool.and_true _).symm
  · next w hsome hw =>
    rw [hw, Option.any_some]
    split
    · next hwide =>
      rw [decide_eq_false fun h => Nat.not_le.mpr hwide h.2, Bool.not_false, Bool.and_true]
    · next hfits =>
      have hplaced : 0 < w ∧ min w 2 ≤ t.cols := ⟨Nat.pos_of_ne_zero hsome, Nat.le_of_not_lt hfits⟩
      rw [place_pendingWrap hoff, decide_eq_true hplaced, Bool.not_true, Bool.and_false]

/-- Over a text it stays so just when none of its characters is placed. -/
theorem foldl_print_pendingWrap (hoff : t.modes.autowrap = false) (text : List Char) :
    (text.foldl print t).cursor.pendingWrap
      = (t.cursor.pendingWrap && !text.any t.places) := by
  -- on the text from the end, since the characters in front change nothing that is asked here
  induction text using List.reverseRecOn with
  | nil =>
      rw [List.any_nil, Bool.not_false, Bool.and_true]
      rfl
  | append_singleton text c ih =>
      have hbeside : t.SameBeside (text.foldl print t) := (SameBeside.refl t).foldl_print hoff text
      have hplaces : (text.foldl print t).places c = t.places c :=
        surroundings_congr (places · c) (fun _ => rfl) hbeside.surroundings
      rw [List.foldl_append, List.foldl_cons, List.foldl_nil,
        print_pendingWrap (hbeside.modes ▸ hoff), ih, hplaces, List.any_append, List.any_cons,
        List.any_nil, Bool.or_false, Bool.not_or, Bool.and_assoc]

/-- **Without wraps text stays in its row.**  Whatever is printed with autowrap off, in insert mode
    or not and whether or not a wrap is due: the cursor stays in its row, no other row changes, and
    each row goes on in the next or not as before; nothing goes into the history, and the screen
    that is not shown stays as it is.  A wrap that was due is so afterwards just when no character
    has been placed. -/
theorem print_unwrapped (hoff : t.modes.autowrap = false) (text : List Char) :
    let u := (t.apply (.print text)).1
    u.cursor.row = t.cursor.row ∧
    (∀ i : Nat, i ≠ t.cursor.row → u.screen.grid[i]? = t.screen.grid[i]?) ∧
    (∀ i : Nat, u.screen.grid[i]?.map Row.wrapped = t.screen.grid[i]?.map Row.wrapped) ∧
    u.screen = { t.screen with grid := u.screen.grid } ∧
    u.otherScreen = t.otherScreen ∧ u.surroundings = t.surroundings ∧
    u.cursor.pendingWrap = (t.cursor.pendingWrap && !text.any t.places) := by
  intro u
  have h : t.SameBeside u := (SameBeside.refl t).foldl_print hoff text
  exact ⟨h.row, h.grid, h.wrapped, h.screen, h.other, h.surroundings,
    foldl_print_pendingWrap hoff text⟩

/-- A wrap that was due when autowrap was switched off: a mark leaves it due, and a wide character,
    which is pulled back from the margin, does not. -/
theorem print_unwrapped_due :
    let t := (((new 3 2 4 .cancelBold).apply (.print ['a', 'b', 'c'])).1).setPrivateMode 7 false
    let marked := (t.apply (.print ['\u0301'])).1
    let wide := (t.apply (.print ['\u0301', '日'])).1
    (t.modes.autowrap = false ∧ t.cursor.pendingWrap = true) ∧
      marked.cursor.pendingWrap = true ∧ wide.cursor.pendingWrap = false ∧
      wide.cursor.row = t.cursor.row ∧ wide.screen.grid[1]? = t.screen.grid[1]? ∧
      wide.screen.rowText 0 = "a日" := by
  intro t marked wide
  have hoff : t.modes.autowrap = false := by decide +kernel
  have hdue : t.cursor.pendingWrap = true := by decide +kernel
  obtain ⟨-, -, -, -, -, -, hmarked⟩ := print_unwrapped hoff ['\u0301']
  obtain ⟨hrow, hgrid, -, -, -, -, hwide⟩ := print_unwrapped hoff ['\u0301', '日']
  refine ⟨⟨hoff, hdue⟩, ?_, ?_, hrow, hgrid 1 (by decide +kernel), by decide +kernel⟩
  · rw [hmarked, hdue]
    decide +kernel
  · rw [hwide, hdue]
    decide +kernel

end Terminal

end VideoTerminal
