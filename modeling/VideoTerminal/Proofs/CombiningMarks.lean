import VideoTerminal.Proofs.Printing
import VideoTerminal.Proofs.Reachable
import VideoTerminal.Proofs.RowHalves

/-!
# Marks on the character before the cursor

A mark goes onto the character that was printed last.  Which cell that is, is not remembered: it is
found again from the column of the cursor, the wrap that may be due, and the second halves of wide
characters.  Behind a character it is the cell in which the character landed, with one exception: a
narrow character in the last column of a terminal that does not wrap leaves the cursor on itself,
with nothing to tell it from a cursor that was moved there.

A mark changes neither the cursor nor the width of a cell, so the next one goes the same way, and a
list of marks is one change of one cell.
-/

namespace VideoTerminal

/-! ## Changes of one element -/

section Arrays

variable {α : Type} (xs : Array α) (i : Nat)

theorem modify_modify (f g : α → α) :
    (xs.modify i f).modify i g = xs.modify i fun x => g (f x) := by
  apply Array.ext_getElem?
  intro j
  simp only [Array.getElem?_modify]
  split
  · rw [Option.map_map]
    rfl
  · rfl

variable {xs i}

theorem modify_congr {f g : α → α} (h : ∀ x, xs[i]? = some x → f x = g x) :
    xs.modify i f = xs.modify i g := by
  apply Array.ext_getElem?
  intro j
  simp only [Array.getElem?_modify]
  split
  · rename_i hij
    subst hij
    exact Option.map_congr fun x hx => h x hx
  · rfl

theorem modify_of_fixed {f : α → α} (h : ∀ x, xs[i]? = some x → f x = x) : xs.modify i f = xs := by
  rw [modify_congr (g := id) h]
  apply Array.ext_getElem?
  intro j
  rw [Array.getElem?_modify]
  split <;> simp

end Arrays

namespace Row

/-- Behind writing, the character and its second half are in the cells. -/
theorem getElem?_write {r : Row} {col : Nat} {b g k : Cell} (hcol : col < r.cells.size)
    (hroom : g.isWide = true → col + 1 < r.cells.size) :
    (r.write col b g k).cells[col]? = some g ∧
      (g.isWide = true → (r.write col b g k).cells[col + 1]? = some k) := by
  rw [write]
  split
  · rename_i hwide
    simp [size_mendAround, hcol, hroom hwide]
  · rename_i hnarrow
    simp [size_mendAround, hcol, hnarrow]

end Row

namespace Cell

/-- Marks that are put on a cell one by one join its marks, as far as there is room. -/
theorem foldl_addMark {c : Cell} (hc : c.FewMarks) (marks : List Char) :
    marks.foldl addMark c = { c with marks := (c.marks ++ marks).take maxMarks } := by
  induction marks generalizing c with
  | nil => rw [List.foldl_nil, List.append_nil, List.take_of_length_le hc]
  | cons m marks ih =>
      rw [List.foldl_cons, ih (hc.addMark m), addMark]
      split
      · rw [List.append_cons c.marks m marks]
      · -- there is no room, and what comes behind the marks does not count
        rename_i hfull
        have hlength : c.marks.length = maxMarks := Nat.le_antisymm hc (Nat.le_of_not_lt hfull)
        rw [← hlength, List.take_left, List.take_left]

theorem addMark_width (c : Cell) (m : Char) : (c.addMark m).width = c.width := by
  rw [addMark]
  split <;> rfl

end Cell

theorem Width.le_of_columns?_zero {c : Char} (hc : columns? c = some 0) : 0xA0 ≤ c.toNat := by
  rw [columns?] at hc
  by_contra hlow
  rw [if_pos (Nat.lt_of_not_le hlow)] at hc
  split at hc <;> cases hc

/-- The sets have glyphs of their own for ASCII characters only. -/
theorem Charset.glyph_of_le {c : Char} (hc : 0xA0 ≤ c.toNat) (s : Charset) : s.glyph c = c := by
  cases s with
  | ascii => rfl
  | unitedKingdom =>
      refine if_neg ?_
      rintro rfl
      exact absurd hc (by decide)
  | specialGraphics =>
      rw [glyph, lineDrawing.eq_def]
      split
      all_goals first | rfl | exact absurd hc (by decide)

/-- A character that takes no column is shown as itself. -/
theorem Charsets.glyph_of_zero {c : Char} (hc : Width.columns? c = some 0) (sets : Charsets) :
    sets.glyph c = c := by
  have hle := Width.le_of_columns?_zero hc
  rw [glyph]
  split <;> exact Charset.glyph_of_le hle _

namespace Terminal

variable {t : Terminal}

/-! ## The cell before the cursor -/

/-- The column in which the character over a column begins: over a second half, the one before. -/
def startColumn (t : Terminal) (col : Nat) : Nat :=
  if 0 < col && ((t.screen.cell? t.cursor.row col).map Cell.isContinuation).getD false then col - 1
  else col

theorem previousColumn?_eq (t : Terminal) :
    t.previousColumn?
      = if t.cursor.pendingWrap then some (t.startColumn t.cursor.col)
        else if t.cursor.col = 0 then none
        else some (t.startColumn (t.cursor.col - 1)) := by
  rw [previousColumn?]
  split
  · rfl
  · split <;> rfl

/-! ## Where the character before the cursor landed -/

theorem WellFormed.fewMarks {limit row col : Nat} (h : t.WellFormed limit) {c : Cell}
    (hc : t.screen.cell? row col = some c) : c.FewMarks := by
  obtain ⟨n, hscreen⟩ := h.exists_screen
  obtain ⟨r, hr, hc⟩ := Option.bind_eq_some_iff.mp hc
  exact (hscreen.grid.each r (Array.mem_of_getElem? hr)).each c (Array.mem_of_getElem? hc)

theorem cell?_onCursorRow (t : Terminal) (f : Row → Row) (col : Nat) :
    (t.onCursorRow f).screen.cell? t.cursor.row col
      = (t.screen.grid[t.cursor.row]?.map f).bind fun r => r.cells[col]? := by
  rw [onCursorRow, screen_onScreen, Screen.cell?, Screen.modifyRow]
  rw [Array.getElem?_modify, if_pos rfl]

section Placed

variable {limit width : Nat} (h : t.WellFormed limit) (hwidth : width = 1 ∨ width = 2)
  (hfits : width ≤ t.cols) (c : Char)

include h hwidth hfits

/-- A character is in the row of the cursor, in the column in which it landed, and the second half
of a wide one in the next. -/
theorem cell?_place :
    (t.place c width).screen.cell? (t.place c width).cursor.row (t.landingColumn width)
      = some (t.glyph c width) ∧
    (width = 2 →
      (t.place c width).screen.cell? (t.place c width).cursor.row (t.landingColumn width + 1)
        = some (t.glyph ' ' 0)) := by
  have hready : (t.ready width).WellFormed limit := (h.takeWrap.makeRoom width).makeGap width
  have hsame := t.ready_surroundings width
  have hglyph : ∀ c n, (t.ready width).glyph c n = t.glyph c n := fun c n =>
    surroundings_congr (·.glyph c n) (fun _ => rfl) hsame
  have hcol := ready_col hwidth hfits h.cursor.2
  have hroom := landingColumn_le hfits
  obtain ⟨r, hr⟩ : ∃ r, (t.ready width).screen.grid[(t.ready width).cursor.row]? = some r :=
    ⟨_, Array.getElem?_eq_getElem (hready.size_grid.symm ▸ hready.cursor.1)⟩
  have hsize : r.cells.size = t.cols :=
    (hready.size_row (Array.mem_of_getElem? hr)).trans (cols_congr hsame)
  have hcell : ∀ col, (t.place c width).screen.cell? (t.place c width).cursor.row col
      = (r.write (t.landingColumn width) (t.ready width).blank (t.glyph c width)
          (t.glyph ' ' 0)).cells[col]? := by
    intro col
    rw [place_row]
    show ((t.ready width).writeGlyph c width).screen.cell? _ col = _
    dsimp only [writeGlyph]
    rw [cell?_onCursorRow, hr, hcol, hglyph, hglyph]
    rfl
  have hwide : (t.glyph c width).isWide = true → width = 2 := beq_iff_eq.mp
  obtain ⟨hfirst, hsecond⟩ := Row.getElem?_write (b := (t.ready width).blank)
    (g := t.glyph c width) (k := t.glyph ' ' 0)
    (show t.landingColumn width < r.cells.size by omega)
    (fun hw => by have := hwide hw; omega)
  refine ⟨(hcell _).trans hfirst, fun htwo => (hcell _).trans (hsecond ?_)⟩
  exact beq_iff_eq.mpr htwo

/-- Over each of its columns a character begins where it landed. -/
theorem startColumn_place {col : Nat} (hle : t.landingColumn width ≤ col)
    (hlt : col < t.landingColumn width + width) :
    (t.place c width).startColumn col = t.landingColumn width := by
  obtain ⟨hfirst, hsecond⟩ := cell?_place h hwidth hfits c
  rw [startColumn]
  by_cases hcol : col = t.landingColumn width
  · have hbase : (t.glyph c width).isContinuation = false :=
      beq_false_of_ne (show width ≠ 0 by omega)
    rw [hcol, hfirst]
    simp [hbase]
  · have htwo : width = 2 ∧ col = t.landingColumn width + 1 := by omega
    rw [htwo.2, hsecond htwo.1]
    simp [glyph, Cell.isContinuation]

/-- The last character is found where it landed, but for a narrow one in the last column behind
which no wrap becomes due. -/
theorem previousColumn?_place
    (hlast : ¬ (width = 1 ∧ t.modes.autowrap = false ∧ t.cursor.col + 1 = t.cols)) :
    (t.place c width).previousColumn? = some (t.landingColumn width) := by
  have hstart : ∀ col, t.landingColumn width ≤ col → col < t.landingColumn width + width →
      some ((t.place c width).startColumn col) = some (t.landingColumn width) :=
    fun _ hle hlt => congrArg some (startColumn_place h hwidth hfits c hle hlt)
  have hcol := ready_col hwidth hfits h.cursor.2
  have hroom := landingColumn_le hfits
  rw [previousColumn?_eq, place_cursor, hcol]
  by_cases hfull : t.cols ≤ t.landingColumn width + width
  · rw [if_pos hfull]
    dsimp only
    by_cases hwraps : t.modes.autowrap = true
    · -- the cursor waits on the last column of the character
      rw [if_pos hwraps]
      exact hstart _ (by omega) (by omega)
    · -- so it does without a wrap, and then the character is a wide one
      have htwo : width = 2 := by
        refine hwidth.resolve_left fun hone => hlast ⟨hone, Bool.eq_false_iff.mpr hwraps, ?_⟩
        have hcursor := h.cursor.2
        rw [landingColumn, if_neg hwraps] at hfull
        omega
      rw [if_neg hwraps, if_neg (by omega)]
      exact hstart _ (by omega) (by omega)
  · -- the cursor has moved behind the character
    rw [if_neg hfull]
    dsimp only
    rw [if_neg Bool.false_ne_true, if_neg (by omega)]
    exact hstart _ (by omega) (by omega)

omit hwidth hfits in
/-- Behind a narrow character in the last column, where no wrap becomes due, the search begins one
column too far left. -/
theorem previousColumn?_place_last (hwraps : t.modes.autowrap = false)
    (hcol : t.cursor.col + 1 = t.cols) :
    (t.place c 1).previousColumn?
      = if t.cursor.col = 0 then none
        else some ((t.place c 1).startColumn (t.cursor.col - 1)) := by
  have hready : (t.ready 1).cursor.col = t.cursor.col := by
    rw [ready_col (.inl rfl) (by omega) h.cursor.2, landingColumn, hwraps]
    show min t.cursor.col (t.cols - 1) = _
    omega
  have hlast : t.cols - 1 = t.cursor.col := by omega
  rw [previousColumn?_eq, place_cursor, hready, if_pos (Nat.le_of_eq hcol.symm), hwraps]
  dsimp only
  rw [if_neg Bool.false_ne_true, hlast]

end Placed

theorem print_eq_place {c : Char} {width : Nat}
    (hc : Width.columns? (t.charsets.glyph c) = some width) (hwidth : width = 1 ∨ width = 2)
    (hfits : width ≤ t.cols) : t.print c = t.place (t.charsets.glyph c) width := by
  have hroom : ¬ t.cols < width := Nat.not_lt.mpr hfits
  dsimp only [print]
  rw [hc]
  rcases hwidth with rfl | rfl <;> exact if_neg hroom

/-! ## Marks -/

theorem print_mark (t : Terminal) {m : Char} (hm : Width.columns? m = some 0) :
    t.print m = t.addMark m := by
  dsimp only [print]
  rw [Charsets.glyph_of_zero hm, hm]
  rfl

theorem startColumn_onCursorRow (t : Terminal) {f : Cell → Cell}
    (hf : ∀ c, (f c).width = c.width) (col col' : Nat) :
    (t.onCursorRow (·.modify col f)).startColumn col' = t.startColumn col' := by
  have hwidth : ∀ r : Row, ((r.modify col f).cells[col']?).map Cell.isContinuation
      = r.cells[col']?.map Cell.isContinuation := by
    intro r
    rw [Row.modify, Array.getElem?_modify]
    split
    · rw [Option.map_map]
      refine Option.map_congr fun c _ => ?_
      show ((f c).width == 0) = _
      rw [hf]
      rfl
    · rfl
  rw [startColumn, startColumn, onCursorRow_cursor, cell?_onCursorRow, Screen.cell?]
  cases t.screen.grid[t.cursor.row]? with
  | none => rfl
  | some r =>
      show (if 0 < col' && (((r.modify col f).cells[col']?).map Cell.isContinuation).getD false
        then _ else _) = _
      rw [hwidth]
      rfl

/-- The next mark goes to the same cell. -/
theorem previousColumn?_addMark (t : Terminal) (m : Char) :
    (t.addMark m).previousColumn? = t.previousColumn? := by
  rw [addMark]
  split
  · simp only [previousColumn?_eq, onCursorRow_cursor,
      startColumn_onCursorRow t (f := (·.addMark m)) (fun c => c.addMark_width m)]
  · rfl

theorem onCursorRow_onCursorRow (t : Terminal) (f g : Row → Row) :
    (t.onCursorRow f).onCursorRow g = t.onCursorRow fun r => g (f r) := by
  rw [onCursorRow, onCursorRow_cursor, onCursorRow, onScreen_onScreen, onCursorRow]
  refine onScreen_congr ?_
  simp only [Screen.modifyRow]
  rw [modify_modify]

theorem modify_onCursorRow_congr {f g : Cell → Cell} {col : Nat}
    (h : ∀ c, t.screen.cell? t.cursor.row col = some c → f c = g c) :
    t.onCursorRow (·.modify col f) = t.onCursorRow (·.modify col g) := by
  rw [onCursorRow, onCursorRow]
  refine onScreen_congr (congrArg (fun grid => { t.screen with grid }) ?_)
  refine modify_congr fun r hr => congrArg (fun cells => { r with cells }) ?_
  refine modify_congr fun c hc => h c ?_
  rw [Screen.cell?, hr]
  exact hc

theorem modify_onCursorRow_id (t : Terminal) (col : Nat) :
    t.onCursorRow (·.modify col fun c => c) = t := by
  have hscreen : t.screen.modifyRow t.cursor.row (·.modify col fun c => c) = t.screen := by
    refine congrArg (fun grid => { t.screen with grid }) (modify_of_fixed fun r _ => ?_)
    exact congrArg (fun cells => { r with cells }) (modify_of_fixed fun _ _ => rfl)
  rw [onCursorRow, onScreen_congr (g := id) hscreen, onScreen_id]

/-- A list of marks is one change of one cell. -/
theorem foldl_addMark {col : Nat} (h : t.previousColumn? = some col) (marks : List Char) :
    marks.foldl addMark t = t.onCursorRow (·.modify col fun c => marks.foldl Cell.addMark c) := by
  induction marks generalizing t with
  | nil => exact (t.modify_onCursorRow_id col).symm
  | cons m marks ih =>
      rw [List.foldl_cons, ih ((t.previousColumn?_addMark m).trans h), addMark, h]
      rw [onCursorRow_onCursorRow]
      simp only [Row.modify, modify_modify]
      rfl

/-- Marks that are printed join those of the cell before the cursor, as far as there is room. -/
theorem foldl_print_marks {limit col : Nat} (h : t.WellFormed limit)
    (hcol : t.previousColumn? = some col) {marks : List Char}
    (hmarks : ∀ m ∈ marks, Width.columns? m = some 0) :
    marks.foldl print t
      = t.onCursorRow (·.modify col fun c => { c with marks := (c.marks ++ marks).take 8 }) := by
  rw [List.foldl_ext print addMark t fun u m hm => u.print_mark (hmarks m hm), foldl_addMark hcol]
  exact modify_onCursorRow_congr fun c hc => Cell.foldl_addMark (h.fewMarks hc) marks

/-- Where no cell is before the cursor, marks are dropped. -/
theorem foldl_print_marks_none (hcol : t.previousColumn? = none) {marks : List Char}
    (hmarks : ∀ m ∈ marks, Width.columns? m = some 0) : marks.foldl print t = t := by
  induction marks with
  | nil => rfl
  | cons m marks ih =>
      obtain ⟨hm, hmarks⟩ := List.forall_mem_cons.mp hmarks
      rw [List.foldl_cons, print_mark t hm, addMark, hcol]
      exact ih hmarks

end Terminal

namespace Emulator

/-- **Marks join the character just printed, unless that is a narrow one in the last column behind
    which no wrap becomes due.**  On an emulator that can be reached a character that the screen has
    room for is printed, and then marks are, as many as a cell takes.  All of them come into the
    cell where the character landed, in order, and nothing else changes.  But in the last column of
    a terminal that does not wrap, the marks of a narrow character go to the character before it, as
    far as there is room, or nowhere if the screen has one column. -/
theorem print_marks {e : Emulator} (he : e.Reachable) {c : Char} {width : Nat}
    (hc : Width.columns? (e.terminal.charsets.glyph c) = some width)
    (hwidth : width = 1 ∨ width = 2) (hfits : width ≤ e.terminal.cols) {marks : List Char}
    (hmarks : ∀ m ∈ marks, Width.columns? m = some 0) (hlength : marks.length ≤ 8) :
    let t := e.terminal
    let glyph := t.glyph (t.charsets.glyph c) width
    let printed := t.print c
    let marked := marks.foldl Terminal.print printed
    let row := printed.cursor.row
    let col := t.landingColumn width
    let last := width = 1 ∧ t.modes.autowrap = false ∧ t.cursor.col + 1 = t.cols
    printed.screen.cell? row col = some glyph ∧
    (¬ last →
      marked = printed.onCursorRow (·.modify col ({ · with marks })) ∧
      marked.screen.cell? row col = some { glyph with marks } ∧
      marked.cursor = printed.cursor) ∧
    (last → t.cursor.col = 0 → marked = printed) ∧
    (last → 0 < t.cursor.col →
      marked = printed.onCursorRow
        (·.modify (printed.startColumn (t.cursor.col - 1)) fun before =>
          { before with marks := (before.marks ++ marks).take 8 })) := by
  intro t glyph printed marked row col last
  obtain ⟨limit, h⟩ := he.wellFormed
  have hwell : printed.WellFormed limit := h.print c
  have hplaced : printed = t.place (t.charsets.glyph c) width :=
    Terminal.print_eq_place hc hwidth hfits
  have hcell : printed.screen.cell? row col = some glyph := by
    have hfirst := (Terminal.cell?_place h hwidth hfits (t.charsets.glyph c)).1
    rwa [← hplaced] at hfirst
  refine ⟨hcell, fun hlast => ?_, fun hlast hcol => ?_, fun hlast hcol => ?_⟩
  · have hprevious : printed.previousColumn? = some col := by
      rw [hplaced]
      exact Terminal.previousColumn?_place h hwidth hfits _ hlast
    have hmarked : marked = printed.onCursorRow (·.modify col ({ · with marks })) := by
      refine (Terminal.foldl_print_marks hwell hprevious hmarks).trans ?_
      refine Terminal.modify_onCursorRow_congr fun x hx => ?_
      -- the cell of a character that was just written has no marks yet
      obtain rfl : glyph = x := Option.some.inj (hcell.symm.trans hx)
      exact congrArg (fun marks => { glyph with marks }) (List.take_of_length_le hlength)
    refine ⟨hmarked, ?_, ?_⟩
    · obtain ⟨r, hr, hx⟩ := Option.bind_eq_some_iff.mp hcell
      rw [hmarked, Terminal.cell?_onCursorRow, hr]
      show (r.cells.modify col ({ · with marks }))[col]? = _
      rw [Array.getElem?_modify, if_pos rfl, hx]
      rfl
    · rw [hmarked, Terminal.onCursorRow_cursor]
  all_goals
    obtain ⟨rfl, hwraps, hend⟩ := hlast
    have hprevious := Terminal.previousColumn?_place_last h (t.charsets.glyph c) hwraps hend
    rw [← hplaced] at hprevious
  · rw [if_pos hcol] at hprevious
    exact Terminal.foldl_print_marks_none hprevious hmarks
  · rw [if_neg (Nat.ne_of_gt hcol)] at hprevious
    exact Terminal.foldl_print_marks hwell hprevious hmarks

/-- In insert mode a wide character does not fit into the last column, and takes its marks along
    into the next row. -/
theorem print_marks_wrapped :
    let e := run { terminal := .new 4 2 0 .cancelBold } [.write (Utf8.ofString "\x1b[4habc")]
    let printed := e.terminal.print '日'
    e.Reachable ∧ Width.columns? (e.terminal.charsets.glyph '日') = some 2 ∧
      2 ≤ e.terminal.cols ∧
      (∀ m ∈ ['\u0301', '\u0300'], Width.columns? m = some 0) ∧
      ['\u0301', '\u0300'].length ≤ 8 ∧
      (['\u0301', '\u0300'].foldl Terminal.print printed).screen.cell? printed.cursor.row
          (e.terminal.landingColumn 2)
        = some { e.terminal.glyph '日' 2 with marks := ['\u0301', '\u0300'] } := by
  intro e printed
  have he : e.Reachable :=
    ⟨⟨4, 2⟩, 0, .cancelBold, _, [.write (Utf8.ofString "\x1b[4habc")], rfl, rfl⟩
  have hglyph : e.terminal.charsets.glyph '日' = '日' := by decide +kernel
  have hc : Width.columns? (e.terminal.charsets.glyph '日') = some 2 := by
    rw [hglyph]
    decide +kernel
  have hfits : 2 ≤ e.terminal.cols := by decide +kernel
  have hmarks : ∀ m ∈ ['\u0301', '\u0300'], Width.columns? m = some 0 :=
    List.forall_mem_cons.mpr ⟨by decide +kernel, List.forall_mem_singleton.mpr (by decide +kernel)⟩
  have hlength : ['\u0301', '\u0300'].length ≤ 8 := by decide
  obtain ⟨-, hmarked, -⟩ := print_marks he hc (.inr rfl) hfits hmarks hlength
  rw [hglyph] at hmarked
  exact ⟨he, hc, hfits, hmarks, hlength, (hmarked (by simp)).2.1⟩

/-- Without wrapping, the accent of a letter in the last column goes to the letter before it. -/
theorem print_marks_astray :
    let e := run { terminal := .new 3 2 0 .cancelBold } [.write (Utf8.ofString "\x1b[?7lab")]
    let marked := (e.terminal.print 'c').print '\u0301'
    e.Reachable ∧ Width.columns? (e.terminal.charsets.glyph 'c') = some 1 ∧
      Width.columns? '\u0301' = some 0 ∧
      marked.screen.cell? 0 2 = some { base := 'c' } ∧
      marked.screen.cell? 0 1 = some { base := 'b', marks := ['\u0301'] } := by
  intro e marked
  have he : e.Reachable :=
    ⟨⟨3, 2⟩, 0, .cancelBold, _, [.write (Utf8.ofString "\x1b[?7lab")], rfl, rfl⟩
  exact ⟨he, by decide +kernel, by decide +kernel, by decide +kernel, by decide +kernel⟩

end Emulator

end VideoTerminal
