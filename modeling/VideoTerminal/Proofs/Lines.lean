import VideoTerminal.Proofs.Characters
import VideoTerminal.Proofs.Page
import VideoTerminal.Proofs.Pieces
import VideoTerminal.Proofs.Reachable
import VideoTerminal.Proofs.Wrap

/-!
# Lines on the screen

Lines of text that are written to a new terminal, with a carriage return and a linefeed between
them, stand there as the greedy wrap has them: the last rows on the grid, those before them in the
history as far as it keeps them.

`Typed` is what holds after each character: the segments that are done stand above the cursor, the
characters of the open one in front of it, and a wrap is due exactly when they fill the row.  A
character either joins the open segment or begins the next one, and there are two ways to begin it:
the wrap that is due is taken, or a wide character does not fit into the last column.
-/

namespace VideoTerminal

open Segment (wrapFrom wrap draw)

namespace Terminal

/-- A terminal behind some segments and the characters of an open one. -/
structure Typed (cols rows limit : Nat) (done : List Segment) (line : List Char) (t : Terminal) :
    Prop where
  two_le : 2 ≤ cols
  page : t.Page cols rows limit (done.map (draw cols)) (draw cols ⟨line, false⟩)
  shown : ∀ c ∈ line, Width.Shown c
  fits : Width.total line ≤ cols
  col : t.cursor.col = min (Width.total line) (cols - 1)
  pendingWrap : t.cursor.pendingWrap = decide (Width.total line = cols)

/-- A terminal whose cursor stands at the beginning of an empty row. -/
theorem typed_of_page {cols rows limit : Nat} {done : List Segment} {t : Terminal}
    (hcols : 2 ≤ cols) (h : t.Page cols rows limit (done.map (draw cols)) (Row.empty cols))
    (hcol : t.cursor.col = 0) (hpending : t.cursor.pendingWrap = false) :
    t.Typed cols rows limit done [] where
  two_le := hcols
  page := by
    rw [Segment.draw_nil]
    exact h
  shown := fun c hc => absurd hc List.not_mem_nil
  fits := Nat.zero_le cols
  col := by
    rw [hcol, Width.total_nil, Nat.zero_min]
  pendingWrap := by
    rw [hpending]
    exact (decide_eq_false (show 0 ≠ cols by omega)).symm

theorem typed_new {cols rows : Nat} (hcols : 2 ≤ cols) (hrows : 0 < rows) (limit : Nat)
    (sgr21 : Sgr21) : (new cols rows limit sgr21).Typed cols rows limit [] [] :=
  typed_of_page hcols (page_new hrows cols limit sgr21) rfl rfl

/-! ## Characters -/

theorem Plain.glyph {cols rows : Nat} {t : Terminal} (h : t.Plain cols rows) (c : Char)
    (width : Nat) : t.glyph c width = { base := c, width } := by
  rw [Terminal.glyph, h.pen, h.unprotected, h.unlinked]

theorem Plain.print {cols rows : Nat} {t : Terminal} (h : t.Plain cols rows) (hcols : 2 ≤ cols)
    {c : Char} (hc : Width.Shown c) : t.print c = t.place c (Width.columns c) := by
  have hglyph : t.charsets.glyph c = c := by
    rw [h.charsets]
    rfl
  have hroom : ∀ w, ¬t.cols < min w 2 := by
    intro w
    rw [h.cols_eq]
    omega
  dsimp only [Terminal.print]
  rw [hglyph, hc.columns?_eq]
  rcases hc.columns_eq with h1 | h2
  · rw [h1]
    exact if_neg (hroom 1)
  · rw [h2]
    exact if_neg (hroom 2)

/-- A character written behind a segment makes it the longer one. -/
theorem write_draw {cols : Nat} {line : List Char} (hline : ∀ c ∈ line, Width.Shown c) {c : Char}
    (hc : Width.Shown c) (hfits : Width.total line + Width.columns c ≤ cols) (blank : Cell) :
    (draw cols ⟨line, false⟩).write (Width.total line) blank
        { base := c, width := Width.columns c } { base := ' ', width := 0 }
      = draw cols ⟨line ++ [c], false⟩ := by
  have hlength := Cell.length_drawings hline
  have hcells : (line ++ [c]).flatMap Cell.drawing
      = line.flatMap Cell.drawing ++ Cell.drawing c := by
    rw [List.flatMap_append, List.flatMap_singleton]
  have htotal : Width.total (line ++ [c]) = Width.total line + Width.columns c := by
    rw [Width.total_append, Width.total_singleton]
  have hdraw : ∀ cs, draw cols ⟨cs, false⟩
      = ⟨Row.padded (cs.flatMap Cell.drawing) (cols - Width.total cs), false⟩ := fun cs => rfl
  rw [hdraw, hdraw, hcells, htotal]
  rcases hc.columns_eq with h1 | h2
  · -- a narrow character takes the first of the cells that are left
    obtain ⟨n, hn⟩ : ∃ n, cols - Width.total line = n + 1 := ⟨cols - Width.total line - 1, by omega⟩
    have hrest : cols - (Width.total line + Width.columns c) = n := by omega
    have hdrawing : Cell.drawing c = [{ base := c, width := Width.columns c }] := by
      rw [Cell.drawing, h1]
      rfl
    rw [hn, hrest, ← hlength, hdrawing]
    exact Row.write_padded_narrow (by rw [h1]; rfl) _ _
  · -- a wide one takes two
    obtain ⟨n, hn⟩ : ∃ n, cols - Width.total line = n + 2 := ⟨cols - Width.total line - 2, by omega⟩
    have hrest : cols - (Width.total line + Width.columns c) = n := by omega
    have hdrawing : Cell.drawing c
        = [{ base := c, width := Width.columns c }, { base := ' ', width := 0 }] := by
      rw [Cell.drawing, h2]
      rfl
    rw [hn, hrest, ← hlength, hdrawing]
    exact Row.write_padded_wide (by rw [h2]; rfl) _ _

namespace Typed

variable {cols rows limit : Nat} {done : List Segment} {line : List Char} {t : Terminal}

theorem col_eq (h : t.Typed cols rows limit done line) (hroom : Width.total line < cols) :
    t.cursor.col = Width.total line := by
  rw [h.col]
  exact Nat.min_eq_left (by omega)

/-- The character is written in the row of the cursor, which stays where it is. -/
theorem writeGlyph (h : t.Typed cols rows limit done line) {c : Char} (hc : Width.Shown c)
    (hfits : Width.total line + Width.columns c ≤ cols) :
    (t.writeGlyph c (Width.columns c)).Page cols rows limit (done.map (draw cols))
      (draw cols ⟨line ++ [c], false⟩) ∧
    (t.writeGlyph c (Width.columns c)).cursor = t.cursor := by
  have hwidth := hc.columns_eq
  constructor
  · dsimp only [Terminal.writeGlyph]
    rw [h.col_eq (by omega), h.page.plain.glyph, h.page.plain.glyph,
      ← write_draw h.shown hc hfits t.blank]
    exact h.page.onCursorRow fun r => r.write _ _ _ _
  · rw [Terminal.writeGlyph, Terminal.onCursorRow]
    exact onScreen_cursor _ _

/-- The cursor moves behind the character, or stays in the last column with a wrap due. -/
theorem advance_cursor {row : Row} (hpage : t.Page cols rows limit (done.map (draw cols)) row)
    {n : Nat} (hn : t.cursor.col + n ≤ cols) :
    (t.advance n).cursor
      = { t.cursor with
          col := min (t.cursor.col + n) (cols - 1)
          pendingWrap := decide (t.cursor.col + n = cols) } := by
  rw [advance, onCursor]
  dsimp only
  rw [hpage.plain.cols_eq, hpage.plain.modes]
  by_cases hfull : cols ≤ t.cursor.col + n
  · rw [if_pos hfull, Nat.min_eq_right (by omega), decide_eq_true (by omega)]
  · rw [if_neg hfull, Nat.min_eq_left (by omega), decide_eq_false (by omega)]

/-- What is left of printing a character when there is room for it. -/
theorem put (h : t.Typed cols rows limit done line) {c : Char} (hc : Width.Shown c)
    (hfits : Width.total line + Width.columns c ≤ cols) :
    ({ ((t.makeGap (Width.columns c)).writeGlyph c (Width.columns c)).advance (Width.columns c)
      with lastPrinted := some c } : Terminal).Typed cols rows limit done (line ++ [c]) := by
  have hwidth := hc.columns_eq
  have htotal : Width.total (line ++ [c]) = Width.total line + Width.columns c := by
    rw [Width.total_append, Width.total_singleton]
  have hcol := h.col_eq (by omega)
  have hgap : t.makeGap (Width.columns c) = t := by
    rw [makeGap, h.page.plain.modes]
    rfl
  obtain ⟨hwritten, hcursor⟩ := h.writeGlyph hc hfits
  have hadvanced := advance_cursor hwritten (n := Width.columns c)
    (by rw [hcursor, hcol]; exact hfits)
  have hpage : ((t.writeGlyph c (Width.columns c)).advance (Width.columns c)).Page cols rows limit
      (done.map (draw cols)) (draw cols ⟨line ++ [c], false⟩) := by
    rw [advance]
    refine hwritten.onCursor ?_
    split <;> rfl
  rw [hcursor, hcol, ← htotal] at hadvanced
  rw [hgap]
  refine ⟨h.two_le, { hpage with plain := { hpage.plain with } }, ?_, ?_, ?_, ?_⟩
  · intro d hd
    rcases List.mem_append.mp hd with hd | hd
    · exact h.shown d hd
    · rw [List.mem_singleton.mp hd]
      exact hc
  · rw [htotal]
    exact hfits
  · exact congrArg Cursor.col hadvanced
  · exact congrArg Cursor.pendingWrap hadvanced

/-- A character that fits joins the open segment. -/
theorem print_of_fits (h : t.Typed cols rows limit done line) {c : Char} (hc : Width.Shown c)
    (hfits : Width.total line + Width.columns c ≤ cols) :
    (t.print c).Typed cols rows limit done (line ++ [c]) := by
  have hwidth := hc.columns_eq
  have hpending : t.cursor.pendingWrap = false := by
    rw [h.pendingWrap]
    exact decide_eq_false (by omega)
  have hwrap : t.takeWrap = t := by
    rw [takeWrap, hpending]
    rfl
  have hroom : t.makeRoom (Width.columns c) = t := by
    have hcol := h.col
    rw [makeRoom, h.page.plain.cols_eq]
    exact if_neg (by omega)
  rw [h.page.plain.print h.two_le hc]
  dsimp only [place]
  rw [hwrap, hroom]
  exact h.put hc hfits

/-- The next row, marked as going on from the open segment. -/
theorem wrapLine (h : t.Typed cols rows limit done line) :
    t.wrapLine.Typed cols rows limit (done ++ [⟨line, true⟩]) [] := by
  obtain ⟨hpage, hcol, hpending⟩ := h.page.wrapLine
  refine typed_of_page h.two_le ?_ hcol hpending
  rw [List.map_append]
  exact hpage

/-- A character that does not fit begins the next segment. -/
theorem print_of_not_fits (h : t.Typed cols rows limit done line) {c : Char} (hc : Width.Shown c)
    (hfits : ¬Width.total line + Width.columns c ≤ cols) :
    (t.print c).Typed cols rows limit (done ++ [⟨line, true⟩]) [c] := by
  have hwidth := hc.columns_eq
  have hcols := h.two_le
  have hle := h.fits
  have hnext := h.wrapLine
  have hwrapped : t.takeWrap.makeRoom (Width.columns c) = t.wrapLine := by
    by_cases hfull : Width.total line = cols
    · -- the row is full: the wrap is due, and the first column leaves room for any character
      have htaken : t.takeWrap = t.wrapLine := by
        rw [takeWrap, h.pendingWrap, decide_eq_true hfull, h.page.plain.modes]
        rfl
      have hcol := hnext.col
      rw [Width.total_nil] at hcol
      rw [htaken, makeRoom]
      rw [hnext.page.plain.cols_eq]
      exact if_neg (by omega)
    · -- one column is left, and the character is wide
      have htaken : t.takeWrap = t := by
        rw [takeWrap, h.pendingWrap, decide_eq_false hfull]
        rfl
      have hcol := h.col
      have hlast : Width.columns c = 2 ∧ t.cols ≤ t.cursor.col + 1 := by
        rw [h.page.plain.cols_eq]
        omega
      rw [htaken, makeRoom]
      rw [if_pos hlast, h.page.plain.modes]
      rfl
  rw [h.page.plain.print h.two_le hc]
  dsimp only [place]
  rw [hwrapped]
  exact hnext.put hc (by rw [Width.total_nil]; omega)

/-- The next row, which begins another line. -/
theorem newline (h : t.Typed cols rows limit done line) :
    t.carriageReturn.linefeed.Typed cols rows limit (done ++ [⟨line, false⟩]) [] := by
  obtain ⟨hpage, hcol, hpending⟩ := h.page.carriageReturn.linefeed
  refine typed_of_page h.two_le ?_ hcol hpending
  rw [List.map_append]
  exact hpage

end Typed

/-- A terminal behind some segments, the last of which may still be open. -/
def Shows (cols rows limit : Nat) (segments : List Segment) (t : Terminal) : Prop :=
  ∃ done line, segments = done ++ [⟨line, false⟩] ∧ t.Typed cols rows limit done line

/-- The rows of the screen are the last of the segments, and those of the history the ones before
    them, as many as it keeps. -/
theorem Shows.rows {cols rows limit : Nat} {segments : List Segment} {t : Terminal}
    (h : t.Shows cols rows limit segments) :
    t.screen.grid.toList
      = (segments.drop (segments.length - rows)).map (draw cols)
        ++ List.replicate (rows - segments.length) (Row.empty cols) ∧
    t.screen.history.toList
      = ((segments.take (segments.length - rows)).drop
          (segments.length - rows - limit)).map (draw cols) := by
  obtain ⟨done, line, rfl, htyped⟩ := h
  have hpos := htyped.page.rows_pos
  have hlength : (done ++ [(⟨line, false⟩ : Segment)]).length = done.length + 1 :=
    List.length_append
  have hle : done.length + 1 - rows ≤ done.length := by omega
  rw [htyped.page.plain.screen, hlength]
  constructor
  · rw [htyped.page.primary.grid, List.length_map, ← List.map_drop,
      List.drop_append_of_le_length hle, List.map_append, List.append_assoc]
    rfl
  · rw [htyped.page.primary.history, List.length_map, ← List.map_take, ← List.map_drop,
      List.take_append_of_le_length hle]

/-- A line that is printed goes on from the open segment as the greedy wrap has it. -/
theorem Typed.prints {cols rows limit : Nat} {done : List Segment} {line : List Char}
    {t : Terminal} (h : t.Typed cols rows limit done line) {cs : List Char}
    (hcs : ∀ c ∈ cs, Width.Shown c) :
    (cs.foldl Terminal.print t).Shows cols rows limit (done ++ wrapFrom cols line cs) := by
  induction cs generalizing done line t with
  | nil => exact ⟨done, line, rfl, h⟩
  | cons c cs ih =>
      have hc := hcs c List.mem_cons_self
      have hrest : ∀ d ∈ cs, Width.Shown d := fun d hd => hcs d (List.mem_cons_of_mem c hd)
      rw [List.foldl_cons]
      by_cases hfits : Width.total line + Width.columns c ≤ cols
      · rw [Segment.wrapFrom_of_fits hfits]
        exact ih (h.print_of_fits hc hfits) hrest
      · rw [Segment.wrapFrom_of_not_fits hfits, List.append_cons]
        exact ih (h.print_of_not_fits hc hfits) hrest

end Terminal

/-! ## Lines -/

theorem Width.Shown.prints {c : Char} (h : Shown c) : Decoder.Prints c := by
  have hcontrol := h.not_control
  simp only [isControl, Bool.or_eq_false_iff, Bool.and_eq_false_iff, decide_eq_false_iff_not]
    at hcontrol
  exact ⟨by omega, by omega⟩

namespace Emulator

/-- A carriage return and a linefeed, as text. -/
def lineBreak : List Char := ['\r', '\n']

variable {cols rows limit : Nat} {done : List Segment} {line : List Char} {e : Emulator}

theorem write_append (e : Emulator) (xs ys : List UInt8) :
    (e.write (xs ++ ys)).decoder = ((e.write xs).write ys).decoder ∧
    (e.write (xs ++ ys)).terminal = ((e.write xs).write ys).terminal := by
  obtain ⟨hdecoder, hterminal, -⟩ := foldl_write e [xs, ys]
  have hflatten : [xs, ys].flatten = xs ++ ys := by
    rw [List.flatten_cons, List.flatten_singleton]
  rw [hflatten] at hdecoder hterminal
  exact ⟨(write_decoder e _).trans hdecoder.symm, (write_terminal e _).trans hterminal.symm⟩

/-- Text that is written between units is printed. -/
theorem write_encode (he : e.decoder = .ground) {cs : List Char}
    (hcs : ∀ c ∈ cs, Decoder.Prints c) :
    (e.write (Utf8.encode cs)).decoder = .ground ∧
    (e.write (Utf8.encode cs)).terminal = cs.foldl Terminal.print e.terminal := by
  rw [write_decoder, write_terminal, digest, he, Decoder.run_step_encode hcs,
    Terminal.run_absorb_glyphs]
  exact ⟨rfl, rfl⟩

theorem write_lineBreak (he : e.decoder = .ground) :
    (e.write (Utf8.encode lineBreak)).decoder = .ground ∧
    (e.write (Utf8.encode lineBreak)).terminal = e.terminal.carriageReturn.linefeed := by
  rw [write_decoder, write_terminal, digest, he]
  exact ⟨rfl, rfl⟩

/-- Lines that are written where a row begins stand under what is there. -/
theorem write_lines (hdecoder : e.decoder = .ground)
    (hterminal : e.terminal.Typed cols rows limit done []) {first : List Char}
    {rest : List (List Char)} (hshown : ∀ l ∈ first :: rest, ∀ c ∈ l, Width.Shown c) :
    (e.write (Utf8.encode (lineBreak.intercalate (first :: rest)))).terminal.Shows cols rows limit
      (done ++ (first :: rest).flatMap (wrap cols)) := by
  induction rest generalizing e done first with
  | nil =>
      have hfirst := hshown first List.mem_cons_self
      rw [List.intercalate_singleton, List.flatMap_singleton,
        (write_encode hdecoder fun c hc => (hfirst c hc).prints).2]
      exact hterminal.prints hfirst
  | cons second rest ih =>
      have hfirst := hshown first List.mem_cons_self
      obtain ⟨hdecoder1, hterminal1⟩ :=
        write_encode hdecoder fun c hc => (hfirst c hc).prints
      obtain ⟨hdecoder2, hterminal2⟩ := write_lineBreak hdecoder1
      obtain ⟨done1, line1, hdone1, htyped1⟩ := hterminal.prints hfirst
      rw [← hterminal1] at htyped1
      have htyped2 := htyped1.newline
      rw [← hterminal2, ← hdone1] at htyped2
      have hrest := ih hdecoder2 htyped2 fun l hl => hshown l (List.mem_cons_of_mem first hl)
      have hencode : Utf8.encode (lineBreak.intercalate (first :: second :: rest))
          = Utf8.encode first ++ (Utf8.encode lineBreak
            ++ Utf8.encode (lineBreak.intercalate (second :: rest))) := by
        rw [List.intercalate_cons_cons]
        simp only [Utf8.encode]
        rw [List.flatMap_append, List.flatMap_append, List.append_assoc]
      rw [hencode, (write_append e _ _).2, (write_append _ _ _).2, List.flatMap_cons,
        ← List.append_assoc]
      exact hrest

/-- **Lines stand on the screen as the greedy wrap has them.**  On a new terminal of at least two
    columns, whatever the number of rows and the limit of the history, lines of characters of one
    or two columns come out as the rows into which they wrap: the last of these rows on the grid,
    with empty rows below them if there is room, and of the others the newest in the history, up to
    its limit.  Rows are marked where their line goes on, and joining the rows there gives the
    lines, up to blanks if only the cells are known. -/
theorem write_intercalate {size : Size} (hsize : size.isValid = true) (hcols : 2 ≤ size.cols)
    (limit : Nat) (sgr21 : Sgr21) {lines : List (List Char)}
    (hshown : ∀ line ∈ lines, ∀ c ∈ line, Width.columns? c = some 1 ∨ Width.columns? c = some 2) :
    ∃ e, create size limit sgr21 = .ok e ∧
      let screen := (e.write (Utf8.encode (List.intercalate ['\r', '\n'] lines))).terminal.screen
      let wrapped := lines.flatMap (wrap size.cols)
      let above := wrapped.length - size.rows
      screen.grid.toList
        = (wrapped.drop above).map (draw size.cols)
          ++ List.replicate (size.rows - wrapped.length) (Row.empty size.cols) ∧
      screen.history.toList
        = ((wrapped.take above).drop (above - limit)).map (draw size.cols) ∧
      joinWrapped Segment.glyphs Segment.continues wrapped = lines ∧
      (joinWrapped (fun r => r.text.toList) Row.wrapped
        (wrapped.map (draw size.cols))).map withoutBlanks = lines.map withoutBlanks := by
  refine ⟨_, create_of_valid hsize limit sgr21, ?_⟩
  have hrows : 0 < size.rows := by
    simp only [Size.isValid, Bool.and_eq_true, decide_eq_true_eq] at hsize
    omega
  have htyped := Terminal.typed_new hcols hrows limit sgr21
  have hjoined := joinWrapped_wrap size.cols lines
  have hdrawn := joinWrapped_draw size.cols lines
  cases lines with
  | nil =>
      have hnothing : (write { terminal := Terminal.new size.cols size.rows limit sgr21 }
          (Utf8.encode (List.intercalate ['\r', '\n'] []))).terminal
            = Terminal.new size.cols size.rows limit sgr21 := by
        rw [List.intercalate_nil, write_terminal]
        rfl
      rw [List.flatMap_nil] at hjoined hdrawn ⊢
      refine ⟨?_, ?_, hjoined, hdrawn⟩
      · rw [hnothing, List.drop_nil]
        exact Array.toList_replicate
      · rw [hnothing, List.take_nil, List.drop_nil]
        rfl
  | cons first rest =>
      obtain ⟨hgrid, hhistory⟩ := (write_lines
        (e := { terminal := Terminal.new size.cols size.rows limit sgr21 }) rfl htyped hshown).rows
      exact ⟨hgrid, hhistory, hjoined, hdrawn⟩

/-- A wide character that does not fit into the last column, and a history of one row. -/
theorem write_intercalate_wide :
    (Size.mk 3 2).isValid = true ∧ 2 ≤ (Size.mk 3 2).cols ∧
    (∀ line ∈ [['a', 'b', '日', 'x'], [], ['y']], ∀ c ∈ line,
      Width.columns? c = some 1 ∨ Width.columns? c = some 2) ∧
    ∃ e, create ⟨3, 2⟩ 1 .cancelBold = .ok e ∧
      let screen := (e.write (Utf8.encode
        (List.intercalate ['\r', '\n'] [['a', 'b', '日', 'x'], [], ['y']]))).terminal.screen
      screen.grid.toList = [draw 3 ⟨[], false⟩, draw 3 ⟨['y'], false⟩] ∧
      screen.history.toList = [draw 3 ⟨['日', 'x'], false⟩] := by
  have hshown : ∀ line ∈ [['a', 'b', '日', 'x'], [], ['y']], ∀ c ∈ line,
      Width.columns? c = some 1 ∨ Width.columns? c = some 2 := by
    have hcolumns : Width.columns? 'a' = some 1 ∧ Width.columns? 'b' = some 1 ∧
        Width.columns? '日' = some 2 ∧ Width.columns? 'x' = some 1 ∧
        Width.columns? 'y' = some 1 := by decide +kernel
    simp [hcolumns]
  have hwrapped : [['a', 'b', '日', 'x'], [], ['y']].flatMap (wrap 3)
      = [⟨['a', 'b'], true⟩, ⟨['日', 'x'], false⟩, ⟨[], false⟩, ⟨['y'], false⟩] := by decide +kernel
  obtain ⟨e, he, hgrid, hhistory, -⟩ :=
    @write_intercalate ⟨3, 2⟩ (by decide) (by decide) 1 .cancelBold _ hshown
  refine ⟨by decide, by decide, hshown, e, he, ?_, ?_⟩
  · rw [hgrid, hwrapped]
    rfl
  · rw [hhistory, hwrapped]
    rfl

end Emulator

end VideoTerminal
