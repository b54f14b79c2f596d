import VideoTerminal.Proofs.CombiningMarks
import VideoTerminal.Proofs.EveryRow
import VideoTerminal.Proofs.HeldLinks

/-!
# Where cells come from

A cell with a link was either there before a message, and has at most got marks since, or the
message has printed it.  What else appears on a screen, by erasing, by scrolling or at the edge of a
larger one, has no link.  And what is printed has the link that was open, in all the columns that it
takes.

The property of a cell to be one of these is kept by all that is done to a row, and so it is carried
to messages as any other property of rows.
-/

namespace VideoTerminal

/-! ## Properties of cells -/

/-- A property of cells that holds of blanks and of what is written, and that marks do not end. -/
structure Cell.Kept (Ink Q : Cell → Prop) : Prop where
  unlinked {c : Cell} : c.link = 0 → Q c
  written {c : Cell} : Ink c → Q c
  marked {c : Cell} (marks : List Char) : Q c → Q { c with marks }

/-- If all cells of a row have it, they still do behind anything that is done to the row. -/
theorem Row.lastingErased_fits {Ink Q : Cell → Prop} (hQ : Cell.Kept Ink Q) :
    Row.LastingErased Ink fun cols r => r.Fits Q cols where
  size h := h.size
  filled hb cols := fits_filled (hQ.unlinked hb.unlinked) cols
  wrapped h := h.markWrapped
  modify hf col h := by
    refine h.modify (fun c hc => ?_) col
    obtain ⟨marks, hmarks⟩ := hf c
    rw [hmarks]
    exact hQ.marked marks hc
  write hb hg hk _ _ _ _ h :=
    h.write _ (hQ.unlinked hb.unlinked) (hQ.written hg) (hQ.written hk)
  insert hb _ n h := h.insert (hQ.unlinked hb.unlinked) _ n
  delete hb _ n h := h.delete (hQ.unlinked hb.unlinked) _ n
  resize n h := h.resize (fun _ => hQ.unlinked rfl) n
  erase hb start stop selective h := h.erase (hQ.unlinked hb.unlinked) start stop selective

/-- The cells of a screen are those of its rows. -/
theorem Screen.mem_cells {s : Screen} {c : Cell} :
    c ∈ s.cells ↔ ∃ r, (r ∈ s.grid ∨ r ∈ s.history.toList) ∧ c ∈ r.cells := by
  rw [cells, List.mem_flatMap]
  refine exists_congr fun r => ?_
  exact and_congr (List.mem_append.trans (or_congr Array.mem_toList_iff Iff.rfl))
    Array.mem_toList_iff

namespace Terminal

variable {limit : Nat} {t : Terminal} {Q : Cell → Prop}

/-- What holds of the cells of all rows holds of all cells. -/
theorem RowsHold.forall_cells (h : t.RowsHold fun cols r => r.Fits Q cols) :
    ∀ c ∈ t.cells, Q c := by
  have hscreen : ∀ {s : Screen}, s.RowsHold (fun cols r => r.Fits Q cols) t.cols →
      ∀ c ∈ s.cells, Q c := by
    intro s hs c hc
    obtain ⟨r, hr, hc⟩ := Screen.mem_cells.mp hc
    rcases hr with hr | hr
    · exact (hs.grid r hr).each c hc
    · exact (hs.history r hr).each c hc
  intro c hc
  rcases List.mem_append.mp hc with hc | hc
  · exact hscreen h.primary c hc
  · exact hscreen h.alternate c hc

/-- On a well-formed terminal what holds of all cells holds of all rows. -/
theorem WellFormed.rowsHold (h : t.WellFormed limit) (hcells : ∀ c ∈ t.cells, Q c) :
    t.RowsHold fun cols r => r.Fits Q cols := by
  have hscreen : ∀ {s : Screen} {region : Region} {n : Nat},
      s.WellFormed Cell.FewMarks t.cols t.rows region n → (∀ c ∈ s.cells, Q c) →
      s.RowsHold (fun cols r => r.Fits Q cols) t.cols := by
    intro s region n hs hQ
    have hrow : ∀ r, r ∈ s.grid ∨ r ∈ s.history.toList → ∀ c ∈ r.cells, Q c :=
      fun r hr c hc => hQ c (Screen.mem_cells.mpr ⟨r, hr, hc⟩)
    exact {
      cols_eq := hs.cols_eq
      grid := fun r hr => ⟨(hs.grid.each r hr).size, hrow r (.inl hr)⟩
      history := fun r hr => ⟨(hs.history r hr).size, hrow r (.inr hr)⟩ }
  exact ⟨hscreen h.primary fun c hc => hcells c (List.mem_append_left _ hc),
    hscreen h.alternate fun c hc => hcells c (List.mem_append_right _ hc)⟩

/-! ## Cells behind a message -/

/-- A cell that a message prints: that of one of its characters as the pen draws it, or the second
half of a wide one. -/
def Draws (t : Terminal) (m : Message) (x : Cell) : Prop :=
  ∃ c ∈ t.drawn m, (∃ width, x = t.glyph (t.charsets.glyph c) width) ∨ x = t.glyph ' ' 0

/-- A cell without a link, or one of the terminal or of those that are written, with any marks. -/
def Stems (t : Terminal) (Ink : Cell → Prop) (x : Cell) : Prop :=
  x.link = 0 ∨ ∃ y, (y ∈ t.cells ∨ Ink y) ∧ x = { y with marks := x.marks }

theorem kept_stems (t : Terminal) (Ink : Cell → Prop) : Cell.Kept Ink (t.Stems Ink) where
  unlinked := Or.inl
  written {c} hc := Or.inr ⟨c, Or.inr hc, rfl⟩
  marked {c} marks hc := by
    rcases hc with hzero | ⟨y, hy, hsame⟩
    · exact Or.inl hzero
    · refine Or.inr ⟨y, hy, ?_⟩
      rw [hsame]

/-- To begin with, all cells are those of the terminal. -/
theorem WellFormed.rowsHold_stems (h : t.WellFormed limit) (Ink : Cell → Prop) :
    t.RowsHold fun cols r => r.Fits (t.Stems Ink) cols :=
  h.rowsHold fun c hc => Or.inr ⟨c, Or.inl hc, rfl⟩

/-- **No link but by printing.**  A cell behind a message has no link, or it is one that was there
    before or that the message prints, but for marks. -/
theorem WellFormed.stems_apply (h : t.WellFormed limit) (m : Message) :
    ∀ x ∈ (t.apply m).1.cells, t.Stems (t.Draws m) x := by
  have hcursor : t.CursorRowsHold fun cols r => r.Fits (t.Stems (t.Draws m)) cols :=
    ⟨h.rowsHold_stems _, h.cursor.2⟩
  refine (hcursor.apply (Row.lastingErased_fits (t.kept_stems _)) m ?_).forall_cells
  intro c hc
  exact ⟨fun width => ⟨c, hc, Or.inl ⟨width, rfl⟩⟩, ⟨c, hc, Or.inr rfl⟩⟩

/-- A change of size brings in no link. -/
theorem WellFormed.stems_resize (h : t.WellFormed limit) (cols rows : Nat) :
    ∀ x ∈ (t.resize cols rows).cells, t.Stems (fun _ => False) x := by
  have hlasting := Row.lastingErased_fits (t.kept_stems fun _ => False)
  exact ((h.rowsHold_stems _).resize hlasting.toLasting cols rows).forall_cells

/-! ## What is printed -/

/-- A character that is printed has the open link in each of its columns. -/
theorem WellFormed.link_print (h : t.WellFormed limit) {c : Char} {width : Nat}
    (hc : Width.columns? (t.charsets.glyph c) = some width) (hwidth : width = 1 ∨ width = 2)
    (hfits : width ≤ t.cols) {col : Nat} (hle : t.landingColumn width ≤ col)
    (hlt : col < t.landingColumn width + width) :
    ∃ x, (t.print c).screen.cell? (t.print c).cursor.row col = some x ∧ x.link = t.openLink := by
  obtain ⟨hfirst, hsecond⟩ := cell?_place h hwidth hfits (t.charsets.glyph c)
  rw [print_eq_place hc hwidth hfits]
  by_cases hcol : col = t.landingColumn width
  · rw [hcol]
    exact ⟨_, hfirst, rfl⟩
  · have htwo : width = 2 ∧ col = t.landingColumn width + 1 := by omega
    rw [htwo.2]
    exact ⟨_, hsecond htwo.1, rfl⟩

end Terminal

end VideoTerminal
