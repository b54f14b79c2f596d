import VideoTerminal.Proofs.Machine
import VideoTerminal.Proofs.TerminalShape

/-!
# Operations on the shown screen

Printing, erasing, scrolling and moving the cursor are made of two things: a change of the screen
that is shown, and a change of the cursor.  So a property that neither of these touches is not
touched by any of them, whatever it is about: the modes, say, or a screen that is not shown.

But for the character that is placed, all of them leave the cursor without a due wrap, or as it
was.  So a property that says nothing more of the cursor than where a wrap is due needs a proof for
that one only.

System commands do not even reach the shown screen or the cursor.
-/

namespace VideoTerminal.Terminal

/-- A property that is blind to the shown screen, and to the cursor where no wrap is due. -/
structure Settled (I : Terminal → Prop) : Prop where
  onScreen {t : Terminal} {f : Screen → Screen} : I t → I (t.onScreen f)
  settle {t : Terminal} {f : Cursor → Cursor} :
    (f t.cursor).pendingWrap = false → I t → I (t.onCursor f)

namespace Settled

variable {I : Terminal → Prop} (hI : Settled I) {t : Terminal}

include hI

/-! ## Motion -/

/-- A motion leaves no wrap due. -/
theorem moveTo (h : I t) {row col : Nat} : I (t.moveTo row col) := hI.settle rfl h

theorem clearPending (h : I t) : I t.clearPending := hI.settle rfl h

/-- So does a motion to a position, in origin mode or not. -/
theorem setPosition (h : I t) (row col : Nat) : I (t.setPosition row col) := hI.moveTo h

/-- One column back, or only the wrap given up. -/
theorem backspace (h : I t) : I t.backspace := by
  rw [Terminal.backspace]
  split
  · exact hI.clearPending h
  · exact hI.moveTo h

/-- A scroll changes the screen alone. -/
theorem scroll (h : I t) (n : Nat) (dir : Direction) : I (t.scroll n dir) := by
  dsimp only [Terminal.scroll]
  exact hI.onScreen h

/-- An index is a scroll or a motion. -/
theorem index (h : I t) : I t.index := by
  have hclear := hI.clearPending h
  dsimp only [Terminal.index]
  split
  · exact hI.scroll hclear 1 .up
  · split
    · exact hI.moveTo hclear
    · exact hclear

/-- So is a reverse index. -/
theorem reverseIndex (h : I t) : I t.reverseIndex := by
  have hclear := hI.clearPending h
  dsimp only [Terminal.reverseIndex]
  split
  · exact hI.scroll hclear 1 .down
  · exact hI.moveTo hclear

/-- A line feed may return the cursor too. -/
theorem linefeed (h : I t) : I t.linefeed := by
  dsimp only [Terminal.linefeed]
  split
  · exact hI.moveTo (hI.index h)
  · exact hI.index h

/-! ## Erasing, inserting and deleting -/

/-- A row of the cursor is one of the shown screen. -/
theorem onCursorRow (h : I t) {f : Row → Row} : I (t.onCursorRow f) := by
  dsimp only [Terminal.onCursorRow]
  exact hI.onScreen h

/-- Columns are erased in it. -/
theorem eraseColumns (h : I t) (start stop : Nat) (selective : Bool) :
    I (t.eraseColumns start stop selective) := by
  dsimp only [Terminal.eraseColumns]
  exact hI.onCursorRow h

/-- Rows are erased in the shown screen. -/
theorem eraseRows (h : I t) (first stop : Nat) (selective : Bool) :
    I (t.eraseRows first stop selective) := by
  dsimp only [Terminal.eraseRows]
  exact hI.onScreen h

theorem eraseInLine (h : I t) (extent : Nat) (selective : Bool) :
    I (t.eraseInLine extent selective) := by
  simp only [Terminal.eraseInLine]
  refine hI.clearPending ?_
  split
  · exact hI.eraseColumns h _ _ _
  · exact hI.eraseColumns h _ _ _
  · exact hI.eraseColumns h _ _ _
  · exact h

/-- Erasing in the display erases rows and columns. -/
theorem eraseInDisplay (h : I t) (extent : Nat) (selective : Bool) :
    I (t.eraseInDisplay extent selective) := by
  simp only [Terminal.eraseInDisplay]
  refine hI.clearPending ?_
  split
  · exact hI.eraseRows (hI.eraseInLine h 0 selective) _ _ _
  · exact hI.eraseInLine (hI.eraseRows h _ _ _) 1 selective
  · exact hI.eraseRows h _ _ _
  · exact hI.onScreen h
  · exact h

theorem eraseChars (h : I t) (n : Nat) : I (t.eraseChars n) :=
  hI.clearPending (hI.eraseColumns h _ _ _)

/-- Cells are inserted if the cursor is on the grid. -/
theorem insertChars (h : I t) (n : Nat) : I (t.insertChars n) := by
  dsimp only [Terminal.insertChars]
  split
  · exact hI.clearPending (hI.onCursorRow h)
  · exact h

/-- Cells are deleted if the cursor is on the grid. -/
theorem deleteChars (h : I t) (n : Nat) : I (t.deleteChars n) := by
  dsimp only [Terminal.deleteChars]
  split
  · exact hI.clearPending (hI.onCursorRow h)
  · exact h

/-- Lines are shifted if the cursor is in the region. -/
theorem shiftFromCursor (h : I t) (n : Nat) (dir : Direction) : I (t.shiftFromCursor n dir) := by
  dsimp only [Terminal.shiftFromCursor]
  split
  · exact h
  · exact hI.moveTo (hI.onScreen h)

/-! ## Printing -/

/-- A wrap marks a row and moves on. -/
theorem wrapLine (h : I t) : I t.wrapLine := hI.index (hI.moveTo (hI.onScreen h))

/-- A wrap that is due is taken or given up. -/
theorem takeWrap (h : I t) : I t.takeWrap := by
  rw [Terminal.takeWrap]
  split
  · exact hI.wrapLine h
  · exact h

/-- A gap is inserted. -/
theorem makeGap (h : I t) (width : Nat) : I (t.makeGap width) := by
  rw [Terminal.makeGap]
  split
  · exact hI.insertChars h width
  · exact h

/-- A glyph is written into the row. -/
theorem writeGlyph (h : I t) (c : Char) (width : Nat) : I (t.writeGlyph c width) := by
  dsimp only [Terminal.writeGlyph]
  exact hI.onCursorRow h

/-- A mark is added to a cell. -/
theorem addMark (h : I t) (c : Char) : I (t.addMark c) := by
  rw [Terminal.addMark]
  split
  · exact hI.onCursorRow h
  · exact h

/-- Only the character that is placed can make a wrap due. -/
theorem print (hplace : ∀ {t : Terminal} (c : Char) (width : Nat), I t → I (t.place c width))
    (h : I t) (c : Char) : I (t.print c) := by
  dsimp only [Terminal.print]
  split
  · exact h
  · exact hI.addMark h _
  · split
    · exact h
    · exact hplace _ _ h

/-- Repeating needs to be shown of the character that is placed only. -/
theorem repeatLast
    (hplace : ∀ {t : Terminal} (c : Char) (width : Nat), I t → I (t.place c width))
    (h : I t) (n : Nat) : I (t.repeatLast n) := by
  rw [Terminal.repeatLast]
  split
  · exact repeat_invariant (I := I) (fun _ ht => hI.print hplace ht _) h _
  · exact h

end Settled

/-- A property that is blind to the shown screen, the cursor, and what was printed last. -/
structure Blind (I : Terminal → Prop) : Prop extends Settled I where
  onCursor {t : Terminal} {f : Cursor → Cursor} : I t → I (t.onCursor f)
  printed {t : Terminal} {c : Option Char} : I t → I { t with lastPrinted := c }
  settle := fun _ h => onCursor h

namespace Blind

variable {I : Terminal → Prop} (hI : Blind I) {t : Terminal}

include hI

/-- Making room for a wide character may wrap. -/
theorem makeRoom (h : I t) (width : Nat) : I (t.makeRoom width) := by
  rw [Terminal.makeRoom]
  split
  · split
    · exact hI.wrapLine h
    · exact hI.onCursor h
  · exact h

/-- The cursor goes on, and a wrap may become due; a property that is blind to that is kept. -/
theorem advance (h : I t) (width : Nat) : I (t.advance width) := by
  dsimp only [Terminal.advance]
  exact hI.onCursor h

/-- Placing a character is made of these. -/
theorem place (h : I t) (c : Char) (width : Nat) : I (t.place c width) := by
  have hroom := hI.makeGap (hI.makeRoom (hI.takeWrap h) width) width
  exact hI.printed (hI.advance (hI.writeGlyph hroom c width) width)

/-- So is printing. -/
theorem print (h : I t) (c : Char) : I (t.print c) :=
  hI.toSettled.print (fun c width ht => hI.place ht c width) h c

/-- So is repeating. -/
theorem repeatLast (h : I t) (n : Nat) : I (t.repeatLast n) :=
  hI.toSettled.repeatLast (fun c width ht => hI.place ht c width) h n

end Blind

/-- The modes are not the shown screen. -/
theorem blind_modes (m : Modes) : Blind (·.modes = m) where
  onScreen := by
    intro t f h
    rw [onScreen]
    split <;> exact h
  onCursor := id
  printed := id

/-! ## System commands -/

/-- A terminal like another one, with titles, the open link and the two colors apart. -/
def SameScreens (t u : Terminal) : Prop :=
  ∃ title iconName openLink links foreground background,
    u = { t with title, iconName, openLink, links, foreground, background }

/-- A terminal has the screens it has. -/
theorem SameScreens.refl (t : Terminal) : t.SameScreens t := ⟨_, _, _, _, _, _, rfl⟩

/-- Having the same screens goes from one terminal to the next. -/
theorem SameScreens.trans {t u v : Terminal} (h : t.SameScreens u) (h' : u.SameScreens v) :
    t.SameScreens v := by
  obtain ⟨_, _, _, _, _, _, rfl⟩ := h
  obtain ⟨_, _, _, _, _, _, rfl⟩ := h'
  exact ⟨_, _, _, _, _, _, rfl⟩

/-- Setting a color leaves screens and cursor alone. -/
theorem sameScreens_applyColor (ending : StringEnd) (t : Terminal) (code : Nat)
    (spec : List Char) : t.SameScreens (applyColor ending t code spec).1 := by
  rw [applyColor]
  split
  · exact .refl t
  · split
    · dsimp only
      split <;> exact ⟨_, _, _, _, _, _, rfl⟩
    · exact .refl t

/-- So does setting several. -/
theorem sameScreens_applyColors (ending : StringEnd) (t : Terminal) (code : Nat)
    (specs : List (List Char)) : t.SameScreens (applyColors ending t code specs).1 := by
  induction specs generalizing t code with
  | nil => exact .refl t
  | cons spec specs ih =>
      rw [applyColors]
      split
      · exact .refl t
      · exact (sameScreens_applyColor ending t code spec).trans (ih _ (code + 1))

/-- No system command reaches the screens, a cursor or the modes. -/
theorem sameScreens_applyCommand (t : Terminal) (c : SystemCommand) (ending : StringEnd) :
    t.SameScreens (t.applyCommand c ending).1 := by
  cases c with
  | hyperlink id target =>
      simp only [applyCommand]
      split
      · exact ⟨_, _, _, _, _, _, rfl⟩
      · rw [openHyperlink]
        split <;> exact ⟨_, _, _, _, _, _, rfl⟩
  | dynamicColors first specs => exact sameScreens_applyColors ending t first specs
  | resetDynamicColor code =>
      rw [applyCommand_resetDynamicColor]
      dsimp only
      split <;> exact ⟨_, _, _, _, _, _, rfl⟩
  | _ => exact ⟨_, _, _, _, _, _, rfl⟩

end VideoTerminal.Terminal
