import Mathlib.Logic.Relation
import VideoTerminal.Proofs.Machine
import VideoTerminal.Proofs.Printing

/-!
# What messages do to the cursors

A terminal has up to four cursors: the one in use, the one put aside for the primary screen, and a
saved one for each screen, with a pen of its own.  Whatever a message does on the screens, to these
it does one of a few things, or several of them in turn.  They are the constructors of
`Cursors.Step`, and `steps_apply` says that a message makes such steps only.

So what is to be shown of all cursors after all messages has to be shown of a step: that is
`Cursors.Kept`.
-/

namespace VideoTerminal

/-- The cursors of a terminal, its width, and the pen in use. -/
structure Cursors where
  cols : Nat
  current : Cursor := {}
  putAside : Option Cursor := none
  savedPrimary : Option SavedCursor := none
  savedAlternate : Option SavedCursor := none
  pen : Rendition := {}

namespace Cursors

/-- A saved cursor has the column, the due wrap and the pen that are in use. -/
structure Snapshot (x : Cursors) (s : SavedCursor) : Prop where
  col : s.col = x.current.col
  pendingWrap : s.pendingWrap = x.current.pendingWrap
  pen : s.pen = x.pen

/-- One thing that is done to the cursors. -/
inductive Step : Cursors → Cursors → Prop where
  /-- The cursor goes to a place, where a wrap is due in the last column at most. -/
  | move {x : Cursors} {c : Cursor} :
      (c.pendingWrap = true → x.cols ≤ c.col + 1) → Step x { x with current := c }
  | style {x : Cursors} (style : CursorStyle) :
      Step x { x with current := { x.current with style } }
  | select {x : Cursors} (policy : Sgr21) (params : Params) :
      Step x { x with pen := Rendition.select policy params x.pen }
  | plain {x : Cursors} : Step x { x with pen := {} }
  | savePrimary {x : Cursors} {s : SavedCursor} :
      x.Snapshot s → Step x { x with savedPrimary := some s }
  | saveAlternate {x : Cursors} {s : SavedCursor} :
      x.Snapshot s → Step x { x with savedAlternate := some s }
  /-- A saved cursor comes back, with its wrap due only if it is in the column that was saved. -/
  | restore {x : Cursors} {s : SavedCursor} {c : Cursor} :
      (s ∈ x.savedPrimary ∨ s ∈ x.savedAlternate) →
      (c.pendingWrap = true → s.pendingWrap = true ∧ c.col = s.col) →
      Step x { x with current := c, pen := s.pen }
  | putAside {x : Cursors} : Step x { x with putAside := some x.current }
  | takeBack {x : Cursors} :
      Step x { x with current := x.putAside.getD x.current, putAside := none }
  | forget {x : Cursors} : Step x { x with savedPrimary := none, savedAlternate := none }
  | renew {x : Cursors} : Step x { cols := x.cols }

/-- What every step keeps. -/
def Kept (P : Cursors → Prop) : Prop := ∀ {x y : Cursors}, x.Step y → P x → P y

end Cursors

namespace Terminal

variable {t : Terminal} {x : Cursors}

/-- The cursors of a terminal. -/
def cursors (t : Terminal) : Cursors where
  cols := t.cols
  current := t.cursor
  putAside := t.primaryCursor
  savedPrimary := t.primarySaved
  savedAlternate := t.alternateSaved
  pen := t.pen

/-- What is done to the screen leaves all cursors alone. -/
theorem cursors_onScreen (t : Terminal) (f : Screen → Screen) :
    (t.onScreen f).cursors = t.cursors := by
  rw [onScreen]
  split <;> rfl

/-- Steps lead from some cursors to those of the terminal. -/
def CursorsFrom (x : Cursors) (t : Terminal) : Prop :=
  Relation.ReflTransGen Cursors.Step x t.cursors

namespace CursorsFrom

/-- Where a terminal comes to by steps of its cursors does not depend on the screen, or on the
    cursor where no wrap is due. -/
theorem settled (x : Cursors) : Settled (CursorsFrom x) where
  onScreen := by
    intro t f h
    rw [CursorsFrom, cursors_onScreen]
    exact h
  settle := by
    intro t f hsettled h
    refine h.tail (.move fun hpending => ?_)
    exact absurd (hsettled.symm.trans hpending) Bool.false_ne_true

/-- What makes steps only, made several times, makes steps only. -/
theorem foldl {α : Type} {f : Terminal → α → Terminal}
    (hf : ∀ {t : Terminal} (a : α), t.CursorsFrom x → (f t a).CursorsFrom x)
    (h : t.CursorsFrom x) (as : List α) : (as.foldl f t).CursorsFrom x :=
  List.foldlRecOn as f h fun _ ht a _ => hf a ht

/-- A motion is one step, with no wrap due. -/
theorem moveTo (h : t.CursorsFrom x) (row col : Nat) : (t.moveTo row col).CursorsFrom x :=
  (settled x).moveTo h

/-- A motion to a position is one step. -/
theorem setPosition (h : t.CursorsFrom x) (row col : Nat) :
    (t.setPosition row col).CursorsFrom x := h.moveTo _ _

/-! ## Printing -/

/-- A character that is placed moves the cursor, and leaves a wrap due in the last column only. -/
theorem place (h : t.CursorsFrom x) (c : Char) (width : Nat) :
    (t.place c width).CursorsFrom x := by
  have hothers : { (t.place c width).cursors with current := {} }
      = { t.cursors with current := {} } :=
    surroundings_congr (fun u => { u.cursors with current := {} }) (fun _ => rfl)
      (t.place_surroundings c width)
  have hcursors : (t.place c width).cursors
      = { t.cursors with current := (t.place c width).cursor } :=
    congrArg (fun y : Cursors => { y with current := (t.place c width).cursor }) hothers
  rw [CursorsFrom, hcursors]
  refine h.tail (.move ?_)
  rw [place_cursor]
  split
  · intro _
    show t.cols ≤ t.cols - 1 + 1
    omega
  · exact nofun

/-- A printed character is a mark or has a place. -/
theorem print (h : t.CursorsFrom x) (c : Char) : (t.print c).CursorsFrom x :=
  (settled x).print (fun c width ht => ht.place c width) h c

/-- Repeating prints several times. -/
theorem repeatLast (h : t.CursorsFrom x) (n : Nat) : (t.repeatLast n).CursorsFrom x :=
  (settled x).repeatLast (fun c width ht => ht.place c width) h n

/-! ## Saved cursors -/

/-- A saved cursor is that in use, with its pen. -/
theorem saveCursor (h : t.CursorsFrom x) : t.saveCursor.CursorsFrom x := by
  have hsnapshot : t.cursors.Snapshot t.snapshot := ⟨rfl, rfl, rfl⟩
  rw [Terminal.saveCursor]
  split
  · exact h.tail (.saveAlternate hsnapshot)
  · exact h.tail (.savePrimary hsnapshot)

/-- A restored cursor is that of the shown screen, cut to the grid; without one it is a new one. -/
theorem restoreCursor (h : t.CursorsFrom x) : t.restoreCursor.CursorsFrom x := by
  rw [Terminal.restoreCursor]
  split
  · rename_i s hs
    have hsaved : s ∈ t.primarySaved ∨ s ∈ t.alternateSaved := by
      rw [savedCursor?] at hs
      split at hs
      · exact .inr hs
      · exact .inl hs
    refine h.tail (.restore hsaved fun hpending => ?_)
    obtain ⟨hdue, hcol⟩ : s.pendingWrap = true ∧ s.col < t.cols := by
      simpa [restore] using hpending
    exact ⟨hdue, Nat.min_eq_left (Nat.le_sub_one_of_lt hcol)⟩
  · exact (h.moveTo 0 0).tail .plain

/-- The position of the second kind of saving comes back without a due wrap. -/
theorem restorePlace (h : t.CursorsFrom x) : t.restorePlace.CursorsFrom x := by
  rw [Terminal.restorePlace]
  split
  · exact h.moveTo _ _
  · exact h

/-! ## Regions and resets -/

/-- Setting the region moves the cursor home. -/
theorem setScrollRegion (h : t.CursorsFrom x) (top bottom : Nat) :
    (t.setScrollRegion top bottom).CursorsFrom x := by
  rw [Terminal.setScrollRegion]
  generalize (if bottom = 0 then t.rows else min bottom t.rows) = stop
  dsimp only
  split
  · exact h
  · refine setPosition ?_ 0 0
    exact h

/-- The alignment pattern moves it home too. -/
theorem screenAlignment (h : t.CursorsFrom x) : t.screenAlignment.CursorsFrom x :=
  ((settled x).onScreen (t := t.resetRegions) h).setPosition 0 0

/-- A soft reset forgets what was saved and takes a plain pen. -/
theorem softReset (h : t.CursorsFrom x) : t.softReset.CursorsFrom x :=
  (((settled x).clearPending h).tail .plain).tail .forget

/-- A full reset leaves the width only. -/
theorem fullReset (h : t.CursorsFrom x) : t.fullReset.CursorsFrom x := h.tail .renew

/-! ## Modes -/

/-- Switching the origin mode moves the cursor home. -/
theorem setMode (h : t.CursorsFrom x) (mode : Nat) (on : Bool) :
    (t.setMode mode on).CursorsFrom x := by
  simp only [Terminal.setMode]
  split <;> exact h

/-- The alternate screen is entered with the cursor put aside. -/
theorem enterAlternate (h : t.CursorsFrom x) (clear : Bool) :
    (t.enterAlternate clear).CursorsFrom x := by
  rw [Terminal.enterAlternate]
  split
  · exact h
  · cases clear <;> exact h.tail .putAside

/-- It is left with the cursor taken back. -/
theorem exitAlternate (h : t.CursorsFrom x) (clear : Bool) :
    (t.exitAlternate clear).CursorsFrom x := by
  rw [Terminal.exitAlternate]
  split
  · cases clear <;> exact h.tail .takeBack
  · exact h

/-- One case for each private mode: some of them move, save or restore the cursor. -/
theorem switch (h : t.CursorsFrom x) (mode : PrivateMode) (on : Bool) :
    (t.switch mode on).CursorsFrom x := by
  cases mode with
  | origin => exact setPosition (t := t.onModes _) h 0 0
  | cursorBlinking => exact h.tail (.style _)
  | alternateScreen =>
      cases on with
      | true => exact h.enterAlternate false
      | false => exact h.exitAlternate false
  | blankAlternateScreen =>
      cases on with
      | true => exact h.enterAlternate true
      | false => exact h.exitAlternate true
  | savedCursor =>
      cases on with
      | true => exact h.saveCursor
      | false => exact h.restoreCursor
  | alternateScreenAndCursor =>
      rw [Terminal.switch]
      split
      · split
        · exact h
        · exact h.saveCursor.enterAlternate true
      · split
        · exact (h.exitAlternate false).restoreCursor
        · exact h
  | _ => exact h

/-- A number that stands for no mode does nothing. -/
theorem setPrivateMode (h : t.CursorsFrom x) (mode : Nat) (on : Bool) :
    (t.setPrivateMode mode on).CursorsFrom x := by
  rw [Terminal.setPrivateMode]
  split
  · exact h.switch _ on
  · exact h

/-- Values that are saved are no cursors. -/
theorem savePrivateMode (h : t.CursorsFrom x) (mode : Nat) :
    (t.savePrivateMode mode).CursorsFrom x := by
  rw [Terminal.savePrivateMode]
  split <;> exact h

/-- A mode is restored by switching it. -/
theorem restorePrivateMode (h : t.CursorsFrom x) (mode : Nat) :
    (t.restorePrivateMode mode).CursorsFrom x := by
  rw [Terminal.restorePrivateMode]
  split
  · exact h.setPrivateMode mode _
  · exact h

/-! ## Titles, tab stops and the style of the cursor -/

/-- Stops do not move the cursor. -/
theorem clearTabStop (h : t.CursorsFrom x) (extent : Nat) :
    (t.clearTabStop extent).CursorsFrom x := by
  simp only [Terminal.clearTabStop]
  split <;> exact h

/-- Operations on the window do not either. -/
theorem applyWindowOperation (h : t.CursorsFrom x) (args : List Nat) :
    (t.applyWindowOperation args).1.CursorsFrom x := by
  rw [Terminal.applyWindowOperation]
  split
  · exact h
  · exact h
  · rw [Terminal.popTitle?]
    cases t.titleStack <;> exact h
  · exact h

/-- The style of the cursor is all that changes. -/
theorem setCursorStyle (h : t.CursorsFrom x) (n : Nat) : (t.setCursorStyle n).CursorsFrom x := by
  rw [Terminal.setCursorStyle]
  split
  · exact h.tail (.style _)
  · exact h

/-! ## Messages -/

/-- Controls move the cursor. -/
theorem applyControl (h : t.CursorsFrom x) (b : UInt8) : (t.applyControl b).1.CursorsFrom x := by
  rw [Terminal.applyControl]
  split
  · exact h
  split
  · exact (settled x).backspace h
  split
  · exact h.moveTo _ _
  split
  · exact (settled x).linefeed h
  split
  · exact h.moveTo _ _
  repeat' split
  all_goals exact h

/-- One case for each control function. -/
theorem applyFunction (h : t.CursorsFrom x) (f : ControlFunction) :
    (t.applyFunction f).1.CursorsFrom x := by
  cases f with
  | cursorUp n => exact h.moveTo _ _
  | cursorDown n => exact h.moveTo _ _
  | cursorForward n => exact h.moveTo _ _
  | cursorBackward n => exact h.moveTo _ _
  | nextLine n => exact (h.moveTo _ _).moveTo _ _
  | precedingLine n => exact (h.moveTo _ _).moveTo _ _
  | cursorColumn col => exact h.moveTo _ _
  | cursorRow row => exact h.moveTo _ _
  | cursorPosition row col => exact h.moveTo _ _
  | forwardTab n => exact h.moveTo _ _
  | backwardTab n => exact h.moveTo _ _
  | eraseInDisplay extent selective => exact (settled x).eraseInDisplay h extent selective
  | eraseInLine extent selective => exact (settled x).eraseInLine h extent selective
  | eraseChars n => exact (settled x).eraseChars h n
  | scrollUp n => exact (settled x).scroll h n .up
  | scrollDown n => exact (settled x).scroll h n .down
  | insertLines n => exact (settled x).shiftFromCursor h n .down
  | deleteLines n => exact (settled x).shiftFromCursor h n .up
  | insertChars n => exact (settled x).insertChars h n
  | deleteChars n => exact (settled x).deleteChars h n
  | repeatLast n => exact h.repeatLast n
  | clearTab extent => exact h.clearTabStop extent
  | setMode modes on => exact h.foldl (fun mode ht => ht.setMode mode on) modes
  | setPrivateMode modes on => exact h.foldl (fun mode ht => ht.setPrivateMode mode on) modes
  | savePrivateModes modes => exact h.foldl (fun mode ht => ht.savePrivateMode mode) _
  | restorePrivateModes modes => exact h.foldl (fun mode ht => ht.restorePrivateMode mode) _
  | setScrollRegion top bottom => exact h.setScrollRegion top bottom
  | restoreCursor => exact h.restorePlace
  | windowOperation args => exact h.applyWindowOperation args
  | cursorStyle n => exact h.setCursorStyle n
  | softReset => exact h.softReset
  | deviceStatus request =>
      rw [applyFunction_deviceStatus]
      exact h
  | privateDeviceStatus request =>
      rw [applyFunction_privateDeviceStatus]
      exact h
  | _ => exact h

/-- System commands do not reach the cursor. -/
theorem sameScreens (h : t.CursorsFrom x) {u : Terminal} (hu : t.SameScreens u) :
    u.CursorsFrom x := by
  obtain ⟨_, _, _, _, _, _, rfl⟩ := hu
  exact h

/-- Neither does the choice of a charset. -/
theorem designate (h : t.CursorsFrom x) (slot : CharsetSlot) (b : UInt8) :
    (t.designate slot b).CursorsFrom x := by
  rw [Terminal.designate]
  split <;> exact h

/-- One case for each escape sequence. -/
theorem applyEscape (h : t.CursorsFrom x) (sequence : List UInt8) :
    (t.applyEscape sequence).CursorsFrom x := by
  rw [Terminal.applyEscape]
  split
  · exact h.saveCursor
  · exact h.restoreCursor
  · exact (settled x).index h
  · exact (settled x).index (h.moveTo _ _)
  · exact (settled x).reverseIndex h
  · exact h
  · exact h.fullReset
  · exact h
  · exact h
  · exact h.screenAlignment
  · exact h.designate _ _
  · exact h.designate _ _
  · exact h

/-- **A message makes steps only.** -/
theorem apply (h : t.CursorsFrom x) (m : Message) : (t.apply m).1.CursorsFrom x := by
  cases m with
  | print text => exact h.foldl (fun c ht => ht.print c) text
  | control b => exact h.applyControl b
  | sgr params => exact h.tail (.select t.sgr21 params)
  | csi marker params intermediates final => exact h.applyFunction _
  | osc code data ending => exact h.sameScreens (sameScreens_applyCommand t _ ending)
  | esc sequence => exact h.applyEscape sequence
  | dcs params intermediates final data => exact h

end CursorsFrom

/-- A message makes steps only. -/
theorem steps_apply (t : Terminal) (m : Message) :
    Relation.ReflTransGen Cursors.Step t.cursors (t.apply m).1.cursors :=
  CursorsFrom.apply .refl m

/-- What steps keep, messages keep. -/
theorem apply_kept {P : Cursors → Prop} (hP : Cursors.Kept P) (h : P t.cursors) (m : Message) :
    P (t.apply m).1.cursors := by
  have hsteps := t.steps_apply m
  generalize (t.apply m).1.cursors = y at hsteps ⊢
  induction hsteps with
  | refl => exact h
  | tail _ hstep ih => exact hP hstep ih

end Terminal

end VideoTerminal
