import VideoTerminal.Proofs.Marked
import VideoTerminal.Proofs.ScrollRegion

/-!
# Origin mode

In origin mode rows are counted from the top of the scroll region.  Whatever sends the cursor to a
row then sends it to a row of the region, whatever moves it up or down stops at the edges, and
whatever changes the region sends the cursor home.  So the cursor is confined to the region.

There are three ways out.  Restoring the saved cursor, going back to the saved place and leaving the
alternate screen bring the cursor back to a row that it had before, and this row is cut to the
screen but not to the region, which may be another one by now.  For each of them it is said when it
leads out (`restoresAstray`, `goesBackAstray`, `leavesAstray`), and that it leads out just then.
Nothing else does: a run in which none of the three goes astray keeps the cursor confined.
-/

namespace VideoTerminal

namespace Terminal

/-- In origin mode the cursor is in the region. -/
def Confined (t : Terminal) : Prop := t.modes.origin = true → t.region.Contains t.cursor.row

instance (t : Terminal) : Decidable t.Confined := inferInstanceAs (Decidable (_ → _))

/-! ## The ways out -/

/-- The cursor was saved in origin mode, in a row that is not one of the region now. -/
def restoresAstray (t : Terminal) : Bool :=
  t.savedCursor?.any fun s => s.origin && !t.region.Contains (min s.row (t.rows - 1))

/-- The place was saved in a row that is not one of the region now. -/
def goesBackAstray (t : Terminal) : Bool :=
  t.modes.origin && t.savedPlace.any fun place => !t.region.Contains (min place.1 (t.rows - 1))

/-- The cursor was put aside in a row that is not one of the region now. -/
def leavesAstray (t : Terminal) : Bool :=
  t.modes.alternateScreen && t.modes.origin &&
    t.primaryCursor.any fun c => !t.region.Contains c.row

/-- Whether switching a private mode brings the cursor back out of the region. -/
def switchesAstray (t : Terminal) (mode : PrivateMode) (on : Bool) : Bool :=
  match mode, on with
  | .alternateScreen, false => t.leavesAstray
  | .blankAlternateScreen, false => t.leavesAstray
  | .savedCursor, false => t.restoresAstray
  | .alternateScreenAndCursor, false =>
      t.modes.alternateScreen && (t.exitAlternate false).restoresAstray
  | _, _ => false

/-- Whether a message brings the cursor back out of the region. -/
def strays (t : Terminal) (m : Message) : Bool :=
  t.switchesAny switchesAstray m || (m.isEscape '8' && t.restoresAstray) ||
    (m.callsFor .restoreCursor && t.goesBackAstray)

namespace Confined

variable {limit : Nat} {t u : Terminal}

/-- A cursor in the region is confined. -/
theorem of_contains (h : t.region.Contains t.cursor.row) : t.Confined := fun _ => h

/-- Without origin mode there is nothing to leave. -/
theorem of_origin (h : t.modes.origin = false) : t.Confined :=
  fun horigin => absurd (h.symm.trans horigin) Bool.false_ne_true

/-- Nothing else of a terminal matters. -/
theorem congr (h : t.Confined) (horigin : u.modes.origin = t.modes.origin)
    (hregion : u.region = t.region) (hrow : u.cursor.row = t.cursor.row) : u.Confined := by
  rw [Confined, horigin, hregion, hrow]
  exact h

/-- A change of the screen that keeps the region. -/
theorem onScreen (h : t.Confined) {f : Screen → Screen}
    (hf : (f t.screen).region = t.screen.region) : (t.onScreen f).Confined := by
  refine h.congr ?_ ?_ ?_
  · rw [(blind_modes t.modes).onScreen rfl]
  · rw [region, screen_onScreen, hf]
    rfl
  · rw [onScreen_cursor]

/-- What acts within the region keeps the cursor confined. -/
theorem regional : Regional Confined where
  onCursorRow h := h.onScreen rfl
  scroll _ _ h := h.onScreen (Screen.grid_scroll ..).2
  shift _ _ _ _ h := h.onScreen (by rw [Screen.shiftRows_frame])
  onCursor hrow h := h.congr rfl rfl hrow
  down := by
    intro t hbottom h horigin
    obtain ⟨htop, hle⟩ := h horigin
    exact ⟨Nat.le_succ_of_le htop, Nat.lt_of_le_of_ne hle hbottom⟩
  up := by
    intro t htop h horigin
    obtain ⟨hle, hbottom⟩ := h horigin
    exact ⟨Nat.le_sub_one_of_lt (Nat.lt_of_le_of_ne hle (Ne.symm htop)),
      Nat.le_trans (Nat.sub_le _ 1) hbottom⟩
  pen h := h
  printed h := h

/-! ## Motion -/

/-- The bounds in origin mode are those of the region. -/
theorem rowBounds_eq (horigin : t.modes.origin = true) : t.rowBounds = t.region := if_pos horigin

/-- Going up ends at the top of the region. -/
theorem cursorUp (h : t.Confined) (n : Nat) : (t.cursorUp n).Confined := by
  intro horigin
  obtain ⟨htop, hbottom⟩ := h horigin
  show t.region.Contains (max _ (if t.cursor.row < t.rowBounds.top then 0 else _))
  rw [rowBounds_eq (t := t) horigin, if_neg (Nat.not_lt.mpr htop)]
  exact ⟨Nat.le_max_right _ _, Nat.max_le.mpr
    ⟨Nat.le_trans (Nat.sub_le _ n) hbottom, Nat.le_trans htop hbottom⟩⟩

/-- Going down ends at its bottom. -/
theorem cursorDown (h : t.Confined) (n : Nat) : (t.cursorDown n).Confined := by
  intro horigin
  obtain ⟨htop, hbottom⟩ := h horigin
  show t.region.Contains (min _ (if t.rowBounds.bottom < t.cursor.row then _ else _))
  rw [rowBounds_eq (t := t) horigin, if_neg (Nat.not_lt.mpr hbottom)]
  exact ⟨Nat.le_min.mpr ⟨Nat.le_trans htop (Nat.le_add_right _ n), Nat.le_trans htop hbottom⟩,
    Nat.min_le_right _ _⟩

/-- Wherever the cursor was, it is sent to a row of the region. -/
theorem setPosition (hregion : t.region.Within t.rows) (row col : Nat) :
    (t.setPosition row col).Confined := by
  intro horigin
  show t.region.Contains (min (row + t.rowBounds.top) t.rowBounds.bottom)
  rw [rowBounds_eq (t := t) horigin]
  exact ⟨Nat.le_min.mpr ⟨Nat.le_add_left _ _, hregion.1⟩, Nat.min_le_right _ _⟩

/-! ## Regions -/

/-- A new region takes the cursor to its top. -/
theorem setScrollRegion (hformed : t.WellFormed limit) (h : t.Confined) (top bottom : Nat) :
    (t.setScrollRegion top bottom).Confined := by
  have hset := hformed.setScrollRegion top bottom
  rw [Terminal.setScrollRegion] at hset ⊢
  generalize (if bottom = 0 then t.rows else min bottom t.rows) = stop at hset ⊢
  dsimp only at hset ⊢
  split
  · exact h
  · rename_i hrows
    rw [if_neg hrows] at hset
    exact setPosition hset.region_within 0 0

/-- The pattern takes the cursor home, into the region of all rows. -/
theorem screenAlignment (hformed : t.WellFormed limit) : t.screenAlignment.Confined :=
  setPosition hformed.screenAlignment.region_within 0 0

/-- A change of size lets all rows scroll. -/
theorem resize (hformed : t.WellFormed limit) {cols rows : Nat}
    (hsize : (Size.mk cols rows).isValid = true) : (t.resize cols rows).Confined := by
  have hresized := hformed.resize hsize
  refine of_contains ?_
  rw [hresized.region_eq]
  exact ⟨Nat.zero_le _, Nat.le_sub_one_of_lt hresized.cursor.1⟩

/-! ## Cursors that are brought back -/

/-- Restoring the cursor leaves the region just if the saved row is not one of its rows. -/
theorem restoreCursor_iff (t : Terminal) :
    t.restoreCursor.Confined ↔ t.restoresAstray = false := by
  rw [restoresAstray, Terminal.restoreCursor]
  cases t.savedCursor? with
  | none => exact iff_of_true (of_origin rfl) rfl
  | some s =>
      show (s.origin = true → t.region.Contains (min s.row (t.rows - 1))) ↔ _
      simp [imp_iff_not_or]

/-- Restoring the position leaves the region just if the saved row is not one of its rows. -/
theorem restorePlace_iff (h : t.Confined) :
    t.restorePlace.Confined ↔ t.goesBackAstray = false := by
  rw [goesBackAstray, Terminal.restorePlace]
  cases t.savedPlace with
  | none => exact iff_of_true h (Bool.and_false _)
  | some place =>
      show (t.modes.origin = true → t.region.Contains (min place.1 (t.rows - 1))) ↔ _
      simp [imp_iff_not_or]

/-- Both screens have one region. -/
theorem enterAlternate (hformed : t.WellFormed limit) (h : t.Confined) (clear : Bool) :
    (t.enterAlternate clear).Confined := by
  have hregion : (t.enterAlternate clear).region = t.region := by
    rw [(hformed.enterAlternate clear).region_eq, hformed.region_eq, Terminal.enterAlternate]
    split
    · rfl
    · cases clear <;> rfl
  refine h.congr ?_ hregion ?_
  · rw [Terminal.enterAlternate]
    split
    · rfl
    · cases clear <;> rfl
  · rw [Terminal.enterAlternate]
    split
    · rfl
    · cases clear <;> rfl

/-- Leaving the alternate screen leaves the region just if the row put aside is not one of its rows.
    -/
theorem exitAlternate_iff (hformed : t.WellFormed limit) (h : t.Confined) (clear : Bool) :
    (t.exitAlternate clear).Confined ↔ t.leavesAstray = false := by
  rw [leavesAstray]
  cases hshown : t.modes.alternateScreen with
  | false =>
      rw [Terminal.exitAlternate, hshown]
      exact iff_of_true h rfl
  | true =>
      have hexit : (t.exitAlternate clear).Confined ↔
          (t.modes.origin = true → t.region.Contains (t.primaryCursor.getD t.cursor).row) := by
        rw [hformed.region_eq, Terminal.exitAlternate, if_pos hshown]
        cases clear <;> exact Iff.rfl
      rw [hexit]
      cases t.primaryCursor with
      | none => exact iff_of_true h (by simp)
      | some c => simp [imp_iff_not_or]

/-! ## Modes -/

/-- Modes other than the origin mode and the shown screen have no part in it. -/
theorem onModes (h : t.Confined) {f : Modes → Modes}
    (horigin : (f t.modes).origin = t.modes.origin)
    (hshown : (f t.modes).alternateScreen = t.modes.alternateScreen) : (t.onModes f).Confined := by
  refine h.congr horigin ?_ rfl
  show Screen.region (if (f t.modes).alternateScreen then t.alternate else t.primary) = t.region
  rw [hshown]
  rfl

/-- A mode that is not private is such a mode. -/
theorem setMode (h : t.Confined) (mode : Nat) (on : Bool) : (t.setMode mode on).Confined := by
  simp only [Terminal.setMode]
  split
  · exact h.onModes rfl rfl
  · exact h.onModes rfl rfl
  · exact h

/-- Saving the cursor does not move it. -/
theorem saveCursor (h : t.Confined) : t.saveCursor.Confined := by
  rw [Terminal.saveCursor]
  split <;> exact h

/-- Switching a mode that does not bring the cursor back astray; the origin mode takes it home. -/
theorem switch (hformed : t.WellFormed limit) (h : t.Confined) {mode : PrivateMode} {on : Bool}
    (hnone : t.switchesAstray mode on = false) : (t.switch mode on).Confined := by
  cases mode with
  | origin => exact setPosition (hformed.onModes ({ · with origin := on })).region_within 0 0
  | mouseTracking k =>
      refine h.onModes (f := (·.setMouseTracking k on)) ?_ ?_ <;>
        dsimp only [Modes.setMouseTracking] <;> repeat' split
      all_goals rfl
  | mouseEncoding e =>
      refine h.onModes (f := (·.setMouseEncoding e on)) ?_ ?_ <;>
        dsimp only [Modes.setMouseEncoding] <;> repeat' split
      all_goals rfl
  | alternateScreen =>
      cases on with
      | true => exact h.enterAlternate hformed false
      | false => exact (h.exitAlternate_iff hformed false).mpr hnone
  | blankAlternateScreen =>
      cases on with
      | true => exact h.enterAlternate hformed true
      | false => exact (h.exitAlternate_iff hformed true).mpr hnone
  | savedCursor =>
      cases on with
      | true => exact h.saveCursor
      | false => exact (restoreCursor_iff t).mpr hnone
  | alternateScreenAndCursor =>
      cases on with
      | true =>
          show Confined (if t.modes.alternateScreen then t else t.saveCursor.enterAlternate true)
          split
          · exact h
          · exact h.saveCursor.enterAlternate hformed.saveCursor true
      | false =>
          show Confined
            (if t.modes.alternateScreen then (t.exitAlternate false).restoreCursor else t)
          split
          · rename_i hshown
            rw [switchesAstray, hshown, Bool.true_and] at hnone
            exact (restoreCursor_iff _).mpr hnone
          · exact h
  | _ => exact h

/-- Saving a value does not move the cursor. -/
theorem savePrivateMode (h : t.Confined) (mode : Nat) : (t.savePrivateMode mode).Confined := by
  rw [Terminal.savePrivateMode]
  split
  · exact h.onModes rfl rfl
  · exact h

/-- What one step of a list keeps, the whole list keeps. -/
theorem foldl {α : Type} {f : Terminal → α → Terminal}
    (hf : ∀ {t : Terminal} (a : α), t.Confined → (f t a).Confined) (h : t.Confined)
    (as : List α) : (as.foldl f t).Confined :=
  List.foldlRecOn as f h fun _ ht a _ => hf a ht

/-! ## Messages -/

/-- Erasing does not either. -/
theorem eraseInDisplay (h : t.Confined) (extent : Nat) (selective : Bool) :
    (t.eraseInDisplay extent selective).Confined := by
  have hrows : ∀ {t : Terminal} first stop, t.Confined →
      (t.eraseRows first stop selective).Confined := fun _ _ ht => ht.onScreen rfl
  simp only [Terminal.eraseInDisplay]
  refine regional.clearPending ?_
  split
  · exact hrows _ _ (regional.eraseInLine h 0 selective)
  · exact regional.eraseInLine (hrows _ _ h) 1 selective
  · exact hrows _ _ h
  · exact h.onScreen rfl
  · exact h

/-- Nor do stops. -/
theorem clearTabStop (h : t.Confined) (extent : Nat) : (t.clearTabStop extent).Confined := by
  simp only [Terminal.clearTabStop]
  split <;> exact h

/-- Nor titles. -/
theorem applyWindowOperation (h : t.Confined) (args : List Nat) :
    (t.applyWindowOperation args).1.Confined := by
  rw [Terminal.applyWindowOperation]
  split
  · exact h
  · exact h
  · rw [popTitle?]
    split
    · rename_i u hu
      split at hu
      · rw [← Option.some.inj hu]
        exact h
      · cases hu
    · exact h
  · exact h

/-- Nor the style of the cursor. -/
theorem setCursorStyle (h : t.Confined) (n : Nat) : (t.setCursorStyle n).Confined := by
  rw [Terminal.setCursorStyle]
  split
  · exact regional.onCursor rfl h
  · exact h

/-- Nor charsets. -/
theorem designate (h : t.Confined) (slot : CharsetSlot) (b : UInt8) :
    (t.designate slot b).Confined := by
  rw [Terminal.designate]
  split <;> exact h

/-- Controls move the cursor within the region, or scroll. -/
theorem applyControl (h : t.Confined) (b : UInt8) : (t.applyControl b).1.Confined := by
  rw [Terminal.applyControl]
  split
  · exact h
  split
  · exact regional.backspace h
  split
  · exact regional.moveToCol h _
  split
  · exact regional.linefeed h
  split
  · exact regional.moveToCol h 0
  split
  · exact h
  split <;> exact h

/-- A control function, unless it switches modes or restores a position, and that leads astray. -/
theorem applyFunction (hformed : t.WellFormed limit) (h : t.Confined) {f : ControlFunction}
    (hmodes : t.functionSwitchesAny switchesAstray f = false)
    (hplace : f = .restoreCursor → t.goesBackAstray = false) :
    (t.applyFunction f).1.Confined := by
  let I : Terminal → Prop := fun u => u.WellFormed limit ∧ u.Confined
  have hswitch : ∀ {u : Terminal} {mode on}, u.switchesAstray mode on = false → I u →
      I (u.switch mode on) := fun hmode hu => ⟨hu.1.switch _ _, hu.2.switch hu.1 hmode⟩
  cases f with
  | cursorUp n => exact h.cursorUp n
  | cursorDown n => exact h.cursorDown n
  | nextLine n => exact regional.moveToCol (h.cursorDown n) 0
  | precedingLine n => exact regional.moveToCol (h.cursorUp n) 0
  | cursorForward n => exact regional.moveToCol h _
  | cursorBackward n => exact regional.moveToCol h _
  | cursorColumn col => exact regional.moveToCol h _
  | cursorRow row => exact setPosition hformed.region_within _ _
  | cursorPosition row col => exact setPosition hformed.region_within _ _
  | forwardTab n => exact regional.moveToCol h _
  | backwardTab n => exact regional.moveToCol h _
  | eraseInDisplay extent selective => exact h.eraseInDisplay extent selective
  | eraseInLine extent selective => exact regional.applyFunction h rfl
  | eraseChars n => exact regional.applyFunction h rfl
  | scrollUp n => exact regional.applyFunction h rfl
  | scrollDown n => exact regional.applyFunction h rfl
  | insertLines n => exact regional.applyFunction h rfl
  | deleteLines n => exact regional.applyFunction h rfl
  | insertChars n => exact regional.applyFunction h rfl
  | deleteChars n => exact regional.applyFunction h rfl
  | repeatLast n => exact regional.applyFunction h rfl
  | clearTab extent => exact h.clearTabStop extent
  | setMode modes on => exact h.foldl (fun mode ht => ht.setMode mode on) modes
  | setPrivateMode modes on =>
      exact (setPrivateModes_unmarked (I := I) hswitch ⟨hformed, h⟩ hmodes).2
  | savePrivateModes modes => exact h.foldl (fun mode ht => ht.savePrivateMode mode) _
  | restorePrivateModes modes =>
      exact (restorePrivateModes_unmarked (I := I) hswitch ⟨hformed, h⟩ hmodes).2
  | setScrollRegion top bottom => exact h.setScrollRegion hformed top bottom
  | restoreCursor => exact h.restorePlace_iff.mpr (hplace rfl)
  | windowOperation args => exact h.applyWindowOperation args
  | cursorStyle n => exact h.setCursorStyle n
  | softReset => exact of_origin rfl
  | deviceStatus request =>
      rw [applyFunction_deviceStatus]
      exact h
  | privateDeviceStatus request =>
      rw [applyFunction_privateDeviceStatus]
      exact h
  | _ => exact h

/-- An escape sequence, unless it restores the cursor, and that leads astray. -/
theorem applyEscape (hformed : t.WellFormed limit) (h : t.Confined) {sequence : List UInt8}
    (hcursor : (sequence.map fun b => Char.ofNat b.toNat) = ['8'] → t.restoresAstray = false) :
    (t.applyEscape sequence).Confined := by
  rw [Terminal.applyEscape]
  split
  · exact h.saveCursor
  · rename_i hseq
    exact (restoreCursor_iff t).mpr (hcursor hseq)
  · exact regional.index h
  · exact regional.nextLine h
  · exact regional.reverseIndex h
  · exact h
  · exact of_origin rfl
  · exact h
  · exact h
  · exact screenAlignment hformed
  · exact h.designate _ _
  · exact h.designate _ _
  · exact h

/-- Only a message that brings the cursor back can lead it out of the region. -/
theorem apply (hformed : t.WellFormed limit) (h : t.Confined) {m : Message}
    (hnone : t.strays m = false) : (t.apply m).1.Confined := by
  simp only [strays, Bool.or_eq_false_iff, Bool.and_eq_false_imp] at hnone
  obtain ⟨⟨hmodes, hcursor⟩, hplace⟩ := hnone
  cases m with
  | print text => exact regional.apply h (m := .print text) rfl
  | control b => exact h.applyControl b
  | sgr params => exact h
  | csi marker params intermediates final =>
      exact h.applyFunction hformed hmodes fun hf => hplace (decide_eq_true hf)
  | osc code data ending =>
      obtain ⟨_, _, _, _, _, _, hsame⟩ := sameScreens_applyCommand t (.ofOsc code data) ending
      show Confined (t.applyCommand _ ending).1
      rw [hsame]
      exact h
  | esc sequence => exact h.applyEscape hformed fun hseq => hcursor (decide_eq_true hseq)
  | dcs params intermediates final data => exact h

end Confined

/-! ## The reported row -/

/-- A program that asks for the place of the cursor and sends the cursor there leaves it in its row
    just if the cursor is confined. -/
theorem reported_row_iff {limit : Nat} {t : Terminal} (hformed : t.WellFormed limit) (col : Nat) :
    (t.setPosition (t.reportedPosition.1 - 1) col).cursor.row = t.cursor.row ↔ t.Confined := by
  have hrow : t.cursor.row < t.rows := hformed.cursor.1
  have hregion := hformed.region_within.1
  show min (t.cursor.row - (if t.modes.origin then t.region.top else 0) + 1 - 1 + t.rowBounds.top)
    t.rowBounds.bottom = t.cursor.row ↔ t.Confined
  rw [Confined, rowBounds]
  cases horigin : t.modes.origin with
  | true =>
      simp only [if_true, forall_const, Region.Contains]
      omega
  | false =>
      simp only [Bool.false_eq_true, if_false, false_imp_iff, iff_true, Screen.wholeRegion]
      omega

end Terminal

/-! ## Runs -/

namespace Emulator

/-- **Origin mode confines the cursor, unless a row from before is outside the region.**  After any
    calls on a new emulator in which no cursor is brought back to a row outside the region, the
    cursor is in the region whenever origin mode is on.  Restoring the cursor, going back to the
    saved place and leaving the alternate screen keep it there just if the row they bring back is
    in the region.  And the row that is reported, sent back, returns the cursor to its row just if
    the cursor is confined. -/
theorem run_confined {size : Size} (hsize : size.isValid = true) (limit : Nat) (sgr21 : Sgr21)
    (calls : List Call) :
    ∃ new, create size limit sgr21 = .ok new ∧
      let t := (new.run calls).terminal
      (new.runCompletesAny Terminal.strays calls = false → t.Confined) ∧
      (t.restoreCursor.Confined ↔ t.restoresAstray = false) ∧
      (t.Confined → (t.restorePlace.Confined ↔ t.goesBackAstray = false) ∧
        ∀ clear, (t.exitAlternate clear).Confined ↔ t.leavesAstray = false) ∧
      ∃ row col, (t.apply (.csi none ⟨[[some 6]]⟩ [] 0x6E)).2 = [.reply (.cursorPosition row col)] ∧
        ((t.apply (.csi none ⟨[[some row], [some col]]⟩ [] 0x48)).1.cursor.row = t.cursor.row
          ↔ t.Confined) := by
  refine ⟨_, create_of_valid hsize limit sgr21, ?_⟩
  have hformed := Terminal.wellFormed_new hsize limit sgr21
  intro t
  have hrun : t.WellFormed limit := run_wellFormed hformed calls
  refine ⟨fun hnone => ?_, Terminal.Confined.restoreCursor_iff t, fun ht => ?_, ?_⟩
  · refine (run_unmarked (I := fun u => u.WellFormed limit ∧ u.Confined) ?_ ?_ ?_
      ⟨hformed, Terminal.Confined.of_origin rfl⟩ hnone).2
    · exact fun hm hu => ⟨hu.1.apply _, hu.2.apply hu.1 hm⟩
    · exact fun hoffset hu => ⟨(keeps_wellFormed limit).view hoffset hu.1, hu.2.onScreen rfl⟩
    · exact fun size _ hvalid hu => ⟨hu.1.resize hvalid, Terminal.Confined.resize hu.1 hvalid⟩
  · exact ⟨ht.restorePlace_iff, ht.exitAlternate_iff hrun⟩
  · exact ⟨_, _, rfl, Terminal.reported_row_iff hrun _⟩

/-- In origin mode a cursor is restored to a row of the region, which has become larger, and goes
    down as far as the region. -/
theorem run_confined_restored :
    let calls : List Call := [.write (Utf8.ofString "\x1b[2;2r\x1b[?6h\x1b7\x1b[1;3r"),
      .resize ⟨5, 4⟩, .write (Utf8.ofString "\x1b[1;3r\x1b8\x1b[9B")]
    (Size.mk 4 3).isValid = true ∧
    ∃ new, create ⟨4, 3⟩ 0 .cancelBold = .ok new ∧
      new.runCompletesAny Terminal.strays calls = false ∧
      (new.run calls).terminal.modes.origin = true ∧ (new.run calls).terminal.Confined := by
  intro calls
  refine ⟨by decide, ?_⟩
  obtain ⟨new, hnew, hconfined, -⟩ := @run_confined ⟨4, 3⟩ (by decide) 0 .cancelBold calls
  have hnone : new.runCompletesAny Terminal.strays calls = false ∧
      (new.run calls).terminal.modes.origin = true := by
    obtain ⟨-, rfl⟩ := create_eq_ok hnew
    decide +kernel
  exact ⟨new, hnew, hnone.1, hnone.2, hconfined hnone.1⟩

/-- The last row is the region when the cursor is saved, and the row above it when the cursor is
    restored.  In origin mode the cursor is then in the last row, outside the region, and the place
    that is reported leads to another row. -/
theorem run_confined_astray :
    let calls : List Call := [.write (Utf8.ofString "\x1b[3;3r\x1b[?6h\x1b7\x1b[2;2r"),
      .write (Utf8.ofString "\x1b8")]
    ∃ new, create ⟨4, 3⟩ 0 .cancelBold = .ok new ∧
      let t := (new.run calls).terminal
      t.modes.origin = true ∧ t.region = ⟨1, 1⟩ ∧ t.cursor.row = 2 ∧
      (t.apply (.csi none ⟨[[some 6]]⟩ [] 0x6E)).2 = [.reply (.cursorPosition 2 1)] ∧
      (t.apply (.csi none ⟨[[some 2], [some 1]]⟩ [] 0x48)).1.cursor.row = 1 := by
  refine ⟨_, create_of_valid (by decide) 0 .cancelBold, ?_⟩
  decide +kernel

end Emulator

end VideoTerminal
