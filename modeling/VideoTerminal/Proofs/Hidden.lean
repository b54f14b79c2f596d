import VideoTerminal.Proofs.ShownScreen

/-!
# What the alternate screen hides

While the alternate screen is shown, nothing that a program sends reaches the rows of the primary
screen, its history and its view, nor the cursor that was put aside with it.  A few operations act
on both screens, but on their regions only.  And one of them, the soft reset, drops the cursor that
was saved on the primary screen; no other does.

There is one lemma for each operation that the others do not explain: most of them act on the shown
screen or move the cursor.  An operation that switches to the primary screen is the only one that
must be ruled out, and so the claim is about terminals that show the alternate screen at every
stage (`staysOnAlternate`).
-/

namespace VideoTerminal

/-- What is out of sight while the alternate screen is shown: the primary screen, apart from its
region, its cursor, and the cursor saved there. -/
structure Hidden where
  cols : Nat
  rows : Nat
  primary : Screen
  cursor : Option Cursor
  saved : Option SavedCursor
deriving DecidableEq

namespace Terminal

/-- What is out of sight. -/
def hidden (t : Terminal) : Hidden where
  cols := t.cols
  rows := t.rows
  primary := t.primary.resetRegion
  cursor := t.primaryCursor
  saved := t.primarySaved

/-- The alternate screen is shown, and something is out of sight. -/
structure Hides (x : Hidden) (t : Terminal) : Prop where
  shown : t.modes.alternateScreen = true
  hidden : t.hidden = x

/-! ## Staying on the alternate screen -/

/-- The terminals that a control function goes through, the last of them being the result.  Only a
list of private modes is more than one stage. -/
def stages (t : Terminal) (f : ControlFunction) : List Terminal :=
  match f with
  | .setPrivateMode modes on => modes.scanl (·.setPrivateMode · on) t
  | .restorePrivateModes modes =>
      (if modes = [] then t.modes.saved.map Prod.fst else modes).scanl restorePrivateMode t
  | f => [(t.applyFunction f).1]

/-- The terminals that a message goes through. -/
def stagesOf (t : Terminal) (m : Message) : List Terminal :=
  match m with
  | .csi marker params intermediates final =>
      t.stages (functionOf marker params intermediates final)
  | m => [(t.apply m).1]

/-- Whether the alternate screen is shown throughout. -/
def staysOnAlternate (t : Terminal) : List Message → Bool
  | [] => true
  | m :: ms =>
      (t.stagesOf m).all (·.modes.alternateScreen) && (t.apply m).1.staysOnAlternate ms

end Terminal

/-! ## What a message does to it -/

/-- What is out of sight after a control function. -/
def Hidden.afterFunction (x : Hidden) (f : ControlFunction) : Hidden :=
  match f with
  | .softReset => { x with saved := none }
  | _ => x

/-- What is out of sight after a message. -/
def Hidden.after (x : Hidden) (m : Message) : Hidden :=
  match m with
  | .csi marker params intermediates final =>
      x.afterFunction (Terminal.functionOf marker params intermediates final)
  | _ => x

/-- Whether a message is a soft reset. -/
def Message.isSoftReset : Message → Bool
  | .csi marker params intermediates final =>
      Terminal.functionOf marker params intermediates final = .softReset
  | _ => false

/-- One message at most drops the saved cursor, and only a soft reset does. -/
theorem Hidden.after_eq (x : Hidden) (m : Message) :
    x.after m = { x with saved := if m.isSoftReset then none else x.saved } := by
  have hfunction : ∀ f : ControlFunction,
      x.afterFunction f = { x with saved := if f = .softReset then none else x.saved } := by
    intro f
    cases f <;> rfl
  cases m with
  | csi marker params intermediates final => simp [after, Message.isSoftReset, hfunction]
  | _ => rfl

/-- Messages leave what is out of sight, but for the saved cursor if a soft reset is among them. -/
theorem Hidden.foldl_after (x : Hidden) (ms : List Message) :
    ms.foldl Hidden.after x
      = { x with saved := if ms.any Message.isSoftReset then none else x.saved } := by
  induction ms generalizing x with
  | nil => rfl
  | cons m ms ih =>
      rw [List.foldl_cons, ih, Hidden.after_eq, List.any_cons]
      cases m.isSoftReset <;> simp

/-- A screen apart from its region does not show that another region was set. -/
theorem Screen.resetRegion_setRegion (s : Screen) (r : Region) :
    (s.setRegion r).resetRegion = s.resetRegion := by
  rw [setRegion]
  split <;> rfl

/-- All of a screen but its region. -/
theorem Screen.eq_of_resetRegion {s s' : Screen} (h : s.resetRegion = s'.resetRegion) :
    s.grid = s'.grid ∧ s.history = s'.history ∧ s.historyLimit = s'.historyLimit ∧
      s.viewOffset = s'.viewOffset := by
  have hfield : ∀ {α : Type} (f : Screen → α), f s.resetRegion = f s'.resetRegion :=
    fun f => congrArg f h
  exact ⟨hfield grid, hfield history, hfield historyLimit, hfield viewOffset⟩

namespace Terminal.Hides

variable {x : Hidden} {t : Terminal}

/-- What is out of sight is not the shown screen. -/
theorem blind (x : Hidden) : Blind (Terminal.Hides x) where
  onScreen := by
    intro t f h
    rw [Terminal.onScreen, if_pos h.shown]
    exact ⟨h.shown, h.hidden⟩
  onCursor := fun h => ⟨h.shown, h.hidden⟩
  printed := fun h => ⟨h.shown, h.hidden⟩

/-! ### Regions -/

/-- The region is the only part of the primary screen that is within reach. -/
theorem setRegions (h : t.Hides x) (r : Region) :
    Hides x { t with primary := t.primary.setRegion r, alternate := t.alternate.setRegion r } := by
  refine ⟨h.shown, ?_⟩
  rw [← h.hidden, Terminal.hidden, Terminal.hidden, Screen.resetRegion_setRegion]

/-- Both screens get the region, and nothing else of the primary one is touched. -/
theorem setScrollRegion (h : t.Hides x) (top bottom : Nat) :
    (t.setScrollRegion top bottom).Hides x := by
  rw [Terminal.setScrollRegion]
  generalize (if bottom = 0 then t.rows else min bottom t.rows) = stop
  dsimp only
  split
  · exact h
  · exact (blind x).setPosition (h.setRegions _) 0 0

/-- The test pattern fills the shown screen; the primary one loses its region only. -/
theorem screenAlignment (h : t.Hides x) : t.screenAlignment.Hides x := by
  have hreset : t.resetRegions.Hides x := ⟨h.shown, h.hidden⟩
  exact (blind x).setPosition ((blind x).onScreen hreset) 0 0

/-! ### Saved cursors -/

/-- The slot of the alternate screen is the one that is filled. -/
theorem saveCursor (h : t.Hides x) : t.saveCursor.Hides x := by
  rw [Terminal.saveCursor, if_pos h.shown]
  exact ⟨h.shown, h.hidden⟩

/-- A cursor that is restored is the one saved with the shown screen. -/
theorem restoreCursor (h : t.Hides x) : t.restoreCursor.Hides x := by
  rw [Terminal.restoreCursor]
  split
  · exact ⟨h.shown, h.hidden⟩
  · exact ⟨h.shown, h.hidden⟩

/-- Its place alone may be restored too. -/
theorem restorePlace (h : t.Hides x) : t.restorePlace.Hides x := by
  rw [Terminal.restorePlace]
  split
  · exact (blind x).moveTo h
  · exact h

/-- The slot of the primary screen is emptied too, although it is out of sight. -/
theorem softReset (h : t.Hides x) : t.softReset.Hides { x with saved := none } := by
  refine ⟨h.shown, ?_⟩
  rw [← h.hidden]
  rfl

/-! ### Modes -/

/-- Changes of modes hide what was hidden, unless they switch screens. -/
theorem onModes (h : t.Hides x) {f : Modes → Modes}
    (hf : (f t.modes).alternateScreen = t.modes.alternateScreen) : (t.onModes f).Hides x :=
  ⟨hf.trans h.shown, h.hidden⟩

/-- The modes of the standard have nothing to do with the screens. -/
theorem setMode (h : t.Hides x) (mode : Nat) (on : Bool) : (t.setMode mode on).Hides x := by
  simp only [Terminal.setMode]
  split
  · exact ⟨h.shown, h.hidden⟩
  · exact ⟨h.shown, h.hidden⟩
  · exact h

/-- Entering the alternate screen once more does nothing: what is out of sight stays what was put
    aside the first time. -/
theorem enterAlternate (h : t.Hides x) (clear : Bool) : (t.enterAlternate clear).Hides x := by
  rw [Terminal.enterAlternate, if_pos h.shown]
  exact h

/-- Leaving the alternate screen is seen in the mode. -/
theorem exitAlternate_shown (h : t.Hides x) (clear : Bool) :
    (t.exitAlternate clear).modes.alternateScreen = false := by
  rw [Terminal.exitAlternate, if_pos h.shown]

/-- No cursor that is restored switches screens. -/
theorem restoreCursor_shown (t : Terminal) :
    t.restoreCursor.modes.alternateScreen = t.modes.alternateScreen := by
  rw [Terminal.restoreCursor]
  split <;> rfl

/-- Switching a private mode that does not show the primary screen. -/
theorem switch (h : t.Hides x) (mode : PrivateMode) (on : Bool)
    (hstays : (t.switch mode on).modes.alternateScreen = true) : (t.switch mode on).Hides x := by
  -- a mode whose switching off is leaving is switched on
  have hleaves : ∀ clear, (t.exitAlternate clear).modes.alternateScreen = true → False := by
    intro clear hshown
    rw [h.exitAlternate_shown clear] at hshown
    exact Bool.noConfusion hshown
  cases mode with
  | origin => exact (blind x).setPosition (h.onModes (f := ({ · with origin := on })) rfl) 0 0
  | cursorBlinking => exact ⟨h.shown, h.hidden⟩
  | mouseTracking k =>
      refine h.onModes (f := (·.setMouseTracking k on)) ?_
      dsimp only [Modes.setMouseTracking]
      repeat' split
      all_goals rfl
  | mouseEncoding e =>
      refine h.onModes (f := (·.setMouseEncoding e on)) ?_
      dsimp only [Modes.setMouseEncoding]
      repeat' split
      all_goals rfl
  | alternateScreen =>
      cases on with
      | true => exact h.enterAlternate false
      | false => exact (hleaves false hstays).elim
  | blankAlternateScreen =>
      cases on with
      | true => exact h.enterAlternate true
      | false => exact (hleaves true hstays).elim
  | savedCursor =>
      cases on with
      | true => exact h.saveCursor
      | false => exact h.restoreCursor
  | alternateScreenAndCursor =>
      cases on with
      | true =>
          simp only [Terminal.switch, if_pos h.shown]
          exact h
      | false =>
          have hshown : (t.switch .alternateScreenAndCursor false).modes.alternateScreen
              = (t.exitAlternate false).modes.alternateScreen := by
            simp only [Terminal.switch, if_pos h.shown]
            exact restoreCursor_shown _
          exact (hleaves false (hshown ▸ hstays)).elim
  | _ => exact ⟨h.shown, h.hidden⟩

/-- Setting a private mode changes nothing that is hidden, unless it brings the primary screen
    back. -/
theorem setPrivateMode (h : t.Hides x) (mode : Nat) (on : Bool)
    (hstays : (t.setPrivateMode mode on).modes.alternateScreen = true) :
    (t.setPrivateMode mode on).Hides x := by
  rw [Terminal.setPrivateMode] at hstays ⊢
  split
  · rename_i m hm
    rw [hm] at hstays
    exact h.switch m on hstays
  · exact h

/-- To restore a private mode is to set it, or nothing. -/
theorem restorePrivateMode (h : t.Hides x) (mode : Nat)
    (hstays : (t.restorePrivateMode mode).modes.alternateScreen = true) :
    (t.restorePrivateMode mode).Hides x := by
  rw [Terminal.restorePrivateMode] at hstays ⊢
  split
  · rename_i value hvalue
    rw [hvalue] at hstays
    exact h.setPrivateMode mode value hstays
  · exact h

/-- To save one is to write its value down. -/
theorem savePrivateMode (h : t.Hides x) (mode : Nat) : (t.savePrivateMode mode).Hides x := by
  rw [Terminal.savePrivateMode]
  split
  · exact ⟨h.shown, h.hidden⟩
  · exact h

/-- What one step of a list keeps, the whole list keeps. -/
theorem foldl {α : Type} {f : Terminal → α → Terminal}
    (hf : ∀ {t : Terminal} (a : α), t.Hides x → (f t a).Hides x) (h : t.Hides x) (as : List α) :
    (as.foldl f t).Hides x :=
  List.foldlRecOn as f h fun _ ht a _ => hf a ht

/-- The same for steps that keep it as long as the alternate screen is shown. -/
theorem foldl_of_scanl {α : Type} {f : Terminal → α → Terminal}
    (hf : ∀ {t : Terminal} (a : α), t.Hides x → (f t a).modes.alternateScreen = true →
      (f t a).Hides x)
    (h : t.Hides x) {as : List α} (hstays : ∀ u ∈ as.scanl f t, u.modes.alternateScreen = true) :
    (as.foldl f t).Hides x := by
  induction as generalizing t with
  | nil => exact h
  | cons a as ih =>
      rw [List.scanl_cons] at hstays
      have hnext : (f t a).modes.alternateScreen = true := by
        refine hstays _ (List.mem_cons_of_mem _ ?_)
        cases as <;> simp
      exact ih (hf a h hnext) fun u hu => hstays u (List.mem_cons_of_mem _ hu)

/-! ### Titles, links and reports -/

/-- Tab stops belong to neither screen. -/
theorem clearTabStop (h : t.Hides x) (extent : Nat) : (t.clearTabStop extent).Hides x := by
  simp only [Terminal.clearTabStop]
  split
  · exact ⟨h.shown, h.hidden⟩
  · exact ⟨h.shown, h.hidden⟩
  · exact h

/-- Nor do titles. -/
theorem popTitle? (h : t.Hides x) {u : Terminal} (hu : t.popTitle? = some u) : u.Hides x := by
  rw [Terminal.popTitle?] at hu
  cases hstack : t.titleStack with
  | nil =>
      rw [hstack] at hu
      cases hu
  | cons entry rest =>
      rw [hstack] at hu
      rw [← Option.some.inj hu]
      exact ⟨h.shown, h.hidden⟩

/-- A window operation is about titles, or only reports. -/
theorem applyWindowOperation (h : t.Hides x) (args : List Nat) :
    (t.applyWindowOperation args).1.Hides x := by
  rw [Terminal.applyWindowOperation]
  split
  · exact h
  · exact ⟨h.shown, h.hidden⟩
  · split
    · rename_i u hu
      exact h.popTitle? hu
    · exact h
  · exact h

/-- The style of the cursor is that of the shown cursor; the hidden one has its own. -/
theorem setCursorStyle (h : t.Hides x) (n : Nat) : (t.setCursorStyle n).Hides x := by
  rw [Terminal.setCursorStyle]
  split
  · exact (blind x).onCursor h
  · exact h

/-! ### Messages -/

/-- Controls draw on the shown screen and move its cursor. -/
theorem applyControl (h : t.Hides x) (b : UInt8) : (t.applyControl b).1.Hides x := by
  rw [Terminal.applyControl]
  split
  · exact h
  split
  · exact (blind x).backspace h
  split
  · exact (blind x).moveTo h
  split
  · exact (blind x).linefeed h
  split
  · exact (blind x).moveTo h
  split
  · exact ⟨h.shown, h.hidden⟩
  split
  · exact ⟨h.shown, h.hidden⟩
  · exact h

/-- A control function, all of whose stages show the alternate screen, drops the hidden saved cursor
    if it is a soft reset, and touches nothing else that is hidden. -/
theorem applyFunction (h : t.Hides x) {f : ControlFunction}
    (hstays : ∀ u ∈ t.stages f, u.modes.alternateScreen = true) :
    (t.applyFunction f).1.Hides (x.afterFunction f) := by
  cases f with
  | eraseInDisplay extent selective => exact (blind x).eraseInDisplay h extent selective
  | eraseInLine extent selective => exact (blind x).eraseInLine h extent selective
  | eraseChars n => exact (blind x).eraseChars h n
  | scrollUp n => exact (blind x).scroll h n .up
  | scrollDown n => exact (blind x).scroll h n .down
  | insertLines n => exact (blind x).shiftFromCursor h n .down
  | deleteLines n => exact (blind x).shiftFromCursor h n .up
  | insertChars n => exact (blind x).insertChars h n
  | deleteChars n => exact (blind x).deleteChars h n
  | repeatLast n => exact (blind x).repeatLast h n
  | clearTab extent => exact h.clearTabStop extent
  | setMode modes on => exact h.foldl (fun mode ht => ht.setMode mode on) modes
  | setPrivateMode modes on =>
      exact h.foldl_of_scanl (fun mode ht hshown => ht.setPrivateMode mode on hshown) hstays
  | savePrivateModes modes => exact h.foldl (fun mode ht => ht.savePrivateMode mode) _
  | restorePrivateModes modes =>
      exact h.foldl_of_scanl (fun mode ht hshown => ht.restorePrivateMode mode hshown) hstays
  | setScrollRegion top bottom => exact h.setScrollRegion top bottom
  | restoreCursor => exact h.restorePlace
  | windowOperation args => exact h.applyWindowOperation args
  | cursorStyle n => exact h.setCursorStyle n
  | softReset => exact h.softReset
  | deviceStatus request =>
      rw [applyFunction_deviceStatus]
      exact h
  | privateDeviceStatus request =>
      rw [applyFunction_privateDeviceStatus]
      exact h
  | _ => exact ⟨h.shown, h.hidden⟩

/-- An operation that keeps both screens whole hides the same. -/
theorem sameScreens (h : t.Hides x) {u : Terminal} (hu : t.SameScreens u) : u.Hides x := by
  obtain ⟨_, _, _, _, _, _, rfl⟩ := hu
  exact ⟨h.shown, h.hidden⟩

/-- Character sets are the shown cursor's. -/
theorem designate (h : t.Hides x) (slot : CharsetSlot) (b : UInt8) :
    (t.designate slot b).Hides x := by
  rw [Terminal.designate]
  split
  · exact ⟨h.shown, h.hidden⟩
  · exact h

/-- Of the escape sequences the full reset alone would bring the primary screen back. -/
theorem applyEscape (h : t.Hides x) (sequence : List UInt8)
    (hstays : (t.applyEscape sequence).modes.alternateScreen = true) :
    (t.applyEscape sequence).Hides x := by
  rw [Terminal.applyEscape] at hstays ⊢
  split
  · exact h.saveCursor
  · exact h.restoreCursor
  · exact (blind x).index h
  · exact (blind x).index ((blind x).moveTo h)
  · exact (blind x).reverseIndex h
  · exact ⟨h.shown, h.hidden⟩
  · -- the full reset shows the primary screen
    rename_i hseq
    rw [hseq] at hstays
    exact Bool.noConfusion hstays
  · exact ⟨h.shown, h.hidden⟩
  · exact ⟨h.shown, h.hidden⟩
  · exact h.screenAlignment
  · exact h.designate _ _
  · exact h.designate _ _
  · exact h

/-- A message that does not leave the alternate screen does no more to what is out of sight than
    `Hidden.after` says. -/
theorem apply (h : t.Hides x) {m : Message}
    (hstays : ∀ u ∈ t.stagesOf m, u.modes.alternateScreen = true) :
    (t.apply m).1.Hides (x.after m) := by
  cases m with
  | print text => exact h.foldl (fun c ht => (blind x).print ht c) text
  | control b => exact h.applyControl b
  | sgr params => exact ⟨h.shown, h.hidden⟩
  | csi marker params intermediates final => exact h.applyFunction hstays
  | osc code data ending => exact h.sameScreens (sameScreens_applyCommand t _ ending)
  | esc sequence => exact h.applyEscape sequence (hstays _ List.mem_cons_self)
  | dcs params intermediates final data => exact h

/-- Messages in a row that do not leave the alternate screen. -/
theorem run (h : t.Hides x) {ms : List Message} (hstays : t.staysOnAlternate ms = true) :
    (Machine.run Terminal.apply t ms).1.Hides (ms.foldl Hidden.after x) := by
  induction ms generalizing t x with
  | nil => exact h
  | cons m ms ih =>
      rw [staysOnAlternate, Bool.and_eq_true, List.all_eq_true] at hstays
      exact ih (h.apply hstays.1) hstays.2

end Terminal.Hides

end VideoTerminal
