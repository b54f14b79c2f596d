import VideoTerminal.Proofs.Machine
import VideoTerminal.Proofs.TerminalShape

/-!
# Emulators that can be reached

An emulator is created with a valid size and then only changes by the calls listed in `Call`.
Whatever the calls and their order, its terminal stays well formed: nothing a program sends and no
change of size, accepted or refused, brings a cursor off the grid, a row out of length or a bounded
store over its bound.

The step is one lemma for each kind of message, on top of the one for each operation; the run is an
induction on the calls.
-/

namespace VideoTerminal

/-! ## What messages keep -/

namespace Terminal.WellFormed

variable {limit : Nat} {t : Terminal}

/-- Controls move the cursor within the screen, or print. -/
theorem applyControl (h : t.WellFormed limit) (b : UInt8) :
    (t.applyControl b).1.WellFormed limit := by
  rw [Terminal.applyControl]
  split
  · exact h
  split
  · exact h.backspace
  split
  · exact h.forwardTab 1
  split
  · exact h.linefeed
  split
  · exact h.carriageReturn
  split
  · exact { h with }
  split
  · exact { h with }
  · exact h

/-- Window operations push and pop titles, whose number is bounded, and report. -/
theorem applyWindowOperation (h : t.WellFormed limit) (args : List Nat) :
    (t.applyWindowOperation args).1.WellFormed limit := by
  rw [Terminal.applyWindowOperation]
  split
  · exact h
  · exact h.pushTitle
  · split
    · rename_i u hu
      exact h.popTitle? hu
    · exact h
  · exact h

theorem setCursorStyle (h : t.WellFormed limit) (n : Nat) :
    (t.setCursorStyle n).WellFormed limit := by
  rw [Terminal.setCursorStyle]
  split
  · exact h.onCursor h.cursor
  · exact h

/-- Every control function leaves the terminal well formed, by the lemmas about what it is made of.
    -/
theorem applyFunction (h : t.WellFormed limit) (f : ControlFunction) :
    (t.applyFunction f).1.WellFormed limit := by
  cases f with
  | cursorUp n => exact h.cursorUp n
  | cursorDown n => exact h.cursorDown n
  | cursorForward n => exact h.cursorForward n
  | cursorBackward n => exact h.cursorBackward n
  | nextLine n => exact (h.cursorDown n).carriageReturn
  | precedingLine n => exact (h.cursorUp n).carriageReturn
  | cursorColumn col => exact h.setColumn _
  | cursorRow row => exact h.setRow _
  | cursorPosition row col => exact h.setPosition _ _
  | forwardTab n => exact h.forwardTab n
  | backwardTab n => exact h.backwardTab n
  | eraseInDisplay extent selective => exact h.eraseInDisplay extent selective
  | eraseInLine extent selective => exact h.eraseInLine extent selective
  | eraseChars n => exact h.eraseChars n
  | scrollUp n => exact h.scroll n .up
  | scrollDown n => exact h.scroll n .down
  | insertLines n => exact h.shiftFromCursor n .down
  | deleteLines n => exact h.shiftFromCursor n .up
  | insertChars n => exact h.insertChars n
  | deleteChars n => exact h.deleteChars n
  | repeatLast n => exact h.repeatLast n
  | clearTab extent => exact h.clearTabStop extent
  | setMode modes on => exact h.foldl (fun mode ht => ht.setMode mode on) modes
  | setPrivateMode modes on => exact h.foldl (fun mode ht => ht.setPrivateMode mode on) modes
  | savePrivateModes modes => exact h.savePrivateModes modes
  | restorePrivateModes modes => exact h.restorePrivateModes modes
  | setScrollRegion top bottom => exact h.setScrollRegion top bottom
  | saveCursor => exact h.savePlace
  | restoreCursor => exact h.restorePlace
  | windowOperation args => exact h.applyWindowOperation args
  | cursorStyle n => exact h.setCursorStyle n
  | protection n => exact { h with }
  | softReset => exact h.softReset
  | deviceStatus request =>
      rw [applyFunction_deviceStatus]
      exact h
  | privateDeviceStatus request =>
      rw [applyFunction_privateDeviceStatus]
      exact h
  | _ => exact h

theorem applyColors (h : t.WellFormed limit) (ending : StringEnd) (code : Nat)
    (specs : List (List Char)) :
    (Terminal.applyColors ending t code specs).1.WellFormed limit := by
  induction specs generalizing t code with
  | nil => exact h
  | cons spec specs ih =>
      rw [Terminal.applyColors]
      split
      · exact h
      · -- the rest of the list acts on what this color left
        refine ih ?_ (code + 1)
        rw [applyColor]
        split
        · exact h
        · split
          · split <;> exact { h with }
          · exact h

/-- Commands change titles, colors and links. -/
theorem applyCommand (h : t.WellFormed limit) (c : SystemCommand) (ending : StringEnd) :
    (t.applyCommand c ending).1.WellFormed limit := by
  cases c with
  | hyperlink id target =>
      simp only [Terminal.applyCommand]
      split
      · exact { h with }
      · exact h.openHyperlink id target
  | dynamicColors first specs => exact h.applyColors ending first specs
  | resetDynamicColor code =>
      rw [applyCommand_resetDynamicColor]
      dsimp only
      split <;> exact { h with }
  | _ => exact { h with }

theorem designate (h : t.WellFormed limit) (slot : CharsetSlot) (b : UInt8) :
    (t.designate slot b).WellFormed limit := by
  rw [Terminal.designate]
  split
  · exact { h with }
  · exact h

/-- Escape sequences save, restore, designate and reset. -/
theorem applyEscape (h : t.WellFormed limit) (sequence : List UInt8) :
    (t.applyEscape sequence).WellFormed limit := by
  rw [Terminal.applyEscape]
  split
  · exact h.saveCursor
  · exact h.restoreCursor
  · exact h.index
  · exact h.nextLine
  · exact h.reverseIndex
  · exact h.setTabStop
  · exact h.fullReset
  · exact h.onModes _
  · exact h.onModes _
  · exact h.screenAlignment
  · exact h.designate _ _
  · exact h.designate _ _
  · exact h

/-- Whatever message comes, the terminal stays well formed: this is the step of the invariant. -/
theorem apply (h : t.WellFormed limit) (m : Message) : (t.apply m).1.WellFormed limit := by
  cases m with
  | print text => exact h.foldl (fun c ht => ht.print c) text
  | control b => exact h.applyControl b
  | sgr params => exact { h with }
  | csi marker params intermediates final => exact h.applyFunction _
  | osc code data ending => exact h.applyCommand _ ending
  | esc sequence => exact h.applyEscape sequence
  | dcs params intermediates final data => exact h

end Terminal.WellFormed

/-! ## Calls -/

/-- The offset behind a motion back; one that fails leaves it where it is. -/
def Screen.offsetBack (s : Screen) (n : Nat) : Nat :=
  if s.viewOffset + n < offsetModulus then min (s.viewOffset + n) s.history.size
  else s.viewOffset

/-- A view is never moved beyond the oldest row. -/
theorem Screen.offsetBack_le (s : Screen) (hview : s.viewOffset ≤ s.history.size) (n : Nat) :
    s.offsetBack n ≤ s.history.size := by
  rw [offsetBack]
  split
  · exact Nat.min_le_right _ _
  · exact hview

namespace Emulator

/-- What can be done to an emulator from outside. -/
inductive Call where
  /-- Output of the program, any bytes at all. -/
  | write (bytes : List UInt8)
  | flush
  /-- A change of size, which is refused if the size is invalid. -/
  | resize (size : Size)
  /-- A motion of the view, which changes nothing if its addition fails. -/
  | viewUp (n : Nat)
  | viewDown (n : Nat)
  | viewReset
  | takeEvents
deriving DecidableEq, Repr

/-- The emulator behind a call. -/
def call (e : Emulator) : Call → Emulator
  | .write bytes => e.write bytes
  | .flush => e.flush
  | .resize size =>
      match e.resize size with
      | .ok e' => e'
      | .error _ => e
  | .viewUp n => (e.viewUp? n).getD e
  | .viewDown n => e.viewDown n
  | .viewReset => e.viewReset
  | .takeEvents => e.takeEvents.1

/-- The emulator behind calls in order. -/
def run (e : Emulator) (calls : List Call) : Emulator := calls.foldl call e

/-- The messages that a call completes. -/
def completed (e : Emulator) : Call → List Message
  | .write bytes => (e.decoder.push bytes).2
  | .flush => e.decoder.flush.2
  | _ => []

/-- The messages that calls complete. -/
def completedBy (e : Emulator) (calls : List Call) : List Message :=
  (Machine.run (fun e c => (e.call c, e.completed c)) e calls).2

/-- Only a valid size other than the present one has an effect. -/
theorem resize_eq (e : Emulator) (size : Size) :
    e.resize size
      = if size.isValid then
          if size = e.terminal.size then .ok e
          else .ok { e with
            terminal := e.terminal.resize size.cols size.rows
            events := e.events.push .screenUpdated }
        else .error ⟨size⟩ := by
  rw [resize, Size.check]
  split
  · rfl
  · rfl

/-- A call that resizes, with its event. -/
theorem call_resize (e : Emulator) (size : Size) :
    e.call (.resize size)
      = if size.isValid = true ∧ size ≠ e.terminal.size then
          { e with
            terminal := e.terminal.resize size.cols size.rows
            events := e.events.push .screenUpdated }
        else e := by
  rw [call, resize_eq]
  by_cases hsize : size.isValid = true
  · by_cases hsame : size = e.terminal.size
    · rw [if_pos hsize, if_pos hsame, if_neg fun h => h.2 hsame]
    · rw [if_pos hsize, if_neg hsame, if_pos ⟨hsize, hsame⟩]
  · rw [if_neg hsize, if_neg fun h => hsize h.1]

/-- A motion back, whether it fails or not, changes the offset only. -/
theorem call_viewUp (e : Emulator) (n : Nat) :
    e.call (.viewUp n) = e.onView fun s => { s with viewOffset := s.offsetBack n } := by
  rw [call, viewUp?, Screen.viewUp?]
  by_cases hsum : e.terminal.screen.viewOffset + n < Screen.offsetModulus
  · rw [if_pos hsum, Option.map_some, Option.getD_some, onView, onView]
    refine congrArg (fun terminal => { e with terminal }) (Terminal.onScreen_congr ?_)
    rw [Screen.offsetBack, if_pos hsum]
  · have hsame : e.terminal.onScreen (fun s => { s with viewOffset := s.offsetBack n })
        = e.terminal.onScreen id := by
      refine Terminal.onScreen_congr ?_
      rw [Screen.offsetBack, if_neg hsum]
      rfl
    rw [if_neg hsum, Option.map_none, Option.getD_none, onView, hsame, Terminal.onScreen_id]

/-- With a valid size an emulator is always made, and it is empty. -/
theorem create_of_valid {size : Size} (hsize : size.isValid = true) (limit : Nat)
    (sgr21 : Sgr21) :
    create size limit sgr21
      = .ok { terminal := Terminal.new size.cols size.rows limit sgr21 } := by
  rw [create, Size.check]
  rw [if_pos hsize]
  rfl

/-- Only an emulator of a valid size is created. -/
theorem create_eq_ok {size : Size} {limit : Nat} {sgr21 : Sgr21} {new : Emulator}
    (hnew : create size limit sgr21 = .ok new) :
    size.isValid = true ∧ new = { terminal := Terminal.new size.cols size.rows limit sgr21 } := by
  by_cases hsize : size.isValid = true
  · rw [create_of_valid hsize] at hnew
    exact ⟨hsize, (Except.ok.inj hnew).symm⟩
  · rw [create, Size.check, if_neg hsize] at hnew
    cases hnew

/-- Handling messages appends their events, and tells at the end that the screen may have changed.
    -/
theorem act_events (e : Emulator) (decoder : Decoder) (ms : List Message) :
    (e.act decoder ms).events.toList
      = e.events.toList ++ (Machine.run Terminal.apply e.terminal ms).2
        ++ if !ms.isEmpty then [.screenUpdated] else [] := by
  rw [act]
  cases ms with
  | nil => simp
  | cons m ms =>
      rw [Terminal.applyAll_eq_run]
      simp

/-- What single messages keep, a batch of them keeps. -/
theorem act_invariant {I : Terminal → Prop}
    (happly : ∀ {t : Terminal} (m : Message), I t → I (t.apply m).1) {e : Emulator}
    (h : I e.terminal) (decoder : Decoder) (ms : List Message) :
    I (e.act decoder ms).terminal := by
  rw [act]
  split
  · exact h
  · rw [Terminal.applyAll_eq_run]
    exact Machine.run_invariant (I := I) (fun _ m _ ht => happly m ht) h

/-- What messages, changes of size and motions of the view keep. -/
structure Keeps (I : Terminal → Prop) : Prop where
  apply {t : Terminal} (m : Message) : I t → I (t.apply m).1
  resize {t : Terminal} {size : Size} :
    size.isValid = true → I t → I (t.resize size.cols size.rows)
  view {t : Terminal} {offset : Screen → Nat} :
    (∀ s, s.viewOffset ≤ s.history.size → offset s ≤ s.history.size) → I t →
      I (t.onScreen fun s => { s with viewOffset := offset s })

namespace Keeps

variable {I : Terminal → Prop} (hI : Keeps I) {e : Emulator}

include hI

/-- What every message keeps, any number of them keeps. -/
theorem act (h : I e.terminal) (decoder : Decoder) (ms : List Message) :
    I (e.act decoder ms).terminal := act_invariant hI.apply h decoder ms

/-- One call keeps it, also a change of size that is refused. -/
theorem call (h : I e.terminal) (c : Call) : I (e.call c).terminal := by
  cases c with
  | write bytes => exact hI.act h _ _
  | flush => exact hI.act h _ _
  | resize size =>
      simp only [Emulator.call, resize_eq]
      split
      · rename_i e' he
        split at he
        · -- the size is valid, and perhaps the one the terminal has
          rename_i hsize
          split at he
          · rw [← Except.ok.inj he]
            exact h
          · rw [← Except.ok.inj he]
            exact hI.resize hsize h
        · exact absurd he nofun
      · exact h
  | viewUp n =>
      rw [call_viewUp]
      exact hI.view (fun s hs => s.offsetBack_le hs n) h
  | viewDown n =>
      show I (e.terminal.onScreen (·.viewDown n))
      exact hI.view (fun _ hs => Nat.le_trans (Nat.sub_le _ n) hs) h
  | viewReset =>
      show I (e.terminal.onScreen Screen.viewReset)
      exact hI.view (fun _ _ => Nat.zero_le _) h
  | takeEvents => exact h

/-- What every call keeps, any number of them keeps. -/
theorem run (h : I e.terminal) (calls : List Call) : I (e.run calls).terminal :=
  List.foldlRecOn (motive := fun e => I e.terminal) calls Emulator.call h
    fun _ he c _ => hI.call he c

end Keeps

/-- An emulator that some calls have led to from a new one. -/
def Reachable (e : Emulator) : Prop :=
  ∃ size limit sgr21 new calls, create size limit sgr21 = .ok new ∧ e = new.run calls

/-- What is kept, and holds of every new terminal, holds of all that can be reached. -/
theorem Reachable.terminal {e : Emulator} (he : e.Reachable) {I : Terminal → Prop} (hI : Keeps I)
    (hnew : ∀ {size : Size}, size.isValid = true → ∀ limit sgr21,
      I (.new size.cols size.rows limit sgr21)) : I e.terminal := by
  obtain ⟨size, limit, sgr21, new, calls, hcreate, rfl⟩ := he
  obtain ⟨hsize, rfl⟩ := create_eq_ok hcreate
  exact hI.run (hnew hsize limit sgr21) calls

variable {limit : Nat} {e : Emulator}

/-- No call breaks the shape of the terminal. -/
theorem keeps_wellFormed (limit : Nat) : Keeps (Terminal.WellFormed limit) where
  apply m h := h.apply m
  resize hsize h := h.resize hsize
  view hoffset h := h.onScreen fun hs => { hs with view_le := hoffset _ hs.view_le }

/-- So it is well formed in every emulator that can be reached. -/
theorem Reachable.wellFormed (h : e.Reachable) : ∃ limit, e.terminal.WellFormed limit :=
  h.terminal (I := fun t => ∃ limit, t.WellFormed limit)
    { apply := fun m ⟨limit, ht⟩ => ⟨limit, ht.apply m⟩
      resize := fun hsize ⟨limit, ht⟩ => ⟨limit, ht.resize hsize⟩
      view := fun hoffset ⟨limit, ht⟩ => ⟨limit, (keeps_wellFormed limit).view hoffset ht⟩ }
    fun hsize limit sgr21 => ⟨limit, Terminal.wellFormed_new hsize limit sgr21⟩

theorem act_wellFormed (h : e.terminal.WellFormed limit) (decoder : Decoder) (ms : List Message) :
    (e.act decoder ms).terminal.WellFormed limit := (keeps_wellFormed limit).act h decoder ms

/-- Calls keep the shape of the terminal. -/
theorem run_wellFormed (h : e.terminal.WellFormed limit) (calls : List Call) :
    (e.run calls).terminal.WellFormed limit := (keeps_wellFormed limit).run h calls

/-- **Nothing leaves its bounds.**  A valid size is accepted, and whatever calls follow, in any
    order: the cursor is on the grid, and so is the one put aside for the primary screen; both
    screens have as many rows as the terminal, in the same region, and no view beyond the history;
    rows on the grid and in the history are as long as the terminal is wide; and history, tab
    stops, marks and titles have their sizes. -/
theorem run_bounded {size : Size} (hsize : size.isValid = true) (limit : Nat) (sgr21 : Sgr21)
    (calls : List Call) :
    ∃ e, create size limit sgr21 = .ok e ∧
      let t := (e.run calls).terminal
      (t.cursor.row < t.rows ∧ t.cursor.col < t.cols) ∧
      (∀ c ∈ t.primaryCursor, c.row < t.rows ∧ c.col < t.cols) ∧
      (∀ s ∈ [t.primary, t.alternate],
        s.grid.size = t.rows ∧
        s.viewOffset ≤ s.history.toList.length ∧
        ∀ r, r ∈ s.grid.toList ∨ r ∈ s.history.toList →
          r.cells.size = t.cols ∧ ∀ c ∈ r.cells, c.marks.length ≤ 8) ∧
      (t.primary.region = t.alternate.region ∧
        t.primary.region.top ≤ t.primary.region.bottom ∧ t.primary.region.bottom < t.rows) ∧
      (t.primary.historyLimit = limit ∧ t.primary.history.toList.length ≤ limit ∧
        t.alternate.history.toList = []) ∧
      t.tabStops.size = t.cols ∧
      t.titleStack.length ≤ 10 := by
  refine ⟨_, create_of_valid hsize limit sgr21, ?_⟩
  have h : Terminal.WellFormed limit
      (run { terminal := Terminal.new size.cols size.rows limit sgr21 } calls).terminal :=
    run_wellFormed (Terminal.wellFormed_new hsize limit sgr21) calls
  generalize (run _ calls).terminal = t at h
  -- the same for both screens, which differ in the bound of their history only
  have hscreen : ∀ {n : Nat} {s : Screen},
      s.WellFormed Cell.FewMarks t.cols t.rows t.primary.region n →
      s.grid.size = t.rows ∧ s.viewOffset ≤ s.history.toList.length ∧
      ∀ r, r ∈ s.grid.toList ∨ r ∈ s.history.toList →
        r.cells.size = t.cols ∧ ∀ c ∈ r.cells, c.marks.length ≤ 8 := by
    intro n s hs
    refine ⟨hs.grid.size, ?_, ?_⟩
    · rw [History.length_toList]
      exact hs.view_le
    · rintro r (hr | hr)
      · have hfits := hs.grid.each r (Array.mem_toList_iff.mp hr)
        exact ⟨hfits.size, hfits.each⟩
      · exact ⟨(hs.history r hr).size, (hs.history r hr).each⟩
  refine ⟨h.cursor, h.primaryCursor, ?_, ⟨h.alternate.region_eq.symm, h.region⟩,
    ⟨h.primary.limit_eq, ?_, ?_⟩, h.tabStops, h.titles⟩
  · intro s hs
    rcases List.mem_cons.mp hs with rfl | hs
    · exact hscreen h.primary
    · rw [List.mem_singleton.mp hs]
      exact hscreen h.alternate
  · rw [History.length_toList]
    exact h.primary.history_le
  · refine List.eq_nil_of_length_eq_zero ?_
    rw [History.length_toList]
    exact Nat.le_zero.mp h.alternate.history_le

/-- A cursor saved in the last column is restored on a screen that has become smaller, with a row
    of wide characters in a history of one row. -/
theorem run_bounded_smaller :
    (Size.mk 3 1).isValid = true ∧
    ∃ e, create ⟨3, 1⟩ 1 .cancelBold = .ok e ∧
      let t := (e.run [.write (Utf8.ofString "日本\x1b7"), .viewUp 9, .resize ⟨1, 1⟩,
        .resize ⟨0, 5⟩, .write (Utf8.ofString "\x1b8"), .flush]).terminal
      t.cursor.row < t.rows ∧ t.cursor.col < t.cols := by
  refine ⟨by decide, ?_⟩
  obtain ⟨e, he, hcursor, _⟩ := @run_bounded ⟨3, 1⟩ (by decide) 1 .cancelBold
    [.write (Utf8.ofString "日本\x1b7"), .viewUp 9, .resize ⟨1, 1⟩, .resize ⟨0, 5⟩,
      .write (Utf8.ofString "\x1b8"), .flush]
  exact ⟨e, he, hcursor⟩

end Emulator

end VideoTerminal
