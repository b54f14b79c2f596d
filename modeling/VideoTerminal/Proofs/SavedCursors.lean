import VideoTerminal.Proofs.AlternateScreen
import VideoTerminal.Proofs.Marked

/-!
# Saved cursors

Cursors are saved in three slots.  Each screen has one, and the short form keeps a place apart from
both.  Whatever else a program sends leaves all three alone, and a saving fills one of them: that of
the screen that is shown, or the place.  So what is restored is what was saved last in the slot, and
nothing that is saved in another slot matters.

The frame is `slots_applyFunction` and `slots_applyEscape`: what neither saves, nor resets, nor
switches private modes keeps the slots.  Switches of private modes are followed one by one, since
two of them save (`slot_switch`).
-/

namespace VideoTerminal

/-- What is saved: a cursor on each screen, and a place. -/
structure Slots where
  primary : Option SavedCursor
  alternate : Option SavedCursor
  place : Option (Nat × Nat)

/-- The cursor saved on the alternate screen, or else on the primary one. -/
def Slots.on (x : Slots) (alternate : Bool) : Option SavedCursor :=
  if alternate then x.alternate else x.primary

namespace Terminal

/-- What is saved in a terminal. -/
def slots (t : Terminal) : Slots := ⟨t.primarySaved, t.alternateSaved, t.savedPlace⟩

variable {x : Slots} {t : Terminal}

/-! ## What leaves the slots alone -/

/-- The slots are not the shown screen. -/
theorem blind_slots (x : Slots) : Blind (·.slots = x) where
  onScreen := by
    intro t f h
    rw [onScreen]
    split <;> exact h
  onCursor := id
  printed := id

/-- What one step of a list keeps, the whole list keeps. -/
theorem slots_foldl {α : Type} {f : Terminal → α → Terminal}
    (hf : ∀ t a, (f t a).slots = t.slots) (t : Terminal) (as : List α) :
    (as.foldl f t).slots = t.slots :=
  List.foldlRecOn (motive := fun u => u.slots = t.slots) as f rfl
    fun u hu a _ => (hf u a).trans hu

/-- Restoring leaves what is saved where it is. -/
theorem slots_restoreCursor (t : Terminal) : t.restoreCursor.slots = t.slots := by
  rw [restoreCursor]
  split <;> rfl

/-- So does restoring the position. -/
theorem slots_restorePlace (t : Terminal) : t.restorePlace.slots = t.slots := by
  rw [restorePlace]
  split <;> rfl

/-- Entering the alternate screen puts the cursor aside, but not into a slot. -/
theorem slots_enterAlternate (t : Terminal) (clear : Bool) :
    (t.enterAlternate clear).slots = t.slots := by
  rw [enterAlternate]
  split
  · rfl
  · cases clear <;> rfl

/-- Leaving it takes the cursor back from there. -/
theorem slots_exitAlternate (t : Terminal) (clear : Bool) :
    (t.exitAlternate clear).slots = t.slots := by
  rw [exitAlternate]
  split
  · cases clear <;> rfl
  · rfl

/-- Modes that are not private do not reach the slots. -/
theorem slots_setMode (t : Terminal) (mode : Nat) (on : Bool) :
    (t.setMode mode on).slots = t.slots := by
  simp only [setMode]
  split <;> rfl

/-- Values of modes are saved elsewhere. -/
theorem slots_savePrivateMode (t : Terminal) (mode : Nat) :
    (t.savePrivateMode mode).slots = t.slots := by
  rw [savePrivateMode]
  split <;> rfl

/-- The region is no matter of the slots. -/
theorem slots_setScrollRegion (t : Terminal) (top bottom : Nat) :
    (t.setScrollRegion top bottom).slots = t.slots := by
  rw [setScrollRegion]
  generalize (if bottom = 0 then t.rows else min bottom t.rows) = stop
  dsimp only
  split <;> rfl

/-- Neither are stops. -/
theorem slots_clearTabStop (t : Terminal) (extent : Nat) :
    (t.clearTabStop extent).slots = t.slots := by
  simp only [clearTabStop]
  split <;> rfl

/-- Nor titles. -/
theorem slots_applyWindowOperation (t : Terminal) (args : List Nat) :
    (t.applyWindowOperation args).1.slots = t.slots := by
  rw [applyWindowOperation]
  split
  · rfl
  · rfl
  · rw [popTitle?]
    split
    · rename_i u hu
      split at hu
      · rw [← Option.some.inj hu]
        rfl
      · cases hu
    · rfl
  · rfl

/-- Nor the style of the cursor. -/
theorem slots_setCursorStyle (t : Terminal) (n : Nat) : (t.setCursorStyle n).slots = t.slots := by
  rw [setCursorStyle]
  split <;> rfl

/-- Nor charsets. -/
theorem slots_designate (t : Terminal) (slot : CharsetSlot) (b : UInt8) :
    (t.designate slot b).slots = t.slots := by
  rw [designate]
  split <;> rfl

/-- Nor the alignment pattern. -/
theorem slots_screenAlignment (t : Terminal) : t.screenAlignment.slots = t.slots :=
  have hreset : t.resetRegions.slots = t.slots := rfl
  (blind_slots t.slots).setPosition ((blind_slots t.slots).onScreen hreset) 0 0

/-- No control reaches the slots. -/
theorem slots_applyControl (t : Terminal) (b : UInt8) : (t.applyControl b).1.slots = t.slots := by
  rw [applyControl]
  split
  · rfl
  split
  · exact (blind_slots t.slots).backspace rfl
  split
  · rfl
  split
  · exact (blind_slots t.slots).linefeed rfl
  split
  · rfl
  split
  · rfl
  split <;> rfl

end Terminal

/-- Whether a function reaches the slots: it saves a place, drops the saved cursors, or switches
private modes. -/
def ControlFunction.reachesSlots : ControlFunction → Bool
  | .saveCursor | .softReset | .setPrivateMode _ _ | .restorePrivateModes _ => true
  | _ => false

namespace Terminal

variable {x : Slots} {t : Terminal}

/-- Of the control functions only those that save, reset or switch a mode do. -/
theorem slots_applyFunction (t : Terminal) {f : ControlFunction} (hf : f.reachesSlots = false) :
    (t.applyFunction f).1.slots = t.slots := by
  have hblind := blind_slots t.slots
  cases f with
  | eraseInDisplay extent selective => exact hblind.eraseInDisplay rfl extent selective
  | eraseInLine extent selective => exact hblind.eraseInLine rfl extent selective
  | eraseChars n => exact hblind.eraseChars rfl n
  | scrollUp n => exact hblind.scroll rfl n .up
  | scrollDown n => exact hblind.scroll rfl n .down
  | insertLines n => exact hblind.shiftFromCursor rfl n .down
  | deleteLines n => exact hblind.shiftFromCursor rfl n .up
  | insertChars n => exact hblind.insertChars rfl n
  | deleteChars n => exact hblind.deleteChars rfl n
  | repeatLast n => exact hblind.repeatLast rfl n
  | clearTab extent => exact slots_clearTabStop t extent
  | setMode modes on => exact slots_foldl (fun u mode => slots_setMode u mode on) t modes
  | savePrivateModes modes => exact slots_foldl slots_savePrivateMode t _
  | setScrollRegion top bottom => exact slots_setScrollRegion t top bottom
  | restoreCursor => exact slots_restorePlace t
  | windowOperation args => exact slots_applyWindowOperation t args
  | cursorStyle n => exact slots_setCursorStyle t n
  | deviceStatus request => rw [applyFunction_deviceStatus]
  | privateDeviceStatus request => rw [applyFunction_privateDeviceStatus]
  | saveCursor | softReset | setPrivateMode _ _ | restorePrivateModes _ => cases hf
  | _ => rfl

/-- Of the escape sequences only the one that saves and the full reset do. -/
theorem slots_applyEscape (t : Terminal) {sequence : List UInt8}
    (hsave : (sequence.map fun b => Char.ofNat b.toNat) ≠ ['7'])
    (hreset : (sequence.map fun b => Char.ofNat b.toNat) ≠ ['c']) :
    (t.applyEscape sequence).slots = t.slots := by
  have hblind := blind_slots t.slots
  rw [applyEscape]
  split
  · rename_i hseq
    exact absurd hseq hsave
  · exact slots_restoreCursor t
  · exact hblind.index rfl
  · exact hblind.index (t := t.carriageReturn) rfl
  · exact hblind.reverseIndex rfl
  · rfl
  · rename_i hseq
    exact absurd hseq hreset
  · rfl
  · rfl
  · exact slots_screenAlignment t
  · exact slots_designate t _ _
  · exact slots_designate t _ _
  · rfl

/-- Terminals with the same screens have the same slots. -/
theorem SameScreens.slots {u : Terminal} (h : t.SameScreens u) : u.slots = t.slots := by
  obtain ⟨_, _, _, _, _, _, rfl⟩ := h
  rfl

/-! ## The cursor saved on a screen -/

variable {a : Bool}

/-- Saving fills the slot of the shown screen. -/
theorem slot_saveCursor (t : Terminal) (a : Bool) :
    t.saveCursor.slots.on a
      = if t.modes.alternateScreen = a then some t.snapshot else t.slots.on a := by
  rw [saveCursor]
  cases t.modes.alternateScreen <;> cases a <;> rfl

/-- Whether switching a private mode saves the cursor on a screen.  The mode that shows the
alternate screen as well saves only on the primary one. -/
def switchSaves (a : Bool) (t : Terminal) (mode : PrivateMode) (on : Bool) : Bool :=
  match mode, on with
  | .savedCursor, true => t.modes.alternateScreen = a
  | .alternateScreenAndCursor, true => !t.modes.alternateScreen && !a
  | _, _ => false

/-- A switch of a private mode saves the cursor, or it leaves the slots alone. -/
theorem slots_switch (t : Terminal) (mode : PrivateMode) (on : Bool) :
    (t.switch mode on).slots = t.slots ∨
    ((t.switch mode on).slots = t.saveCursor.slots ∧
      t.switchSaves t.modes.alternateScreen mode on = true) := by
  cases mode with
  | alternateScreen =>
      cases on with
      | true => exact .inl (slots_enterAlternate t false)
      | false => exact .inl (slots_exitAlternate t false)
  | blankAlternateScreen =>
      cases on with
      | true => exact .inl (slots_enterAlternate t true)
      | false => exact .inl (slots_exitAlternate t true)
  | savedCursor =>
      cases on with
      | true => exact .inr ⟨rfl, decide_eq_true rfl⟩
      | false => exact .inl (slots_restoreCursor t)
  | alternateScreenAndCursor =>
      cases hshown : t.modes.alternateScreen with
      | true =>
          cases on with
          | true =>
              simp only [switch, if_pos hshown]
              exact .inl rfl
          | false =>
              simp only [switch, if_pos hshown]
              exact .inl ((slots_restoreCursor _).trans (slots_exitAlternate t false))
      | false =>
          simp only [switch, hshown]
          cases on with
          | true => exact .inr ⟨slots_enterAlternate _ true, by simp [switchSaves, hshown]⟩
          | false => exact .inl rfl
  | _ => exact .inl rfl

/-- Switching a mode fills the slot of a screen only where it saves the cursor there. -/
theorem slot_switch {mode : PrivateMode} {on : Bool} (hnone : t.switchSaves a mode on = false) :
    (t.switch mode on).slots.on a = t.slots.on a := by
  obtain hslots | ⟨hslots, hsaves⟩ := slots_switch t mode on
  · rw [hslots]
  · rw [hslots, slot_saveCursor, if_neg]
    rintro rfl
    exact Bool.noConfusion (hnone.symm.trans hsaves)

/-- The position has a slot of its own, which saving the cursor does not fill. -/
theorem place_saveCursor (t : Terminal) : t.saveCursor.slots.place = t.slots.place := by
  rw [saveCursor]
  split <;> rfl

/-- Neither does switching a mode. -/
theorem place_switch (t : Terminal) (mode : PrivateMode) (on : Bool) :
    (t.switch mode on).slots.place = t.slots.place := by
  obtain hslots | ⟨hslots, -⟩ := slots_switch t mode on
  · rw [hslots]
  · rw [hslots, place_saveCursor]

end Terminal

/-! ## What messages leave in the slots -/

namespace Terminal

variable {t : Terminal} {m : Message}

/-- A part of the slots stays if the few things that reach the slots leave it alone, as far as the
    message does them. -/
theorem slots_apply {α : Type} (part : Slots → α)
    {marked : Terminal → PrivateMode → Bool → Bool}
    (hswitch : ∀ {u : Terminal} {mode on}, marked u mode on = false →
      part (u.switch mode on).slots = part u.slots)
    (hmodes : t.switchesAny marked m = false)
    (hcursor : m.isEscape '7' = true → part t.saveCursor.slots = part t.slots)
    (hplace : m.callsFor .saveCursor = true → part t.savePlace.slots = part t.slots)
    (hsoft : m.isSoftReset = true → part t.softReset.slots = part t.slots)
    (hfull : m.isFullReset = false) : part (t.apply m).1.slots = part t.slots := by
  let I : Terminal → Prop := fun u => part u.slots = part t.slots
  have hswitches : ∀ {u : Terminal} {mode on}, marked u mode on = false → I u →
      I (u.switch mode on) := fun hmode hu => (hswitch hmode).trans hu
  cases m with
  | print text =>
      exact congrArg part (slots_foldl (fun u c => (blind_slots u.slots).print rfl c) t text)
  | control b => exact congrArg part (slots_applyControl t b)
  | sgr params => rfl
  | csi marker params intermediates final =>
      show I (t.applyFunction (functionOf marker params intermediates final)).1
      rw [switchesAny] at hmodes
      rw [Message.callsFor, decide_eq_true_iff] at hplace
      rw [Message.isSoftReset, decide_eq_true_iff] at hsoft
      generalize functionOf marker params intermediates final = f at hmodes hplace hsoft ⊢
      cases hf : f.reachesSlots with
      | false => exact congrArg part (slots_applyFunction t hf)
      | true =>
          cases f with
          | saveCursor => exact hplace rfl
          | softReset => exact hsoft rfl
          | setPrivateMode modes on =>
              exact setPrivateModes_unmarked (I := I) hswitches rfl hmodes
          | restorePrivateModes modes =>
              exact restorePrivateModes_unmarked (I := I) hswitches rfl hmodes
          | _ => cases hf
  | osc code data ending =>
      exact congrArg part (sameScreens_applyCommand t (.ofOsc code data) ending).slots
  | esc sequence =>
      by_cases hseq : (sequence.map fun b => Char.ofNat b.toNat) = ['7']
      · have hsave : (t.apply (.esc sequence)).1 = t.saveCursor := by
          simp only [apply, applyEscape, hseq]
        rw [hsave]
        exact hcursor (decide_eq_true hseq)
      · exact congrArg part (slots_applyEscape t hseq (of_decide_eq_false hfull))
  | dcs params intermediates final data => rfl

/-- Whether a message saves the cursor on a screen. -/
def saves (a : Bool) (t : Terminal) (m : Message) : Bool :=
  (m.isEscape '7' && t.modes.alternateScreen = a) || t.switchesAny (switchSaves a) m

/-- Whether a message saves the cursor on a screen or resets the terminal, softly or fully. -/
def savesOrResets (a : Bool) (t : Terminal) (m : Message) : Bool :=
  t.saves a m || m.isSoftReset || m.isFullReset

/-- The cursor saved on a screen stays until it is saved there again, or a reset drops it. -/
theorem slot_apply {a : Bool} (hnone : t.savesOrResets a m = false) :
    (t.apply m).1.slots.on a = t.slots.on a := by
  simp only [savesOrResets, saves, Bool.or_eq_false_iff, Bool.and_eq_false_imp] at hnone
  obtain ⟨⟨⟨hsave, hmodes⟩, hsoft⟩, hfull⟩ := hnone
  refine slots_apply (·.on a) slot_switch hmodes ?_ (fun _ => rfl) ?_ hfull
  · intro hescape
    exact (slot_saveCursor t a).trans (if_neg (of_decide_eq_false (hsave hescape)))
  · intro hreset
    exact Bool.noConfusion (hsoft.symm.trans hreset)

/-- The saved place stays until another one is saved, or a full reset drops it. -/
theorem place_apply (hnone : (m.callsFor .saveCursor || m.isFullReset) = false) :
    (t.apply m).1.slots.place = t.slots.place := by
  rw [Bool.or_eq_false_iff] at hnone
  refine slots_apply Slots.place (fun _ => place_switch _ _ _) (t.switchesAny_none m)
    (fun _ => place_saveCursor t) ?_ (fun _ => rfl) hnone.2
  intro hsave
  exact Bool.noConfusion (hnone.1.symm.trans hsave)

/-! ## Restoring -/

/-- Saving the cursor changes nothing of what is saved. -/
theorem snapshot_saveCursor (t : Terminal) : t.saveCursor.snapshot = t.snapshot := by
  rw [saveCursor]
  split <;> rfl

/-- It leaves the modes alone. -/
theorem saveCursor_modes (t : Terminal) : t.saveCursor.modes = t.modes := by
  rw [saveCursor]
  split <;> rfl

/-- A cursor that was saved on the shown screen, in a place that is on it, comes back. -/
theorem snapshot_restoreCursor {s : SavedCursor}
    (hslot : t.slots.on t.modes.alternateScreen = some s) (hrow : s.row < t.rows)
    (hcol : s.col < t.cols) : t.restoreCursor.snapshot = s := by
  have hsaved : t.savedCursor? = some s := hslot
  rw [restoreCursor, hsaved]
  exact snapshot_restore hrow hcol

/-- A position on the grid is restored exactly. -/
theorem restorePlace_place {row col : Nat} (hplace : t.slots.place = some (row, col))
    (hrow : row < t.rows) (hcol : col < t.cols) :
    t.restorePlace.cursor.row = row ∧ t.restorePlace.cursor.col = col := by
  have hsaved : t.savedPlace = some (row, col) := hplace
  rw [restorePlace, hsaved]
  exact ⟨Nat.min_eq_left (Nat.le_sub_one_of_lt hrow), Nat.min_eq_left (Nat.le_sub_one_of_lt hcol)⟩

/-- Slots, modes and size are not the shown screen. -/
theorem blind_held (x : Slots) (modes : Modes) (size : Size) :
    Blind fun t => t.slots = x ∧ t.modes = modes ∧ t.size = size where
  onScreen := by
    intro t f h
    rw [onScreen]
    split <;> exact h
  onCursor := id
  printed := id

end Terminal

/-! ## Runs -/

namespace Emulator

variable {e : Emulator}

/-- Whatever was under way does not reach the slots, the modes or the size. -/
theorem interrupted_held (e : Emulator) :
    e.interrupted.slots = e.terminal.slots ∧ e.interrupted.modes = e.terminal.modes ∧
      e.interrupted.size = e.terminal.size := by
  refine (Terminal.blind_held _ _ _).absorb_resolve ?_ ⟨rfl, rfl, rfl⟩ e.decoder
  rintro t u ⟨_, _, _, _, _, _, rfl⟩ ht
  exact ht

/-- The bytes that save the cursor, to an emulator in any state: an open sequence ends first. -/
theorem write_saveCursor (e : Emulator) :
    (e.write [Byte.escape, 0x37]).terminal = e.interrupted.saveCursor :=
  (write_interrupting e (by decide)).2

/-- The bytes that restore it. -/
theorem write_restoreCursor (e : Emulator) :
    (e.write [Byte.escape, 0x38]).terminal = e.interrupted.restoreCursor :=
  (write_interrupting e (by decide)).2

/-- The bytes that save the position. -/
theorem write_savePlace (e : Emulator) :
    (e.write [Byte.escape, 0x5B, 0x73]).terminal = e.interrupted.savePlace := by
  have hrun : Machine.run Decoder.step (.csi none {}) [0x73]
      = (.ground, [.message (.csi none ⟨[]⟩ [] 0x73)]) := rfl
  exact (write_controlSequence e hrun).2

/-- The bytes that restore it. -/
theorem write_restorePlace (e : Emulator) :
    (e.write [Byte.escape, 0x5B, 0x75]).terminal = e.interrupted.restorePlace := by
  have hrun : Machine.run Decoder.step (.csi none {}) [0x75]
      = (.ground, [.message (.csi none ⟨[]⟩ [] 0x75)]) := rfl
  exact (write_controlSequence e hrun).2

/-- Calls that do not change the size keep it, and they keep a part of the slots if no message is
    marked that does not. -/
theorem run_slots {α : Type} (part : Slots → α) {marked : Terminal → Message → Bool}
    (hslots : ∀ {t : Terminal} {m : Message}, marked t m = false →
      part (t.apply m).1.slots = part t.slots)
    {calls : List Call} (hsize : ∀ size, .resize size ∉ calls)
    (hnone : e.runCompletesAny marked calls = false) :
    part (e.run calls).terminal.slots = part e.terminal.slots ∧
      (e.run calls).terminal.size = e.terminal.size := by
  refine run_unmarked (I := fun t => part t.slots = part e.terminal.slots ∧
    t.size = e.terminal.size) ?_ ?_ ?_ ⟨rfl, rfl⟩ hnone
  · exact fun hm ht => ⟨(hslots hm).trans ht.1, (Terminal.size_apply _ _).trans ht.2⟩
  · intro t offset _ ht
    have hheld := (Terminal.blind_held t.slots t.modes t.size).onScreen (t := t)
      (f := fun s => { s with viewOffset := offset s }) ⟨rfl, rfl, rfl⟩
    rw [hheld.1, hheld.2.2]
    exact ht
  · exact fun size hmem => absurd hmem (hsize size)

/-- **What is restored is what was saved last in the same slot.**  ESC 7 saves the cursor on the
    screen that is shown.  Whatever is written then, as long as the cursor is not saved on that
    screen again, nothing is reset and the size stays: if the same screen is shown at the end, ESC 8
    brings back the place of the cursor, the due wrap, pen, protection, origin mode, automatic wrap
    and character sets.  In the same way CSI u goes back to the place that CSI s has saved, whatever
    is saved and restored in between on either screen, and even if another screen is shown by then
    or the terminal was softly reset. -/
theorem restores_saved (he : e.Reachable) {calls : List Call}
    (hsize : ∀ size, .resize size ∉ calls) :
    (let saved := e.write [Byte.escape, 0x37]
      let between := saved.run calls
      let shown := saved.terminal.modes.alternateScreen
      saved.runCompletesAny (Terminal.savesOrResets shown) calls = false →
      between.terminal.modes.alternateScreen = shown →
      (between.write [Byte.escape, 0x38]).terminal.snapshot = saved.terminal.snapshot) ∧
    (let saved := e.write [Byte.escape, 0x5B, 0x73]
      let between := saved.run calls
      let restored := (between.write [Byte.escape, 0x5B, 0x75]).terminal
      saved.runCompletesAny (fun _ m => m.callsFor .saveCursor || m.isFullReset) calls = false →
      restored.cursor.row = saved.terminal.cursor.row ∧
      restored.cursor.col = saved.terminal.cursor.col) := by
  obtain ⟨limit, hformed⟩ := he.wellFormed
  have hwithin : ∀ {bytes u}, (e.write bytes).terminal.size = Terminal.size u →
      (e.write bytes).terminal.cursor.Within u.cols u.rows := by
    intro bytes u hsame
    obtain ⟨hcols, hrows⟩ := Size.mk.inj hsame
    rw [← hcols, ← hrows]
    exact (act_wellFormed hformed _ _).cursor
  constructor
  · intro saved between shown hnone hshown
    obtain ⟨hslot, hkept⟩ := run_slots (·.on shown) Terminal.slot_apply hsize hnone
    obtain ⟨hslots, hmodes, hsame⟩ := interrupted_held between
    obtain ⟨hrow, hcol⟩ := hwithin (hsame.trans hkept).symm
    have hsaved : saved.terminal.slots.on shown = some saved.terminal.snapshot := by
      have hshown : e.interrupted.modes.alternateScreen = shown := by
        show _ = (e.write _).terminal.modes.alternateScreen
        rw [write_saveCursor, Terminal.saveCursor_modes]
      rw [write_saveCursor, Terminal.slot_saveCursor, Terminal.snapshot_saveCursor,
        if_pos hshown]
    rw [write_restoreCursor]
    refine Terminal.snapshot_restoreCursor ?_ hrow hcol
    rw [hslots, hmodes, hshown]
    exact hslot.trans hsaved
  · intro saved between restored hnone
    obtain ⟨hplace, hkept⟩ := run_slots Slots.place Terminal.place_apply hsize hnone
    obtain ⟨hslots, -, hsame⟩ := interrupted_held between
    obtain ⟨hrow, hcol⟩ := hwithin (hsame.trans hkept).symm
    have hsaved : saved.terminal.slots.place
        = some (saved.terminal.cursor.row, saved.terminal.cursor.col) := by
      rw [write_savePlace]
      rfl
    show (between.write _).terminal.cursor.row = _ ∧ (between.write _).terminal.cursor.col = _
    rw [write_restorePlace]
    refine Terminal.restorePlace_place ?_ hrow hcol
    rw [hslots]
    exact hplace.trans hsaved

/-- Both forms around a visit to the alternate screen, where the cursor is saved and restored by
    itself, and which ends in a command that the restoring cuts short. -/
theorem restores_saved_visited :
    let e : Emulator := { terminal := .new 4 3 0 .cancelBold }
    let visit : List Call := [
      .write (Utf8.ofString "\x1b[2;3H\x1b[?1047h\x1b[?1048h\x1b7\x1b[?7l"), .viewUp 2,
      .write (Utf8.ofString "\x1b8\x1b[1;4H日\x1b[?1047l\x1b[31m\x1b]0;a")]
    let saved := e.write [Byte.escape, 0x37]
    let placed := e.write [Byte.escape, 0x5B, 0x73]
    let back := ((placed.run visit).write [Byte.escape, 0x5B, 0x75]).terminal
    (e.Reachable ∧ (∀ size, .resize size ∉ visit) ∧
      saved.runCompletesAny (Terminal.savesOrResets saved.terminal.modes.alternateScreen) visit
        = false ∧
      (saved.run visit).terminal.modes.alternateScreen = saved.terminal.modes.alternateScreen ∧
      placed.runCompletesAny (fun _ m => m.callsFor .saveCursor || m.isFullReset) visit
        = false) ∧
    ((saved.run visit).write [Byte.escape, 0x38]).terminal.snapshot = saved.terminal.snapshot ∧
    back.cursor.row = placed.terminal.cursor.row ∧
    back.cursor.col = placed.terminal.cursor.col := by
  intro e visit saved placed back
  have he : e.Reachable := ⟨⟨4, 3⟩, 0, .cancelBold, e, [], create_of_valid (by decide) _ _, rfl⟩
  have hsize : ∀ size, .resize size ∉ visit := by
    intro size hmem
    simp [visit] at hmem
  have hcursor : saved.runCompletesAny
      (Terminal.savesOrResets saved.terminal.modes.alternateScreen) visit = false := by
    decide +kernel
  have hshown : (saved.run visit).terminal.modes.alternateScreen
      = saved.terminal.modes.alternateScreen := by
    decide +kernel
  have hplace : placed.runCompletesAny (fun _ m => m.callsFor .saveCursor || m.isFullReset) visit
      = false := by
    decide +kernel
  obtain ⟨hrestored, hback⟩ := restores_saved he hsize
  exact ⟨⟨he, hsize, hcursor, hshown, hplace⟩, hrestored hcursor hshown, hback hplace⟩

end Emulator

end VideoTerminal
