import VideoTerminal.Proofs.Hidden
import VideoTerminal.Proofs.Interruption
import VideoTerminal.Proofs.Reachable

/-!
# A visit to the alternate screen

A program shows the alternate screen by one of three modes, writes there, and shows the primary
screen again by the same mode.  As long as what it writes does not show the primary screen itself,
that screen is then what it was: its rows, its history and its view, and its cursor where the mode
does not restore a saved one.

The terminal that the visit begins with is the one behind the introducer of the first sequence,
where whatever was under way has been interrupted.  `Terminal.hiddenBy` is what it puts out of
sight, `Terminal.Hides.run` says that this is still there at the end, and `Terminal.Hides.leave`
brings it back.

The third mode saves the cursor on entering and restores it on leaving.  The saved cursor is out of
sight in the same way, but for the soft reset, which drops it.
-/

namespace VideoTerminal

/-! ## Entering and leaving -/

namespace Terminal

variable {x : Hidden} {t : Terminal} {mode : Nat}

/-- What a mode puts out of sight when it shows the alternate screen. -/
def hiddenBy (t : Terminal) (mode : Nat) : Hidden :=
  { t.hidden with
    cursor := some t.cursor
    saved := if mode = 1049 then some t.snapshot else t.primarySaved }

theorem hides_enter (hshown : t.modes.alternateScreen = false)
    (hmode : mode = 47 ∨ mode = 1047 ∨ mode = 1049) :
    (t.setPrivateMode mode true).Hides (t.hiddenBy mode) := by
  have henter : ∀ {t : Terminal} clear, t.modes.alternateScreen = false →
      (t.enterAlternate clear).Hides { t.hidden with cursor := some t.cursor } := by
    intro t clear hshown
    simp only [enterAlternate, hshown]
    cases clear <;> exact ⟨rfl, rfl⟩
  rcases hmode with rfl | rfl | rfl
  · exact henter false hshown
  · exact henter true hshown
  · have hsaved : t.saveCursor = { t with primarySaved := some t.snapshot } := by
      rw [saveCursor, hshown]
      rfl
    have hswitch : t.setPrivateMode 1049 true = t.saveCursor.enterAlternate true := by
      show (if t.modes.alternateScreen then t else t.saveCursor.enterAlternate true) = _
      rw [hshown]
      rfl
    rw [hswitch, hsaved]
    exact henter (t := { t with primarySaved := some t.snapshot }) true hshown

/-- Showing the primary screen brings its cursor back and does nothing else to what was hidden. -/
theorem Hides.exitAlternate (h : t.Hides x) (clear : Bool) :
    (t.exitAlternate clear).hidden = { x with cursor := none } ∧
    (t.exitAlternate clear).modes.alternateScreen = false ∧
    (t.exitAlternate clear).cursor = x.cursor.getD t.cursor := by
  rw [← h.hidden, Terminal.exitAlternate, if_pos h.shown]
  cases clear <;> exact ⟨rfl, rfl, rfl⟩

/-- The mode that saves the cursor restores it behind the switch. -/
theorem Hides.switch_restoring (h : t.Hides x) :
    t.setPrivateMode 1049 false = (t.exitAlternate false).restoreCursor := by
  show (if t.modes.alternateScreen then (t.exitAlternate false).restoreCursor else t) = _
  rw [h.shown]
  rfl

/-- Restoring the cursor does not reach the primary screen. -/
theorem restoreCursor_primary (t : Terminal) : t.restoreCursor.primary = t.primary := by
  rw [restoreCursor]
  split <;> rfl

/-- Each mode shows the primary screen that was hidden, and two of them its cursor. -/
theorem Hides.leave (h : t.Hides x) (hmode : mode = 47 ∨ mode = 1047 ∨ mode = 1049) :
    (t.setPrivateMode mode false).primary.resetRegion = x.primary ∧
    (mode ≠ 1049 → (t.setPrivateMode mode false).cursor = x.cursor.getD t.cursor) := by
  have hprimary : ∀ clear, (t.exitAlternate clear).primary.resetRegion = x.primary :=
    fun clear => congrArg Hidden.primary (h.exitAlternate clear).1
  rcases hmode with rfl | rfl | rfl
  · exact ⟨hprimary false, fun _ => (h.exitAlternate false).2.2⟩
  · exact ⟨hprimary true, fun _ => (h.exitAlternate true).2.2⟩
  · rw [h.switch_restoring, restoreCursor_primary]
    exact ⟨hprimary false, fun hne => absurd rfl hne⟩

/-- A place on the screen is restored as it was saved. -/
theorem snapshot_restore {s : SavedCursor} (hrow : s.row < t.rows) (hcol : s.col < t.cols) :
    (t.restore s).snapshot = s := by
  have hrow : min s.row (t.rows - 1) = s.row := by omega
  have hcol' : min s.col (t.cols - 1) = s.col := by omega
  simp [restore, snapshot, hrow, hcol, hcol']

theorem restoreCursor_of_none (hshown : t.modes.alternateScreen = false)
    (hsaved : t.primarySaved = none) : t.restoreCursor = t.restoreDefault := by
  simp [restoreCursor, savedCursor?, hshown, hsaved]

theorem restoreCursor_of_some (hshown : t.modes.alternateScreen = false) {s : SavedCursor}
    (hsaved : t.primarySaved = some s) : t.restoreCursor = t.restore s := by
  simp [restoreCursor, savedCursor?, hshown, hsaved]

end Terminal

/-! ## The visit -/

namespace Emulator

/-- Shows the alternate screen by a mode, writes there, and shows the primary screen again. -/
def visit (e : Emulator) (mode : Nat) (bytes : List UInt8) : Emulator :=
  ((e.write (Message.switchMode mode true).encode).write bytes).write
    (Message.switchMode mode false).encode

/-- Whether the alternate screen is shown throughout, while the bytes are written.  A full reset
shows the primary screen too. -/
def staysOnAlternate (e : Emulator) (mode : Nat) (bytes : List UInt8) : Bool :=
  let inside := e.write (Message.switchMode mode true).encode
  inside.terminal.staysOnAlternate (inside.decoder.push bytes).2

variable {e : Emulator} {mode : Nat} {bytes : List UInt8}

/-- Whatever was under way does not change the screen that is shown. -/
theorem write_introducer_modes (e : Emulator) :
    (e.write [Byte.escape, 0x5B]).terminal.modes = e.terminal.modes := by
  rw [(write_introducer e).2]
  refine (Terminal.blind_modes e.terminal.modes).absorb_resolve ?_ rfl e.decoder
  rintro t u ⟨_, _, _, _, _, _, rfl⟩ ht
  exact ht

/-- The terminal just before the primary screen is shown again. -/
theorem visit_hides (hshown : e.terminal.modes.alternateScreen = false)
    (hmode : mode = 47 ∨ mode = 1047 ∨ mode = 1049)
    (hstays : e.staysOnAlternate mode bytes = true) :
    ∃ u : Terminal, (e.visit mode bytes).terminal = u.setPrivateMode mode false ∧
      u.Hides ((Decoder.ground.push bytes).2.foldl Hidden.after
        ((e.write [Byte.escape, 0x5B]).terminal.hiddenBy mode)) := by
  have hmax : mode ≤ Params.maxValue := by
    rcases hmode with rfl | rfl | rfl <;> decide
  obtain ⟨hground, hinside⟩ := write_switchMode e hmax true
  obtain ⟨_, hvisit⟩ := write_switchMode
    ((e.write (Message.switchMode mode true).encode).write bytes) hmax false
  refine ⟨_, hvisit, ?_⟩
  rw [staysOnAlternate, hground] at hstays
  -- entering, then the bytes, then what they left under way
  have henter : (e.write (Message.switchMode mode true).encode).terminal.Hides
      ((e.write [Byte.escape, 0x5B]).terminal.hiddenBy mode) := by
    rw [hinside]
    exact Terminal.hides_enter ((write_introducer_modes e) ▸ hshown) hmode
  have hwritten := henter.run hstays
  rw [← hground, ← write_messages] at hwritten
  rw [← hground,
    (write_introducer ((e.write (Message.switchMode mode true).encode).write bytes)).2]
  exact (Terminal.Hides.blind _).absorb_resolve (fun hu h => h.sameScreens hu) hwritten _

/-- **The alternate screen leaves the primary one alone.**  Behind a visit by any of the three modes
    the primary screen has the rows, the history with its limit, and the view that it had before;
    and but for the mode that restores a saved cursor, the cursor is what it was in every respect.
    Before means behind the introducer, and this is no different from the terminal as it was,
    unless the sequence cuts a character off. -/
theorem visit_primary (hshown : e.terminal.modes.alternateScreen = false)
    (hmode : mode = 47 ∨ mode = 1047 ∨ mode = 1049)
    (hstays : e.staysOnAlternate mode bytes = true) :
    let before := (e.write [Byte.escape, 0x5B]).terminal
    let after := (e.visit mode bytes).terminal
    (after.primary.grid = before.primary.grid ∧
      after.primary.history = before.primary.history ∧
      after.primary.historyLimit = before.primary.historyLimit ∧
      after.primary.viewOffset = before.primary.viewOffset) ∧
    (mode ≠ 1049 → after.cursor = before.cursor) ∧
    (e.decoder.isInCharacter = false →
      before.primary = e.terminal.primary ∧ before.cursor = e.terminal.cursor) := by
  obtain ⟨u, hvisit, hu⟩ := visit_hides hshown hmode hstays
  rw [Hidden.foldl_after] at hu
  obtain ⟨hprimary, hcursor⟩ := hu.leave hmode
  rw [← hvisit] at hprimary hcursor
  refine ⟨Screen.eq_of_resetRegion hprimary, hcursor, ?_⟩
  intro hdecoder
  obtain ⟨_, _, _, _, _, _, hbefore⟩ := Terminal.sameScreens_absorb_resolve e.terminal hdecoder
  rw [(write_introducer e).2, hbefore]
  exact ⟨rfl, rfl⟩

/-- A region, a screen filled by itself, a soft reset and an erased history stay on the alternate
    screen; the two rows of the primary screen and the one in its history stay too. -/
theorem visit_primary_full :
    let t := Terminal.new 2 2 9 .cancelBold
    let e := write { terminal := t } (Utf8.ofString "ab\r\ncd\r\ne")
    let bytes := Utf8.ofString "\x1b[1;1r日\x1b#8\x1b[!p\x1b[3J\x1b[?1047hx\n\n"
    (e.terminal.modes.alternateScreen = false ∧ e.staysOnAlternate 1047 bytes = true) ∧
    (e.visit 1047 bytes).terminal.primary.grid = e.terminal.primary.grid ∧
    (e.visit 1047 bytes).terminal.cursor = e.terminal.cursor := by
  intro t e bytes
  have hshown : e.terminal.modes.alternateScreen = false := by decide +kernel
  have hstays : e.staysOnAlternate 1047 bytes = true := by decide +kernel
  obtain ⟨⟨hgrid, -⟩, hcursor, hbefore⟩ := visit_primary hshown (.inr (.inl rfl)) hstays
  obtain ⟨hprimary, hcursor'⟩ := hbefore (by decide +kernel)
  exact ⟨⟨hshown, hstays⟩, hgrid.trans (congrArg Screen.grid hprimary),
    (hcursor (by decide)).trans hcursor'⟩

/-! ## The cursor that was saved -/

/-- Behind a visit by the mode that saves the cursor, the saved cursor is restored. -/
theorem visit_restores (hshown : e.terminal.modes.alternateScreen = false)
    (hstays : e.staysOnAlternate 1049 bytes = true) :
    let before := (e.write [Byte.escape, 0x5B]).terminal
    ∃ u : Terminal, (e.visit 1049 bytes).terminal = u.restoreCursor ∧
      u.modes.alternateScreen = false ∧ u.cols = before.cols ∧ u.rows = before.rows ∧
      u.primarySaved = if (Decoder.ground.push bytes).2.any Message.isSoftReset then none
        else some before.snapshot := by
  intro before
  obtain ⟨u, hvisit, hu⟩ := visit_hides hshown (.inr (.inr rfl)) hstays
  rw [Hidden.foldl_after] at hu
  obtain ⟨hhidden, hprimary, -⟩ := hu.exitAlternate false
  exact ⟨u.exitAlternate false, hvisit.trans hu.switch_restoring, hprimary,
    congrArg Hidden.cols hhidden, congrArg Hidden.rows hhidden, congrArg Hidden.saved hhidden⟩

/-- **The mode that saves the cursor restores it, unless a soft reset comes between.**  Without a
    soft reset among the messages of the visit, the place of the cursor, the wrap that is due, pen,
    protection, origin mode, automatic wrap and character sets are what they were before.  With
    one, the cursor is at home with a plain pen, as if nothing had been saved. -/
theorem visit_cursor {size : Size} (hsize : size.isValid = true) (limit : Nat) (sgr21 : Sgr21)
    (calls : List Call) (bytes : List UInt8) :
    ∃ e, create size limit sgr21 = .ok e ∧
      let e := e.run calls
      let before := (e.write [Byte.escape, 0x5B]).terminal
      let after := (e.visit 1049 bytes).terminal
      let ms := (Decoder.ground.push bytes).2
      e.terminal.modes.alternateScreen = false → e.staysOnAlternate 1049 bytes = true →
      (ms.any Message.isSoftReset = false → after.snapshot = before.snapshot) ∧
      (ms.any Message.isSoftReset = true →
        ∃ autowrap, after.snapshot = ⟨0, 0, false, {}, false, false, autowrap, {}⟩) ∧
      (e.decoder.isInCharacter = false → before.snapshot = e.terminal.snapshot) := by
  refine ⟨_, create_of_valid hsize limit sgr21, ?_⟩
  have hformed : Terminal.WellFormed limit
      (run { terminal := Terminal.new size.cols size.rows limit sgr21 } calls).terminal :=
    run_wellFormed (Terminal.wellFormed_new hsize limit sgr21) calls
  generalize run _ calls = e at hformed
  intro e before after ms hshown hstays
  have hcursor : before.cursor.Within before.cols before.rows :=
    (act_wellFormed hformed _ _).cursor
  obtain ⟨u, hafter, hprimary, hcols, hrows, hsaved⟩ := visit_restores hshown hstays
  refine ⟨?_, ?_, ?_⟩
  · intro hsoft
    rw [hsoft] at hsaved
    show (e.visit 1049 bytes).terminal.snapshot = before.snapshot
    rw [hafter, Terminal.restoreCursor_of_some hprimary hsaved]
    exact Terminal.snapshot_restore (hrows ▸ hcursor.1) (hcols ▸ hcursor.2)
  · intro hsoft
    rw [hsoft] at hsaved
    show ∃ autowrap, (e.visit 1049 bytes).terminal.snapshot = _
    rw [hafter, Terminal.restoreCursor_of_none hprimary hsaved]
    exact ⟨_, rfl⟩
  · intro hdecoder
    obtain ⟨_, _, _, _, _, _, hsame⟩ := Terminal.sameScreens_absorb_resolve e.terminal hdecoder
    show (e.write [Byte.escape, 0x5B]).terminal.snapshot = _
    rw [(write_introducer e).2, hsame]
    rfl

/-- Cursors saved and restored, a mode of the cursor and another pen on the alternate screen: a
    cursor that waits to wrap, its red pen and origin mode come back. -/
theorem visit_cursor_waiting :
    let size : Size := ⟨3, 2⟩
    let calls : List Call := [.write (Utf8.ofString "\x1b[?6h\x1b[31mabc")]
    let bytes := Utf8.ofString
      "\x1b7\x1b[?6l\x1b[?7l\x1b[2;1H\x1b[0m\x1b(0\x1b[?1048l\x1b[1\x22qx"
    size.isValid = true ∧ ∃ e, create size 0 .cancelBold = .ok e ∧
      let e := e.run calls
      (e.terminal.modes.alternateScreen = false ∧ e.staysOnAlternate 1049 bytes = true) ∧
      e.terminal.snapshot.pendingWrap = true ∧
      (e.visit 1049 bytes).terminal.snapshot = e.terminal.snapshot := by
  intro size calls bytes
  have hsize : size.isValid = true := by decide
  obtain ⟨e, he, hvisit⟩ := visit_cursor hsize 0 .cancelBold calls bytes
  obtain rfl := Except.ok.inj (he.symm.trans (create_of_valid hsize 0 .cancelBold))
  obtain ⟨hrestored, -, hbefore⟩ := hvisit (by decide +kernel) (by decide +kernel)
  refine ⟨hsize, _, he, ⟨by decide +kernel, by decide +kernel⟩, by decide +kernel, ?_⟩
  exact (hrestored (by decide +kernel)).trans (hbefore (by decide +kernel))

/-- A soft reset on the alternate screen drops what the mode has saved, and the cursor of the
    primary screen ends at home instead of behind the text. -/
theorem visit_cursor_softReset :
    let e := write { terminal := Terminal.new 4 2 0 .cancelBold } (Utf8.ofString "ab")
    let bytes := Utf8.ofString "\x1b[!p"
    (e.terminal.modes.alternateScreen = false ∧ e.decoder = .ground ∧
      e.staysOnAlternate 1049 bytes = true) ∧
    (e.terminal.snapshot.row, e.terminal.snapshot.col) = (0, 2) ∧
    ((e.visit 1049 bytes).terminal.snapshot.row, (e.visit 1049 bytes).terminal.snapshot.col)
      = (0, 0) := by
  decide +kernel

end Emulator

end VideoTerminal
