import Mathlib.Data.List.Induction
import VideoTerminal.Proofs.Cursors
import VideoTerminal.Proofs.Reachable

/-!
# Wraps at the margin

A character in the last column makes a wrap due, and everything that moves the cursor calls it off.
So a wrap is due in the last column only, and the next character does not leave the middle of a
line.

There is one way out.  A cursor is saved together with its due wrap, and while it is saved the
screen may become wider; the saved column is then no longer the last one.  Restoring looks whether
the column is still on the screen, which is right for a screen that has become narrower, but does
not call off the wrap.  The columns in which that can happen are a parameter of the invariant,
`Cursors.AtMargin`; messages keep the invariant whatever they are, and only a change of size adds
to them.
-/

namespace VideoTerminal

/-! ## The invariant -/

/-- A wrap is due in the last column only, or in a column of `W`. -/
def Cursor.AtMargin (W : Nat → Prop) (cols : Nat) (c : Cursor) : Prop :=
  c.pendingWrap = true → cols ≤ c.col + 1 ∨ W c.col

/-- A wrap was due in the last column or further right, or in a column of `W`. -/
def SavedCursor.AtMargin (W : Nat → Prop) (cols : Nat) (s : SavedCursor) : Prop :=
  s.pendingWrap = true → cols ≤ s.col + 1 ∨ W s.col

theorem Cursor.AtMargin.of_settled {W : Nat → Prop} {cols : Nat} {c : Cursor}
    (h : c.pendingWrap = false) : c.AtMargin W cols :=
  fun hdue => absurd (h.symm.trans hdue) Bool.false_ne_true

namespace Cursors

/-- No cursor has a wrap due away from the margin. -/
structure AtMargin (W : Nat → Prop) (x : Cursors) : Prop where
  current : x.current.AtMargin W x.cols
  putAside : ∀ c ∈ x.putAside, c.AtMargin W x.cols
  savedPrimary : ∀ s ∈ x.savedPrimary, s.AtMargin W x.cols
  savedAlternate : ∀ s ∈ x.savedAlternate, s.AtMargin W x.cols

variable {W : Nat → Prop} {x : Cursors}

/-- Saving copies the place and the due wrap. -/
theorem Snapshot.atMargin {s : SavedCursor} (hs : x.Snapshot s)
    (h : x.current.AtMargin W x.cols) : ∀ s' ∈ some s, s'.AtMargin W x.cols := by
  intro s' hs' hdue
  obtain rfl := Option.some.inj hs'
  rw [hs.pendingWrap] at hdue
  rw [hs.col]
  exact h hdue

theorem atMargin_renewed (W : Nat → Prop) (cols : Nat) : AtMargin W { cols } where
  current := .of_settled rfl
  putAside _ hc := absurd hc (Option.not_mem_none _)
  savedPrimary _ hs := absurd hs (Option.not_mem_none _)
  savedAlternate _ hs := absurd hs (Option.not_mem_none _)

/-- No step makes a wrap due away from the margin. -/
theorem kept_atMargin (W : Nat → Prop) : Kept (AtMargin W) := by
  intro x y hstep h
  cases hstep with
  | move hc => exact { h with current := fun hdue => .inl (hc hdue) }
  | style style => exact { h with current := h.current }
  | select policy params => exact { h with }
  | plain => exact { h with }
  | savePrimary hs => exact { h with savedPrimary := hs.atMargin h.current }
  | saveAlternate hs => exact { h with savedAlternate := hs.atMargin h.current }
  | restore hs hc =>
      refine { h with current := fun hdue => ?_ }
      obtain ⟨hdue, hcol⟩ := hc hdue
      show _ ≤ Cursor.col _ + 1 ∨ W (Cursor.col _)
      rw [hcol]
      exact hs.elim (h.savedPrimary _ · hdue) (h.savedAlternate _ · hdue)
  | putAside => exact { h with putAside := fun c hc => Option.some.inj hc ▸ h.current }
  | takeBack =>
      have hback : (x.putAside.getD x.current).AtMargin W x.cols := by
        cases hput : x.putAside with
        | none => exact h.current
        | some c => exact h.putAside c hput
      exact { h with current := hback, putAside := (atMargin_renewed W x.cols).putAside }
  | forget =>
      have hnone := atMargin_renewed W x.cols
      exact { h with
        savedPrimary := hnone.savedPrimary
        savedAlternate := hnone.savedAlternate }
  | renew => exact atMargin_renewed W x.cols

end Cursors

namespace Terminal

variable {W : Nat → Prop} {t : Terminal}

/-- The cursor saved on one of the screens has a wrap due in a column that is not the last one. -/
def HasStaleWrap (t : Terminal) (col : Nat) : Prop :=
  ∃ s, (s ∈ t.primarySaved ∨ s ∈ t.alternateSaved) ∧
    s.pendingWrap = true ∧ s.col = col ∧ col + 1 < t.cols

/-- A change of size leaves no wrap due but in saved cursors.  In these it is away from the margin
only if the screen has become wider. -/
theorem atMargin_resize (h : t.cursors.AtMargin W) {cols rows : Nat}
    (hW : t.cols < cols → ∀ col, (t.resize cols rows).HasStaleWrap col → W col) :
    (t.resize cols rows).cursors.AtMargin W := by
  have hsaved : ∀ s, (s ∈ t.primarySaved ∨ s ∈ t.alternateSaved) → s.AtMargin W t.cols →
      s.AtMargin W cols := by
    intro s hs hmargin hdue
    by_cases hlast : cols ≤ s.col + 1
    · exact .inl hlast
    · by_cases hwider : t.cols < cols
      · exact .inr (hW hwider s.col ⟨s, hs, hdue, rfl, Nat.lt_of_not_le hlast⟩)
      · refine (hmargin hdue).imp_left fun hle => ?_
        exact Nat.le_trans (Nat.le_of_not_lt hwider) hle
  refine ⟨.of_settled rfl, ?_, ?_, ?_⟩
  · intro c hc
    obtain ⟨c', _, rfl⟩ := Option.map_eq_some_iff.mp hc
    exact .of_settled rfl
  · exact fun s hs => hsaved s (.inl hs) (h.savedPrimary s hs)
  · exact fun s hs => hsaved s (.inr hs) (h.savedAlternate s hs)

/-- Where no wrap is due and the last column is not reached, a character stays in the row. -/
theorem print_row (hsettled : t.cursor.pendingWrap = false) (hcol : t.cursor.col + 1 < t.cols)
    (c : Char) : (t.print c).cursor.row = t.cursor.row := by
  dsimp only [print]
  split
  · rfl
  · rw [addMark]
    split
    · rw [onCursorRow_cursor]
    · rfl
  · rename_i width _ _
    split
    · rfl
    · rw [place_row]
      exact ready_row hsettled (by omega)

/-- Restoring makes a wrap due away from the margin just if the saved one is. -/
theorem restoreCursor_stale (t : Terminal) :
    (t.restoreCursor.cursor.pendingWrap = true ∧ t.restoreCursor.cursor.col + 1 < t.cols) ↔
      ∃ s ∈ t.savedCursor?, s.pendingWrap = true ∧ s.col + 1 < t.cols := by
  rw [restoreCursor]
  cases hsaved : t.savedCursor? with
  | none => simp [restoreDefault, moveTo, onCursor]
  | some s =>
      have hrestored : (t.restore s).cursor.pendingWrap = true ∧
          (t.restore s).cursor.col + 1 < t.cols ↔
          (s.pendingWrap = true ∧ s.col < t.cols) ∧ min s.col (t.cols - 1) + 1 < t.cols := by
        simp [restore]
      simp only [Option.mem_def, Option.some.injEq, exists_eq_left']
      rw [hrestored, and_assoc]
      refine and_congr_right fun _ => ?_
      omega

end Terminal

/-! ## Runs -/

namespace Emulator

open Terminal (HasStaleWrap)

variable {W : Nat → Prop} {e : Emulator}

/-- Some change of size to more columns leaves a saved cursor with a wrap due in a column that is
not the last one. -/
def WidensPast (e : Emulator) (calls : List Call) (col : Nat) : Prop :=
  ∃ before size, before ++ [.resize size] <+: calls ∧
    (e.run before).terminal.cols < size.cols ∧
    (e.run (before ++ [.resize size])).terminal.HasStaleWrap col

theorem run_append_singleton (e : Emulator) (calls : List Call) (c : Call) :
    e.run (calls ++ [c]) = (e.run calls).call c := by
  rw [run, run, List.foldl_append]
  rfl

theorem call_atMargin (h : e.terminal.cursors.AtMargin W) (c : Call)
    (hW : ∀ size, c = .resize size → e.terminal.cols < size.cols →
      ∀ col, (e.call c).terminal.HasStaleWrap col → W col) :
    (e.call c).terminal.cursors.AtMargin W := by
  have hact := act_invariant (I := fun t => t.cursors.AtMargin W) (e := e)
    (fun m ht => Terminal.apply_kept (Cursors.kept_atMargin W) ht m) h
  have hview : ∀ f, (e.terminal.onScreen f).cursors.AtMargin W := fun f =>
    (e.terminal.cursors_onScreen f).symm ▸ h
  cases c with
  | write bytes => exact hact _ _
  | flush => exact hact _ _
  | resize size =>
      have hwider := hW size rfl
      rw [call_resize] at hwider ⊢
      split at hwider
      · rename_i hsize
        rw [if_pos hsize]
        exact Terminal.atMargin_resize h hwider
      · rename_i hsize
        rw [if_neg hsize]
        exact h
  | viewUp n =>
      rw [call_viewUp]
      exact hview _
  | viewDown n => exact hview (·.viewDown n)
  | viewReset => exact hview Screen.viewReset
  | takeEvents => exact h

/-- A run adds only the columns that its changes of size pass. -/
theorem run_atMargin (h : e.terminal.cursors.AtMargin W) (calls : List Call)
    (hW : ∀ col, e.WidensPast calls col → W col) :
    (e.run calls).terminal.cursors.AtMargin W := by
  induction calls using List.reverseRecOn with
  | nil => exact h
  | append_singleton calls c ih =>
      have hrun : (e.run calls).terminal.cursors.AtMargin W := by
        refine ih fun col hpast => hW col ?_
        obtain ⟨before, size, hbefore, hpast⟩ := hpast
        exact ⟨before, size, hbefore.trans (List.prefix_append _ _), hpast⟩
      rw [run_append_singleton]
      refine call_atMargin hrun c ?_
      rintro size rfl hwider col hstale
      rw [← run_append_singleton] at hstale
      exact hW col ⟨calls, size, List.prefix_rfl, hwider, hstale⟩

/-- **A wrap is due at the margin only, unless the screen became wider under a saved one.**  After
    any calls on a new emulator, if a wrap is due then the cursor is in the last column, or some
    change of size to more columns left a cursor saved with its wrap due in that column.  If none
    did, no character printed away from the last column leaves the row.  And restoring makes a wrap
    due away from the last column just if the saved cursor has it there. -/
theorem run_pendingWrap {size : Size} (hsize : size.isValid = true) (limit : Nat) (sgr21 : Sgr21)
    (calls : List Call) :
    ∃ new, create size limit sgr21 = .ok new ∧
      let t := (new.run calls).terminal
      (t.cursor.pendingWrap = true →
        t.cursor.col + 1 = t.cols ∨ new.WidensPast calls t.cursor.col) ∧
      (t.cursor.col + 1 < t.cols → ¬ new.WidensPast calls t.cursor.col →
        ∀ c, (t.print c).cursor.row = t.cursor.row) ∧
      ((t.restoreCursor.cursor.pendingWrap = true ∧ t.restoreCursor.cursor.col + 1 < t.cols) ↔
        ∃ s ∈ t.savedCursor?, s.pendingWrap = true ∧ s.col + 1 < t.cols) := by
  refine ⟨_, create_of_valid hsize limit sgr21, ?_⟩
  generalize hnew : ({ terminal := .new size.cols size.rows limit sgr21 } : Emulator) = new
  have hmargin : (new.run calls).terminal.cursors.AtMargin (new.WidensPast calls) :=
    run_atMargin (hnew ▸ Cursors.atMargin_renewed _ _) calls fun _ hpast => hpast
  have hcol : (new.run calls).terminal.cursor.col < (new.run calls).terminal.cols := by
    rw [← hnew]
    exact (run_wellFormed (Terminal.wellFormed_new hsize limit sgr21) calls).cursor.2
  intro t
  refine ⟨fun hdue => ?_, fun hroom hpast c => ?_, t.restoreCursor_stale⟩
  · exact (hmargin.current hdue).imp_left (Nat.le_antisymm hcol)
  · refine Terminal.print_row (Bool.eq_false_iff.mpr fun hdue => ?_) hroom c
    exact (hmargin.current hdue).elim (Nat.not_le.mpr hroom) hpast

/-- On a screen that has become narrower the restored cursor has no wrap due, and the next
    character makes one due in the new last column. -/
theorem run_pendingWrap_narrowed :
    let calls : List Call := [.write (Utf8.ofString "abcd\x1b7"), .resize ⟨3, 2⟩,
      .write (Utf8.ofString "\x1b8x")]
    (Size.mk 4 2).isValid = true ∧
    ∃ new, create ⟨4, 2⟩ 0 .cancelBold = .ok new ∧
      let t := (new.run calls).terminal
      t.cursor.pendingWrap = true ∧
      (t.cursor.col + 1 = t.cols ∨ new.WidensPast calls t.cursor.col) := by
  intro calls
  refine ⟨by decide, ?_⟩
  obtain ⟨new, hnew, hmargin, -⟩ := @run_pendingWrap ⟨4, 2⟩ (by decide) 0 .cancelBold calls
  have hdue : (new.run calls).terminal.cursor.pendingWrap = true := by
    obtain ⟨-, rfl⟩ := create_eq_ok hnew
    decide +kernel
  exact ⟨new, hnew, hdue, hmargin hdue⟩

/-- A cursor saved in the last of four columns is restored on a screen of six.  The wrap is still
    due, in the middle of the line, and the next character takes it. -/
theorem run_pendingWrap_widened :
    let calls : List Call := [.write (Utf8.ofString "abcd\x1b7"), .resize ⟨6, 2⟩,
      .write (Utf8.ofString "\x1b8")]
    ∃ new, create ⟨4, 2⟩ 0 .cancelBold = .ok new ∧
      let t := (new.run calls).terminal
      t.cursor.pendingWrap = true ∧ t.cursor.col + 1 ≠ t.cols ∧
      (t.print 'x').cursor.row ≠ t.cursor.row := by
  refine ⟨_, create_of_valid (by decide) 0 .cancelBold, ?_⟩
  decide +kernel

end Emulator

end VideoTerminal
