import VideoTerminal.Proofs.PinnedView
import VideoTerminal.Proofs.Reachable

/-!
# Motions of the view

The view is moved back and forward by counts of rows that are machine words.  A motion ought to lead
to the exact sum, cut to the history, or to the exact difference, cut to the grid: that is
`ViewMotion.target`.  Moving forward always does.  Moving back cuts the sum only after it has been
added as a machine word, and where the sum is none the addition fails: `ViewMotion.Passes`.  Then
there is no screen behind the motion, and the one before it is left as it was.

Whatever the motions, the view stays within the history, so only a count that the history leaves no
room for among the words can pass them.  The largest word is one as soon as the view has left the
grid.
-/

namespace VideoTerminal

/-- A motion of the view by a count of rows. -/
inductive ViewMotion where
  /-- Into the history. -/
  | back (n : UInt64)
  /-- To the grid. -/
  | forward (n : UInt64)
deriving DecidableEq, Repr

namespace ViewMotion

/-- The largest count. -/
def largest : UInt64 := 18446744073709551615

/-- Where a motion from an offset ought to lead in a history of some size. -/
def target (size offset : Nat) : ViewMotion → Nat
  | .back n => min (offset + n.toNat) size
  | .forward n => (max ((offset : Int) - n.toNat) 0).toNat

/-- The sum of the offset and the count is no machine word. -/
def Passes (offset : Nat) : ViewMotion → Prop
  | .back n => 18446744073709551616 ≤ offset + n.toNat
  | .forward _ => False

/-- The motion as a call of the emulator. -/
def call : ViewMotion → Emulator.Call
  | .back n => .viewUp n.toNat
  | .forward n => .viewDown n.toNat

/-- A motion leads to an offset within the history. -/
theorem target_le {size offset : Nat} (h : offset ≤ size) (m : ViewMotion) :
    m.target size offset ≤ size := by
  cases m with
  | back n => exact Nat.min_le_right _ _
  | forward n =>
      rw [target]
      omega

/-- A count that leaves room for the history among the words does not pass them. -/
theorem not_passes {size offset : Nat} (h : offset ≤ size) {m : ViewMotion}
    (hroom : ∀ n, m = .back n → size + n.toNat < 18446744073709551616) : ¬m.Passes offset := by
  cases m with
  | back n =>
      have hsum := hroom n rfl
      exact Nat.not_le_of_lt (by omega)
  | forward n => exact id

end ViewMotion

namespace Screen

variable {s : Screen}

/-- The screen behind a motion of its view, unless its addition fails. -/
def moveView? (s : Screen) : ViewMotion → Option Screen
  | .back n => s.viewUp? n.toNat
  | .forward n => some (s.viewDown n.toNat)

/-- The screen behind a motion, or as it was where the addition fails. -/
def moveView (s : Screen) (m : ViewMotion) : Screen := (s.moveView? m).getD s

/-! ## One motion -/

/-- A motion leads exactly where it ought to, or it fails, and it fails just if its sum is no
    machine word. -/
theorem moveView?_eq (s : Screen) (m : ViewMotion) :
    (m.Passes s.viewOffset ∧ s.moveView? m = none) ∨
    (¬m.Passes s.viewOffset ∧
      s.moveView? m = some { s with viewOffset := m.target s.history.size s.viewOffset }) := by
  cases m with
  | back n =>
      rw [moveView?, viewUp?]
      by_cases hsum : s.viewOffset + n.toNat < offsetModulus
      · refine Or.inr ⟨Nat.not_le_of_lt hsum, ?_⟩
        rw [if_pos hsum]
        rfl
      · exact Or.inl ⟨Nat.le_of_not_lt hsum, if_neg hsum⟩
  | forward n =>
      have hdifference : s.viewOffset - n.toNat
          = (max ((s.viewOffset : Int) - n.toNat) 0).toNat := by omega
      refine Or.inr ⟨id, ?_⟩
      rw [moveView?, viewDown, hdifference]
      rfl

theorem moveView?_of_not_passes {m : ViewMotion} (hm : ¬m.Passes s.viewOffset) :
    s.moveView? m = some { s with viewOffset := m.target s.history.size s.viewOffset } := by
  rcases s.moveView?_eq m with ⟨hpasses, -⟩ | ⟨-, hmoved⟩
  · exact absurd hpasses hm
  · exact hmoved

theorem moveView?_eq_none_iff {m : ViewMotion} :
    s.moveView? m = none ↔ m.Passes s.viewOffset := by
  rcases s.moveView?_eq m with ⟨hpasses, hnone⟩ | ⟨hexact, hsome⟩
  · exact ⟨fun _ => hpasses, fun _ => hnone⟩
  · rw [hsome]
    exact ⟨nofun, fun hpasses => absurd hpasses hexact⟩

/-- A motion changes nothing but the offset, and keeps it within the history. -/
theorem moveView_eq (hview : s.viewOffset ≤ s.history.size) (m : ViewMotion) :
    ∃ offset, offset ≤ s.history.size ∧ s.moveView m = { s with viewOffset := offset } := by
  rw [moveView]
  rcases s.moveView?_eq m with ⟨-, hnone⟩ | ⟨-, hsome⟩
  · rw [hnone]
    exact ⟨s.viewOffset, hview, rfl⟩
  · rw [hsome]
    exact ⟨_, m.target_le hview, rfl⟩

/-- A motion back that does not fail never leads forward. -/
theorem le_viewOffset_of_back (hview : s.viewOffset ≤ s.history.size) {n : UInt64} {v : Screen}
    (hv : s.moveView? (.back n) = some v) : s.viewOffset ≤ v.viewOffset := by
  rcases s.moveView?_eq (.back n) with ⟨-, hnone⟩ | ⟨-, hsome⟩
  · rw [hnone] at hv
    cases hv
  · rw [hsome] at hv
    cases hv
    show s.viewOffset ≤ min (s.viewOffset + n.toNat) s.history.size
    omega

/-- From the grid the largest word moves the view back to the oldest line. -/
theorem view_largest (hgrid : s.viewOffset = 0) (hword : s.history.size < offsetModulus) :
    ∃ v, s.moveView? (.back ViewMotion.largest) = some v ∧
      v.view.toList = s.lines.take s.rows := by
  have hlargest : ViewMotion.largest.toNat = 18446744073709551615 := rfl
  have hpositive : offsetModulus = 18446744073709551616 := rfl
  have hword' : ¬(ViewMotion.back ViewMotion.largest).Passes s.viewOffset := by
    show ¬18446744073709551616 ≤ s.viewOffset + ViewMotion.largest.toNat
    omega
  refine ⟨_, moveView?_of_not_passes hword', ?_⟩
  have hfull : (ViewMotion.back ViewMotion.largest).target s.history.size s.viewOffset
      = s.history.size := by
    rw [ViewMotion.target]
    omega
  rw [hfull, toList_view, viewTop, Nat.sub_self, List.drop_zero]
  rfl

/-- From any other offset it fails. -/
theorem moveView?_largest (hback : 0 < s.viewOffset) :
    s.moveView? (.back ViewMotion.largest) = none := by
  have hlargest : ViewMotion.largest.toNat = 18446744073709551615 := rfl
  refine moveView?_eq_none_iff.mpr ?_
  show 18446744073709551616 ≤ s.viewOffset + ViewMotion.largest.toNat
  omega

/-! ## Motions in a row -/

/-- Motions change nothing but the offset, and keep it within the history. -/
theorem foldl_moveView (hview : s.viewOffset ≤ s.history.size) (motions : List ViewMotion) :
    ∃ offset, offset ≤ s.history.size ∧
      motions.foldl moveView s = { s with viewOffset := offset } := by
  induction motions generalizing s with
  | nil => exact ⟨s.viewOffset, hview, rfl⟩
  | cons m motions ih =>
      obtain ⟨offset, hoffset, hnext⟩ := moveView_eq hview m
      rw [List.foldl_cons, hnext]
      exact ih (s := { s with viewOffset := offset }) hoffset

/-- Motions of which none fails lead where they ought to. -/
theorem foldlM_moveView? {motions : List ViewMotion} {v : Screen}
    (hv : motions.foldlM moveView? s = some v) :
    v = motions.foldl moveView s ∧
    v.viewOffset
      = motions.foldl (fun offset m => m.target s.history.size offset) s.viewOffset := by
  induction motions generalizing s with
  | nil =>
      cases hv
      exact ⟨rfl, rfl⟩
  | cons m motions ih =>
      obtain ⟨next, hnext, hrest⟩ := Option.bind_eq_some_iff.mp hv
      obtain ⟨hlast, hexact⟩ := ih hrest
      rw [List.foldl_cons, List.foldl_cons, moveView, hnext]
      refine ⟨hlast, ?_⟩
      rcases s.moveView?_eq m with ⟨-, hnone⟩ | ⟨-, hsome⟩
      · rw [hnone] at hnext
        cases hnext
      · rw [hsome] at hnext
        cases hnext
        exact hexact

/-- Counts that leave room for the history among the words never fail, in any order. -/
theorem exists_foldlM_moveView? (hview : s.viewOffset ≤ s.history.size)
    {motions : List ViewMotion}
    (hroom : ∀ n, .back n ∈ motions → s.history.size + n.toNat < offsetModulus) :
    ∃ v, motions.foldlM moveView? s = some v := by
  induction motions generalizing s with
  | nil => exact ⟨s, rfl⟩
  | cons m motions ih =>
      have hm : ¬m.Passes s.viewOffset :=
        ViewMotion.not_passes hview fun n hn => hroom n (hn ▸ List.mem_cons_self)
      rw [List.foldlM_cons, moveView?_of_not_passes hm]
      exact ih (s := { s with viewOffset := m.target s.history.size s.viewOffset })
        (m.target_le hview) fun n hn => hroom n (List.mem_cons_of_mem m hn)

end Screen

namespace Emulator

/-- The emulator moves the view of the screen that is shown, and stays as it is where the addition
    fails. -/
theorem screen_call_motion (e : Emulator) (m : ViewMotion) :
    (e.call m.call).terminal.screen = e.terminal.screen.moveView m := by
  cases m with
  | back n =>
      show ((e.viewUp? n.toNat).getD e).terminal.screen
        = (e.terminal.screen.viewUp? n.toNat).getD e.terminal.screen
      rw [viewUp?]
      cases e.terminal.screen.viewUp? n.toNat with
      | none => rfl
      | some s => exact Terminal.screen_onScreen e.terminal fun _ => s
  | forward n => exact Terminal.screen_onScreen e.terminal (·.viewDown n.toNat)

theorem screen_run_motions (e : Emulator) (motions : List ViewMotion) :
    (e.run (motions.map ViewMotion.call)).terminal.screen
      = motions.foldl Screen.moveView e.terminal.screen := by
  induction motions generalizing e with
  | nil => rfl
  | cons m motions ih =>
      rw [List.foldl_cons, ← screen_call_motion]
      exact ih (e.call m.call)

/-- The emulator has a motion back fail just if its screen has. -/
theorem viewUp?_eq_none_iff (e : Emulator) (n : UInt64) :
    e.viewUp? n.toNat = none ↔ e.terminal.screen.moveView? (.back n) = none :=
  Option.map_eq_none_iff

end Emulator

namespace Screen

variable {s : Screen}

/-- **Where the view is moved to.**  Behind any motions, some of which may have failed, nothing has
    changed but the offset, which is still within the history.  The next motion leads to the exact
    sum or difference, cut to the history and to the grid, unless it goes back by a count with which
    the sum is no machine word; then it fails, and this is the only way to fail.  So moving back
    never goes forward, and moving by the largest word shows the oldest line from a view that is on
    the grid, but fails from any other.  Motions of which none fails lead where they ought to from
    first to last, and none does whose counts leave room for the history among the words.  The calls
    of an emulator move the view of the screen that is shown, and fail with it. -/
theorem motions_clamped (hview : s.viewOffset ≤ s.history.size)
    (hword : s.history.size < offsetModulus) (motions : List ViewMotion) :
    let u := motions.foldl moveView s
    (∃ offset, offset ≤ s.history.size ∧ u = { s with viewOffset := offset }) ∧
    (∀ m : ViewMotion, ¬m.Passes u.viewOffset →
      u.moveView? m = some { u with viewOffset := m.target s.history.size u.viewOffset }) ∧
    (∀ m : ViewMotion, u.moveView? m = none ↔ m.Passes u.viewOffset) ∧
    (∀ (n : UInt64) (v : Screen), u.moveView? (.back n) = some v → u.viewOffset ≤ v.viewOffset) ∧
    (u.viewOffset = 0 → ∃ v, u.moveView? (.back ViewMotion.largest) = some v ∧
      v.view.toList = s.lines.take s.rows) ∧
    (0 < u.viewOffset → u.moveView? (.back ViewMotion.largest) = none) ∧
    (∀ v, motions.foldlM moveView? s = some v → v = u ∧
      v.viewOffset
        = motions.foldl (fun offset m => m.target s.history.size offset) s.viewOffset) ∧
    ((∀ n, .back n ∈ motions → s.history.size + n.toNat < offsetModulus) →
      motions.foldlM moveView? s = some u) ∧
    ∀ e : Emulator, e.terminal.screen = s →
      let e' := e.run (motions.map ViewMotion.call)
      e'.terminal.screen = u ∧
      ∀ n : UInt64, e'.viewUp? n.toNat = none ↔ u.moveView? (.back n) = none := by
  intro u
  obtain ⟨offset, hoffset, hu⟩ : ∃ offset, offset ≤ s.history.size ∧
      u = { s with viewOffset := offset } := foldl_moveView hview motions
  have hsize : u.history.size = s.history.size := by rw [hu]
  have hwithin : u.viewOffset ≤ u.history.size := by
    rw [hu]
    exact hoffset
  refine ⟨⟨offset, hoffset, hu⟩, ?_, ?_, ?_, ?_, ?_, ?_, ?_, ?_⟩
  · intro m hm
    rw [moveView?_of_not_passes hm, hsize]
  · intro m
    exact moveView?_eq_none_iff
  · intro n v hv
    exact le_viewOffset_of_back hwithin hv
  · intro hgrid
    obtain ⟨v, hv, holdest⟩ := view_largest hgrid (hsize ▸ hword)
    refine ⟨v, hv, holdest.trans ?_⟩
    rw [hu]
    rfl
  · intro hback
    exact moveView?_largest hback
  · intro v hv
    exact foldlM_moveView? hv
  · intro hroom
    obtain ⟨v, hv⟩ := exists_foldlM_moveView? hview hroom
    rw [hv, (foldlM_moveView? hv).1]
  · rintro e rfl
    have hscreen := e.screen_run_motions motions
    refine ⟨hscreen, fun n => ?_⟩
    rw [Emulator.viewUp?_eq_none_iff, hscreen]

/-- Two lines of history: back by one of them, forward beyond the grid, and back by the largest
    word, which is from the grid and shows the oldest line. -/
theorem motions_clamped_largest :
    let row : Char → Row := fun c => Row.filled 1 { base := c }
    let s : Screen :=
      { cols := 1, rows := 1, grid := #[row 'c']
        history := (History.empty.push (row 'a')).push (row 'b')
        historyLimit := 2, region := ⟨0, 0⟩ }
    let u := [ViewMotion.back 1, .forward ViewMotion.largest].foldl moveView s
    (s.viewOffset ≤ s.history.size ∧ s.history.size < offsetModulus) ∧
    (∃ v, u.moveView? (.back ViewMotion.largest) = some v ∧ v.view.toList = [row 'a']) ∧
    u.moveView? (.back 1) = some { u with viewOffset := 1 } := by
  intro row s u
  have hview : s.viewOffset ≤ s.history.size := by decide
  have hword : s.history.size < offsetModulus := by decide
  obtain ⟨-, hexact, -, -, hlargest, -⟩ :=
    motions_clamped hview hword [.back 1, .forward ViewMotion.largest]
  obtain ⟨v, hv, holdest⟩ := hlargest (by decide)
  have hone : ¬(ViewMotion.back 1).Passes u.viewOffset := by
    show ¬18446744073709551616 ≤ u.viewOffset + (1 : UInt64).toNat
    decide
  refine ⟨⟨hview, hword⟩, ⟨v, hv, holdest.trans (by decide)⟩, (hexact _ hone).trans ?_⟩
  decide

/-- **A motion back that fails.**  From one line back, a motion back by the largest word ought to
    show the oldest line, and there is no screen behind it. -/
theorem motions_clamped_overflow :
    let row : Char → Row := fun c => Row.filled 1 { base := c }
    let s : Screen :=
      { cols := 1, rows := 1, grid := #[row 'c']
        history := (History.empty.push (row 'a')).push (row 'b')
        historyLimit := 2, region := ⟨0, 0⟩, viewOffset := 1 }
    (s.viewOffset ≤ s.history.size ∧ s.lines.take s.rows = [row 'a']) ∧
    (ViewMotion.back ViewMotion.largest).target s.history.size s.viewOffset = 2 ∧
    s.moveView? (.back ViewMotion.largest) = none := by
  intro row s
  decide

end Screen

end VideoTerminal
