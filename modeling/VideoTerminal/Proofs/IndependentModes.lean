import VideoTerminal.Proofs.PrivateModes
import VideoTerminal.Proofs.Reachable

/-!
# Modes that a switch leaves alone

A switch of a private mode gives this mode its value, and modes of the same group may follow.  Any
other mode stays as it is, with two exceptions that come from the cursor.  Restoring the saved
cursor brings back origin mode and autowrap as they were when it was saved.  And whoever leaves the
alternate screen gets the cursor back that was put aside, which has a style; so whether it blinks is
a mode that three switches reach besides its own.

What a switch does to modes that are on or off is known (`isOn?_switch`); here the saved cursor is
added, the exceptions are named by their numbers, and everything else is shown to be left alone.
-/

namespace VideoTerminal

namespace PrivateMode

/-- The numbers of modes that exclude each other, or have one value between them. -/
def groups : List (List Nat) := [[9, 1000, 1002, 1003], [1005, 1006, 1015], [47, 1047, 1049]]

/-- Two numbers are those of modes in one group. -/
def InOneGroup (n k : Nat) : Prop := ∃ group ∈ groups, n ∈ group ∧ k ∈ group

instance (n k : Nat) : Decidable (InOneGroup n k) :=
  inferInstanceAs (Decidable (∃ group ∈ groups, n ∈ group ∧ k ∈ group))

variable {n k : Nat} {m x : PrivateMode}

theorem inOneGroup_of_excludes (h : m.excludes x = true) (hn : m.number? = some n)
    (hk : x.number? = some k) : InOneGroup n k := by
  cases m with
  | mouseTracking _ =>
      cases x with
      | mouseTracking _ =>
          have hgroup : ∀ {kind : MouseTracking} {j : Nat}, (mouseTracking kind).number? = some j →
              j ∈ [9, 1000, 1002, 1003] := by
            intro kind j hj
            cases kind <;> cases hj <;> decide
          exact ⟨[9, 1000, 1002, 1003], by decide, hgroup hn, hgroup hk⟩
      | _ => cases h
  | mouseEncoding _ =>
      cases x with
      | mouseEncoding _ =>
          have hgroup : ∀ {kind : MouseEncoding} {j : Nat}, (mouseEncoding kind).number? = some j →
              j ∈ [1005, 1006, 1015] := by
            intro kind j hj
            cases kind <;> cases hj <;> decide
          exact ⟨[1005, 1006, 1015], by decide, hgroup hn, hgroup hk⟩
      | _ => cases h
  | _ => cases h

theorem mem_screens (hm : m.isScreen = true) (hn : m.number? = some n) :
    n ∈ [47, 1047, 1049] := by
  cases m with
  | alternateScreen | blankAlternateScreen | alternateScreenAndCursor =>
      cases hn
      decide
  | _ => cases hm

theorem inOneGroup_of_isScreen (hm : m.isScreen = true) (hx : x.isScreen = true)
    (hn : m.number? = some n) (hk : x.number? = some k) : InOneGroup n k :=
  ⟨[47, 1047, 1049], by decide, mem_screens hm hn, mem_screens hx hk⟩

end PrivateMode

namespace Terminal

open PrivateMode

variable {t : Terminal} {n k : Nat} {on : Bool} {m x : PrivateMode}

/-! ## The exceptions -/

/-- A switch by which the saved cursor is restored. -/
def RestoresCursor (t : Terminal) (n : Nat) (on : Bool) : Prop :=
  on = false ∧ (n = 1048 ∨ n = 1049 ∧ t.modes.alternateScreen = true)

/-- The saved cursor that such a switch restores.  One of the two shows the primary screen first. -/
def restored? (t : Terminal) (n : Nat) : Option SavedCursor :=
  if n = 1049 then t.primarySaved else t.savedCursor?

/-- A switch by which the alternate screen is left. -/
def LeavesAlternate (t : Terminal) (n : Nat) (on : Bool) : Prop :=
  on = false ∧ n ∈ [47, 1047, 1049] ∧ t.modes.alternateScreen = true

theorem privateMode?_restoreCursor (h : t.RestoresCursor n on) :
    (t.setPrivateMode n on).privateMode? 6
        = some (((t.restored? n).map (·.origin)).getD false) ∧
      (t.setPrivateMode n on).privateMode? 7
        = ((t.restored? n).map (·.autowrap)).or (t.privateMode? 7) := by
  obtain ⟨rfl, rfl | ⟨rfl, hshown⟩⟩ := h
  · exact ⟨isOn?_restoreCursor t .origin, isOn?_restoreCursor t .autowrap⟩
  · exact ⟨isOn?_switch_leave (m := .alternateScreenAndCursor) hshown rfl .origin,
      isOn?_switch_leave (m := .alternateScreenAndCursor) hshown rfl .autowrap⟩

theorem privateMode?_leaveAlternate (h : t.LeavesAlternate n on) :
    (t.setPrivateMode n on).privateMode? 12
      = some (t.primaryCursor.getD t.cursor).style.blinking := by
  obtain ⟨rfl, hn, hshown⟩ := h
  -- of the three switches only the first half is different, and it has no say in this
  have hback : ∀ m : PrivateMode,
      (t.broughtBack m .cursorBlinking).or (t.isOn? .cursorBlinking)
        = some (t.primaryCursor.getD t.cursor).style.blinking := by
    intro m
    show (t.primaryCursor.map (·.style.blinking)).or (some t.cursor.style.blinking) = _
    cases t.primaryCursor <;> rfl
  simp only [List.mem_cons, List.not_mem_nil, or_false] at hn
  rcases hn with rfl | rfl | rfl
  · exact (isOn?_switch_leave (m := .alternateScreen) hshown rfl .cursorBlinking).trans (hback _)
  · exact (isOn?_switch_leave (m := .blankAlternateScreen) hshown rfl .cursorBlinking).trans
      (hback _)
  · exact (isOn?_switch_leave (m := .alternateScreenAndCursor) hshown rfl .cursorBlinking).trans
      (hback _)

/-! ## All else -/

/-- Restoring the cursor brings back no mode but two, and saving it none. -/
theorem isOn?_switch_savedCursor (t : Terminal) (on : Bool)
    (hx : x = .origin ∨ x = .autowrap → on = true) :
    (t.switch .savedCursor on).isOn? x = t.isOn? x := by
  cases on with
  | true => exact isOn?_saveCursor t x
  | false =>
      have hplain : x ≠ .origin ∧ x ≠ .autowrap :=
        ⟨fun h => Bool.false_ne_true (hx (.inl h)), fun h => Bool.false_ne_true (hx (.inr h))⟩
      show t.restoreCursor.isOn? x = _
      rw [isOn?_restoreCursor, if_neg hplain.1, if_neg hplain.2]

/-- What leaving the alternate screen brings back is the style of the cursor, or comes with the
    saved cursor. -/
theorem exception_of_broughtBack {v : Bool} (h : t.broughtBack m x = some v) :
    x = .cursorBlinking ∨ (x = .origin ∨ x = .autowrap) ∧ m = .alternateScreenAndCursor := by
  cases x with
  | cursorBlinking => exact .inl rfl
  | origin | autowrap =>
      rw [broughtBack] at h
      split at h
      · exact .inr ⟨by simp, ‹_›⟩
      · cases h
  | _ => cases h

/-- A mode that is not switched, not in the group of one that is, and no exception stays as it
    is. -/
theorem isOn?_switch_of_independent (hn : m.number? = some n) (hk : x.number? = some k)
    (hne : k ≠ n) (hgroup : ¬InOneGroup n k)
    (hcursor : x = .origin ∨ x = .autowrap → ¬t.RestoresCursor n on)
    (hstyle : x = .cursorBlinking → ¬t.LeavesAlternate n on) :
    (t.switch m on).isOn? x = t.isOn? x := by
  by_cases hsaved : m = .savedCursor
  · subst hsaved
    cases hn
    refine isOn?_switch_savedCursor t on fun hx => ?_
    cases on with
    | true => rfl
    | false => exact absurd ⟨rfl, .inl rfl⟩ (hcursor hx)
  by_cases hxsaved : x = .savedCursor
  · subst hxsaved
    rfl
  have hm : m.hasValue = true := hasValue_of_number (ofNumber?_eq_some_iff.mpr hn) hsaved
  have hx : x.hasValue = true := hasValue_of_number (ofNumber?_eq_some_iff.mpr hk) hxsaved
  rw [isOn?_switch t hm hx]
  cases heffect : t.effect m on x with
  | none => rfl
  | some v =>
      rcases effect_cases heffect with ⟨hscreen, hscreen', -⟩ | ⟨hscreen, -, hshown, rfl, hback⟩ |
        ⟨-, rfl, -⟩ | ⟨-, -, hexcludes, -⟩
      · exact absurd (inOneGroup_of_isScreen hscreen hscreen' hn hk) hgroup
      · rcases exception_of_broughtBack hback with rfl | ⟨hx, rfl⟩
        · exact absurd ⟨rfl, mem_screens hscreen hn, hshown⟩ (hstyle rfl)
        · cases hn
          exact absurd ⟨rfl, .inr ⟨rfl, hshown⟩⟩ (hcursor hx)
      · exact absurd (Option.some.inj (hk.symm.trans hn)) hne
      · exact absurd (inOneGroup_of_excludes hexcludes hn hk) hgroup

theorem mode?_setPrivateMode (t : Terminal) (n : Nat) (on : Bool) (k : Nat) :
    (t.setPrivateMode n on).mode? k = t.mode? k := by
  have hsame := t.besidePrivate_setPrivateMode n on
  have hinsert : (t.setPrivateMode n on).modes.insert = t.modes.insert :=
    (congrArg Modes.insert hsame :)
  have hnewline : (t.setPrivateMode n on).modes.linefeedNewline = t.modes.linefeedNewline :=
    (congrArg Modes.linefeedNewline hsame :)
  unfold mode?
  rw [hinsert, hnewline]

theorem privateMode?_setPrivateMode_self (t : Terminal) (on : Bool)
    (hn : t.privateMode? n ≠ none) : (t.setPrivateMode n on).privateMode? n = some on := by
  cases hm : ofNumber? n with
  | none =>
      rw [privateMode?, hm] at hn
      exact absurd rfl hn
  | some m =>
      have hsaved : m ≠ .savedCursor := by
        rintro rfl
        rw [privateMode?_of_number hm] at hn
        exact absurd rfl hn
      have hvalue := hasValue_of_number hm hsaved
      rw [setPrivateMode, hm, privateMode?_of_number hm]
      exact (isOn?_switch t hvalue hvalue on).trans (by rw [effect_self, Option.some_or])

/-- **Switching a mode.**  A mode that is on or off has the value it was switched to, and every
    other one is left alone unless it is in the same group, but for what comes back with a cursor:
    origin mode and autowrap with the saved one, which the switches 1048 and 1049 restore, and
    blinking with the one that was put aside, when the alternate screen is left.  The modes of the
    standard are never reached. -/
theorem setPrivateMode_independent (t : Terminal) (n : Nat) (on : Bool) :
    let u := t.setPrivateMode n on
    (∀ k, k ≠ n → ¬InOneGroup n k →
      (k = 6 ∨ k = 7 → ¬t.RestoresCursor n on) → (k = 12 → ¬t.LeavesAlternate n on) →
      u.privateMode? k = t.privateMode? k) ∧
    (t.RestoresCursor n on →
      u.privateMode? 6 = some (((t.restored? n).map (·.origin)).getD false) ∧
      u.privateMode? 7 = ((t.restored? n).map (·.autowrap)).or (t.privateMode? 7)) ∧
    (t.LeavesAlternate n on →
      u.privateMode? 12 = some (t.primaryCursor.getD t.cursor).style.blinking) ∧
    (∀ k, u.mode? k = t.mode? k) ∧
    (t.privateMode? n ≠ none → u.privateMode? n = some on) := by
  intro u
  refine ⟨?_, privateMode?_restoreCursor, privateMode?_leaveAlternate,
    mode?_setPrivateMode t n on, privateMode?_setPrivateMode_self t on⟩
  intro k hne hgroup hcursor hstyle
  show (t.setPrivateMode n on).privateMode? k = _
  rw [setPrivateMode]
  cases hm : ofNumber? n with
  | none => rfl
  | some m =>
      cases hx : ofNumber? k with
      | none => rw [privateMode?, privateMode?, hx, Option.bind_none, Option.bind_none]
      | some x =>
          rw [privateMode?_of_number hx, privateMode?_of_number hx]
          have hk := ofNumber?_eq_some_iff.mp hx
          refine isOn?_switch_of_independent (ofNumber?_eq_some_iff.mp hm) hk hne hgroup
            (fun h => hcursor ?_) (fun h => hstyle ?_)
          · rcases h with rfl | rfl
            · exact .inl (Option.some.inj hk).symm
            · exact .inr (Option.some.inj hk).symm
          · subst h
            exact (Option.some.inj hk).symm

end Terminal

namespace Emulator

open PrivateMode

/-- The cursor has stopped blinking on the alternate screen, and by leaving it blinks again. -/
theorem setPrivateMode_independent_style :
    let e := write { terminal := .new 4 2 0 .cancelBold } (Utf8.ofString "\x1b[?47h\x1b[?12l")
    e.Reachable ∧ ¬InOneGroup 47 12 ∧
      e.terminal.privateMode? 12 = some false ∧
      (e.terminal.setPrivateMode 47 false).privateMode? 12 = some true := by
  refine ⟨⟨⟨4, 2⟩, 0, .cancelBold, _, [.write _], create_of_valid (by decide) _ _, rfl⟩, ?_⟩
  decide +kernel

end Emulator

end VideoTerminal
