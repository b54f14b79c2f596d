import VideoTerminal.Terminal.SetMode

/-!
# What a switch does to the values of private modes

A switch of a private mode sets the value of this mode.  Beyond that it can reach others in two
ways.  Modes of one group exclude each other, so switching one on is switching the rest off.  And
the modes of the alternate screen have one value between them; whoever leaves it also gets back the
cursor that was put aside, with its style, and by one of the three the saved cursor with the modes
that were saved with it.

`Terminal.effect` is all of this, and nothing else happens (`Terminal.isOn?_switch`).  So the value
of a mode behind any number of switches is that of the last switch with an effect on it.
-/

namespace VideoTerminal

namespace PrivateMode

/-! ## Numbers -/

/-- The number of a mode. -/
def number? : PrivateMode → Option Nat
  | .applicationCursor => some 1
  | .reverseVideo => some 5
  | .origin => some 6
  | .autowrap => some 7
  | .cursorBlinking => some 12
  | .cursorVisible => some 25
  | .applicationKeypad => some 66
  | .focusReporting => some 1004
  | .bracketedPaste => some 2004
  | .mouseTracking .off => none
  | .mouseTracking .x10 => some 9
  | .mouseTracking .normal => some 1000
  | .mouseTracking .buttonEvent => some 1002
  | .mouseTracking .anyEvent => some 1003
  | .mouseEncoding .default => none
  | .mouseEncoding .utf8 => some 1005
  | .mouseEncoding .sgr => some 1006
  | .mouseEncoding .urxvt => some 1015
  | .alternateScreen => some 47
  | .blankAlternateScreen => some 1047
  | .savedCursor => some 1048
  | .alternateScreenAndCursor => some 1049

/-- The two tables of numbers and modes are inverse to each other. -/
theorem ofNumber?_eq_some_iff {n : Nat} {m : PrivateMode} :
    ofNumber? n = some m ↔ m.number? = some n := by
  constructor
  · intro h
    unfold ofNumber? at h
    split at h <;> first | cases h; rfl | cases h
  · intro h
    unfold number? at h
    split at h <;> first | cases h; rfl | cases h

/-! ## Kinds of modes -/

/-- A mode that is on or off; the saved cursor is neither. -/
def hasValue : PrivateMode → Bool
  | .savedCursor => false
  | m => m.number?.isSome

/-- Every number but that of the saved cursor is that of a mode with a value. -/
theorem hasValue_of_number {n : Nat} {m : PrivateMode} (hm : ofNumber? n = some m)
    (hcursor : m ≠ .savedCursor) : m.hasValue = true := by
  have hnumber : m.number?.isSome = true := Option.isSome_of_eq_some (ofNumber?_eq_some_iff.mp hm)
  cases m <;> first | rfl | exact hnumber | exact absurd rfl hcursor

/-- A mode with a value has a number. -/
theorem number_of_hasValue {m : PrivateMode} (hm : m.hasValue = true) :
    ∃ n, m.number? = some n := by
  cases m <;> first | exact ⟨_, rfl⟩ | exact Option.isSome_iff_exists.mp hm

/-- A mode by which the alternate screen is shown. -/
def isScreen : PrivateMode → Bool
  | .alternateScreen => true
  | .blankAlternateScreen => true
  | .alternateScreenAndCursor => true
  | _ => false

/-- Two modes that are never on together. -/
def excludes : PrivateMode → PrivateMode → Bool
  | .mouseTracking k, .mouseTracking k' => k != k'
  | .mouseEncoding e, .mouseEncoding e' => e != e'
  | _, _ => false

/-- What excludes another mode is not that mode, and neither is a screen. -/
theorem plain_of_excludes {m x : PrivateMode} (h : m.excludes x = true) :
    m.isScreen = false ∧ x.isScreen = false ∧ x ≠ m := by
  cases m with
  | mouseTracking k =>
      cases x with
      | mouseTracking k' => exact ⟨rfl, rfl, by rintro ⟨⟩; simp [excludes] at h⟩
      | _ => cases h
  | mouseEncoding e =>
      cases x with
      | mouseEncoding e' => exact ⟨rfl, rfl, by rintro ⟨⟩; simp [excludes] at h⟩
      | _ => cases h
  | _ => cases h

end PrivateMode

/-- What of the modes is no private mode: the two of the standard, and the saved values. -/
def Modes.besidePrivate (ms : Modes) : Modes where
  insert := ms.insert
  linefeedNewline := ms.linefeedNewline
  saved := ms.saved

namespace Terminal

open PrivateMode

variable {t : Terminal} {m x : PrivateMode}

theorem privateMode?_of_number {n : Nat} (hm : ofNumber? n = some m) (t : Terminal) :
    t.privateMode? n = t.isOn? m := by
  rw [privateMode?, hm, Option.bind_some]

/-! ## The effect of a switch -/

/-- What leaving the alternate screen by a mode brings back of another mode: the style of the cursor
that was put aside, and what was saved with the cursor. -/
def broughtBack (t : Terminal) (m x : PrivateMode) : Option Bool :=
  match x with
  | .cursorBlinking => t.primaryCursor.map (·.style.blinking)
  | .origin =>
      if m = .alternateScreenAndCursor then some ((t.primarySaved.map (·.origin)).getD false)
      else none
  | .autowrap => if m = .alternateScreenAndCursor then t.primarySaved.map (·.autowrap) else none
  | _ => none

/-- The value that switching one mode gives to another, if it does. -/
def effect (t : Terminal) (m : PrivateMode) (on : Bool) (x : PrivateMode) : Option Bool :=
  if m.isScreen then
    if x.isScreen then some on
    else if t.modes.alternateScreen && !on then t.broughtBack m x
    else none
  else if x = m then some on
  else if on && m.excludes x then some false
  else none

/-! ### The alternate screen -/

/-- The modes of the alternate screen all read the same: whether it is shown. -/
theorem isOn?_of_isScreen (t : Terminal) (hx : x.isScreen = true) :
    t.isOn? x = some t.modes.alternateScreen := by
  cases x <;> first | rfl | cases hx

/-- Saving the cursor changes no mode. -/
theorem isOn?_saveCursor (t : Terminal) (x : PrivateMode) : t.saveCursor.isOn? x = t.isOn? x := by
  rw [saveCursor]
  split <;> cases x <;> rfl

/-- Restoring the saved cursor brings back two modes, one of them even if nothing was saved. -/
theorem isOn?_restoreCursor (t : Terminal) (x : PrivateMode) :
    t.restoreCursor.isOn? x =
      if x = .origin then some ((t.savedCursor?.map (·.origin)).getD false)
      else if x = .autowrap then (t.savedCursor?.map (·.autowrap)).or (t.isOn? x)
      else t.isOn? x := by
  rw [restoreCursor]
  cases t.savedCursor? <;> cases x <;> rfl

/-- Entering the alternate screen turns all its modes on, and no other mode. -/
theorem isOn?_enterAlternate (t : Terminal) (clear : Bool) (x : PrivateMode) :
    (t.enterAlternate clear).isOn? x = if x.isScreen then some true else t.isOn? x := by
  rw [enterAlternate]
  split
  · rename_i hshown
    cases x <;> first | rfl | exact congrArg some hshown
  · cases clear <;> cases x <;> rfl

/-- The style of the cursor is that of the cursor put aside, if there is one. -/
theorem isOn?_exitAlternate (hshown : t.modes.alternateScreen = true) (clear : Bool)
    (x : PrivateMode) :
    (t.exitAlternate clear).isOn? x =
      if x.isScreen then some false
      else if x = .cursorBlinking then (t.primaryCursor.map (·.style.blinking)).or (t.isOn? x)
      else t.isOn? x := by
  have hstyle : some (t.primaryCursor.getD t.cursor).style.blinking
      = (t.primaryCursor.map (·.style.blinking)).or (some t.cursor.style.blinking) := by
    cases t.primaryCursor <;> rfl
  rw [exitAlternate, if_pos hshown]
  cases clear <;> cases x <;> first | rfl | exact hstyle

/-- Showing the screen that is shown changes nothing. -/
theorem switch_screen_same (t : Terminal) (hm : m.isScreen = true) :
    t.switch m t.modes.alternateScreen = t := by
  cases m with
  | alternateScreen =>
      cases hshown : t.modes.alternateScreen <;>
        simp [Terminal.switch, enterAlternate, exitAlternate, hshown]
  | blankAlternateScreen =>
      cases hshown : t.modes.alternateScreen <;>
        simp [Terminal.switch, enterAlternate, exitAlternate, hshown]
  | alternateScreenAndCursor =>
      cases hshown : t.modes.alternateScreen <;> simp [Terminal.switch, hshown]
  | _ => cases hm

/-- The three modes of the alternate screen enter it alike, whatever they do beside. -/
theorem isOn?_switch_enter (t : Terminal) (hm : m.isScreen = true) (x : PrivateMode) :
    (t.switch m true).isOn? x = if x.isScreen then some true else t.isOn? x := by
  cases m with
  | alternateScreen => exact isOn?_enterAlternate t false x
  | blankAlternateScreen => exact isOn?_enterAlternate t true x
  | alternateScreenAndCursor =>
      show (if t.modes.alternateScreen then t else _).isOn? x = _
      split
      · rename_i hshown
        split
        · rename_i hx
          rw [isOn?_of_isScreen t hx, hshown]
        · rfl
      · rw [isOn?_enterAlternate, isOn?_saveCursor]
  | _ => cases hm

/-- They leave it alike too, but for what comes back with the cursor. -/
theorem isOn?_switch_leave (hshown : t.modes.alternateScreen = true) (hm : m.isScreen = true)
    (x : PrivateMode) :
    (t.switch m false).isOn? x
      = if x.isScreen then some false else (t.broughtBack m x).or (t.isOn? x) := by
  cases m with
  | alternateScreen =>
      show (t.exitAlternate false).isOn? x = _
      rw [isOn?_exitAlternate hshown]
      cases x <;> rfl
  | blankAlternateScreen =>
      show (t.exitAlternate true).isOn? x = _
      rw [isOn?_exitAlternate hshown]
      cases x <;> rfl
  | alternateScreenAndCursor =>
      show (if t.modes.alternateScreen then (t.exitAlternate false).restoreCursor else t).isOn? x
        = _
      have hsaved : (t.exitAlternate false).savedCursor? = t.primarySaved := by
        rw [exitAlternate, if_pos hshown]
        rfl
      rw [if_pos hshown, isOn?_restoreCursor, isOn?_exitAlternate hshown, hsaved]
      cases x <;> rfl
  | _ => cases hm

/-! ### Groups -/

/-- Picking one of several values in place of the one there is, or dropping that one for none. -/
theorem isSome_pick {α : Type} [DecidableEq α] {k k' a none : α} (hk' : k' ≠ none) (on : Bool) :
    some (decide ((if on then k else if a = k then none else a) = k'))
      = (if k' = k then some on else if on && k != k' then some false else Option.none).or
        (some (decide (a = k'))) := by
  cases on with
  | true =>
      by_cases hk : k' = k
      · simp [hk]
      · have hk' : k ≠ k' := Ne.symm hk
        simp [hk, hk']
  | false =>
      by_cases hk : k' = k
      · subst hk
        by_cases ha : a = k' <;> simp [ha, hk'.symm]
      · by_cases ha : a = k
        · subst ha
          simp [hk, hk'.symm, Ne.symm hk]
        · simp [hk, ha]

/-- Switching a kind of tracking off counts only where it is the one that is on. -/
theorem setMouseTracking_eq (ms : Modes) (k : MouseTracking) (on : Bool) :
    ms.setMouseTracking k on = { ms with
      mouseTracking :=
        if on then k else if ms.mouseTracking = k then .off else ms.mouseTracking } := by
  rw [Modes.setMouseTracking]
  split
  · rfl
  · split <;> rfl

/-- Switching an encoding off counts only where it is the one that is on. -/
theorem setMouseEncoding_eq (ms : Modes) (e : MouseEncoding) (on : Bool) :
    ms.setMouseEncoding e on = { ms with
      mouseEncoding :=
        if on then e else if ms.mouseEncoding = e then .default else ms.mouseEncoding } := by
  rw [Modes.setMouseEncoding]
  split
  · rfl
  · split <;> rfl

/-- To track the mouse in one way ends every other way. -/
theorem isOn?_switch_mouseTracking (t : Terminal) (k : MouseTracking) (on : Bool)
    (hx : x.hasValue = true) :
    (t.switch (.mouseTracking k) on).isOn? x
      = (t.effect (.mouseTracking k) on x).or (t.isOn? x) := by
  show (t.onModes (·.setMouseTracking k on)).isOn? x = _
  rw [onModes, setMouseTracking_eq]
  cases x with
  | mouseTracking k' =>
      have hk' : k' ≠ .off := by
        rintro rfl
        cases hx
      simpa [isOn?, effect, isScreen, excludes]
        using isSome_pick (k := k) (a := t.modes.mouseTracking) hk' on
  | _ => simp [isOn?, effect, isScreen, excludes]

/-- To encode it in one way ends every other encoding. -/
theorem isOn?_switch_mouseEncoding (t : Terminal) (e : MouseEncoding) (on : Bool)
    (hx : x.hasValue = true) :
    (t.switch (.mouseEncoding e) on).isOn? x
      = (t.effect (.mouseEncoding e) on x).or (t.isOn? x) := by
  show (t.onModes (·.setMouseEncoding e on)).isOn? x = _
  rw [onModes, setMouseEncoding_eq]
  cases x with
  | mouseEncoding e' =>
      have he' : e' ≠ .default := by
        rintro rfl
        cases hx
      simpa [isOn?, effect, isScreen, excludes]
        using isSome_pick (k := e) (a := t.modes.mouseEncoding) he' on
  | _ => simp [isOn?, effect, isScreen, excludes]

/-! ## Every switch -/

/-- The modes of the screens do what the table of effects says. -/
theorem isOn?_switch_screen (t : Terminal) (hm : m.isScreen = true) (on : Bool) :
    (t.switch m on).isOn? x = (t.effect m on x).or (t.isOn? x) := by
  rw [effect, if_pos hm]
  by_cases hsame : on = t.modes.alternateScreen
  · subst hsame
    rw [switch_screen_same t hm]
    split
    · rename_i hx
      rw [isOn?_of_isScreen t hx]
      rfl
    · simp
  · cases on with
    | true =>
        rw [isOn?_switch_enter t hm]
        cases x.isScreen <;> simp
    | false =>
        have hshown : t.modes.alternateScreen = true := by simpa using hsame
        rw [isOn?_switch_leave hshown hm]
        cases x.isScreen <;> simp [hshown]

/-- **What a switch does.** A mode has the value that the switch has on it, or else the one it
    had. -/
theorem isOn?_switch (t : Terminal) (hm : m.hasValue = true) (hx : x.hasValue = true) (on : Bool) :
    (t.switch m on).isOn? x = (t.effect m on x).or (t.isOn? x) := by
  cases m with
  | savedCursor => cases hm
  | alternateScreen => exact isOn?_switch_screen t rfl on
  | blankAlternateScreen => exact isOn?_switch_screen t rfl on
  | alternateScreenAndCursor => exact isOn?_switch_screen t rfl on
  | mouseTracking k => exact isOn?_switch_mouseTracking t k on hx
  | mouseEncoding e => exact isOn?_switch_mouseEncoding t e on hx
  | _ => cases x <;> cases on <;> rfl

/-! ### What has an effect -/

/-- A switch gives its own mode its value. -/
theorem effect_self (t : Terminal) (m : PrivateMode) (on : Bool) : t.effect m on m = some on := by
  rw [effect]
  split <;> simp

/-- The ways in which a switch can have an effect: on another mode of the alternate screen, by
    leaving it, on its own mode, and on one that is excluded. -/
theorem effect_cases {on v : Bool} (h : t.effect m on x = some v) :
    (m.isScreen = true ∧ x.isScreen = true ∧ v = on) ∨
      (m.isScreen = true ∧ x.isScreen = false ∧ t.modes.alternateScreen = true ∧ on = false ∧
        t.broughtBack m x = some v) ∨
      (m.isScreen = false ∧ x = m ∧ v = on) ∨
      (m.isScreen = false ∧ on = true ∧ m.excludes x = true ∧ v = false) := by
  rw [effect] at h
  split at h
  · rename_i hm
    split at h
    · rename_i hx
      exact .inl ⟨hm, hx, (Option.some.inj h).symm⟩
    · rename_i hx
      split at h
      · rename_i hleaves
        rw [Bool.and_eq_true, Bool.not_eq_true'] at hleaves
        exact .inr (.inl ⟨hm, Bool.eq_false_iff.mpr hx, hleaves.1, hleaves.2, h⟩)
      · cases h
  · rename_i hm
    have hm' := Bool.eq_false_iff.mpr hm
    split at h
    · rename_i hx
      exact .inr (.inr (.inl ⟨hm', hx, (Option.some.inj h).symm⟩))
    · split at h
      · rename_i hexcludes
        rw [Bool.and_eq_true] at hexcludes
        exact .inr (.inr (.inr ⟨hm', hexcludes.1, hexcludes.2, (Option.some.inj h).symm⟩))
      · cases h

/-- Switching the alternate screen is switching all its modes. -/
theorem effect_screens (t : Terminal) (hm : m.isScreen = true) (hx : x.isScreen = true)
    (on : Bool) : t.effect m on x = some on := by
  rw [effect, if_pos hm, if_pos hx]

/-- Switching a mode on is switching off what it excludes. -/
theorem effect_excluded (t : Terminal) (h : m.excludes x = true) :
    t.effect m true x = some false := by
  obtain ⟨hm, -, hne⟩ := plain_of_excludes h
  rw [effect, hm, if_neg Bool.false_ne_true, if_neg hne, h]
  rfl

/-- Only leaving the alternate screen has an effect that the state of the terminal decides. -/
theorem effect_congr (t u : Terminal) (h : m.isScreen = true → x.isScreen = true) (on : Bool) :
    t.effect m on x = u.effect m on x := by
  cases hm : m.isScreen with
  | true => rw [effect_screens t hm (h hm), effect_screens u hm (h hm)]
  | false => rw [effect, effect, hm, if_neg Bool.false_ne_true, if_neg Bool.false_ne_true]

/-- Modes that exclude each other are not on together. -/
theorem isOn?_of_excludes (hm : t.isOn? m = some true) (hx : m.excludes x = true) :
    t.isOn? x = some false := by
  cases m with
  | mouseTracking k =>
      cases x with
      | mouseTracking k' =>
          have hcurrent : t.modes.mouseTracking = k := of_decide_eq_true (Option.some.inj hm)
          have hne : k ≠ k' := by simpa [excludes] using hx
          simp [isOn?, hcurrent, hne]
      | _ => cases hx
  | mouseEncoding e =>
      cases x with
      | mouseEncoding e' =>
          have hcurrent : t.modes.mouseEncoding = e := of_decide_eq_true (Option.some.inj hm)
          have hne : e ≠ e' := by simpa [excludes] using hx
          simp [isOn?, hcurrent, hne]
      | _ => cases hx
  | _ => cases hx

/-! ## What no switch reaches -/

/-- Saving the cursor changes nothing beside the private modes. -/
theorem besidePrivate_saveCursor (t : Terminal) :
    t.saveCursor.modes.besidePrivate = t.modes.besidePrivate := by
  rw [saveCursor]
  split <;> rfl

/-- Restoring it may change the origin and autowrap modes, which are private. -/
theorem besidePrivate_restoreCursor (t : Terminal) :
    t.restoreCursor.modes.besidePrivate = t.modes.besidePrivate := by
  rw [restoreCursor]
  split <;> rfl

/-- To enter the alternate screen changes nothing beside them. -/
theorem besidePrivate_enterAlternate (t : Terminal) (clear : Bool) :
    (t.enterAlternate clear).modes.besidePrivate = t.modes.besidePrivate := by
  rw [enterAlternate]
  split
  · rfl
  · cases clear <;> rfl

/-- To leave it changes nothing beside them. -/
theorem besidePrivate_exitAlternate (t : Terminal) (clear : Bool) :
    (t.exitAlternate clear).modes.besidePrivate = t.modes.besidePrivate := by
  rw [exitAlternate]
  split
  · cases clear <;> rfl
  · rfl

/-- A switch of a private mode leaves all else of the modes alone. -/
theorem besidePrivate_switch (t : Terminal) (m : PrivateMode) (on : Bool) :
    (t.switch m on).modes.besidePrivate = t.modes.besidePrivate := by
  cases m with
  | mouseTracking k =>
      show (t.modes.setMouseTracking k on).besidePrivate = _
      rw [setMouseTracking_eq]
      rfl
  | mouseEncoding e =>
      show (t.modes.setMouseEncoding e on).besidePrivate = _
      rw [setMouseEncoding_eq]
      rfl
  | alternateScreen =>
      cases on with
      | true => exact besidePrivate_enterAlternate t false
      | false => exact besidePrivate_exitAlternate t false
  | blankAlternateScreen =>
      cases on with
      | true => exact besidePrivate_enterAlternate t true
      | false => exact besidePrivate_exitAlternate t true
  | savedCursor =>
      cases on with
      | true => exact besidePrivate_saveCursor t
      | false => exact besidePrivate_restoreCursor t
  | alternateScreenAndCursor =>
      cases on with
      | true =>
          show (if t.modes.alternateScreen then t else _).modes.besidePrivate = _
          split
          · rfl
          · exact (besidePrivate_enterAlternate _ true).trans (besidePrivate_saveCursor t)
      | false =>
          show (if t.modes.alternateScreen then _ else t).modes.besidePrivate = _
          split
          · exact (besidePrivate_restoreCursor _).trans (besidePrivate_exitAlternate t false)
          · rfl
  | _ => rfl

/-- However a private mode is set, the two modes of the standard and the saved values stay. -/
theorem besidePrivate_setPrivateMode (t : Terminal) (n : Nat) (on : Bool) :
    (t.setPrivateMode n on).modes.besidePrivate = t.modes.besidePrivate := by
  rw [setPrivateMode]
  split
  · exact besidePrivate_switch t _ on
  · rfl

/-! ## Switches in a row -/

/-- Switches modes in order. -/
def switchAll (t : Terminal) (l : List (PrivateMode × Bool)) : Terminal :=
  l.foldl (fun u s => u.switch s.1 s.2) t

theorem switchAll_cons (t : Terminal) (s : PrivateMode × Bool) (l : List (PrivateMode × Bool)) :
    t.switchAll (s :: l) = (t.switch s.1 s.2).switchAll l := rfl

theorem switchAll_append (t : Terminal) (l l' : List (PrivateMode × Bool)) :
    t.switchAll (l ++ l') = (t.switchAll l).switchAll l' := List.foldl_append

theorem switchAll_concat (t : Terminal) (l : List (PrivateMode × Bool)) (s : PrivateMode × Bool) :
    t.switchAll (l ++ [s]) = (t.switchAll l).switch s.1 s.2 := switchAll_append t l [s]

/-- What every switch of a list keeps, the list keeps. -/
theorem switchAll_invariant {I : Terminal → Prop} {l : List (PrivateMode × Bool)}
    (hI : ∀ u, ∀ s ∈ l, I u → I (u.switch s.1 s.2)) (h : I t) : I (t.switchAll l) :=
  List.foldlRecOn (motive := I) l _ h fun u hu s hs => hI u s hs hu

/-- What no switch of a list undoes, and one of them makes sure of, holds behind the list, wherever
    in it this switch is. -/
theorem switchAll_settles {I P : Terminal → Prop} {l : List (PrivateMode × Bool)}
    (hI : ∀ u, ∀ s ∈ l, I u → I (u.switch s.1 s.2))
    (hP : ∀ u, ∀ s ∈ l, I u → P u → P (u.switch s.1 s.2)) (h : I t)
    (hset : ∃ s ∈ l, ∀ u, I u → P (u.switch s.1 s.2)) : P (t.switchAll l) := by
  obtain ⟨s, hs, hset⟩ := hset
  obtain ⟨before, after, rfl⟩ := List.append_of_mem hs
  rw [switchAll_append, switchAll_cons]
  have hbefore : I (t.switchAll before) :=
    switchAll_invariant (fun u s hs => hI u s (List.mem_append_left _ hs)) h
  have hmem : ∀ s' ∈ after, s' ∈ before ++ s :: after := fun s' hs' =>
    List.mem_append_right _ (List.mem_cons_of_mem _ hs')
  have hafter : I _ ∧ P _ :=
    switchAll_invariant (I := fun u => I u ∧ P u)
      (fun u s' hs' hu => ⟨hI u s' (hmem s' hs') hu.1, hP u s' (hmem s' hs') hu.1 hu.2⟩)
      ⟨hI _ s hs hbefore, hset _ hbefore⟩
  exact hafter.2

end Terminal

end VideoTerminal
