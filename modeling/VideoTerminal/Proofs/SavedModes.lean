import VideoTerminal.Proofs.PrivateModes
import VideoTerminal.Proofs.RelinkedTerminal
import VideoTerminal.Proofs.ShownScreen

/-!
# Saved values of private modes

Saving private modes keeps the value that each of them has, and nothing a program sends afterwards
changes what is kept, except for saving again and the full reset: that is `saved_apply`, with one
lemma below it for each operation.

Restoring is then a row of switches (`foldl_restorePrivateMode`).  Values that were saved at one
time are values that modes had together, so none of these switches takes away what another of them
brings back.  Hence they all come back, in any order, whatever has been switched since.
-/

namespace VideoTerminal

open PrivateMode

/-! ## What is saved -/

/-- Looking something up in a list, the first entry decides first. -/
theorem Modes.lookup_cons_ite (entry : Nat × Bool) (l : List (Nat × Bool)) (k : Nat) :
    (entry :: l).lookup k = if k = entry.1 then some entry.2 else l.lookup k := by
  rw [List.lookup_cons]
  by_cases hk : k = entry.1
  · rw [if_pos hk, beq_iff_eq.mpr hk]
  · rw [if_neg hk, beq_eq_false_iff_ne.mpr hk]

/-- Saving a value changes the value of its mode and of no other. -/
theorem Modes.lookup_insertSaved (n : Nat) (value : Bool) (l : List (Nat × Bool)) (k : Nat) :
    (insertSaved n value l).lookup k = if k = n then some value else l.lookup k := by
  induction l with
  | nil => exact lookup_cons_ite (n, value) [] k
  | cons entry rest ih =>
      rw [insertSaved]
      split
      · rw [lookup_cons_ite]
      · split
        · rename_i hn
          rw [lookup_cons_ite, lookup_cons_ite, ← hn]
          split <;> rfl
        · rename_i hn
          rw [lookup_cons_ite, lookup_cons_ite, ih]
          by_cases hk : k = entry.1
          · rw [if_pos hk, if_neg fun h => hn (h.symm.trans hk), if_pos hk]
          · rw [if_neg hk, if_neg hk]

/-- The same for the saved values of all modes. -/
theorem Modes.saved?_save (ms : Modes) (n : Nat) (value : Bool) (k : Nat) :
    (ms.save n value).saved? k = if k = n then some value else ms.saved? k :=
  lookup_insertSaved n value ms.saved k

namespace Terminal

/-- Saving a mode switches none. -/
theorem privateMode?_savePrivateMode (t : Terminal) (n k : Nat) :
    (t.savePrivateMode n).privateMode? k = t.privateMode? k := by
  rw [savePrivateMode]
  split
  · rw [privateMode?, privateMode?]
    congr 1
  · rfl

/-- What is saved of a mode is its value, if it has one; the others keep theirs. -/
theorem saved?_savePrivateMode (t : Terminal) (n k : Nat) :
    (t.savePrivateMode n).modes.saved? k
      = (if k = n then t.privateMode? k else none).or (t.modes.saved? k) := by
  rw [savePrivateMode]
  split
  · rename_i value hvalue
    rw [onModes, Modes.saved?_save]
    by_cases hk : k = n
    · subst hk
      simp [hvalue]
    · simp [hk]
  · rename_i hnone
    by_cases hk : k = n
    · subst hk
      simp [hnone]
    · simp [hk]

/-- Saving modes keeps the values of those that have one. -/
theorem saved?_foldl_savePrivateMode (t : Terminal) (modes : List Nat) (k : Nat) :
    (modes.foldl savePrivateMode t).modes.saved? k
      = (if k ∈ modes then t.privateMode? k else none).or (t.modes.saved? k) := by
  induction modes generalizing t with
  | nil => simp
  | cons n modes ih =>
      rw [List.foldl_cons, ih, privateMode?_savePrivateMode, saved?_savePrivateMode]
      by_cases hk : k = n
      · subst hk
        by_cases hmodes : k ∈ modes <;> cases t.privateMode? k <;> simp [hmodes]
      · simp [hk]

/-- Of the modes that are saved each has its value at that moment: saving one changes the value of
    none. -/
theorem saved?_savePrivateModes (t : Terminal) {modes : List Nat} {k : Nat} (hk : k ∈ modes) :
    (t.savePrivateModes modes).modes.saved? k = (t.privateMode? k).or (t.modes.saved? k) := by
  rw [savePrivateModes, if_neg (List.ne_nil_of_mem hk), saved?_foldl_savePrivateMode, if_pos hk]

/-! ## Operations that save nothing -/

/-- Saved values are not the shown screen. -/
theorem blind_saved (x : List (Nat × Bool)) : Blind (·.modes.saved = x) where
  onScreen := by
    intro t f h
    rw [onScreen]
    split <;> exact h
  onCursor := id
  printed := id

/-- What one step of a list leaves alone, the whole list does. -/
theorem saved_foldl {α : Type} {f : Terminal → α → Terminal}
    (hf : ∀ t a, (f t a).modes.saved = t.modes.saved) (t : Terminal) (as : List α) :
    (as.foldl f t).modes.saved = t.modes.saved :=
  List.foldlRecOn (motive := fun u => u.modes.saved = t.modes.saved) as f rfl
    fun u hu a _ => (hf u a).trans hu

/-- Saved values stand beside what the private modes are about. -/
theorem saved_of_besidePrivate {t u : Terminal}
    (h : u.modes.besidePrivate = t.modes.besidePrivate) : u.modes.saved = t.modes.saved := by
  show u.modes.besidePrivate.saved = t.modes.besidePrivate.saved
  rw [h]

/-- Saving the cursor saves no mode. -/
theorem saved_saveCursor (t : Terminal) : t.saveCursor.modes.saved = t.modes.saved :=
  saved_of_besidePrivate (besidePrivate_saveCursor t)

/-- Restoring it restores none. -/
theorem saved_restoreCursor (t : Terminal) : t.restoreCursor.modes.saved = t.modes.saved :=
  saved_of_besidePrivate (besidePrivate_restoreCursor t)

/-- Modes that are not private cannot be saved. -/
theorem saved_setMode (t : Terminal) (n : Nat) (on : Bool) :
    (t.setMode n on).modes.saved = t.modes.saved := by
  simp only [setMode]
  split <;> rfl

/-- Switching a mode does not save it. -/
theorem saved_setPrivateMode (t : Terminal) (n : Nat) (on : Bool) :
    (t.setPrivateMode n on).modes.saved = t.modes.saved :=
  saved_of_besidePrivate (besidePrivate_setPrivateMode t n on)

/-- Restoring a mode leaves the saved value where it is. -/
theorem saved_restorePrivateMode (t : Terminal) (n : Nat) :
    (t.restorePrivateMode n).modes.saved = t.modes.saved := by
  rw [restorePrivateMode]
  split
  · exact saved_setPrivateMode t n _
  · rfl

/-- Stops are no modes. -/
theorem saved_clearTabStop (t : Terminal) (extent : Nat) :
    (t.clearTabStop extent).modes.saved = t.modes.saved := by
  simp only [clearTabStop]
  split <;> rfl

/-- The region is none. -/
theorem saved_setScrollRegion (t : Terminal) (top bottom : Nat) :
    (t.setScrollRegion top bottom).modes.saved = t.modes.saved := by
  rw [setScrollRegion]
  generalize (if bottom = 0 then t.rows else min bottom t.rows) = stop
  dsimp only
  split <;> rfl

/-- The position that comes back is none. -/
theorem saved_restorePlace (t : Terminal) : t.restorePlace.modes.saved = t.modes.saved := by
  rw [restorePlace]
  split <;> rfl

/-- The style of the cursor is none. -/
theorem saved_setCursorStyle (t : Terminal) (n : Nat) :
    (t.setCursorStyle n).modes.saved = t.modes.saved := by
  rw [setCursorStyle]
  split <;> rfl

/-- Neither is a charset. -/
theorem saved_designate (t : Terminal) (slot : CharsetSlot) (b : UInt8) :
    (t.designate slot b).modes.saved = t.modes.saved := by
  rw [designate]
  split <;> rfl

/-- Nor the alignment pattern. -/
theorem saved_screenAlignment (t : Terminal) :
    t.screenAlignment.modes.saved = t.modes.saved :=
  have hreset : t.resetRegions.modes.saved = t.modes.saved := rfl
  (blind_saved t.modes.saved).setPosition ((blind_saved t.modes.saved).onScreen hreset) 0 0

/-- No control saves a mode. -/
theorem saved_applyControl (t : Terminal) (b : UInt8) :
    (t.applyControl b).1.modes.saved = t.modes.saved := by
  have hblind := blind_saved t.modes.saved
  rw [applyControl]
  split
  · rfl
  split
  · exact hblind.backspace rfl
  split
  · rfl
  split
  · exact hblind.linefeed rfl
  split
  · rfl
  split
  · rfl
  split <;> rfl

/-- No operation on the window does. -/
theorem saved_applyWindowOperation (t : Terminal) (args : List Nat) :
    (t.applyWindowOperation args).1.modes.saved = t.modes.saved := by
  rw [applyWindowOperation]
  split
  · rfl
  · rfl
  · split
    · rename_i u hu
      rw [popTitle?] at hu
      split at hu
      · rw [← Option.some.inj hu]
      · cases hu
    · rfl
  · rfl

end Terminal

/-! ## Messages -/

/-- The private modes that a message saves, if it does. -/
def Message.saves? : Message → Option (List Nat)
  | .csi marker params intermediates final =>
      match Terminal.functionOf marker params intermediates final with
      | .savePrivateModes modes => some modes
      | _ => none
  | _ => none

namespace Terminal

variable {t u : Terminal}

/-- One control function saves modes, and no other. -/
theorem saved_applyFunction (t : Terminal) {f : ControlFunction}
    (hf : ∀ modes, f ≠ .savePrivateModes modes) :
    (t.applyFunction f).1.modes.saved = t.modes.saved := by
  have hblind := blind_saved t.modes.saved
  cases f with
  | eraseInDisplay extent selective => exact hblind.eraseInDisplay rfl extent selective
  | eraseInLine extent selective => exact hblind.eraseInLine rfl extent selective
  | eraseChars n => exact hblind.eraseChars rfl n
  | scrollUp n => exact hblind.scroll rfl n .up
  | scrollDown n => exact hblind.scroll rfl n .down
  | insertLines n => exact hblind.shiftFromCursor rfl n .down
  | deleteLines n => exact hblind.shiftFromCursor rfl n .up
  | insertChars n => exact hblind.insertChars rfl n
  | deleteChars n => exact hblind.deleteChars rfl n
  | repeatLast n => exact hblind.repeatLast rfl n
  | clearTab extent => exact saved_clearTabStop t extent
  | setMode modes on => exact saved_foldl (fun u n => saved_setMode u n on) t modes
  | setPrivateMode modes on => exact saved_foldl (fun u n => saved_setPrivateMode u n on) t modes
  | savePrivateModes modes => exact absurd rfl (hf modes)
  | restorePrivateModes modes => exact saved_foldl saved_restorePrivateMode t _
  | setScrollRegion top bottom => exact saved_setScrollRegion t top bottom
  | restoreCursor => exact saved_restorePlace t
  | windowOperation args => exact saved_applyWindowOperation t args
  | cursorStyle n => exact saved_setCursorStyle t n
  | deviceStatus request => rw [applyFunction_deviceStatus]
  | privateDeviceStatus request => rw [applyFunction_privateDeviceStatus]
  | _ => rfl

/-- No system command does. -/
theorem saved_applyCommand (t : Terminal) (c : SystemCommand) (ending : StringEnd) :
    (t.applyCommand c ending).1.modes.saved = t.modes.saved := by
  obtain ⟨_, _, _, _, _, _, h⟩ := sameScreens_applyCommand t c ending
  rw [h]

/-- An escape sequence saves none; the full reset forgets them. -/
theorem saved_applyEscape (t : Terminal) {sequence : List UInt8}
    (hreset : (sequence.map fun b => Char.ofNat b.toNat) ≠ ['c']) :
    (t.applyEscape sequence).modes.saved = t.modes.saved := by
  have hblind := blind_saved t.modes.saved
  rw [applyEscape]
  split
  · exact saved_saveCursor t
  · exact saved_restoreCursor t
  · exact hblind.index rfl
  · exact hblind.index (t := t.carriageReturn) rfl
  · exact hblind.reverseIndex rfl
  · rfl
  · rename_i hc
    exact absurd hc hreset
  · rfl
  · rfl
  · exact saved_screenAlignment t
  · exact saved_designate t _ _
  · exact saved_designate t _ _
  · rfl

/-- Only saving and the full reset reach the saved values. -/
theorem saved_apply (t : Terminal) {m : Message} (hsaves : m.saves? = none)
    (hreset : m.isFullReset = false) : (t.apply m).1.modes.saved = t.modes.saved := by
  cases m with
  | print text => exact saved_foldl (fun u c => (blind_saved u.modes.saved).print rfl c) t text
  | control b => exact saved_applyControl t b
  | sgr params => rfl
  | csi marker params intermediates final =>
      refine saved_applyFunction t fun modes hf => ?_
      rw [Message.saves?, hf] at hsaves
      cases hsaves
  | osc code data ending => exact saved_applyCommand t _ ending
  | esc sequence => exact saved_applyEscape t (of_decide_eq_false hreset)
  | dcs params intermediates final data => rfl

/-- Messages that save no modes, and do not reset, leave the saved values alone. -/
theorem saved_applyAll (t : Terminal) {ms : List Message}
    (hms : ∀ m ∈ ms, m.saves? = none ∧ m.isFullReset = false) :
    (t.applyAll ms).1.modes.saved = t.modes.saved := by
  rw [applyAll_eq_run]
  exact Machine.run_invariant (I := fun u => u.modes.saved = t.modes.saved)
    (fun u m hm hu => (saved_apply u (hms m hm).1 (hms m hm).2).trans hu) rfl

/-- A message that saves modes does nothing else. -/
theorem apply_saves {m : Message} {modes : List Nat} (hm : m.saves? = some modes)
    (t : Terminal) : (t.apply m).1 = t.savePrivateModes modes := by
  cases m with
  | csi marker params intermediates final =>
      rw [Message.saves?] at hm
      split at hm
      · rename_i hf
        cases hm
        show (t.applyFunction _).1 = _
        rw [hf]
        rfl
      · cases hm
  | _ => cases hm

/-! ## Restoring -/

/-- The switches by which the saved values of modes come back. -/
def savedSwitches (ms : Modes) (numbers : List Nat) : List (PrivateMode × Bool) :=
  numbers.filterMap fun n => (ofNumber? n).bind fun m => (ms.saved? n).map (m, ·)

/-- Restoring a mode switches it to the saved value, if there is one. -/
theorem restorePrivateMode_eq (t : Terminal) (n : Nat) :
    t.restorePrivateMode n = t.switchAll (savedSwitches t.modes [n]) := by
  rw [restorePrivateMode, savedSwitches]
  cases hvalue : t.modes.saved? n with
  | none => cases hn : ofNumber? n <;> simp [switchAll, hn, hvalue]
  | some value => cases hn : ofNumber? n <;> simp [switchAll, setPrivateMode, hn, hvalue]

/-- Restoring switches nothing but modes, so what is saved can be looked up at the beginning. -/
theorem foldl_restorePrivateMode (t : Terminal) (numbers : List Nat) :
    numbers.foldl restorePrivateMode t = t.switchAll (savedSwitches t.modes numbers) := by
  induction numbers generalizing t with
  | nil => rfl
  | cons n numbers ih =>
      have hsame : savedSwitches (t.restorePrivateMode n).modes numbers
          = savedSwitches t.modes numbers := by
        rw [savedSwitches, savedSwitches]
        simp only [Modes.saved?, saved_restorePrivateMode]
      have hsplit : savedSwitches t.modes (n :: numbers)
          = savedSwitches t.modes [n] ++ savedSwitches t.modes numbers :=
        List.filterMap_append (l := [n])
      rw [List.foldl_cons, ih, hsame, hsplit, switchAll_append, restorePrivateMode_eq]

/-- The switches of a restore are the modes among the numbers that have a saved value. -/
theorem mem_savedSwitches {ms : Modes} {numbers : List Nat} {m : PrivateMode} {on : Bool} :
    (m, on) ∈ savedSwitches ms numbers
      ↔ ∃ n ∈ numbers, ofNumber? n = some m ∧ ms.saved? n = some on := by
  rw [savedSwitches, List.mem_filterMap]
  constructor
  · rintro ⟨n, hn, h⟩
    obtain ⟨m', hm', h⟩ := Option.bind_eq_some_iff.mp h
    obtain ⟨on', hon', h⟩ := Option.map_eq_some_iff.mp h
    cases h
    exact ⟨n, hn, hm', hon'⟩
  · rintro ⟨n, hn, hm, hon⟩
    exact ⟨n, hn, by rw [hm, hon]; rfl⟩

/-! ## Values that were saved together -/

/-- A mode that was on or off when its value was saved is left alone by whatever else was. -/
theorem effect_of_together {m x : PrivateMode} {on value v : Bool} (hm : t.isOn? m = some on)
    (hscreen : m.isScreen = false) (hx : t.isOn? x = some value)
    (heffect : u.effect m on x = some v) : v = value := by
  obtain ⟨hscreen', -⟩ | ⟨hscreen', -⟩ | ⟨-, rfl, rfl⟩ | ⟨-, rfl, hexcludes, rfl⟩ :=
    effect_cases heffect
  · exact absurd hscreen' (Bool.eq_false_iff.mp hscreen)
  · exact absurd hscreen' (Bool.eq_false_iff.mp hscreen)
  · -- its own value comes back
    exact Option.some.inj (hm.symm.trans hx)
  · -- it was off because a mode that excludes it was on
    exact Option.some.inj ((isOn?_of_excludes hm hexcludes).symm.trans hx)

/-- Values that modes had together come back by switching them in any order. -/
theorem isOn?_switchAll_together (u : Terminal) {l : List (PrivateMode × Bool)}
    (hl : ∀ s ∈ l, s.1.hasValue = true ∧ s.1.isScreen = false ∧ t.isOn? s.1 = some s.2)
    {x : PrivateMode} {value : Bool} (hx : (x, value) ∈ l) :
    (u.switchAll l).isOn? x = some value := by
  obtain ⟨hvalue, -, hvalue'⟩ := hl _ hx
  refine switchAll_settles (I := fun _ => True) (P := fun u => u.isOn? x = some value)
    (fun _ _ _ _ => trivial) ?_ trivial ?_
  · intro u s hs _ hu
    obtain ⟨hm, hscreen, hm'⟩ := hl s hs
    rw [isOn?_switch u hm hvalue]
    cases heffect : u.effect s.1 s.2 x with
    | none => exact hu
    | some v =>
        rw [effect_of_together hm' hscreen hvalue' heffect]
        rfl
  · refine ⟨(x, value), hx, fun u _ => ?_⟩
    rw [isOn?_switch u hvalue hvalue, effect_self]
    rfl

/-- The alternate screen is not among the modes that are saved when none are named, nor is the
    saved cursor. -/
theorem mode_of_saveable {n : Nat} (hn : n ∈ saveable) :
    ∃ m, ofNumber? n = some m ∧ m.hasValue = true ∧ m.isScreen = false := by
  have hall : ∀ k ∈ saveable,
      (ofNumber? k).any (fun m => m.hasValue && !m.isScreen) = true := by decide
  have hn' := hall n hn
  cases hm : ofNumber? n with
  | none =>
      rw [hm] at hn'
      cases hn'
  | some m =>
      rw [hm, Option.any_some, Bool.and_eq_true, Bool.not_eq_true'] at hn'
      exact ⟨m, rfl, hn'⟩

/-- A mode that has a value has it at any time. -/
theorem exists_isOn? {m : PrivateMode} (hm : m.hasValue = true) (t : Terminal) :
    ∃ value, t.isOn? m = some value := by
  cases m <;> first | exact ⟨_, rfl⟩ | cases hm

/-- So has every mode that can be saved, by its number. -/
theorem exists_privateMode? {n : Nat} (hn : n ∈ saveable) (t : Terminal) :
    ∃ value, t.privateMode? n = some value := by
  obtain ⟨m, hm, hvalue, -⟩ := mode_of_saveable hn
  rw [privateMode?_of_number hm]
  exact exists_isOn? hvalue t

/-- Restoring brings back what was saved together, whatever has been switched since. -/
theorem restorePrivateModes_together {modes : List Nat}
    (hmodes : ∀ n ∈ modes, n ∈ saveable ∧ u.modes.saved? n = t.privateMode? n) {n : Nat}
    (hn : n ∈ modes) : (u.restorePrivateModes modes).privateMode? n = t.privateMode? n := by
  obtain ⟨m, hm, -⟩ := mode_of_saveable (hmodes n hn).1
  obtain ⟨value, hvalue⟩ := exists_privateMode? (hmodes n hn).1 t
  rw [restorePrivateModes, if_neg (List.ne_nil_of_mem hn), foldl_restorePrivateMode,
    privateMode?_of_number hm, hvalue]
  refine isOn?_switchAll_together (t := t) u ?_
    (mem_savedSwitches.mpr ⟨n, hn, hm, (hmodes n hn).2.trans hvalue⟩)
  rintro ⟨x, on⟩ hx
  obtain ⟨k, hk, hkx, hon⟩ := mem_savedSwitches.mp hx
  obtain ⟨hsaveable, hsaved⟩ := hmodes k hk
  obtain ⟨y, hky, hyvalue, hyscreen⟩ := mode_of_saveable hsaveable
  obtain rfl : x = y := Option.some.inj (hkx.symm.trans hky)
  exact ⟨hyvalue, hyscreen, (privateMode?_of_number hkx t).symm.trans (hsaved.symm.trans hon)⟩

/-- **Saved modes come back in any order.**  Modes are saved, then come any messages that neither
    save private modes nor reset everything, and then the same modes are restored, perhaps in
    another order or more than once.  Each of them has the value again that it had when it was
    saved, those that exclude each other included. -/
theorem restorePrivateModes_saved (t : Terminal) {modes modes' : List Nat}
    (hmodes : ∀ n ∈ modes, n ∈ saveable) (hsame : ∀ n, n ∈ modes' ↔ n ∈ modes)
    {ms : List Message} (hms : ∀ m ∈ ms, m.saves? = none ∧ m.isFullReset = false) {n : Nat}
    (hn : n ∈ modes) :
    ((((t.savePrivateModes modes).applyAll ms).1.restorePrivateModes modes').privateMode? n)
      = t.privateMode? n := by
  refine restorePrivateModes_together (fun k hk => ?_) ((hsame n).mpr hn)
  -- what is restored is what was saved
  have hk' := (hsame k).mp hk
  obtain ⟨value, hvalue⟩ := exists_privateMode? (hmodes k hk') t
  refine ⟨hmodes k hk', ?_⟩
  rw [Modes.saved?, saved_applyAll _ hms]
  show (t.savePrivateModes modes).modes.saved? k = _
  rw [saved?_savePrivateModes t hk', hvalue]
  rfl

/-- Two kinds of mouse tracking are saved while one of them is on, and restored while the other one
    is. -/
theorem restorePrivateModes_saved_tracking :
    let t := (Terminal.new 4 2 0 .cancelBold).setPrivateMode 1002 true
    let ms : List Message :=
      [.csi (some 0x3F) ⟨[[some 1000], [some 6]]⟩ [] 0x68, .print ['a'], .esc [0x37]]
    let u := ((t.savePrivateModes [1000, 1002, 6, 1002]).applyAll ms).1
    (u.privateMode? 1000 = some true ∧ u.privateMode? 1002 = some false) ∧
      (u.restorePrivateModes [1002, 6, 1000]).privateMode? 1000 = some false ∧
      (u.restorePrivateModes [1002, 6, 1000]).privateMode? 1002 = some true := by
  intro t ms u
  have hmodes : ∀ n ∈ [1000, 1002, 6, 1002], n ∈ saveable := by decide
  have hsame : ∀ n, n ∈ [1002, 6, 1000] ↔ n ∈ [1000, 1002, 6, 1002] := by
    intro n
    simp only [List.mem_cons, List.not_mem_nil, or_false]
    omega
  have hms : ∀ m ∈ ms, m.saves? = none ∧ m.isFullReset = false := by decide
  refine ⟨⟨rfl, rfl⟩, ?_, ?_⟩
  · exact restorePrivateModes_saved t hmodes hsame hms (by decide)
  · exact restorePrivateModes_saved t hmodes hsame hms (by decide)

end Terminal

end VideoTerminal
