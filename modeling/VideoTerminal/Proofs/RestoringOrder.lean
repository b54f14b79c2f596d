import Mathlib.Data.List.Basic
import VideoTerminal.Proofs.Reachable
import VideoTerminal.Proofs.SavedModes

/-!
# The order in which saved modes come back

Values that were saved at different times need not be values that modes can have together, and then
the order in which they are switched shows.  There are three ways for this to happen: two modes
that exclude each other were both saved as on, modes of the alternate screen were saved with
different values, or leaving the alternate screen brings something back that was saved differently,
or that not every mode brings back by which it can be left.

`Terminal.Compatible` excludes these three, and it is exactly what it takes: if it holds, one switch
or leaving the screen decides on each mode, wherever it comes in the row; and for each of the three
there are two orders with different ends.
-/

namespace VideoTerminal

open PrivateMode

namespace Terminal

variable {t u : Terminal} {l p : List (PrivateMode × Bool)} {m x : PrivateMode}
  {on v : Bool}

/-! ## What leaving the alternate screen depends on -/

/-- Which screen is shown, and what leaving the alternate screen brings back. -/
def aside (t : Terminal) : Bool × Option Cursor × Option SavedCursor :=
  (t.modes.alternateScreen, t.primaryCursor, t.primarySaved)

/-- A mode that is no mode of the alternate screen leaves aside what is put aside. -/
theorem aside_switch (t : Terminal) (hm : m.hasValue = true) (hscreen : m.isScreen = false)
    (on : Bool) : (t.switch m on).aside = t.aside := by
  cases m with
  | savedCursor => cases hm
  | alternateScreen => cases hscreen
  | blankAlternateScreen => cases hscreen
  | alternateScreenAndCursor => cases hscreen
  | mouseTracking k =>
      show (t.onModes (·.setMouseTracking k on)).aside = _
      rw [onModes, setMouseTracking_eq]
      rfl
  | mouseEncoding e =>
      show (t.onModes (·.setMouseEncoding e on)).aside = _
      rw [onModes, setMouseEncoding_eq]
      rfl
  | _ => rfl

/-- What is put aside tells which screen is shown. -/
theorem shown_of_aside (h : u.aside = t.aside) :
    u.modes.alternateScreen = t.modes.alternateScreen := congrArg Prod.fst h

/-- What a mode brings back depends on what is put aside only. -/
theorem broughtBack_congr (h : u.aside = t.aside) (m x : PrivateMode) :
    u.broughtBack m x = t.broughtBack m x := by
  have hcursor : u.primaryCursor = t.primaryCursor := congrArg (·.2.1) h
  have hsaved : u.primarySaved = t.primarySaved := congrArg (·.2.2) h
  cases x <;> simp only [broughtBack, hcursor, hsaved]

/-- What is brought back is no screen, and not in a group. -/
theorem plain_of_broughtBack (h : t.broughtBack m x = some v) :
    x.isScreen = false ∧ ∀ m' : PrivateMode, m'.excludes x = false := by
  have hplain : ∀ m' : PrivateMode, m'.excludes x = false := by
    intro m'
    cases x <;> first | cases h | (cases m' <;> rfl)
  exact ⟨by cases x <;> first | cases h | rfl, hplain⟩

/-- A mode of the alternate screen shows it or does not, as it is switched. -/
theorem shown_switch (t : Terminal) (hm : m.isScreen = true) (on : Bool) :
    (t.switch m on).modes.alternateScreen = on := by
  have hon := isOn?_switch_screen t hm on (x := m)
  rw [effect_self, isOn?_of_isScreen _ hm] at hon
  exact Option.some.inj hon

/-- Once the alternate screen has been left, leaving it again changes nothing. -/
theorem switchAll_left (hshown : t.modes.alternateScreen = false)
    (hl : ∀ s ∈ l, s.1.isScreen = true ∧ s.2 = false) : t.switchAll l = t := by
  refine switchAll_invariant (I := (· = t)) ?_ rfl
  rintro u s hs rfl
  rw [(hl s hs).2, ← hshown, switch_screen_same u (hl s hs).1]

/-! ## Saved values that do not disturb each other -/

/-- The value of a mode behind leaving the alternate screen by another. -/
def leftBy? (t : Terminal) (m x : PrivateMode) : Option Bool := (t.broughtBack m x).or (t.isOn? x)

/-- Switches with the same outcome in any order. -/
structure Compatible (t : Terminal) (l : List (PrivateMode × Bool)) : Prop where
  /-- No two modes that exclude each other are switched on. -/
  groups : ∀ m x, (m, true) ∈ l → (x, true) ∈ l → m.excludes x = false
  /-- There is one value for all modes of the alternate screen. -/
  screens : ∀ m on x on', (m, on) ∈ l → (x, on') ∈ l → m.isScreen = true → x.isScreen = true →
    on = on'
  /-- Leaving the alternate screen brings back nothing else than what is switched. -/
  switched : t.modes.alternateScreen = true → ∀ m x v w, (m, false) ∈ l → (x, w) ∈ l →
    m.isScreen = true → t.broughtBack m x = some v → v = w
  /-- By whatever mode it is left, the modes that are not switched have the same values. -/
  others : t.modes.alternateScreen = true → ∀ m m' x, (m, false) ∈ l → (m', false) ∈ l →
    m.isScreen = true → m'.isScreen = true → x.hasValue = true → (∀ w, (x, w) ∉ l) →
    t.leftBy? m x = t.leftBy? m' x

/-- If one mode of the alternate screen is switched, and none of the modes that leaving it can bring
    back, only groups matter. -/
theorem compatible_of_one_screen {s : PrivateMode × Bool}
    (hgroups : ∀ a ∈ l, ∀ b ∈ l, a.2 = true → b.2 = true → a.1.excludes b.1 = false)
    (hscreen : ∀ a ∈ l, a.1.isScreen = true → a = s)
    (hplain : ∀ a ∈ l, a.1 ∉ [.cursorBlinking, .origin, .autowrap]) : t.Compatible l where
  groups _ _ hm hx := hgroups _ hm _ hx rfl rfl
  screens _ _ _ _ hm hx hms hxs :=
    congrArg Prod.snd ((hscreen _ hm hms).trans (hscreen _ hx hxs).symm)
  switched _ m x v w _ hx _ hback := by
    have hback' : x ∈ [.cursorBlinking, .origin, .autowrap] := by
      cases x <;> first | decide | cases hback
    exact absurd hback' (hplain _ hx)
  others _ m m' x hm hm' hms hms' _ _ := by
    obtain rfl : m = m' :=
      congrArg Prod.fst ((hscreen _ hm hms).trans (hscreen _ hm' hms').symm)
    rfl

/-! ### One outcome -/

/-- As long as the alternate screen is shown and may be left, leaving it has the effect that it had
    in the beginning. -/
def StillAside (t : Terminal) (l : List (PrivateMode × Bool)) (u : Terminal) : Prop :=
  u.modes.alternateScreen = true → ∀ m, m.isScreen = true → (m, false) ∈ l → u.aside = t.aside

/-- No switch has an effect on a mode, unless by leaving the alternate screen. -/
def Undecided (t : Terminal) (l : List (PrivateMode × Bool)) (x : PrivateMode) : Prop :=
  ∀ a ∈ l, (a.1.isScreen = true → x.isScreen = true) → t.effect a.1 a.2 x = none

namespace Undecided

variable (hnone : t.Undecided l x)

include hnone

/-- Among switches that decide nothing, one that has an effect all the same leaves the alternate
    screen. -/
theorem leaves_of_effect {s : PrivateMode × Bool} (hs : s ∈ l)
    (heffect : u.effect s.1 s.2 x = some v) :
    s.1.isScreen = true ∧ u.modes.alternateScreen = true ∧ s.2 = false := by
  by_cases hfree : s.1.isScreen = true → x.isScreen = true
  · rw [effect_congr u t hfree, hnone s hs hfree] at heffect
    cases heffect
  · rcases effect_cases heffect with ⟨-, hxs, -⟩ | ⟨hm, -, hshown, hoff, -⟩ | ⟨hm, -⟩ | ⟨hm, -⟩
    · exact absurd (fun _ => hxs) hfree
    · exact ⟨hm, hshown, hoff⟩
    · exact absurd (fun hm' => absurd hm' (Bool.eq_false_iff.mp hm)) hfree
    · exact absurd (fun hm' => absurd hm' (Bool.eq_false_iff.mp hm)) hfree

/-- A mode that nothing decides is not among the switches. -/
theorem not_mem (w : Bool) : (x, w) ∉ l := by
  intro hxl
  have hself := hnone _ hxl id
  rw [effect_self] at hself
  cases hself

/-- It is no mode of the alternate screen if one of these is. -/
theorem not_screen (hm : m.isScreen = true) (hml : (m, on) ∈ l) : x.isScreen = false := by
  refine Bool.eq_false_iff.mpr fun hxs => ?_
  have hscreen := hnone _ hml fun _ => hxs
  rw [effect_screens t hm hxs] at hscreen
  cases hscreen

end Undecided

namespace Compatible

variable (h : t.Compatible l) (hl : ∀ s ∈ l, s.1.hasValue = true)
  (hone : ∀ x v w, (x, v) ∈ l → (x, w) ∈ l → v = w)

include h hl

/-- As long as the alternate screen is to be left, what was put aside stays there. -/
theorem stillAside_switch {s : PrivateMode × Bool} (hs : s ∈ l) (hu : t.StillAside l u) :
    t.StillAside l (u.switch s.1 s.2) := by
  intro hshown m hm hml
  cases hscreen : s.1.isScreen with
  | false =>
      have haside := aside_switch u (hl s hs) hscreen s.2
      rw [shown_of_aside haside] at hshown
      exact haside.trans (hu hshown m hm hml)
  | true =>
      -- if one mode of the alternate screen is switched off, all are
      have hoff : s.2 = false := h.screens _ _ _ _ hs hml hscreen hm
      rw [shown_switch u hscreen, hoff] at hshown
      cases hshown

include hone

omit hl in
/-- Two switches with an effect on a mode have the same effect, unless both leave the alternate
    screen. -/
theorem agree (hu : t.StillAside l u) {a b : PrivateMode × Bool} (ha : a ∈ l) (hb : b ∈ l)
    (hfree : a.1.isScreen = true → x.isScreen = true) {v w : Bool}
    (hav : t.effect a.1 a.2 x = some v) (hbw : u.effect b.1 b.2 x = some w) : w = v := by
  obtain ⟨a, aon⟩ := a
  obtain ⟨b, bon⟩ := b
  rcases effect_cases hav with
    ⟨ham, hxs, rfl⟩ | ⟨ham, hxs, -⟩ | ⟨ham, rfl, rfl⟩ | ⟨ham, rfl, hax, rfl⟩
  · rcases effect_cases hbw with ⟨hbm, -, rfl⟩ | ⟨-, hxs', -⟩ | ⟨hbm, rfl, -⟩ | ⟨-, -, hbx, -⟩
    · exact h.screens _ _ _ _ hb ha hbm ham
    · exact absurd hxs (Bool.eq_false_iff.mp hxs')
    · exact absurd hxs (Bool.eq_false_iff.mp hbm)
    · exact absurd hxs (Bool.eq_false_iff.mp (plain_of_excludes hbx).2.1)
  · exact absurd (hfree ham) (Bool.eq_false_iff.mp hxs)
  · rcases effect_cases hbw with
      ⟨-, hxs, -⟩ | ⟨hbm, -, hshown, rfl, hback⟩ | ⟨-, rfl, rfl⟩ | ⟨-, rfl, hbx, rfl⟩
    · exact absurd hxs (Bool.eq_false_iff.mp ham)
    · have haside := hu hshown b hbm hb
      rw [broughtBack_congr haside] at hback
      exact h.switched ((shown_of_aside haside).symm.trans hshown) _ _ _ _ hb ha hbm hback
    · exact hone _ _ _ hb ha
    · -- of two modes that exclude each other, the other one is switched off
      cases v with
      | false => rfl
      | true => exact absurd hbx (Bool.eq_false_iff.mp (h.groups _ _ hb ha))
  · rcases effect_cases hbw with
      ⟨-, hxs, -⟩ | ⟨-, -, -, -, hback⟩ | ⟨-, rfl, rfl⟩ | ⟨-, -, -, rfl⟩
    · exact absurd hxs (Bool.eq_false_iff.mp (plain_of_excludes hax).2.1)
    · exact absurd hax (Bool.eq_false_iff.mp ((plain_of_broughtBack hback).2 a))
    · cases w with
      | false => rfl
      | true => exact absurd hax (Bool.eq_false_iff.mp (h.groups _ _ ha hb))
    · rfl

/-- An effect that does not depend on what leaving the alternate screen brings back is the value in
    the end. -/
theorem decided (hp : p.Perm l) (hx : x.hasValue = true) {a : PrivateMode × Bool} (ha : a ∈ l)
    (hfree : a.1.isScreen = true → x.isScreen = true) (hav : t.effect a.1 a.2 x = some v) :
    (t.switchAll p).isOn? x = some v := by
  refine switchAll_settles (I := t.StillAside l) (P := fun u => u.isOn? x = some v)
    (fun u s hs hu => h.stillAside_switch hl (hp.mem_iff.mp hs) hu) ?_ (fun _ _ _ _ => rfl) ?_
  · intro u s hs hu hux
    rw [isOn?_switch u (hl s (hp.mem_iff.mp hs)) hx]
    cases heffect : u.effect s.1 s.2 x with
    | none => exact hux
    | some w =>
        rw [h.agree hone hu ha (hp.mem_iff.mp hs) hfree hav heffect]
        rfl
  · refine ⟨a, hp.mem_iff.mpr ha, fun u _ => ?_⟩
    rw [isOn?_switch u (hl a ha) hx, effect_congr u t hfree, hav]
    rfl

omit hone in
/-- Where no switch has an effect and the alternate screen is not left, a mode keeps its value. -/
theorem untouched (hp : p.Perm l) (hx : x.hasValue = true) (hnone : t.Undecided l x)
    (hstays : ∀ m, m.isScreen = true → (m, false) ∈ l → t.modes.alternateScreen = false) :
    (t.switchAll p).isOn? x = t.isOn? x := by
  refine (switchAll_invariant (I := fun u => t.StillAside l u ∧ u.isOn? x = t.isOn? x)
    ?_ ⟨fun _ _ _ _ => rfl, rfl⟩).2
  rintro u ⟨m, on⟩ hs ⟨hu, hux⟩
  replace hs := hp.mem_iff.mp hs
  refine ⟨h.stillAside_switch hl hs hu, ?_⟩
  rw [isOn?_switch u (hl _ hs) hx]
  cases heffect : u.effect m on x with
  | none => exact hux
  | some v =>
      obtain ⟨hm, hshown, rfl⟩ := hnone.leaves_of_effect hs heffect
      have haside := shown_of_aside (hu hshown m hm hs)
      rw [hshown, hstays m hm hs] at haside
      cases haside

omit hone in
/-- Where no switch has an effect but leaving the alternate screen, the screen that is shown tells
    whether a mode has the value that leaving gives it. -/
theorem left_switch (hx : x.hasValue = true) (hnone : t.Undecided l x)
    (hshown : t.modes.alternateScreen = true) (hm : m.isScreen = true) (hml : (m, false) ∈ l)
    {s : PrivateMode × Bool} (hs : s ∈ l) (hu : t.StillAside l u)
    (hux : u.isOn? x = if u.modes.alternateScreen then t.isOn? x else t.leftBy? m x) :
    (u.switch s.1 s.2).isOn? x
      = if (u.switch s.1 s.2).modes.alternateScreen then t.isOn? x else t.leftBy? m x := by
  obtain ⟨m', on⟩ := s
  cases hm' : m'.isScreen with
  | false =>
      have hsame : u.effect m' on x = none := by
        refine Option.eq_none_iff_forall_ne_some.mpr fun v heffect => ?_
        exact absurd (hnone.leaves_of_effect hs heffect).1 (Bool.eq_false_iff.mp hm')
      rw [isOn?_switch u (hl _ hs) hx, hsame, shown_of_aside (aside_switch u (hl _ hs) hm' on),
        Option.none_or, hux]
  | true =>
      obtain rfl : on = false := h.screens _ _ _ _ hs hml hm' hm
      cases hushown : u.modes.alternateScreen with
      | false =>
          have hagain := switch_screen_same u hm'
          rw [hushown] at hagain
          rw [hagain, hux]
      | true =>
          rw [shown_switch u hm', isOn?_switch_leave hushown hm', hnone.not_screen hm hml, hux,
            hushown, broughtBack_congr (hu hushown m hm hml)]
          exact h.others hshown _ _ _ hs hml hm' hm hx hnone.not_mem

/-- So behind all switches it has this value, since one of them has left the alternate screen. -/
theorem left (hp : p.Perm l) (hx : x.hasValue = true) (hnone : t.Undecided l x)
    (hshown : t.modes.alternateScreen = true) (hm : m.isScreen = true) (hml : (m, false) ∈ l) :
    (t.switchAll p).isOn? x = t.leftBy? m x := by
  have hend : (t.switchAll p).modes.alternateScreen = false := by
    have hoff := h.decided hl hone hp (hl _ hml) hml id (effect_self t m false)
    rw [isOn?_of_isScreen _ hm] at hoff
    exact Option.some.inj hoff
  have hinvariant : t.StillAside l (t.switchAll p) ∧ (t.switchAll p).isOn? x
      = if (t.switchAll p).modes.alternateScreen then t.isOn? x else t.leftBy? m x := by
    refine switchAll_invariant (I := fun u => t.StillAside l u ∧ u.isOn? x
      = if u.modes.alternateScreen then t.isOn? x else t.leftBy? m x) ?_
      ⟨fun _ _ _ _ => rfl, by rw [hshown, if_pos rfl]⟩
    rintro u s hs ⟨hu, hux⟩
    replace hs := hp.mem_iff.mp hs
    exact ⟨h.stillAside_switch hl hs hu, h.left_switch hl hx hnone hshown hm hml hs hu hux⟩
  rw [hinvariant.2, hend, if_neg Bool.false_ne_true]

/-- Compatible switches end in one value of each mode. -/
theorem isOn?_switchAll {q : List (PrivateMode × Bool)} (hp : p.Perm l) (hq : q.Perm l)
    (hx : x.hasValue = true) : (t.switchAll p).isOn? x = (t.switchAll q).isOn? x := by
  by_cases hsure : ∃ a ∈ l, (a.1.isScreen = true → x.isScreen = true) ∧
      ∃ v, t.effect a.1 a.2 x = some v
  · obtain ⟨a, ha, hfree, v, hav⟩ := hsure
    rw [h.decided hl hone hp hx ha hfree hav, h.decided hl hone hq hx ha hfree hav]
  · have hnone : t.Undecided l x := fun a ha hfree =>
      Option.eq_none_iff_forall_ne_some.mpr fun v hav => hsure ⟨a, ha, hfree, v, hav⟩
    by_cases hleaves : ∃ m, m.isScreen = true ∧ (m, false) ∈ l ∧ t.modes.alternateScreen = true
    · obtain ⟨m, hm, hml, hshown⟩ := hleaves
      rw [h.left hl hone hp hx hnone hshown hm hml, h.left hl hone hq hx hnone hshown hm hml]
    · have hstays : ∀ m, m.isScreen = true → (m, false) ∈ l →
          t.modes.alternateScreen = false := fun m hm hml =>
        Bool.eq_false_iff.mpr fun hshown => hleaves ⟨m, hm, hml, hshown⟩
      rw [h.untouched hl hp hx hnone hstays, h.untouched hl hq hx hnone hstays]

end Compatible

/-! ### Orders that tell -/

/-- A switch can come last. -/
theorem exists_order_last (t : Terminal) (hl : ∀ s ∈ l, s.1.hasValue = true)
    (hs : (m, on) ∈ l) (hx : x.hasValue = true) (hfree : m.isScreen = true → x.isScreen = true)
    (heffect : t.effect m on x = some v) :
    ∃ p, p.Perm l ∧ (t.switchAll p).isOn? x = some v := by
  refine ⟨l.erase (m, on) ++ [(m, on)],
    (List.perm_append_singleton _ _).trans (List.perm_cons_erase hs).symm, ?_⟩
  rw [switchAll_concat, isOn?_switch _ (hl _ hs) hx, effect_congr _ t hfree, heffect]
  rfl

/-- The alternate screen can be left by any of its modes, behind all other switches. -/
theorem exists_order_leaving (hl : ∀ s ∈ l, s.1.hasValue = true)
    (hoff : ∀ s ∈ l, s.1.isScreen = true → s.2 = false)
    (hshown : t.modes.alternateScreen = true) (hs : (m, false) ∈ l) (hm : m.isScreen = true)
    (hxs : x.isScreen = false) :
    ∃ p, p.Perm l ∧ (t.switchAll p).isOn? x
      = (t.broughtBack m x).or ((t.switchAll (l.filter (!·.1.isScreen))).isOn? x) := by
  have hscreen : (m, false) ∈ l.filter (·.1.isScreen) := List.mem_filter.mpr ⟨hs, hm⟩
  refine ⟨l.filter (!·.1.isScreen) ++ (m, false) :: (l.filter (·.1.isScreen)).erase (m, false),
    ?_, ?_⟩
  · refine ((List.perm_cons_erase hscreen).symm.append_left _).trans ?_
    simpa using List.filter_append_perm (!·.1.isScreen) l
  · -- nothing but what is aside matters of what comes before
    have haside : (t.switchAll (l.filter (!·.1.isScreen))).aside = t.aside := by
      refine switchAll_invariant (I := fun u => u.aside = t.aside) ?_ rfl
      intro u s hs hu
      obtain ⟨hs, hplain⟩ := List.mem_filter.mp hs
      exact (aside_switch u (hl s hs) (by simpa using hplain) s.2).trans hu
    have hshown' := (shown_of_aside haside).trans hshown
    rw [switchAll_append, switchAll_cons, switchAll_left (shown_switch _ hm false),
      isOn?_switch_leave hshown' hm, hxs, if_neg Bool.false_ne_true, broughtBack_congr haside]
    intro s hs
    obtain ⟨hs, hscreen⟩ := List.mem_filter.mp (List.mem_of_mem_erase hs)
    exact ⟨hscreen, hoff s hs hscreen⟩

/-- Before the alternate screen is left, a mode that nothing excludes keeps its value if it is not
    switched. -/
theorem isOn?_switchAll_unswitched (hl : ∀ s ∈ l, s.1.hasValue = true) (hx : x.hasValue = true)
    (hunswitched : ∀ w, (x, w) ∉ l) (hplain : ∀ m : PrivateMode, m.excludes x = false) :
    (t.switchAll (l.filter (!·.1.isScreen))).isOn? x = t.isOn? x := by
  refine switchAll_invariant (I := fun u => u.isOn? x = t.isOn? x) ?_ rfl
  intro u s hs hux
  obtain ⟨hs, hscreen⟩ := List.mem_filter.mp hs
  have hscreen : s.1.isScreen = false := by simpa using hscreen
  rw [isOn?_switch u (hl s hs) hx]
  cases heffect : u.effect s.1 s.2 x with
  | none => exact hux
  | some v =>
      rcases effect_cases heffect with ⟨hm, -⟩ | ⟨hm, -⟩ | ⟨-, rfl, -⟩ | ⟨-, -, hexcludes, -⟩
      · exact absurd hm (Bool.eq_false_iff.mp hscreen)
      · exact absurd hm (Bool.eq_false_iff.mp hscreen)
      · exact absurd hs (hunswitched s.2)
      · exact absurd hexcludes (Bool.eq_false_iff.mp (hplain s.1))

/-- Only compatible switches end in the same values in all orders. -/
theorem compatible_iff (t : Terminal) (hl : ∀ s ∈ l, s.1.hasValue = true)
    (hone : ∀ x v w, (x, v) ∈ l → (x, w) ∈ l → v = w) :
    t.Compatible l ↔ ∀ p q, p.Perm l → q.Perm l → ∀ x : PrivateMode, x.hasValue = true →
      (t.switchAll p).isOn? x = (t.switchAll q).isOn? x := by
  constructor
  · intro h p q hp hq x hx
    exact h.isOn?_switchAll hl hone hp hq hx
  · intro hsame
    have hscreens : ∀ m on x on', (m, on) ∈ l → (x, on') ∈ l → m.isScreen = true →
        x.isScreen = true → on = on' := by
      intro m on x on' hml hxl hm hx
      obtain ⟨p, hp, hpm⟩ := exists_order_last t hl hml (hl _ hml) id (effect_self t m on)
      obtain ⟨q, hq, hqm⟩ := exists_order_last t hl hxl (hl _ hml) (fun _ => hm)
        (effect_screens t hx hm on')
      have hends := hsame p q hp hq m (hl _ hml)
      rw [hpm, hqm] at hends
      exact Option.some.inj hends
    -- if one mode of the alternate screen is switched off, all are
    have hoff : ∀ {m}, m.isScreen = true → (m, false) ∈ l → ∀ s ∈ l, s.1.isScreen = true →
        s.2 = false := fun hm hml s hs hscreen => hscreens _ _ _ _ hs hml hscreen hm
    refine ⟨?_, hscreens, ?_, ?_⟩
    · intro m x hml hxl
      refine Bool.eq_false_iff.mpr fun hexcludes => ?_
      have hplain : m.isScreen = true → x.isScreen = true := fun hm =>
        absurd hm (Bool.eq_false_iff.mp (plain_of_excludes hexcludes).1)
      obtain ⟨p, hp, hpx⟩ := exists_order_last t hl hml (hl _ hxl) hplain
        (effect_excluded t hexcludes)
      obtain ⟨q, hq, hqx⟩ := exists_order_last t hl hxl (hl _ hxl) id (effect_self t x true)
      have hends := hsame p q hp hq x (hl _ hxl)
      rw [hpx, hqx] at hends
      cases hends
    · intro hshown m x v w hml hxl hm hback
      obtain ⟨p, hp, hpx⟩ := exists_order_leaving hl (hoff hm hml) hshown hml hm
        (plain_of_broughtBack hback).1
      obtain ⟨q, hq, hqx⟩ := exists_order_last t hl hxl (hl _ hxl) id (effect_self t x w)
      have hends := hsame p q hp hq x (hl _ hxl)
      rw [hpx, hqx, hback] at hends
      exact Option.some.inj hends
    · intro hshown m m' x hml hml' hm hm' hx hunswitched
      by_cases hback : ∃ m v, t.broughtBack m x = some v
      · obtain ⟨m₀, v, hback⟩ := hback
        obtain ⟨hxs, hplain⟩ := plain_of_broughtBack hback
        obtain ⟨p, hp, hpx⟩ := exists_order_leaving hl (hoff hm hml) hshown hml hm hxs
        obtain ⟨q, hq, hqx⟩ := exists_order_leaving hl (hoff hm hml) hshown hml' hm' hxs
        have hends := hsame p q hp hq x hx
        rw [hpx, hqx, isOn?_switchAll_unswitched hl hx hunswitched hplain] at hends
        exact hends
      · have hnone : ∀ m, t.broughtBack m x = none := fun m =>
          Option.eq_none_iff_forall_ne_some.mpr fun v hv => hback ⟨m, v, hv⟩
        rw [leftBy?, leftBy?, hnone, hnone]

/-! ## What can have been saved -/

/-- A value that is saved adds one number at most. -/
theorem mem_keys_insertSaved {n k : Nat} {value : Bool} {saved : List (Nat × Bool)}
    (hk : k ∈ (Modes.insertSaved n value saved).map Prod.fst) :
    k = n ∨ k ∈ saved.map Prod.fst := by
  induction saved with
  | nil => exact .inl (List.mem_singleton.mp hk)
  | cons entry rest ih =>
      rw [Modes.insertSaved] at hk
      split at hk
      · exact List.mem_cons.mp hk
      · split at hk
        · exact (List.mem_cons.mp hk).imp_right (List.mem_cons_of_mem _)
        · rcases List.mem_cons.mp hk with rfl | hk
          · exact .inr List.mem_cons_self
          · exact (ih hk).imp_right (List.mem_cons_of_mem _)

/-- The numbers of the saved values. -/
def savedNumbers (t : Terminal) : List Nat := t.modes.saved.map Prod.fst

/-- Only modes that are on or off have been saved. -/
def SavesValues (t : Terminal) : Prop :=
  ∀ n ∈ t.savedNumbers, ∃ m, ofNumber? n = some m ∧ m.hasValue = true

/-- A number with a value is that of a mode that has one. -/
theorem hasValue_of_privateMode? {n : Nat} {value : Bool} (h : t.privateMode? n = some value) :
    ∃ m, ofNumber? n = some m ∧ m.hasValue = true := by
  obtain ⟨m, hm, hvalue⟩ := Option.bind_eq_some_iff.mp h
  refine ⟨m, hm, hasValue_of_number hm ?_⟩
  rintro rfl
  cases hvalue

/-- Saving a mode saves its value. -/
theorem SavesValues.savePrivateMode (h : t.SavesValues) (n : Nat) :
    (t.savePrivateMode n).SavesValues := by
  rw [Terminal.savePrivateMode]
  split
  · rename_i value hvalue
    intro k hk
    rcases mem_keys_insertSaved hk with rfl | hk
    · exact hasValue_of_privateMode? hvalue
    · exact h k hk
  · exact h

/-- What leaves the saved values alone leaves them values of modes. -/
theorem SavesValues.of_saved (h : t.SavesValues) (hu : u.modes.saved = t.modes.saved) :
    u.SavesValues := by
  intro n hn
  rw [savedNumbers, hu] at hn
  exact h n hn

/-- So does every message. -/
theorem SavesValues.apply (h : t.SavesValues) (m : Message) : (t.apply m).1.SavesValues := by
  cases hreset : m.isFullReset with
  | true =>
      rw [apply_fullReset hreset]
      exact fun n hn => absurd hn List.not_mem_nil
  | false =>
      cases hsaves : m.saves? with
      | none => exact h.of_saved (saved_apply t hsaves hreset)
      | some modes =>
          rw [apply_saves hsaves, savePrivateModes]
          exact List.foldlRecOn (motive := SavesValues) _ _ h fun u hu n _ => hu.savePrivateMode n

/-- In every emulator that can be reached, what is saved are values of modes. -/
theorem keeps_savesValues : Emulator.Keeps SavesValues where
  apply m h := h.apply m
  resize _ h := h
  view _ h := h.of_saved ((blind_saved _).onScreen rfl)

/-- A number that is saved has a value. -/
theorem exists_saved? {n : Nat} (hn : n ∈ t.savedNumbers) :
    ∃ value, t.modes.saved? n = some value := by
  rw [savedNumbers] at hn
  rw [Modes.saved?]
  generalize t.modes.saved = saved at hn
  induction saved with
  | nil => cases hn
  | cons entry rest ih =>
      rw [Modes.lookup_cons_ite]
      split
      · exact ⟨_, rfl⟩
      · rename_i hne
        exact ih ((List.mem_cons.mp hn).resolve_left hne)

/-! ## Orders of numbers and of switches -/

/-- The switches by which everything that was saved comes back. -/
def allSavedSwitches (t : Terminal) : List (PrivateMode × Bool) :=
  savedSwitches t.modes t.savedNumbers

/-- The numbers of the modes that are switched. -/
def switchNumbers (p : List (PrivateMode × Bool)) : List Nat := p.filterMap (·.1.number?)

/-- The numbers of switches begin with that of the first. -/
theorem switchNumbers_cons {n : Nat} (hm : ofNumber? n = some m) (on : Bool)
    (p : List (PrivateMode × Bool)) : switchNumbers ((m, on) :: p) = n :: switchNumbers p :=
  List.filterMap_cons_some (f := fun s : PrivateMode × Bool => s.1.number?)
    (ofNumber?_eq_some_iff.mp hm)

/-- The switches of numbers begin with that of the first. -/
theorem savedSwitches_cons {ms : Modes} {n : Nat} (hm : ofNumber? n = some m)
    (hon : ms.saved? n = some on) (numbers : List Nat) :
    savedSwitches ms (n :: numbers) = (m, on) :: savedSwitches ms numbers :=
  List.filterMap_cons_some (by rw [hm, hon]; rfl)

/-- The switches of numbers have these numbers. -/
theorem numbers_savedSwitches {ms : Modes} {numbers : List Nat}
    (h : ∀ n ∈ numbers, ∃ m on, ofNumber? n = some m ∧ ms.saved? n = some on) :
    switchNumbers (savedSwitches ms numbers) = numbers := by
  induction numbers with
  | nil => rfl
  | cons n numbers ih =>
      obtain ⟨m, on, hm, hon⟩ := h n List.mem_cons_self
      rw [savedSwitches_cons hm hon, switchNumbers_cons hm,
        ih fun k hk => h k (List.mem_cons_of_mem _ hk)]

/-- The numbers of switches have these switches. -/
theorem savedSwitches_numbers {ms : Modes} {numbers : List Nat}
    (h : ∀ s ∈ p, s ∈ savedSwitches ms numbers) : savedSwitches ms (switchNumbers p) = p := by
  induction p with
  | nil => rfl
  | cons s p ih =>
      obtain ⟨m, on⟩ := s
      obtain ⟨n, -, hm, hon⟩ := mem_savedSwitches.mp (h _ List.mem_cons_self)
      rw [switchNumbers_cons hm, savedSwitches_cons hm hon,
        ih fun s hs => h s (List.mem_cons_of_mem _ hs)]

/-- One mode is not saved with two values. -/
theorem one_savedSwitch {ms : Modes} {numbers : List Nat} {v w : Bool}
    (hv : (x, v) ∈ savedSwitches ms numbers) (hw : (x, w) ∈ savedSwitches ms numbers) : v = w := by
  obtain ⟨n, -, hn, hv⟩ := mem_savedSwitches.mp hv
  obtain ⟨k, -, hk, hw⟩ := mem_savedSwitches.mp hw
  obtain rfl : n = k := Option.some.inj
    ((ofNumber?_eq_some_iff.mp hn).symm.trans (ofNumber?_eq_some_iff.mp hk))
  exact Option.some.inj (hv.symm.trans hw)

/-- Restoring everything in some order. -/
theorem restorePrivateModes_all {p : List Nat} (hp : p.Perm t.savedNumbers) :
    t.restorePrivateModes p = t.switchAll (savedSwitches t.modes p) := by
  rw [restorePrivateModes, ← foldl_restorePrivateMode]
  split
  · rename_i hnil
    subst hnil
    rw [← savedNumbers, hp.symm.eq_nil]
  · rfl

/-- Values by number are values by mode. -/
theorem privateMode?_eq_iff (t u : Terminal) :
    (∀ n, t.privateMode? n = u.privateMode? n)
      ↔ ∀ x : PrivateMode, x.hasValue = true → t.isOn? x = u.isOn? x := by
  constructor
  · intro h x hx
    obtain ⟨n, hn⟩ := number_of_hasValue hx
    have hn' := h n
    have hm := ofNumber?_eq_some_iff.mpr hn
    rwa [privateMode?_of_number hm, privateMode?_of_number hm] at hn'
  · intro h n
    rw [privateMode?, privateMode?]
    cases hm : ofNumber? n with
    | none => rfl
    | some m =>
        by_cases hcursor : m = .savedCursor
        · subst hcursor
          rfl
        · exact h m (hasValue_of_number hm hcursor)

/-- Every switch that is saved is of a mode with a value. -/
theorem SavesValues.hasValue (h : t.SavesValues) {s : PrivateMode × Bool}
    (hs : s ∈ t.allSavedSwitches) : s.1.hasValue = true := by
  obtain ⟨n, hn, hm, -⟩ := mem_savedSwitches.mp hs
  obtain ⟨m, hm', hvalue⟩ := h n hn
  rw [Option.some.inj (hm.symm.trans hm')]
  exact hvalue

/-- All saved switches have all saved numbers. -/
theorem SavesValues.switchNumbers_all (h : t.SavesValues) :
    switchNumbers t.allSavedSwitches = t.savedNumbers := by
  refine numbers_savedSwitches fun n hn => ?_
  obtain ⟨m, hm, -⟩ := h n hn
  obtain ⟨value, hvalue⟩ := exists_saved? hn
  exact ⟨m, value, hm, hvalue⟩

/-- Orders of the saved numbers are orders of the switches that they stand for. -/
theorem SavesValues.orders_iff (h : t.SavesValues) :
    (∀ p q, p.Perm t.savedNumbers → q.Perm t.savedNumbers → ∀ n,
        (t.restorePrivateModes p).privateMode? n = (t.restorePrivateModes q).privateMode? n)
      ↔ ∀ p q, p.Perm t.allSavedSwitches → q.Perm t.allSavedSwitches →
        ∀ x : PrivateMode, x.hasValue = true →
          (t.switchAll p).isOn? x = (t.switchAll q).isOn? x := by
  constructor
  · intro hsame p q hp hq x hx
    have hp' : (switchNumbers p).Perm t.savedNumbers := h.switchNumbers_all ▸ hp.filterMap _
    have hq' : (switchNumbers q).Perm t.savedNumbers := h.switchNumbers_all ▸ hq.filterMap _
    have hends := (privateMode?_eq_iff _ _).mp (hsame _ _ hp' hq') x hx
    rwa [restorePrivateModes_all hp', restorePrivateModes_all hq',
      savedSwitches_numbers fun s hs => hp.mem_iff.mp hs,
      savedSwitches_numbers fun s hs => hq.mem_iff.mp hs] at hends
  · intro hsame p q hp hq
    refine (privateMode?_eq_iff _ _).mpr ?_
    rw [restorePrivateModes_all hp, restorePrivateModes_all hq]
    exact hsame _ _ (hp.filterMap _) (hq.filterMap _)

end Terminal

namespace Emulator

open Terminal

/-- Only modes that are on or off are ever saved. -/
theorem Reachable.savesValues {e : Emulator} (he : e.Reachable) : e.terminal.SavesValues := by
  refine he.terminal keeps_savesValues ?_
  intro size _ limit sgr21 n hn
  exact absurd hn List.not_mem_nil

/-- **When the order of restoring does not matter.**  What was saved ends in the same values in all
    orders exactly if the saved values are compatible, and then each mode that was saved ends with
    its saved value. -/
theorem restorePrivateModes_order {e : Emulator} (he : e.Reachable) :
    let t := e.terminal
    (t.Compatible t.allSavedSwitches ↔
      ∀ p q, p.Perm t.savedNumbers → q.Perm t.savedNumbers → ∀ n,
        (t.restorePrivateModes p).privateMode? n = (t.restorePrivateModes q).privateMode? n) ∧
    (t.Compatible t.allSavedSwitches → ∀ p, p.Perm t.savedNumbers → ∀ n ∈ t.savedNumbers,
      (t.restorePrivateModes p).privateMode? n = t.modes.saved? n) := by
  intro t
  have hvalues : t.SavesValues := he.savesValues
  have hl : ∀ s ∈ t.allSavedSwitches, s.1.hasValue = true := fun s hs => hvalues.hasValue hs
  have hone : ∀ x v w, (x, v) ∈ t.allSavedSwitches → (x, w) ∈ t.allSavedSwitches → v = w :=
    fun x v w hv hw => one_savedSwitch hv hw
  refine ⟨(compatible_iff t hl hone).trans hvalues.orders_iff.symm, ?_⟩
  intro h p hp n hn
  obtain ⟨m, hm, hvalue⟩ := hvalues n hn
  obtain ⟨value, hsaved⟩ := exists_saved? hn
  have hmem : (m, value) ∈ t.allSavedSwitches := mem_savedSwitches.mpr ⟨n, hn, hm, hsaved⟩
  rw [restorePrivateModes_all hp, privateMode?_of_number hm, hsaved]
  exact h.decided hl hone (hp.filterMap _) hvalue hmem id (effect_self t m value)

/-- The alternate screen is left on the way, and of two kinds of mouse tracking one was on. -/
theorem restorePrivateModes_order_leaving :
    let e := write { terminal := .new 4 2 0 .cancelBold }
      (Utf8.ofString "\x1b[?1002h\x1b[?47;1000;1002s\x1b[?47;1000h")
    e.Reachable ∧ e.terminal.savedNumbers = [47, 1000, 1002] ∧
      (e.terminal.privateMode? 47 = some true ∧ e.terminal.privateMode? 1002 = some false) ∧
      ∀ p, p.Perm [47, 1000, 1002] →
        (e.terminal.restorePrivateModes p).privateMode? 47 = some false ∧
        (e.terminal.restorePrivateModes p).privateMode? 1002 = some true := by
  intro e
  have he : e.Reachable :=
    ⟨⟨4, 2⟩, 0, .cancelBold, _, [.write _], create_of_valid (by decide) _ _, rfl⟩
  have hnumbers : e.terminal.savedNumbers = [47, 1000, 1002] := by decide +kernel
  have hswitches : e.terminal.allSavedSwitches
      = [(.alternateScreen, false), (.mouseTracking .normal, false),
        (.mouseTracking .buttonEvent, true)] := by
    decide +kernel
  have hcompatible : e.terminal.Compatible e.terminal.allSavedSwitches := by
    rw [hswitches]
    exact compatible_of_one_screen (s := (.alternateScreen, false)) (by decide) (by decide)
      (by decide)
  obtain ⟨-, hsaved⟩ := restorePrivateModes_order he
  refine ⟨he, hnumbers, by decide +kernel, fun p hp => ?_⟩
  rw [← hnumbers] at hp
  refine ⟨(hsaved hcompatible p hp 47 ?_).trans ?_, (hsaved hcompatible p hp 1002 ?_).trans ?_⟩ <;>
    decide +kernel

/-- Two kinds of mouse tracking that were saved while they were on: the last one to be restored
    switches the other one off. -/
theorem restorePrivateModes_order_tracking :
    let e := write { terminal := .new 4 2 0 .cancelBold }
      (Utf8.ofString "\x1b[?1000h\x1b[?1000s\x1b[?1002h\x1b[?1002s")
    e.Reachable ∧ e.terminal.savedNumbers = [1000, 1002] ∧
      [1002, 1000].Perm e.terminal.savedNumbers ∧
      (e.terminal.restorePrivateModes [1000, 1002]).privateMode? 1000 = some false ∧
      (e.terminal.restorePrivateModes [1002, 1000]).privateMode? 1000 = some true := by
  refine ⟨⟨⟨4, 2⟩, 0, .cancelBold, _, [.write _], create_of_valid (by decide) _ _, rfl⟩, ?_⟩
  decide +kernel

end Emulator

end VideoTerminal
