import VideoTerminal.Proofs.Cursors
import VideoTerminal.Proofs.Reachable

/-!
# Pens

The rendition of the characters printed next is a selection made by a program, or one that was
saved before, or the plain one.  A selection gives the underline a color of the palette or one by
its components, but no named color, for which there is no parameter.  So the pens that can be
reached, in use or saved, are without one.
-/

namespace VideoTerminal

/-! ## Selections -/

namespace Rendition

/-- The underline has no named color. -/
def HasPlainLine (r : Rendition) : Prop := ∀ n, r.underlineColor ≠ some (.named n)

theorem hasPlainLine_default : HasPlainLine {} := nofun

/-- A parameter without further slots gives the underline no color. -/
theorem applyCode_underlineColor (policy : Sgr21) (code : Nat) (r : Rendition) :
    (applyCode policy code r).underlineColor = none ∨
      (applyCode policy code r).underlineColor = r.underlineColor := by
  rw [applyCode.eq_def]
  split
  all_goals try first | exact .inr rfl | exact .inl rfl
  -- the parameter of two meanings, and the colors of the other targets
  all_goals
    repeat' split
    all_goals exact .inr rfl

theorem rgb?_ne_named (red green blue : Option Nat) (n : Fin 16) :
    rgb? red green blue ≠ some (.named n) := by
  intro h
  simp only [rgb?, Option.bind_eq_bind, Option.bind_eq_some_iff] at h
  obtain ⟨_, _, _, _, _, _, h⟩ := h
  exact Color.noConfusion (Option.some.inj h)

theorem map_indexed_ne_named (v : Option UInt8) (n : Fin 16) :
    v.map Color.indexed ≠ some (.named n) := by
  cases v <;> simp

theorem colonColor?_ne_named (args : List (Option Nat)) (n : Fin 16) :
    colonColor? args ≠ some (.named n) := by
  rw [colonColor?.eq_def]
  split
  · exact map_indexed_ne_named _ n
  · exact rgb?_ne_named _ _ _ n
  · exact rgb?_ne_named _ _ _ n
  · exact nofun

theorem semicolonColor_ne_named (rest : List (List (Option Nat))) (n : Fin 16) :
    (semicolonColor rest).1 ≠ some (.named n) := by
  rw [semicolonColor]
  split
  · intro h
    obtain ⟨group, _, h⟩ := Option.bind_eq_some_iff.mp h
    exact map_indexed_ne_named _ n h
  · intro h
    simp only [Option.bind_eq_bind, Option.bind_eq_some_iff] at h
    obtain ⟨_, _, _, _, _, _, h⟩ := h
    exact rgb?_ne_named _ _ _ n h
  · exact nofun

namespace HasPlainLine

variable {r : Rendition}

theorem setColor? (h : r.HasPlainLine) {c : Option Color} (hc : ∀ n, c ≠ some (.named n))
    (t : ColorTarget) : (r.setColor? c t).HasPlainLine := by
  cases c with
  | none => exact h
  | some c =>
      cases t with
      | underline => exact hc
      | _ => exact h

theorem applyCode (h : r.HasPlainLine) (policy : Sgr21) (code : Nat) :
    (Rendition.applyCode policy code r).HasPlainLine := by
  intro n
  rcases applyCode_underlineColor policy code r with hcolor | hcolor
  · rw [hcolor]
    exact nofun
  · rw [hcolor]
    exact h n

theorem applyColon (h : r.HasPlainLine) (policy : Sgr21) (code : Nat) (args : List (Option Nat)) :
    (Rendition.applyColon policy code args r).HasPlainLine := by
  rw [Rendition.applyColon]
  split
  · exact h.setColor? (colonColor?_ne_named args) _
  · split
    · exact h
    · exact h.applyCode policy code

theorem applyGroups (h : r.HasPlainLine) (policy : Sgr21) (skip : Nat)
    (groups : List (List (Option Nat))) :
    (Rendition.applyGroups policy skip groups r).HasPlainLine := by
  induction groups generalizing skip r with
  | nil =>
      rw [Rendition.applyGroups.eq_1]
      exact h
  | cons group rest ih =>
      cases skip with
      | succ skip => exact ih h skip
      | zero =>
          rw [Rendition.applyGroups]
          dsimp only
          split
          · exact ih (h.applyColon policy _ _) 0
          · split
            · exact ih (h.setColor? (semicolonColor_ne_named rest) _) _
            · exact ih (h.applyCode policy _) 0

theorem select (h : r.HasPlainLine) (policy : Sgr21) (params : Params) :
    (Rendition.select policy params r).HasPlainLine := by
  rw [Rendition.select]
  split
  · exact hasPlainLine_default
  · exact h.applyGroups policy 0 _

end HasPlainLine

end Rendition

/-! ## Terminals -/

namespace Cursors

/-- No pen, in use or saved, has a named color for the underline. -/
structure PlainLines (x : Cursors) : Prop where
  pen : x.pen.HasPlainLine
  savedPrimary : ∀ s ∈ x.savedPrimary, s.pen.HasPlainLine
  savedAlternate : ∀ s ∈ x.savedAlternate, s.pen.HasPlainLine

variable {x : Cursors}

theorem Snapshot.hasPlainLine {s : SavedCursor} (hs : x.Snapshot s) (h : x.pen.HasPlainLine) :
    ∀ s' ∈ some s, s'.pen.HasPlainLine := by
  intro s' hs'
  obtain rfl := Option.some.inj hs'
  exact hs.pen ▸ h

theorem plainLines_renewed (cols : Nat) : PlainLines { cols } where
  pen := Rendition.hasPlainLine_default
  savedPrimary _ hs := absurd hs (Option.not_mem_none _)
  savedAlternate _ hs := absurd hs (Option.not_mem_none _)

/-- No step brings a named color. -/
theorem kept_plainLines : Kept PlainLines := by
  intro x y hstep h
  cases hstep with
  | select policy params => exact { h with pen := h.pen.select policy params }
  | plain => exact { h with pen := Rendition.hasPlainLine_default }
  | savePrimary hs => exact { h with savedPrimary := hs.hasPlainLine h.pen }
  | saveAlternate hs => exact { h with savedAlternate := hs.hasPlainLine h.pen }
  | restore hs _ => exact { h with pen := hs.elim (h.savedPrimary _) (h.savedAlternate _) }
  | forget => exact { plainLines_renewed x.cols with pen := h.pen }
  | renew => exact plainLines_renewed x.cols
  | _ => exact { h with }

end Cursors

/-- The pens that can be reached have no named color for the underline. -/
theorem Emulator.Reachable.plainLines {e : Emulator} (h : e.Reachable) :
    e.terminal.cursors.PlainLines :=
  h.terminal (I := fun t => t.cursors.PlainLines)
    { apply := fun m ht => Terminal.apply_kept Cursors.kept_plainLines ht m
      resize := fun _ ht => ⟨ht.pen, ht.savedPrimary, ht.savedAlternate⟩
      view := fun _ ht => (Terminal.cursors_onScreen _ _).symm ▸ ht }
    fun _ _ _ => Cursors.plainLines_renewed _

end VideoTerminal
