import VideoTerminal.Proofs.RenditionText

/-!
# The forms of an extended color

A color beyond the named ones is asked for between colons, in the slots of one group, or between
semicolons, in groups of its own.  Between colons a slot for a color space may stand in front of the
components.  The two forms are read apart: one by the number of slots in a group, the other by the
groups behind the introducer, and it has to say how many of these it takes up.

They come to the same.  In the sense of `Selects` each form is a block that sets the color and
leaves nothing behind, whatever groups follow; so no component of it is ever taken for a number that
has an effect of its own.  That holds of a color that cannot be had, too: it takes up its groups and
sets nothing.
-/

namespace VideoTerminal

/-- The number that introduces a color for a target. -/
def ColorTarget.introducer : ColorTarget → Nat
  | .foreground => 38
  | .background => 48
  | .underline => 58

theorem ColorTarget.ofCode?_introducer (t : ColorTarget) : ofCode? t.introducer = some t := by
  cases t <;> rfl

namespace Rendition

variable {policy : Sgr21} {s s' : Rendition}

/-! ## The colors that can be had -/

/-- The color of three components, none of which is too large. -/
def rgbOf? (red green blue : Nat) : Option Color :=
  if red ≤ 255 ∧ green ≤ 255 ∧ blue ≤ 255 then
    some (.rgb ⟨.ofNat red, .ofNat green, .ofNat blue⟩)
  else none

/-- The entry of the palette, if the number is not too large. -/
def indexedOf? (n : Nat) : Option Color := if n ≤ 255 then some (.indexed (.ofNat n)) else none

theorem component?_some (n : Nat) :
    component? (some n) = if n ≤ 255 then some (UInt8.ofNat n) else none := rfl

theorem rgb?_some (red green blue : Nat) :
    rgb? (some red) (some green) (some blue) = rgbOf? red green blue := by
  rw [rgb?, rgbOf?]
  by_cases hred : red ≤ 255
  · by_cases hgreen : green ≤ 255
    · by_cases hblue : blue ≤ 255 <;> simp [component?_some, hred, hgreen, hblue]
    · simp [component?_some, hred, hgreen]
  · simp [component?_some, hred]

theorem map_component?_some (n : Nat) :
    (component? (some n)).map Color.indexed = indexedOf? n := by
  rw [component?_some, indexedOf?]
  split <;> rfl

/-! ## Blocks -/

/-- Between semicolons a color takes up the groups behind its introducer, and no others. -/
theorem selects_groups (t : ColorTarget) {args : List (List (Option Nat))} {c : Option Color}
    (hargs : ∀ rest, semicolonColor (args ++ rest) = (c, args.length)) :
    Selects policy [[some t.introducer] :: args] s (s.setColor? c t) := by
  intro rest
  have hcode : (Params.leading [some t.introducer]).getD 0 = t.introducer := rfl
  rw [List.flatten_singleton, List.cons_append, applyGroups]
  dsimp only
  rw [if_neg (by simp), hcode, t.ofCode?_introducer]
  dsimp only
  rw [hargs rest, applyGroups_drop, List.drop_left]

/-- Between colons it takes up its own group. -/
theorem selects_slots (t : ColorTarget) {slots : List (Option Nat)} (hslots : slots ≠ []) :
    Selects policy [[some t.introducer :: slots]] s (s.setColor? (colonColor? slots) t) := by
  intro rest
  have hcode : (Params.leading (some t.introducer :: slots)).getD 0 = t.introducer := rfl
  have hlong : 1 < (some t.introducer :: slots).length := by
    have hpos := List.length_pos_iff.mpr hslots
    rw [List.length_cons]
    omega
  rw [List.flatten_singleton, List.singleton_append, applyGroups]
  dsimp only
  rw [if_pos hlong, hcode, applyColon, t.ofCode?_introducer]
  rfl

/-- The effect of groups that stand behind others, where none are no reset. -/
def selectBehind (policy : Sgr21) (groups : List (List (Option Nat))) (r : Rendition) : Rendition :=
  if groups = [] then r else select policy ⟨groups⟩ r

theorem selectBehind_eq (groups : List (List (Option Nat))) (r : Rendition) :
    selectBehind policy groups r = applyGroups policy 0 groups r := by
  rw [selectBehind, select]
  by_cases hnone : groups = []
  · rw [if_pos hnone, hnone, applyGroups]
  · rw [if_neg hnone, if_neg hnone]

/-- What stands behind a block acts on what the block has left. -/
theorem Selects.select {block : List (List (Option Nat))} (h : Selects policy [block] s s')
    (hblock : block ≠ []) (rest : List (List (Option Nat))) :
    Rendition.select policy ⟨block ++ rest⟩ s = selectBehind policy rest s' := by
  have hsome : block ++ rest ≠ [] := List.append_ne_nil_of_left_ne_nil hblock rest
  rw [Rendition.select, if_neg hsome, selectBehind_eq, ← h rest, List.flatten_singleton]

/-- **Colons and semicolons select the same colors.**  A color is set if all its numbers are at most
    255; with a larger one nothing is set.  In both cases the groups that follow act as if they
    stood alone: on the rendition with the color, or on the one there was. -/
theorem select_color_forms (policy : Sgr21) (prior : Rendition) (t : ColorTarget)
    (red green blue n : Nat) (rest : List (List (Option Nat))) :
    let selected color := select policy ⟨color ++ rest⟩ prior
    let following r := if rest = [] then r else select policy ⟨rest⟩ r
    let s := some t.introducer
    let groups := selected [[s], [some 2], [some red], [some green], [some blue]]
    let entry := selected [[s], [some 5], [some n]]
    selected [[s, some 2, none, some red, some green, some blue]] = groups ∧
    selected [[s, some 2, some red, some green, some blue]] = groups ∧
    selected [[s, some 5, some n]] = entry ∧
    groups = following (if red ≤ 255 ∧ green ≤ 255 ∧ blue ≤ 255 then
      prior.setColor (.rgb ⟨.ofNat red, .ofNat green, .ofNat blue⟩) t else prior) ∧
    entry = following (if n ≤ 255 then prior.setColor (.indexed (.ofNat n)) t else prior) := by
  intro selected following s groups entry
  -- each form leads to the same rendition
  have hgroups : groups = following (prior.setColor? (rgbOf? red green blue) t) := by
    refine Selects.select (selects_groups t fun rest => ?_) (List.cons_ne_nil _ _) rest
    rw [← rgb?_some]
    rfl
  have hentry : entry = following (prior.setColor? (indexedOf? n) t) := by
    refine Selects.select (selects_groups t fun rest => ?_) (List.cons_ne_nil _ _) rest
    rw [← map_component?_some]
    rfl
  have hslots : ∀ {slots : List (Option Nat)}, slots ≠ [] →
      selected [some t.introducer :: slots] = following (prior.setColor? (colonColor? slots) t) :=
    fun hsome => (selects_slots t hsome).select (List.cons_ne_nil _ _) rest
  refine ⟨?_, ?_, ?_, ?_, ?_⟩
  · rw [hgroups, ← rgb?_some]
    exact hslots (List.cons_ne_nil _ _)
  · rw [hgroups, ← rgb?_some]
    exact hslots (List.cons_ne_nil _ _)
  · rw [hentry, ← map_component?_some]
    exact hslots (List.cons_ne_nil _ _)
  · rw [hgroups, rgbOf?]
    split <;> rfl
  · rw [hentry, indexedOf?]
    split <;> rfl

/-- A component that is too large is not taken for a number of its own: here it would be the bold
    face, and behind the color the slant is still selected. -/
example : select .cancelBold ⟨[[some 38], [some 2], [some 256], [some 1], [some 1], [some 3]]⟩ {}
    = { italic := true } := by decide

end Rendition

end VideoTerminal
