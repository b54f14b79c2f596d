import Mathlib.Tactic.IntervalCases
import VideoTerminal.Proofs.Checked
import VideoTerminal.Rendition.Select

/-!
# Selecting a rendition with checks

A parameter list is gone through by an index, which is moved on behind the groups that a color has
taken up.  The groups behind the index, and the slots of a group, are slices; a named color is a
difference of words.  With no more groups than are kept there is no fault, and the rendition is the
one that is selected without checks.
-/

namespace VideoTerminal.Rendition

open Checked

/-- The named color that a number's last four bits name. -/
def namedColor (n : Nat) : Color :=
  .named ⟨n % 16, Nat.mod_lt n (by decide)⟩

/-- The effect of one parameter without further slots. -/
def checkedCode (policy : Sgr21) (code : Nat) (r : Rendition) : Checked Rendition := do
  if 30 ≤ code ∧ code ≤ 37 then
    return { r with foreground := some (namedColor (← sub code 30)) }
  else if 40 ≤ code ∧ code ≤ 47 then
    return { r with background := some (namedColor (← sub code 40)) }
  else if 90 ≤ code ∧ code ≤ 97 then
    return { r with foreground := some (namedColor (← add 16 (← sub code 90) 8)) }
  else if 100 ≤ code ∧ code ≤ 107 then
    return { r with background := some (namedColor (← add 16 (← sub code 100) 8)) }
  else return applyCode policy code r

/-- The slots of a color's components, of which there are four at least: behind a color space, if
there is room for one. -/
def checkedComponents (args : List (Option Nat)) : Checked (List (Option Nat)) :=
  if 5 ≤ args.length then slice args 2 5 else slice args 1 4

/-- The color of three components. -/
def checkedRgb (rgb : List (Option Nat)) : Checked (Option Color) := do
  let some red := component? (← found rgb[0]?) | return none
  let some green := component? (← found rgb[1]?) | return none
  let some blue := component? (← found rgb[2]?) | return none
  return some (.rgb ⟨red, green, blue⟩)

/-- The color in the slots behind the first of a group. -/
def checkedColon (args : List (Option Nat)) : Checked (Option Color) :=
  match args.head?.join with
  | some 5 => return (component? args[1]?.join).map .indexed
  | some 2 => do
      if args.length < 4 then return none
      else checkedRgb (← checkedComponents args)
  | _ => return none

/-- The effect of a group with more than one slot. -/
def checkedSlots (policy : Sgr21) (code : Nat) (group : List (Option Nat)) (r : Rendition) :
    Checked Rendition :=
  match ColorTarget.ofCode? code with
  | some t => do return r.setColor? (← checkedColon (← slice group 1 group.length)) t
  | none => do
      if code = 4 then return { r with underline := underlineOf (← found group[1]?) }
      else checkedCode policy code r

/-- The color in the groups that follow, and how many of them it takes up, which is no more than
there are. -/
def colorAndUse (rest : List (List (Option Nat))) : Option Color × Nat :=
  match (rest.head?.bind Params.leading : Option Nat) with
  | some 5 => if rest.length < 2 then (none, rest.length) else semicolonColor rest
  | some 2 => if rest.length < 4 then (none, rest.length) else semicolonColor rest
  | some _ => (none, 1)
  | none => (none, min rest.length 1)

/-- The effect of groups from an index on. -/
def checkedGroups (policy : Sgr21) (groups : List (List (Option Nat))) (i : Nat) (r : Rendition) :
    Checked Rendition :=
  if _h : i < groups.length then do
    let group ← found groups[i]?
    let code := (Params.leading group).getD 0
    let _ ← add 64 i 1
    if 1 < group.length then
      let r ← checkedSlots policy code group r
      checkedGroups policy groups (i + 1) r
    else
      match ColorTarget.ofCode? code with
      | some t =>
          let (color, used) := colorAndUse (← slice groups (i + 1) groups.length)
          let _ ← add 64 (i + 1) used
          checkedGroups policy groups (i + 1 + used) (r.setColor? color t)
      | none =>
          let r ← checkedCode policy code r
          checkedGroups policy groups (i + 1) r
  else return r
termination_by groups.length - i

/-- The effect of a parameter list; an empty one resets everything. -/
def checkedSelect (policy : Sgr21) (params : Params) (r : Rendition) : Checked Rendition :=
  if params.groups = [] then pure {} else checkedGroups policy params.groups 0 r

/-! ## Without faults -/

theorem checkedCode_eq (policy : Sgr21) (code : Nat) (r : Rendition) :
    checkedCode policy code r = pure (applyCode policy code r) := by
  rw [checkedCode]
  split
  · rename_i hcode
    obtain ⟨hlo, hhi⟩ := hcode
    interval_cases code <;> rfl
  split
  · rename_i hcode
    obtain ⟨hlo, hhi⟩ := hcode
    interval_cases code <;> rfl
  split
  · rename_i hcode
    obtain ⟨hlo, hhi⟩ := hcode
    interval_cases code <;> rfl
  split
  · rename_i hcode
    obtain ⟨hlo, hhi⟩ := hcode
    interval_cases code <;> rfl
  · rfl

theorem checkedRgb_eq (red green blue : Option Nat) :
    checkedRgb [red, green, blue] = pure (rgb? red green blue) := by
  rw [checkedRgb, rgb?]
  simp only [List.getElem?_cons_zero, List.getElem?_cons_succ, found, pure_bind]
  cases component? red with
  | none => rfl
  | some _ =>
      cases component? green with
      | none => rfl
      | some _ => cases component? blue <;> rfl

theorem checkedColon_eq (args : List (Option Nat)) :
    checkedColon args = pure (colonColor? args) := by
  match args with
  | [] => rfl
  | none :: _ => rfl
  | some n :: args =>
      by_cases hindexed : n = 5
      · subst hindexed
        show pure ((component? (some 5 :: args)[1]?.join).map Color.indexed) = _
        rw [List.getElem?_cons_succ, ← List.head?_eq_getElem?]
        rfl
      by_cases hrgb : n = 2
      · subst hrgb
        match args with
        | [] => rfl
        | [_] => rfl
        | [_, _] => rfl
        | [red, green, blue] => exact checkedRgb_eq red green blue
        | space :: red :: green :: blue :: rest =>
            have hroom : 5 ≤ (some 2 :: space :: red :: green :: blue :: rest).length := by simp
            have hslots : checkedComponents (some 2 :: space :: red :: green :: blue :: rest)
                = pure [red, green, blue] := by
              rw [checkedComponents, if_pos hroom, slice_eq ⟨by decide, hroom⟩]
              rfl
            show (if (some 2 :: space :: red :: green :: blue :: rest).length < 4 then pure none
              else checkedComponents (some 2 :: space :: red :: green :: blue :: rest)
                >>= checkedRgb) = _
            rw [if_neg (by omega), hslots, pure_bind, checkedRgb_eq]
            rfl
      · unfold checkedColon colonColor?
        simp [hindexed, hrgb]

theorem checkedSlots_eq (policy : Sgr21) (code : Nat) {group : List (Option Nat)}
    (hslots : 1 < group.length) (r : Rendition) :
    checkedSlots policy code group r = pure (applyColon policy code group.tail r) := by
  obtain ⟨first, slot, rest, rfl⟩ : ∃ first slot rest, group = first :: slot :: rest := by
    match group, hslots with
    | first :: slot :: rest, _ => exact ⟨first, slot, rest, rfl⟩
  rw [checkedSlots, applyColon]
  cases ColorTarget.ofCode? code with
  | some t =>
      have hargs : slice (first :: slot :: rest) 1 (first :: slot :: rest).length
          = pure (slot :: rest) := by
        rw [slice_eq ⟨by simp, Nat.le_refl _⟩]
        simp
      dsimp only
      rw [hargs, pure_bind, checkedColon_eq, pure_bind]
      rfl
  | none =>
      dsimp only
      split
      · rfl
      · exact checkedCode_eq policy code r

/-- The groups that are not there are not taken up. -/
theorem colorAndUse_spec (rest : List (List (Option Nat))) :
    (colorAndUse rest).1 = (semicolonColor rest).1 ∧
      rest.drop (colorAndUse rest).2 = rest.drop (semicolonColor rest).2 ∧
      (colorAndUse rest).2 ≤ 4 := by
  match rest with
  | [] => exact ⟨rfl, rfl, Nat.zero_le 4⟩
  | group :: rest =>
      cases hlead : Params.leading group with
      | none => simp [colorAndUse, semicolonColor, hlead]
      | some n =>
          by_cases hindexed : n = 5
          · subst hindexed
            match rest with
            | [] => simp [colorAndUse, semicolonColor, hlead]
            | _ :: more =>
                have hlong : ¬more.length + 1 + 1 < 2 := by omega
                simp [colorAndUse, semicolonColor, hlead, hlong]
          by_cases hrgb : n = 2
          · subst hrgb
            match rest with
            | [] => simp [colorAndUse, semicolonColor, hlead]
            | [_] => simp [colorAndUse, semicolonColor, hlead]
            | [_, _] => simp [colorAndUse, semicolonColor, hlead]
            | _ :: _ :: _ :: more =>
                have hlong : ¬more.length + 1 + 1 + 1 + 1 < 4 := by omega
                simp [colorAndUse, semicolonColor, hlead, hlong]
          · simp [colorAndUse, semicolonColor, hlead, hindexed, hrgb]

theorem checkedGroups_eq (policy : Sgr21) {groups : List (List (Option Nat))}
    (hlength : groups.length ≤ Params.maxGroups) (i : Nat) (r : Rendition) :
    checkedGroups policy groups i r = pure (applyGroups policy 0 (groups.drop i) r) := by
  rw [Params.maxGroups] at hlength
  -- the index moves on with every group
  induction hleft : groups.length - i using Nat.strongRecOn generalizing i r with
  | ind left ih =>
      rw [checkedGroups]
      by_cases hi : i < groups.length
      · have hnext := fun used r =>
          ih (groups.length - (i + 1 + used)) (by omega) (i + 1 + used) r rfl
        rw [dif_pos hi, List.getElem?_eq_getElem hi, found, pure_bind, add_eq (by omega),
          pure_bind, List.drop_eq_getElem_cons hi, applyGroups]
        dsimp only
        split
        · rename_i hslots
          rw [checkedSlots_eq policy _ hslots, pure_bind]
          exact hnext 0 _
        · cases ColorTarget.ofCode? ((Params.leading groups[i]).getD 0) with
          | some t =>
              dsimp only
              rw [slice_eq (by omega), List.take_of_length_le (by simp), pure_bind]
              obtain ⟨hcolor, hdrop, hused⟩ := colorAndUse_spec (groups.drop (i + 1))
              rw [add_eq (by omega), pure_bind, hnext, ← List.drop_drop, hdrop, hcolor,
                ← applyGroups_drop]
          | none =>
              dsimp only
              rw [checkedCode_eq, pure_bind]
              exact hnext 0 _
      · rw [dif_neg hi, List.drop_eq_nil_of_le (by omega)]
        rfl

theorem checkedSelect_eq (policy : Sgr21) {params : Params}
    (hlength : params.groups.length ≤ Params.maxGroups) (r : Rendition) :
    checkedSelect policy params r = pure (select policy params r) := by
  rw [checkedSelect, select]
  split
  · rfl
  · exact checkedGroups_eq policy hlength 0 r

end VideoTerminal.Rendition
