import VideoTerminal.Params
import VideoTerminal.Rendition

/-!
# Selecting a rendition

The effect of a list of parameters on a rendition.  Colors beyond the named ones come in two
forms: with their components in the slots of one group, or in the groups that follow.
-/

namespace VideoTerminal

/-- The meaning of parameter 21.  The standard underlines doubly; many programs send it to turn
bold off. -/
inductive Sgr21 where
  | cancelBold
  | doubleUnderline
deriving DecidableEq, Repr

/-- The part of a character that a color is for. -/
inductive ColorTarget where
  | foreground
  | background
  | underline
deriving DecidableEq, Repr

/-- The target of a parameter that introduces an extended color. -/
def ColorTarget.ofCode? : Nat → Option ColorTarget
  | 38 => some .foreground
  | 48 => some .background
  | 58 => some .underline
  | _ => none

namespace Rendition

/-- Gives the target a color. -/
def setColor (r : Rendition) (c : Color) : ColorTarget → Rendition
  | .foreground => { r with foreground := some c }
  | .background => { r with background := some c }
  | .underline => { r with underlineColor := some c }

/-- Gives the target a color if there is one. -/
def setColor? (r : Rendition) (c : Option Color) (t : ColorTarget) : Rendition :=
  match c with
  | some c => r.setColor c t
  | none => r

/-- The effect of one parameter without further slots. -/
def applyCode (policy : Sgr21) (code : Nat) (r : Rendition) : Rendition :=
  match code with
  | 0 => {}
  | 1 => { r with bold := true }
  | 2 => { r with faint := true }
  | 3 => { r with italic := true }
  | 4 => { r with underline := some .single }
  | 5 => { r with blink := true }
  | 6 => { r with blink := true }
  | 7 => { r with inverse := true }
  | 8 => { r with hidden := true }
  | 9 => { r with strikethrough := true }
  | 21 =>
      match policy with
      | .cancelBold => { r with bold := false }
      | .doubleUnderline => { r with underline := some .double }
  | 22 => { r with bold := false, faint := false }
  | 23 => { r with italic := false }
  | 24 => { r with underline := none }
  | 25 => { r with blink := false }
  | 27 => { r with inverse := false }
  | 28 => { r with hidden := false }
  | 29 => { r with strikethrough := false }
  | 39 => { r with foreground := none }
  | 49 => { r with background := none }
  | 59 => { r with underlineColor := none }
  | _ =>
      if 30 ≤ code ∧ code ≤ 37 then
        { r with foreground := some (.named (Fin.ofNat 16 (code - 30))) }
      else if 40 ≤ code ∧ code ≤ 47 then
        { r with background := some (.named (Fin.ofNat 16 (code - 40))) }
      else if 90 ≤ code ∧ code ≤ 97 then
        { r with foreground := some (.named (Fin.ofNat 16 (code - 82))) }
      else if 100 ≤ code ∧ code ≤ 107 then
        { r with background := some (.named (Fin.ofNat 16 (code - 92))) }
      else r

/-- A color component; an empty slot is zero, and a number above 255 is none. -/
def component? (v : Option Nat) : Option UInt8 :=
  if v.getD 0 ≤ 255 then some (UInt8.ofNat (v.getD 0)) else none

/-- The color of three components. -/
def rgb? (r g b : Option Nat) : Option Color := do
  some (.rgb ⟨← component? r, ← component? g, ← component? b⟩)

/-- The color in the slots behind the first of a group.  With five slots or more the second of
them names a color space, which is skipped. -/
def colonColor? : List (Option Nat) → Option Color
  | some 5 :: args => (component? args.head?.join).map .indexed
  | some 2 :: _ :: r :: g :: b :: _ => rgb? r g b
  | [some 2, r, g, b] => rgb? r g b
  | _ => none

/-- The color in the groups that follow, and how many of them it takes up. -/
def semicolonColor (rest : List (List (Option Nat))) : Option Color × Nat :=
  match (rest.head?.bind Params.leading : Option Nat) with
  | some 5 => (rest[1]?.bind fun n => (component? (Params.leading n)).map .indexed, 2)
  | some 2 =>
      (do rgb? (Params.leading (← rest[1]?)) (Params.leading (← rest[2]?))
            (Params.leading (← rest[3]?)), 4)
  | _ => (none, 1)

/-- The line for the second slot of an underline parameter; an unknown style is a single line. -/
def underlineOf : Option Nat → Option Underline
  | some 0 => none
  | some n => some ((Underline.ofNumber? n).getD .single)
  | none => some .single

/-- The effect of a group with more than one slot. -/
def applyColon (policy : Sgr21) (code : Nat) (args : List (Option Nat)) (r : Rendition) :
    Rendition :=
  match ColorTarget.ofCode? code with
  | some t => r.setColor? (colonColor? args) t
  | none =>
      if code = 4 then { r with underline := underlineOf args.head?.join }
      else applyCode policy code r

/-- The effect of groups in order, after skipping some that a color has taken up. -/
def applyGroups (policy : Sgr21) : Nat → List (List (Option Nat)) → Rendition → Rendition
  | _, [], r => r
  | skip + 1, _ :: rest, r => applyGroups policy skip rest r
  | 0, group :: rest, r =>
      let code := (Params.leading group).getD 0
      if 1 < group.length then applyGroups policy 0 rest (applyColon policy code group.tail r)
      else
        match ColorTarget.ofCode? code with
        | some t =>
            let (color, used) := semicolonColor rest
            applyGroups policy used rest (r.setColor? color t)
        | none => applyGroups policy 0 rest (applyCode policy code r)

/-- What a color takes up is passed over. -/
theorem applyGroups_drop (policy : Sgr21) (skip : Nat) (groups : List (List (Option Nat)))
    (r : Rendition) : applyGroups policy skip groups r
      = applyGroups policy 0 (groups.drop skip) r := by
  induction groups generalizing skip with
  | nil => simp [applyGroups]
  | cons group groups ih =>
      cases skip with
      | zero => rfl
      | succ skip =>
          rw [applyGroups, ih]
          rfl

/-- The effect of a parameter list; an empty one resets everything. -/
def select (policy : Sgr21) (params : Params) (r : Rendition) : Rendition :=
  if params.groups = [] then {} else applyGroups policy 0 params.groups r

end Rendition

end VideoTerminal
