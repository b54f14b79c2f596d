import VideoTerminal.Text.Numeral

/-!
# Parameters of a control sequence

A parameter string is a list of groups.  Semicolons separate the groups, colons the slots within
one, and a slot may be empty, so that each function can put its own default there.
-/

namespace VideoTerminal

/-- The parameters of a sequence: groups of slots. -/
structure Params where
  groups : List (List (Option Nat))
deriving DecidableEq, Repr

namespace Params

/-- The number of groups kept. -/
def maxGroups : Nat := 32

/-- The number of slots kept in one group. -/
def maxSlots : Nat := 8

/-- The largest value of a slot; larger numbers stand for it. -/
def maxValue : Nat := 65535

/-- The first value of a group. -/
def leading (group : List (Option Nat)) : Option Nat := group.head?.join

/-- The first value of the group at an index, if it is there and not empty. -/
def get? (p : Params) (i : Nat) : Option Nat := p.groups[i]?.bind leading

/-- The first value of a group, or a default. -/
def getD (p : Params) (i default : Nat) : Nat := (p.get? i).getD default

/-- The first value of a group where it is not zero, or else a default.  Counts and positions are
read like this. -/
def positiveD (p : Params) (i default : Nat) : Nat :=
  match p.get? i with
  | some (n + 1) => n + 1
  | _ => default

theorem positiveD_pos (p : Params) (i : Nat) {default : Nat} (h : 0 < default) :
    0 < p.positiveD i default := by
  rw [positiveD]
  split
  · exact Nat.succ_pos _
  · exact h

/-- The first values of all groups, with zero for the missing ones. -/
def values (p : Params) : List Nat := p.groups.map fun g => (leading g).getD 0

/-- The slots of a group as text. -/
def groupText (group : List (Option Nat)) : String :=
  ":".intercalate (group.map fun v => (v.map fun n => String.ofList (Numeral.decimal n)).getD "")

/-- The parameter string. -/
def text (p : Params) : String := ";".intercalate (p.groups.map groupText)

end Params

/-- A parameter string while it is read: the complete groups, the complete slots of the open
group, the number in the open slot, and whether a parameter has begun. -/
structure ParamReader where
  groups : List (List (Option Nat)) := []
  slots : List (Option Nat) := []
  value : Option Nat := none
  started : Bool := false
deriving DecidableEq, Repr

namespace ParamReader

/-- Takes a digit of the open slot. -/
def digit (r : ParamReader) (d : Nat) : ParamReader :=
  { r with value := some (min (r.value.getD 0 * 10 + d) Params.maxValue), started := true }

/-- The open group with the open slot in it, as far as there is room. -/
def openGroup (r : ParamReader) : List (Option Nat) :=
  if r.slots.length < Params.maxSlots then r.slots ++ [r.value] else r.slots

/-- Closes the open slot. -/
def closeSlot (r : ParamReader) : ParamReader :=
  { r with slots := r.openGroup, value := none, started := true }

/-- All groups with the open one behind them, as far as there is room. -/
def allGroups (r : ParamReader) : List (List (Option Nat)) :=
  if r.groups.length < Params.maxGroups then r.groups ++ [r.openGroup] else r.groups

/-- Closes the open group. -/
def closeGroup (r : ParamReader) : ParamReader :=
  { groups := r.allGroups, started := true }

/-- Closes the parameter string, whose last group counts only if anything was read. -/
def finish (r : ParamReader) : ParamReader :=
  if r.started then { groups := r.allGroups } else r

/-- The parameters of a closed string. -/
def params (r : ParamReader) : Params := ⟨r.finish.groups⟩

end ParamReader

end VideoTerminal
