import VideoTerminal.Proofs.Canonical
import VideoTerminal.Proofs.CheckedColors
import VideoTerminal.Proofs.CheckedRendition
import VideoTerminal.Proofs.CheckedTerminal
import VideoTerminal.Proofs.Reachable

/-!
# Messages with checks

The effect of messages once more, through the operations with checks.  Besides them, columns and
rows that are counted from one are brought to zero here, which would be a fault if they were not.
Parameters are read so that they are, whatever the sequence says.

What has no check in it is taken over as it is.
-/

namespace VideoTerminal

open Checked

namespace Terminal

/-! ## The effect of messages -/

/-- The effect of a control. -/
def checkedControl (t : Terminal) (b : UInt8) : Checked (Terminal × List Event) := do
  if b = 0x08 then return (← t.checkedBackspace, [])
  else if b = 0x0A || b == 0x0B || b == 0x0C then return (← t.checkedLinefeed, [])
  else return t.applyControl b

/-- The effect of a control function. -/
def checkedFunction (t : Terminal) (f : ControlFunction) : Checked (Terminal × List Event) := do
  match f with
  | .cursorColumn col => return (t.setColumn (← sub col 1), [])
  | .cursorRow row => return (t.setRow (← sub row 1), [])
  | .eraseInDisplay extent selective => return (← t.checkedEraseInDisplay extent selective, [])
  | .eraseInLine extent selective => return (← t.checkedEraseInLine extent selective, [])
  | .eraseChars n => return (← t.checkedEraseChars n, [])
  | .scrollUp n => return (← t.checkedScroll n .up, [])
  | .scrollDown n => return (← t.checkedScroll n .down, [])
  | .insertLines n => return (← t.checkedShiftFromCursor n .down, [])
  | .deleteLines n => return (← t.checkedShiftFromCursor n .up, [])
  | .insertChars n => return (← t.checkedInsertChars n, [])
  | .deleteChars n => return (← t.checkedDeleteChars n, [])
  | .repeatLast n => return (← t.checkedRepeat n, [])
  | .deviceStatus request =>
      if request = 6 then
        let (row, col) ← t.checkedPosition
        return (t, [.reply (.cursorPosition row col)])
      else return t.applyFunction (.deviceStatus request)
  | .privateDeviceStatus request =>
      if request = 6 then
        let (row, col) ← t.checkedPosition
        return (t, [.reply (.extendedCursorPosition row col)])
      else return t.applyFunction (.privateDeviceStatus request)
  | .setScrollRegion top bottom => return (← t.checkedScrollRegion top bottom, [])
  | f => return t.applyFunction f

/-- The effect of one color of a list. -/
def checkedColor (ending : StringEnd) (t : Terminal) (code : Nat) (spec : List Char) :
    Checked (Terminal × List Event) := do
  if spec = ['?'] then return t.applyColor ending code spec
  else
    match ← Rgb.checkedParse spec with
    | some c =>
        return (if code = 10 then { t with foreground := some c }
          else { t with background := some c }, [])
    | none => return (t, [])

/-- The effect of a list of colors. -/
def checkedColors (ending : StringEnd) (t : Terminal) (code : Nat) :
    List (List Char) → Checked (Terminal × List Event)
  | [] => pure (t, [])
  | spec :: specs => do
      if 11 < code then return (t, [])
      else
        let (t, es) ← checkedColor ending t code spec
        let (t, fs) ← checkedColors ending t (code + 1) specs
        return (t, es ++ fs)

/-- The effect of a system command. -/
def checkedCommand (t : Terminal) (c : SystemCommand) (ending : StringEnd) :
    Checked (Terminal × List Event) :=
  match c with
  | .dynamicColors first specs => checkedColors ending t first specs
  | c => pure (t.applyCommand c ending)

/-- The effect of an escape sequence, by its characters. -/
def checkedEscape (t : Terminal) (sequence : List UInt8) : Checked Terminal :=
  match sequence.map fun b => Char.ofNat b.toNat with
  | ['D'] => t.checkedIndex
  | ['E'] => t.carriageReturn.checkedIndex
  | ['M'] => t.checkedReverseIndex
  | _ => pure (t.applyEscape sequence)

/-- The effect of a message. -/
def checkedApply (t : Terminal) (m : Message) : Checked (Terminal × List Event) := do
  match m with
  | .print text => return (← text.foldlM checkedPrint t, [])
  | .control b => t.checkedControl b
  | .sgr params => return ({ t with pen := ← Rendition.checkedSelect t.sgr21 params t.pen }, [])
  | .csi marker params intermediates final =>
      t.checkedFunction (functionOf marker params intermediates final)
  | .osc code data ending => t.checkedCommand (SystemCommand.ofOsc code data) ending
  | .esc sequence => return (← t.checkedEscape sequence, [])
  | .dcs _ _ _ _ => return t.apply m

end Terminal

/-! ## Columns and rows from one on -/

/-- The column or the row that a function goes to is counted from one. -/
def ControlFunction.CountsFromOne (f : ControlFunction) : Prop :=
  match f with
  | .cursorColumn n | .cursorRow n => 0 < n
  | _ => True

namespace ControlFunction

theorem countsFromOne_ofPlain (p : Params) (final : Char) : (ofPlain p final).CountsFromOne := by
  have hpos : 0 < p.positiveD 0 1 := p.positiveD_pos 0 Nat.one_pos
  unfold ofPlain
  split <;> try exact trivial
  · exact hpos
  · exact hpos
  · exact hpos
  · -- attributes are sent only where the parameter is zero
    dsimp only
    split <;> exact trivial

theorem countsFromOne_ofPrivate (p : Params) (final : Char) :
    (ofPrivate p final).CountsFromOne := by
  unfold ofPrivate
  split <;> exact trivial

theorem countsFromOne_ofSequence (marker : Option Char) (p : Params) (intermediates : List Char)
    (final : Char) : (ofSequence marker p intermediates final).CountsFromOne := by
  unfold ofSequence
  split
  · exact countsFromOne_ofPlain p final
  · exact countsFromOne_ofPrivate p final
  · split <;> exact trivial
  · split <;> exact trivial
  · split <;> exact trivial
  · split <;> exact trivial
  · split <;> exact trivial
  · split <;> exact trivial
  · split <;> exact trivial
  · exact trivial

end ControlFunction

/-! ## Without faults -/

namespace Terminal

variable {limit : Nat} {t : Terminal}

theorem checkedColor_eq (ending : StringEnd) (t : Terminal) (code : Nat) (spec : List Char) :
    t.checkedColor ending code spec = pure (applyColor ending t code spec) := by
  rw [checkedColor, Rgb.checkedParse_eq, pure_bind, applyColor]
  split
  · rfl
  · cases Rgb.parse? spec with
    | some c => rfl
    | none => rfl

theorem checkedColors_eq (ending : StringEnd) (t : Terminal) (code : Nat)
    (specs : List (List Char)) :
    checkedColors ending t code specs = pure (applyColors ending t code specs) := by
  induction specs generalizing t code with
  | nil => rfl
  | cons spec specs ih =>
      rw [checkedColors, applyColors, checkedColor_eq, pure_bind]
      dsimp only
      rw [ih, pure_bind]
      split <;> rfl

theorem checkedCommand_eq (t : Terminal) (c : SystemCommand) (ending : StringEnd) :
    t.checkedCommand c ending = pure (t.applyCommand c ending) := by
  cases c with
  | dynamicColors first specs => exact checkedColors_eq ending t first specs
  | _ => rfl

namespace WellFormed

variable (h : t.WellFormed limit)

include h

theorem checkedControl (b : UInt8) : t.checkedControl b = pure (t.applyControl b) := by
  rw [Terminal.checkedControl, checkedBackspace_eq, h.checkedLinefeed]
  split
  · rename_i hb
    subst hb
    rfl
  · split
    · rename_i hb
      simp only [Bool.or_eq_true, decide_eq_true_eq, beq_iff_eq] at hb
      obtain (rfl | rfl) | rfl := hb
      · rfl
      · rfl
      · rfl
    · rfl

theorem checkedFunction {f : ControlFunction} (hf : f.CountsFromOne) :
    t.checkedFunction f = pure (t.applyFunction f) := by
  cases f with
  | cursorColumn col =>
      rw [Terminal.checkedFunction, sub_eq hf]
      rfl
  | cursorRow row =>
      rw [Terminal.checkedFunction, sub_eq hf]
      rfl
  | eraseInDisplay extent selective =>
      rw [Terminal.checkedFunction, h.checkedEraseInDisplay]
      rfl
  | eraseInLine extent selective =>
      rw [Terminal.checkedFunction, h.checkedEraseInLine]
      rfl
  | eraseChars n =>
      rw [Terminal.checkedFunction, h.checkedEraseChars]
      rfl
  | scrollUp n =>
      rw [Terminal.checkedFunction, h.checkedScroll]
      rfl
  | scrollDown n =>
      rw [Terminal.checkedFunction, h.checkedScroll]
      rfl
  | insertLines n =>
      rw [Terminal.checkedFunction, h.checkedShiftFromCursor]
      rfl
  | deleteLines n =>
      rw [Terminal.checkedFunction, h.checkedShiftFromCursor]
      rfl
  | insertChars n =>
      rw [Terminal.checkedFunction, h.checkedInsertChars]
      rfl
  | deleteChars n =>
      rw [Terminal.checkedFunction, h.checkedDeleteChars]
      rfl
  | repeatLast n =>
      rw [Terminal.checkedFunction, h.checkedRepeat]
      rfl
  | deviceStatus request =>
      rw [Terminal.checkedFunction, h.checkedPosition]
      split
      · rename_i hplace
        subst hplace
        rfl
      · rfl
  | privateDeviceStatus request =>
      rw [Terminal.checkedFunction, h.checkedPosition]
      split
      · rename_i hplace
        subst hplace
        rfl
      · rfl
  | setScrollRegion top bottom =>
      rw [Terminal.checkedFunction, checkedScrollRegion_eq]
      rfl
  | _ => rfl

-- column zero is the fault that counting from one keeps away
example : t.checkedFunction (.cursorColumn 0) = throw .underflow := rfl

theorem checkedEscape (sequence : List UInt8) :
    t.checkedEscape sequence = pure (t.applyEscape sequence) := by
  rw [Terminal.checkedEscape]
  split
  · rename_i hsequence
    rw [h.checkedIndex, Terminal.applyEscape, hsequence]
    rfl
  · rename_i hsequence
    rw [h.carriageReturn.checkedIndex, Terminal.applyEscape, hsequence]
    rfl
  · rename_i hsequence
    rw [h.checkedReverseIndex, Terminal.applyEscape, hsequence]
    rfl
  · rfl

theorem checkedApply {m : Message} (hm : m.Canonical) : t.checkedApply m = pure (t.apply m) := by
  have hprint : ∀ c, Safe (WellFormed limit) (Terminal.checkedPrint · c) (Terminal.print · c) :=
    fun c => ⟨fun _ ht => ht.checkedPrint c, fun _ ht => ht.print c⟩
  cases hm with
  | @print text _ _ =>
      have htext : text.foldlM Terminal.checkedPrint t = pure (text.foldl Terminal.print t) :=
        Safe.foldlM (fun c _ => hprint c) h
      rw [Terminal.checkedApply, htext]
      rfl
  | control => exact h.checkedControl _
  | csi => exact h.checkedFunction (ControlFunction.countsFromOne_ofSequence _ _ _ _)
  | sgr hparams =>
      rw [Terminal.checkedApply, Rendition.checkedSelect_eq _ hparams.length_le]
      rfl
  | osc => exact checkedCommand_eq t _ _
  | escape =>
      rw [Terminal.checkedApply, h.checkedEscape]
      rfl
  | escapeIntermediates =>
      rw [Terminal.checkedApply, h.checkedEscape]
      rfl
  | dcs => rfl

end WellFormed

end Terminal

end VideoTerminal
