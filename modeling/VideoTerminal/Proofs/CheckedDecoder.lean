import VideoTerminal.Proofs.Checked
import VideoTerminal.Proofs.Resynchronization

/-!
# The decoder with checks

The decoder in registers once more, with a check at every place of the buffer that is written or
read, at the sum that counts its bytes, at the difference that makes a number of a digit, and at
the place of a control in the table of names.

Sound registers give no fault: of a character under way there are fewer bytes than it needs, and it
needs four at most.  Digits and controls are told from other bytes first.
-/

namespace VideoTerminal

open Checked

namespace Checked

/-- Puts an element at a place of a buffer. -/
def storeAt {α : Type} {n : Nat} (xs : Vector α n) (i : Nat) (x : α) : Checked (Vector α n) :=
  if i < n then pure (xs.setIfInBounds i x) else throw .index

/-- Within the buffer nothing goes wrong. -/
theorem storeAt_eq {α : Type} {n : Nat} (xs : Vector α n) {i : Nat} (h : i < n) (x : α) :
    storeAt xs i x = pure (xs.setIfInBounds i x) := if_pos h

end Checked

/-- The mnemonic of a control. -/
def Byte.checkedName (b : UInt8) : Checked String :=
  if isC0 b then found c0Names[b.toNat]? else if b = delete then pure "DEL" else pure "?"

/-- The table has a name for every control of the set. -/
theorem Byte.checkedName_eq (b : UInt8) : checkedName b = pure (controlName b) := by
  rw [checkedName, controlName]
  split
  · rename_i hcontrol
    rw [isC0, decide_eq_true_eq] at hcontrol
    have hlength : b.toNat < c0Names.length := hcontrol
    have hdelete : b ≠ delete := by
      rintro rfl
      exact absurd hcontrol (by decide)
    rw [if_neg hdelete, List.getD_eq_getElem?_getD, List.getElem?_eq_getElem hlength, found,
      Option.getD_some]
  · rename_i hcontrol
    rw [isC0, decide_eq_true_eq, UInt8.lt_iff_toNat_lt] at hcontrol
    have hlength : c0Names.length ≤ b.toNat := Nat.not_lt.mp hcontrol
    rw [List.getD_eq_getElem?_getD, List.getElem?_eq_none hlength, Option.getD_none]
    split <;> rfl

/-- A digit, colon or semicolon of a parameter string. -/
def Decoder.checkedParameter (r : ParamReader) (b : UInt8) : Checked (Option ParamReader) := do
  if Byte.isDigit b then return some (r.digit (← sub b.toNat 0x30)) else return readParameter? r b

/-- Nothing is subtracted but from a digit. -/
theorem Decoder.checkedParameter_eq (r : ParamReader) (b : UInt8) :
    checkedParameter r b = pure (readParameter? r b) := by
  rw [checkedParameter]
  split
  · rename_i hdigit
    have hle : 0x30 ≤ b.toNat := by
      simp only [Byte.isDigit, Bool.and_eq_true, decide_eq_true_eq] at hdigit
      exact hdigit.1
    rw [sub_eq hle, pure_bind, readParameter?, if_pos hdigit]
  · rfl

namespace Registers

/-! ## Steps -/

/-- Begins a character. -/
def checkedStart (r : Registers) (b : UInt8) (needed : Nat) : Checked Registers := do
  return { r with buffer := ← storeAt r.buffer 0 b, length := 1, needed }

/-- Puts a byte behind those of the character under way. -/
def checkedContinue (r : Registers) (b : UInt8) : Checked Registers := do
  return { r with buffer := ← storeAt r.buffer r.length b, length := ← add 64 r.length 1 }

/-- The bytes of the character under way. -/
def checkedBytes (r : Registers) : Checked (List UInt8) := slice r.buffer.toList 0 r.length

/-- Executes a control. -/
def checkedControl (r : Registers) (b : UInt8) : Checked (Registers × List Message) := do
  let _ ← Byte.checkedName b
  return r.emit (.control b)

/-- A byte between two units. -/
def checkedBetween (r : Registers) (b : UInt8) : Checked (Registers × List Message) := do
  if b = Byte.escape then
    let (r, out) := r.flushText
    return (r.enterEscape, out)
  else if Byte.isC0 b || b == Byte.delete then r.checkedControl b
  else if b < 0x80 then return (r.glyph (Char.ofNat b.toNat), [])
  else if 0xC2 ≤ b && b ≤ 0xDF then return (← r.checkedStart b 2, [])
  else if 0xE0 ≤ b && b ≤ 0xEF then return (← r.checkedStart b 3, [])
  else if 0xF0 ≤ b && b ≤ 0xF4 then return (← r.checkedStart b 4, [])
  else return (r.glyph Utf8.replacement, [])

/-- A byte inside a character. -/
def checkedCharacter (r : Registers) (b : UInt8) : Checked (Registers × List Message) := do
  if Utf8.isContinuation b then
    let r ← r.checkedContinue b
    if r.length = r.needed then
      let bytes ← r.checkedBytes
      return (r.endCharacter.glyph ((Utf8.decode? bytes).getD Utf8.replacement), [])
    else return (r, [])
  else (r.endCharacter.glyph Utf8.replacement).checkedBetween b

/-- A byte outside all sequences. -/
def checkedGround (r : Registers) (b : UInt8) : Checked (Registers × List Message) :=
  if 0 < r.needed then r.checkedCharacter b else r.checkedBetween b

/-- A byte that is no part of the sequence under way. -/
def checkedInterrupt (r : Registers) (b : UInt8) : Checked (Registers × List Message) :=
  if b = Byte.escape then pure (r.enterEscape, [])
  else if Byte.isCancel b then pure (r.enter .ground, [])
  else if Byte.isC0 b then r.checkedControl b
  else if b < 0x80 then pure (r, [])
  else (r.enter .ground).checkedGround b

/-- A byte behind an escape. -/
def checkedEscape (r : Registers) (b : UInt8) : Checked (Registers × List Message) :=
  if b = 0x5B then pure (r.clearSequence.enter .csi, [])
  else if b = 0x5D then pure (r.clearString.enter .osc, [])
  else if b = 0x50 then pure (r.clearSequence.clearString.enter .dcs, [])
  else if b = 0x58 || b == 0x5E || b == 0x5F then pure (r.enter .controlString, [])
  else if Byte.isIntermediate b then
    pure ({ r with intermediates := r.intermediates ++ [b] }.enter .escapeIntermediate, [])
  else if Byte.isEscapeFinal b then pure (r.enter .ground, [.esc [b]])
  else r.checkedInterrupt b

/-- A byte behind an escape and intermediates. -/
def checkedEscapeIntermediate (r : Registers) (b : UInt8) : Checked (Registers × List Message) :=
  if Byte.isIntermediate b then
    pure ({ r with intermediates := Decoder.keepIntermediate r.intermediates b }, [])
  else if Byte.isEscapeFinal b then
    pure ({ r with intermediates := [] }.enter .ground, [.esc (r.intermediates ++ [b])])
  else r.checkedInterrupt b

/-- A byte in the parameters of a control sequence. -/
def checkedCsi (r : Registers) (b : UInt8) : Checked (Registers × List Message) := do
  match ← Decoder.checkedParameter r.params b with
  | some params => return ({ r with params }, [])
  | none =>
      if Byte.isMarker b then
        if r.marker.isNone && !r.params.started then return ({ r with marker := some b }, [])
        else return (r.enter .csiIgnore, [])
      else if Byte.isIntermediate b then
        return ({ r with params := r.params.finish, intermediates := r.intermediates ++ [b] }.enter
          .csiIntermediate, [])
      else if Byte.isFinal b then return { r with params := r.params.finish }.dispatchCsi b
      else r.checkedInterrupt b

/-- A byte in the intermediates of a control sequence. -/
def checkedCsiIntermediate (r : Registers) (b : UInt8) : Checked (Registers × List Message) :=
  if Byte.isIntermediate b then
    if r.intermediates.length < Decoder.maxIntermediates then
      pure ({ r with intermediates := r.intermediates ++ [b] }, [])
    else pure (r.enter .csiIgnore, [])
  else if Byte.isParameter b then pure (r.enter .csiIgnore, [])
  else if Byte.isFinal b then pure (r.dispatchCsi b)
  else r.checkedInterrupt b

/-- A byte in a malformed control sequence. -/
def checkedCsiIgnore (r : Registers) (b : UInt8) : Checked (Registers × List Message) :=
  if Byte.isFinal b then pure (r.enter .ground, [])
  else if Byte.isIntermediate b || Byte.isParameter b then pure (r, [])
  else r.checkedInterrupt b

/-- A byte behind an escape that ended a string. -/
def checkedAfterString (r : Registers) (b : UInt8) : Checked (Registers × List Message) :=
  if b = Byte.backslash then pure (r.enter .ground, []) else r.enterEscape.checkedEscape b

/-- A byte behind an escape that ended a string of which messages are given out. -/
def checkedEnd (dispatched : Registers × List Message) (b : UInt8) :
    Checked (Registers × List Message) := do
  let (r, rest) ← dispatched.1.checkedAfterString b
  return (r, dispatched.2 ++ rest)

/-- A byte in the header of a device control string. -/
def checkedDcs (r : Registers) (b : UInt8) : Checked (Registers × List Message) := do
  match ← Decoder.checkedParameter r.params b with
  | some params => return ({ r with params }, [])
  | none => return r.fromDcs b

/-- Takes one byte. -/
def checkedStep (r : Registers) (b : UInt8) : Checked (Registers × List Message) :=
  match r.phase with
  | .ground => r.checkedGround b
  | .escape => r.checkedEscape b
  | .escapeIntermediate => r.checkedEscapeIntermediate b
  | .csi => r.checkedCsi b
  | .csiIntermediate => r.checkedCsiIntermediate b
  | .csiIgnore => r.checkedCsiIgnore b
  | .osc => pure (r.fromOsc b)
  | .oscEscape => checkedEnd (r.dispatchOsc .st) b
  | .dcs => r.checkedDcs b
  | .dcsData => pure (r.fromDcsData b)
  | .dcsEscape => checkedEnd r.dispatchDcs b
  | .controlString => pure (r.fromControlString b)
  | .controlStringEscape => r.checkedAfterString b

/-! ## Without faults -/

variable {r : Registers}

/-- A character under way has begun, and is not complete. -/
def Underway (r : Registers) : Prop :=
  r.needed = 0 ∨ (0 < r.length ∧ r.length < r.needed ∧ r.needed ≤ 4)

/-- The first byte has its place. -/
theorem checkedStart_eq (r : Registers) (b : UInt8) (needed : Nat) :
    r.checkedStart b needed = pure (r.startCharacter b needed) := by
  rw [checkedStart, storeAt_eq _ (by decide)]
  rfl

/-- The buffer has a place for each byte of a character. -/
theorem checkedContinue_eq (b : UInt8) (h : r.length < 4) :
    r.checkedContinue b = pure (r.continueCharacter b) := by
  rw [checkedContinue, storeAt_eq _ h, pure_bind, add_eq (by omega), pure_bind]
  rfl

/-- The bytes so far lie within the buffer. -/
theorem checkedBytes_eq (h : r.length ≤ 4) : r.checkedBytes = pure r.characterBytes := by
  rw [checkedBytes, slice_eq ⟨Nat.zero_le _, by simpa using h⟩]
  rfl

/-- Each control has a name in the table. -/
theorem checkedControl_eq (r : Registers) (b : UInt8) :
    r.checkedControl b = pure (r.emit (.control b)) := by
  rw [checkedControl, Byte.checkedName_eq, pure_bind]

/-- Between two units only the table of names and the first place of the buffer are used. -/
theorem checkedBetween_eq (r : Registers) (b : UInt8) :
    r.checkedBetween b = pure (r.between b) := by
  rw [checkedBetween, between, checkedControl_eq, checkedStart_eq, checkedStart_eq,
    checkedStart_eq]
  split_ifs <;> rfl

/-- A character under way is shorter than it is to be, hence than the buffer. -/
theorem checkedCharacter_eq (h : r.Underway) (hneeded : 0 < r.needed) (b : UInt8) :
    r.checkedCharacter b = pure (r.fromCharacter b) := by
  obtain hzero | ⟨-, hlt, hle⟩ := h
  · omega
  · have hlength : (r.continueCharacter b).length ≤ 4 := by
      show r.length + 1 ≤ 4
      omega
    rw [checkedCharacter, fromCharacter, checkedContinue_eq b (by omega), pure_bind,
      checkedBytes_eq hlength, pure_bind, checkedBetween_eq]
    split
    · dsimp only
      split <;> rfl
    · rfl

/-- Outside all sequences there may be a character under way, or none. -/
theorem checkedGround_eq (h : r.Underway) (b : UInt8) : r.checkedGround b = pure (r.ground b) := by
  rw [checkedGround, ground]
  split
  · rename_i hneeded
    exact checkedCharacter_eq h hneeded b
  · exact checkedBetween_eq r b

/-- An interruption goes back to where there is no sequence, with registers that are still in order.
    -/
theorem checkedInterrupt_eq (h : r.Underway) (b : UInt8) :
    r.checkedInterrupt b = pure (r.interrupt b) := by
  have hground := checkedGround_eq (r := r.enter .ground) h b
  rw [checkedInterrupt, interrupt, checkedControl_eq, hground]
  split_ifs <;> rfl

theorem checkedEscape_eq (h : r.Underway) (b : UInt8) :
    r.checkedEscape b = pure (r.fromEscape b) := by
  rw [checkedEscape, fromEscape, checkedInterrupt_eq h]
  split_ifs <;> rfl

theorem checkedEscapeIntermediate_eq (h : r.Underway) (b : UInt8) :
    r.checkedEscapeIntermediate b = pure (r.fromEscapeIntermediate b) := by
  rw [checkedEscapeIntermediate, fromEscapeIntermediate, checkedInterrupt_eq h]
  split_ifs <;> rfl

theorem checkedCsi_eq (h : r.Underway) (b : UInt8) : r.checkedCsi b = pure (r.fromCsi b) := by
  rw [checkedCsi, fromCsi, Decoder.checkedParameter_eq, pure_bind, checkedInterrupt_eq h]
  cases Decoder.readParameter? r.params b with
  | some params => rfl
  | none =>
      dsimp only
      split_ifs <;> rfl

theorem checkedCsiIntermediate_eq (h : r.Underway) (b : UInt8) :
    r.checkedCsiIntermediate b = pure (r.fromCsiIntermediate b) := by
  rw [checkedCsiIntermediate, fromCsiIntermediate, checkedInterrupt_eq h]
  split_ifs <;> rfl

theorem checkedCsiIgnore_eq (h : r.Underway) (b : UInt8) :
    r.checkedCsiIgnore b = pure (r.fromCsiIgnore b) := by
  rw [checkedCsiIgnore, fromCsiIgnore, checkedInterrupt_eq h]
  split_ifs <;> rfl

theorem checkedAfterString_eq (h : r.Underway) (b : UInt8) :
    r.checkedAfterString b = pure (r.afterString b) := by
  rw [checkedAfterString, afterString, checkedEscape_eq (r := r.enterEscape) h]
  split_ifs <;> rfl

/-- Giving out a message leaves the character under way alone. -/
theorem Underway.dispatchOsc (h : r.Underway) (ending : StringEnd) :
    (r.dispatchOsc ending).1.Underway := by
  rw [Registers.dispatchOsc]
  split_ifs <;> exact h

/-- The end of a device control string touches no register of the character. -/
theorem Underway.dispatchDcs (h : r.Underway) : r.dispatchDcs.1.Underway := by
  rw [Registers.dispatchDcs]
  split_ifs <;> exact h

theorem checkedDcs_eq (r : Registers) (b : UInt8) : r.checkedDcs b = pure (r.fromDcs b) := by
  rw [checkedDcs, Decoder.checkedParameter_eq, pure_bind]
  cases hread : Decoder.readParameter? r.params b with
  | some params =>
      rw [fromDcs, hread]
  | none => rfl

/-- A byte never makes the decoder fault: each phase is one of the cases above. -/
theorem checkedStep_eq (h : r.Underway) (b : UInt8) : r.checkedStep b = pure (r.step b) := by
  rw [checkedStep, step]
  cases r.phase with
  | ground => exact checkedGround_eq h b
  | escape => exact checkedEscape_eq h b
  | escapeIntermediate => exact checkedEscapeIntermediate_eq h b
  | csi => exact checkedCsi_eq h b
  | csiIntermediate => exact checkedCsiIntermediate_eq h b
  | csiIgnore => exact checkedCsiIgnore_eq h b
  | osc => rfl
  | oscEscape =>
      dsimp only
      rw [checkedEnd, checkedAfterString_eq (h.dispatchOsc .st), pure_bind]
      rfl
  | dcs => exact checkedDcs_eq r b
  | dcsData => rfl
  | dcsEscape =>
      dsimp only
      rw [checkedEnd, checkedAfterString_eq h.dispatchDcs, pure_bind]
      rfl
  | controlString => rfl
  | controlStringEscape => exact checkedAfterString_eq h b

end Registers

end VideoTerminal
