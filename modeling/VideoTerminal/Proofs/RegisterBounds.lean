import VideoTerminal.Proofs.Resynchronization
import VideoTerminal.Proofs.RoundTrip

/-!
# The bounds of the registers

No register grows beyond its bound, whatever comes in.  The bounds are not all kept in the same way:
slots, groups and the bytes of a string are counted before one more is taken, and so are the later
intermediates, but the first one behind an escape or behind parameters is taken without a look at
those that are there.  There are none: `Registers.Sound` says that they have been cleared on the way
to these two phases.

`Registers.Bounded` is about all registers in all phases, those included that a phase does not read
and that still hold what was read long ago.  A byte keeps it, by one lemma for each phase; and so do
a run, the end of the input and any calls.  The messages are those of the decoder, of which it is
known what it can make.
-/

namespace VideoTerminal

/-! ## Parts of messages -/

namespace Message

/-- The bytes of a sequence between the introducer and the final byte. -/
def intermediates : Message → List UInt8
  | .csi _ _ is _ => is
  | .dcs _ is _ _ => is
  | .esc sequence => sequence.dropLast
  | _ => []

/-- The groups of the parameters of a sequence. -/
def groups : Message → List (List (Option Nat))
  | .csi _ params _ _ => params.groups
  | .sgr params => params.groups
  | .dcs params _ _ _ => params.groups
  | _ => []

/-- A canonical message has only so many intermediates. -/
theorem Canonical.length_intermediates_le {m : Message} (h : m.Canonical) :
    m.intermediates.length ≤ Decoder.maxIntermediates := by
  cases h with
  | csi _ _ his _ _ => exact his.length_le
  | dcs _ his _ _ => exact his.length_le
  | escapeIntermediates _ his _ =>
      rw [intermediates, List.dropLast_concat]
      exact his.length_le
  | _ => exact Nat.zero_le _

/-- It has only so many groups, and only so many slots in each. -/
theorem Canonical.groups_bounded {m : Message} (h : m.Canonical) :
    m.groups.length ≤ Params.maxGroups ∧ ∀ group ∈ m.groups, Params.CanonicalGroup group := by
  have hnone : ([] : List (List (Option Nat))).length ≤ Params.maxGroups ∧
      ∀ group ∈ ([] : List (List (Option Nat))), Params.CanonicalGroup group :=
    ⟨Nat.zero_le _, fun _ hgroup => absurd hgroup List.not_mem_nil⟩
  cases h with
  | csi _ hparams _ _ _ => exact ⟨hparams.length_le, hparams.each⟩
  | sgr hparams => exact ⟨hparams.length_le, hparams.each⟩
  | dcs hparams _ _ _ => exact ⟨hparams.length_le, hparams.each⟩
  | _ => exact hnone

end Message

namespace Decoder

/-- The messages of any calls are canonical. -/
theorem canonical_calls (calls : List Call) :
    ∀ m ∈ (Machine.run call .ground calls).2, m.Canonical := by
  have hcall : ∀ d : Decoder, ∀ c : Call, d.Sound →
      (d.call c).1.Sound ∧ ∀ m ∈ (d.call c).2, m.Canonical := by
    intro d c hd
    cases c with
    | push bytes => exact sound_push hd bytes
    | flush => exact sound_flush hd
  exact Machine.forall_mem_run (I := Sound) (fun d c _ hd => (hcall d c hd).1)
    (fun d c _ hd => (hcall d c hd).2) sound_ground

end Decoder

/-! ## Parameters -/

namespace ParamReader

/-- The groups and the slots of the open group are within their bounds. -/
structure Bounded (r : ParamReader) : Prop where
  groups_le : r.groups.length ≤ Params.maxGroups
  slots_le : r.slots.length ≤ Params.maxSlots

namespace Bounded

variable {r : ParamReader}

/-- Nothing has been read. -/
theorem empty : Bounded {} := ⟨Nat.zero_le _, Nat.zero_le _⟩

/-- A byte that is read may open a group or a slot, or make a number larger, up to the bounds. -/
theorem readParameter? (h : r.Bounded) {b : UInt8} {r' : ParamReader}
    (hr : Decoder.readParameter? r b = some r') : r'.Bounded := by
  rcases readParameter?_cases hr with rfl | rfl | rfl
  · exact ⟨h.groups_le, h.slots_le⟩
  · exact ⟨h.groups_le, length_openGroup_le h.slots_le⟩
  · exact ⟨length_allGroups_le h.groups_le, Nat.zero_le _⟩

/-- Parameters may be closed more than once. -/
theorem finish (h : r.Bounded) : r.finish.Bounded := by
  rw [ParamReader.finish]
  split
  · exact ⟨length_allGroups_le h.groups_le, Nat.zero_le _⟩
  · exact h

end Bounded

end ParamReader

/-- A payload that is full takes no more, and one that is not has room for one byte. -/
theorem Payload.size_push_le {p : Payload} (h : p.bytes.size ≤ limit) (b : UInt8) :
    (p.push b).bytes.size ≤ limit := by
  rw [← Array.length_toList] at h ⊢
  exact length_push_le h b

/-! ## Steps -/

namespace Registers

/-- Every register is within its bound, whether or not the phase reads it. -/
structure Bounded (r : Registers) : Prop where
  payload : r.payload.bytes.size ≤ Payload.limit
  intermediates : r.intermediates.length ≤ Decoder.maxIntermediates
  params : r.params.Bounded

/-- New registers are empty. -/
theorem bounded_new : Bounded {} := ⟨Nat.zero_le _, Nat.zero_le _, .empty⟩

variable {r : Registers}

namespace Bounded

/-- The registers of a sequence are cleared. -/
theorem clearSequence (h : r.Bounded) : r.clearSequence.Bounded :=
  ⟨h.payload, Nat.zero_le _, .empty⟩

/-- Taking a sequence out of the registers clears them too. -/
theorem takeSequence (h : r.Bounded) : r.takeSequence.Bounded :=
  ⟨h.payload, Nat.zero_le _, Nat.zero_le _, h.params.slots_le⟩

/-- The register of a string is cleared. -/
theorem clearString (h : r.Bounded) : r.clearString.Bounded := { h with payload := Nat.zero_le _ }

/-- Taking a string out of its register clears it too. -/
theorem takeString (h : r.Bounded) : r.takeString.Bounded := { h with payload := Nat.zero_le _ }

/-- The phase has no bound. -/
theorem enter (h : r.Bounded) (p : Phase) : (r.enter p).Bounded := { h with }

/-- Giving out text or a message leaves the bounded registers alone. -/
theorem emit (h : r.Bounded) (m : Message) : (r.emit m).1.Bounded := { h with }

/-- A byte joins the payload, where there is room. -/
theorem pushPayload (h : r.Bounded) (b : UInt8) :
    Bounded { r with payload := r.payload.push b } :=
  { h with payload := Payload.size_push_le h.payload b }

/-- A byte taken while there is room. -/
theorem pushIntermediate (h : r.Bounded) (hroom : r.intermediates.length < Decoder.maxIntermediates)
    (b : UInt8) : Bounded { r with intermediates := r.intermediates ++ [b] } := by
  refine { h with intermediates := ?_ }
  rw [List.length_append]
  exact hroom

/-- The open group is closed, where there is room. -/
theorem finishParams (h : r.Bounded) : Bounded { r with params := r.params.finish } :=
  { h with params := h.params.finish }

/-- Parameters are read within their bounds. -/
theorem readParams (h : r.Bounded) {params : ParamReader}
    (hread : Decoder.readParameter? r.params b = some params) : Bounded { r with params } :=
  { h with params := h.params.readParameter? hread }

/-- Between characters at most the bytes of one are kept. -/
theorem between (h : r.Bounded) (b : UInt8) : (r.between b).1.Bounded := by
  rw [Registers.between]
  split_ifs
  · exact (show r.flushText.1.Bounded from { h with }).clearSequence.enter .escape
  all_goals exact { h with }

/-- Text and characters are no sequences, so nothing of those grows. -/
theorem ground (h : r.Bounded) (b : UInt8) : (r.ground b).1.Bounded := by
  rw [Registers.ground, fromCharacter]
  dsimp only
  split_ifs
  · exact { h with }
  · exact { h with }
  · -- the byte does not continue the character, and is taken as if there had been none
    exact between (r := r.endCharacter.glyph Utf8.replacement) { h with } b
  · exact h.between b

/-- A byte that breaks off a sequence adds nothing. -/
theorem interrupt (h : r.Bounded) (b : UInt8) : (r.interrupt b).1.Bounded := by
  rw [Registers.interrupt]
  split_ifs
  · exact (h.enter .escape).clearSequence
  · exact h.enter .ground
  · exact h.emit _
  · exact h
  · exact (h.enter .ground).ground b

/-- The first intermediate is taken without a look at those that are there. -/
theorem fromEscape (h : r.Bounded) (hfresh : r.intermediates = []) (b : UInt8) :
    (r.fromEscape b).1.Bounded := by
  rw [Registers.fromEscape]
  split_ifs
  · exact h.clearSequence.enter .csi
  · exact h.clearString.enter .osc
  · exact h.clearSequence.clearString.enter .dcs
  · exact h.enter .controlString
  · exact (h.pushIntermediate (hfresh ▸ by decide) b).enter .escapeIntermediate
  · exact h.enter .ground
  · exact h.interrupt b

/-- The later intermediates are counted before one more is taken. -/
theorem fromEscapeIntermediate (h : r.Bounded) (b : UInt8) :
    (r.fromEscapeIntermediate b).1.Bounded := by
  rw [Registers.fromEscapeIntermediate, Decoder.keepIntermediate]
  split_ifs with _ hroom
  · exact h.pushIntermediate hroom b
  · exact h
  · exact { h with intermediates := Nat.zero_le _ }
  · exact h.interrupt b

/-- The end of a control sequence closes the open group. -/
theorem dispatchCsi (h : r.Bounded) (final : UInt8) : (r.dispatchCsi final).1.Bounded :=
  (h.takeSequence.enter .ground).emit _

/-- The first intermediate behind parameters is taken without a look at the others; there are none.
    -/
theorem fromCsi (h : r.Bounded) (hfresh : r.intermediates = []) (b : UInt8) :
    (r.fromCsi b).1.Bounded := by
  rw [Registers.fromCsi]
  cases hread : Decoder.readParameter? r.params b with
  | some params => exact h.readParams hread
  | none =>
      dsimp only
      split_ifs
      · exact { h with }
      · exact h.enter .csiIgnore
      · exact (h.finishParams.pushIntermediate (hfresh ▸ by decide) b).enter .csiIntermediate
      · exact h.finishParams.dispatchCsi b
      · exact h.interrupt b

/-- The later ones are counted. -/
theorem fromCsiIntermediate (h : r.Bounded) (b : UInt8) : (r.fromCsiIntermediate b).1.Bounded := by
  rw [Registers.fromCsiIntermediate]
  split_ifs with _ hroom
  · exact h.pushIntermediate hroom b
  · exact h.enter .csiIgnore
  · exact h.enter .csiIgnore
  · exact h.dispatchCsi b
  · exact h.interrupt b

/-- What is ignored is not kept. -/
theorem fromCsiIgnore (h : r.Bounded) (b : UInt8) : (r.fromCsiIgnore b).1.Bounded := by
  rw [Registers.fromCsiIgnore]
  split_ifs
  · exact h.enter .ground
  · exact h
  · exact h.interrupt b

/-- A command to the system is taken out of its register. -/
theorem dispatchOsc (h : r.Bounded) (ending : StringEnd) : (r.dispatchOsc ending).1.Bounded := by
  rw [Registers.dispatchOsc]
  split_ifs
  · exact h.clearString
  · exact h.takeString.emit _

/-- So is a device control. -/
theorem dispatchDcs (h : r.Bounded) : r.dispatchDcs.1.Bounded := by
  rw [Registers.dispatchDcs]
  split_ifs
  · exact h.clearString
  · exact h.takeSequence.takeString.emit _

/-- The bytes of a command are counted. -/
theorem fromOsc (h : r.Bounded) (b : UInt8) : (r.fromOsc b).1.Bounded := by
  rw [Registers.fromOsc]
  split_ifs
  · exact (h.dispatchOsc .bel).enter .ground
  · exact h.enter .oscEscape
  · exact h.clearString.enter .ground
  · exact h
  · exact h.pushPayload b

/-- Behind a string the sequence registers are cleared again, whatever the string left there. -/
theorem afterString (h : r.Bounded) (b : UInt8) : (r.afterString b).1.Bounded := by
  rw [Registers.afterString]
  split_ifs
  · exact h.enter .ground
  · exact (h.enter .escape).clearSequence.fromEscape rfl b

/-- A device control may have parameters and intermediates, and no data yet. -/
theorem fromDcs (h : r.Bounded) (b : UInt8) : (r.fromDcs b).1.Bounded := by
  rw [Registers.fromDcs]
  cases hread : Decoder.readParameter? r.params b with
  | some params => exact h.readParams hread
  | none =>
      dsimp only
      split_ifs with _ _ _ hroom
      · exact { h with }
      · exact h.enter .controlString
      · exact h.finishParams.pushIntermediate hroom b
      · exact h.finishParams.enter .controlString
      · exact { h with params := h.params.finish }
      · exact h.enter .controlStringEscape
      · exact h.enter .ground
      · exact h
      · exact h.enter .controlString

/-- The bytes of the data are counted. -/
theorem fromDcsData (h : r.Bounded) (b : UInt8) : (r.fromDcsData b).1.Bounded := by
  rw [Registers.fromDcsData]
  split_ifs
  · exact h.enter .dcsEscape
  · exact h.clearString.enter .ground
  · exact h
  · exact h.pushPayload b

/-- A string that is skipped is not kept. -/
theorem fromControlString (h : r.Bounded) (b : UInt8) : (r.fromControlString b).1.Bounded := by
  rw [Registers.fromControlString]
  split_ifs
  · exact h.enter .controlStringEscape
  · exact h.enter .ground
  · exact h

/-- One byte keeps all bounds. -/
theorem step (h : r.Bounded) (hsound : r.Sound) (b : UInt8) : (r.step b).1.Bounded := by
  rw [Registers.step]
  cases hp : r.phase with
  | ground => exact h.ground b
  | escape => exact h.fromEscape (hsound.fresh (.inl hp)) b
  | escapeIntermediate => exact h.fromEscapeIntermediate b
  | csi => exact h.fromCsi (hsound.fresh (.inr hp)) b
  | csiIntermediate => exact h.fromCsiIntermediate b
  | csiIgnore => exact h.fromCsiIgnore b
  | osc => exact h.fromOsc b
  | oscEscape => exact (h.dispatchOsc .st).afterString b
  | dcs => exact h.fromDcs b
  | dcsData => exact h.fromDcsData b
  | dcsEscape => exact h.dispatchDcs.afterString b
  | controlString => exact h.fromControlString b
  | controlStringEscape => exact h.afterString b

/-! ## Runs and calls -/

/-- **A run keeps the bounds**, byte by byte. -/
theorem run (h : r.Bounded) (hsound : r.Sound) (bytes : List UInt8) :
    (Machine.run Registers.step r bytes).1.Bounded := by
  -- the bounds alone are not kept: which registers are clear has to be carried along
  have hrun : (Machine.run Registers.step r bytes).1.Sound ∧
      (Machine.run Registers.step r bytes).1.Bounded :=
    Machine.run_invariant (I := fun r : Registers => r.Sound ∧ r.Bounded)
      (fun _ b _ hr => ⟨(follows_step hr.1 b).sound, hr.2.step hr.1 b⟩) ⟨hsound, h⟩
  exact hrun.2

/-- The end of the input completes a character or a string. -/
theorem resolve (h : r.Bounded) : r.resolve.1.Bounded := by
  rw [Registers.resolve]
  split
  · exact h.dispatchOsc .st
  · exact h.dispatchOsc .st
  · exact h.dispatchDcs
  · exact h.dispatchDcs
  · exact h

/-- So the end of the input keeps the bounds. -/
theorem flush (h : r.Bounded) : r.flush.1.Bounded := by
  have hended : (if 0 < r.needed then r.endCharacter.glyph Utf8.replacement else r).Bounded := by
    split
    · exact { h with }
    · exact h
  exact { hended.resolve with }

end Bounded

/-- What holds of registers between two calls. -/
structure AtRest (r : Registers) : Prop where
  sound : r.Sound
  text : r.text = []
  bounded : r.Bounded

/-- Between calls no text is open, so a call may begin with anything. -/
theorem AtRest.call (h : r.AtRest) (c : Decoder.Call) : (r.call c).1.AtRest := by
  cases c with
  | push bytes =>
      have hmatches := matches_push h.sound h.text bytes
      exact ⟨hmatches.sound, hmatches.text, { h.bounded.run h.sound bytes with }⟩
  | flush =>
      have hmatches := matches_flush h.sound h.text
      exact ⟨hmatches.sound, hmatches.text, h.bounded.flush⟩

/-- Any calls lead to registers that are at rest within their bounds. -/
theorem atRest_run (calls : List Decoder.Call) : (Machine.run call {} calls).1.AtRest :=
  Machine.run_invariant (I := AtRest) (fun _ c _ hr => hr.call c) ⟨sound_new, rfl, bounded_new⟩

/-- **The registers stay within their bounds.**  Behind any calls, and behind any bytes of one more
    call: a string has a bounded number of bytes, and there are at most four intermediates, 32
    groups and eight slots in the open one.  Inside a sequence no text is open and no character is
    under way, and between two calls no text is open.  A character under way has begun, is not
    complete and needs four bytes at most.  So the messages of any calls keep to the bounds as well,
    and no group of theirs is empty.  The decoder makes the same messages of these calls, and is
    what the phase sees of the registers. -/
theorem registers_bounded (calls : List Decoder.Call) (bytes : List UInt8) :
    let called := Machine.run call {} calls
    let r := (Machine.run step called.1 bytes).1
    let decoded := Machine.run Decoder.call .ground calls
    (r.payload.bytes.size ≤ 1048576 ∧ r.intermediates.length ≤ 4 ∧
      r.params.groups.length ≤ 32 ∧ r.params.slots.length ≤ 8) ∧
    (r.phase ≠ .ground → r.text = [] ∧ r.needed = 0) ∧
    (0 < r.needed → 1 ≤ r.length ∧ r.length < r.needed ∧ r.needed ≤ 4) ∧
    called.1.text = [] ∧
    (∀ m ∈ called.2, m.intermediates.length ≤ 4 ∧ m.groups.length ≤ 32 ∧
      ∀ group ∈ m.groups, 1 ≤ group.length ∧ group.length ≤ 8) ∧
    called.2 = decoded.2 ∧
    r.decoder = (Machine.run Decoder.step decoded.1 bytes).1 := by
  intro called r decoded
  have hrest : called.1.AtRest := atRest_run calls
  have hcalls : Matches called decoded := matches_run sound_new rfl calls
  have hbytes := follows_run hrest.sound bytes
  have hbounded : r.Bounded := hrest.bounded.run hrest.sound bytes
  have hsound : r.Sound := hbytes.sound
  refine ⟨⟨hbounded.payload, hbounded.intermediates, hbounded.params.groups_le,
    hbounded.params.slots_le⟩, hsound.settled, ?_, hrest.text, ?_, hcalls.messages, ?_⟩
  · intro hneeded
    exact hsound.character.resolve_left (Nat.ne_of_gt hneeded)
  · -- the messages are those of the decoder, and it makes canonical ones only
    intro m hm
    rw [hcalls.messages] at hm
    have hcanonical := Decoder.canonical_calls calls m hm
    obtain ⟨hlength, hgroups⟩ := hcanonical.groups_bounded
    refine ⟨hcanonical.length_intermediates_le, hlength, ?_⟩
    intro group hgroup
    exact ⟨List.length_pos_iff.mpr (hgroups group hgroup).ne_nil, (hgroups group hgroup).length_le⟩
  · rw [← hcalls.decoder]
    exact hbytes.decoder

/-- A header with more of everything than there is room for. -/
example :
    let header := [0x1B, 0x50] ++ List.replicate 40 0x3B ++ List.replicate 12 0x3A
    let r := (Machine.run step {} header).1
    r.params.groups.length = 32 ∧ r.params.slots.length = 8 ∧
      (Machine.run step r (List.replicate 5 0x20)).1.intermediates.length = 4 := by
  decide +kernel

end Registers

end VideoTerminal
