import Mathlib.Tactic.SplitIfs
import VideoTerminal.Proofs.Registers

/-!
# Idle means fresh

The decoder in registers leaves behind whatever it has read, and still nothing of it is ever seen
again: once it is idle, it goes on like a new one.  For every register is cleared on the way to
the phases that read it.

`Registers.Sound` says which registers are clear in which phase, and `Registers.decoder` is what a
phase may see of them.  A byte keeps sound registers sound and does to the `Decoder` in them what
the `Decoder` does by itself, with the same messages (`Registers.follows_step`, from one lemma for
each phase).  By induction the same holds for a run, and for calls that push bytes or end the input
in any order.  An idle `Decoder` carries nothing at all, which is what is left of the question then.
-/

namespace VideoTerminal

namespace Decoder

/-- There is one idle decoder. -/
theorem eq_ground_of_isIdle {d : Decoder} (h : d.isIdle = true) : d = .ground :=
  of_decide_eq_true h

/-- A cancel or a substitute ends whatever is under way. -/
theorem step_cancel (d : Decoder) {b : UInt8} (hb : Byte.isCancel b = true) :
    (d.step b).1 = .ground := by
  have hb : b = 0x18 ∨ b = 0x1A := by simpa [Byte.isCancel] using hb
  rcases hb with rfl | rfl <;> cases d <;> rfl

end Decoder

namespace Registers

variable {r : Registers} {b : UInt8}

/-- What the phase may see of the registers. -/
def decoder (r : Registers) : Decoder :=
  match r.phase with
  | .ground => if 0 < r.needed then .character r.characterBytes (r.needed - r.length) else .ground
  | .escape => .escape
  | .escapeIntermediate => .escapeIntermediate r.intermediates
  | .csi => .csi r.marker r.params
  | .csiIntermediate => .csiIntermediate r.marker ⟨r.params.groups⟩ r.intermediates
  | .csiIgnore => .csiIgnore
  | .osc => .osc r.payload
  | .oscEscape => .oscEscape r.payload
  | .dcs => .dcs r.marker.isSome r.params r.intermediates
  | .dcsData => .dcsData ⟨r.params.groups⟩ r.intermediates r.final r.payload
  | .dcsEscape => .dcsEscape ⟨r.params.groups⟩ r.intermediates r.final r.payload
  | .controlString => .controlString
  | .controlStringEscape => .controlStringEscape

/-- What the phase may see is in the same phase. -/
theorem phase_decoder (r : Registers) : r.decoder.phase = r.phase := by
  unfold decoder
  split
  · split <;> simp_all [Decoder.phase]
  all_goals simp_all [Decoder.phase]

/-- Registers are idle just when what may be seen of them is. -/
theorem isIdle_decoder (r : Registers) : r.decoder.isIdle = r.isIdle := by
  unfold decoder isIdle Decoder.isIdle
  cases r.phase
  case ground =>
    by_cases h : r.needed = 0
    · simp [h]
    · simp [h, Nat.pos_of_ne_zero h]
  all_goals simp

/-- The registers that are clear, phase by phase. -/
structure Sound (r : Registers) : Prop where
  /-- A character is begun, and not complete. -/
  character : r.needed = 0 ∨ (0 < r.length ∧ r.length < r.needed ∧ r.needed ≤ 4)
  /-- Text and characters are only under way outside sequences. -/
  settled : r.phase ≠ .ground → r.text = [] ∧ r.needed = 0
  /-- Intermediates come behind an escape or parameters. -/
  fresh : r.phase = .escape ∨ r.phase = .csi → r.intermediates = []
  /-- Data come behind the header. -/
  empty : r.phase = .dcs → r.payload = {}

/-- What registers with an open run of text did is what the decoder did.  The messages of the one
and the emissions of the other come to the same in any batch that has this run. -/
structure Follows (text : List Char) (new : Registers × List Message)
    (seen : Decoder × List Emission) : Prop where
  sound : new.1.Sound
  decoder : new.1.decoder = seen.1
  batch : ∀ ms, seen.2.foldl Emission.Batch.add ⟨ms, text.reverse⟩
    = ⟨new.2.reverse ++ ms, new.1.text.reverse⟩

/-- Nothing is emitted, and the open run of text stays. -/
theorem Follows.silent {d : Decoder} {text : List Char} (h : r.Sound) (ht : r.text = text)
    (hd : r.decoder = d) : Follows text (r, []) (d, []) := by
  subst ht
  exact ⟨h, hd, fun _ => rfl⟩

/-- A message ends the open run of text and comes behind it. -/
theorem Follows.emit {d : Decoder} (m : Message) (h : { r with text := [] }.Sound)
    (hd : r.decoder = d) : Follows r.text (r.emit m) (d, [.message m]) := by
  refine ⟨h, hd, fun ms => ?_⟩
  by_cases ht : r.text = [] <;>
    simp [Registers.emit, flushText, ht, Emission.Batch.add, Emission.Batch.close]

/-- Steps follow each other as the emissions do. -/
theorem Follows.trans {text : List Char} {r₁ r₂ : Registers} {o₁ o₂ : List Message}
    {d₁ d₂ : Decoder} {es₁ es₂ : List Emission} (h₁ : Follows text (r₁, o₁) (d₁, es₁))
    (h₂ : Follows r₁.text (r₂, o₂) (d₂, es₂)) :
    Follows text (r₂, o₁ ++ o₂) (d₂, es₁ ++ es₂) := by
  refine ⟨h₂.sound, h₂.decoder, fun ms => ?_⟩
  rw [List.foldl_append, h₁.batch, h₂.batch, List.reverse_append, List.append_assoc]

/-! ## Outside sequences -/

/-- Between characters nothing may be seen of the registers. -/
theorem decoder_between (hp : r.phase = .ground) (hn : r.needed = 0) : r.decoder = .ground := by
  simp [Registers.decoder, hp, hn]

/-- Within a character its bytes are seen, and the number of those to come. -/
theorem decoder_character (hp : r.phase = .ground) (hn : 0 < r.needed) :
    r.decoder = .character r.characterBytes (r.needed - r.length) := by
  simp [Registers.decoder, hp, hn]

/-- Outside sequences nothing but a character needs to be sound. -/
theorem Sound.between (hp : r.phase = .ground) (hn : r.needed = 0) : r.Sound :=
  ⟨.inl hn, fun h => absurd hp h, by simp [hp], by simp [hp]⟩

/-- A character is sound if it is begun and not complete. -/
theorem Sound.within (hp : r.phase = .ground)
    (hn : 0 < r.length ∧ r.length < r.needed ∧ r.needed ≤ 4) : r.Sound :=
  ⟨.inr hn, fun h => absurd hp h, by simp [hp], by simp [hp]⟩

/-- A byte put behind those that have come. -/
theorem take_setIfInBounds (v : Vector UInt8 4) {n : Nat} (hn : n < 4) (b : UInt8) :
    (v.setIfInBounds n b).toList.take (n + 1) = v.toList.take n ++ [b] := by
  rw [List.take_add_one]
  simp [hn, List.take_set_of_le]

/-- A lead byte begins a character. -/
theorem follows_start (hp : r.phase = .ground) (b : UInt8) {n : Nat} (hn : 1 < n ∧ n ≤ 4) :
    Follows r.text (r.startCharacter b n, []) (.character [b] (n - 1), []) := by
  have hbytes : (r.startCharacter b n).characterBytes = [b] :=
    (take_setIfInBounds r.buffer (by decide) b).trans (by simp)
  have hd := decoder_character (r := r.startCharacter b n) hp (show 0 < n by omega)
  rw [hbytes] at hd
  exact .silent (.within hp ⟨Nat.one_pos, hn⟩) rfl hd

/-- A character that is complete joins the open run of text. -/
theorem follows_glyph (hp : r.phase = .ground) (hn : r.needed = 0) (c : Char) :
    Follows r.text (r.glyph c, []) (.ground, [.glyph c]) := by
  refine ⟨.between hp hn, decoder_between hp hn, fun ms => ?_⟩
  simp [glyph, Emission.Batch.add]

/-- A byte between characters begins one, is one, or is a control. -/
theorem follows_between (hp : r.phase = .ground) (hn : r.needed = 0) (b : UInt8) :
    Follows r.text (r.between b) (Decoder.fromGround b) := by
  have hs : { r with text := [] }.Sound := .between hp hn
  have hd := decoder_between hp hn
  rw [Registers.between, Decoder.fromGround]
  split_ifs
  · refine ⟨⟨.inl hn, fun _ => ⟨rfl, hn⟩, fun _ => rfl, nofun⟩, rfl, fun ms => ?_⟩
    by_cases ht : r.text = [] <;>
      simp [enterEscape, enter, clearSequence, flushText, ht, Emission.Batch.add,
        Emission.Batch.close]
  · exact .emit _ hs hd
  · exact follows_glyph hp hn _
  · exact follows_start hp b (by decide)
  · exact follows_start hp b (by decide)
  · exact follows_start hp b (by decide)
  · exact follows_glyph hp hn _

/-- A byte within a character goes on with it, or breaks it off and is read anew. -/
theorem follows_character (h : r.Sound) (hp : r.phase = .ground) (hn : 0 < r.needed) (b : UInt8) :
    Follows r.text (r.fromCharacter b)
      (Decoder.fromCharacter r.characterBytes (r.needed - r.length) b) := by
  obtain hn' | ⟨hpos, hlt, hle⟩ := h.character
  · omega
  have hbytes : (r.continueCharacter b).characterBytes = r.characterBytes ++ [b] :=
    take_setIfInBounds r.buffer (show r.length < 4 by omega) b
  rw [Registers.fromCharacter, Decoder.fromCharacter]
  dsimp only
  rw [hbytes]
  split_ifs with hc hlast hmissing hmissing
  · exact follows_glyph (r := (r.continueCharacter b).endCharacter) hp rfl _
  · exact absurd (show r.length + 1 = r.needed from hlast) (by omega)
  · exact absurd (show r.length + 1 ≠ r.needed from hlast) (by omega)
  · have hlt : r.length + 1 < r.needed := by
      have : r.length + 1 ≠ r.needed := hlast
      omega
    have hd := decoder_character (r := r.continueCharacter b) hp hn
    rw [hbytes] at hd
    exact .silent (.within hp ⟨Nat.succ_pos _, hlt, hle⟩) rfl hd
  · exact .trans (follows_glyph (r := r.endCharacter) hp rfl Utf8.replacement)
      (follows_between (r := r.endCharacter.glyph _) hp rfl b)

/-- A byte outside sequences. -/
theorem follows_ground (h : r.Sound) (hp : r.phase = .ground) (b : UInt8) :
    Follows r.text (r.ground b) (r.decoder.step b) := by
  rw [Registers.ground]
  split_ifs with hn
  · rw [decoder_character hp hn]
    exact follows_character h hp hn b
  · have hn : r.needed = 0 := by omega
    rw [decoder_between hp hn]
    exact follows_between hp hn b

/-! ## Inside sequences -/

/-- Nothing is under way but the sequence itself. -/
structure Alone (r : Registers) : Prop where
  text : r.text = []
  needed : r.needed = 0

/-- Within a sequence no text is open and no character is under way. -/
theorem Sound.alone (h : r.Sound) (hp : r.phase ≠ .ground) : r.Alone :=
  ⟨(h.settled hp).1, (h.settled hp).2⟩

/-- Registers without text or character are sound if what the phase has not come to is clear. -/
theorem Alone.sound (h : r.Alone) (hf : r.phase = .escape ∨ r.phase = .csi → r.intermediates = [])
    (he : r.phase = .dcs → r.payload = {}) : r.Sound :=
  ⟨.inl h.needed, fun _ => ⟨h.text, h.needed⟩, hf, he⟩

/-- Within a sequence nothing need be emitted. -/
theorem Alone.silent {d : Decoder} (h : r.Alone)
    (hf : r.phase = .escape ∨ r.phase = .csi → r.intermediates = [])
    (he : r.phase = .dcs → r.payload = {}) (hd : r.decoder = d) : Follows [] (r, []) (d, []) :=
  .silent (h.sound hf he) h.text hd

/-- A change of phase opens no text. -/
theorem Alone.enter (h : r.Alone) (p : Phase) : (r.enter p).Alone := ⟨h.text, h.needed⟩

/-- The end of a sequence without a message. -/
theorem Alone.ground (h : r.Alone) : Follows [] (r.enter .ground, []) (.ground, []) :=
  (h.enter .ground).silent nofun nofun (decoder_between rfl h.needed)

/-- A message inside a sequence comes alone. -/
theorem Alone.emit_eq (h : r.Alone) (m : Message) : r.emit m = (r, [m]) := by
  have hr : { r with text := [] } = r := by rw [← h.text]
  simp [emit, flushText, h.text, hr]

/-- Within a sequence a message stands alone, as there is no text before it. -/
theorem Alone.message {d : Decoder} (h : r.Alone)
    (hf : r.phase = .escape ∨ r.phase = .csi → r.intermediates = [])
    (he : r.phase = .dcs → r.payload = {}) (hd : r.decoder = d) (m : Message) :
    Follows [] (r, [m]) (d, [.message m]) := by
  refine ⟨h.sound hf he, hd, fun ms => ?_⟩
  simp [h.text, Emission.Batch.add, Emission.Batch.close]

/-- A message that ends a sequence. -/
theorem Alone.endWith (h : r.Alone) (m : Message) :
    Follows [] (r.enter .ground, [m]) (.ground, [.message m]) :=
  (h.enter .ground).message nofun nofun (decoder_between rfl h.needed) m

/-- A byte that has no place in a sequence breaks it off, or is a control that acts at once. -/
theorem follows_interrupt {d : Decoder} (h : r.Sound) (hp : r.phase ≠ .ground)
    (hd : r.decoder = d) (b : UInt8) :
    Follows [] (r.interrupt b) (Decoder.interrupt d b) := by
  have ha := h.alone hp
  rw [interrupt, Decoder.interrupt]
  split_ifs
  · exact Alone.silent (r := r.enterEscape) ⟨ha.text, ha.needed⟩ (fun _ => rfl) nofun rfl
  · exact ha.ground
  · rw [ha.emit_eq]
    exact ha.message h.fresh h.empty hd _
  · exact ha.silent h.fresh h.empty hd
  · rw [ground, if_neg (by simp [enter, ha.needed]), ← ha.text]
    exact follows_between (r := r.enter .ground) rfl ha.needed b

/-- A byte behind an escape.  The intermediates are clear, since the escape has cleared them. -/
theorem follows_fromEscape (h : r.Sound) (hp : r.phase = .escape) (b : UInt8) :
    Follows [] (r.fromEscape b) (Decoder.fromEscape b) := by
  have ha := h.alone (by simp [hp])
  have hi := h.fresh (.inl hp)
  rw [fromEscape, Decoder.fromEscape]
  split_ifs
  · exact Alone.silent ⟨ha.text, ha.needed⟩ (fun _ => rfl) nofun rfl
  · exact Alone.silent ⟨ha.text, ha.needed⟩ nofun nofun rfl
  · exact Alone.silent ⟨ha.text, ha.needed⟩ nofun (fun _ => rfl) rfl
  · exact (ha.enter .controlString).silent nofun nofun rfl
  · exact Alone.silent ⟨ha.text, ha.needed⟩ nofun nofun (by simp [decoder, enter, hi])
  · exact ha.endWith _
  · exact follows_interrupt h (by simp [hp]) (by simp [decoder, hp]) b

/-- A byte behind an escape and its intermediates. -/
theorem follows_fromEscapeIntermediate (h : r.Sound) (hp : r.phase = .escapeIntermediate)
    (b : UInt8) :
    Follows [] (r.fromEscapeIntermediate b) (Decoder.fromEscapeIntermediate r.intermediates b) := by
  have ha := h.alone (by simp [hp])
  rw [fromEscapeIntermediate, Decoder.fromEscapeIntermediate]
  split_ifs
  · exact Alone.silent ⟨ha.text, ha.needed⟩ (by simp [hp]) (by simp [hp]) (by simp [decoder, hp])
  · exact Alone.endWith (r := { r with intermediates := [] }) ⟨ha.text, ha.needed⟩ _
  · exact follows_interrupt h (by simp [hp]) (by simp [decoder, hp]) b

/-- A control sequence is complete. -/
theorem follows_dispatchCsi (h : r.Alone) (b : UInt8) :
    Follows [] (r.dispatchCsi b)
      (.ground, [.message (.ofControlSequence r.marker ⟨r.params.groups⟩ r.intermediates b)]) := by
  have htaken : r.takeSequence.Alone := ⟨h.text, h.needed⟩
  rw [dispatchCsi, (htaken.enter .ground).emit_eq]
  exact htaken.endWith _

/-- A byte among the parameters.  The intermediates are clear, since the introducer has cleared
    them. -/
theorem follows_fromCsi (h : r.Sound) (hp : r.phase = .csi) (b : UInt8) :
    Follows [] (r.fromCsi b) (Decoder.fromCsi r.marker r.params b) := by
  have ha := h.alone (by simp [hp])
  have hi := h.fresh (.inr hp)
  rw [fromCsi, Decoder.fromCsi]
  cases Decoder.readParameter? r.params b with
  | some params =>
      exact Alone.silent ⟨ha.text, ha.needed⟩ (fun _ => hi) (by simp [hp]) (by simp [decoder, hp])
  | none =>
      dsimp only
      split_ifs
      · exact Alone.silent ⟨ha.text, ha.needed⟩ (fun _ => hi) (by simp [hp]) (by simp [decoder, hp])
      · exact (ha.enter .csiIgnore).silent nofun nofun rfl
      · exact Alone.silent ⟨ha.text, ha.needed⟩ nofun nofun
          (by simp [decoder, enter, hi, ParamReader.params])
      · rw [← hi]
        exact follows_dispatchCsi (r := { r with params := r.params.finish }) ⟨ha.text, ha.needed⟩ b
      · exact follows_interrupt h (by simp [hp]) (by simp [decoder, hp]) b

/-- A byte behind the parameters. -/
theorem follows_fromCsiIntermediate (h : r.Sound) (hp : r.phase = .csiIntermediate) (b : UInt8) :
    Follows [] (r.fromCsiIntermediate b)
      (Decoder.fromCsiIntermediate r.marker ⟨r.params.groups⟩ r.intermediates b) := by
  have ha := h.alone (by simp [hp])
  rw [fromCsiIntermediate, Decoder.fromCsiIntermediate]
  split_ifs
  · exact Alone.silent ⟨ha.text, ha.needed⟩ (by simp [hp]) (by simp [hp]) (by simp [decoder, hp])
  · exact (ha.enter .csiIgnore).silent nofun nofun rfl
  · exact (ha.enter .csiIgnore).silent nofun nofun rfl
  · exact follows_dispatchCsi ha b
  · exact follows_interrupt h (by simp [hp]) (by simp [decoder, hp]) b

/-- A byte of a sequence that is ignored. -/
theorem follows_fromCsiIgnore (h : r.Sound) (hp : r.phase = .csiIgnore) (b : UInt8) :
    Follows [] (r.fromCsiIgnore b) (Decoder.fromCsiIgnore b) := by
  have ha := h.alone (by simp [hp])
  have hd : r.decoder = .csiIgnore := by simp [decoder, hp]
  rw [fromCsiIgnore, Decoder.fromCsiIgnore]
  split_ifs
  · exact ha.ground
  · exact ha.silent h.fresh h.empty hd
  · exact follows_interrupt h (by simp [hp]) hd b

/-! ## Strings -/

/-- Messages that come by themselves, in front of what follows. -/
theorem Follows.behind {d : Decoder} {out : List Message} {es : List Emission} (ms : List Message)
    (h : Follows [] (r, out) (d, es)) :
    Follows [] (r, ms ++ out) (d, ms.map .message ++ es) := by
  refine ⟨h.sound, h.decoder, fun before => ?_⟩
  have hout := h.batch (ms.reverse ++ before)
  rw [List.reverse_nil] at hout
  rw [List.foldl_append, List.reverse_nil, Emission.foldl_add_messages, hout, List.reverse_append,
    List.append_assoc]

/-- What is dispatched at the end of a command to the system is what its payload says. -/
theorem dispatchOsc_eq (h : r.Alone) (ending : StringEnd) :
    (r.dispatchOsc ending).1.Alone ∧
    Decoder.finishOsc r.payload ending = (r.dispatchOsc ending).2.map .message := by
  have htaken : r.takeString.Alone := ⟨h.text, h.needed⟩
  rw [dispatchOsc, Decoder.finishOsc]
  split_ifs
  · exact ⟨⟨h.text, h.needed⟩, rfl⟩
  · rw [htaken.emit_eq]
    exact ⟨htaken, rfl⟩

/-- What is dispatched at the end of a device control is what header and payload say. -/
theorem dispatchDcs_eq (h : r.Alone) :
    r.dispatchDcs.1.Alone ∧
    Decoder.finishDcs ⟨r.params.groups⟩ r.intermediates r.final r.payload
      = r.dispatchDcs.2.map .message := by
  have htaken : r.takeSequence.takeString.Alone := ⟨h.text, h.needed⟩
  rw [dispatchDcs, Decoder.finishDcs]
  split_ifs
  · exact ⟨⟨h.text, h.needed⟩, rfl⟩
  · rw [htaken.emit_eq]
    exact ⟨htaken, rfl⟩

/-- A command to the system ends, with or without a message. -/
theorem follows_endOsc (h : r.Alone) (ending : StringEnd) :
    Follows [] ((r.dispatchOsc ending).1.enter .ground, (r.dispatchOsc ending).2)
      (.ground, Decoder.finishOsc r.payload ending) := by
  obtain ⟨hend, hout⟩ := dispatchOsc_eq h ending
  have hfollows := hend.ground.behind (r.dispatchOsc ending).2
  rwa [List.append_nil, List.append_nil, ← hout] at hfollows

/-- A device control ends in the same way. -/
theorem follows_endDcs (h : r.Alone) :
    Follows [] (r.dispatchDcs.1.enter .ground, r.dispatchDcs.2)
      (.ground, Decoder.finishDcs ⟨r.params.groups⟩ r.intermediates r.final r.payload) := by
  obtain ⟨hend, hout⟩ := dispatchDcs_eq h
  have hfollows := hend.ground.behind r.dispatchDcs.2
  rwa [List.append_nil, List.append_nil, ← hout] at hfollows

/-- An escape behind a string enters a sequence whose registers are clear, whatever is left. -/
theorem follows_afterString (h : r.Alone) (b : UInt8) :
    Follows [] (r.afterString b) (Decoder.afterString b) := by
  rw [afterString, Decoder.afterString]
  split_ifs
  · exact h.ground
  · exact follows_fromEscape (r := r.enterEscape)
      (Alone.sound ⟨h.text, h.needed⟩ (fun _ => rfl) nofun) rfl b

/-- A byte of a command to the system. -/
theorem follows_fromOsc (h : r.Sound) (hp : r.phase = .osc) (b : UInt8) :
    Follows [] (r.fromOsc b) (Decoder.fromOsc r.payload b) := by
  have ha := h.alone (by simp [hp])
  rw [fromOsc, Decoder.fromOsc]
  split_ifs
  · exact follows_endOsc ha .bel
  · exact (ha.enter .oscEscape).silent nofun nofun rfl
  · exact Alone.ground (r := r.clearString) ⟨ha.text, ha.needed⟩
  · exact ha.silent h.fresh h.empty (by simp [decoder, hp])
  · exact Alone.silent ⟨ha.text, ha.needed⟩ (by simp [hp]) (by simp [hp]) (by simp [decoder, hp])

/-- A byte behind an escape in such a command, which ends the command or was the end of it. -/
theorem follows_fromOscEscape (h : r.Alone) (b : UInt8) :
    Follows [] (r.fromOscEscape b) (Decoder.fromOscEscape r.payload b) := by
  obtain ⟨hend, hout⟩ := dispatchOsc_eq h .st
  rw [fromOscEscape, Decoder.fromOscEscape, hout]
  exact (follows_afterString hend b).behind _

/-- A byte of the header of a device control.  The payload is clear, since no data have come. -/
theorem follows_fromDcs (h : r.Sound) (hp : r.phase = .dcs) (b : UInt8) :
    Follows [] (r.fromDcs b) (Decoder.fromDcs r.marker.isSome r.params r.intermediates b) := by
  have ha := h.alone (by simp [hp])
  have he := h.empty hp
  have hm : (!r.marker.isSome) = r.marker.isNone := by cases r.marker <;> rfl
  rw [fromDcs, Decoder.fromDcs, hm]
  cases Decoder.readParameter? r.params b with
  | some params =>
      exact Alone.silent ⟨ha.text, ha.needed⟩ (by simp [hp]) (fun _ => he) (by simp [decoder, hp])
  | none =>
      dsimp only
      split_ifs
      · exact Alone.silent ⟨ha.text, ha.needed⟩ (by simp [hp]) (fun _ => he) (by simp [decoder, hp])
      · exact (ha.enter .controlString).silent nofun nofun rfl
      · exact Alone.silent ⟨ha.text, ha.needed⟩ (by simp [hp]) (fun _ => he) (by simp [decoder, hp])
      · exact Alone.silent ⟨ha.text, ha.needed⟩ nofun nofun rfl
      · exact Alone.silent ⟨ha.text, ha.needed⟩ nofun nofun
          (by simp [decoder, enter, he, ParamReader.params])
      · exact (ha.enter .controlStringEscape).silent nofun nofun rfl
      · exact ha.ground
      · exact ha.silent h.fresh h.empty (by simp [decoder, hp])
      · exact (ha.enter .controlString).silent nofun nofun rfl

/-- A byte of the data of a device control. -/
theorem follows_fromDcsData (h : r.Sound) (hp : r.phase = .dcsData) (b : UInt8) :
    Follows [] (r.fromDcsData b)
      (Decoder.fromDcsData ⟨r.params.groups⟩ r.intermediates r.final r.payload b) := by
  have ha := h.alone (by simp [hp])
  rw [fromDcsData, Decoder.fromDcsData]
  split_ifs
  · exact (ha.enter .dcsEscape).silent nofun nofun rfl
  · exact Alone.ground (r := r.clearString) ⟨ha.text, ha.needed⟩
  · exact ha.silent h.fresh h.empty (by simp [decoder, hp])
  · exact Alone.silent ⟨ha.text, ha.needed⟩ (by simp [hp]) (by simp [hp]) (by simp [decoder, hp])

/-- A byte behind an escape among the data. -/
theorem follows_fromDcsEscape (h : r.Alone) (b : UInt8) :
    Follows [] (r.fromDcsEscape b)
      (Decoder.fromDcsEscape ⟨r.params.groups⟩ r.intermediates r.final r.payload b) := by
  obtain ⟨hend, hout⟩ := dispatchDcs_eq h
  rw [fromDcsEscape, Decoder.fromDcsEscape, hout]
  exact (follows_afterString hend b).behind _

/-- A byte of a string that is skipped. -/
theorem follows_fromControlString (h : r.Sound) (hp : r.phase = .controlString) (b : UInt8) :
    Follows [] (r.fromControlString b) (Decoder.fromControlString b) := by
  have ha := h.alone (by simp [hp])
  rw [fromControlString, Decoder.fromControlString]
  split_ifs
  · exact (ha.enter .controlStringEscape).silent nofun nofun rfl
  · exact ha.ground
  · exact ha.silent h.fresh h.empty (by simp [decoder, hp])

/-! ## Steps, runs and calls -/

/-- A byte does to sound registers what it does to the decoder that the phase sees in them. -/
theorem follows_step (h : r.Sound) (b : UInt8) :
    Follows r.text (r.step b) (r.decoder.step b) := by
  by_cases hg : r.phase = .ground
  · rw [step, hg]
    exact follows_ground h hg b
  · have ha := h.alone hg
    rw [ha.text]
    unfold step decoder
    cases hp : r.phase with
    | ground => exact absurd hp hg
    | escape => exact follows_fromEscape h hp b
    | escapeIntermediate => exact follows_fromEscapeIntermediate h hp b
    | csi => exact follows_fromCsi h hp b
    | csiIntermediate => exact follows_fromCsiIntermediate h hp b
    | csiIgnore => exact follows_fromCsiIgnore h hp b
    | osc => exact follows_fromOsc h hp b
    | oscEscape => exact follows_fromOscEscape ha b
    | dcs => exact follows_fromDcs h hp b
    | dcsData => exact follows_fromDcsData h hp b
    | dcsEscape => exact follows_fromDcsEscape ha b
    | controlString => exact follows_fromControlString h hp b
    | controlStringEscape => exact follows_afterString ha b

/-- **A run in registers** does what the run of the decoder in them does. -/
theorem follows_run (h : r.Sound) (bytes : List UInt8) :
    Follows r.text (Machine.run step r bytes) (Machine.run Decoder.step r.decoder bytes) := by
  induction bytes generalizing r with
  | nil => exact .silent h rfl rfl
  | cons b bytes ih =>
      have hstep := follows_step h b
      have hrest := ih hstep.sound
      rw [hstep.decoder] at hrest
      exact hstep.trans hrest

/-- What a call did to registers without an open run of text is what it did to the decoder. -/
structure Matches (new : Registers × List Message) (seen : Decoder × List Message) : Prop where
  sound : new.1.Sound
  text : new.1.text = []
  decoder : new.1.decoder = seen.1
  messages : new.2 = seen.2

/-- What matches is in the same phase. -/
theorem Matches.phase {new : Registers × List Message} {seen : Decoder × List Message}
    (h : Matches new seen) : new.1.phase = seen.1.phase := by
  rw [← phase_decoder, h.decoder]

/-- What matches is idle on both sides or on neither. -/
theorem Matches.isIdle {new : Registers × List Message} {seen : Decoder × List Message}
    (h : Matches new seen) : new.1.isIdle = seen.1.isIdle := by
  rw [← isIdle_decoder, h.decoder]

/-- The open run of text is closed on both sides. -/
theorem Follows.close {text : List Char} {out : List Message} {d : Decoder} {es : List Emission}
    (h : Follows text (r, out) (d, es)) (hopen : text = []) :
    Matches (r.flushText.1, out ++ r.flushText.2) (d, Emission.batch es.toArray) := by
  refine ⟨⟨h.sound.character, ?_, h.sound.fresh, h.sound.empty⟩, rfl, h.decoder, ?_⟩
  · exact fun hp => ⟨rfl, (h.sound.settled hp).2⟩
  · have hbatch := h.batch []
    rw [hopen, List.reverse_nil, List.append_nil] at hbatch
    show out ++ r.flushText.2 = _
    rw [Emission.batch, List.foldl_toArray, hbatch, Emission.Batch.close, flushText]
    dsimp only
    by_cases ht : r.text = [] <;> simp [ht]

/-- A push ends the open run of text, so the messages are the same. -/
theorem matches_push (h : r.Sound) (ht : r.text = []) (bytes : List UInt8) :
    Matches (r.push bytes) (r.decoder.push bytes) := by
  rw [Decoder.push_eq_run]
  exact (follows_run h bytes).close ht

/-- The end of the input completes the same on both sides. -/
theorem follows_resolve (h : r.Alone) :
    Follows [] (r.resolve.1.enter .ground, r.resolve.2) (.ground, r.decoder.resolve) := by
  cases hp : r.phase with
  | ground =>
      rw [decoder_between hp h.needed]
      simpa [resolve, hp, Decoder.resolve] using h.ground
  | osc | oscEscape => simpa [resolve, hp, decoder, Decoder.resolve] using follows_endOsc h .st
  | dcsData | dcsEscape => simpa [resolve, hp, decoder, Decoder.resolve] using follows_endDcs h
  | _ => simpa [resolve, hp, decoder, Decoder.resolve] using h.ground

/-- Entering the phase one is in changes nothing. -/
theorem enter_of_phase {p : Phase} (hp : r.phase = p) : r.enter p = r := by
  rw [enter, ← hp]

/-- The end of the input gives the same messages. -/
theorem matches_flush (h : r.Sound) (ht : r.text = []) : Matches r.flush r.decoder.flush := by
  by_cases hn : 0 < r.needed
  · -- a character is under way, and so no sequence is
    have hp : r.phase = .ground := Decidable.of_not_not fun hp => by
      have hnone := (h.settled hp).2
      omega
    have hclose := (follows_glyph (r := r.endCharacter) hp rfl Utf8.replacement).close ht
    have hp' : (r.endCharacter.glyph Utf8.replacement).phase = .ground := hp
    have hresolve : (r.endCharacter.glyph Utf8.replacement).resolve
        = (r.endCharacter.glyph Utf8.replacement, []) := by
      rw [resolve, hp']
    rw [flush, if_pos hn]
    dsimp only
    rw [hresolve, enter_of_phase hp', decoder_character hp hn]
    exact hclose
  · have halone : r.Alone := ⟨ht, by omega⟩
    have hclose := (follows_resolve halone).close rfl
    rw [flush, if_neg hn]
    exact hclose

/-- Calls in a row give the same messages. -/
theorem matches_run (h : r.Sound) (ht : r.text = []) (calls : List Decoder.Call) :
    Matches (Machine.run call r calls) (Machine.run Decoder.call r.decoder calls) := by
  induction calls generalizing r with
  | nil => exact ⟨h, ht, rfl, rfl⟩
  | cons c calls ih =>
      have hcall : Matches (r.call c) (r.decoder.call c) := by
        cases c with
        | push bytes => exact matches_push h ht bytes
        | flush => exact matches_flush h ht
      have hrest := ih hcall.sound hcall.text
      rw [hcall.decoder] at hrest
      refine ⟨hrest.sound, hrest.text, hrest.decoder, ?_⟩
      rw [Machine.run_cons, Machine.run_cons, hcall.messages, hrest.messages]

/-- New registers are clear. -/
theorem sound_new : Sound {} := .between rfl rfl

/-- **Idle means fresh.**  Behind any calls, registers that are idle go on like new ones, with the
    same messages, the same phase and idle again at the same points; and whatever is under way, a
    cancel, a substitute or the end of the input makes them idle.  The decoder itself has been
    through the same calls with the same messages, and the same is true of it. -/
theorem run_resynchronizes (calls : List Decoder.Call) :
    let r := (Machine.run call {} calls).1
    let d := (Machine.run Decoder.call .ground calls).1
    (r.isIdle = true → ∀ bytes,
      (r.push bytes).2 = (push {} bytes).2 ∧
      (r.push bytes).1.phase = (push {} bytes).1.phase ∧
      (r.push bytes).1.isIdle = (push {} bytes).1.isIdle) ∧
    (∀ b, Byte.isCancel b = true → (r.push [b]).1.isIdle = true) ∧
    r.flush.1.isIdle = true ∧
    (Machine.run call {} calls).2 = (Machine.run Decoder.call .ground calls).2 ∧
    (r.phase = d.phase ∧ r.isIdle = d.isIdle) ∧
    (d.isIdle = true → ∀ bytes, d.push bytes = Decoder.ground.push bytes) ∧
    (∀ b, Byte.isCancel b = true → (d.push [b]).1.isIdle = true) ∧
    d.flush.1.isIdle = true := by
  intro r d
  have h : Matches (Machine.run call {} calls) (Machine.run Decoder.call .ground calls) :=
    matches_run sound_new rfl calls
  have hd : r.decoder = d := h.decoder
  have hpush : ∀ bytes, Matches (r.push bytes) (d.push bytes) := hd ▸ matches_push h.sound h.text
  have hflush : Matches r.flush d.flush := hd ▸ matches_flush h.sound h.text
  have hcancel : ∀ b, Byte.isCancel b = true → (d.push [b]).1.isIdle = true := by
    intro b hb
    rw [Decoder.push_eq_run, Machine.run_singleton, Decoder.step_cancel d hb]
    rfl
  refine ⟨?_, ?_, hflush.isIdle, h.messages, ⟨h.phase, h.isIdle⟩, ?_, hcancel, rfl⟩
  · -- both go on like a decoder between two units
    intro hidle bytes
    rw [h.isIdle] at hidle
    have hstale := hpush bytes
    have hnew : Matches (push {} bytes) (Decoder.ground.push bytes) :=
      matches_push sound_new rfl bytes
    rw [← Decoder.eq_ground_of_isIdle hidle] at hnew
    exact ⟨hstale.messages.trans hnew.messages.symm, hstale.phase.trans hnew.phase.symm,
      hstale.isIdle.trans hnew.isIdle.symm⟩
  · intro b hb
    rw [(hpush [b]).isIdle]
    exact hcancel b hb
  · intro hidle bytes
    rw [Decoder.eq_ground_of_isIdle hidle]

/-- A marker and numbers of an abandoned sequence, data of an abandoned string and the first byte
    of a character stay behind; a plain sequence is read like the first one nevertheless. -/
theorem run_resynchronizes_stale :
    let r := (Machine.run call {} [.push [0x1B, 0x50, 0x31, 0x71, 0x61, 0x1B], .flush,
      .push [0x1B, 0x5B, 0x3F, 0x31, 0x3B, 0x18, 0xE2], .flush]).1
    r.isIdle = true ∧ (r.marker = some 0x3F ∧ r.params ≠ {} ∧ r.final = 0x71) ∧
    (r.push [0x1B, 0x5B, 0x6D]).2 = [.sgr ⟨[]⟩] := by
  refine ⟨by decide, by decide, ?_⟩
  obtain ⟨hfresh, _⟩ := run_resynchronizes
    [.push [0x1B, 0x50, 0x31, 0x71, 0x61, 0x1B], .flush,
      .push [0x1B, 0x5B, 0x3F, 0x31, 0x3B, 0x18, 0xE2], .flush]
  rw [(hfresh (by decide) [0x1B, 0x5B, 0x6D]).1]
  decide

end Registers

end VideoTerminal
