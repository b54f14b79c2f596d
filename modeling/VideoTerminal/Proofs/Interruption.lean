import VideoTerminal.Proofs.Pieces
import VideoTerminal.Proofs.RoundTrip
import VideoTerminal.Proofs.ShownScreen

/-!
# A control sequence in the middle of anything

The introducer of a control sequence is recognized wherever the stream stands.  What was under way
is ended by it as by the end of the input: a string is given out, a character is replaced, and any
other sequence is dropped.  The rest of the sequence then finds the decoder as it is behind an
introducer between two units.

So a switch of a private mode acts on the terminal that the interruption leaves, and this one
differs from the terminal before in no screen, unless a character was under way.
-/

namespace VideoTerminal

/-- The sequence that switches a private mode. -/
def Message.switchMode (mode : Nat) (on : Bool) : Message :=
  .csi (some 0x3F) ⟨[[some mode]]⟩ [] (if on then 0x68 else 0x6C)

theorem Terminal.apply_switchMode (t : Terminal) (mode : Nat) (on : Bool) :
    t.apply (.switchMode mode on) = (t.setPrivateMode mode on, []) := by
  cases on <;> rfl

namespace Decoder

/-- Whether a character is under way. -/
def isInCharacter : Decoder → Bool
  | .character _ _ => true
  | _ => false

/-- An escape interrupts whatever is under way, and completes of it what the end of the input would.
    The byte behind it is then taken as behind any escape, unless it would end a string. -/
theorem run_interrupting (d : Decoder) {b : UInt8} (hb : b ≠ Byte.backslash) :
    ∃ cuts : List Emission, (∀ e ∈ cuts, e = .cut) ∧
      Machine.run step d [Byte.escape, b]
        = ((fromEscape b).1, d.resolve ++ cuts ++ (fromEscape b).2) := by
  have hescape : ∀ os, step d Byte.escape = (.escape, os) →
      Machine.run step d [Byte.escape, b] = ((fromEscape b).1, os ++ (fromEscape b).2) := by
    intro os hstep
    rw [Machine.run_cons, hstep, Machine.run_singleton]
    rfl
  -- in a string the escape may begin its end, and the byte behind it shows that it does not
  have hstring : Machine.run step d [Byte.escape, b]
        = ((afterString b).1, d.resolve ++ (afterString b).2 ++ []) →
      Machine.run step d [Byte.escape, b]
        = ((fromEscape b).1, d.resolve ++ [] ++ (fromEscape b).2) := by
    intro hrun
    rwa [afterString, if_neg hb, List.append_nil, ← List.append_nil d.resolve] at hrun
  cases d with
  | ground => exact ⟨[.cut], by simp, hescape [.cut] rfl⟩
  | character bytes missing =>
      exact ⟨[.cut], by simp, hescape [.glyph Utf8.replacement, .cut] rfl⟩
  | osc p | dcsData params is final p | dcs marked params is | controlString =>
      exact ⟨[], by simp, hstring rfl⟩
  | _ => exact ⟨[], by simp, hescape _ rfl⟩

theorem mem_resolve {d : Decoder} {e : Emission} (h : e ∈ d.resolve) :
    (e = .glyph Utf8.replacement ∧ d.isInCharacter = true) ∨
    (∃ code data ending, e = .message (.osc code data ending)) ∨
    (∃ params is final data, e = .message (.dcs params is final data)) := by
  have hosc : ∀ p, e ∈ finishOsc p .st →
      ∃ code data ending, e = .message (.osc code data ending) := by
    intro p he
    rw [finishOsc] at he
    split at he
    · exact absurd he List.not_mem_nil
    · rw [List.mem_singleton.mp he, Message.ofSystemCommand]
      dsimp only
      split <;> exact ⟨_, _, _, rfl⟩
  have hdcs : ∀ params is final p, e ∈ finishDcs params is final p →
      ∃ params is final data, e = .message (.dcs params is final data) := by
    intro params is final p he
    rw [finishDcs] at he
    split at he
    · exact absurd he List.not_mem_nil
    · exact ⟨_, _, _, _, List.mem_singleton.mp he⟩
  cases d with
  | character bytes missing => exact .inl ⟨List.mem_singleton.mp h, rfl⟩
  | osc p | oscEscape p => exact .inr (.inl (hosc p h))
  | dcsData params is final p | dcsEscape params is final p =>
      exact .inr (.inr (hdcs params is final p h))
  | _ => exact absurd h List.not_mem_nil

/-- Behind the introducer the rest of a sequence completes it. -/
theorem run_switchMode {mode : Nat} (hmode : mode ≤ Params.maxValue) (on : Bool) :
    ∃ rest, (Message.switchMode mode on).encode = [Byte.escape, 0x5B] ++ rest ∧
      Machine.run step (.csi none {}) rest = (.ground, [.message (.switchMode mode on)]) := by
  have hcanonical : (Message.switchMode mode on).Canonical := by
    refine .csi ?_ ⟨Nat.le_of_ble_eq_true rfl, ?_, by simp⟩ .nil ?_ ?_
    · intro b hb
      rw [← Option.some.inj hb]
      rfl
    · intro group hgroup
      rw [List.mem_singleton.mp hgroup]
      exact ⟨by simp, Nat.le_of_ble_eq_true rfl, by simpa using hmode⟩
    · cases on <;> rfl
    · cases on <;> decide
  have hrun := run_encode hcanonical nofun
  have hopen : Machine.run step .ground [Byte.escape, 0x5B] = (.csi none {}, [.cut]) := rfl
  refine ⟨(Message.switchMode mode on).encode.drop 2, rfl, ?_⟩
  have hsplit : (Message.switchMode mode on).encode
      = [Byte.escape, 0x5B] ++ (Message.switchMode mode on).encode.drop 2 := rfl
  rw [hsplit, Machine.run_append, hopen] at hrun
  obtain ⟨hground, hout⟩ := Prod.mk.inj hrun
  exact Prod.ext hground (List.cons.inj hout).2

end Decoder

namespace Terminal

/-- Cuts leave the terminal alone. -/
theorem run_absorb_cuts (t : Terminal) {cuts : List Emission} (h : ∀ e ∈ cuts, e = .cut) :
    (Machine.run absorb t cuts).1 = t := by
  refine Machine.run_invariant (I := (· = t)) ?_ rfl
  intro u e he hu
  rw [h e he]
  exact hu

/-- What is completed when nothing more comes keeps what printing and system commands keep. -/
theorem Blind.absorb_resolve {I : Terminal → Prop} (hI : Blind I)
    (hcommand : ∀ {t u : Terminal}, t.SameScreens u → I t → I u) {t : Terminal} (h : I t)
    (d : Decoder) : I (Machine.run absorb t d.resolve).1 := by
  refine Machine.run_invariant ?_ h
  intro u e he hu
  rcases Decoder.mem_resolve he with ⟨rfl, -⟩ | ⟨code, data, ending, rfl⟩ |
    ⟨params, is, final, data, rfl⟩
  · exact hI.print hu _
  · exact hcommand (sameScreens_applyCommand u _ ending) hu
  · exact hu

/-- Without a character under way nothing is printed. -/
theorem sameScreens_absorb_resolve (t : Terminal) {d : Decoder}
    (hd : d.isInCharacter = false) :
    t.SameScreens (Machine.run absorb t d.resolve).1 := by
  refine Machine.run_invariant (I := t.SameScreens) ?_ (.refl t)
  intro u e he hu
  rcases Decoder.mem_resolve he with ⟨-, hd'⟩ | ⟨code, data, ending, rfl⟩ |
    ⟨params, is, final, data, rfl⟩
  · rw [hd] at hd'
    exact Bool.noConfusion hd'
  · exact hu.trans (sameScreens_applyCommand u _ ending)
  · exact hu

end Terminal

namespace Emulator

/-- The terminal that is left when whatever was under way has been interrupted. -/
def interrupted (e : Emulator) : Terminal :=
  (Machine.run Terminal.absorb e.terminal e.decoder.resolve).1

/-- What a byte behind an escape completes acts on the interrupted terminal. -/
theorem write_interrupting (e : Emulator) {b : UInt8} (hb : b ≠ Byte.backslash) :
    (e.write [Byte.escape, b]).decoder = (Decoder.fromEscape b).1 ∧
    (e.write [Byte.escape, b]).terminal
      = (Machine.run Terminal.absorb e.interrupted (Decoder.fromEscape b).2).1 := by
  obtain ⟨cuts, hcuts, hrun⟩ := e.decoder.run_interrupting hb
  rw [write_decoder, write_terminal, digest, hrun, Machine.run_append, Machine.run_append]
  rw [Terminal.run_absorb_cuts _ hcuts]
  exact ⟨rfl, rfl⟩

/-- The terminal behind an introducer, when whatever was under way has been interrupted. -/
theorem write_introducer (e : Emulator) :
    (e.write [Byte.escape, 0x5B]).decoder = .csi none {} ∧
    (e.write [Byte.escape, 0x5B]).terminal
      = (Machine.run Terminal.absorb e.terminal e.decoder.resolve).1 :=
  write_interrupting e (by decide)

/-- A control sequence in the middle of anything acts on the interrupted terminal. -/
theorem write_controlSequence (e : Emulator) {rest : List UInt8} {m : Message}
    (hrun : Machine.run Decoder.step (.csi none {}) rest = (.ground, [.message m])) :
    (e.write ([Byte.escape, 0x5B] ++ rest)).decoder = .ground ∧
    (e.write ([Byte.escape, 0x5B] ++ rest)).terminal = (e.interrupted.apply m).1 := by
  obtain ⟨hopen, hterminal⟩ := write_introducer e
  constructor
  · rw [write_decoder, Machine.run_append, ← write_decoder, hopen, hrun]
  · rw [write_terminal, digest_append, digest, hopen, hrun, Machine.run_singleton, hterminal]
    rfl

theorem write_switchMode (e : Emulator) {mode : Nat} (hmode : mode ≤ Params.maxValue) (on : Bool) :
    (e.write (Message.switchMode mode on).encode).decoder = .ground ∧
    (e.write (Message.switchMode mode on).encode).terminal
      = (e.write [Byte.escape, 0x5B]).terminal.setPrivateMode mode on := by
  obtain ⟨rest, hencode, hrun⟩ := Decoder.run_switchMode hmode on
  obtain ⟨hground, hterminal⟩ := write_controlSequence e hrun
  rw [hencode, hterminal, (write_introducer e).2]
  exact ⟨hground, congrArg Prod.fst (Terminal.apply_switchMode _ mode on)⟩

end Emulator

end VideoTerminal
