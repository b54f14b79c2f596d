import VideoTerminal.Proofs.Machine

/-!
# Writing in pieces

However the output of a program is cut into pieces, the terminal, the decoder and the events come
out the same, apart from the updates of the screen: there is one for each piece that completes a
message, behind the other events of that piece.

A cut may fall anywhere, also in the middle of a character or of a sequence.  That it makes no
difference to the decoder is `Machine.run_append`; that it makes none to the terminal, although a
run of text is cut with it, is `Terminal.run_apply_batch`.
-/

namespace VideoTerminal

/-! ## The updates of the screen come from the emulator alone -/

namespace Terminal

theorem screenUpdated_not_mem_applyControl (t : Terminal) (b : UInt8) :
    Event.screenUpdated ∉ (t.applyControl b).2 := by
  rw [applyControl]
  repeat' split
  all_goals simp

theorem screenUpdated_not_mem_applyWindowOperation (t : Terminal) (args : List Nat) :
    Event.screenUpdated ∉ (t.applyWindowOperation args).2 := by
  rw [applyWindowOperation]
  repeat' split
  all_goals simp

theorem screenUpdated_not_mem_applyFunction (t : Terminal) (f : ControlFunction) :
    Event.screenUpdated ∉ (t.applyFunction f).2 := by
  cases f with
  | windowOperation args => exact screenUpdated_not_mem_applyWindowOperation t args
  | deviceStatus request =>
      rw [applyFunction_deviceStatus]
      dsimp only
      split
      · simp
      · split <;> simp
  | privateDeviceStatus request =>
      rw [applyFunction_privateDeviceStatus]
      dsimp only
      split <;> simp
  | _ => simp [applyFunction]

theorem screenUpdated_not_mem_applyColor (ending : StringEnd) (t : Terminal) (code : Nat)
    (spec : List Char) : Event.screenUpdated ∉ (applyColor ending t code spec).2 := by
  rw [applyColor]
  repeat' split
  all_goals simp

theorem screenUpdated_not_mem_applyColors (ending : StringEnd) (t : Terminal) (code : Nat)
    (specs : List (List Char)) : Event.screenUpdated ∉ (applyColors ending t code specs).2 := by
  induction specs generalizing t code with
  | nil => exact List.not_mem_nil
  | cons spec specs ih =>
      rw [applyColors]
      split
      · exact List.not_mem_nil
      · intro hmem
        rcases List.mem_append.mp hmem with hmem | hmem
        · exact screenUpdated_not_mem_applyColor ending t code spec hmem
        · exact ih _ _ hmem

theorem screenUpdated_not_mem_applyClipboard (selection : String) (payload : List Char)
    (ending : StringEnd) : Event.screenUpdated ∉ applyClipboard selection payload ending := by
  rw [applyClipboard]
  repeat' split
  all_goals simp

theorem screenUpdated_not_mem_applyCommand (t : Terminal) (c : SystemCommand)
    (ending : StringEnd) : Event.screenUpdated ∉ (t.applyCommand c ending).2 := by
  cases c with
  | dynamicColors first specs => exact screenUpdated_not_mem_applyColors ending t first specs
  | clipboard selection payload =>
      exact screenUpdated_not_mem_applyClipboard selection payload ending
  | resetDynamicColor code =>
      rw [applyCommand_resetDynamicColor]
      exact List.not_mem_nil
  | _ => simp [applyCommand]

/-- No message updates the screen by itself. -/
theorem screenUpdated_not_mem_apply (t : Terminal) (m : Message) :
    Event.screenUpdated ∉ (t.apply m).2 := by
  cases m with
  | print text => exact List.not_mem_nil
  | control b => exact screenUpdated_not_mem_applyControl t b
  | csi marker params intermediates final => exact screenUpdated_not_mem_applyFunction t _
  | sgr params => exact List.not_mem_nil
  | osc code data ending => exact screenUpdated_not_mem_applyCommand t _ ending
  | esc sequence => exact List.not_mem_nil
  | dcs params intermediates final data =>
      show Event.screenUpdated ∉ t.applyDeviceControl intermediates final data
      rw [applyDeviceControl]
      split <;> simp

theorem screenUpdated_not_mem_absorb (t : Terminal) (e : Emission) :
    Event.screenUpdated ∉ (t.absorb e).2 := by
  cases e with
  | glyph c => exact List.not_mem_nil
  | cut => exact List.not_mem_nil
  | message m => exact screenUpdated_not_mem_apply t m

theorem screenUpdated_not_mem_run_absorb (t : Terminal) (es : List Emission) :
    Event.screenUpdated ∉ (Machine.run absorb t es).2 := by
  intro hmem
  exact Machine.forall_mem_run (I := fun _ => True) (Q := (· ≠ Event.screenUpdated))
    (fun _ _ _ _ => trivial)
    (fun u e _ _ o ho heq => screenUpdated_not_mem_absorb u e (heq ▸ ho)) trivial _ hmem rfl

end Terminal

/-! ## One write -/

namespace Emulator

/-- The terminal and the events behind what some bytes complete. -/
def digest (e : Emulator) (bytes : List UInt8) : Terminal × List Event :=
  Machine.run Terminal.absorb e.terminal (Machine.run Decoder.step e.decoder bytes).2

theorem applyAll_push (e : Emulator) (bytes : List UInt8) :
    e.terminal.applyAll (e.decoder.push bytes).2
      = ((e.digest bytes).1, (e.digest bytes).2.toArray) := by
  rw [Terminal.applyAll_eq_run, Decoder.push_eq_run, Terminal.run_apply_batch]
  rfl

theorem write_decoder (e : Emulator) (bytes : List UInt8) :
    (e.write bytes).decoder = (Machine.run Decoder.step e.decoder bytes).1 := by
  simp only [write, act]
  rw [Decoder.push_eq_run]
  dsimp only
  split <;> rfl

theorem write_terminal (e : Emulator) (bytes : List UInt8) :
    (e.write bytes).terminal = (e.digest bytes).1 := by
  have happly := congrArg Prod.fst (applyAll_push e bytes)
  dsimp only [write, act]
  split
  · rename_i hnone
    rw [List.isEmpty_iff.mp hnone] at happly
    exact happly
  · exact happly

theorem write_messages (e : Emulator) (bytes : List UInt8) :
    (e.write bytes).terminal
      = (Machine.run Terminal.apply e.terminal (e.decoder.push bytes).2).1 := by
  have happly := congrArg Prod.fst (applyAll_push e bytes)
  rw [Terminal.applyAll_eq_run] at happly
  rw [write_terminal]
  exact happly.symm

/-- A write queues what its messages give rise to, and then an update of the screen if it has
    completed any message. -/
theorem write_events (e : Emulator) (bytes : List UInt8) :
    (e.write bytes).events.toList
      = e.events.toList ++ (e.digest bytes).2
        ++ (if (e.decoder.push bytes).2 = [] then [] else [.screenUpdated]) := by
  have happly := congrArg Prod.snd (applyAll_push e bytes)
  dsimp only [write, act]
  by_cases hnone : (e.decoder.push bytes).2 = []
  · have hquiet : (e.digest bytes).2 = [] := by
      rw [hnone] at happly
      exact (congrArg Array.toList happly).symm
    rw [if_pos (List.isEmpty_iff.mpr hnone), if_pos hnone, hquiet, List.append_nil,
      List.append_nil]
  · rw [if_neg (fun h => hnone (List.isEmpty_iff.mp h)), if_neg hnone]
    show ((e.events ++ (e.terminal.applyAll (e.decoder.push bytes).2).2).push _).toList = _
    rw [happly, Array.toList_push, Array.toList_append]

/-! ## Many writes -/

/-- The events apart from the updates of the screen. -/
def reports (e : Emulator) : List Event := e.events.toList.filter (· ≠ .screenUpdated)

theorem reports_write (e : Emulator) (bytes : List UInt8) :
    (e.write bytes).reports = e.reports ++ (e.digest bytes).2 := by
  have hkept : (e.digest bytes).2.filter (· ≠ Event.screenUpdated) = (e.digest bytes).2 := by
    refine List.filter_eq_self.mpr ?_
    intro x hx
    simp only [ne_eq, decide_not, Bool.not_eq_eq_eq_not, Bool.not_true, decide_eq_false_iff_not]
    rintro rfl
    exact Terminal.screenUpdated_not_mem_run_absorb _ _ hx
  -- the update is the only event that the filter takes out
  have hdropped : (if (e.decoder.push bytes).2 = [] then []
      else [Event.screenUpdated]).filter (· ≠ Event.screenUpdated) = [] := by
    split <;> rfl
  simp only [reports]
  rw [write_events, List.filter_append, List.filter_append, hkept, hdropped, List.append_nil]

/-- What bytes do is what their first part does and then the second. -/
theorem digest_append (e : Emulator) (xs ys : List UInt8) :
    e.digest (xs ++ ys)
      = (((e.write xs).digest ys).1, (e.digest xs).2 ++ ((e.write xs).digest ys).2) := by
  simp only [digest]
  rw [write_decoder, write_terminal, Machine.run_append, Machine.run_append]
  rfl

/-- What pieces do one after the other is what they do together. -/
theorem foldl_write (e : Emulator) (pieces : List (List UInt8)) :
    (pieces.foldl write e).decoder = (Machine.run Decoder.step e.decoder pieces.flatten).1 ∧
    (pieces.foldl write e).terminal = (e.digest pieces.flatten).1 ∧
    (pieces.foldl write e).reports = e.reports ++ (e.digest pieces.flatten).2 := by
  induction pieces generalizing e with
  | nil => exact ⟨rfl, rfl, (List.append_nil _).symm⟩
  | cons piece pieces ih =>
      obtain ⟨hdecoder, hterminal, hreports⟩ := ih (e.write piece)
      rw [List.foldl_cons, List.flatten_cons, Machine.run_append, digest_append]
      refine ⟨?_, hterminal, ?_⟩
      · rw [hdecoder, write_decoder]
      · rw [hreports, reports_write, List.append_assoc]

/-- **Cutting the output makes no difference** but to the updates of the screen: one write and the
    writes of its pieces give the same terminal, the same decoder and the same other events in the
    same order.  And any write queues at most one update, behind everything else it queues, and
    exactly if it completes a message. -/
theorem write_flatten (e : Emulator) (pieces : List (List UInt8)) :
    (e.write pieces.flatten).terminal = (pieces.foldl write e).terminal ∧
    (e.write pieces.flatten).decoder = (pieces.foldl write e).decoder ∧
    (e.write pieces.flatten).reports = (pieces.foldl write e).reports ∧
    ∀ (f : Emulator) (bytes : List UInt8), ∃ queued : List Event,
      Event.screenUpdated ∉ queued ∧
      (f.write bytes).events.toList
        = f.events.toList ++ queued
          ++ (if (f.decoder.push bytes).2 = [] then [] else [.screenUpdated]) := by
  obtain ⟨hdecoder, hterminal, hreports⟩ := foldl_write e pieces
  refine ⟨?_, ?_, ?_, ?_⟩
  · rw [write_terminal, hterminal]
  · rw [write_decoder, hdecoder]
  · rw [reports_write, hreports]
  · intro f bytes
    exact ⟨(f.digest bytes).2, Terminal.screenUpdated_not_mem_run_absorb _ _, write_events f bytes⟩

end Emulator

end VideoTerminal
