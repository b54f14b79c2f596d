import VideoTerminal.Proofs.Reading

/-!
# Messages written and read back

Every message can be written as bytes, and what a decoder has made of any bytes comes back when it
is written and decoded again: the same messages, with text that had been cut in two joined, and a
decoder between two units at the end.

A message is read by itself first, from the ground to the ground, one kind after the other.  A list
of messages is then read one by one, and joining the characters into runs of text gives the list,
since no two runs of it stand side by side.
-/

namespace VideoTerminal

namespace Message

/-! ## Writing -/

/-- The bytes that a message is written as. -/
def encode : Message → List UInt8
  | .print text => Utf8.encode text
  | .control b => [b]
  | .esc sequence => Byte.escape :: sequence
  | .csi marker params intermediates final =>
      [Byte.escape, 0x5B] ++ marker.toList ++ Utf8.encode params.text.toList ++ intermediates
        ++ [final]
  | .sgr params => [Byte.escape, 0x5B] ++ Utf8.encode params.text.toList ++ [0x6D]
  | .osc code data ending => [Byte.escape, 0x5D] ++ commandBody code data ++ ending.bytes
  | .dcs params intermediates final data =>
      [Byte.escape, 0x50] ++ Utf8.encode params.text.toList ++ intermediates ++ [final] ++ data
        ++ StringEnd.st.bytes

/-- A control sequence whose parameters are numbers. -/
theorem encode_numbers (marker : Option UInt8) (ns : List Nat) (is : List UInt8) (final : UInt8) :
    (csi marker ⟨ns.map fun n => [some n]⟩ is final).encode = [0x1B, 0x5B] ++ (marker.toList ++
      (Utf8.encode ([';'].intercalate (ns.map Numeral.decimal)) ++ (is ++ [final]))) := by
  have htext : (Params.text ⟨ns.map fun n => [some n]⟩).toList =
      [';'].intercalate (ns.map Numeral.decimal) := by
    rw [ParamReader.toList_text, List.map_map]
    exact congrArg _ (List.map_congr_left fun n _ => ParamReader.groupChars_singleton (some n))
  rw [encode, htext]
  simp only [List.append_assoc, Byte.escape]

theorem encode_number (marker : Option UInt8) (n : Nat) (is : List UInt8) (final : UInt8) :
    (csi marker ⟨[[some n]]⟩ is final).encode =
      [0x1B, 0x5B] ++ (marker.toList ++ (Utf8.encode (Numeral.decimal n) ++ (is ++ [final]))) := by
  have hone := encode_numbers marker [n] is final
  rwa [List.map_singleton, List.map_singleton, List.intercalate_singleton] at hone

/-- What the decoder completes at the bytes of a message. -/
def emissions : Message → List Emission
  | .print text => text.map .glyph
  | .control b => [.message (.control b)]
  | m => [.cut, .message m]

/-! ## Joining text -/

/-- Whether a message is a run of text. -/
def isText : Message → Bool
  | .print _ => true
  | _ => false

/-- Puts a message in front of others, joining text to text. -/
def joinText : Message → List Message → List Message
  | .print first, .print second :: ms => .print (first ++ second) :: ms
  | m, ms => m :: ms

/-- Messages with runs of text that follow each other joined. -/
def merge (ms : List Message) : List Message := ms.foldr joinText []

/-- Messages among which no two runs of text follow each other. -/
def Separate : List Message → Prop
  | [] => True
  | m :: ms => (m.isText = true → ∀ n ∈ ms.head?, n.isText = false) ∧ Separate ms

/-- Either two runs of text become one, or the message comes to stand in front. -/
theorem joinText_cases (m : Message) (ms : List Message) :
    (∃ first second rest, m = .print first ∧ ms = .print second :: rest ∧
      joinText m ms = .print (first ++ second) :: rest) ∨
    joinText m ms = m :: ms ∧ (m.isText = true → ∀ n ∈ ms.head?, n.isText = false) := by
  cases m with
  | print first =>
      cases ms with
      | nil => exact Or.inr ⟨rfl, fun _ n hn => absurd hn (Option.not_mem_none n)⟩
      | cons n rest =>
          cases n with
          | print second => exact Or.inl ⟨first, second, rest, rfl, rfl, rfl⟩
          | _ =>
              refine Or.inr ⟨rfl, ?_⟩
              rintro - n hn
              rw [← Option.some.inj hn]
              rfl
  | _ => exact Or.inr ⟨rfl, nofun⟩

theorem separate_joinText (m : Message) {ms : List Message} (h : Separate ms) :
    Separate (joinText m ms) := by
  rcases joinText_cases m ms with ⟨first, second, rest, -, rfl, hjoin⟩ | ⟨hjoin, hfront⟩
  · rw [hjoin]
    exact h
  · rw [hjoin]
    exact ⟨hfront, h⟩

theorem separate_merge (ms : List Message) : Separate (merge ms) := by
  induction ms with
  | nil => trivial
  | cons m ms ih => exact separate_joinText m ih

theorem canonical_joinText {m : Message} (hm : m.Canonical) {ms : List Message}
    (hms : ∀ n ∈ ms, n.Canonical) : ∀ n ∈ joinText m ms, n.Canonical := by
  intro n hn
  rcases joinText_cases m ms with ⟨first, second, rest, rfl, rfl, hjoin⟩ | ⟨hjoin, -⟩
  · rw [hjoin] at hn
    rcases List.mem_cons.mp hn with rfl | hn
    · cases hm with
      | print hsome hfirst =>
          cases hms _ List.mem_cons_self with
          | print _ hsecond =>
              refine .print (List.append_ne_nil_of_left_ne_nil hsome _) ?_
              intro c hc
              exact (List.mem_append.mp hc).elim (hfirst c) (hsecond c)
    · exact hms n (List.mem_cons_of_mem _ hn)
  · rw [hjoin] at hn
    rcases List.mem_cons.mp hn with rfl | hn
    · exact hm
    · exact hms n hn

theorem canonical_merge {ms : List Message} (h : ∀ m ∈ ms, m.Canonical) :
    ∀ m ∈ merge ms, m.Canonical := by
  induction ms with
  | nil => exact h
  | cons m ms ih =>
      exact canonical_joinText (h m List.mem_cons_self)
        (ih fun n hn => h n (List.mem_cons_of_mem m hn))

end Message

/-! ## Batches -/

namespace Emission

theorem canonical_close {b : Batch} (hmessages : ∀ m ∈ b.messages, m.Canonical)
    (hrun : ∀ c ∈ b.run, Decoder.Prints c) : ∀ m ∈ b.close, m.Canonical := by
  intro m hm
  rw [Batch.close] at hm
  split at hm
  · exact hmessages m hm
  · next hsome =>
    rcases List.mem_cons.mp hm with rfl | hm
    · refine .print ?_ ?_
      · intro hnil
        exact hsome (List.reverse_eq_nil_iff.mp hnil)
      · intro c hc
        exact hrun c (List.mem_reverse.mp hc)
    · exact hmessages m hm

/-- Canonical emissions make canonical messages. -/
theorem canonical_batch {es : List Emission} (h : ∀ e ∈ es, e.Canonical) :
    ∀ m ∈ batch es.toArray, m.Canonical := by
  have hfold : ∀ (es : List Emission) (b : Batch), (∀ e ∈ es, e.Canonical) →
      (∀ m ∈ b.messages, m.Canonical) → (∀ c ∈ b.run, Decoder.Prints c) →
      ∀ m ∈ (es.foldl Batch.add b).close, m.Canonical := by
    intro es
    induction es with
    | nil =>
        intro b _ hmessages hrun
        exact canonical_close hmessages hrun
    | cons e es ih =>
        intro b hes hmessages hrun
        have he := hes e List.mem_cons_self
        have hrest := fun f hf => hes f (List.mem_cons_of_mem e hf)
        have hclose := canonical_close hmessages hrun
        rw [List.foldl_cons]
        cases e with
        | glyph c =>
            refine ih _ hrest hmessages ?_
            intro d hd
            rcases List.mem_cons.mp hd with rfl | hd
            · exact he
            · exact hrun d hd
        | cut => exact ih _ hrest hclose fun _ hc => absurd hc List.not_mem_nil
        | message m =>
            refine ih _ hrest ?_ fun _ hc => absurd hc List.not_mem_nil
            intro n hn
            rcases List.mem_cons.mp hn with rfl | hn
            · exact he
            · exact hclose n hn
  intro m hm
  rw [batch, List.foldl_toArray] at hm
  exact hfold es {} h (fun _ hn => absurd hn List.not_mem_nil)
    (fun _ hc => absurd hc List.not_mem_nil) m (List.mem_reverse.mp hm)

theorem foldl_add_glyphs (b : Batch) (cs : List Char) :
    (cs.map glyph).foldl Batch.add b = { b with run := cs.reverse ++ b.run } := by
  induction cs generalizing b with
  | nil => rfl
  | cons c cs ih =>
      rw [List.map_cons, List.foldl_cons, ih, List.reverse_cons, List.append_assoc]
      rfl

/-- The emissions of a message are closed to this message, provided that a run of text does not
    join the one before it. -/
theorem close_foldl_emissions {m : Message} (hm : m.Canonical) {b : Batch}
    (hfront : m.isText = true → b.run = []) :
    (m.emissions.foldl Batch.add b).close = m :: b.close ∧
      (m.isText = false → (m.emissions.foldl Batch.add b).run = []) := by
  cases m with
  | print text =>
      refine ⟨?_, nofun⟩
      cases hm with
      | print hsome _ =>
          have hrun := hfront rfl
          have hopen : ¬text.reverse = [] := fun hnil => hsome (List.reverse_eq_nil_iff.mp hnil)
          rw [Message.emissions, foldl_add_glyphs, hrun, List.append_nil, Batch.close, if_neg hopen,
            List.reverse_reverse, Batch.close, if_pos hrun]
  | _ => exact ⟨rfl, fun _ => rfl⟩

/-- The emissions of messages among which no two runs of text follow each other are joined to the
    same messages. -/
theorem batch_emissions {ms : List Message} (hms : ∀ m ∈ ms, m.Canonical)
    (hseparate : Message.Separate ms) :
    batch (ms.flatMap Message.emissions).toArray = ms := by
  -- behind each message the open run is empty, or the next message is no text
  have hfold : ∀ (ms : List Message) (b : Batch), (∀ m ∈ ms, m.Canonical) → Message.Separate ms →
      (∀ m ∈ ms.head?, m.isText = true → b.run = []) →
      ((ms.flatMap Message.emissions).foldl Batch.add b).close = ms.reverse ++ b.close := by
    intro ms
    induction ms with
    | nil =>
        intro b _ _ _
        rfl
    | cons m ms ih =>
        intro b hms hseparate hfront
        obtain ⟨hclose, hrun⟩ := close_foldl_emissions (hms m List.mem_cons_self) (hfront m rfl)
        have hnext : ∀ n ∈ ms.head?, n.isText = true →
            (m.emissions.foldl Batch.add b).run = [] := by
          intro n hn htext
          refine hrun (eq_false_of_ne_true ?_)
          intro hm
          rw [hseparate.1 hm n hn] at htext
          exact Bool.false_ne_true htext
        rw [List.flatMap_cons, List.foldl_append,
          ih _ (fun n hn => hms n (List.mem_cons_of_mem m hn)) hseparate.2 hnext, hclose,
          List.reverse_cons, List.append_assoc, List.singleton_append]
  rw [batch, List.foldl_toArray, hfold ms {} hms hseparate fun _ _ _ => rfl]
  exact (congrArg List.reverse (List.append_nil _)).trans (List.reverse_reverse ms)

end Emission

/-! ## Messages read back -/

namespace Decoder

/-- **Each message is read back from its bytes**, with a system command no longer than is kept. -/
theorem run_encode {m : Message} (hm : m.Canonical)
    (hroom : ∀ code data ending, m = .osc code data ending →
      (Message.commandBody code data).length ≤ Payload.limit) :
    Machine.run step .ground m.encode = (.ground, m.emissions) := by
  cases hm with
  | print _ htext => exact run_step_encode htext
  | control hclass hb =>
      rw [Message.encode, Machine.run_singleton]
      exact step_control hclass hb
  | csi hmarker hparams his hfinal hplain =>
      have hrun := run_csi hmarker hparams his hfinal
      rw [Message.ofControlSequence, if_neg hplain] at hrun
      exact hrun
  | sgr hparams =>
      have hrun := run_csi (fun _ hb => absurd hb (Option.not_mem_none _)) hparams .nil
        (show Byte.isFinal 0x6D = true from rfl)
      rw [Option.toList_none, List.append_nil, List.append_nil] at hrun
      exact hrun
  | @osc code data ending bytes hbytes hread =>
      obtain ⟨hbody, hagain⟩ := Message.ofSystemCommand_commandBody hbytes hread
      have hrun := run_osc hbody (hroom code data ending rfl) ending
      rw [hagain] at hrun
      exact hrun
  | escape hfinal =>
      rw [Message.encode, Machine.run_cons, step_escape, Machine.run_singleton,
        step_loneFinal hfinal]
      rfl
  | escapeIntermediates hsome his hfinal => exact run_escape hsome his hfinal
  | dcs hparams his hfinal hdata => exact run_dcs hparams his hfinal hdata

theorem sound_push {d : Decoder} (hd : d.Sound) (bytes : List UInt8) :
    (d.push bytes).1.Sound ∧ ∀ m ∈ (d.push bytes).2, m.Canonical := by
  rw [push_eq_run]
  exact ⟨Machine.run_invariant (I := Sound) (fun _ b _ hs => (fine_step hs b).1) hd,
    Emission.canonical_batch (canonical_run hd bytes)⟩

theorem canonical_resolve {d : Decoder} (hd : d.Sound) : ∀ e ∈ d.resolve, e.Canonical := by
  cases d with
  | character bytes missing =>
      intro e he
      rw [List.mem_singleton.mp he]
      exact prints_replacement
  | osc p => exact canonical_finishOsc hd .st
  | oscEscape p => exact canonical_finishOsc hd .st
  | dcsData params is final p => exact canonical_finishDcs hd.1 hd.2.1 hd.2.2.1 hd.2.2.2
  | dcsEscape params is final p => exact canonical_finishDcs hd.1 hd.2.1 hd.2.2.1 hd.2.2.2
  | _ =>
      intro e he
      exact absurd he List.not_mem_nil

theorem sound_flush {d : Decoder} (hd : d.Sound) :
    d.flush.1.Sound ∧ ∀ m ∈ d.flush.2, m.Canonical :=
  ⟨sound_ground, Emission.canonical_batch (canonical_resolve hd)⟩

/-- A message is read by itself between two units. -/
theorem push_message {m : Message} (hm : m.Canonical)
    (hroom : ∀ code data ending, m = .osc code data ending →
      (Message.commandBody code data).length ≤ Payload.limit) :
    push .ground m.encode = (.ground, [m]) := by
  have hbatch := @Emission.batch_emissions [m] (List.forall_mem_singleton.mpr hm)
    ⟨fun _ _ hn => absurd hn (Option.not_mem_none _), trivial⟩
  rw [List.flatMap_singleton] at hbatch
  rw [push_eq_run, run_encode hm hroom, hbatch]

/-- **What has been read from any bytes can be written and is read back.**  The messages that a new
    decoder makes of some bytes, with neighbouring text joined, are made again of the bytes that
    they are written as, and behind these the decoder stands between two units. -/
theorem push_encode (bytes : List UInt8)
    (hroom : ∀ code data ending, .osc code data ending ∈ Message.merge (push .ground bytes).2 →
      (Message.commandBody code data).length ≤ Payload.limit) :
    push .ground ((Message.merge (push .ground bytes).2).flatMap Message.encode)
      = (.ground, Message.merge (push .ground bytes).2) := by
  have hcanonical : ∀ m ∈ Message.merge (push .ground bytes).2, m.Canonical := by
    refine Message.canonical_merge ?_
    rw [push_eq_run]
    exact Emission.canonical_batch (canonical_run sound_ground bytes)
  have hseparate := Message.separate_merge (push .ground bytes).2
  -- all that matters of the bytes is the form of the messages
  generalize Message.merge (push .ground bytes).2 = ms at hroom hcanonical hseparate
  have hrun : Machine.run step .ground (ms.flatMap Message.encode)
      = (.ground, ms.flatMap Message.emissions) := by
    refine Machine.run_flatMap ?_
    intro m hm
    refine run_encode (hcanonical m hm) ?_
    rintro code data ending rfl
    exact hroom code data ending hm
  rw [push_eq_run, hrun, Emission.batch_emissions hcanonical hseparate]

theorem push_encode_mixed :
    let bytes := Utf8.encode "a\u001B\u0018é\n\u001B]+07;".toList ++ [0xFF, 0x07]
      ++ Utf8.encode "\u001B[?;99999:h\u001B[m\u001B(B\u001BP1$2qx\u001B\\".toList
    let ms : List Message := [.print ['a', 'é'], .control 0x0A, .osc (some 7) "\uFFFD" .bel,
      .csi (some 0x3F) ⟨[[none], [some 65535, none]]⟩ [] 0x68, .sgr ⟨[]⟩, .esc [0x28, 0x42],
      .dcs ⟨[[some 1], [some 2]]⟩ [0x24] 0x71 [0x78]]
    Message.merge (push .ground bytes).2 = ms ∧
      push .ground (ms.flatMap Message.encode) = (.ground, ms) := by
  intro bytes ms
  have hms : Message.merge (push .ground bytes).2 = ms := by decide +kernel
  have hread := push_encode bytes
  rw [hms] at hread
  refine ⟨hms, hread ?_⟩
  intro code data ending hmem
  have hosc : Message.osc code data ending = .osc (some 7) "\uFFFD" .bel := by
    simpa [ms] using hmem
  obtain ⟨rfl, rfl, -⟩ := Message.osc.inj hosc
  decide +kernel

end Decoder

end VideoTerminal
