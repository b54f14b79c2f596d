import VideoTerminal.Proofs.DeviceControlHeaders

/-!
# Strings that an escape interrupts

A string is over at the next escape, before it is known whether the byte behind the escape
completes a terminator.  If it does not, the escape begins a sequence, and what follows is read as
if no string had been there: `push_interrupted`.

What a string gives is known from its body alone.  Every phase of a string takes no note of certain
bytes, and of the others a system command and the data of a device control string keep what there
is room for.  A string for which there was no room is void as a whole; any other is given out with
all that it keeps.
-/

namespace VideoTerminal

/-! ## Bodies -/

/-- The bytes that open a string behind an escape. -/
def Byte.stringOpeners : List UInt8 := [0x5D, 0x50, 0x58, 0x5E, 0x5F]

/-- A byte that leaves a string open.  Only a system command is ended by a bell. -/
structure KeepsOpen (opener b : UInt8) : Prop where
  escape : b ≠ Byte.escape
  cancel : Byte.isCancel b = false
  bell : opener = 0x5D → b ≠ Byte.bell

/-- What a system command keeps of its body. -/
def keptCommand (body : List UInt8) : List UInt8 := body.filter (!Byte.isC0 ·)

/-- What a device control string keeps of its data. -/
def keptData (data : List UInt8) : List UInt8 := data.filter (· != Byte.delete)

/-- What is read of the header of a device control string. -/
def readHeader (header : List UInt8) : List UInt8 :=
  header.filter fun b => 0x20 ≤ b && b ≤ 0x3F

/-- A text as a system command carries it: whole, or as a number and what stands behind the
    semicolon. -/
inductive Message.CarriesText : List Char → Message → Prop
  | whole (text : List Char) (ending : StringEnd) :
      CarriesText text (.osc none (String.ofList text) ending)
  | number {numeral : List Char} {n : Nat}
      (hn : Numeral.decimal? Params.maxValue numeral = some n) (ending : StringEnd) :
      CarriesText numeral (.osc (some n) "" ending)
  | numbered {numeral : List Char} {n : Nat}
      (hn : Numeral.decimal? Params.maxValue numeral = some n) (data : List Char)
      (ending : StringEnd) :
      CarriesText (numeral ++ ';' :: data) (.osc (some n) (String.ofList data) ending)

/-- A system command carries all of its text. -/
theorem Message.carriesText_ofSystemCommand (bytes : List UInt8) (ending : StringEnd) :
    CarriesText (Utf8.decodeLossy bytes) (ofSystemCommand bytes ending) := by
  rw [ofSystemCommand]
  cases hsplit : Field.splitFirst? ';' (Utf8.decodeLossy bytes) with
  | none =>
      dsimp only [Option.getD_none]
      split
      · next n hn => exact .number hn ending
      · exact .whole _ ending
  | some parts =>
      dsimp only [Option.getD_some]
      split
      · next n hn =>
        have htext := Field.eq_append_of_splitFirst? hsplit
        rw [htext]
        exact .numbered hn _ ending
      · exact .whole _ ending

/-! ## Payloads -/

/-- What is given for a payload that may be void. -/
theorem Payload.ite_overflowed (give : List UInt8 → List Emission) (kept : List UInt8) :
    (if (kept.foldl push {}).overflowed then [] else give (kept.foldl push {}).bytes.toList)
      = if limit < kept.length then [] else give kept := by
  rw [foldl_push]
  by_cases hover : limit < kept.length
  · rw [if_pos hover, decide_eq_true hover]
    rfl
  · rw [if_neg hover, decide_eq_false hover, List.take_of_length_le (Nat.le_of_not_lt hover)]
    rfl

namespace Decoder

variable {d u : Decoder} {opener b : UInt8} {body : List UInt8}

theorem finishOsc_foldl (kept : List UInt8) (ending : StringEnd) :
    finishOsc (kept.foldl Payload.push {}) ending
      = if Payload.limit < kept.length then []
        else [.message (Message.ofSystemCommand kept ending)] :=
  Payload.ite_overflowed (fun bytes => [.message (Message.ofSystemCommand bytes ending)]) kept

theorem finishDcs_foldl (params : Params) (is : List UInt8) (final : UInt8) (kept : List UInt8) :
    finishDcs params is final (kept.foldl Payload.push {})
      = if Payload.limit < kept.length then [] else [.message (.dcs params is final kept)] :=
  Payload.ite_overflowed (fun bytes => [.message (.dcs params is final bytes)]) kept

/-! ## Behind the opener -/

/-- A phase in the middle of a string: a system command if it was opened as one, and otherwise
    another. -/
def isInString (opener : UInt8) : Decoder → Bool
  | .osc _ => opener == 0x5D
  | .dcs _ _ _ | .dcsData _ _ _ _ | .controlString => opener != 0x5D
  | _ => false

/-- The phase of a string that has just been opened. -/
theorem fromEscape_opener (h : opener ∈ Byte.stringOpeners) :
    (fromEscape opener).1.isInString opener = true ∧ (fromEscape opener).2 = [] := by
  simp only [Byte.stringOpeners, List.mem_cons, List.not_mem_nil, or_false] at h
  rcases h with rfl | rfl | rfl | rfl | rfl <;> exact ⟨rfl, rfl⟩

/-- In a string nothing is completed. -/
theorem step_isInString (hd : d.isInString opener = true) (hb : KeepsOpen opener b) :
    (d.step b).1.isInString opener = true ∧ (d.step b).2 = [] := by
  obtain ⟨hescape, hcancel, hbell⟩ := hb
  cases d with
  | osc p =>
      rw [step, fromOsc, if_neg (hbell (eq_of_beq hd)), if_neg hescape, hcancel]
      cases Byte.isC0 b <;> exact ⟨hd, rfl⟩
  | dcs marked r is =>
      rw [step, fromDcs]
      split
      · exact ⟨hd, rfl⟩
      · rw [if_neg hescape, hcancel]
        repeat' split
        all_goals first | exact ⟨hd, rfl⟩ | contradiction
  | dcsData params is final p =>
      rw [step, fromDcsData, if_neg hescape, hcancel]
      by_cases hdelete : b = Byte.delete
      · rw [if_pos hdelete]
        exact ⟨hd, rfl⟩
      · rw [if_neg hdelete]
        exact ⟨hd, rfl⟩
  | controlString =>
      rw [step, fromControlString, if_neg hescape, hcancel]
      exact ⟨hd, rfl⟩
  | _ => cases hd

/-- The opener and the body lead into a string. -/
theorem run_opened (hopener : opener ∈ Byte.stringOpeners)
    (hbody : ∀ b ∈ body, KeepsOpen opener b) :
    ∃ u : Decoder, u.isInString opener = true ∧
      Machine.run step (fromEscape opener).1 body = (u, []) ∧
      Machine.run step .ground (Byte.escape :: opener :: body) = (u, [.cut]) := by
  obtain ⟨hopened, hsilent⟩ := fromEscape_opener hopener
  have hstays : ∀ d : Decoder, ∀ b ∈ body, d.isInString opener = true →
      ∃ u : Decoder, u.isInString opener = true ∧ d.step b = (u, []) := by
    intro d b hb hd
    obtain ⟨hinside, hnone⟩ := step_isInString hd (hbody b hb)
    exact ⟨(d.step b).1, hinside, Prod.ext rfl hnone⟩
  obtain ⟨u, hu, hrun⟩ := Machine.run_silent hstays hopened
  refine ⟨u, hu, hrun, ?_⟩
  have hstep : step .escape opener = ((fromEscape opener).1, []) := Prod.ext rfl hsilent
  rw [Machine.run_cons, step_escape, Machine.run_cons, hstep, hrun]
  rfl

/-! ## At the escape -/

/-- An escape ends a string as the end of the input does, whatever the byte behind it. -/
theorem run_endOfString (hu : u.isInString opener = true) (b : UInt8) :
    Machine.run step u [Byte.escape, b] = ((afterString b).1, u.resolve ++ (afterString b).2) := by
  rw [Machine.run_cons, Machine.run_singleton]
  cases u with
  | osc p | dcsData params is final p | dcs marked r is | controlString => rfl
  | _ => cases hu

/-- What the end of a string completes are messages. -/
theorem resolve_isInString (hu : u.isInString opener = true) :
    ∃ ms : List Message, u.resolve = ms.map .message := by
  cases u with
  | osc p =>
      rw [resolve, finishOsc]
      cases p.overflowed
      · exact ⟨[_], rfl⟩
      · exact ⟨[], rfl⟩
  | dcsData params is final p =>
      rw [resolve, finishDcs]
      cases p.overflowed
      · exact ⟨[_], rfl⟩
      · exact ⟨[], rfl⟩
  | dcs marked r is | controlString => exact ⟨[], rfl⟩
  | _ => cases hu

end Decoder

/-! ## Messages in front -/

namespace Emission

theorem close_behind (before : List Message) (b : Batch) :
    Batch.close ⟨b.messages ++ before, b.run⟩ = b.close ++ before := by
  by_cases hrun : b.run = []
  · simp only [Batch.close, if_pos hrun]
  · simp only [Batch.close, if_neg hrun, List.cons_append]

/-- Messages that have been closed stay in front of those that come. -/
theorem foldl_add_behind (before : List Message) (es : List Emission) (b : Batch) :
    (es.foldl Batch.add ⟨b.messages ++ before, b.run⟩).close
      = (es.foldl Batch.add b).close ++ before := by
  induction es generalizing b with
  | nil => exact close_behind before b
  | cons e es ih =>
      have hadd : Batch.add ⟨b.messages ++ before, b.run⟩ e
          = ⟨(b.add e).messages ++ before, (b.add e).run⟩ := by
        cases e with
        | glyph c => rfl
        | cut => exact congrArg (Batch.mk · []) (close_behind before b)
        | message m => exact congrArg (fun ms => Batch.mk (m :: ms) []) (close_behind before b)
      rw [List.foldl_cons, hadd, ih]
      rfl

/-- Nothing is joined to messages in front. -/
theorem batch_messages_append (ms : List Message) (es : List Emission) :
    batch (ms.map message ++ es).toArray = ms ++ batch es.toArray := by
  have hfirst : (ms.map message).foldl Batch.add {} = ⟨ms.reverse, []⟩ :=
    (foldl_add_messages [] ms).trans (by rw [List.append_nil])
  have hbehind : (es.foldl Batch.add ⟨ms.reverse, []⟩).close
      = (es.foldl Batch.add {}).close ++ ms.reverse := foldl_add_behind ms.reverse es {}
  simp only [batch, List.foldl_toArray]
  rw [List.foldl_append, hfirst, hbehind, List.reverse_append, List.reverse_reverse]

theorem batch_cut (es : List Emission) : batch (.cut :: es).toArray = batch es.toArray := by
  simp only [batch, List.foldl_toArray]
  rfl

end Emission

namespace Decoder

variable {d u : Decoder} {opener b : UInt8} {body v : List UInt8}

/-- Behind the escape that ended a string, bytes are read as behind any escape. -/
theorem run_interrupted (hu : u.isInString opener = true) (hsome : v ≠ [])
    (hfirst : v.head? ≠ some Byte.backslash) :
    Machine.run step u (Byte.escape :: v)
      = ((Machine.run step .escape v).1, u.resolve ++ (Machine.run step .escape v).2) := by
  cases v with
  | nil => exact absurd rfl hsome
  | cons b v =>
      have hb : b ≠ Byte.backslash := fun heq => hfirst (congrArg some heq)
      have hafter : afterString b = step .escape b := if_neg hb
      have hend := run_endOfString hu b
      rw [hafter] at hend
      have hsplit : Byte.escape :: b :: v = [Byte.escape, b] ++ v := rfl
      rw [hsplit, Machine.run_append, hend, Machine.run_cons, List.append_assoc]

/-- **A string and an escape.**  What the string gives is the same whether it is ended by a
    terminator or by another sequence, and this sequence is read as if no string had been there. -/
theorem push_interrupted (hopener : opener ∈ Byte.stringOpeners)
    (hbody : ∀ b ∈ body, KeepsOpen opener b) :
    ∃ ms : List Message,
      (Machine.run step (fromEscape opener).1 body).1.resolve = ms.map .message ∧
      push .ground (Byte.escape :: opener :: body ++ StringEnd.st.bytes) = (.ground, ms) ∧
      ∀ v, v ≠ [] → v.head? ≠ some Byte.backslash →
        push .ground (Byte.escape :: opener :: body ++ Byte.escape :: v)
          = ((push .ground (Byte.escape :: v)).1, ms ++ (push .ground (Byte.escape :: v)).2) := by
  obtain ⟨u, hu, hbehind, hrun⟩ := run_opened hopener hbody
  obtain ⟨ms, hms⟩ := resolve_isInString hu
  refine ⟨ms, ?_, ?_, ?_⟩
  · rw [hbehind]
    exact hms
  · have hend : Machine.run step u StringEnd.st.bytes = (.ground, u.resolve ++ []) :=
      run_endOfString hu Byte.backslash
    rw [push_eq_run, Machine.run_trans hrun hend, List.append_nil, hms]
    exact congrArg (Prod.mk ground) (Emission.batch_cut_messages ms)
  · intro v hsome hfirst
    have hfresh : Machine.run step .ground (Byte.escape :: v)
        = ((Machine.run step .escape v).1, .cut :: (Machine.run step .escape v).2) := rfl
    rw [push_eq_run, push_eq_run, hfresh, Machine.run_trans hrun (run_interrupted hu hsome hfirst),
      List.singleton_append, Emission.batch_cut, Emission.batch_cut, hms,
      Emission.batch_messages_append]

/-! ## What strings keep -/

theorem run_command (hbody : ∀ b ∈ body, KeepsOpen 0x5D b) :
    Machine.run step (.osc {}) body = (.osc ((keptCommand body).foldl Payload.push {}), []) := by
  refine run_keeping _ ?_ ?_ {}
  · intro p b _ hb
    rw [Bool.not_eq_true', Byte.isC0, decide_eq_false_iff_not, UInt8.not_lt] at hb
    exact step_osc (UInt8.le_iff_toNat_le.mp hb) p
  · intro p b hmem hb
    obtain ⟨hescape, hcancel, hbell⟩ := hbody b hmem
    rw [Bool.not_eq_false'] at hb
    rw [step, fromOsc, if_neg (hbell rfl), if_neg hescape, hcancel, hb]
    rfl

theorem run_data {data : List UInt8} (hdata : ∀ b ∈ data, KeepsOpen opener b) (params : Params)
    (is : List UInt8) (final : UInt8) :
    Machine.run step (.dcsData params is final {}) data
      = (.dcsData params is final ((keptData data).foldl Payload.push {}), []) := by
  refine run_keeping _ ?_ ?_ {}
  · intro p b hmem hb
    obtain ⟨hescape, hcancel, -⟩ := hdata b hmem
    exact step_dcsData ⟨hescape, hcancel, bne_iff_ne.mp hb⟩ params is final p
  · intro p b hmem hb
    obtain ⟨hescape, hcancel, -⟩ := hdata b hmem
    have hdelete : b = Byte.delete := by simpa using hb
    rw [step, fromDcsData, if_neg hescape, hcancel, if_pos hdelete]
    rfl

/-! ## Headers -/

/-- The phases in which the header of a device control string is read. -/
def isInHeader : Decoder → Bool
  | .dcs _ _ _ | .controlString => true
  | _ => false

/-- In front of the final byte a header stays a header, and completes nothing. -/
theorem step_isInHeader (hd : d.isInHeader = true) (hb : KeepsOpen opener b)
    (hfinal : Byte.isFinal b = false) :
    ∃ u : Decoder, u.isInHeader = true ∧ d.step b = (u, []) := by
  obtain ⟨hescape, hcancel, -⟩ := hb
  suffices h : (d.step b).1.isInHeader = true ∧ (d.step b).2 = [] from
    ⟨(d.step b).1, h.1, Prod.ext rfl h.2⟩
  cases d with
  | dcs marked r is =>
      rw [step, fromDcs]
      split
      · exact ⟨hd, rfl⟩
      · rw [if_neg hescape, hcancel, hfinal]
        repeat' split
        all_goals first | exact ⟨rfl, rfl⟩ | contradiction
  | controlString =>
      rw [step, fromControlString, if_neg hescape, hcancel]
      exact ⟨rfl, rfl⟩
  | _ => cases hd

/-- Only the bytes from space to question mark are read of a header. -/
theorem step_dcs_outside (hescape : b ≠ Byte.escape) (hcancel : Byte.isCancel b = false)
    (hfinal : Byte.isFinal b = false) (hrange : ¬(0x20 ≤ b ∧ b ≤ 0x3F)) (marked : Bool)
    (r : ParamReader) (is : List UInt8) :
    step (.dcs marked r is) b = (if b < 0x80 then .dcs marked r is else .controlString, []) := by
  have hnone : readParameter? r b = none := by
    grind [readParameter?, Byte.isDigit, Byte.colon, Byte.semicolon]
  have hmarker : Byte.isMarker b = false := by grind [Byte.isMarker]
  have hintermediate : Byte.isIntermediate b = false := by grind [Byte.isIntermediate]
  rw [step, fromDcs, hnone, hmarker, hintermediate, hfinal, if_neg hescape, hcancel]
  simp only [Bool.false_eq_true, if_false]
  split <;> rfl

/-- Controls and deletes are ignored in a header. -/
theorem step_ignored (hd : d.isInHeader = true) (hb : KeepsOpen opener b) (hlt : b < 0x80)
    (hfinal : Byte.isFinal b = false) (hrange : ¬(0x20 ≤ b ∧ b ≤ 0x3F)) : d.step b = (d, []) := by
  obtain ⟨hescape, hcancel, -⟩ := hb
  cases d with
  | dcs marked r is => rw [step_dcs_outside hescape hcancel hfinal hrange, if_pos hlt]
  | controlString =>
      rw [step, fromControlString, if_neg hescape, hcancel]
      rfl
  | _ => cases hd

/-- A byte beyond ASCII spoils a header. -/
theorem step_spoiled (hd : d.isInHeader = true) (hb : 0x80 ≤ b) :
    d.step b = (.controlString, []) := by
  obtain ⟨hescape, hcancel⟩ := not_control_of_ge (UInt8.le_trans (by decide) hb)
  cases d with
  | dcs marked r is =>
      have hfinal : Byte.isFinal b = false := by grind [Byte.isFinal]
      have hrange : ¬(0x20 ≤ b ∧ b ≤ 0x3F) := by grind
      rw [step_dcs_outside hescape hcancel hfinal hrange, if_neg (UInt8.not_lt.mpr hb)]
  | controlString =>
      rw [step, fromControlString, if_neg hescape, hcancel]
      rfl
  | _ => cases hd

/-- A header that makes a message: it is of ASCII, and what is read of it is accepted. -/
structure Usable (header : List UInt8) : Prop where
  ascii : ∀ b ∈ header, b < 0x80
  accepted : AcceptedHeader (readHeader header)

theorem range_readHeader (header : List UInt8) : ∀ b ∈ readHeader header, 0x20 ≤ b ∧ b ≤ 0x3F := by
  intro b hb
  simpa using (List.mem_filter.mp hb).2

variable {header data : List UInt8} {final : UInt8}

theorem run_isInHeader (hbytes : ∀ b ∈ header, KeepsOpen opener b ∧ Byte.isFinal b = false) :
    ∃ u : Decoder, u.isInHeader = true ∧
      Machine.run step (.dcs false {} []) header = (u, []) := by
  refine Machine.run_silent (I := fun d : Decoder => d.isInHeader = true) ?_ rfl
  intro d b hb hd
  exact step_isInHeader hd (hbytes b hb).1 (hbytes b hb).2

/-- Of a header of ASCII the controls and deletes can be left out. -/
theorem run_readHeader (hbytes : ∀ b ∈ header, KeepsOpen opener b ∧ Byte.isFinal b = false)
    (hascii : ∀ b ∈ header, b < 0x80) :
    Machine.run step (.dcs false {} []) header
      = Machine.run step (.dcs false {} []) (readHeader header) := by
  refine Machine.run_filter (I := fun d : Decoder => d.isInHeader = true) ?_ ?_ rfl
  · intro d b hb hd
    obtain ⟨u, hu, hstep⟩ := step_isInHeader hd (hbytes b hb).1 (hbytes b hb).2
    rwa [hstep]
  · intro d b hb hrange hd
    refine step_ignored hd (hbytes b hb).1 (hascii b hb) (hbytes b hb).2 ?_
    simpa using hrange

/-- Behind a header that makes no message the string is dropped. -/
theorem run_unusable (hbytes : ∀ b ∈ header, KeepsOpen opener b ∧ Byte.isFinal b = false)
    (hunusable : ¬Usable header) :
    Machine.run step (.dcs false {} []) header = (.controlString, []) := by
  -- either the first byte beyond ASCII spoils it, or what is read of it is refused
  cases hspoiled : header.find? (0x80 ≤ ·) with
  | none =>
      have hascii : ∀ b ∈ header, b < 0x80 := by simpa using hspoiled
      rw [run_readHeader hbytes hascii]
      exact run_refused (range_readHeader header) fun haccepted => hunusable ⟨hascii, haccepted⟩
  | some b =>
      obtain ⟨hb, before, behind, rfl, -⟩ := List.find?_eq_some_iff_append.mp hspoiled
      obtain ⟨hbefore, hbehind⟩ := List.forall_mem_append.mp hbytes
      obtain ⟨u, hu, hrun⟩ := run_isInHeader hbefore
      have hstep := step_spoiled hu (of_decide_eq_true hb)
      have hrest : Machine.run step .controlString behind = (.controlString, []) := by
        refine run_dropped fun c hc => ?_
        obtain ⟨hopen, -⟩ := hbehind c (List.mem_cons_of_mem b hc)
        exact ⟨hopen.escape, hopen.cancel⟩
      rw [Machine.run_append, hrun, Machine.run_cons, hstep, hrest]
      rfl

/-- A usable header and the final byte open the data. -/
theorem run_usable (hbytes : ∀ b ∈ header, KeepsOpen opener b ∧ Byte.isFinal b = false)
    (husable : Usable header) (hfinal : Byte.isFinal final = true) :
    Machine.run step (.dcs false {} []) (header ++ [final])
      = (.dcsData (Params.ofHeader (readHeader header))
        ((readHeader header).filter Byte.isIntermediate) final {}, []) := by
  obtain ⟨ended, run, r, hread, hrun⟩ := run_accepted (range_readHeader header) husable.accepted
  have hstep := (Machine.run_singleton _ _).trans
    (step_dcs_final hfinal ((readHeader header).any Byte.isMarker) (r.behind (groupsOf ended))
      ((readHeader header).filter Byte.isIntermediate))
  rw [hread.params_behind] at hstep
  rw [← run_readHeader hbytes husable.ascii] at hrun
  exact Machine.run_trans hrun hstep

/-! ## What strings give -/

section DeviceControl

variable (hheader : ∀ b ∈ header, KeepsOpen 0x50 b ∧ Byte.isFinal b = false)
  (hrest : ∀ b ∈ final :: data, KeepsOpen 0x50 b)

include hheader hrest

theorem resolve_usable (hfinal : Byte.isFinal final = true) (husable : Usable header) :
    (Machine.run step (fromEscape 0x50).1 (header ++ final :: data)).1.resolve
      = if Payload.limit < (keptData data).length then []
        else [.message (.dcs (Params.ofHeader (readHeader header))
          ((readHeader header).filter Byte.isIntermediate) final (keptData data))] := by
  have hdata := run_data (fun b hb => hrest b (List.mem_cons_of_mem final hb))
  have hrun := Machine.run_trans (run_usable hheader husable hfinal) (hdata _ _ final)
  rw [List.append_assoc, List.singleton_append] at hrun
  show (Machine.run step (.dcs false {} []) _).1.resolve = _
  rw [hrun]
  exact finishDcs_foldl _ _ final (keptData data)

theorem resolve_unusable (hunusable : ¬Usable header) :
    (Machine.run step (fromEscape 0x50).1 (header ++ final :: data)).1.resolve = [] := by
  have hdropped : Machine.run step .controlString (final :: data) = (.controlString, []) :=
    run_dropped fun b hb => ⟨(hrest b hb).escape, (hrest b hb).cancel⟩
  show (Machine.run step (.dcs false {} []) _).1.resolve = _
  rw [Machine.run_trans (run_unusable hheader hunusable) hdropped]
  rfl

end DeviceControl

theorem resolve_headerOnly (hbytes : ∀ b ∈ header, KeepsOpen 0x50 b ∧ Byte.isFinal b = false) :
    (Machine.run step (fromEscape 0x50).1 header).1.resolve = [] := by
  obtain ⟨u, hu, hrun⟩ := run_isInHeader hbytes
  show (Machine.run step (.dcs false {} []) header).1.resolve = []
  rw [hrun]
  cases u with
  | dcs marked r is | controlString => rfl
  | _ => cases hu

theorem resolve_dropped (hopener : opener ∈ Byte.stringOpeners) (hcommand : opener ≠ 0x5D)
    (hcontrol : opener ≠ 0x50) (hbody : ∀ b ∈ body, KeepsOpen opener b) :
    (Machine.run step (fromEscape opener).1 body).1.resolve = [] := by
  have hopened : (fromEscape opener).1 = .controlString := by
    simp only [Byte.stringOpeners, List.mem_cons, List.not_mem_nil, or_false] at hopener
    rcases hopener with rfl | rfl | rfl | rfl | rfl
    · exact absurd rfl hcommand
    · exact absurd rfl hcontrol
    · rfl
    · rfl
    · rfl
  rw [hopened, run_dropped fun b hb => ⟨(hbody b hb).escape, (hbody b hb).cancel⟩]
  rfl

/-- A system command is given out behind its end, unless there was no room for it. -/
theorem push_command (hbody : ∀ b ∈ body, KeepsOpen 0x5D b) (ending : StringEnd) :
    push .ground (Byte.escape :: 0x5D :: body ++ ending.bytes)
      = (.ground, if Payload.limit < (keptCommand body).length then []
        else [Message.ofSystemCommand (keptCommand body) ending]) := by
  have hopen : Machine.run step .ground [Byte.escape, 0x5D] = (.osc {}, [.cut]) := rfl
  have hend : ∀ p, Machine.run step (.osc p) ending.bytes = (.ground, finishOsc p ending) := by
    intro p
    cases ending with
    | bel => exact Machine.run_singleton _ _
    | st =>
        have hinside : isInString 0x5D (.osc p) = true := rfl
        have hst := run_endOfString hinside Byte.backslash
        exact hst.trans (congrArg (Prod.mk ground) (List.append_nil _))
  have hrun := Machine.run_trans (Machine.run_trans hopen (run_command hbody)) (hend _)
  rw [finishOsc_foldl] at hrun
  have hsplit : Byte.escape :: 0x5D :: body = [Byte.escape, 0x5D] ++ body := rfl
  rw [push_eq_run, hsplit, hrun]
  split
  · rfl
  · exact congrArg (Prod.mk _) (Emission.batch_cut_messages [_])

/-- **Strings lose nothing to an escape, and keep all or nothing.**  Let any string be opened
    between two units, with a body of any length that leaves it open.

    * Whatever sequence interrupts it, the string gives what it gives in front of a terminator, and
      the sequence gives what it gives alone and leaves the decoder where it leaves a new one.
    * A system command that keeps more than the limit gives nothing.  Any other carries the whole of
      the text that it keeps, and ends as it was ended.
    * A device control string that keeps more than the limit gives nothing, and neither does one
      with a header that is not usable, or without a final byte.  Any other carries all the data
      that it keeps, behind the parameters and the intermediates of its header.
    * The other strings give nothing. -/
theorem push_string_ended (hd : d.isIdle = true) (hopener : opener ∈ Byte.stringOpeners)
    (hbody : ∀ b ∈ body, KeepsOpen opener b) :
    let terminated := d.push (Byte.escape :: opener :: body ++ StringEnd.st.bytes)
    (terminated.1 = .ground ∧
      ∀ v, v ≠ [] → v.head? ≠ some Byte.backslash →
        let fresh := push .ground (Byte.escape :: v)
        d.push (Byte.escape :: opener :: body ++ Byte.escape :: v)
          = (fresh.1, terminated.2 ++ fresh.2)) ∧
    (opener = 0x5D → ∀ ending : StringEnd,
      let kept := keptCommand body
      d.push (Byte.escape :: opener :: body ++ ending.bytes)
          = (.ground, if Payload.limit < kept.length then []
            else [Message.ofSystemCommand kept ending]) ∧
        Message.CarriesText (Utf8.decodeLossy kept) (Message.ofSystemCommand kept ending)) ∧
    (opener = 0x50 →
      (∀ header final data, body = header ++ final :: data →
        (∀ b ∈ header, Byte.isFinal b = false) → Byte.isFinal final = true →
        let read := readHeader header
        let kept := keptData data
        (Payload.limit < kept.length → terminated.2 = []) ∧
        (¬Usable header → terminated.2 = []) ∧
        (kept.length ≤ Payload.limit → Usable header →
          terminated.2
            = [.dcs (Params.ofHeader read) (read.filter Byte.isIntermediate) final kept])) ∧
      ((∀ b ∈ body, Byte.isFinal b = false) → terminated.2 = [])) ∧
    (opener ≠ 0x5D → opener ≠ 0x50 → terminated.2 = []) := by
  obtain rfl : d = .ground := of_decide_eq_true hd
  obtain ⟨ms, hms, hterminated, hinterrupted⟩ := push_interrupted hopener hbody
  -- so the messages of each kind of string are known from the phase in which its body ends
  have hmessages : ∀ ns : List Message,
      (Machine.run step (fromEscape opener).1 body).1.resolve = ns.map .message → ms = ns := by
    intro ns hns
    exact (List.map_inj_right fun _ _ h => Emission.message.inj h).mp (hms.symm.trans hns)
  intro terminated
  have hpushed : terminated = (.ground, ms) := hterminated
  rw [hpushed]
  refine ⟨⟨rfl, hinterrupted⟩, ?_, ?_, ?_⟩
  · rintro rfl ending
    exact ⟨push_command hbody ending, Message.carriesText_ofSystemCommand _ ending⟩
  · rintro rfl
    refine ⟨?_, ?_⟩
    · rintro header final data rfl hnone hfinal
      obtain ⟨hopen, hrest⟩ := List.forall_mem_append.mp hbody
      have hheader : ∀ b ∈ header, KeepsOpen 0x50 b ∧ Byte.isFinal b = false :=
        fun b hb => ⟨hopen b hb, hnone b hb⟩
      have hunusable : ¬Usable header → ms = [] :=
        fun hunusable => hmessages [] (resolve_unusable hheader hrest hunusable)
      refine ⟨fun hover => ?_, hunusable, fun hroom husable => ?_⟩
      · -- a header that is not usable gives nothing either
        by_cases husable : Usable header
        · refine hmessages [] ?_
          rw [resolve_usable hheader hrest hfinal husable, if_pos hover]
          rfl
        · exact hunusable husable
      · refine hmessages [_] ?_
        rw [resolve_usable hheader hrest hfinal husable, if_neg (Nat.not_lt.mpr hroom)]
        rfl
    · intro hnone
      exact hmessages [] (resolve_headerOnly fun b hb => ⟨hbody b hb, hnone b hb⟩)
  · intro hcommand hcontrol
    exact hmessages [] (resolve_dropped hopener hcommand hcontrol hbody)

/-- A title that the home of the cursor interrupts; a request with a line feed in its header and a
    delete in its data; and one byte more than there is room for. -/
theorem push_string_ended_kinds :
    let title : List UInt8 := [0x32, 0x3B, 0x68]
    let request : List UInt8 := [0x31, 0x0A, 0x24, 0x71, 0x78, 0x7F]
    let large : List UInt8 := List.replicate (Payload.limit + 1) 0x41
    isIdle .ground = true ∧ 0x5D ∈ Byte.stringOpeners ∧ 0x50 ∈ Byte.stringOpeners ∧
      (∀ b ∈ title, KeepsOpen 0x5D b) ∧ (∀ b ∈ request, KeepsOpen 0x50 b) ∧
      (∀ b ∈ large, KeepsOpen 0x5D b) ∧
      push .ground (Byte.escape :: 0x5D :: title ++ Byte.escape :: [0x5B, 0x48])
        = (.ground, [.osc (some 2) "h" .st, .csi none ⟨[]⟩ [] 0x48]) ∧
      (push .ground (Byte.escape :: 0x50 :: request ++ StringEnd.st.bytes)).2
        = [.dcs ⟨[[some 1]]⟩ [0x24] 0x71 [0x78]] ∧
      push .ground (Byte.escape :: 0x5D :: large ++ StringEnd.bel.bytes) = (.ground, []) := by
  intro title request large
  have hcommand : (0x5D : UInt8) ∈ Byte.stringOpeners := by decide
  have hcontrol : (0x50 : UInt8) ∈ Byte.stringOpeners := by decide
  have htitle : ∀ b ∈ title, KeepsOpen 0x5D b := by
    intro b hb
    have hmem : b = 0x32 ∨ b = 0x3B ∨ b = 0x68 := by simpa [title] using hb
    rcases hmem with rfl | rfl | rfl <;> exact ⟨by decide, by decide, by decide⟩
  have hrequest : ∀ b ∈ request, KeepsOpen 0x50 b := by
    intro b hb
    have hmem : b = 0x31 ∨ b = 0x0A ∨ b = 0x24 ∨ b = 0x71 ∨ b = 0x78 ∨ b = 0x7F := by
      simpa [request] using hb
    rcases hmem with rfl | rfl | rfl | rfl | rfl | rfl <;> exact ⟨by decide, by decide, by decide⟩
  have hlarge : ∀ b ∈ large, KeepsOpen 0x5D b := by
    intro b hb
    rw [List.eq_of_mem_replicate hb]
    exact ⟨by decide, by decide, by decide⟩
  have husable : Usable [0x31, 0x0A, 0x24] :=
    ⟨by decide +kernel, by decide, by decide, by decide⟩
  have hover : Payload.limit < (keptCommand large).length := by
    have hkept : keptCommand large = large := List.filter_replicate_of_pos rfl
    rw [hkept, List.length_replicate]
    exact Nat.lt_succ_self _
  refine ⟨rfl, hcommand, hcontrol, htitle, hrequest, hlarge, ?_, ?_, ?_⟩
  · rw [(push_string_ended rfl hcommand htitle).1.2 [0x5B, 0x48] (by decide) (by decide)]
    decide +kernel
  · have hended := push_string_ended (d := .ground) rfl hcontrol hrequest
    have hnone : ∀ b ∈ ([0x31, 0x0A, 0x24] : List UInt8), Byte.isFinal b = false := by
      decide +kernel
    have hgiven := (hended.2.2.1 rfl).1 [0x31, 0x0A, 0x24] 0x71 [0x78, 0x7F] rfl hnone rfl
    rw [hgiven.2.2 (by decide) husable]
    decide +kernel
  · rw [((push_string_ended rfl hcommand hlarge).2.1 rfl .bel).1, if_pos hover]

end Decoder

end VideoTerminal
