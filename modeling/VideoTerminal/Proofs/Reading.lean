import VideoTerminal.Proofs.CommandBody

/-!
# Reading one message

Bytes of every kind of message, written in the form that the decoder settles on, are followed from
the ground to the ground.  A sequence is read part by part, and each part is taken in one phase.
There are two kinds of parts: bytes that are kept as they come, which are intermediates and the
bodies of strings, and parameters, which are read.  There is one run lemma for each kind; a
sequence needs no more than its own steps.
-/

namespace VideoTerminal

namespace Decoder

/-! ## Bytes that are kept -/

/-- A phase that keeps bytes as long as there is room keeps all of them. -/
theorem run_keep (phase : List UInt8 → Decoder) {room : Nat} {body : List UInt8}
    (hphase : ∀ kept, kept.length < room → ∀ b ∈ body,
      step (phase kept) b = (phase (kept ++ [b]), []))
    (kept : List UInt8) (hroom : kept.length + body.length ≤ room) :
    Machine.run step (phase kept) body = (phase (kept ++ body), []) := by
  induction body generalizing kept with
  | nil => rw [Machine.run_nil, List.append_nil]
  | cons b body ih =>
      rw [List.length_cons] at hroom
      have hfirst := hphase kept (by omega) b List.mem_cons_self
      have hrest := ih (fun more hmore c hc => hphase more hmore c (List.mem_cons_of_mem b hc))
        (kept ++ [b]) (by rw [List.length_append, List.length_singleton]; omega)
      rw [List.append_assoc, List.singleton_append] at hrest
      rw [Machine.run_cons, hfirst, hrest]
      rfl

/-! ## Controls and escape sequences -/

/-- A control acts at once. -/
theorem step_control {b : UInt8} (hclass : Byte.isC0 b = true ∨ b = Byte.delete)
    (hb : b ≠ Byte.escape) : step .ground b = (.ground, [.message (.control b)]) := by
  have hcontrol : (Byte.isC0 b || b == Byte.delete) = true := by
    rw [Bool.or_eq_true, beq_iff_eq]
    exact hclass
  rw [step, fromGround, if_neg hb, if_pos hcontrol]

/-- An escape begins a sequence. -/
theorem step_escape : step .ground Byte.escape = (.escape, [.cut]) := rfl

/-- A byte that is a sequence by itself behind an escape. -/
theorem step_loneFinal {b : UInt8} (hb : Byte.isLoneFinal b = true) :
    step .escape b = (.ground, [.message (.esc [b])]) := by
  rw [step]
  grind [fromEscape, Byte.isLoneFinal, Byte.isEscapeFinal, Byte.isIntermediate]

/-- An intermediate behind an escape is kept. -/
theorem step_escape_intermediate {b : UInt8} (hb : Byte.isIntermediate b = true) :
    step .escape b = (.escapeIntermediate [b], []) := by
  rw [step]
  grind [fromEscape, Byte.isIntermediate]

/-- Another one is kept where there is room. -/
theorem step_escapeIntermediate {b : UInt8} (hb : Byte.isIntermediate b = true) {is : List UInt8}
    (hroom : is.length < maxIntermediates) :
    step (.escapeIntermediate is) b = (.escapeIntermediate (is ++ [b]), []) := by
  rw [step, fromEscapeIntermediate, if_pos hb, keepIntermediate, if_pos hroom]

/-- The final byte behind intermediates makes the sequence. -/
theorem step_escapeIntermediate_final {b : UInt8} (hb : Byte.isEscapeFinal b = true)
    (is : List UInt8) :
    step (.escapeIntermediate is) b = (.ground, [.message (.esc (is ++ [b]))]) := by
  have hother : Byte.isIntermediate b = false := by
    grind [Byte.isIntermediate, Byte.isEscapeFinal]
  rw [step, fromEscapeIntermediate, hother, if_neg Bool.false_ne_true, if_pos hb]

/-- **An escape sequence is read from its intermediates and its final byte.** -/
theorem run_escape {is : List UInt8} (hsome : is ≠ []) (his : Intermediates is) {final : UInt8}
    (hfinal : Byte.isEscapeFinal final = true) :
    Machine.run step .ground (Byte.escape :: (is ++ [final]))
      = (.ground, [.cut, .message (.esc (is ++ [final]))]) := by
  -- the first intermediate changes the phase; the others are kept in it
  obtain ⟨first, js, rfl⟩ := List.exists_cons_of_ne_nil hsome
  have hopen : Machine.run step .ground [Byte.escape, first]
      = (.escapeIntermediate [first], [.cut]) := by
    rw [Machine.run_cons, step_escape, Machine.run_singleton,
      step_escape_intermediate (his.each first List.mem_cons_self)]
    rfl
  have hkeep : Machine.run step (.escapeIntermediate [first]) js
      = (.escapeIntermediate (first :: js), []) :=
    run_keep .escapeIntermediate (fun _ hroom c hc =>
      step_escapeIntermediate (his.each c (List.mem_cons_of_mem first hc)) hroom)
      [first] (Nat.add_comm 1 _ ▸ his.length_le)
  have hend := (Machine.run_singleton _ _).trans
    (step_escapeIntermediate_final hfinal (first :: js))
  exact Machine.run_trans (Machine.run_trans hopen hkeep) hend

/-! ## Parameters -/

/-- A phase in which a parameter string is read. -/
structure ReadsParameters (phase : ParamReader → Decoder) : Prop where
  step : ∀ r b r', readParameter? r b = some r' → (phase r).step b = (phase r', [])

/-- In a control sequence parameters are read behind the marker. -/
theorem readsParameters_csi (marker : Option UInt8) : ReadsParameters (.csi marker) where
  step r b r' h := by
    rw [Decoder.step, fromCsi, h]

/-- In the header of a device control they are read too. -/
theorem readsParameters_dcs (marked : Bool) (is : List UInt8) :
    ReadsParameters fun r => .dcs marked r is where
  step r b r' h := by
    rw [Decoder.step, fromDcs, h]

/-- A run of bytes that can be read is read, and nothing comes out. -/
theorem ReadsParameters.run {phase : ParamReader → Decoder} (hphase : ReadsParameters phase)
    {bytes : List UInt8} {r r' : ParamReader} (h : bytes.foldlM readParameter? r = some r') :
    Machine.run Decoder.step (phase r) bytes = (phase r', []) := by
  induction bytes generalizing r with
  | nil => rw [Option.some.inj h, Machine.run_nil]
  | cons b bytes ih =>
      rw [List.foldlM_cons, Option.bind_eq_bind, Option.bind_eq_some_iff] at h
      obtain ⟨r1, hread, h⟩ := h
      rw [Machine.run_cons, hphase.step r b r1 hread, ih h]
      rfl

/-- ASCII is written in bytes one by one. -/
theorem encode_ascii {cs : List Char} (h : ∀ c ∈ cs, c.toNat < 0x80) :
    Utf8.encode cs = cs.map fun c => UInt8.ofNat c.toNat := by
  induction cs with
  | nil => rfl
  | cons c cs ih =>
      have hle : c.toNat ≤ 0x7F := Nat.le_of_lt_succ (h c List.mem_cons_self)
      have hfirst : String.utf8EncodeChar c = [UInt8.ofNat c.toNat] := by
        rw [String.utf8EncodeChar]
        exact if_pos hle
      have hrest := ih fun d hd => h d (List.mem_cons_of_mem c hd)
      rw [Utf8.encode] at hrest
      rw [Utf8.encode, List.flatMap_cons, hfirst, hrest, List.map_cons, List.singleton_append]

/-- The text of canonical parameters is read as these parameters. -/
theorem ReadsParameters.run_text {phase : ParamReader → Decoder} (hphase : ReadsParameters phase)
    {params : Params} (hparams : params.Canonical) :
    ∃ r, Machine.run Decoder.step (phase {}) (Utf8.encode params.text.toList) = (phase r, []) ∧
      r.params = params := by
  obtain ⟨r, hread, hr⟩ := ParamReader.read_text hparams
  refine ⟨r, ?_, hr⟩
  rw [encode_ascii fun c hc => Nat.lt_of_le_of_lt (ParamReader.toNat_of_mem_text hc).2 (by decide)]
  refine hphase.run ?_
  rw [List.foldlM_map]
  exact hread

/-- No byte behind the parameters is taken for one of them. -/
theorem readParameter?_eq_none {b : UInt8}
    (hb : Byte.isIntermediate b = true ∨ Byte.isMarker b = true ∨ Byte.isFinal b = true)
    (r : ParamReader) : readParameter? r b = none := by
  grind [readParameter?, Byte.isIntermediate, Byte.isMarker, Byte.isFinal, Byte.isDigit,
    Byte.colon, Byte.semicolon]

/-! ## Control sequences -/

/-- A marker is taken at the beginning. -/
theorem step_csi_marker {b : UInt8} (hb : Byte.isMarker b = true) :
    step (.csi none {}) b = (.csi (some b) {}, []) := by
  rw [step, fromCsi, readParameter?_eq_none (Or.inr (Or.inl hb))]
  exact if_pos hb

/-- So is none, where there is none. -/
theorem run_csi_marker {marker : Option UInt8} (h : ∀ b ∈ marker, Byte.isMarker b = true) :
    Machine.run step (.csi none {}) marker.toList = (.csi marker {}, []) := by
  cases marker with
  | none => rfl
  | some b => rw [Option.toList_some, Machine.run_singleton, step_csi_marker (h b rfl)]

/-- A final byte is nothing else that a control sequence may have. -/
theorem isMarker_of_isFinal {b : UInt8} (hb : Byte.isFinal b = true) :
    Byte.isMarker b = false ∧ Byte.isIntermediate b = false ∧ Byte.isParameter b = false := by
  grind [Byte.isIntermediate, Byte.isMarker, Byte.isFinal, Byte.isParameter]

/-- An intermediate is no marker. -/
theorem isMarker_of_isIntermediate {b : UInt8} (hb : Byte.isIntermediate b = true) :
    Byte.isMarker b = false := by
  grind [Byte.isIntermediate, Byte.isMarker]

/-- The first intermediate closes the parameters. -/
theorem step_csi_intermediate {b : UInt8} (hb : Byte.isIntermediate b = true)
    (marker : Option UInt8) (r : ParamReader) :
    step (.csi marker r) b = (.csiIntermediate marker r.params [b], []) := by
  rw [step, fromCsi, readParameter?_eq_none (Or.inl hb)]
  simp only [isMarker_of_isIntermediate hb, hb, Bool.false_eq_true, if_false, if_true]

/-- A final byte behind the parameters makes the sequence. -/
theorem step_csi_final {b : UInt8} (hb : Byte.isFinal b = true) (marker : Option UInt8)
    (r : ParamReader) :
    step (.csi marker r) b = (.ground, [.message (.ofControlSequence marker r.params [] b)]) := by
  obtain ⟨hmarker, hintermediate, -⟩ := isMarker_of_isFinal hb
  rw [step, fromCsi, readParameter?_eq_none (Or.inr (Or.inr hb))]
  simp only [hmarker, hintermediate, hb, Bool.false_eq_true, if_false, if_true]

/-- A later intermediate is kept where there is room. -/
theorem step_csiIntermediate {b : UInt8} (hb : Byte.isIntermediate b = true)
    (marker : Option UInt8) (params : Params) {is : List UInt8}
    (hroom : is.length < maxIntermediates) :
    step (.csiIntermediate marker params is) b
      = (.csiIntermediate marker params (is ++ [b]), []) := by
  rw [step, fromCsiIntermediate, if_pos hb, if_pos hroom]

/-- A final byte behind intermediates makes the sequence. -/
theorem step_csiIntermediate_final {b : UInt8} (hb : Byte.isFinal b = true)
    (marker : Option UInt8) (params : Params) (is : List UInt8) :
    step (.csiIntermediate marker params is) b
      = (.ground, [.message (.ofControlSequence marker params is b)]) := by
  obtain ⟨-, hintermediate, hparameter⟩ := isMarker_of_isFinal hb
  rw [step, fromCsiIntermediate, hintermediate, if_neg Bool.false_ne_true, hparameter,
    if_neg Bool.false_ne_true, if_pos hb]

/-- The intermediates of a control sequence behind its parameters. -/
theorem run_csi_intermediates (marker : Option UInt8) (r : ParamReader) {is : List UInt8}
    (hsome : is ≠ []) (his : Intermediates is) :
    Machine.run step (.csi marker r) is = (.csiIntermediate marker r.params is, []) := by
  -- the first intermediate changes the phase; the others are kept in it
  obtain ⟨first, js, rfl⟩ := List.exists_cons_of_ne_nil hsome
  have hfirst := (Machine.run_singleton _ _).trans
    (step_csi_intermediate (his.each first List.mem_cons_self) marker r)
  have hkeep : Machine.run step (.csiIntermediate marker r.params [first]) js
      = (.csiIntermediate marker r.params (first :: js), []) :=
    run_keep (.csiIntermediate marker r.params) (fun _ hroom c hc =>
      step_csiIntermediate (his.each c (List.mem_cons_of_mem first hc)) marker r.params hroom)
      [first] (Nat.add_comm 1 _ ▸ his.length_le)
  exact Machine.run_trans hfirst hkeep

/-- The rest of a control sequence behind its parameters. -/
theorem run_csi_tail (marker : Option UInt8) (r : ParamReader) {is : List UInt8} {final : UInt8}
    (his : Intermediates is) (hfinal : Byte.isFinal final = true) :
    Machine.run step (.csi marker r) (is ++ [final])
      = (.ground, [.message (.ofControlSequence marker r.params is final)]) := by
  by_cases hnone : is = []
  · subst hnone
    exact (Machine.run_singleton _ _).trans (step_csi_final hfinal marker r)
  · have hend := (Machine.run_singleton _ _).trans
      (step_csiIntermediate_final hfinal marker r.params is)
    exact Machine.run_trans (run_csi_intermediates marker r hnone his) hend

/-- **A control sequence is read from its parts.** -/
theorem run_csi {marker : Option UInt8} {params : Params} {is : List UInt8} {final : UInt8}
    (hmarker : ∀ b ∈ marker, Byte.isMarker b = true) (hparams : params.Canonical)
    (his : Intermediates is) (hfinal : Byte.isFinal final = true) :
    Machine.run step .ground ([Byte.escape, 0x5B] ++ marker.toList
        ++ Utf8.encode params.text.toList ++ is ++ [final])
      = (.ground, [.cut, .message (.ofControlSequence marker params is final)]) := by
  obtain ⟨r, hread, hr⟩ := (readsParameters_csi marker).run_text hparams
  have hopen : Machine.run step .ground [Byte.escape, 0x5B] = (.csi none {}, [.cut]) := rfl
  have htail := run_csi_tail marker r his hfinal
  rw [hr] at htail
  rw [List.append_assoc]
  exact Machine.run_trans
    (Machine.run_trans (Machine.run_trans hopen (run_csi_marker hmarker)) hread) htail

/-! ## Strings -/

/-- A payload that is all kept. -/
def filled (bytes : List UInt8) : Payload := { bytes := bytes.toArray }

/-- A phase that adds some bytes to its payload and takes no note of the others. -/
theorem run_keeping {phase : Payload → Decoder} (kept : UInt8 → Bool) {body : List UInt8}
    (hkept : ∀ p, ∀ b ∈ body, kept b = true → step (phase p) b = (phase (p.push b), []))
    (hskip : ∀ p, ∀ b ∈ body, kept b = false → step (phase p) b = (phase p, [])) (p : Payload) :
    Machine.run step (phase p) body = (phase ((body.filter kept).foldl Payload.push p), []) := by
  induction body generalizing p with
  | nil => rfl
  | cons b body ih =>
      have hrest := ih (fun q c hc => hkept q c (List.mem_cons_of_mem b hc))
        (fun q c hc => hskip q c (List.mem_cons_of_mem b hc))
      cases hb : kept b with
      | true =>
          rw [Machine.run_cons, hkept p b List.mem_cons_self hb, hrest, List.filter_cons_of_pos hb]
          rfl
      | false =>
          rw [Machine.run_cons, hskip p b List.mem_cons_self hb, hrest,
            List.filter_cons_of_neg (ne_true_of_eq_false hb)]
          rfl

/-- A phase that keeps certain bytes in its payload keeps all of them, as far as there is room. -/
theorem run_payload (phase : Payload → Decoder) {body : List UInt8}
    (hphase : ∀ p, ∀ b ∈ body, step (phase p) b = (phase (p.push b), []))
    (hroom : body.length ≤ Payload.limit) :
    Machine.run step (phase {}) body = (phase (filled body), []) := by
  have hrun := run_keeping (fun _ => true) (fun p b hb _ => hphase p b hb)
    (fun _ _ _ hnone => absurd hnone nofun) {}
  rw [List.filter_eq_self.mpr fun _ _ => rfl, Payload.foldl_push, List.take_of_length_le hroom,
    decide_eq_false (Nat.not_lt.mpr hroom)] at hrun
  exact hrun

/-! ### System commands -/

/-- A byte of a command joins its payload. -/
theorem step_osc {b : UInt8} (hb : 0x20 ≤ b.toNat) (p : Payload) :
    step (.osc p) b = (.osc (p.push b), []) := by
  have hle : 0x20 ≤ b := Utf8.le_of_toNat_le hb
  rw [step]
  grind [fromOsc, Byte.bell, Byte.escape, Byte.isCancel, Byte.isC0]

/-- A command is made when it ends, in either way. -/
theorem run_osc_ending (bytes : List UInt8) (ending : StringEnd) :
    Machine.run step (.osc (filled bytes)) ending.bytes
      = (.ground, [.message (.ofSystemCommand bytes ending)]) := by
  cases ending <;> rfl

/-- **A system command is read from its body.** -/
theorem run_osc {body : List UInt8} (hbody : IsCommandBody body)
    (hroom : body.length ≤ Payload.limit) (ending : StringEnd) :
    Machine.run step .ground ([Byte.escape, 0x5D] ++ body ++ ending.bytes)
      = (.ground, [.cut, .message (.ofSystemCommand body ending)]) := by
  have hopen : Machine.run step .ground [Byte.escape, 0x5D] = (.osc {}, [.cut]) := rfl
  have hread := run_payload .osc (fun p b hb => step_osc (hbody b hb) p) hroom
  exact Machine.run_trans (Machine.run_trans hopen hread) (run_osc_ending body ending)

/-! ### Device control strings -/

/-- An intermediate in the header of a device control closes the parameters. -/
theorem step_dcs_intermediate {b : UInt8} (hb : Byte.isIntermediate b = true) (marked : Bool)
    (r : ParamReader) (is : List UInt8) (hroom : is.length < maxIntermediates) :
    step (.dcs marked r is) b = (.dcs marked r.finish (is ++ [b]), []) := by
  rw [step, fromDcs, readParameter?_eq_none (Or.inl hb)]
  simp only [isMarker_of_isIntermediate hb, hb, Bool.false_eq_true, if_false, if_true]
  rw [if_pos hroom]

/-- The final byte of the header begins the data. -/
theorem step_dcs_final {b : UInt8} (hb : Byte.isFinal b = true) (marked : Bool) (r : ParamReader)
    (is : List UInt8) : step (.dcs marked r is) b = (.dcsData r.params is b {}, []) := by
  obtain ⟨hmarker, hintermediate, -⟩ := isMarker_of_isFinal hb
  rw [step, fromDcs, readParameter?_eq_none (Or.inr (Or.inr hb))]
  simp only [hmarker, hintermediate, hb, Bool.false_eq_true, if_false, if_true]

/-- Parameters that are closed stay so. -/
theorem finish_finish (r : ParamReader) : r.finish.finish = r.finish := by
  by_cases hbegun : r.started = true
  · rw [ParamReader.finish, ParamReader.finish, if_pos hbegun]
    rfl
  · rw [ParamReader.finish, ParamReader.finish, if_neg hbegun, if_neg hbegun]

/-- The rest of the header of a device control string behind its parameters. -/
theorem run_dcs_tail (r : ParamReader) {is : List UInt8} {final : UInt8} (his : Intermediates is)
    (hfinal : Byte.isFinal final = true) :
    Machine.run step (.dcs false r []) (is ++ [final]) = (.dcsData r.params is final {}, []) := by
  cases is with
  | nil => exact (Machine.run_singleton _ _).trans (step_dcs_final hfinal false r [])
  | cons first js =>
      -- the parameters end at the first intermediate, and ending them again changes nothing
      have hfirst := (Machine.run_singleton _ _).trans
        (step_dcs_intermediate (his.each first List.mem_cons_self) false r []
          (by decide))
      have hstep : ∀ kept : List UInt8, kept.length < maxIntermediates → ∀ b ∈ js,
          step (.dcs false r.finish kept) b = (.dcs false r.finish (kept ++ [b]), []) := by
        intro kept hroom b hb
        rw [step_dcs_intermediate (his.each b (List.mem_cons_of_mem first hb)) false _ _ hroom,
          finish_finish]
      have hkeep : Machine.run step (.dcs false r.finish [first]) js
          = (.dcs false r.finish (first :: js), []) :=
        run_keep (.dcs false r.finish) hstep [first] (Nat.add_comm 1 _ ▸ his.length_le)
      have hend := (Machine.run_singleton _ _).trans
        (step_dcs_final hfinal false r.finish (first :: js))
      rw [ParamReader.params, finish_finish] at hend
      exact Machine.run_trans (Machine.run_trans hfirst hkeep) hend

/-- A byte of data joins the payload. -/
theorem step_dcsData {b : UInt8} (hb : IsData b) (params : Params) (is : List UInt8)
    (final : UInt8) (p : Payload) :
    step (.dcsData params is final p) b = (.dcsData params is final (p.push b), []) := by
  obtain ⟨hescape, hcancel, hdelete⟩ := hb
  rw [step, fromDcsData, if_neg hescape, hcancel, if_neg Bool.false_ne_true, if_neg hdelete]

/-- **A device control string is read from its parts.** -/
theorem run_dcs {params : Params} {is : List UInt8} {final : UInt8} {data : List UInt8}
    (hparams : params.Canonical) (his : Intermediates is) (hfinal : Byte.isFinal final = true)
    (hdata : IsDataBody data) :
    Machine.run step .ground ([Byte.escape, 0x50] ++ Utf8.encode params.text.toList ++ is
        ++ [final] ++ data ++ StringEnd.st.bytes)
      = (.ground, [.cut, .message (.dcs params is final data)]) := by
  obtain ⟨r, hread, hr⟩ := (readsParameters_dcs false []).run_text hparams
  have hopen : Machine.run step .ground [Byte.escape, 0x50] = (.dcs false {} [], [.cut]) := rfl
  have hheader := run_dcs_tail r his hfinal
  rw [hr] at hheader
  have hend : Machine.run step (.dcsData params is final (filled data)) StringEnd.st.bytes
      = (.ground, [.message (.dcs params is final data)]) := rfl
  have hbody := run_payload (.dcsData params is final)
    (fun p b hb => step_dcsData (hdata.each b hb) params is final p) hdata.length_le
  rw [List.append_assoc _ is]
  exact Machine.run_trans
    (Machine.run_trans (Machine.run_trans (Machine.run_trans hopen hread) hheader) hbody) hend

end Decoder

end VideoTerminal
