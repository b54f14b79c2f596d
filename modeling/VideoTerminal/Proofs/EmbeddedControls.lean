import VideoTerminal.Proofs.ControlSequences

/-!
# Controls in the middle of a sequence

A control may come in the middle of an escape sequence or of a control sequence.  It is executed at
once, and the sequence goes on as if it had not come; a delete is not even executed.  Whatever has
been read of the sequence is kept, in each of the phases that it goes through, the one of malformed
sequences among them.

So the messages of such a stream are the controls, and then those of the sequence alone.  Strings
are different: there the same bytes are data.

Which bytes make a sequence is said by a grammar, `IsSequence`.  It is the grammar that the decoder
goes by (`Decoder.isSequence_iff`).
-/

namespace VideoTerminal

namespace Byte

/-- A byte that may stand in the middle of a sequence without being part of it: a control that
neither begins a sequence nor abandons one, or a delete. -/
def isEmbeddable (b : UInt8) : Bool := (isC0 b && b != escape && !isCancel b) || b == delete

theorem isC0_of_range {b : UInt8} (hb : 0x20 ≤ b ∧ b ≤ 0x7E) : isC0 b = false := by
  grind [isC0]

end Byte

/-- What may stand between the escape and the final byte of a sequence that is no string: any number
of intermediates, or an introducer and bytes of a control sequence, well formed or not. -/
inductive IsInterior : List UInt8 → Prop
  | escape {is : List UInt8} (his : ∀ b ∈ is, Byte.isIntermediate b = true) : IsInterior is
  | control {body : List UInt8} (hbody : ∀ b ∈ body, 0x20 ≤ b ∧ b ≤ 0x3F) :
      IsInterior (0x5B :: body)

/-- The bytes between the escape and the final byte of a sequence that is no string, and the final
byte. -/
inductive IsSequence : List UInt8 → UInt8 → Prop
  | lone {final : UInt8} (hfinal : Byte.isLoneFinal final = true) : IsSequence [] final
  | escape {is : List UInt8} (hsome : is ≠ []) (his : ∀ b ∈ is, Byte.isIntermediate b = true)
      {final : UInt8} (hfinal : Byte.isEscapeFinal final = true) : IsSequence is final
  | control {body : List UInt8} (hbody : ∀ b ∈ body, 0x20 ≤ b ∧ b ≤ 0x3F) {final : UInt8}
      (hfinal : Byte.isFinal final = true) : IsSequence (0x5B :: body) final

theorem IsSequence.isInterior {body : List UInt8} {final : UInt8} (h : IsSequence body final) :
    IsInterior body := by
  cases h with
  | lone => exact .escape fun _ hb => absurd hb List.not_mem_nil
  | escape _ his _ => exact .escape his
  | control hbody _ => exact .control hbody

theorem IsSequence.range_final {body : List UInt8} {final : UInt8} (h : IsSequence body final) :
    0x20 ≤ final ∧ final ≤ 0x7E := by
  cases h with
  | lone hfinal => grind [Byte.isLoneFinal, Byte.isEscapeFinal]
  | escape _ _ hfinal => grind [Byte.isEscapeFinal]
  | control _ hfinal => grind [Byte.isFinal]

namespace IsInterior

variable {body : List UInt8} {b : UInt8}

theorem of_concat (h : IsInterior (body ++ [b])) : IsInterior body := by
  generalize hbytes : body ++ [b] = bytes at h
  cases h with
  | escape his => exact .escape fun c hc => his c (hbytes ▸ List.mem_append_left _ hc)
  | control hrest =>
      cases body with
      | nil => exact .escape fun _ hc => absurd hc List.not_mem_nil
      | cons c cs =>
          obtain ⟨rfl, rfl⟩ := List.cons.inj hbytes
          exact .control fun c hc => hrest c (List.mem_append_left _ hc)

theorem range (h : IsInterior body) : ∀ b ∈ body, 0x20 ≤ b ∧ b ≤ 0x7E := by
  intro b hb
  cases h with
  | escape his =>
      have hclass := his b hb
      grind [Byte.isIntermediate]
  | control hrest =>
      rcases List.mem_cons.mp hb with rfl | hb
      · decide
      · have hclass := hrest b hb
        grind

end IsInterior

namespace Decoder

/-- The phases of a control sequence. -/
def isInControl : Decoder → Bool
  | .csi _ _ | .csiIntermediate _ _ _ | .csiIgnore => true
  | _ => false

/-- The phases of a sequence that is no string. -/
def isInSequence : Decoder → Bool
  | .escape | .escapeIntermediate _ => true
  | d => d.isInControl

variable {d : Decoder} {b : UInt8} {body : List UInt8} {final : UInt8}

theorem isInSequence_of_isInControl (hd : d.isInControl = true) : d.isInSequence = true := by
  cases d with
  | escape | escapeIntermediate is => rfl
  | _ => exact hd

/-! ## The sequence alone -/

theorem run_escape_intermediates {is : List UInt8} (hsome : is ≠ [])
    (his : ∀ b ∈ is, Byte.isIntermediate b = true) :
    ∃ kept, Machine.run step .escape is = (.escapeIntermediate kept, []) := by
  obtain ⟨first, js, rfl⟩ := List.exists_cons_of_ne_nil hsome
  have hopen := (Machine.run_singleton _ _).trans
    (step_escape_intermediate (his first List.mem_cons_self))
  have hkept : ∀ d : Decoder, ∀ b ∈ js, (∃ kept, d = .escapeIntermediate kept) →
      ∃ u : Decoder, (∃ kept, u = .escapeIntermediate kept) ∧ d.step b = (u, []) := by
    rintro _ b hb ⟨kept, rfl⟩
    refine ⟨_, ⟨keepIntermediate kept b, rfl⟩, ?_⟩
    rw [step, fromEscapeIntermediate, if_pos (his b (List.mem_cons_of_mem first hb))]
  obtain ⟨_, ⟨kept, rfl⟩, hrest⟩ := Machine.run_silent hkept ⟨[first], rfl⟩
  exact ⟨kept, Machine.run_trans hopen hrest⟩

/-- A byte between the introducer and the final byte leaves the decoder in the sequence. -/
theorem step_isInControl (hd : d.isInControl = true) (hb : 0x20 ≤ b ∧ b ≤ 0x3F) :
    ∃ u : Decoder, u.isInControl = true ∧ d.step b = (u, []) := by
  cases d with
  | csi marker r =>
      rcases class_of_range hb with hintermediate | hparam | hmarker
      · exact ⟨_, rfl, step_csi_intermediate hintermediate marker r⟩
      · obtain ⟨r', hread⟩ : ∃ r', readParameter? r b = some r' := by
          rw [Byte.isOfParams, Bool.or_eq_true, Bool.or_eq_true, beq_iff_eq, beq_iff_eq] at hparam
          rcases hparam with (hdigit | rfl) | rfl
          · exact ⟨_, if_pos hdigit⟩
          · exact ⟨_, rfl⟩
          · exact ⟨_, rfl⟩
        exact ⟨_, rfl, (readsParameters_csi marker).step r b r' hread⟩
      · rw [step, fromCsi, readParameter?_eq_none (.inr (.inl hmarker))]
        dsimp only
        rw [if_pos hmarker]
        split <;> exact ⟨_, rfl, rfl⟩
  | csiIntermediate marker params is =>
      rw [step, fromCsiIntermediate]
      by_cases hintermediate : Byte.isIntermediate b = true
      · rw [if_pos hintermediate]
        split <;> exact ⟨_, rfl, rfl⟩
      · have hparameter : Byte.isParameter b = true := by
          grind [Byte.isIntermediate, Byte.isParameter]
        rw [if_neg hintermediate, if_pos hparameter]
        exact ⟨_, rfl, rfl⟩
  | csiIgnore => exact ⟨_, rfl, step_csiIgnore hb⟩
  | _ => cases hd

theorem step_final_of_isInControl (hd : d.isInControl = true) (hb : Byte.isFinal b = true) :
    ∃ ms : List Message, d.step b = (.ground, ms.map .message) := by
  cases d with
  | csi marker r => exact ⟨[_], step_csi_final hb marker r⟩
  | csiIntermediate marker params is => exact ⟨[_], step_csiIntermediate_final hb marker params is⟩
  | csiIgnore => exact ⟨[], step_csiIgnore_final hb⟩
  | _ => cases hd

theorem run_control (hbody : ∀ b ∈ body, 0x20 ≤ b ∧ b ≤ 0x3F) :
    ∃ u : Decoder, u.isInControl = true ∧
      Machine.run step .escape (0x5B :: body) = (u, []) := by
  have hopen : Machine.run step .escape [0x5B] = (.csi none {}, []) := rfl
  have hkept : ∀ d : Decoder, ∀ b ∈ body, d.isInControl = true →
      ∃ u : Decoder, u.isInControl = true ∧ d.step b = (u, []) :=
    fun d b hb hd => step_isInControl hd (hbody b hb)
  obtain ⟨u, hu, hrest⟩ :=
    Machine.run_silent hkept (show isInControl (.csi none {}) = true from rfl)
  exact ⟨u, hu, Machine.run_trans hopen hrest⟩

/-- Before its final byte a sequence is under way, and nothing is completed. -/
theorem run_interior (h : IsInterior body) :
    ∃ u : Decoder, u.isInSequence = true ∧ Machine.run step .escape body = (u, []) := by
  cases h with
  | escape his =>
      by_cases hsome : body = []
      · subst hsome
        exact ⟨_, rfl, rfl⟩
      · obtain ⟨kept, hrun⟩ := run_escape_intermediates hsome his
        exact ⟨_, rfl, hrun⟩
  | control hbody =>
      obtain ⟨u, hu, hrun⟩ := run_control hbody
      exact ⟨u, isInSequence_of_isInControl hu, hrun⟩

/-- A sequence leads back to the ground with its final byte. -/
theorem run_sequence (h : IsSequence body final) :
    ∃ ms : List Message,
      (Machine.run step .escape body).1.step final = (.ground, ms.map .message) := by
  cases h with
  | lone hfinal => exact ⟨[_], step_loneFinal hfinal⟩
  | escape hsome his hfinal =>
      obtain ⟨kept, hrun⟩ := run_escape_intermediates hsome his
      rw [hrun]
      exact ⟨[_], step_escapeIntermediate_final hfinal kept⟩
  | control hbody hfinal =>
      obtain ⟨u, hu, hrun⟩ := run_control hbody
      rw [hrun]
      exact step_final_of_isInControl hu hfinal

/-! ## Which bytes make a sequence -/

/-- The phases from which bytes of text do not lead into a sequence. -/
def isOutside : Decoder → Bool
  | .ground | .osc _ | .dcs _ _ _ | .dcsData _ _ _ _ | .controlString => true
  | _ => false

theorem isInSequence_of_isOutside (hd : d.isOutside = true) : d.isInSequence = false := by
  cases d with
  | escape | escapeIntermediate is | csi marker r | csiIntermediate marker params is | csiIgnore =>
      cases hd
  | _ => rfl

theorem step_isOutside (hd : d.isOutside = true) (hb : 0x20 ≤ b ∧ b ≤ 0x7E) :
    (d.step b).1.isOutside = true := by
  cases d with
  | ground =>
      rw [step]
      grind [fromGround, isOutside, Byte.escape]
  | osc p =>
      rw [step]
      grind [fromOsc, isOutside, Byte.escape, Byte.bell, Byte.isCancel, Byte.isC0]
  | dcs marked r is =>
      rw [step]
      grind [fromDcs, isOutside, Byte.escape, Byte.isCancel]
  | dcsData params is final p =>
      rw [step]
      grind [fromDcsData, isOutside, Byte.escape, Byte.isCancel]
  | controlString =>
      rw [step]
      grind [fromControlString, isOutside, Byte.escape, Byte.isCancel]
  | _ => cases hd

/-- Text within a sequence belongs to it, or ends it, or turns it into a string. -/
theorem step_interior (h : IsInterior body) (hb : 0x20 ≤ b ∧ b ≤ 0x7E) :
    IsInterior (body ++ [b]) ∨
      ((Machine.run step .escape body).1.step b).1.isOutside = true := by
  cases h with
  | escape his =>
      by_cases hclass : Byte.isIntermediate b = true
      · exact .inl (.escape (List.forall_mem_append.mpr
          ⟨his, List.forall_mem_singleton.mpr hclass⟩))
      by_cases hsome : body = []
      · subst hsome
        by_cases hopen : b = 0x5B
        · subst hopen
          exact .inl (.control fun c hc => absurd hc List.not_mem_nil)
        · refine .inr ?_
          rw [Machine.run_nil, step]
          grind [fromEscape, isOutside, Byte.isIntermediate, Byte.isEscapeFinal]
      · obtain ⟨kept, hrun⟩ := run_escape_intermediates hsome his
        have hfinal : Byte.isEscapeFinal b = true := by
          grind [Byte.isIntermediate, Byte.isEscapeFinal]
        rw [hrun, step_escapeIntermediate_final hfinal]
        exact .inr rfl
  | control hrest =>
      by_cases hle : b ≤ 0x3F
      · exact .inl (.control (List.forall_mem_append.mpr
          ⟨hrest, List.forall_mem_singleton.mpr ⟨hb.1, hle⟩⟩))
      · obtain ⟨u, hu, hrun⟩ := run_control hrest
        have hfinal : Byte.isFinal b = true := by grind [Byte.isFinal]
        obtain ⟨ms, hend⟩ := step_final_of_isInControl hu hfinal
        rw [hrun, hend]
        exact .inr rfl

/-- Text behind an escape is within a sequence, or has led out of it. -/
theorem isInterior_or_isOutside (hbody : ∀ b ∈ body, 0x20 ≤ b ∧ b ≤ 0x7E) :
    IsInterior body ∨ (Machine.run step .escape body).1.isOutside = true := by
  induction body using List.reverseRecOn with
  | nil => exact .inl (.escape fun _ hb => absurd hb List.not_mem_nil)
  | append_singleton body b ih =>
      obtain ⟨hbody, hb⟩ := List.forall_mem_append.mp hbody
      rw [List.forall_mem_singleton] at hb
      rw [Machine.run_append, Machine.run_singleton]
      rcases ih hbody with hinterior | houtside
      · exact step_interior hinterior hb
      · exact .inr (step_isOutside houtside hb)

/-- **The sequences** are the bytes of text behind an escape that lead back to the ground from the
    middle of a sequence. -/
theorem isSequence_iff :
    IsSequence body final ↔ (∀ b ∈ body ++ [final], 0x20 ≤ b ∧ b ≤ 0x7E) ∧
      (Machine.run step .escape body).1.isInSequence = true ∧
      (Machine.run step .escape (body ++ [final])).1 = .ground := by
  constructor
  · intro h
    obtain ⟨u, hu, hrun⟩ := run_interior h.isInterior
    obtain ⟨ms, hfinal⟩ := run_sequence h
    refine ⟨?_, ?_, ?_⟩
    · exact List.forall_mem_append.mpr
        ⟨h.isInterior.range, List.forall_mem_singleton.mpr h.range_final⟩
    · rwa [hrun]
    · rw [Machine.run_append, Machine.run_singleton, hfinal]
  · rintro ⟨hrange, hinside, hground⟩
    obtain ⟨hbody, hfinal⟩ := List.forall_mem_append.mp hrange
    rw [List.forall_mem_singleton] at hfinal
    rw [Machine.run_append, Machine.run_singleton] at hground
    rcases isInterior_or_isOutside hbody with hinterior | houtside
    · cases hinterior with
      | escape his =>
          by_cases hsome : body = []
          · subst hsome
            rw [Machine.run_nil, step] at hground
            refine .lone ?_
            grind [fromEscape, interrupt, Byte.isLoneFinal, Byte.isIntermediate, Byte.isEscapeFinal]
          · obtain ⟨kept, hrun⟩ := run_escape_intermediates hsome his
            rw [hrun] at hground
            refine .escape hsome his ?_
            by_cases hclass : Byte.isIntermediate final = true
            · rw [step, fromEscapeIntermediate, if_pos hclass] at hground
              cases hground
            · grind [Byte.isIntermediate, Byte.isEscapeFinal]
      | control hrest =>
          refine .control hrest ?_
          obtain ⟨u, hu, hrun⟩ := run_control hrest
          rw [hrun] at hground
          by_cases hle : final ≤ 0x3F
          · obtain ⟨v, hv, hstep⟩ := step_isInControl hu ⟨hfinal.1, hle⟩
            rw [hstep] at hground
            subst hground
            cases hv
          · grind [Byte.isFinal]
    · rw [isInSequence_of_isOutside houtside] at hinside
      cases hinside

/-! ## With controls in it -/

/-- Behind an escape messages are given out as they come. -/
theorem push_of_run {bytes : List UInt8} {ms : List Message}
    (h : Machine.run step .escape bytes = (.ground, ms.map .message)) :
    push .ground (Byte.escape :: bytes) = (.ground, ms) := by
  rw [push_eq_run, Machine.run_cons, step_escape, h]
  exact congrArg (Prod.mk _) (Emission.batch_cut_messages ms)

/-- In the middle of a sequence a control is executed, and the sequence goes on. -/
theorem step_embeddable (hd : d.isInSequence = true) (hb : Byte.isEmbeddable b = true) :
    d.step b = (d, if Byte.isC0 b then [.message (.control b)] else []) := by
  have hinterrupt : ∀ d : Decoder,
      d.interrupt b = (d, if Byte.isC0 b then [.message (.control b)] else []) := by
    intro d
    grind [interrupt, Byte.isEmbeddable, Byte.isC0, Byte.isCancel, Byte.escape, Byte.delete]
  -- it is of no class that a phase looks for
  have hother : Byte.isIntermediate b = false ∧ Byte.isEscapeFinal b = false ∧
      Byte.isFinal b = false ∧ Byte.isParameter b = false ∧ Byte.isMarker b = false := by
    grind [Byte.isEmbeddable, Byte.isC0, Byte.delete, Byte.isIntermediate, Byte.isEscapeFinal,
      Byte.isFinal, Byte.isParameter, Byte.isMarker]
  cases d with
  | escape =>
      rw [step, ← hinterrupt]
      grind [fromEscape, Byte.isEmbeddable, Byte.isC0, Byte.delete]
  | escapeIntermediate is =>
      rw [step, ← hinterrupt]
      simp only [fromEscapeIntermediate, hother, Bool.false_eq_true, if_false]
  | csi marker r =>
      have hread : readParameter? r b = none := by
        grind [readParameter?, Byte.isDigit, Byte.colon, Byte.semicolon, Byte.isParameter]
      rw [step, ← hinterrupt, fromCsi, hread]
      simp only [hother, Bool.false_eq_true, if_false]
  | csiIntermediate marker params is =>
      rw [step, ← hinterrupt]
      simp only [fromCsiIntermediate, hother, Bool.false_eq_true, if_false]
  | csiIgnore =>
      rw [step, ← hinterrupt]
      simp only [fromCsiIgnore, hother, Bool.or_self, Bool.false_eq_true, if_false]
  | _ => cases hd

/-- Embedded bytes leave the decoder in the phase to which the others lead, and what comes out are
    the controls among them. -/
theorem run_embedded {inner : List UInt8} (h : IsInterior (inner.filter (!Byte.isEmbeddable ·))) :
    Machine.run step .escape inner
      = ((Machine.run step .escape (inner.filter (!Byte.isEmbeddable ·))).1,
        ((inner.filter Byte.isC0).map Message.control).map .message) := by
  -- from the end, since what stands in front of the last byte is within a sequence again
  induction inner using List.reverseRecOn with
  | nil => rfl
  | append_singleton inner b ih =>
      cases hb : Byte.isEmbeddable b with
      | true =>
          have hsame : (inner ++ [b]).filter (!Byte.isEmbeddable ·)
              = inner.filter (!Byte.isEmbeddable ·) := by simp [hb]
          rw [hsame] at h ⊢
          obtain ⟨u, hu, hrun⟩ := run_interior h
          have hinner := ih h
          rw [hrun] at hinner ⊢
          rw [Machine.run_trans hinner ((Machine.run_singleton _ _).trans (step_embeddable hu hb)),
            List.filter_append, List.map_append, List.map_append]
          cases hc0 : Byte.isC0 b <;> simp [hc0]
      | false =>
          have hmore : (inner ++ [b]).filter (!Byte.isEmbeddable ·)
              = inner.filter (!Byte.isEmbeddable ·) ++ [b] := by simp [hb]
          rw [hmore] at h ⊢
          obtain ⟨u, -, hrun⟩ := run_interior h
          obtain ⟨v, -, hbefore⟩ := run_interior h.of_concat
          -- the byte completes nothing, with or without the others
          have hstep : v.step b = (u, []) := by
            rw [Machine.run_append, hbefore, Machine.run_singleton] at hrun
            exact hrun
          have hinner := ih h.of_concat
          rw [hbefore] at hinner
          have hc0 : Byte.isC0 b = false :=
            Byte.isC0_of_range (h.range b (List.mem_append_right _ (List.mem_singleton_self b)))
          rw [hrun, Machine.run_trans hinner ((Machine.run_singleton _ _).trans hstep),
            List.filter_append]
          simp [hc0]

/-- **Controls in the middle of a sequence.**  Let bytes be put into a sequence that is no string,
    anywhere between its escape and its final byte: controls that neither begin a sequence nor
    abandon one, and deletes.  A decoder between two units gives the controls, in order, and then
    what it gives for the sequence alone, and it stands between two units again. -/
theorem push_embedded (hd : d.isIdle = true) (h : IsSequence body final) {inner : List UInt8}
    (hinner : inner.filter (!Byte.isEmbeddable ·) = body) :
    let alone := d.push (Byte.escape :: (body ++ [final]))
    alone.1 = .ground ∧
    d.push (Byte.escape :: (inner ++ [final]))
      = (.ground, (inner.filter Byte.isC0).map .control ++ alone.2) := by
  obtain rfl : d = .ground := of_decide_eq_true hd
  subst hinner
  obtain ⟨u, -, hbody⟩ := run_interior h.isInterior
  obtain ⟨ms, hfinal⟩ := run_sequence h
  have hinner := run_embedded h.isInterior
  rw [hbody] at hfinal hinner
  have hend := (Machine.run_singleton _ _).trans hfinal
  have htogether := Machine.run_trans hinner hend
  rw [← List.map_append] at htogether
  rw [push_of_run (Machine.run_trans hbody hend), push_of_run htogether]
  exact ⟨rfl, rfl⟩

/-- Controls behind the escape, the introducer, the marker, in the parameters and behind an
    intermediate. -/
theorem push_embedded_mixed :
    let inner : List UInt8 :=
      [0x07, 0x5B, 0x0A, 0x3F, 0x7F, 0x31, 0x08, 0x3B, 0x32, 0x24, 0x0D]
    let body : List UInt8 := [0x5B, 0x3F, 0x31, 0x3B, 0x32, 0x24]
    isIdle .ground = true ∧ IsSequence body 0x70 ∧
      inner.filter (!Byte.isEmbeddable ·) = body ∧
      push .ground (Byte.escape :: (inner ++ [0x70]))
        = (.ground, [.control 0x07, .control 0x0A, .control 0x08, .control 0x0D,
            .csi (some 0x3F) ⟨[[some 1], [some 2]]⟩ [0x24] 0x70]) := by
  intro inner body
  have hsequence : IsSequence body 0x70 := .control (by decide +kernel) rfl
  have hinner : inner.filter (!Byte.isEmbeddable ·) = body := by decide +kernel
  refine ⟨rfl, hsequence, hinner, ?_⟩
  rw [(push_embedded rfl hsequence hinner).2]
  decide +kernel

end Decoder

end VideoTerminal
