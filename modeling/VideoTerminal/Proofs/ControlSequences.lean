import Mathlib.Data.List.Induction
import Mathlib.Data.Nat.Digits.Defs
import VideoTerminal.Proofs.Reading

/-!
# The grammar of control sequences

Between its introducer and its final byte a control sequence has one marker at most, then a
parameter string, then intermediates.  `IsBody` says so of the bytes as a whole, and
`Params.ofBytes` reads the whole parameter string by splitting it.  The decoder knows neither: it
takes one byte after the other, and drops a sequence once it has gone wrong.

Both come to the same.  The reader of parameters is compared with `Params.ofBytes` by induction on
the string, growing at its end, since that is where it is read; `ParamReader.Holds` is what the
reader has then.  Bodies grow at their end, too: a byte either makes a longer body of one, or it
spoils it, and then the decoder ignores everything up to the final byte.
-/

namespace VideoTerminal

/-! ## Splitting lists that grow at their end -/

/-- Another part begins behind a separator. -/
theorem splitOnP_concat_self {p : UInt8 → Bool} {x : UInt8} (hx : p x = true) (xs : List UInt8) :
    (xs ++ [x]).splitOnP p = xs.splitOnP p ++ [[]] := by
  rw [List.splitOnP_append_cons xs [] hx, List.splitOnP_nil]

/-- Anything else goes to the last part. -/
theorem splitOnP_concat {p : UInt8 → Bool} {x : UInt8} (hx : p x = false) {xs : List UInt8}
    {parts : List (List UInt8)} {last : List UInt8} (h : xs.splitOnP p = parts ++ [last]) :
    (xs ++ [x]).splitOnP p = parts ++ [last ++ [x]] := by
  induction xs generalizing parts last with
  | nil =>
      rw [List.splitOnP_nil] at h
      obtain ⟨rfl, hlast⟩ | ⟨-, hnil⟩ := List.singleton_eq_append_iff.mp h
      · obtain rfl := (List.cons.inj hlast).1
        refine List.splitOnP_eq_singleton fun y hy => ?_
        rw [List.mem_singleton.mp hy]
        exact hx
      · exact absurd hnil (List.cons_ne_nil _ _)
  | cons y ys ih =>
      rw [List.splitOnP_cons_eq_if_modifyHead] at h
      rw [List.cons_append, List.splitOnP_cons_eq_if_modifyHead]
      split at h
      · next hsep =>
        rw [if_pos hsep]
        cases parts with
        | nil => exact absurd (List.cons.inj h).2 (List.splitOnP_ne_nil _ _)
        | cons part parts =>
            obtain ⟨rfl, hrest⟩ := List.cons.inj h
            rw [ih hrest, List.cons_append]
      · next hsep =>
        rw [if_neg hsep]
        -- the first part takes the first byte, whether it is the last part or not
        obtain ⟨first, rest, hfirst⟩ := List.exists_cons_of_ne_nil (List.splitOnP_ne_nil p ys)
        rw [hfirst, List.modifyHead_cons] at h
        cases parts with
        | nil =>
            obtain ⟨rfl, rfl⟩ := List.cons.inj h
            rw [@ih [] first hfirst]
            rfl
        | cons part parts =>
            obtain ⟨rfl, rfl⟩ := List.cons.inj h
            rw [@ih (first :: parts) last hfirst]
            rfl

theorem splitOn_concat_self (sep : UInt8) (xs : List UInt8) :
    (xs ++ [sep]).splitOn sep = xs.splitOn sep ++ [[]] :=
  splitOnP_concat_self (p := (· == sep)) (beq_self_eq_true sep) xs

theorem splitOn_concat_of_ne {sep x : UInt8} (hx : x ≠ sep) {xs : List UInt8}
    {parts : List (List UInt8)} {last : List UInt8} (h : xs.splitOn sep = parts ++ [last]) :
    (xs ++ [x]).splitOn sep = parts ++ [last ++ [x]] :=
  splitOnP_concat (p := (· == sep)) (beq_eq_false_iff_ne.mpr hx) h

/-- Adding to a list as far as there is room is cutting the longer list. -/
theorem take_concat {α : Type} (room : Nat) (xs : List α) (x : α) :
    (if (xs.take room).length < room then xs.take room ++ [x] else xs.take room)
      = (xs ++ [x]).take room := by
  rw [List.take_append, List.length_take]
  split
  · rw [List.take_of_length_le (show [x].length ≤ room - xs.length by
      rw [List.length_singleton]; omega)]
  · rw [show room - xs.length = 0 by omega, List.take_zero, List.append_nil]

/-! ## Parameters of a whole string -/

/-- A byte of a parameter string: a digit or one of the separators. -/
def Byte.isOfParams (b : UInt8) : Bool := isDigit b || b == colon || b == semicolon

namespace Params

/-- The number of a slot in decimal, as far as numbers go; nothing where the slot is empty. -/
def ofSlot (digits : List UInt8) : Option Nat :=
  if digits = [] then none
  else some (min (Nat.ofDigits 10 (digits.reverse.map fun b => b.toNat - 0x30)) maxValue)

/-- The slots of a group, as many as are kept. -/
def ofGroup (bytes : List UInt8) : List (Option Nat) :=
  ((bytes.splitOn Byte.colon).map ofSlot).take maxSlots

/-- The groups of a parameter string, as many as are kept.  An empty string has none. -/
def ofBytes (bytes : List UInt8) : Params :=
  if bytes = [] then ⟨[]⟩ else ⟨((bytes.splitOn Byte.semicolon).map ofGroup).take maxGroups⟩

/-- One digit more is read as the reader does it, with the number cut at once. -/
theorem ofSlot_concat (digits : List UInt8) (b : UInt8) :
    ofSlot (digits ++ [b])
      = some (min ((ofSlot digits).getD 0 * 10 + (b.toNat - 0x30)) maxValue) := by
  have hsome : digits ++ [b] ≠ [] := List.append_ne_nil_of_right_ne_nil _ (List.cons_ne_nil _ _)
  rw [ofSlot, if_neg hsome, List.reverse_append, List.reverse_singleton, List.singleton_append,
    List.map_cons, Nat.ofDigits_cons]
  by_cases hnil : digits = []
  · subst hnil
    rw [ofSlot, if_pos rfl, List.reverse_nil, List.map_nil, Nat.ofDigits_nil, Option.getD_none]
    congr 2
    omega
  · rw [ofSlot, if_neg hnil, Option.getD_some]
    generalize Nat.ofDigits 10 (digits.reverse.map fun b => b.toNat - 0x30) = n
    congr 1
    have hmax : maxValue = 65535 := rfl
    omega

end Params

/-! ## The reader -/

namespace ParamReader

/-- What a reader has of a parameter string: the closed groups in front, the closed slots of the
    open group, and the digits of the open slot. -/
structure Holds (r : ParamReader) (bytes : List UInt8) (groups : List (List UInt8))
    (group : List UInt8) (slots : List (List UInt8)) (slot : List UInt8) : Prop where
  split : bytes.splitOn Byte.semicolon = groups ++ [group]
  split_group : group.splitOn Byte.colon = slots ++ [slot]
  groups_eq : r.groups = (groups.map Params.ofGroup).take Params.maxGroups
  slots_eq : r.slots = (slots.map Params.ofSlot).take Params.maxSlots
  value_eq : r.value = Params.ofSlot slot
  started_eq : r.started = decide (bytes ≠ [])

namespace Holds

variable {r : ParamReader} {bytes group slot : List UInt8} {groups slots : List (List UInt8)}

theorem empty : Holds {} [] [] [] [] [] := ⟨rfl, rfl, rfl, rfl, rfl, rfl⟩

theorem openGroup (h : Holds r bytes groups group slots slot) :
    r.openGroup = Params.ofGroup group := by
  rw [ParamReader.openGroup, h.slots_eq, h.value_eq, take_concat, Params.ofGroup, h.split_group,
    List.map_append, List.map_singleton]

theorem allGroups (h : Holds r bytes groups group slots slot) :
    r.allGroups
      = ((bytes.splitOn Byte.semicolon).map Params.ofGroup).take Params.maxGroups := by
  rw [ParamReader.allGroups, h.openGroup, h.groups_eq, take_concat, h.split, List.map_append,
    List.map_singleton]

/-- At the end of the string the reader has the parameters of the whole. -/
theorem params (h : Holds r bytes groups group slots slot) : r.params = Params.ofBytes bytes := by
  rw [ParamReader.params, finish, Params.ofBytes]
  by_cases hnil : bytes = []
  · subst hnil
    obtain ⟨rfl, -⟩ : groups = [] ∧ [group] = [[]] := by
      obtain ⟨rfl, hlast⟩ | ⟨-, hnil⟩ :=
        List.singleton_eq_append_iff.mp ((List.splitOn_nil _).symm.trans h.split)
      · exact ⟨rfl, hlast⟩
      · exact absurd hnil (List.cons_ne_nil _ _)
    rw [h.started_eq, if_pos rfl]
    exact congrArg Params.mk h.groups_eq
  · rw [h.started_eq, decide_eq_true hnil, if_pos rfl, if_neg hnil]
    exact congrArg Params.mk h.allGroups

/-! ### Steps of the reader -/

theorem started_concat (bytes : List UInt8) (b : UInt8) : true = decide (bytes ++ [b] ≠ []) :=
  (decide_eq_true (List.append_ne_nil_of_right_ne_nil _ (List.cons_ne_nil _ _))).symm

theorem digit (h : Holds r bytes groups group slots slot) {b : UInt8}
    (hb : Byte.isDigit b = true) :
    Holds (r.digit (b.toNat - 0x30)) (bytes ++ [b]) groups (group ++ [b]) slots
      (slot ++ [b]) := by
  have hcolon : b ≠ Byte.colon := by
    rintro rfl
    exact absurd hb (by decide)
  have hsemicolon : b ≠ Byte.semicolon := by
    rintro rfl
    exact absurd hb (by decide)
  refine ⟨splitOn_concat_of_ne hsemicolon h.split, splitOn_concat_of_ne hcolon h.split_group,
    h.groups_eq, h.slots_eq, ?_, started_concat bytes b⟩
  rw [Params.ofSlot_concat, ← h.value_eq]
  rfl

theorem closeSlot (h : Holds r bytes groups group slots slot) :
    Holds r.closeSlot (bytes ++ [Byte.colon]) groups (group ++ [Byte.colon]) (slots ++ [slot])
      [] := by
  refine ⟨splitOn_concat_of_ne (by decide) h.split, ?_, h.groups_eq, ?_, rfl,
    started_concat bytes _⟩
  · rw [splitOn_concat_self, h.split_group]
  · show r.openGroup = _
    rw [h.openGroup, Params.ofGroup, h.split_group]

theorem closeGroup (h : Holds r bytes groups group slots slot) :
    Holds r.closeGroup (bytes ++ [Byte.semicolon]) (groups ++ [group]) [] [] [] := by
  refine ⟨?_, rfl, ?_, rfl, rfl, started_concat bytes _⟩
  · rw [splitOn_concat_self, h.split]
  · show r.allGroups = _
    rw [h.allGroups, h.split]

end Holds

/-- Behind a string the reader takes one byte more. -/
theorem read_concat {bytes : List UInt8} {r : ParamReader}
    (h : bytes.foldlM Decoder.readParameter? {} = some r) (b : UInt8) :
    (bytes ++ [b]).foldlM Decoder.readParameter? {} = Decoder.readParameter? r b := by
  rw [List.foldlM_append, h]
  show [b].foldlM Decoder.readParameter? r = _
  rw [List.foldlM_cons]
  cases Decoder.readParameter? r b <;> rfl

/-- **A parameter string is read byte by byte as it is read as a whole.** -/
theorem read_bytes {bytes : List UInt8} (h : ∀ b ∈ bytes, Byte.isOfParams b = true) :
    ∃ r, bytes.foldlM Decoder.readParameter? {} = some r ∧ r.params = Params.ofBytes bytes ∧
      r.started = decide (bytes ≠ []) := by
  suffices hholds : ∃ r groups group slots slot,
      bytes.foldlM Decoder.readParameter? {} = some r ∧
        Holds r bytes groups group slots slot by
    obtain ⟨r, _, _, _, _, hread, hr⟩ := hholds
    exact ⟨r, hread, hr.params, hr.started_eq⟩
  -- on the bytes from the end, since the reader adds to what it has in front
  induction bytes using List.reverseRecOn with
  | nil => exact ⟨{}, _, _, _, _, rfl, Holds.empty⟩
  | append_singleton bytes b ih =>
      obtain ⟨r, groups, group, slots, slot, hread, hr⟩ :=
        ih fun c hc => h c (List.mem_append_left _ hc)
      have hstep := read_concat hread b
      have hb := h b (List.mem_append_right _ (List.mem_singleton_self b))
      rw [Byte.isOfParams, Bool.or_eq_true, Bool.or_eq_true, beq_iff_eq, beq_iff_eq] at hb
      rcases hb with (hdigit | rfl) | rfl
      · refine ⟨r.digit (b.toNat - 0x30), _, _, _, _, ?_, hr.digit hdigit⟩
        rw [hstep, Decoder.readParameter?, if_pos hdigit]
      · exact ⟨r.closeSlot, _, _, _, _, hstep, hr.closeSlot⟩
      · exact ⟨r.closeGroup, _, _, _, _, hstep, hr.closeGroup⟩

end ParamReader

/-! ## Bodies of control sequences -/

theorem class_of_isOfParams {b : UInt8} (hb : Byte.isOfParams b = true) :
    Byte.isMarker b = false ∧ Byte.isIntermediate b = false := by
  grind [Byte.isOfParams, Byte.isDigit, Byte.colon, Byte.semicolon, Byte.isMarker,
    Byte.isIntermediate]

theorem class_of_isMarker {b : UInt8} (hb : Byte.isMarker b = true) :
    Byte.isOfParams b = false ∧ Byte.isIntermediate b = false := by
  grind [Byte.isOfParams, Byte.isDigit, Byte.colon, Byte.semicolon, Byte.isMarker,
    Byte.isIntermediate]

theorem class_of_isIntermediate {b : UInt8} (hb : Byte.isIntermediate b = true) :
    Byte.isOfParams b = false ∧ Byte.isMarker b = false := by
  refine ⟨?_, Decoder.isMarker_of_isIntermediate hb⟩
  grind [Byte.isOfParams, Byte.isDigit, Byte.colon, Byte.semicolon, Byte.isIntermediate]

/-- The bytes between introducer and final byte are a marker or none, a parameter string and
    intermediates. -/
structure IsBody (body : List UInt8) (marker : Option UInt8) (params is : List UInt8) : Prop where
  eq_append : body = marker.toList ++ params ++ is
  marker : ∀ b ∈ marker, Byte.isMarker b = true
  params : ∀ b ∈ params, Byte.isOfParams b = true
  intermediates : Intermediates is

/-- The bytes are a body in some way. -/
def WellFormedBody (body : List UInt8) : Prop := ∃ marker params is, IsBody body marker params is

theorem wellFormedBody_nil : WellFormedBody [] :=
  ⟨none, [], [], rfl, fun _ hb => absurd hb (Option.not_mem_none _),
    fun _ hb => absurd hb List.not_mem_nil, .nil⟩

namespace IsBody

variable {body params is : List UInt8} {marker : Option UInt8}

theorem withoutIntermediates (h : IsBody body marker params is) :
    IsBody (marker.toList ++ params) marker params [] :=
  ⟨(List.append_nil _).symm, h.marker, h.params, .nil⟩

theorem concat_marker (h : IsBody body none [] []) {b : UInt8} (hb : Byte.isMarker b = true) :
    IsBody (body ++ [b]) (some b) [] [] := by
  refine ⟨by rw [h.eq_append]; rfl, ?_, h.params, .nil⟩
  intro c hc
  rw [← Option.some.inj hc]
  exact hb

theorem concat_param (h : IsBody body marker params []) {b : UInt8}
    (hb : Byte.isOfParams b = true) : IsBody (body ++ [b]) marker (params ++ [b]) [] := by
  refine ⟨?_, h.marker, ?_, .nil⟩
  · rw [h.eq_append, List.append_nil, List.append_nil, List.append_assoc]
  · intro c hc
    rcases List.mem_append.mp hc with hc | hc
    · exact h.params c hc
    · rw [List.mem_singleton.mp hc]
      exact hb

theorem concat_intermediate (h : IsBody body marker params is)
    (hroom : is.length < Decoder.maxIntermediates) {b : UInt8}
    (hb : Byte.isIntermediate b = true) : IsBody (body ++ [b]) marker params (is ++ [b]) :=
  ⟨by rw [h.eq_append, List.append_assoc _ is], h.marker, h.params,
    h.intermediates.append hroom hb⟩

theorem filter_isIntermediate (h : IsBody body marker params is) :
    body.filter Byte.isIntermediate = is := by
  have hmarker : marker.toList.filter Byte.isIntermediate = [] :=
    List.filter_eq_nil_iff.mpr fun b hb =>
      ne_true_of_eq_false (class_of_isMarker (h.marker b (Option.mem_toList.mp hb))).2
  have hparams : params.filter Byte.isIntermediate = [] :=
    List.filter_eq_nil_iff.mpr fun b hb =>
      ne_true_of_eq_false (class_of_isOfParams (h.params b hb)).2
  rw [h.eq_append, List.filter_append, List.filter_append, hmarker, hparams,
    List.filter_eq_self.mpr h.intermediates.each]
  rfl

/-- A body has no intermediates beyond those that are kept. -/
theorem countP_le (h : IsBody body marker params is) :
    body.countP Byte.isIntermediate ≤ Decoder.maxIntermediates := by
  rw [List.countP_eq_length_filter, h.filter_isIntermediate]
  exact h.intermediates.length_le

end IsBody

namespace Decoder

/-- Behind a well-formed body without intermediates the decoder stands in the parameters. -/
theorem run_parameters {body : List UInt8} {marker : Option UInt8} {params : List UInt8}
    (h : IsBody body marker params []) :
    ∃ r, Machine.run step (.csi none {}) body = (.csi marker r, []) ∧
      r.params = Params.ofBytes params ∧ r.started = decide (params ≠ []) := by
  obtain ⟨r, hread, hparams, hstarted⟩ := ParamReader.read_bytes h.params
  refine ⟨r, ?_, hparams, hstarted⟩
  rw [h.eq_append, List.append_nil]
  exact Machine.run_trans (run_csi_marker h.marker) ((readsParameters_csi marker).run hread)

/-- Behind one with intermediates it stands in these. -/
theorem run_intermediates {body : List UInt8} {marker : Option UInt8} {params is : List UInt8}
    (h : IsBody body marker params is) (hsome : is ≠ []) :
    Machine.run step (.csi none {}) body
      = (.csiIntermediate marker (Params.ofBytes params) is, []) := by
  obtain ⟨r, hrun, hparams, -⟩ := run_parameters h.withoutIntermediates
  rw [h.eq_append, ← hparams]
  exact Machine.run_trans hrun (run_csi_intermediates marker r hsome h.intermediates)

/-- A well-formed body and a final byte make one message. -/
theorem run_body {body : List UInt8} {marker : Option UInt8} {params is : List UInt8}
    (h : IsBody body marker params is) {final : UInt8} (hfinal : Byte.isFinal final = true) :
    Machine.run step (.csi none {}) (body ++ [final])
      = (.ground, [.message (.ofControlSequence marker (Params.ofBytes params) is final)]) := by
  obtain ⟨r, hrun, hparams, -⟩ := run_parameters h.withoutIntermediates
  rw [h.eq_append, ← hparams, List.append_assoc]
  exact Machine.run_trans hrun (run_csi_tail marker r h.intermediates hfinal)

/-! ### Malformed bodies -/

/-- The bytes that can stand in a body are of three classes. -/
theorem class_of_range {b : UInt8} (hb : 0x20 ≤ b ∧ b ≤ 0x3F) :
    Byte.isIntermediate b = true ∨ Byte.isOfParams b = true ∨ Byte.isMarker b = true := by
  grind [Byte.isIntermediate, Byte.isOfParams, Byte.isMarker, Byte.isDigit, Byte.colon,
    Byte.semicolon]

theorem step_csiIgnore {b : UInt8} (hb : 0x20 ≤ b ∧ b ≤ 0x3F) :
    step .csiIgnore b = (.csiIgnore, []) := by
  rw [step]
  grind [fromCsiIgnore, Byte.isFinal, Byte.isIntermediate, Byte.isParameter]

theorem step_csiIgnore_final {b : UInt8} (hb : Byte.isFinal b = true) :
    step .csiIgnore b = (.ground, []) := by
  rw [step, fromCsiIgnore, if_pos hb]

/-- A byte that spoils a body sends the decoder to ignore the sequence. -/
theorem run_spoiled {body : List UInt8} (h : WellFormedBody body) {b : UInt8}
    (hb : 0x20 ≤ b ∧ b ≤ 0x3F) (hspoiled : ¬WellFormedBody (body ++ [b])) :
    Machine.run step (.csi none {}) (body ++ [b]) = (.csiIgnore, []) := by
  obtain ⟨marker, params, is, hbody⟩ := h
  by_cases hnone : is = []
  · subst hnone
    obtain ⟨r, hrun, -, hstarted⟩ := run_parameters hbody
    refine Machine.run_trans hrun ((Machine.run_singleton _ _).trans ?_)
    rcases class_of_range hb with hintermediate | hparam | hmarker
    · exact absurd ⟨marker, params, [b], hbody.concat_intermediate (by decide) hintermediate⟩
        hspoiled
    · exact absurd ⟨marker, params ++ [b], [], hbody.concat_param hparam⟩ hspoiled
    · -- a marker spoils the body unless it is the first byte
      have hlate : (marker.isNone && !r.started) = false := by
        rw [hstarted]
        refine eq_false_of_ne_true fun hfirst => hspoiled ?_
        rw [Bool.and_eq_true, Option.isNone_iff_eq_none, Bool.not_eq_true', decide_eq_false_iff_not,
          Classical.not_not] at hfirst
        obtain ⟨rfl, rfl⟩ := hfirst
        exact ⟨some b, [], [], hbody.concat_marker hmarker⟩
      rw [step, fromCsi, readParameter?_eq_none (Or.inr (Or.inl hmarker))]
      simp only [hmarker, hlate, Bool.false_eq_true, if_true, if_false]
  · refine Machine.run_trans (run_intermediates hbody hnone) ((Machine.run_singleton _ _).trans ?_)
    rw [step, fromCsiIntermediate]
    by_cases hintermediate : Byte.isIntermediate b = true
    · have hfull : ¬is.length < maxIntermediates := fun hroom =>
        hspoiled ⟨marker, params, is ++ [b], hbody.concat_intermediate hroom hintermediate⟩
      rw [if_pos hintermediate, if_neg hfull]
    · have hparameter : Byte.isParameter b = true := by
        grind [Byte.isIntermediate, Byte.isParameter]
      rw [if_neg hintermediate, if_pos hparameter]

/-- Behind anything but a well-formed body the decoder ignores the rest of the sequence. -/
theorem run_malformed {body : List UInt8} (hrange : ∀ b ∈ body, 0x20 ≤ b ∧ b ≤ 0x3F)
    (h : ¬WellFormedBody body) : Machine.run step (.csi none {}) body = (.csiIgnore, []) := by
  induction body using List.reverseRecOn with
  | nil => exact absurd wellFormedBody_nil h
  | append_singleton body b ih =>
      have hb := hrange b (List.mem_append_right _ (List.mem_singleton_self b))
      by_cases hbody : WellFormedBody body
      · exact run_spoiled hbody hb h
      · have hrun := ih (fun c hc => hrange c (List.mem_append_left _ hc)) hbody
        exact Machine.run_trans hrun ((Machine.run_singleton _ _).trans (step_csiIgnore hb))

/-- **The grammar of control sequences.**  Behind the introducer, a body and a final byte the
    decoder stands between two units again.  If the body is well formed, it has made one message of
    its marker, the parameters of the whole parameter string, its intermediates and the final byte;
    if not, it has made none. -/
theorem push_controlSequence {d : Decoder} (hd : d.isIdle = true) {body : List UInt8}
    (hrange : ∀ b ∈ body, 0x20 ≤ b ∧ b ≤ 0x3F) {final : UInt8}
    (hfinal : 0x40 ≤ final ∧ final ≤ 0x7E) :
    (∀ marker params is, IsBody body marker params is →
      d.push ([Byte.escape, 0x5B] ++ body ++ [final])
        = (.ground, [if final = 0x6D ∧ marker = none ∧ is = [] then .sgr (Params.ofBytes params)
            else .csi marker (Params.ofBytes params) is final])) ∧
    ((∀ marker params is, ¬IsBody body marker params is) →
      d.push ([Byte.escape, 0x5B] ++ body ++ [final]) = (.ground, [])) := by
  obtain rfl : d = .ground := of_decide_eq_true hd
  have hclass : Byte.isFinal final = true := by
    rw [Byte.isFinal, Bool.and_eq_true, decide_eq_true_eq, decide_eq_true_eq]
    exact hfinal
  have hopen : Machine.run step .ground [Byte.escape, 0x5B] = (.csi none {}, [.cut]) := rfl
  rw [push_eq_run, List.append_assoc]
  constructor
  · intro marker params is hbody
    rw [Machine.run_trans hopen (run_body hbody hclass)]
    rfl
  · intro hbody
    have hmalformed : ¬WellFormedBody body := by
      rintro ⟨marker, params, is, h⟩
      exact hbody marker params is h
    have hrun := run_malformed hrange hmalformed
    have hend := (Machine.run_singleton _ _).trans (step_csiIgnore_final hclass)
    rw [Machine.run_trans hopen (Machine.run_trans hrun hend)]
    rfl

/-- A marker, a slot too many in a group, a number too large, an empty group and four
    intermediates; with one intermediate more there is no message. -/
theorem push_controlSequence_bounds :
    let params := Utf8.ofString "1:2:3:4:5:6:7:8:9;70000;"
    let is : List UInt8 := [0x20, 0x21, 0x22, 0x23]
    let read : Params :=
      ⟨[[some 1, some 2, some 3, some 4, some 5, some 6, some 7, some 8], [some 65535], [none]]⟩
    push .ground ([Byte.escape, 0x5B] ++ ([0x3F] ++ params ++ is) ++ [0x6D])
        = (.ground, [.csi (some 0x3F) read is 0x6D]) ∧
      push .ground ([Byte.escape, 0x5B] ++ ([0x3F] ++ params ++ is ++ [0x24]) ++ [0x6D])
        = (.ground, []) := by
  intro params is read
  have hread : Params.ofBytes params = read := by decide +kernel
  have hbody : IsBody ([0x3F] ++ params ++ is) (some 0x3F) params is :=
    ⟨rfl, by decide +kernel, by decide +kernel, Nat.le_refl 4, by decide +kernel⟩
  constructor
  · rw [← hread]
    exact (push_controlSequence rfl (by decide +kernel) (by decide)).1 _ _ _ hbody
  · refine (push_controlSequence rfl (by decide +kernel) (by decide)).2 ?_
    intro marker params is h
    exact absurd h.countP_le (by decide +kernel)

end Decoder

end VideoTerminal
