import Mathlib.Data.List.Chain
import VideoTerminal.Proofs.ControlSequences

/-!
# Headers of device control strings

The header of a device control string is read in one phase, where a control sequence is read in
three.  Its parameters end at an intermediate as well, but behind it a new run of parameters may
begin, and a marker is looked for there once more.  So there are headers that the decoder takes and
that are no bodies of control sequences.

`AcceptedHeader` says which headers are taken, by conditions on the bytes as a whole.  The route is
the one for control sequences: headers grow at their end, `CanFollow` says which byte an accepted
header may be followed by, and the decoder agrees with it byte by byte.  What the decoder has read
of an accepted header is in `HeaderRead`: the runs of parameters that an intermediate has ended,
whose groups are kept, and the run that is still open, which is read as if it were the first.
-/

namespace VideoTerminal

/-! ## Headers that are taken -/

/-- Directly behind a parameter there is no marker. -/
def NoLateMarker (b c : UInt8) : Prop := Byte.isOfParams b = true → Byte.isMarker c = false

/-- Directly behind an intermediate there are only intermediates. -/
def NoReopening (b c : UInt8) : Prop := Byte.isIntermediate b = true → Byte.isIntermediate c = true

instance (b c : UInt8) : Decidable (NoLateMarker b c) := inferInstanceAs (Decidable (_ → _))

instance (b c : UInt8) : Decidable (NoReopening b c) := inferInstanceAs (Decidable (_ → _))

/-- A header that the decoder takes. -/
structure AcceptedHeader (header : List UInt8) : Prop where
  intermediates : header.countP Byte.isIntermediate ≤ Decoder.maxIntermediates
  markers : header.countP Byte.isMarker ≤ 1
  chain : header.IsChain NoLateMarker

/-- A byte that an accepted header may be followed by. -/
structure CanFollow (header : List UInt8) (b : UInt8) : Prop where
  intermediate : Byte.isIntermediate b = true →
    header.countP Byte.isIntermediate < Decoder.maxIntermediates
  marker : Byte.isMarker b = true →
    header.any Byte.isMarker = false ∧ ∀ c ∈ header.getLast?, Byte.isOfParams c = false

/-- The empty header is one of those that are taken. -/
theorem acceptedHeader_nil : AcceptedHeader [] :=
  ⟨Nat.zero_le _, Nat.zero_le _, List.isChain_nil⟩

/-- There is no marker exactly if their number is zero. -/
theorem any_isMarker_eq_false_iff (header : List UInt8) :
    header.any Byte.isMarker = false ↔ header.countP Byte.isMarker = 0 := by
  rw [List.any_eq_false, List.countP_eq_zero]

/-- **Accepted headers grow by the bytes that can follow them.** -/
theorem acceptedHeader_concat_iff (header : List UInt8) (b : UInt8) :
    AcceptedHeader (header ++ [b]) ↔ AcceptedHeader header ∧ CanFollow header b := by
  have hchain : (header ++ [b]).IsChain NoLateMarker ↔
      header.IsChain NoLateMarker ∧ ∀ c ∈ header.getLast?, NoLateMarker c b := by
    rw [List.isChain_append]
    simp only [List.isChain_singleton, List.head?_cons, Option.mem_some_iff, forall_eq', true_and]
  have hcount (p : UInt8 → Bool) :
      (header ++ [b]).countP p = header.countP p + if p b = true then 1 else 0 := by
    rw [List.countP_append, List.countP_singleton]
  constructor
  · rintro ⟨hintermediates, hmarkers, hlinks⟩
    rw [hcount] at hintermediates hmarkers
    rw [hchain] at hlinks
    refine ⟨⟨by omega, by omega, hlinks.1⟩, ?_, ?_⟩
    · intro hb
      rw [if_pos hb] at hintermediates
      exact hintermediates
    · intro hb
      rw [if_pos hb] at hmarkers
      refine ⟨(any_isMarker_eq_false_iff header).mpr (by omega), fun c hc => ?_⟩
      refine Bool.eq_false_iff.mpr fun hparam => ?_
      exact absurd hb (ne_true_of_eq_false (hlinks.2 c hc hparam))
  · rintro ⟨h, hfollow⟩
    refine ⟨?_, ?_, hchain.mpr ⟨h.chain, ?_⟩⟩
    · rw [hcount]
      split
      · next hb => exact hfollow.intermediate hb
      · exact h.intermediates
    · rw [hcount]
      split
      · next hb => rw [(any_isMarker_eq_false_iff header).mp (hfollow.marker hb).1]
      · exact h.markers
    · intro c hc hparam
      refine Bool.eq_false_iff.mpr fun hb => ?_
      exact absurd hparam (ne_true_of_eq_false ((hfollow.marker hb).2 c hc))

/-! ## Bodies among the headers -/

namespace IsBody

variable {body params is : List UInt8} {marker : Option UInt8}

/-- Behind its first byte there is no marker in a body. -/
theorem isMarker_of_mem (h : IsBody body marker params is) {b : UInt8} (hb : b ∈ params ++ is) :
    Byte.isMarker b = false := by
  rcases List.mem_append.mp hb with hb | hb
  · exact (class_of_isOfParams (h.params b hb)).1
  · exact (class_of_isIntermediate (h.intermediates.each b hb)).2

/-- A body without its markers is its parameters with the intermediates behind them. -/
theorem filter_not_isMarker (h : IsBody body marker params is) :
    body.filter (fun b => !Byte.isMarker b) = params ++ is := by
  have hmarker : marker.toList.filter (fun b => !Byte.isMarker b) = [] := by
    refine List.filter_eq_nil_iff.mpr fun b hb => ?_
    rw [h.marker b (Option.mem_toList.mp hb)]
    exact Bool.false_ne_true
  have hrest : (params ++ is).filter (fun b => !Byte.isMarker b) = params ++ is := by
    refine List.filter_eq_self.mpr fun b hb => ?_
    rw [Bool.not_eq_true']
    exact h.isMarker_of_mem hb
  rw [h.eq_append, List.append_assoc, List.filter_append, hmarker, hrest]
  rfl

/-- The parts of a body stand in order, so no link between two bytes of it is a wrong one. -/
theorem pairwise (h : IsBody body marker params is) :
    body.Pairwise fun b c => NoLateMarker b c ∧ NoReopening b c := by
  have hbehindMarker {b : UInt8} (hb : b ∈ marker.toList) (c : UInt8) :
      NoLateMarker b c ∧ NoReopening b c := by
    obtain ⟨hparam, hintermediate⟩ := class_of_isMarker (h.marker b (Option.mem_toList.mp hb))
    exact ⟨fun htrue => absurd htrue (ne_true_of_eq_false hparam),
      fun htrue => absurd htrue (ne_true_of_eq_false hintermediate)⟩
  have hbehindParam {b c : UInt8} (hb : b ∈ params) (hc : Byte.isMarker c = false) :
      NoLateMarker b c ∧ NoReopening b c := by
    have hintermediate := (class_of_isOfParams (h.params b hb)).2
    exact ⟨fun _ => hc, fun htrue => absurd htrue (ne_true_of_eq_false hintermediate)⟩
  have hparams {c : UInt8} (hc : c ∈ params) := h.isMarker_of_mem (List.mem_append_left is hc)
  have his {c : UInt8} (hc : c ∈ is) := h.isMarker_of_mem (List.mem_append_right params hc)
  rw [h.eq_append, List.pairwise_append, List.pairwise_append]
  refine ⟨⟨?_, ?_, ?_⟩, ?_, ?_⟩
  · exact List.pairwise_of_forall_mem_list fun b hb c _ => hbehindMarker hb c
  · exact List.pairwise_of_forall_mem_list fun b hb c hc => hbehindParam hb (hparams hc)
  · intro b hb c _
    exact hbehindMarker hb c
  · exact List.pairwise_of_forall_mem_list fun b _ c hc =>
      ⟨fun _ => his hc, fun _ => h.intermediates.each c hc⟩
  · intro b hb c hc
    rcases List.mem_append.mp hb with hb | hb
    · exact hbehindMarker hb c
    · exact hbehindParam hb (his hc)

/-- The decoder takes every body as a header. -/
theorem accepted (h : IsBody body marker params is) : AcceptedHeader body := by
  refine ⟨h.countP_le, ?_, h.pairwise.isChain.imp fun _ _ hlink => hlink.1⟩
  have hrest : (params ++ is).countP Byte.isMarker = 0 :=
    List.countP_eq_zero.mpr fun b hb => ne_true_of_eq_false (h.isMarker_of_mem hb)
  have hmarker : marker.toList.countP Byte.isMarker ≤ 1 := by
    refine Nat.le_trans List.countP_le_length ?_
    cases marker with
    | none => exact Nat.zero_le 1
    | some b => exact Nat.le_refl 1
  rw [h.eq_append, List.append_assoc, List.countP_append, hrest]
  exact hmarker

end IsBody

/-- **The bodies are the accepted headers in which only intermediates follow an intermediate.** -/
theorem wellFormedBody_iff {header : List UInt8} (hrange : ∀ b ∈ header, 0x20 ≤ b ∧ b ≤ 0x3F) :
    WellFormedBody header ↔ AcceptedHeader header ∧ header.IsChain NoReopening := by
  constructor
  · rintro ⟨marker, params, is, h⟩
    exact ⟨h.accepted, h.pairwise.isChain.imp fun _ _ hlink => hlink.2⟩
  rintro ⟨haccepted, hchain⟩
  induction header using List.reverseRecOn with
  | nil => exact wellFormedBody_nil
  | append_singleton header b ih =>
      have hrangeLast := hrange b (List.mem_append_right _ (List.mem_singleton_self b))
      obtain ⟨haccepted, hfollow⟩ := (acceptedHeader_concat_iff header b).mp haccepted
      obtain ⟨hfront, -, hlast⟩ := List.isChain_append.mp hchain
      obtain ⟨marker, params, is, h⟩ :=
        ih (fun c hc => hrange c (List.mem_append_left _ hc)) haccepted hfront
      by_cases hb : Byte.isIntermediate b = true
      · refine ⟨marker, params, is ++ [b], h.concat_intermediate ?_ hb⟩
        have hroom := hfollow.intermediate hb
        rw [List.countP_eq_length_filter, h.filter_isIntermediate] at hroom
        exact hroom
      · -- the bytes in front do not end in an intermediate, so there is none among them
        obtain rfl : is = [] := by
          by_contra hsome
          refine hb (hlast (is.getLast hsome) ?_ b rfl
            (h.intermediates.each _ (List.getLast_mem hsome)))
          rw [h.eq_append, List.getLast?_append_of_ne_nil _ hsome]
          exact List.getLast?_eq_some_getLast hsome
        rcases Decoder.class_of_range hrangeLast with hintermediate | hparam | hmarker
        · exact absurd hintermediate hb
        · exact ⟨marker, params ++ [b], [], h.concat_param hparam⟩
        · obtain ⟨hunmarked, hlastOther⟩ := hfollow.marker hmarker
          obtain rfl : marker = none := by
            rw [List.any_eq_false] at hunmarked
            refine Option.eq_none_iff_forall_ne_some.mpr fun c hc => ?_
            refine hunmarked c ?_ (h.marker c hc)
            rw [h.eq_append, List.append_nil]
            exact List.mem_append_left _ (Option.mem_toList.mpr hc)
          obtain rfl : params = [] := by
            by_contra hsome
            refine ne_true_of_eq_false (hlastOther (params.getLast hsome) ?_)
              (h.params _ (List.getLast_mem hsome))
            rw [h.eq_append, List.append_nil, List.getLast?_append_of_ne_nil _ hsome]
            exact List.getLast?_eq_some_getLast hsome
          exact ⟨some b, [], [], h.concat_marker hmarker⟩

/-! ## Readers behind groups that are kept already -/

namespace ParamReader

/-- A reader that began behind groups of other strings. -/
def behind (base : List (List (Option Nat))) (r : ParamReader) : ParamReader :=
  { r with groups := (base ++ r.groups).take Params.maxGroups }

variable (base : List (List (Option Nat))) (r : ParamReader)

/-- All the groups of a reader that began behind others: these come first, and what is too much is
    cut. -/
theorem allGroups_behind :
    (r.behind base).allGroups = (base ++ r.allGroups).take Params.maxGroups := by
  have hopen : (r.behind base).openGroup = r.openGroup := rfl
  rw [allGroups, hopen, allGroups]
  show (if ((base ++ r.groups).take Params.maxGroups).length < Params.maxGroups then
    (base ++ r.groups).take Params.maxGroups ++ [r.openGroup]
    else (base ++ r.groups).take Params.maxGroups) = _
  rw [take_concat]
  split
  · rw [List.append_assoc]
  · next hfull =>
    refine List.take_append_of_le_length ?_
    rw [List.length_append]
    omega

/-- A semicolon is read alike, whatever groups are in front. -/
theorem closeGroup_behind : (r.behind base).closeGroup = r.closeGroup.behind base := by
  rw [closeGroup, allGroups_behind]
  rfl

/-- Where a reader began makes no difference to how it reads on. -/
theorem readParameter?_behind (b : UInt8) :
    Decoder.readParameter? (r.behind base) b = (Decoder.readParameter? r b).map (behind base) := by
  rw [Decoder.readParameter?, Decoder.readParameter?]
  split
  · rfl
  split
  · rfl
  split
  · rw [closeGroup_behind]
    rfl
  · rfl

/-- So is the end of the parameters. -/
theorem finish_behind : (r.behind base).finish = r.finish.behind base := by
  rw [finish, finish, allGroups_behind]
  show (if r.started = true then _ else _) = _
  split
  · rfl
  · rfl

/-- The groups in front stay in front of the parameters. -/
theorem params_behind :
    (r.behind base).params = ⟨(base ++ r.params.groups).take Params.maxGroups⟩ := by
  rw [params, finish_behind]
  rfl

/-- A string that has ended leaves its groups behind and nothing else. -/
theorem finish_eq_behind (hfirst : r.started = false → r = {}) :
    r.finish.behind base = ({} : ParamReader).behind (base ++ r.params.groups) := by
  have hempty : r.finish = { groups := r.params.groups } := by
    rw [params, finish]
    split
    · rfl
    · next hnot => rw [hfirst (eq_false_of_ne_true hnot)]
  rw [hempty, behind, behind, List.append_nil]

end ParamReader

/-! ## Headers as they are read -/

/-- The runs of parameters in a header, which intermediates stand between. -/
def runsOf (header : List UInt8) : List (List UInt8) :=
  (header.filter fun b => !Byte.isMarker b).splitOnP Byte.isIntermediate

/-- The groups of several parameter strings one behind the other. -/
def groupsOf (runs : List (List UInt8)) : List (List (Option Nat)) :=
  runs.flatMap fun run => (Params.ofBytes run).groups

/-- The parameters of a header: the groups of all its runs, as many as are kept. -/
def Params.ofHeader (header : List UInt8) : Params :=
  ⟨(groupsOf (runsOf header)).take maxGroups⟩

/-- A byte that is no marker goes to the last run, or begins another. -/
theorem runsOf_concat (header : List UInt8) (b : UInt8) :
    runsOf (header ++ [b]) = ((header.filter fun c => !Byte.isMarker c)
      ++ if Byte.isMarker b = true then [] else [b]).splitOnP Byte.isIntermediate := by
  rw [runsOf, List.filter_append, List.filter_singleton]
  cases Byte.isMarker b <;> rfl

/-- An intermediate begins another run. -/
theorem runsOf_concat_intermediate (header : List UInt8) {b : UInt8}
    (hb : Byte.isIntermediate b = true) : runsOf (header ++ [b]) = runsOf header ++ [[]] := by
  rw [runsOf_concat, (class_of_isIntermediate hb).2, if_neg Bool.false_ne_true,
    splitOnP_concat_self hb]
  rfl

/-- An intermediate adds nothing to the parameters in front of it. -/
theorem Params.ofHeader_concat_intermediate (header : List UInt8) {b : UInt8}
    (hb : Byte.isIntermediate b = true) : ofHeader (header ++ [b]) = ofHeader header := by
  rw [ofHeader, ofHeader, runsOf_concat_intermediate header hb, groupsOf, List.flatMap_append]
  show Params.mk ((groupsOf (runsOf header) ++ []).take maxGroups) = _
  rw [List.append_nil]

/-- The parameters of a header that is a body are those of its one parameter string. -/
theorem IsBody.ofHeader {body params is : List UInt8} {marker : Option UInt8}
    (h : IsBody body marker params is) : Params.ofHeader body = Params.ofBytes params := by
  induction is using List.reverseRecOn generalizing body with
  | nil =>
      have hrun : runsOf body = [params] := by
        rw [runsOf, h.filter_not_isMarker, List.append_nil]
        exact List.splitOnP_eq_singleton fun b hb => (class_of_isOfParams (h.params b hb)).2
      have hkept : (Params.ofBytes params).groups.length ≤ Params.maxGroups := by
        rw [Params.ofBytes]
        split
        · exact Nat.zero_le _
        · exact List.length_take_le _ _
      rw [Params.ofHeader, hrun, groupsOf, List.flatMap_singleton, List.take_of_length_le hkept]
  | append_singleton is b ih =>
      have his : Intermediates is := by
        refine ⟨?_, fun c hc => h.intermediates.each c (List.mem_append_left _ hc)⟩
        have hlength := h.intermediates.length_le
        rw [List.length_append] at hlength
        exact Nat.le_of_add_right_le hlength
      have hb := h.intermediates.each b (List.mem_append_right _ (List.mem_singleton_self b))
      rw [h.eq_append, ← List.append_assoc, Params.ofHeader_concat_intermediate _ hb]
      exact ih ⟨rfl, h.marker, h.params, his⟩

/-- What the decoder has read of a header: the runs that an intermediate has ended, and the open
    run with its reader.  As long as there is no marker, the open run is empty exactly if no
    parameter is the last byte. -/
structure HeaderRead (header : List UInt8) (ended : List (List UInt8)) (run : List UInt8)
    (r : ParamReader) : Prop where
  runs : runsOf header = ended ++ [run]
  params : ∀ b ∈ run, Byte.isOfParams b = true
  read : run.foldlM Decoder.readParameter? {} = some r
  empty_iff : header.any Byte.isMarker = false →
    (run = [] ↔ ∀ b ∈ header.getLast?, Byte.isOfParams b = false)

namespace HeaderRead

variable {header run : List UInt8} {ended : List (List UInt8)} {r : ParamReader}

/-- Before the first byte nothing is read. -/
theorem nil : HeaderRead [] [] [] {} := by
  refine ⟨rfl, fun _ hb => absurd hb List.not_mem_nil, rfl, fun _ => ?_⟩
  exact iff_of_true rfl fun _ hb => absurd hb (Option.not_mem_none _)

/-- The open run is read as parameters of its own, and it is begun as soon as it is not empty. -/
theorem reads (h : HeaderRead header ended run r) :
    r.params = Params.ofBytes run ∧ r.started = decide (run ≠ []) := by
  obtain ⟨r', hread, hparams, hstarted⟩ := ParamReader.read_bytes h.params
  obtain rfl : r = r' := Option.some.inj (h.read.symm.trans hread)
  exact ⟨hparams, hstarted⟩

/-- A reader that has not begun is still the empty one. -/
theorem eq_of_not_started (h : HeaderRead header ended run r) (hnot : r.started = false) :
    r = {} := by
  rw [h.reads.2, decide_eq_false_iff_not, Classical.not_not] at hnot
  have hread := h.read
  rw [hnot] at hread
  exact (Option.some.inj hread).symm

/-- The reader behind the groups of the ended runs has the parameters of the header. -/
theorem params_behind (h : HeaderRead header ended run r) :
    (r.behind (groupsOf ended)).params = Params.ofHeader header := by
  rw [ParamReader.params_behind, h.reads.1, Params.ofHeader, h.runs, groupsOf, groupsOf,
    List.flatMap_append, List.flatMap_singleton]

/-! ### One byte more -/

/-- A parameter byte goes to the open run. -/
theorem param (h : HeaderRead header ended run r) {b : UInt8} (hb : Byte.isOfParams b = true) :
    ∃ r', Decoder.readParameter? r b = some r' ∧
      HeaderRead (header ++ [b]) ended (run ++ [b]) r' := by
  obtain ⟨hmarker, hintermediate⟩ := class_of_isOfParams hb
  have hparams : ∀ c ∈ run ++ [b], Byte.isOfParams c = true := by
    intro c hc
    rcases List.mem_append.mp hc with hc | hc
    · exact h.params c hc
    · rw [List.mem_singleton.mp hc]
      exact hb
  obtain ⟨r', hread, -, -⟩ := ParamReader.read_bytes hparams
  refine ⟨r', (ParamReader.read_concat h.read b).symm.trans hread, ?_, hparams, hread, fun _ => ?_⟩
  · rw [runsOf_concat, hmarker, if_neg Bool.false_ne_true]
    exact splitOnP_concat hintermediate h.runs
  · rw [List.getLast?_concat]
    refine iff_of_false (List.append_ne_nil_of_right_ne_nil _ (List.cons_ne_nil _ _)) fun hall => ?_
    exact absurd hb (ne_true_of_eq_false (hall b rfl))

/-- A marker belongs to no run. -/
theorem marker (h : HeaderRead header ended run r) {b : UInt8} (hb : Byte.isMarker b = true) :
    HeaderRead (header ++ [b]) ended run r := by
  refine ⟨?_, h.params, h.read, fun hnone => ?_⟩
  · rw [runsOf_concat, hb, if_pos rfl, List.append_nil]
    exact h.runs
  · rw [List.any_append, List.any_cons, hb, Bool.true_or, Bool.or_true] at hnone
    exact absurd hnone (by decide)

/-- An intermediate ends the open run. -/
theorem intermediate (h : HeaderRead header ended run r) {b : UInt8}
    (hb : Byte.isIntermediate b = true) : HeaderRead (header ++ [b]) (ended ++ [run]) [] {} := by
  refine ⟨?_, fun _ hc => absurd hc List.not_mem_nil, rfl, fun _ => iff_of_true rfl ?_⟩
  · rw [runsOf_concat_intermediate header hb, h.runs]
  · rw [List.getLast?_concat]
    rintro c ⟨⟩
    exact (class_of_isIntermediate hb).1

end HeaderRead

/-! ## The decoder in a header -/

namespace Decoder

/-- A marker is taken if it is the first and no parameter has begun; otherwise the string is
    swallowed. -/
theorem step_dcs_marker {b : UInt8} (hb : Byte.isMarker b = true) (marked : Bool)
    (r : ParamReader) (is : List UInt8) :
    step (.dcs marked r is) b
      = (if !marked && !r.started then .dcs true r is else .controlString, []) := by
  rw [step, fromDcs, readParameter?_eq_none (Or.inr (Or.inl hb))]
  simp only [hb, if_true]
  split
  · rfl
  · rfl

/-- One intermediate too many makes the decoder swallow the string. -/
theorem step_dcs_full {b : UInt8} (hb : Byte.isIntermediate b = true) (marked : Bool)
    (r : ParamReader) {is : List UInt8} (hfull : ¬is.length < maxIntermediates) :
    step (.dcs marked r is) b = (.controlString, []) := by
  rw [step, fromDcs, readParameter?_eq_none (Or.inl hb)]
  simp only [isMarker_of_isIntermediate hb, hb, Bool.false_eq_true, if_false, if_true]
  rw [if_neg hfull]

/-- The phase behind a header that has been read. -/
def inHeader (header : List UInt8) (ended : List (List UInt8)) (r : ParamReader) : Decoder :=
  .dcs (header.any Byte.isMarker) (r.behind (groupsOf ended)) (header.filter Byte.isIntermediate)

/-- How the phase goes on with one byte more. -/
theorem inHeader_concat (header : List UInt8) (b : UInt8) (ended : List (List UInt8))
    (r : ParamReader) :
    inHeader (header ++ [b]) ended r
      = .dcs (header.any Byte.isMarker || Byte.isMarker b) (r.behind (groupsOf ended))
        (header.filter Byte.isIntermediate ++ bif Byte.isIntermediate b then [b] else []) := by
  rw [inHeader, List.any_append, List.any_cons, List.any_nil, Bool.or_false, List.filter_append,
    List.filter_singleton]

/-- A marker is taken if there was none and no parameter has begun since the last intermediate. -/
theorem takes_marker_iff {header run : List UInt8} {ended : List (List UInt8)} {r : ParamReader}
    (h : HeaderRead header ended run r) :
    (!header.any Byte.isMarker && !(r.behind (groupsOf ended)).started) = true ↔
      header.any Byte.isMarker = false ∧ ∀ b ∈ header.getLast?, Byte.isOfParams b = false := by
  have hstarted : (r.behind (groupsOf ended)).started = decide (run ≠ []) := h.reads.2
  rw [hstarted, Bool.and_eq_true, Bool.not_eq_true', Bool.not_eq_true', decide_eq_false_iff_not,
    Classical.not_not]
  exact and_congr_right h.empty_iff

/-- A byte that can follow a header is read. -/
theorem step_inHeader {header run : List UInt8} {ended : List (List UInt8)} {r : ParamReader}
    (h : HeaderRead header ended run r) {b : UInt8} (hb : 0x20 ≤ b ∧ b ≤ 0x3F)
    (hfollow : CanFollow header b) :
    ∃ ended' run' r', HeaderRead (header ++ [b]) ended' run' r' ∧
      step (inHeader header ended r) b = (inHeader (header ++ [b]) ended' r', []) := by
  rcases class_of_range hb with hintermediate | hparam | hmarker
  · refine ⟨ended ++ [run], [], {}, h.intermediate hintermediate, ?_⟩
    have hroom := hfollow.intermediate hintermediate
    rw [List.countP_eq_length_filter] at hroom
    have hgroups : groupsOf (ended ++ [run]) = groupsOf ended ++ r.params.groups := by
      rw [groupsOf, List.flatMap_append, List.flatMap_singleton, h.reads.1]
      rfl
    rw [inHeader, step_dcs_intermediate hintermediate _ _ _ hroom, ParamReader.finish_behind,
      ParamReader.finish_eq_behind _ _ h.eq_of_not_started, inHeader_concat, hgroups,
      hintermediate, (class_of_isIntermediate hintermediate).2, Bool.or_false, cond_true]
  · obtain ⟨r', hread, h'⟩ := h.param hparam
    refine ⟨ended, run ++ [b], r', h', ?_⟩
    obtain ⟨hmarker, hintermediate⟩ := class_of_isOfParams hparam
    have hbehind : readParameter? (r.behind (groupsOf ended)) b
        = some (r'.behind (groupsOf ended)) := by
      rw [ParamReader.readParameter?_behind, hread, Option.map_some]
    rw [inHeader, (readsParameters_dcs _ _).step _ _ _ hbehind, inHeader_concat, hintermediate,
      hmarker, Bool.or_false, cond_false, List.append_nil]
  · refine ⟨ended, run, r, h.marker hmarker, ?_⟩
    rw [inHeader, step_dcs_marker hmarker,
      if_pos ((takes_marker_iff h).mpr (hfollow.marker hmarker)), inHeader_concat,
      (class_of_isMarker hmarker).2, hmarker, Bool.or_true, cond_false, List.append_nil]

/-- A byte that cannot follow a header sends the decoder to drop the string. -/
theorem step_refused {header run : List UInt8} {ended : List (List UInt8)} {r : ParamReader}
    (h : HeaderRead header ended run r) {b : UInt8} (hb : 0x20 ≤ b ∧ b ≤ 0x3F)
    (hrefused : ¬CanFollow header b) :
    step (inHeader header ended r) b = (.controlString, []) := by
  rcases class_of_range hb with hintermediate | hparam | hmarker
  · refine step_dcs_full hintermediate _ _ fun hroom => hrefused ⟨fun _ => ?_, fun hmarker => ?_⟩
    · rw [List.countP_eq_length_filter]
      exact hroom
    · exact absurd hmarker (ne_true_of_eq_false (class_of_isIntermediate hintermediate).2)
  · obtain ⟨hmarker, hintermediate⟩ := class_of_isOfParams hparam
    exact absurd ⟨fun htrue => absurd htrue (ne_true_of_eq_false hintermediate),
      fun htrue => absurd htrue (ne_true_of_eq_false hmarker)⟩ hrefused
  · rw [inHeader, step_dcs_marker hmarker, if_neg]
    intro htaken
    refine hrefused ⟨fun htrue => ?_, fun _ => (takes_marker_iff h).mp htaken⟩
    exact absurd htrue (ne_true_of_eq_false (class_of_isMarker hmarker).2)

/-- An accepted header is read to its end. -/
theorem run_accepted {header : List UInt8} (hrange : ∀ b ∈ header, 0x20 ≤ b ∧ b ≤ 0x3F)
    (haccepted : AcceptedHeader header) :
    ∃ ended run r, HeaderRead header ended run r ∧
      Machine.run step (.dcs false {} []) header = (inHeader header ended r, []) := by
  induction header using List.reverseRecOn with
  | nil => exact ⟨[], [], {}, .nil, rfl⟩
  | append_singleton header b ih =>
      obtain ⟨haccepted, hfollow⟩ := (acceptedHeader_concat_iff header b).mp haccepted
      obtain ⟨ended, run, r, h, hrun⟩ :=
        ih (fun c hc => hrange c (List.mem_append_left _ hc)) haccepted
      obtain ⟨ended', run', r', h', hstep⟩ :=
        step_inHeader h (hrange b (List.mem_append_right _ (List.mem_singleton_self b))) hfollow
      exact ⟨ended', run', r', h',
        Machine.run_trans hrun ((Machine.run_singleton _ _).trans hstep)⟩

/-- In a string that is dropped the decoder stays until an escape or a cancelling control. -/
theorem run_dropped {bytes : List UInt8}
    (h : ∀ b ∈ bytes, b ≠ Byte.escape ∧ Byte.isCancel b = false) :
    Machine.run step .controlString bytes = (.controlString, []) := by
  induction bytes with
  | nil => rfl
  | cons b bytes ih =>
      obtain ⟨hescape, hcancel⟩ := h b List.mem_cons_self
      have hstep : step .controlString b = (.controlString, []) := by
        rw [step, fromControlString, if_neg hescape, hcancel, if_neg Bool.false_ne_true]
      rw [Machine.run_cons, hstep, ih fun c hc => h c (List.mem_cons_of_mem b hc)]
      rfl

/-- A byte from the space on is no escape, and cancels nothing. -/
theorem not_control_of_ge {b : UInt8} (hb : 0x20 ≤ b) :
    b ≠ Byte.escape ∧ Byte.isCancel b = false := by
  grind [Byte.escape, Byte.isCancel]

/-- Behind any other header the string is dropped. -/
theorem run_refused {header : List UInt8} (hrange : ∀ b ∈ header, 0x20 ≤ b ∧ b ≤ 0x3F)
    (hrefused : ¬AcceptedHeader header) :
    Machine.run step (.dcs false {} []) header = (.controlString, []) := by
  induction header using List.reverseRecOn with
  | nil => exact absurd acceptedHeader_nil hrefused
  | append_singleton header b ih =>
      have hfront : ∀ c ∈ header, 0x20 ≤ c ∧ c ≤ 0x3F :=
        fun c hc => hrange c (List.mem_append_left _ hc)
      have hb := hrange b (List.mem_append_right _ (List.mem_singleton_self b))
      by_cases haccepted : AcceptedHeader header
      · obtain ⟨ended, run, r, h, hrun⟩ := run_accepted hfront haccepted
        have hstep := step_refused h hb fun hfollow =>
          hrefused ((acceptedHeader_concat_iff header b).mpr ⟨haccepted, hfollow⟩)
        exact Machine.run_trans hrun ((Machine.run_singleton _ _).trans hstep)
      · refine Machine.run_trans (ih hfront haccepted) (run_dropped ?_)
        intro c hc
        rw [List.mem_singleton.mp hc]
        exact not_control_of_ge hb.1

/-- **What the decoder takes for a device control string.**  Behind the introducer, a header, a
    final byte, data and the terminator the decoder stands between two units again.  An accepted
    header has made one message of the parameters of all its runs, its intermediates, the final
    byte and the data; any other header has made none.  The bodies of control sequences are among
    the accepted headers: those in which no intermediate is followed by anything else. -/
theorem push_deviceControl {d : Decoder} (hd : d.isIdle = true) {header : List UInt8}
    (hrange : ∀ b ∈ header, 0x20 ≤ b ∧ b ≤ 0x3F) {final : UInt8}
    (hfinal : 0x40 ≤ final ∧ final ≤ 0x7E) {data : List UInt8} (hdata : IsDataBody data) :
    let pushed := d.push ([Byte.escape, 0x50] ++ header ++ [final] ++ data ++ StringEnd.st.bytes)
    (∀ marker params is, IsBody header marker params is →
      pushed = (.ground, [.dcs (Params.ofBytes params) is final data])) ∧
    (AcceptedHeader header →
      pushed = (.ground,
        [.dcs (Params.ofHeader header) (header.filter Byte.isIntermediate) final data])) ∧
    (¬AcceptedHeader header → pushed = (.ground, [])) ∧
    ((∃ marker params is, IsBody header marker params is) ↔
      AcceptedHeader header ∧ header.IsChain NoReopening) := by
  obtain rfl : d = .ground := of_decide_eq_true hd
  intro pushed
  have hclass : Byte.isFinal final = true := by
    rw [Byte.isFinal, Bool.and_eq_true, decide_eq_true_eq, decide_eq_true_eq]
    exact hfinal
  have hopen : Machine.run step .ground [Byte.escape, 0x50] = (.dcs false {} [], [.cut]) := rfl
  have haccepted : AcceptedHeader header → pushed = (.ground,
      [.dcs (Params.ofHeader header) (header.filter Byte.isIntermediate) final data]) := by
    intro h
    obtain ⟨ended, run, r, hread, hrun⟩ := run_accepted hrange h
    have hstep := (Machine.run_singleton _ _).trans
      (step_dcs_final hclass (header.any Byte.isMarker) (r.behind (groupsOf ended))
        (header.filter Byte.isIntermediate))
    rw [hread.params_behind] at hstep
    have hbody := run_payload
      (.dcsData (Params.ofHeader header) (header.filter Byte.isIntermediate) final)
      (fun p b hb => step_dcsData (hdata.each b hb) _ _ final p) hdata.length_le
    show push _ _ = _
    rw [push_eq_run, Machine.run_append, Machine.run_trans (Machine.run_trans
      (Machine.run_trans hopen hrun) hstep) hbody]
    rfl
  refine ⟨?_, haccepted, ?_, wellFormedBody_iff hrange⟩
  · intro marker params is h
    rw [haccepted h.accepted, h.ofHeader, h.filter_isIntermediate]
  · intro h
    have hrest : ∀ b ∈ [final] ++ data, b ≠ Byte.escape ∧ Byte.isCancel b = false := by
      intro b hb
      rcases List.mem_append.mp hb with hb | hb
      · rw [List.mem_singleton.mp hb]
        exact not_control_of_ge (UInt8.le_trans (by decide) hfinal.1)
      · exact ⟨(hdata.each b hb).1, (hdata.each b hb).2.1⟩
    show push _ _ = _
    rw [push_eq_run, Machine.run_append, List.append_assoc _ [final], Machine.run_trans
      (Machine.run_trans hopen (run_refused hrange h)) (run_dropped hrest)]
    rfl

/-- A body; a header with a marker and parameters behind an intermediate; and one with a marker
    behind a parameter, which is refused. -/
theorem push_deviceControl_headers :
    let received (header : List UInt8) :=
      push .ground ([Byte.escape, 0x50] ++ header ++ [0x71] ++ [0x78] ++ StringEnd.st.bytes)
    received [0x3F, 0x31, 0x24, 0x21]
        = (.ground, [.dcs ⟨[[some 1]]⟩ [0x24, 0x21] 0x71 [0x78]]) ∧
      received [0x31, 0x24, 0x3F, 0x32, 0x21]
        = (.ground, [.dcs ⟨[[some 1], [some 2]]⟩ [0x24, 0x21] 0x71 [0x78]]) ∧
      received [0x24, 0x31, 0x3F] = (.ground, []) := by
  intro received
  have hdata : IsDataBody [0x78] := by
    refine ⟨by decide, fun b hb => ?_⟩
    rw [List.mem_singleton.mp hb]
    exact ⟨by decide, by decide, by decide⟩
  have hbody : IsBody [0x3F, 0x31, 0x24, 0x21] (some 0x3F) [0x31] [0x24, 0x21] :=
    ⟨rfl, by decide +kernel, by decide +kernel, by decide, by decide +kernel⟩
  have haccepted : AcceptedHeader [0x31, 0x24, 0x3F, 0x32, 0x21] :=
    ⟨by decide, by decide, by decide⟩
  have hrefused : ¬AcceptedHeader [0x24, 0x31, 0x3F] := fun h => absurd h.chain (by decide)
  refine ⟨?_, ?_, ?_⟩
  · exact (push_deviceControl rfl (by decide +kernel) (by decide) hdata).1 _ _ _ hbody
  · exact (push_deviceControl rfl (by decide +kernel) (by decide) hdata).2.1 haccepted
  · exact (push_deviceControl rfl (by decide +kernel) (by decide) hdata).2.2.1 hrefused

/-- **Parameters behind an intermediate.**  The header is no body of a control sequence, and a
    control sequence with it is dropped; a device control string with it makes a message. -/
theorem push_deviceControl_reopened :
    let header : List UInt8 := [0x24, 0x31]
    (∀ marker params is, ¬IsBody header marker params is) ∧
      push .ground ([Byte.escape, 0x5B] ++ header ++ [0x71]) = (.ground, []) ∧
      push .ground ([Byte.escape, 0x50] ++ header ++ [0x71] ++ [0x78] ++ StringEnd.st.bytes)
        = (.ground, [.dcs ⟨[[some 1]]⟩ [0x24] 0x71 [0x78]]) := by
  intro header
  refine ⟨?_, by decide, by decide⟩
  intro marker params is h
  exact absurd (h.pairwise.isChain.imp fun _ _ hlink => hlink.2) (by decide)

end Decoder

end VideoTerminal
