import Mathlib.Data.List.Induction
import VideoTerminal.Proofs.Characters
import VideoTerminal.Proofs.Parameters

/-!
# The messages that the decoder makes

Whatever bytes come in, the messages that come out are of a certain form: parameters and
intermediates keep to their bounds, final bytes are final bytes, text holds no controls, and the
number of a system command is the one that its data was cut behind.  `Message.Canonical` collects
this.

It follows from what each phase carries, `Decoder.Sound`.  There is one lemma for each kind of
phase; all of them say that the phase behind a byte carries what it should, and that what the byte
completes is canonical.
-/

namespace VideoTerminal

/-! ## Parts of messages -/

/-- The bytes between the introducer and the final byte. -/
structure Intermediates (is : List UInt8) : Prop where
  length_le : is.length ≤ Decoder.maxIntermediates
  each : ∀ b ∈ is, Byte.isIntermediate b = true

/-- The body of a system command: no controls in it. -/
def IsCommandBody (bytes : List UInt8) : Prop := ∀ b ∈ bytes, 0x20 ≤ b.toNat

/-- A byte that stays in the data of a device control string. -/
def IsData (b : UInt8) : Prop := b ≠ Byte.escape ∧ Byte.isCancel b = false ∧ b ≠ Byte.delete

/-- The data of a device control string, as much as is kept of it. -/
structure IsDataBody (bytes : List UInt8) : Prop where
  length_le : bytes.length ≤ Payload.limit
  each : ∀ b ∈ bytes, IsData b

/-- No intermediates are few enough. -/
theorem Intermediates.nil : Intermediates [] :=
  ⟨Nat.zero_le _, fun _ hb => absurd hb List.not_mem_nil⟩

/-- One more is taken where there is room. -/
theorem Intermediates.append {is : List UInt8} (h : Intermediates is)
    (hroom : is.length < Decoder.maxIntermediates) {b : UInt8}
    (hb : Byte.isIntermediate b = true) : Intermediates (is ++ [b]) := by
  refine ⟨?_, ?_⟩
  · rw [List.length_append]
    exact hroom
  · intro c hc
    rcases List.mem_append.mp hc with hc | hc
    · exact h.each c hc
    · rw [List.mem_singleton.mp hc]
      exact hb

/-- There is room for the first. -/
theorem Intermediates.singleton {b : UInt8} (hb : Byte.isIntermediate b = true) :
    Intermediates [b] := Intermediates.nil.append (by decide) hb

/-- The final bytes that complete an escape sequence by themselves; the others of their class begin
    longer sequences. -/
def Byte.isLoneFinal (b : UInt8) : Bool :=
  isEscapeFinal b && !(b == 0x5B || b == 0x5D || b == 0x50 || b == 0x58 || b == 0x5E || b == 0x5F)

/-- A message as the decoder makes it. -/
inductive Message.Canonical : Message → Prop where
  | print {text : List Char} (hsome : text ≠ []) (htext : ∀ c ∈ text, Decoder.Prints c) :
      Canonical (.print text)
  | control {b : UInt8} (hclass : Byte.isC0 b = true ∨ b = Byte.delete) (hb : b ≠ Byte.escape) :
      Canonical (.control b)
  | csi {marker : Option UInt8} {params : Params} {is : List UInt8} {final : UInt8}
      (hmarker : ∀ b ∈ marker, Byte.isMarker b = true) (hparams : params.Canonical)
      (his : Intermediates is) (hfinal : Byte.isFinal final = true)
      (hplain : ¬(final = 0x6D ∧ marker = none ∧ is = [])) :
      Canonical (.csi marker params is final)
  | sgr {params : Params} (hparams : params.Canonical) : Canonical (.sgr params)
  | osc {code : Option Nat} {data : String} {ending : StringEnd} {bytes : List UInt8}
      (hbytes : IsCommandBody bytes)
      (hread : ofSystemCommand bytes ending = .osc code data ending) :
      Canonical (.osc code data ending)
  | escape {b : UInt8} (hfinal : Byte.isLoneFinal b = true) : Canonical (.esc [b])
  | escapeIntermediates {is : List UInt8} {b : UInt8} (hsome : is ≠ []) (his : Intermediates is)
      (hfinal : Byte.isEscapeFinal b = true) : Canonical (.esc (is ++ [b]))
  | dcs {params : Params} {is : List UInt8} {final : UInt8} {data : List UInt8}
      (hparams : params.Canonical) (his : Intermediates is) (hfinal : Byte.isFinal final = true)
      (hdata : IsDataBody data) : Canonical (.dcs params is final data)

/-- A control sequence is canonical, and so is the rendition that some of them select. -/
theorem Message.canonical_ofControlSequence {marker : Option UInt8} {params : Params}
    {is : List UInt8} {final : UInt8} (hmarker : ∀ b ∈ marker, Byte.isMarker b = true)
    (hparams : params.Canonical) (his : Intermediates is) (hfinal : Byte.isFinal final = true) :
    (ofControlSequence marker params is final).Canonical := by
  rw [ofControlSequence]
  split
  · exact .sgr hparams
  · next hplain => exact .csi hmarker hparams his hfinal hplain

/-- A command to the system is canonical, whatever number it begins with. -/
theorem Message.canonical_ofSystemCommand {bytes : List UInt8} (hbytes : IsCommandBody bytes)
    (ending : StringEnd) : (ofSystemCommand bytes ending).Canonical := by
  obtain ⟨code, data, hread⟩ :
      ∃ code data, ofSystemCommand bytes ending = .osc code data ending := by
    rw [ofSystemCommand]
    dsimp only
    split <;> exact ⟨_, _, rfl⟩
  rw [hread]
  exact .osc hbytes hread

/-- What a byte completes: characters that print, and canonical messages. -/
def Emission.Canonical : Emission → Prop
  | .glyph c => Decoder.Prints c
  | .cut => True
  | .message m => m.Canonical

/-! ## Payloads -/

namespace Payload

/-- A payload has no byte that was not pushed. -/
theorem mem_push {p : Payload} {b c : UInt8} (h : c ∈ (p.push b).bytes.toList) :
    c ∈ p.bytes.toList ∨ c = b := by
  rw [push] at h
  split at h
  · rw [Array.toList_push] at h
    exact (List.mem_append.mp h).imp_right List.mem_singleton.mp
  · exact Or.inl h

/-- A byte too many is dropped. -/
theorem length_push_le {p : Payload} (h : p.bytes.toList.length ≤ limit) (b : UInt8) :
    (p.push b).bytes.toList.length ≤ limit := by
  rw [push]
  split
  · next hroom =>
    rw [Array.length_toList, Array.size_push]
    exact hroom
  · exact h

/-- A byte that is no control keeps the payload a body of a command. -/
theorem isCommandBody_push {p : Payload} (h : IsCommandBody p.bytes.toList) {b : UInt8}
    (hb : 0x20 ≤ b.toNat) : IsCommandBody (p.push b).bytes.toList := by
  intro c hc
  rcases mem_push hc with hc | rfl
  · exact h c hc
  · exact hb

/-- A byte of data keeps the payload a body of data. -/
theorem isDataBody_push {p : Payload} (h : IsDataBody p.bytes.toList) {b : UInt8} (hb : IsData b) :
    IsDataBody (p.push b).bytes.toList := by
  refine ⟨length_push_le h.length_le b, ?_⟩
  intro c hc
  rcases mem_push hc with hc | rfl
  · exact h.each c hc
  · exact hb

/-- Before any data there is no wrong byte among them. -/
theorem isDataBody_empty : IsDataBody ({} : Payload).bytes.toList :=
  ⟨Nat.zero_le _, fun _ hb => absurd hb List.not_mem_nil⟩

/-- A payload keeps what there is room for, and is void if there was more. -/
theorem foldl_push (bytes : List UInt8) :
    bytes.foldl push {} = ⟨(bytes.take limit).toArray, decide (limit < bytes.length)⟩ := by
  induction bytes using List.reverseRecOn with
  | nil => rfl
  | append_singleton bytes b ih =>
      have hlength : (bytes ++ [b]).length = bytes.length + 1 := List.length_append
      rw [List.foldl_append, ih, List.foldl_cons, List.foldl_nil, push]
      dsimp only
      rw [List.size_toArray, List.length_take, hlength]
      by_cases hroom : bytes.length < limit
      · have hall : (bytes ++ [b]).take limit = bytes ++ [b] :=
          List.take_of_length_le (hlength ▸ hroom)
        have hbytes : bytes.take limit = bytes := List.take_of_length_le (Nat.le_of_lt hroom)
        rw [if_pos (by omega), hall, hbytes, List.push_toArray,
          decide_eq_false (Nat.not_lt.mpr (Nat.le_of_lt hroom)),
          decide_eq_false (Nat.not_lt.mpr hroom)]
      · have hfull : (bytes ++ [b]).take limit = bytes.take limit :=
          List.take_append_of_le_length (Nat.le_of_not_lt hroom)
        rw [if_neg (by omega), hfull, decide_eq_true (Nat.lt_succ_of_le (Nat.le_of_not_lt hroom))]

end Payload

/-! ## Phases -/

namespace Decoder

/-- What each phase carries has been read for it. -/
def Sound : Decoder → Prop
  | .ground | .escape | .csiIgnore | .controlString | .controlStringEscape => True
  | .character bytes _ => bytes ≠ []
  | .escapeIntermediate is => is ≠ [] ∧ Intermediates is
  | .csi marker r => (∀ b ∈ marker, Byte.isMarker b = true) ∧ r.Sound
  | .csiIntermediate marker params is =>
      (∀ b ∈ marker, Byte.isMarker b = true) ∧ params.Canonical ∧ Intermediates is
  | .osc p | .oscEscape p => IsCommandBody p.bytes.toList
  | .dcs _ r is => r.Sound ∧ Intermediates is
  | .dcsData params is final p | .dcsEscape params is final p =>
      params.Canonical ∧ Intermediates is ∧ Byte.isFinal final = true ∧
        IsDataBody p.bytes.toList

/-- A phase that carries what it should, behind a byte that completes what it should. -/
def Fine (x : Decoder × List Emission) : Prop := x.1.Sound ∧ ∀ e ∈ x.2, e.Canonical

/-- Outside sequences there is nothing to be sound. -/
theorem sound_ground : Sound .ground := trivial

/-- Behind an escape there is nothing yet. -/
theorem sound_escape : Sound .escape := trivial

/-- A byte that completes nothing. -/
theorem fine_nil {d : Decoder} (hd : d.Sound) : Fine (d, []) :=
  ⟨hd, fun _ he => absurd he List.not_mem_nil⟩

/-- An emission alone is fine if it is canonical. -/
theorem fine_singleton {d : Decoder} (hd : d.Sound) {e : Emission} (he : e.Canonical) :
    Fine (d, [e]) := by
  refine ⟨hd, ?_⟩
  intro f hf
  rw [List.mem_singleton.mp hf]
  exact he

/-- So is a character that prints. -/
theorem fine_glyph {d : Decoder} (hd : d.Sound) {c : Char} (hc : Prints c) :
    Fine (d, [.glyph c]) := fine_singleton hd hc

/-- So is a canonical message. -/
theorem fine_message {d : Decoder} (hd : d.Sound) {m : Message} (hm : m.Canonical) :
    Fine (d, [.message m]) := fine_singleton hd hm

/-- What was complete already comes in front. -/
theorem fine_append {x : Decoder × List Emission} (hx : Fine x) {es : List Emission}
    (hes : ∀ e ∈ es, e.Canonical) : Fine (x.1, es ++ x.2) := by
  refine ⟨hx.1, ?_⟩
  intro e he
  rcases List.mem_append.mp he with he | he
  · exact hes e he
  · exact hx.2 e he

/-- The replacement character prints. -/
theorem prints_replacement : Prints Utf8.replacement := by
  constructor <;> decide

/-- What is read from more bytes than one is no character of ASCII. -/
theorem le_of_decode? {a : UInt8} {bytes : List UInt8} (hsome : bytes ≠ []) {c : Char}
    (h : Utf8.decode? (a :: bytes) = some c) : 0x80 ≤ c.toNat := by
  have hscalar : ∀ {p : Prop} [Decidable p] {least code : Nat}, 0x80 ≤ least →
      (if p then Utf8.scalar? least code else none) = some c → 0x80 ≤ c.toNat := by
    intro p _ least code hleast hc
    obtain ⟨-, hc⟩ := Option.ite_none_right_eq_some.mp hc
    obtain ⟨hrange, hc⟩ := Option.ite_none_right_eq_some.mp hc
    rw [← Option.some.inj hc, Utf8.toNat_ofNat hrange.2]
    exact Nat.le_trans hleast hrange.1
  -- the cases of the reader: one byte, two, three, four, and more than four
  rcases bytes with - | ⟨b, - | ⟨d, - | ⟨e, - | ⟨f, bytes⟩⟩⟩⟩
  · exact absurd rfl hsome
  · exact hscalar (by decide) h
  · exact hscalar (by decide) h
  · exact hscalar (by decide) h
  · exact absurd h.symm (Option.some_ne_none c)

/-- A byte between characters begins one, prints, or is a control. -/
theorem fine_fromGround (b : UInt8) : Fine (fromGround b) := by
  rw [fromGround]
  split
  · exact fine_singleton (e := .cut) sound_escape trivial
  split
  · next hescape hcontrol =>
    rw [Bool.or_eq_true, beq_iff_eq] at hcontrol
    exact fine_message sound_ground (.control hcontrol hescape)
  split
  · next hcontrol hascii =>
    rw [Bool.or_eq_true, beq_iff_eq, not_or] at hcontrol
    obtain ⟨hC0, hdelete⟩ := hcontrol
    have hlt : b.toNat < 0x80 := UInt8.lt_iff_toNat_lt.mp hascii
    have hcode : (Char.ofNat b.toNat).toNat = b.toNat := Utf8.toNat_ofNat (Or.inl (by omega))
    refine fine_glyph sound_ground ⟨?_, ?_⟩
    · rw [hcode]
      rw [Byte.isC0, decide_eq_true_eq, UInt8.lt_iff_toNat_lt] at hC0
      exact Nat.not_lt.mp hC0
    · rw [hcode]
      intro heq
      exact hdelete (UInt8.toNat_inj.mp heq)
  split
  · exact fine_nil (List.cons_ne_nil _ _)
  split
  · exact fine_nil (List.cons_ne_nil _ _)
  split
  · exact fine_nil (List.cons_ne_nil _ _)
  · exact fine_glyph sound_ground prints_replacement

/-- A byte within a character completes it or goes on with it, or else the character is replaced. -/
theorem fine_fromCharacter {bytes : List UInt8} (hbytes : bytes ≠ []) (missing : Nat) (b : UInt8) :
    Fine (fromCharacter bytes missing b) := by
  rw [fromCharacter]
  split
  · dsimp only
    split
    · refine fine_glyph sound_ground ?_
      cases hdecode : Utf8.decode? (bytes ++ [b]) with
      | none => exact prints_replacement
      | some c =>
          obtain ⟨a, rest, rfl⟩ := List.exists_cons_of_ne_nil hbytes
          have hle : 0x80 ≤ c.toNat :=
            le_of_decode? (List.append_ne_nil_of_right_ne_nil _ (List.cons_ne_nil _ _)) hdecode
          exact ⟨by rw [Option.getD_some]; omega, by rw [Option.getD_some]; omega⟩
    · exact fine_nil (List.append_ne_nil_of_left_ne_nil hbytes _)
  · -- the character under way is lost, and the byte is taken as if there had been none
    have hlost : ∀ e ∈ [Emission.glyph Utf8.replacement], e.Canonical := by
      intro e he
      rw [List.mem_singleton.mp he]
      exact prints_replacement
    exact fine_append (fine_fromGround b) hlost

/-- A byte that has no place in a sequence breaks it off or acts as a control. -/
theorem fine_interrupt {d : Decoder} (hd : d.Sound) (b : UInt8) : Fine (interrupt d b) := by
  rw [interrupt]
  split
  · exact fine_nil sound_escape
  split
  · exact fine_nil sound_ground
  split
  · next hescape _ hC0 => exact fine_message hd (.control (Or.inl hC0) hescape)
  split
  · exact fine_nil hd
  · exact fine_fromGround b

/-- A byte behind an escape begins a sequence or ends it at once. -/
theorem fine_fromEscape (b : UInt8) : Fine (fromEscape b) := by
  rw [fromEscape]
  split
  · exact fine_nil ⟨fun _ hb => absurd hb (Option.not_mem_none _), ParamReader.sound_empty⟩
  split
  · exact fine_nil (d := .osc {}) fun _ hb => absurd hb List.not_mem_nil
  split
  · exact fine_nil (d := .dcs false {} []) ⟨ParamReader.sound_empty, .nil⟩
  split
  · exact fine_nil (d := .controlString) trivial
  split
  · next his => exact fine_nil ⟨List.cons_ne_nil _ _, .singleton his⟩
  split
  · next h1 h2 h3 h4 _ hfinal =>
    have hlone : Byte.isLoneFinal b = true := by grind [Byte.isLoneFinal]
    exact fine_message sound_ground (.escape hlone)
  · exact fine_interrupt sound_escape b

/-- A byte behind intermediates is one more of them or the final byte. -/
theorem fine_fromEscapeIntermediate {is : List UInt8} (hsome : is ≠ []) (his : Intermediates is)
    (b : UInt8) : Fine (fromEscapeIntermediate is b) := by
  rw [fromEscapeIntermediate]
  split
  · next hb =>
    refine fine_nil (d := .escapeIntermediate _) ?_
    rw [keepIntermediate]
    split
    · next hroom => exact ⟨List.append_ne_nil_of_left_ne_nil hsome _, his.append hroom hb⟩
    · exact ⟨hsome, his⟩
  split
  · next hfinal => exact fine_message sound_ground (.escapeIntermediates hsome his hfinal)
  · exact fine_interrupt (d := .escapeIntermediate is) ⟨hsome, his⟩ b

/-! ### Control sequences -/

/-- A byte of the parameters is read, or the sequence ends or is ignored from there on. -/
theorem fine_fromCsi {marker : Option UInt8} (hmarker : ∀ b ∈ marker, Byte.isMarker b = true)
    {r : ParamReader} (hr : r.Sound) (b : UInt8) : Fine (fromCsi marker r b) := by
  rw [fromCsi]
  split
  · next r' hread => exact fine_nil (d := .csi marker r') ⟨hmarker, hr.readParameter? hread⟩
  split
  · next hb =>
    split
    · refine fine_nil (d := .csi (some b) r) ⟨?_, hr⟩
      intro c hc
      rw [← Option.some.inj hc]
      exact hb
    · exact fine_nil (d := .csiIgnore) trivial
  split
  · next hb =>
    exact fine_nil (d := .csiIntermediate marker r.params [b]) ⟨hmarker, hr.params, .singleton hb⟩
  split
  · next hfinal =>
    exact fine_message sound_ground
      (Message.canonical_ofControlSequence hmarker hr.params .nil hfinal)
  · exact fine_interrupt (d := .csi marker r) ⟨hmarker, hr⟩ b

/-- A byte behind the parameters is one more intermediate or the final byte. -/
theorem fine_fromCsiIntermediate {marker : Option UInt8}
    (hmarker : ∀ b ∈ marker, Byte.isMarker b = true) {params : Params} (hparams : params.Canonical)
    {is : List UInt8} (his : Intermediates is) (b : UInt8) :
    Fine (fromCsiIntermediate marker params is b) := by
  rw [fromCsiIntermediate]
  split
  · next hb =>
    split
    · next hroom =>
      exact fine_nil (d := .csiIntermediate marker params (is ++ [b]))
        ⟨hmarker, hparams, his.append hroom hb⟩
    · exact fine_nil (d := .csiIgnore) trivial
  split
  · exact fine_nil (d := .csiIgnore) trivial
  split
  · next hfinal =>
    exact fine_message sound_ground
      (Message.canonical_ofControlSequence hmarker hparams his hfinal)
  · exact fine_interrupt (d := .csiIntermediate marker params is) ⟨hmarker, hparams, his⟩ b

/-- Nothing comes of a sequence that is ignored. -/
theorem fine_fromCsiIgnore (b : UInt8) : Fine (fromCsiIgnore b) := by
  rw [fromCsiIgnore]
  split
  · exact fine_nil sound_ground
  split
  · exact fine_nil (d := .csiIgnore) trivial
  · exact fine_interrupt (d := .csiIgnore) trivial b

/-! ### Strings -/

/-- The command that ends is made of a body of a command. -/
theorem canonical_finishOsc {p : Payload} (hp : IsCommandBody p.bytes.toList)
    (ending : StringEnd) : ∀ e ∈ finishOsc p ending, e.Canonical := by
  intro e he
  rw [finishOsc] at he
  split at he
  · exact absurd he List.not_mem_nil
  · rw [List.mem_singleton.mp he]
    exact Message.canonical_ofSystemCommand hp ending

/-- A byte of a command joins the body, or ends it. -/
theorem fine_fromOsc {p : Payload} (hp : IsCommandBody p.bytes.toList) (b : UInt8) :
    Fine (fromOsc p b) := by
  rw [fromOsc]
  split
  · exact ⟨sound_ground, canonical_finishOsc hp .bel⟩
  split
  · exact fine_nil (d := .oscEscape p) hp
  split
  · exact fine_nil sound_ground
  split
  · exact fine_nil (d := .osc p) hp
  · next hC0 =>
    rw [Byte.isC0, decide_eq_true_eq, UInt8.lt_iff_toNat_lt] at hC0
    exact fine_nil (d := .osc (p.push b)) (Payload.isCommandBody_push hp (Nat.not_lt.mp hC0))

/-- Behind a string an escape begins a new sequence. -/
theorem fine_afterString (b : UInt8) : Fine (afterString b) := by
  rw [afterString]
  split
  · exact fine_nil sound_ground
  · exact fine_fromEscape b

/-- A byte behind an escape in a command decides how it has ended. -/
theorem fine_fromOscEscape {p : Payload} (hp : IsCommandBody p.bytes.toList) (b : UInt8) :
    Fine (fromOscEscape p b) := fine_append (fine_afterString b) (canonical_finishOsc hp .st)

/-- A byte of the header of a device control is read, or what follows is skipped. -/
theorem fine_fromDcs (marked : Bool) {r : ParamReader} (hr : r.Sound) {is : List UInt8}
    (his : Intermediates is) (b : UInt8) : Fine (fromDcs marked r is b) := by
  rw [fromDcs]
  split
  · next r' hread => exact fine_nil (d := .dcs marked r' is) ⟨hr.readParameter? hread, his⟩
  split
  · split
    · exact fine_nil (d := .dcs true r is) ⟨hr, his⟩
    · exact fine_nil (d := .controlString) trivial
  split
  · next hb =>
    split
    · next hroom =>
      exact fine_nil (d := .dcs marked r.finish (is ++ [b])) ⟨hr.finish, his.append hroom hb⟩
    · exact fine_nil (d := .controlString) trivial
  split
  · next hfinal =>
    exact fine_nil (d := .dcsData r.params is b {})
      ⟨hr.params, his, hfinal, Payload.isDataBody_empty⟩
  split
  · exact fine_nil (d := .controlStringEscape) trivial
  split
  · exact fine_nil sound_ground
  split
  · exact fine_nil (d := .dcs marked r is) ⟨hr, his⟩
  · exact fine_nil (d := .controlString) trivial

section DeviceControl

variable {params : Params} {is : List UInt8} {final : UInt8} {p : Payload}
  (hparams : params.Canonical) (his : Intermediates is) (hfinal : Byte.isFinal final = true)
  (hp : IsDataBody p.bytes.toList)

include hparams his hfinal hp

/-- The device control that ends is made of a header and a body of data. -/
theorem canonical_finishDcs : ∀ e ∈ finishDcs params is final p, e.Canonical := by
  intro e he
  rw [finishDcs] at he
  split at he
  · exact absurd he List.not_mem_nil
  · rw [List.mem_singleton.mp he]
    exact Message.Canonical.dcs hparams his hfinal hp

/-- A byte of the data joins the body, or ends it. -/
theorem fine_fromDcsData (b : UInt8) : Fine (fromDcsData params is final p b) := by
  rw [fromDcsData]
  split
  · exact fine_nil (d := .dcsEscape params is final p) ⟨hparams, his, hfinal, hp⟩
  split
  · exact fine_nil sound_ground
  split
  · exact fine_nil (d := .dcsData params is final p) ⟨hparams, his, hfinal, hp⟩
  · next hescape hcancel hdelete =>
    exact fine_nil (d := .dcsData params is final (p.push b))
      ⟨hparams, his, hfinal,
        Payload.isDataBody_push hp ⟨hescape, eq_false_of_ne_true hcancel, hdelete⟩⟩

/-- A byte behind an escape among the data decides how they have ended. -/
theorem fine_fromDcsEscape (b : UInt8) : Fine (fromDcsEscape params is final p b) :=
  fine_append (fine_afterString b) (canonical_finishDcs hparams his hfinal hp)

end DeviceControl

/-- Nothing comes of a string that is skipped. -/
theorem fine_fromControlString (b : UInt8) : Fine (fromControlString b) := by
  rw [fromControlString]
  split
  · exact fine_nil (d := .controlStringEscape) trivial
  split
  · exact fine_nil sound_ground
  · exact fine_nil (d := .controlString) trivial

/-! ### Any phase -/

/-- One byte leaves a phase that carries what it should, and completes what it should. -/
theorem fine_step {d : Decoder} (hd : d.Sound) (b : UInt8) : Fine (d.step b) := by
  cases d with
  | ground => exact fine_fromGround b
  | character bytes missing => exact fine_fromCharacter hd missing b
  | escape => exact fine_fromEscape b
  | escapeIntermediate is => exact fine_fromEscapeIntermediate hd.1 hd.2 b
  | csi marker r => exact fine_fromCsi hd.1 hd.2 b
  | csiIntermediate marker params is => exact fine_fromCsiIntermediate hd.1 hd.2.1 hd.2.2 b
  | csiIgnore => exact fine_fromCsiIgnore b
  | osc p => exact fine_fromOsc hd b
  | oscEscape p => exact fine_fromOscEscape hd b
  | dcs marked r is => exact fine_fromDcs marked hd.1 hd.2 b
  | dcsData params is final p => exact fine_fromDcsData hd.1 hd.2.1 hd.2.2.1 hd.2.2.2 b
  | dcsEscape params is final p => exact fine_fromDcsEscape hd.1 hd.2.1 hd.2.2.1 hd.2.2.2 b
  | controlString => exact fine_fromControlString b
  | controlStringEscape => exact fine_afterString b

/-- Whatever bytes a decoder takes, what they complete is canonical. -/
theorem canonical_run {d : Decoder} (hd : d.Sound) (bytes : List UInt8) :
    ∀ e ∈ (Machine.run step d bytes).2, e.Canonical :=
  Machine.forall_mem_run (I := Sound) (fun _ b _ hs => (fine_step hs b).1)
    (fun _ b _ hs => (fine_step hs b).2) hd

end Decoder

end VideoTerminal
