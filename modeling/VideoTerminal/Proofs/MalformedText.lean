import Mathlib.Data.List.Induction
import VideoTerminal.Proofs.RoundTrip

/-!
# Malformed text

Any bytes without an escape fall into units: a control, a character in its own bytes, or a first
byte with continuations that are no character, for which a replacement character is given out.
`TextUnit` carries what makes each of them one, and `FallsInto` lines them up.  The decoder takes
bytes unit by unit, and what it has of a unit that may still go on is in its phase, so that its
phase is known from these bytes alone: `Decoder.within`.

ASCII stands for itself in all of this.  No malformed unit has a byte of it, and every other byte of
it is a unit of its own.  So nothing of it is lost, none comes up, and text with controls between
its characters is given out as it is.
-/

namespace VideoTerminal

/-- A control that may come in a text: a C0 control or a delete. -/
def Byte.isControl (b : UInt8) : Bool := isC0 b || b == delete

namespace Utf8

/-- How many bytes a first byte announces to come behind it. -/
def announced (b : UInt8) : Nat :=
  if 0xC2 ≤ b ∧ b ≤ 0xDF then 1
  else if 0xE0 ≤ b ∧ b ≤ 0xEF then 2
  else if 0xF0 ≤ b ∧ b ≤ 0xF4 then 3
  else 0

/-- A character beyond ASCII has just the bytes that its first one announces. -/
theorem length_of_spelled {c : Char} {first : UInt8} {rest : List UInt8}
    (h : Spelled c (first :: rest)) (hfirst : 0x80 ≤ first) : rest.length = announced first := by
  have hrange := toNat_range c
  have hle : 0x80 ≤ first.toNat := UInt8.le_iff_toNat_le.mp hfirst
  simp only [announced, UInt8.le_iff_toNat_le]
  cases h with
  | one hlt ha => omega
  | two hle hlt ha hb => exact (if_pos ⟨show 0xC2 ≤ _ by omega, show _ ≤ 0xDF by omega⟩).symm
  | three hle hlt ha hb hd =>
      refine ((if_neg fun h => ?_).trans
        (if_pos ⟨show 0xE0 ≤ _ by omega, show _ ≤ 0xEF by omega⟩)).symm
      have hge : first.toNat ≤ 0xDF := h.2
      omega
  | four hle ha hb hd he =>
      refine ((if_neg fun h => ?_).trans ((if_neg fun h => ?_).trans
        (if_pos ⟨show 0xF0 ≤ _ by omega, show _ ≤ 0xF4 by omega⟩))).symm
      · have hge : first.toNat ≤ 0xDF := h.2
        omega
      · have hge : first.toNat ≤ 0xEF := h.2
        omega

/-- A character whose first byte is beyond ASCII is so itself. -/
theorem le_toNat_of_spelled {c : Char} {first : UInt8} {rest : List UInt8}
    (h : Spelled c (first :: rest)) (hfirst : 0x80 ≤ first) : 0x80 ≤ c.toNat := by
  have hle : 0x80 ≤ first.toNat := UInt8.le_iff_toNat_le.mp hfirst
  cases h with
  | one hlt ha => omega
  | two hle hlt ha hb => exact hle
  | three hle hlt ha hb hd => omega
  | four hle ha hb hd he => omega

/-- Characters beyond ASCII have no byte of it. -/
theorem le_of_mem_utf8EncodeChar {c : Char} (h : 0x80 ≤ c.toNat) :
    ∀ b ∈ String.utf8EncodeChar c, 0x80 ≤ b := by
  intro b hb
  rw [UInt8.le_iff_toNat_le]
  have hspelled := spelled_utf8EncodeChar c
  generalize String.utf8EncodeChar c = bytes at hb hspelled
  cases hspelled <;> grind

/-- Characters of ASCII are one byte of it. -/
theorem exists_byte {c : Char} (h : c.toNat < 0x80) :
    ∃ b : UInt8, b < 0x80 ∧ c = Char.ofNat b.toNat := by
  have hbyte : (UInt8.ofNat c.toNat).toNat = c.toNat := by
    rw [UInt8.toNat_ofNat']
    omega
  refine ⟨UInt8.ofNat c.toNat, UInt8.lt_iff_toNat_lt.mpr ?_, ?_⟩
  · show (UInt8.ofNat c.toNat).toNat < 0x80
    omega
  · rw [hbyte, Char.ofNat_toNat]

end Utf8

/-! ## Units of text -/

/-- A unit of a text, well formed or not. -/
inductive TextUnit where
  | control (b : UInt8) (hcontrol : Byte.isControl b = true) (hescape : b ≠ Byte.escape)
  | character (c : Char) (hprints : Decoder.Prints c)
  /-- A byte beyond ASCII, and continuations behind it, no more than it announces, that do not make
  a character with it. -/
  | malformed (first : UInt8) (rest : List UInt8) (hfirst : 0x80 ≤ first)
      (hrest : ∀ b ∈ rest, Utf8.isContinuation b = true)
      (hlength : rest.length ≤ Utf8.announced first)
      (hnone : ∀ c, first :: rest ≠ String.utf8EncodeChar c)

namespace TextUnit

/-- The bytes of a unit. -/
def bytes : TextUnit → List UInt8
  | .control b _ _ => [b]
  | .character c _ => String.utf8EncodeChar c
  | .malformed first rest _ _ _ _ => first :: rest

/-- What a unit completes. -/
def emission : TextUnit → Emission
  | .control b _ _ => .message (.control b)
  | .character c _ => .glyph c
  | .malformed _ _ _ _ _ _ => .glyph Utf8.replacement

/-- A malformed unit is as long as it can be: it has all that it announces, or what stands behind it
    is no continuation. -/
def Ends : TextUnit → List UInt8 → Prop
  | .malformed first rest _ _ _ _, behind =>
      rest.length = Utf8.announced first ∨ ∃ b ∈ behind.head?, Utf8.isContinuation b = false
  | _, _ => True

/-- A unit that has ended has ended, whatever comes later. -/
theorem Ends.append {u : TextUnit} {behind : List UInt8} (h : u.Ends behind) (more : List UInt8) :
    u.Ends (behind ++ more) := by
  cases u with
  | control | character => trivial
  | malformed first rest hfirst hrest hlength hnone =>
      rcases h with hall | ⟨b, hb, hother⟩
      · exact .inl hall
      · refine .inr ⟨b, ?_, hother⟩
        rw [List.head?_append, Option.mem_def.mp hb]
        rfl

end TextUnit

/-! ## Falling into units -/

/-- The bytes of a unit that may still go on: none, or a first byte and fewer continuations than it
    announces. -/
structure IsOpen (bytes : List UInt8) : Prop where
  beyond : ∀ b ∈ bytes, 0x80 ≤ b
  continuation : ∀ b ∈ bytes.tail, Utf8.isContinuation b = true
  missing : ∀ first ∈ bytes.head?, bytes.tail.length < Utf8.announced first

/-- Bytes that fall into units, up to those of one that may still go on. -/
inductive FallsInto : List UInt8 → List TextUnit → List UInt8 → Prop
  | rest {bytes : List UInt8} (hopen : IsOpen bytes) : FallsInto bytes [] bytes
  | cons {bytes rest : List UInt8} {units : List TextUnit} (u : TextUnit) (hends : u.Ends bytes)
      (h : FallsInto bytes units rest) : FallsInto (u.bytes ++ bytes) (u :: units) rest

namespace FallsInto

variable {bytes rest : List UInt8} {units : List TextUnit}

/-- No bytes fall into no units. -/
theorem nil : FallsInto [] [] [] := .rest ⟨nofun, nofun, nofun⟩

/-- A unit that has ended falls into itself. -/
theorem single (u : TextUnit) (hends : u.Ends []) : FallsInto u.bytes [u] [] := by
  have h := FallsInto.cons u hends nil
  rwa [List.append_nil] at h

/-- What is left over may always go on. -/
theorem isOpen (h : FallsInto bytes units rest) : IsOpen rest := by
  induction h with
  | rest hopen => exact hopen
  | cons u hends h ih => exact ih

/-- No byte is lost between the units and what is left over. -/
theorem eq_append (h : FallsInto bytes units rest) :
    bytes = units.flatMap TextUnit.bytes ++ rest := by
  induction h with
  | rest hopen => rfl
  | cons u hends h ih => rw [List.flatMap_cons, List.append_assoc, ← ih]

/-- What is still open falls into units together with the bytes behind it. -/
theorem append {more rest' : List UInt8} {units' : List TextUnit} (h : FallsInto bytes units rest)
    (h' : FallsInto (rest ++ more) units' rest') :
    FallsInto (bytes ++ more) (units ++ units') rest' := by
  induction h with
  | rest hopen => exact h'
  | cons u hends h ih =>
      rw [List.append_assoc]
      exact .cons u (hends.append more) (ih h')

end FallsInto

namespace Decoder

/-! ## Byte by byte -/

/-- The phase in the middle of a unit, known by its bytes so far. -/
def within : List UInt8 → Decoder
  | [] => .ground
  | first :: rest => .character (first :: rest) (Utf8.announced first - rest.length)

/-- All characters beyond ASCII are drawn. -/
theorem prints_of_le {c : Char} (h : 0x80 ≤ c.toNat) : Prints c := ⟨by omega, by omega⟩

/-- Of ASCII, the characters that are drawn are those that are no controls. -/
theorem prints_ofNat_iff {b : UInt8} :
    Prints (Char.ofNat b.toNat) ↔ Byte.isControl b = false := by
  have hlt := b.toNat_lt
  have hdelete : b.toNat = 0x7F ↔ b = Byte.delete := UInt8.toNat_inj (b := Byte.delete)
  rw [Prints, Utf8.toNat_ofNat (Or.inl (by omega)), ne_eq, hdelete]
  simp [Byte.isControl, Byte.isC0, UInt8.le_iff_toNat_le]

/-- Bytes beyond ASCII leave nothing of ASCII. -/
theorem filter_ascii {bytes : List UInt8} (h : ∀ b ∈ bytes, 0x80 ≤ b) :
    bytes.filter (· < 0x80) = [] := by
  simpa only [List.filter_eq_nil_iff, decide_eq_true_eq, UInt8.not_lt] using h

/-- Continuations are beyond ASCII. -/
theorem le_of_isContinuation {b : UInt8} (hb : Utf8.isContinuation b = true) : 0x80 ≤ b := by
  rw [Utf8.isContinuation, Bool.and_eq_true, decide_eq_true_eq] at hb
  exact hb.1

/-- A byte in the middle of a text completes some units, and leaves one that may go on. -/
def Completes (bytes : List UInt8) (b : UInt8) : Prop :=
  ∃ (units : List TextUnit) (rest : List UInt8), FallsInto (bytes ++ [b]) units rest ∧
    step (within bytes) b = (within rest, units.map TextUnit.emission)

/-- Controls are complete at once. -/
theorem fromGround_control {b : UInt8} (hescape : b ≠ Byte.escape)
    (hcontrol : Byte.isControl b = true) : fromGround b = (.ground, [.message (.control b)]) := by
  rw [fromGround, if_neg hescape]
  exact if_pos hcontrol

/-- So are the characters of ASCII. -/
theorem fromGround_ascii {b : UInt8} (hcontrol : Byte.isControl b = false) (hb : b < 0x80) :
    fromGround b = (.ground, [.glyph (Char.ofNat b.toNat)]) := by
  have hescape : b ≠ Byte.escape := by
    rintro rfl
    cases hcontrol
  rw [fromGround, if_neg hescape]
  exact (if_neg (Bool.eq_false_iff.mp hcontrol)).trans (if_pos hb)

/-- A byte beyond ASCII waits for those it announces, and is lost if it announces none. -/
theorem fromGround_beyond {b : UInt8} (hb : 0x80 ≤ b) :
    fromGround b = if Utf8.announced b = 0 then (.ground, [.glyph Utf8.replacement])
      else (.character [b] (Utf8.announced b), []) := by
  have hcontrol : ¬(Byte.isC0 b || b == Byte.delete) = true := by
    grind [Byte.isC0, Byte.delete]
  have hescape : b ≠ Byte.escape := by grind [Byte.escape]
  rw [fromGround, if_neg hescape, if_neg hcontrol, if_neg (UInt8.not_lt.mpr hb)]
  simp only [Bool.and_eq_true, decide_eq_true_eq, Utf8.announced]
  repeat' split
  all_goals first | rfl | contradiction

/-- A byte between units is a unit, or announces others. -/
theorem completes_nil {b : UInt8} (hescape : b ≠ Byte.escape) : Completes [] b := by
  have hstep : step (within []) b = fromGround b := rfl
  by_cases hascii : b < 0x80
  · cases hcontrol : Byte.isControl b with
    | true =>
        refine ⟨_, [], .single (.control b hcontrol hescape) trivial, ?_⟩
        exact hstep.trans (fromGround_control hescape hcontrol)
    | false =>
        have hunit := FallsInto.single
          (.character (Char.ofNat b.toNat) (prints_ofNat_iff.mpr hcontrol)) trivial
        rw [TextUnit.bytes, Utf8.utf8EncodeChar_ofNat hascii] at hunit
        exact ⟨_, [], hunit, hstep.trans (fromGround_ascii hcontrol hascii)⟩
  · have hbeyond : 0x80 ≤ b := UInt8.not_lt.mp hascii
    by_cases hnone : Utf8.announced b = 0
    · have hlost : ∀ c, [b] ≠ String.utf8EncodeChar c := by
        intro c hc
        have hspelled := Utf8.spelled_utf8EncodeChar c
        rw [← hc] at hspelled
        have hle : 0x80 ≤ b.toNat := UInt8.le_iff_toNat_le.mp hbeyond
        cases hspelled with
        | one hlt ha => omega
      refine ⟨_, [], .single (.malformed b [] hbeyond nofun (Nat.zero_le _) hlost)
        (Or.inl hnone.symm), ?_⟩
      rw [hstep, fromGround_beyond hbeyond, if_pos hnone]
      rfl
    · refine ⟨[], [b], .rest ⟨?_, nofun, ?_⟩, ?_⟩
      · intro c hc
        rwa [List.mem_singleton.mp hc]
      · rintro first ⟨⟩
        exact Nat.pos_of_ne_zero hnone
      · rw [hstep, fromGround_beyond hbeyond, if_neg hnone]
        rfl

/-- The last continuation that was announced completes a character, or what is none. -/
theorem completes_last {first b : UInt8} {tail : List UInt8} (hopen : IsOpen (first :: tail))
    (hb : Utf8.isContinuation b = true) (hlast : Utf8.announced first = tail.length + 1) :
    Completes (first :: tail) b := by
  have hfirst : 0x80 ≤ first := hopen.beyond first List.mem_cons_self
  have hstep : step (within (first :: tail)) b
      = (.ground, [.glyph ((Utf8.decode? (first :: tail ++ [b])).getD Utf8.replacement)]) := by
    show fromCharacter (first :: tail) (Utf8.announced first - tail.length) b = _
    rw [fromCharacter, if_pos hb]
    exact if_pos (by omega)
  cases hdecode : Utf8.decode? (first :: tail ++ [b]) with
  | some c =>
      have hbytes := Utf8.decode?_eq_some_iff.mp hdecode
      have hspelled := Utf8.spelled_of_decode? hdecode
      have hprints := prints_of_le (Utf8.le_toNat_of_spelled hspelled hfirst)
      rw [hdecode] at hstep
      rw [Completes, hbytes]
      exact ⟨_, [], .single (.character c hprints) trivial, hstep⟩
  | none =>
      have hnone : ∀ c, first :: (tail ++ [b]) ≠ String.utf8EncodeChar c := by
        intro c hc
        have hsome : Utf8.decode? (first :: tail ++ [b]) = some c :=
          Utf8.decode?_eq_some_iff.mpr hc
        rw [hdecode] at hsome
        cases hsome
      have hrest : ∀ c ∈ tail ++ [b], Utf8.isContinuation c = true :=
        List.forall_mem_append.mpr ⟨hopen.continuation, List.forall_mem_singleton.mpr hb⟩
      have hall : (tail ++ [b]).length = Utf8.announced first :=
        List.length_append.trans hlast.symm
      rw [hdecode] at hstep
      exact ⟨_, [], .single (.malformed first (tail ++ [b]) hfirst hrest (Nat.le_of_eq hall) hnone)
        (Or.inl hall), hstep⟩

/-- A continuation before the last one leaves the unit open. -/
theorem completes_more {first b : UInt8} {tail : List UInt8} (hopen : IsOpen (first :: tail))
    (hb : Utf8.isContinuation b = true) (hmore : tail.length + 1 < Utf8.announced first) :
    Completes (first :: tail) b := by
  have hlength : (tail ++ [b]).length = tail.length + 1 := List.length_append
  refine ⟨[], first :: (tail ++ [b]), .rest ⟨?_, ?_, ?_⟩, ?_⟩
  · exact List.forall_mem_append.mpr
      ⟨hopen.beyond, List.forall_mem_singleton.mpr (le_of_isContinuation hb)⟩
  · exact List.forall_mem_append.mpr ⟨hopen.continuation, List.forall_mem_singleton.mpr hb⟩
  · rintro _ ⟨⟩
    exact Nat.lt_of_le_of_lt (Nat.le_of_eq hlength) hmore
  · show fromCharacter (first :: tail) (Utf8.announced first - tail.length) b = _
    rw [fromCharacter, if_pos hb]
    refine (if_neg (by omega)).trans ?_
    rw [within, hlength, Nat.sub_add_eq]
    rfl

/-- Any other byte leaves the unit malformed, and stands between units. -/
theorem completes_other {first b : UInt8} {tail : List UInt8} (hopen : IsOpen (first :: tail))
    (hescape : b ≠ Byte.escape) (hb : Utf8.isContinuation b = false) :
    Completes (first :: tail) b := by
  have hfirst : 0x80 ≤ first := hopen.beyond first List.mem_cons_self
  have hmissing : tail.length < Utf8.announced first := hopen.missing first rfl
  have hnone : ∀ c, first :: tail ≠ String.utf8EncodeChar c := by
    intro c hc
    have hspelled := Utf8.spelled_utf8EncodeChar c
    rw [← hc] at hspelled
    exact absurd (Utf8.length_of_spelled hspelled hfirst) (Nat.ne_of_lt hmissing)
  obtain ⟨units, rest, hunits, hstep⟩ := completes_nil hescape
  have hlength : tail.length ≤ Utf8.announced first := Nat.le_of_lt hmissing
  refine ⟨_, rest, .cons (.malformed first tail hfirst hopen.continuation hlength hnone)
    (Or.inr ⟨b, rfl, hb⟩) hunits, ?_⟩
  · have hground : fromGround b = (within rest, units.map TextUnit.emission) := hstep
    show fromCharacter (first :: tail) (Utf8.announced first - tail.length) b = _
    rw [fromCharacter, hb, hground]
    rfl

/-- Every byte but an escape completes units, and leaves one that may go on. -/
theorem completes {bytes : List UInt8} (hopen : IsOpen bytes) {b : UInt8}
    (hescape : b ≠ Byte.escape) : Completes bytes b := by
  cases bytes with
  | nil => exact completes_nil hescape
  | cons first tail =>
      have hmissing : tail.length < Utf8.announced first := hopen.missing first rfl
      cases hb : Utf8.isContinuation b with
      | true =>
          rcases Nat.lt_or_eq_of_le (Nat.succ_le_of_lt hmissing) with hmore | hlast
          · exact completes_more hopen hb hmore
          · exact completes_last hopen hb hlast.symm
      | false => exact completes_other hopen hescape hb

/-- **Bytes without an escape fall into units**, the last of which may go on: the decoder completes
    them one by one. -/
theorem run_units {bytes : List UInt8} (hescape : Byte.escape ∉ bytes) :
    ∃ (units : List TextUnit) (rest : List UInt8), FallsInto bytes units rest ∧
      Machine.run step .ground bytes = (within rest, units.map TextUnit.emission) := by
  -- from the end, since a byte is taken where those before it have led
  induction bytes using List.reverseRecOn with
  | nil => exact ⟨[], [], .nil, rfl⟩
  | append_singleton bytes b ih =>
      simp only [List.mem_append, List.mem_singleton, not_or] at hescape
      obtain ⟨units, rest, hunits, hrun⟩ := ih hescape.1
      obtain ⟨more, rest', hmore, hstep⟩ := completes hunits.isOpen (Ne.symm hescape.2)
      refine ⟨units ++ more, rest', hunits.append hmore, ?_⟩
      rw [Machine.run_trans hrun ((Machine.run_singleton _ _).trans hstep), List.map_append]

end Decoder

/-! ## What is given out -/

namespace Emission

/-- Emissions of which a text with controls gives rise. -/
def isPlain : Emission → Bool
  | .glyph _ | .message (.control _) => true
  | _ => false

/-- A control, or a character of ASCII. -/
def isAscii : Emission → Bool
  | .glyph c => c.toNat < 0x80
  | .message (.control _) => true
  | _ => false

/-- What a byte of ASCII completes: a control, or itself as a character. -/
def ofAscii (b : UInt8) : Emission :=
  if Byte.isControl b then .message (.control b) else .glyph (Char.ofNat b.toNat)

/-- The character, if it is one. -/
def char? : Emission → Option Char
  | .glyph c => some c
  | _ => none

end Emission

namespace Message

/-- A run of text, or a control. -/
def isPlain : Message → Bool
  | .print _ | .control _ => true
  | _ => false

/-- The characters of a message. -/
def chars : Message → List Char
  | .print text => text
  | _ => []

/-- The characters among the emissions of a message are its own. -/
theorem filterMap_char?_emissions (m : Message) :
    m.emissions.filterMap Emission.char? = m.chars := by
  cases m with
  | print text =>
      show (text.map Emission.glyph).filterMap Emission.char? = text
      rw [List.filterMap_map]
      exact List.filterMap_some
  | _ => rfl

/-- A message of which all emissions are plain is plain itself. -/
theorem isPlain_of_emissions {m : Message} (h : ∀ e ∈ m.emissions, e.isPlain = true) :
    m.isPlain = true := by
  cases m with
  | print | control => rfl
  | _ => exact absurd (h .cut List.mem_cons_self) nofun

end Message

namespace Emission

/-- To close a batch neither adds an emission nor drops one: the run becomes the last message. -/
theorem emissions_close (b : Batch) :
    b.close.reverse.flatMap Message.emissions
      = b.messages.reverse.flatMap Message.emissions ++ b.run.reverse.map glyph := by
  rw [Batch.close]
  by_cases hrun : b.run = []
  · simp [hrun]
  · rw [if_neg hrun, List.reverse_cons, List.flatMap_append, List.flatMap_singleton]
    rfl

/-- A batch collects plain emissions in their order, whether they go to its run or end it. -/
theorem emissions_add (b : Batch) {e : Emission} (he : e.isPlain = true) :
    (b.add e).close.reverse.flatMap Message.emissions
      = b.close.reverse.flatMap Message.emissions ++ [e] := by
  rw [emissions_close (b.add e)]
  cases e with
  | glyph c =>
      rw [emissions_close]
      simp [Batch.add]
  | cut => cases he
  | message m =>
      cases m with
      | control c => simp [Batch.add, Message.emissions]
      | _ => cases he

/-- Joining characters to runs of text keeps a text with controls as it is. -/
theorem emissions_batch {es : List Emission} (hes : ∀ e ∈ es, e.isPlain = true) :
    (batch es.toArray).flatMap Message.emissions = es := by
  have hfold : ∀ (es : List Emission) (b : Batch), (∀ e ∈ es, e.isPlain = true) →
      (es.foldl Batch.add b).close.reverse.flatMap Message.emissions
        = b.close.reverse.flatMap Message.emissions ++ es := by
    intro es
    induction es with
    | nil =>
        intro b _
        exact (List.append_nil _).symm
    | cons e es ih =>
        intro b hes
        rw [List.foldl_cons, ih _ fun f hf => hes f (List.mem_cons_of_mem e hf),
          emissions_add b (hes e List.mem_cons_self), List.append_assoc, List.singleton_append]
  rw [batch, List.foldl_toArray]
  exact hfold es {} hes

end Emission

/-! ## ASCII -/

/-- Controls are of ASCII. -/
theorem Byte.lt_of_isControl {b : UInt8} (h : Byte.isControl b = true) : b < 0x80 := by
  grind [Byte.isControl, Byte.isC0, Byte.delete]

namespace TextUnit

/-- Every unit of a text gives a glyph or a control. -/
theorem isPlain_emission (u : TextUnit) : u.emission.isPlain = true := by
  cases u <;> rfl

/-- A unit gives out the ASCII that is in its bytes. -/
theorem ascii_emission (u : TextUnit) :
    [u.emission].filter Emission.isAscii
      = (u.bytes.filter (· < 0x80)).map Emission.ofAscii := by
  cases u with
  | control b hcontrol hescape =>
      have hlt := Byte.lt_of_isControl hcontrol
      simp [bytes, emission, Emission.isAscii, Emission.ofAscii, hlt, hcontrol]
  | character c hprints =>
      by_cases hc : c.toNat < 0x80
      · obtain ⟨b, hb, rfl⟩ := Utf8.exists_byte hc
        have hcontrol := Decoder.prints_ofNat_iff.mp hprints
        simp [bytes, emission, Emission.isAscii, Emission.ofAscii, Utf8.utf8EncodeChar_ofNat hb, hb,
          hc, hcontrol]
      · have hbeyond := Utf8.le_of_mem_utf8EncodeChar (Nat.le_of_not_lt hc)
        rw [bytes, Decoder.filter_ascii hbeyond]
        simp [emission, Emission.isAscii, hc]
  | malformed first rest hfirst hrest hlength hnone =>
      have hbeyond : ∀ b ∈ first :: rest, 0x80 ≤ b :=
        List.forall_mem_cons.mpr ⟨hfirst, fun b hb => Decoder.le_of_isContinuation (hrest b hb)⟩
      rw [bytes, Decoder.filter_ascii hbeyond]
      rfl

/-- Units give out the ASCII that is in their bytes, in order. -/
theorem ascii_emissions (units : List TextUnit) :
    (units.map emission).filter Emission.isAscii
      = ((units.flatMap bytes).filter (· < 0x80)).map Emission.ofAscii := by
  induction units with
  | nil => rfl
  | cons u units ih =>
      rw [List.map_cons, ← List.singleton_append, List.filter_append, ascii_emission, ih,
        List.flatMap_cons, List.filter_append, List.map_append]

end TextUnit

namespace Decoder

/-- Pieces of a text give together what the whole completes. -/
theorem run_push {d : Decoder} {pieces : List (List UInt8)}
    (hplain : ∀ e ∈ (Machine.run step d pieces.flatten).2, e.isPlain = true) :
    (Machine.run push d pieces).1 = (Machine.run step d pieces.flatten).1 ∧
    (Machine.run push d pieces).2.flatMap Message.emissions
      = (Machine.run step d pieces.flatten).2 := by
  induction pieces generalizing d with
  | nil => exact ⟨rfl, rfl⟩
  | cons piece pieces ih =>
      rw [List.flatten_cons, Machine.run_append] at hplain ⊢
      obtain ⟨hfirst, hrest⟩ := List.forall_mem_append.mp hplain
      obtain ⟨hphase, hemissions⟩ := ih hrest
      rw [Machine.run_cons, push_eq_run]
      refine ⟨hphase, ?_⟩
      rw [List.flatMap_append, hemissions, Emission.emissions_batch hfirst]

/-! ## Well-formed text -/

/-- The bytes without the controls among them. -/
def withoutControls (bytes : List UInt8) : List UInt8 := bytes.filter (!Byte.isControl ·)

/-- Every control stands between two characters: the bytes before it are a text. -/
def ControlsBetween (bytes : List UInt8) : Prop :=
  ∀ before b behind, bytes = before ++ b :: behind → Byte.isControl b = true →
    ∃ cs, withoutControls before = Utf8.encode cs

/-- Where there is no control nothing is left out. -/
theorem withoutControls_eq_self {bytes : List UInt8}
    (h : ∀ b ∈ bytes, Byte.isControl b = false) : withoutControls bytes = bytes := by
  refine List.filter_eq_self.mpr ?_
  simpa only [Bool.not_eq_eq_eq_not, Bool.not_true] using h

/-- Controls are left out piece by piece. -/
theorem withoutControls_append (xs ys : List UInt8) :
    withoutControls (xs ++ ys) = withoutControls xs ++ withoutControls ys := List.filter_append ..

theorem withoutControls_cons {b : UInt8} (hb : Byte.isControl b = true) (bytes : List UInt8) :
    withoutControls (b :: bytes) = withoutControls bytes :=
  List.filter_cons_of_neg (by simp [hb])

/-- The characters that the bytes beside the controls spell are all drawn. -/
theorem prints_of_mem {bytes : List UInt8} {cs : List Char}
    (h : withoutControls bytes = Utf8.encode cs) : ∀ c ∈ cs, Prints c := by
  intro c hc
  by_cases hlt : c.toNat < 0x80
  · obtain ⟨b, hb, rfl⟩ := Utf8.exists_byte hlt
    have hmem : b ∈ withoutControls bytes := by
      rw [h]
      refine List.mem_flatMap.mpr ⟨_, hc, ?_⟩
      rw [Utf8.utf8EncodeChar_ofNat hb]
      exact List.mem_singleton_self b
    exact prints_ofNat_iff.mpr (by simpa using (List.mem_filter.mp hmem).2)
  · exact prints_of_le (Nat.le_of_not_lt hlt)

/-- Behind a text and a control, what is left has its controls between characters as well. -/
theorem ControlsBetween.behind {ds : List Char} {b : UInt8} {bytes : List UInt8}
    (h : ControlsBetween (Utf8.encode ds ++ b :: bytes)) (hb : Byte.isControl b = true)
    (hds : withoutControls (Utf8.encode ds) = Utf8.encode ds) : ControlsBetween bytes := by
  rintro before c behind rfl hc
  obtain ⟨cs, hcs⟩ := h (Utf8.encode ds ++ b :: before) c behind (by simp) hc
  rw [withoutControls_append, withoutControls_cons hb, hds] at hcs
  obtain ⟨es, -, hes⟩ := Utf8.eq_append_of_encode_eq hcs.symm
  exact ⟨es, hes⟩

/-- **Well-formed text** is given out as it is, with the controls that come between its characters.
    -/
theorem run_wellFormed {bytes : List UInt8} {cs : List Char} (hescape : Byte.escape ∉ bytes)
    (hcs : withoutControls bytes = Utf8.encode cs) (hbetween : ControlsBetween bytes) :
    (Machine.run step .ground bytes).1 = .ground ∧
      (Machine.run step .ground bytes).2.filterMap Emission.char? = cs := by
  -- up to the first control there is a text, and what stands behind it is shorter
  induction hlength : bytes.length using Nat.strongRecOn generalizing bytes cs with
  | ind n ih =>
      cases hfind : bytes.find? Byte.isControl with
      | none =>
          have hbytes : bytes = Utf8.encode cs := by
            rw [← hcs, withoutControls_eq_self]
            simpa only [List.find?_eq_none, Bool.not_eq_true] using hfind
          rw [hbytes, run_step_encode (prints_of_mem hcs)]
          refine ⟨rfl, ?_⟩
          rw [List.filterMap_map]
          exact List.filterMap_some
      | some b =>
          obtain ⟨hb, before, behind, rfl, hbefore⟩ := List.find?_eq_some_iff_append.mp hfind
          have hrun : withoutControls before = before :=
            withoutControls_eq_self (by simpa using hbefore)
          obtain ⟨ds, hds⟩ := hbetween before b behind rfl hb
          have htext : before = Utf8.encode ds := hrun.symm.trans hds
          subst htext
          simp only [List.mem_append, List.mem_cons, not_or] at hescape
          obtain ⟨-, hb_escape, hescape⟩ := hescape
          rw [withoutControls_append, withoutControls_cons hb, hrun] at hcs
          obtain ⟨es, rfl, hes⟩ := Utf8.eq_append_of_encode_eq hcs.symm
          have hless : behind.length < n := by
            rw [← hlength, List.length_append, List.length_cons]
            omega
          obtain ⟨hphase, hchars⟩ :=
            ih behind.length hless hescape hes (hbetween.behind hb hrun) rfl
          have hstep : step .ground b = (.ground, [.message (.control b)]) :=
            fromGround_control (Ne.symm hb_escape) hb
          rw [Machine.run_append, run_step_encode (prints_of_mem hds), Machine.run_cons, hstep]
          refine ⟨hphase, ?_⟩
          rw [List.filterMap_append, List.filterMap_append, hchars, List.filterMap_map]
          exact congrArg (· ++ es) List.filterMap_some

/-! ## Any text -/

variable {d : Decoder} {pieces : List (List UInt8)}

/-- **ASCII stands for itself in any text.**  Let bytes without an escape come in any pieces to a
    decoder between two units.

    * It gives out text and controls only.
    * The controls and the characters of ASCII among them are the bytes of ASCII, in order.
    * If without its controls the text is well formed, and none of them splits a character, the
      characters are those of the text.
    * In any case the bytes fall into units, up to one at the end that may go on.  A control gives
      itself, a character gives itself, and a malformed unit, which has no byte of ASCII and is as
      long as it can be, gives one replacement character. -/
theorem push_plain (hd : d.isIdle = true) (hescape : Byte.escape ∉ pieces.flatten) :
    let pushed := Machine.run push d pieces
    (∀ m ∈ pushed.2, m.isPlain = true) ∧
    (pushed.2.flatMap Message.emissions).filter Emission.isAscii
      = (pieces.flatten.filter (· < 0x80)).map Emission.ofAscii ∧
    (∀ cs, withoutControls pieces.flatten = Utf8.encode cs → ControlsBetween pieces.flatten →
      pushed.1 = .ground ∧ pushed.2.flatMap Message.chars = cs) ∧
    ∃ (units : List TextUnit) (rest : List UInt8), FallsInto pieces.flatten units rest ∧
      pushed.1 = within rest ∧
      pushed.2.flatMap Message.emissions = units.map TextUnit.emission := by
  obtain rfl : d = .ground := of_decide_eq_true hd
  obtain ⟨units, rest, hunits, hrun⟩ := run_units hescape
  have hplain : ∀ e ∈ units.map TextUnit.emission, e.isPlain = true := by
    intro e he
    obtain ⟨u, -, rfl⟩ := List.mem_map.mp he
    exact u.isPlain_emission
  have hpieces := run_push (show ∀ e ∈ (Machine.run step .ground pieces.flatten).2,
    e.isPlain = true by rwa [hrun])
  rw [hrun] at hpieces
  obtain ⟨hphase, hemissions⟩ : _ ∧ _ = units.map TextUnit.emission := hpieces
  refine ⟨?_, ?_, ?_, units, rest, hunits, hphase, hemissions⟩
  · intro m hm
    refine Message.isPlain_of_emissions fun e he => hplain e ?_
    rw [← hemissions]
    exact List.mem_flatMap.mpr ⟨m, hm, he⟩
  · rw [hemissions, hunits.eq_append, List.filter_append, filter_ascii hunits.isOpen.beyond,
      List.append_nil]
    exact TextUnit.ascii_emissions units
  · intro cs hcs hbetween
    obtain ⟨hground, hchars⟩ := run_wellFormed hescape hcs hbetween
    rw [hrun] at hground hchars
    refine ⟨hphase.trans hground, ?_⟩
    rw [← hchars, ← hemissions, List.filterMap_flatMap]
    simp only [Message.filterMap_char?_emissions]

/-- A text in three pieces: a character cut in two, one left unfinished by a line feed, a byte that
    begins none, and a character left open at the end.  And a well-formed text in two. -/
theorem push_plain_pieces :
    let pieces : List (List UInt8) := [[0x61, 0xC3], [0xA9, 0xE6, 0x97, 0x0A], [0xFF, 0x7F, 0xC3]]
    let wellFormed : List (List UInt8) := [[0x61, 0x0A, 0xC3], [0xA9]]
    isIdle .ground = true ∧ Byte.escape ∉ pieces.flatten ∧ Byte.escape ∉ wellFormed.flatten ∧
      Machine.run push .ground pieces
        = (.character [0xC3] 1, [.print ['a'], .print ['é', Utf8.replacement], .control 0x0A,
            .print [Utf8.replacement], .control 0x7F]) ∧
      ((Machine.run push .ground pieces).2.flatMap Message.emissions).filter Emission.isAscii
        = [.glyph 'a', .message (.control 0x0A), .message (.control 0x7F)] ∧
      (Machine.run push .ground wellFormed).2.flatMap Message.chars = ['a', 'é'] := by
  intro pieces wellFormed
  have hescape : Byte.escape ∉ pieces.flatten := by decide
  have hescape' : Byte.escape ∉ wellFormed.flatten := by decide
  have hbetween : ControlsBetween wellFormed.flatten := by
    rintro before b behind heq hb
    have heq : [0x61, 0x0A, 0xC3, 0xA9] = before ++ b :: behind := heq
    rcases before with _ | ⟨x, _ | ⟨y, _ | ⟨z, _ | ⟨u, before⟩⟩⟩⟩ <;>
      simp only [List.nil_append, List.cons_append, List.cons.injEq] at heq
    · rw [← heq.1] at hb
      cases hb
    · rw [← heq.1]
      exact ⟨['a'], by decide +kernel⟩
    · rw [← heq.2.2.1] at hb
      cases hb
    · rw [← heq.2.2.2.1] at hb
      cases hb
    · simp at heq
  refine ⟨rfl, hescape, hescape', by decide +kernel, ?_, ?_⟩
  · rw [(push_plain rfl hescape).2.1]
    decide +kernel
  · exact ((push_plain rfl hescape').2.2.1 ['a', 'é'] (by decide +kernel) hbetween).2

end Decoder

end VideoTerminal
