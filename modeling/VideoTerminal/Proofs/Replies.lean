import VideoTerminal.Proofs.StatusRequests

/-!
# Replies read back

A reply is made of the same sequences as the output of a program, so a decoder can read it.  It is
one message, and this message tells which reply it was, with all its fields: the final byte or the
count of numbers gives the kind, and what the terminal could send is within the bounds of what the
decoder keeps.

The bounds are those of parameters, and `Reply.Fits` states them.  A status string is short because
the parameters in it are few; a color keeps its value although it is widened to sixteen bits and
then divided again.
-/

namespace VideoTerminal

/-! ## Colors read back -/

namespace Rgb

/-- A byte widened by itself is narrowed to the same byte. -/
theorem component?_hex4 (b : UInt8) : component? (Numeral.hex4 (b.toNat * 257)) = some b := by
  have hb : b.toNat < 256 := b.toNat_lt
  have hread : Numeral.hex? 4294967295 (Numeral.hex4 (b.toNat * 257)) = some (b.toNat * 257) :=
    Numeral.hex?_hex4 (by omega) (by omega)
  have hlength : (Numeral.hex4 (b.toNat * 257)).length = 4 := rfl
  have hvalue : b.toNat * 257 * 255 / (Nat.pow 16 4 - 1) = b.toNat := by
    show b.toNat * 257 * 255 / 65535 = b.toNat
    omega
  rw [component?, hlength, if_neg (by decide), hread]
  show some (UInt8.ofNat (b.toNat * 257 * 255 / (Nat.pow 16 4 - 1))) = some b
  rw [hvalue, UInt8.ofNat_toNat]

/-- A written color is read as the same color. -/
theorem parse?_text (c : Rgb) : parse? c.text = some c := by
  have hslash : ∀ n, '/' ∉ Numeral.hex4 n := by
    intro n hmem
    simp only [Numeral.hex4, List.mem_cons, List.not_mem_nil, or_false] at hmem
    rcases hmem with h | h | h | h <;>
      exact Numeral.hexDigit_ne (by decide) (Nat.mod_lt _ (by decide)) h.symm
  have hfields : Field.all '/' (Numeral.hex4 (c.red.toNat * 257) ++ '/' ::
      (Numeral.hex4 (c.green.toNat * 257) ++ '/' :: Numeral.hex4 (c.blue.toNat * 257)))
      = [Numeral.hex4 (c.red.toNat * 257), Numeral.hex4 (c.green.toNat * 257),
        Numeral.hex4 (c.blue.toNat * 257)] := by
    rw [Field.all_append (hslash _), Field.all_append (hslash _), Field.all_of_not_mem (hslash _)]
  have htext : c.text = 'r' :: 'g' :: 'b' :: ':' :: (Numeral.hex4 (c.red.toNat * 257) ++ '/' ::
      (Numeral.hex4 (c.green.toNat * 257) ++ '/' :: Numeral.hex4 (c.blue.toNat * 257))) := rfl
  rw [htext]
  show ofComponents? (Field.all '/' _) = some c
  rw [hfields, ofComponents?, component?_hex4, component?_hex4, component?_hex4]
  rfl

/-- The text of a color is of characters that print. -/
theorem toNat_of_mem_text (c : Rgb) : ∀ d ∈ c.text, 0x20 ≤ d.toNat ∧ d.toNat < 0x80 := by
  have hhex : ∀ n, ∀ d ∈ Numeral.hex4 n, 0x20 ≤ d.toNat ∧ d.toNat < 0x80 := by
    intro n d hd
    have hdigit : ∀ k < 16,
        0x20 ≤ (Numeral.hexDigit k).toNat ∧ (Numeral.hexDigit k).toNat < 0x80 := by
      decide
    simp only [Numeral.hex4, List.mem_cons, List.not_mem_nil, or_false] at hd
    rcases hd with rfl | rfl | rfl | rfl <;> exact hdigit _ (Nat.mod_lt _ (by decide))
  have hmark : ∀ d ∈ ['r', 'g', 'b', ':'], 0x20 ≤ d.toNat ∧ d.toNat < 0x80 := by simp
  have hslash : ∀ d ∈ ['/'], 0x20 ≤ d.toNat ∧ d.toNat < 0x80 := by simp
  rw [text]
  simp only [List.forall_mem_append]
  exact ⟨⟨⟨⟨⟨hmark, hhex _⟩, hslash⟩, hhex _⟩, hslash⟩, hhex _⟩

end Rgb

/-! ## Replies as messages -/

namespace Reply

/-- The reply that a control sequence is.  The kinds of replies differ in their final byte, or in
    how many numbers stand before it. -/
def ofControlSequence? (marker : Option UInt8) (numbers : List Nat) (final : UInt8) :
    Option Reply :=
  match Char.ofNat final.toNat, numbers with
  | 'n', _ => some .deviceStatus
  | 'R', [row, col] => some (.cursorPosition row col)
  | 'R', [row, col, _] => some (.extendedCursorPosition row col)
  | 'c', [_, _] => some .deviceAttributes
  | 'c', [_, _, _] => some .secondaryAttributes
  | 'y', [mode, value] => some (.modeReport marker.isSome mode value)
  | 't', [_, rows, cols] => some (.windowSize rows cols)
  | _, _ => none

/-- The reply that a device control string is. -/
def ofDeviceControl? (numbers : List Nat) (data : List UInt8) : Option Reply :=
  match numbers with
  | [] => some .tertiaryAttributes
  | 0 :: _ => some (.statusString none)
  | _ => some (.statusString (some (Utf8.decodeLossy data)))

/-- The reply that a message is, if it is one. -/
def ofMessage? : Message → Option Reply
  | .csi marker params _ final => ofControlSequence? marker params.values final
  | .dcs params _ _ data => ofDeviceControl? params.values data
  | .osc (some code) data ending =>
      (Rgb.parse? data.toList).map fun color => .dynamicColor code color ending
  | _ => none

/-- Parameters of one number each. -/
def numbers (ns : List Nat) : Params := ⟨ns.map fun n => [some n]⟩

/-- The message that a reply is read as. -/
def message : Reply → Message
  | .deviceStatus => .csi none (numbers [0]) [] 0x6E
  | .cursorPosition row col => .csi none (numbers [row, col]) [] 0x52
  | .extendedCursorPosition row col => .csi (some 0x3F) (numbers [row, col, 1]) [] 0x52
  | .deviceAttributes => .csi (some 0x3F) (numbers [62, 22]) [] 0x63
  | .secondaryAttributes => .csi (some 0x3E) (numbers [1, 10, 0]) [] 0x63
  | .tertiaryAttributes => .dcs (numbers []) [0x21] 0x7C (List.replicate 8 0x30)
  | .modeReport isPrivate mode value =>
      .csi (if isPrivate then some 0x3F else none) (numbers [mode, value]) [0x24] 0x79
  | .windowSize rows cols => .csi none (numbers [8, rows, cols]) [] 0x74
  | .statusString (some s) => .dcs (numbers [1]) [0x24] 0x72 (Utf8.encode s)
  | .statusString none => .dcs (numbers [0]) [0x24] 0x72 []
  | .dynamicColor code color ending => .osc (some code) (String.ofList color.text) ending

/-- The reading of a message gives back the reply it was made of. -/
theorem ofMessage?_message (r : Reply) : ofMessage? r.message = some r := by
  cases r with
  | modeReport isPrivate mode value => cases isPrivate <;> rfl
  | statusString setting =>
      cases setting with
      | none => rfl
      | some s =>
          exact congrArg (fun cs => some (statusString (some cs))) (Utf8.decodeLossy_encode s)
  | dynamicColor code color ending =>
      rw [message, ofMessage?, String.toList_ofList, Rgb.parse?_text, Option.map_some]
  | _ => rfl

/-! ### What can be sent -/

/-- A reply that the terminal can send: its numbers can be parameters, and a status string is that
    of some terminal. -/
def Fits : Reply → Prop
  | .cursorPosition row col => row ≤ Params.maxValue ∧ col ≤ Params.maxValue
  | .extendedCursorPosition row col => row ≤ Params.maxValue ∧ col ≤ Params.maxValue
  | .modeReport _ mode value => mode ≤ Params.maxValue ∧ value ≤ Params.maxValue
  | .windowSize rows cols => rows ≤ Params.maxValue ∧ cols ≤ Params.maxValue
  | .statusString (some s) => ∃ (t : Terminal) (request : List Char),
      t.region.top < Params.maxValue ∧ t.region.bottom < Params.maxValue ∧
        t.statusString? request = some s
  | .dynamicColor code _ _ => code ≤ Params.maxValue
  | _ => True

end Reply

/-! ### Status strings -/

/-- Printable bytes are bytes of data. -/
theorem isData_of_range {b : UInt8} (hb : 0x20 ≤ b ∧ b ≤ 0x7E) : IsData b := by
  grind [IsData, Byte.escape, Byte.isCancel, Byte.delete]

/-- What stands behind the introducer of a control sequence can be the data of a device control
    string. -/
theorem isDataBody_controlSequence {params : Params} (hparams : params.Canonical)
    {is : List UInt8} (his : Intermediates is) {final : UInt8}
    (hfinal : Byte.isFinal final = true) :
    IsDataBody (Utf8.encode params.text.toList ++ (is ++ [final])) := by
  have hchars := fun c (hc : c ∈ params.text.toList) => ParamReader.toNat_of_mem_text hc
  have hascii : Utf8.encode params.text.toList
      = params.text.toList.map fun c => UInt8.ofNat c.toNat :=
    Decoder.encode_ascii fun c hc => Nat.lt_of_le_of_lt (hchars c hc).2 (by decide)
  constructor
  · have htext := ParamReader.length_text_le hparams
    have hlength := his.length_le
    have hlimit : Params.maxGroups * (Params.maxSlots * 6 + 1) + Decoder.maxIntermediates + 1
        ≤ Payload.limit := by
      decide
    rw [hascii, List.length_append, List.length_append, List.length_map, List.length_singleton]
    omega
  · intro b hb
    refine isData_of_range ?_
    rcases List.mem_append.mp hb with hb | hb
    · rw [hascii] at hb
      obtain ⟨c, hc, rfl⟩ := List.mem_map.mp hb
      have hrange := hchars c hc
      rw [UInt8.le_iff_toNat_le, UInt8.le_iff_toNat_le, UInt8.toNat_ofNat']
      show 0x20 ≤ _ ∧ _ ≤ 0x7E
      omega
    rcases List.mem_append.mp hb with hb | hb
    · have hclass := his.each b hb
      grind [Byte.isIntermediate]
    · rw [List.mem_singleton.mp hb]
      grind [Byte.isFinal]

/-- The sequence that selects a setting can be the data of a device control string. -/
theorem Setting.isDataBody_sequence {t : Terminal} (setting : Setting)
    (h : (setting.selecting t).Canonical) : IsDataBody (Utf8.encode (setting.sequence t)) := by
  have hbody : ∀ {params : Params} (is : List UInt8) (final : UInt8), params.Canonical →
      Intermediates is → Byte.isFinal final = true →
      [0x1B, 0x5B] ++ (Utf8.encode params.text.toList ++ (is ++ [final]))
        = (setting.selecting t).encode → IsDataBody (Utf8.encode (setting.sequence t)) := by
    intro params is final hparams his hfinal hencode
    rw [encode_selecting] at hencode
    rw [← List.append_cancel_left hencode]
    exact isDataBody_controlSequence hparams his hfinal
  have hcsi : ∀ {params : Params} {is : List UInt8} {final : UInt8},
      setting.selecting t = .csi none params is final →
      IsDataBody (Utf8.encode (setting.sequence t)) := by
    intro params is final hm
    rw [hm] at h hbody
    cases h with
    | csi _ hparams his hfinal =>
        refine hbody is final hparams his hfinal ?_
        simp only [Message.encode, Option.toList_none, List.append_nil, List.append_assoc,
          Byte.escape]
  cases setting with
  | rendition =>
      cases h with
      | sgr hparams =>
          refine hbody [] 0x6D hparams .nil rfl ?_
          simp only [selecting, Message.encode, List.nil_append, List.append_assoc, Byte.escape]
  | margins => exact hcsi rfl
  | cursorStyle => exact hcsi rfl
  | protection => exact hcsi rfl

/-! ### Reading -/

namespace Reply

section ControlSequence

variable {marker : Option UInt8} {ns : List Nat} {is : List UInt8} {final : UInt8}

/-- Few numbers of 16 bits are canonical parameters. -/
theorem canonical_numbers (hlength : ns.length ≤ 3) (hns : ∀ n ∈ ns, n ≤ Params.maxValue) :
    (numbers ns).Canonical :=
  Params.canonical_numbers (Nat.le_trans hlength (by decide)) hns

/-- A control sequence with few numbers is canonical, as long as it selects no rendition. -/
theorem canonical_csi (hmarker : marker.all Byte.isMarker = true) (hlength : ns.length ≤ 3)
    (hns : ∀ n ∈ ns, n ≤ Params.maxValue) (his : Intermediates is)
    (hfinal : (Byte.isFinal final && final != 0x6D) = true) :
    Message.Canonical (.csi marker (numbers ns) is final) := by
  rw [Bool.and_eq_true, bne_iff_ne] at hfinal
  refine .csi ?_ (canonical_numbers hlength hns) his hfinal.1 fun h => hfinal.2 h.1
  rintro b rfl
  exact hmarker

end ControlSequence

/-- A reply that fits is a canonical message. -/
theorem canonical_message {r : Reply} (h : r.Fits) : r.message.Canonical := by
  have hone : 65535 ≤ Params.maxValue := Nat.le_refl _
  cases r with
  | deviceStatus => exact canonical_csi rfl (by simp) (by simp) .nil rfl
  | cursorPosition row col =>
      obtain ⟨hrow, hcol⟩ := h
      exact canonical_csi rfl (by simp) (by simp [hrow, hcol]) .nil rfl
  | extendedCursorPosition row col =>
      obtain ⟨hrow, hcol⟩ := h
      exact canonical_csi rfl (by simp) (by grind) .nil rfl
  | deviceAttributes => exact canonical_csi rfl (by simp) (by grind) .nil rfl
  | secondaryAttributes => exact canonical_csi rfl (by simp) (by grind) .nil rfl
  | tertiaryAttributes =>
      exact .dcs (canonical_numbers (by simp) (by simp)) (.singleton rfl) rfl
        ⟨by decide, fun b hb => List.eq_of_mem_replicate hb ▸ isData_of_range (by decide)⟩
  | modeReport isPrivate mode value => 
      obtain ⟨hmode, hvalue⟩ := h
      exact canonical_csi (by cases isPrivate <;> rfl) (by simp) (by simp [hmode, hvalue])
        (.singleton rfl) rfl
  | windowSize rows cols =>
      obtain ⟨hrows, hcols⟩ := h
      exact canonical_csi rfl (by simp) (by grind) .nil rfl
  | statusString setting =>
      cases setting with
      | none =>
          exact .dcs (canonical_numbers (by simp) (by simp)) (.singleton rfl) rfl
            ⟨Nat.zero_le _, fun b hb => absurd hb List.not_mem_nil⟩
      | some s =>
          obtain ⟨t, request, htop, hbottom, hs⟩ := h
          obtain ⟨setting, rfl⟩ := eq_sequence_of_statusString? hs
          exact .dcs (canonical_numbers (by simp) (by grind)) (.singleton rfl) rfl
            (setting.isDataBody_sequence (Setting.canonical_selecting_of_lt htop hbottom setting))
  | dynamicColor code color ending =>
      refine .osc (Message.isCommandBody_some code fun c hc => (color.toNat_of_mem_text c hc).1) ?_
      refine Message.ofSystemCommand_of_some ?_ (Numeral.decimal?_decimal h) ending
      rw [Message.splitFirst?_commandBody_some, Option.getD_some]

/-- The text of a control sequence of numbers. -/
theorem encode_csi (mark tail : List Char) {marker : Option UInt8}
    (hmark : Utf8.encode mark = marker.toList) {is : List UInt8} {final : UInt8}
    (htail : Utf8.encode tail = is ++ [final]) (ns : List Nat) :
    (Message.csi marker (numbers ns) is final).encode
      = Utf8.encode (csi ++ mark ++ [';'].intercalate (ns.map Numeral.decimal) ++ tail) := by
  rw [numbers, Message.encode_numbers, Utf8.encode_append, Utf8.encode_append, Utf8.encode_append,
    hmark, htail]
  simp only [List.append_assoc]
  rfl

/-- Two numbers are written with a semicolon between them. -/
theorem intercalate_pair (a b : Nat) :
    [';'].intercalate ([a, b].map Numeral.decimal) = pair a b := by
  rw [List.map_cons, List.map_singleton, List.intercalate_cons_cons, List.intercalate_singleton,
    pair]

/-- So are three. -/
theorem intercalate_triple (a b c : Nat) :
    [';'].intercalate ([a, b, c].map Numeral.decimal)
      = Numeral.decimal a ++ [';'] ++ (Numeral.decimal b ++ [';'] ++ Numeral.decimal c) := by
  rw [List.map_cons, List.map_cons, List.intercalate_cons_cons, ← List.map_cons]
  exact congrArg _ (intercalate_pair b c)

/-- A reply is written as its message is. -/
theorem encode_message (r : Reply) : r.message.encode = r.bytes := by
  cases r with
  | cursorPosition row col =>
      refine (encode_csi [] ['R'] rfl rfl [row, col]).trans ?_
      rw [intercalate_pair]
      exact (List.append_nil _).symm
  | extendedCursorPosition row col =>
      refine (encode_csi ['?'] ['R'] rfl rfl [row, col, 1]).trans ?_
      have hone : Numeral.decimal 1 = ['1'] := by decide
      rw [intercalate_triple, hone]
      show _ = Utf8.encode (csi ++ ['?'] ++ pair row col ++ [';', '1', 'R']) ++ []
      simp [pair]
  | modeReport isPrivate mode value =>
      refine (encode_csi (if isPrivate then ['?'] else []) ['$', 'y'] ?_ rfl [mode, value]).trans ?_
      · cases isPrivate <;> rfl
      · rw [intercalate_pair]
        exact (List.append_nil _).symm
  | windowSize rows cols =>
      refine (encode_csi [] ['t'] rfl rfl [8, rows, cols]).trans ?_
      have height : Numeral.decimal 8 = ['8'] := by decide
      rw [intercalate_triple, height]
      show _ = Utf8.encode (csi ++ ['8', ';'] ++ pair rows cols ++ ['t']) ++ []
      simp [pair]
  | statusString setting =>
      cases setting with
      | none => decide
      | some s =>
          show _ = Utf8.encode (dcs ++ ['1', '$', 'r'] ++ s ++ st) ++ []
          rw [Utf8.encode_append, Utf8.encode_append, List.append_nil]
          rfl
  | dynamicColor code color ending =>
      show _ = Utf8.encode (osc ++ Numeral.decimal code ++ [';'] ++ color.text) ++ ending.bytes
      rw [message, Message.encode, Message.commandBody_some, List.append_assoc osc,
        List.append_assoc osc, Utf8.encode_append osc, List.append_assoc _ [';'],
        List.singleton_append]
      rfl
  | _ => decide

/-- A reply is short enough to be kept. -/
theorem commandBody_length_le {r : Reply} (h : r.Fits) {code : Option Nat} {data : String}
    {ending : StringEnd} (hm : r.message = .osc code data ending) :
    (Message.commandBody code data).length ≤ Payload.limit := by
  cases r with
  | dynamicColor n color ending' =>
      obtain ⟨rfl, rfl, rfl⟩ := Message.osc.inj hm
      have hascii : ∀ c ∈ Numeral.decimal n ++ ';' :: color.text, c.toNat < 0x80 := by
        intro c hc
        rcases List.mem_append.mp hc with hc | hc
        · have hdigit := Numeral.toNat_of_mem_decimal hc
          omega
        rcases List.mem_cons.mp hc with rfl | hc
        · decide
        · exact (color.toNat_of_mem_text c hc).2
      have hcode : (Numeral.decimal n).length ≤ 5 := Numeral.length_decimal_le h
      have hcolor : color.text.length = 18 := rfl
      have hlimit : 24 ≤ Payload.limit := by decide
      rw [Message.commandBody_some, Decoder.encode_ascii hascii, List.length_map,
        List.length_append, List.length_cons, hcolor]
      omega
  | statusString setting => cases setting <;> exact absurd hm nofun
  | _ => exact absurd hm nofun

/-- A reply is read as its message. -/
theorem push_bytes {r : Reply} (h : r.Fits) {d : Decoder} (hd : d.isIdle = true) :
    d.push r.bytes = (.ground, [r.message]) := by
  obtain rfl : d = .ground := of_decide_eq_true hd
  rw [← encode_message]
  exact Decoder.push_message (canonical_message h) fun _ _ _ => commandBody_length_le h

/-- Replies that fit are told apart by their bytes. -/
theorem bytes_injective {r r' : Reply} (h : r.Fits) (h' : r'.Fits) (hbytes : r.bytes = r'.bytes) :
    r = r' := by
  have hsame : [r.message] = [r'.message] :=
    congrArg Prod.snd ((push_bytes h (d := .ground) rfl).symm.trans (hbytes ▸ push_bytes h' rfl))
  have hread := congrArg ofMessage? (List.cons.inj hsame).1
  rw [ofMessage?_message, ofMessage?_message] at hread
  exact Option.some.inj hread

end Reply

/-! ## The replies that are sent -/

/-- A mode that is asked for is a parameter. -/
def ControlFunction.AsksForParameter : ControlFunction → Prop
  | .requestMode mode => mode ≤ Params.maxValue
  | .requestPrivateMode mode => mode ≤ Params.maxValue
  | _ => True

/-- A parameter is a number of 16 bits. -/
theorem Params.Canonical.getD_le {p : Params} (hp : p.Canonical) (i : Nat) :
    p.getD i 0 ≤ Params.maxValue := by
  rw [Params.getD, Params.get?]
  cases hgroup : p.groups[i]? with
  | none => exact Nat.zero_le _
  | some group =>
      have hcanonical := hp.each group (List.mem_of_getElem? hgroup)
      rw [Option.bind_some, Params.leading]
      cases group with
      | nil => exact Nat.zero_le _
      | cons v vs =>
          cases v with
          | none => exact Nat.zero_le _
          | some n => exact hcanonical.value_le _ List.mem_cons_self n rfl

namespace ControlFunction

/-- A control function asks for a parameter of its sequence, or for none. -/
theorem asksForParameter_ofSequence (marker : Option Char) {p : Params} (hp : p.Canonical)
    (intermediates : List Char) (final : Char) :
    (ofSequence marker p intermediates final).AsksForParameter := by
  unfold ofSequence
  split
  · unfold ofPlain
    split <;> try exact trivial
    dsimp only
    split <;> exact trivial
  · unfold ofPrivate
    split <;> exact trivial
  · split <;> exact trivial
  · split <;> exact trivial
  · split
    · exact hp.getD_le 0
    · exact trivial
  · split
    · exact hp.getD_le 0
    · exact trivial
  · split <;> exact trivial
  · split <;> exact trivial
  · split <;> exact trivial
  · exact trivial

end ControlFunction

/-- If the event is a reply, it is one that can be sent. -/
def Event.Fits (e : Event) : Prop := ∀ r, e = .reply r → r.Fits

/-- An event fits if its reply does. -/
theorem Event.fits_reply {r : Reply} (h : r.Fits) : (Event.reply r).Fits := by
  rintro _ ⟨⟩
  exact h

namespace Terminal

/-- A control gives no reply. -/
theorem fits_applyControl (t : Terminal) (b : UInt8) : ∀ e ∈ (t.applyControl b).2, e.Fits := by
  rw [applyControl]
  repeat' split
  all_goals simp [Event.Fits]

/-- The color that is reported has a code of at most two digits. -/
theorem fits_applyColor (ending : StringEnd) (t : Terminal) {code : Nat} (hcode : code ≤ 11)
    (spec : List Char) : ∀ e ∈ (applyColor ending t code spec).2, e.Fits := by
  have hfits : code ≤ Params.maxValue := Nat.le_trans hcode (by decide)
  rw [applyColor]
  split
  · exact List.forall_mem_singleton.mpr (Event.fits_reply hfits)
  · split <;> exact List.forall_mem_nil _

/-- So has each of several. -/
theorem fits_applyColors (ending : StringEnd) (t : Terminal) (code : Nat)
    (specs : List (List Char)) : ∀ e ∈ (applyColors ending t code specs).2, e.Fits := by
  induction specs generalizing t code with
  | nil => exact List.forall_mem_nil _
  | cons spec specs ih =>
      rw [applyColors]
      split
      · exact List.forall_mem_nil _
      · rename_i hcode
        exact List.forall_mem_append.mpr
          ⟨fits_applyColor ending t (Nat.le_of_not_lt hcode) spec, ih _ _⟩

/-- The clipboard is asked for, which is no reply. -/
theorem fits_applyClipboard (selection : String) (payload : List Char) (ending : StringEnd) :
    ∀ e ∈ applyClipboard selection payload ending, e.Fits := by
  rw [applyClipboard]
  repeat' split
  all_goals simp [Event.Fits]

/-- A system command replies with colors at most. -/
theorem fits_applyCommand (t : Terminal) (c : SystemCommand) (ending : StringEnd) :
    ∀ e ∈ (t.applyCommand c ending).2, e.Fits := by
  cases c with
  | dynamicColors first specs => exact fits_applyColors ending t first specs
  | clipboard selection payload => exact fits_applyClipboard selection payload ending
  | resetDynamicColor code =>
      rw [applyCommand_resetDynamicColor]
      exact List.forall_mem_nil _
  | _ => simp [applyCommand, Event.Fits]

section

variable {limit : Nat} {t : Terminal} (h : t.WellFormed limit)

include h

/-- The rows are few enough for 16 bits. -/
theorem WellFormed.rows_le_maxValue : t.rows ≤ Params.maxValue :=
  Nat.le_trans h.rows_le (by decide)

/-- So are the columns. -/
theorem WellFormed.cols_le_maxValue : t.cols ≤ Params.maxValue :=
  Nat.le_trans h.cols_le (by decide)

/-- What the window reports is its size. -/
theorem fits_applyWindowOperation (args : List Nat) :
    ∀ e ∈ (t.applyWindowOperation args).2, e.Fits := by
  rw [applyWindowOperation]
  split
  · exact List.forall_mem_singleton.mpr
      (Event.fits_reply ⟨h.rows_le_maxValue, h.cols_le_maxValue⟩)
  · exact List.forall_mem_nil _
  · split <;> simp [Event.Fits]
  · exact List.forall_mem_nil _

/-- The position that is reported counts from one and is within the size. -/
theorem reportedPosition_le : t.reportedPosition.1 ≤ Params.maxValue ∧
    t.reportedPosition.2 ≤ Params.maxValue := by
  have hrow : t.cursor.row < t.rows := h.cursor.1
  have hcol : t.cursor.col < t.cols := h.cursor.2
  have hrows := h.rows_le_maxValue
  have hcols := h.cols_le_maxValue
  rw [reportedPosition]
  constructor <;> dsimp only <;> omega

/-- Every reply to a control function fits: its numbers are a mode, a position, a size, or
    constants. -/
theorem fits_applyFunction {f : ControlFunction} (hf : f.AsksForParameter) :
    ∀ e ∈ (t.applyFunction f).2, e.Fits := by
  cases f with
  | requestMode mode =>
      have hvalue : modeValue (t.mode? mode) ≤ Params.maxValue := by
        cases t.mode? mode with
        | none => decide
        | some on => cases on <;> decide
      exact List.forall_mem_singleton.mpr (Event.fits_reply ⟨hf, hvalue⟩)
  | requestPrivateMode mode =>
      have hvalue : modeValue (t.privateMode? mode) ≤ Params.maxValue := by
        cases t.privateMode? mode with
        | none => decide
        | some on => cases on <;> decide
      exact List.forall_mem_singleton.mpr (Event.fits_reply ⟨hf, hvalue⟩)
  | windowOperation args => exact fits_applyWindowOperation h args
  | deviceStatus request =>
      rw [applyFunction_deviceStatus]
      dsimp only
      split
      · exact List.forall_mem_singleton.mpr (Event.fits_reply trivial)
      · split
        · exact List.forall_mem_singleton.mpr (Event.fits_reply (reportedPosition_le h))
        · exact List.forall_mem_nil _
  | privateDeviceStatus request =>
      rw [applyFunction_privateDeviceStatus]
      dsimp only
      split
      · exact List.forall_mem_singleton.mpr (Event.fits_reply (reportedPosition_le h))
      · exact List.forall_mem_nil _
  | deviceAttributes => exact List.forall_mem_singleton.mpr (Event.fits_reply trivial)
  | secondaryAttributes => exact List.forall_mem_singleton.mpr (Event.fits_reply trivial)
  | tertiaryAttributes => exact List.forall_mem_singleton.mpr (Event.fits_reply trivial)
  | _ => exact List.forall_mem_nil _

/-- The status that a device control asks for is made of printable characters. -/
theorem fits_applyDeviceControl (is : List UInt8) (final : UInt8) (data : List UInt8) :
    ∀ e ∈ t.applyDeviceControl is final data, e.Fits := by
  rw [applyDeviceControl]
  split
  · refine List.forall_mem_singleton.mpr (Event.fits_reply ?_)
    cases hs : t.statusString? (Utf8.decodeLossy data) with
    | none => exact trivial
    | some s =>
        obtain ⟨hregion, hbottom⟩ := h.region_within
        have hrows := h.rows_le_maxValue
        exact ⟨t, _, by omega, by omega, hs⟩
  · exact List.forall_mem_nil _

/-- What a message gives rise to can be sent. -/
theorem fits_apply {m : Message} (hm : m.Canonical) : ∀ e ∈ (t.apply m).2, e.Fits := by
  cases hm with
  | print => exact List.forall_mem_nil _
  | control => exact fits_applyControl t _
  | csi _ hparams =>
      exact fits_applyFunction h (ControlFunction.asksForParameter_ofSequence _ hparams _ _)
  | sgr => exact List.forall_mem_nil _
  | osc => exact fits_applyCommand t _ _
  | escape => exact List.forall_mem_nil _
  | escapeIntermediates => exact List.forall_mem_nil _
  | dcs => exact fits_applyDeviceControl h _ _ _

end

end Terminal

namespace Emulator

/-- What holds of the emulator at any time: the decoder has read what it carries, the terminal has
    its shape, and what is queued can be sent. -/
structure Answers (limit : Nat) (e : Emulator) : Prop where
  decoder : e.decoder.Sound
  terminal : e.terminal.WellFormed limit
  events : ∀ x ∈ e.events.toList, x.Fits

variable {limit : Nat} {e : Emulator}

/-- Messages of the decoder are canonical, so the replies to them fit. -/
theorem Answers.act (h : e.Answers limit) {decoder : Decoder} {ms : List Message}
    (hread : decoder.Sound ∧ ∀ m ∈ ms, m.Canonical) : (e.act decoder ms).Answers limit where
  decoder := by
    rw [Emulator.act]
    split <;> exact hread.1
  terminal := act_wellFormed h.terminal decoder ms
  events := by
    have hrun : ∀ x ∈ (Machine.run Terminal.apply e.terminal ms).2, x.Fits :=
      Machine.forall_mem_run (I := Terminal.WellFormed limit) (fun _ m _ ht => ht.apply m)
        (fun _ m hm ht => Terminal.fits_apply ht (hread.2 m hm)) h.terminal
    rw [act_events]
    refine List.forall_mem_append.mpr ⟨List.forall_mem_append.mpr ⟨h.events, hrun⟩, ?_⟩
    split
    · refine List.forall_mem_singleton.mpr ?_
      rintro _ ⟨⟩
    · exact List.forall_mem_nil _

/-- Whatever is called, the replies that are queued fit. -/
theorem Answers.call (h : e.Answers limit) (c : Call) : (e.call c).Answers limit := by
  have hterminal := (keeps_wellFormed limit).call h.terminal c
  cases c with
  | write bytes => exact h.act (Decoder.sound_push h.decoder bytes)
  | flush => exact h.act (Decoder.sound_flush h.decoder)
  | resize size =>
      rw [call_resize] at hterminal ⊢
      split
      · rename_i hsize
        rw [if_pos hsize] at hterminal
        refine ⟨h.decoder, hterminal, ?_⟩
        rw [Array.toList_push]
        exact List.forall_mem_append.mpr ⟨h.events, List.forall_mem_singleton.mpr nofun⟩
      · exact h
  | takeEvents => exact ⟨h.decoder, hterminal, List.forall_mem_nil _⟩
  | viewUp n =>
      rw [call_viewUp] at hterminal ⊢
      exact ⟨h.decoder, hterminal, h.events⟩
  | _ => exact ⟨h.decoder, hterminal, h.events⟩

/-- So they do in any emulator that can be reached. -/
theorem Reachable.answers (h : e.Reachable) : ∃ limit, e.Answers limit := by
  obtain ⟨size, limit, sgr21, new, calls, hcreate, rfl⟩ := h
  obtain ⟨hsize, rfl⟩ := create_eq_ok hcreate
  have hnew : Answers limit { terminal := .new size.cols size.rows limit sgr21 } :=
    ⟨trivial, Terminal.wellFormed_new hsize limit sgr21, List.forall_mem_nil _⟩
  exact ⟨limit, List.foldlRecOn (motive := Answers limit) calls Emulator.call hnew
    fun _ h c _ => h.call c⟩

end Emulator

namespace Reply

/-- **A reply says what it is.**  Whatever emulator can be reached, the replies it has queued are
    within bounds.  An idle decoder reads such a reply as one message and is idle again, and the
    message tells the reply with all its fields; so two replies never have the same bytes. -/
theorem bytes_unambiguous :
    (∀ e : Emulator, e.Reachable → ∀ r, .reply r ∈ e.events.toList → r.Fits) ∧
    (∀ r : Reply, r.Fits → ∀ d : Decoder, d.isIdle = true →
      ∃ m, d.push r.bytes = (.ground, [m]) ∧ ofMessage? m = some r) ∧
    ∀ r r' : Reply, r.Fits → r'.Fits → r.bytes = r'.bytes → r = r' := by
  refine ⟨?_, ?_, fun r r' h h' => bytes_injective h h'⟩
  · intro e he r hr
    obtain ⟨limit, hanswers⟩ := he.answers
    exact hanswers.events _ hr r rfl
  · intro r h d hd
    exact ⟨r.message, push_bytes h hd, ofMessage?_message r⟩

/-- A mode with the largest number there is, and a color whose components are not those of its
    text, asked for with a string terminator. -/
theorem bytes_unambiguous_extremes :
    let calls : List Emulator.Call :=
      [.write (Utf8.ofString "\x1b[?99999$p\x1b]11;rgb:f/8080/1\x07\x1b]11;?\x1b\\")]
    let e := Emulator.run { terminal := .new 4 2 0 .cancelBold } calls
    let mode : Reply := .modeReport true 65535 0
    let color : Reply := .dynamicColor 11 ⟨255, 128, 17⟩ .st
    (e.Reachable ∧ .reply mode ∈ e.events.toList ∧ .reply color ∈ e.events.toList) ∧
      (mode.Fits ∧ color.Fits ∧ Decoder.ground.isIdle = true) ∧
      (∃ m, Decoder.push .ground mode.bytes = (.ground, [m]) ∧ ofMessage? m = some mode) ∧
      (∃ m, Decoder.push .ground color.bytes = (.ground, [m]) ∧ ofMessage? m = some color) ∧
      mode.bytes ≠ color.bytes := by
  intro calls e mode color
  have he : e.Reachable := ⟨⟨4, 2⟩, 0, .cancelBold, _, calls, rfl, rfl⟩
  have hmode : .reply mode ∈ e.events.toList := by decide +kernel
  have hcolor : .reply color ∈ e.events.toList := by decide +kernel
  obtain ⟨hsent, hread, hsame⟩ := bytes_unambiguous
  have hfirst : mode.Fits := hsent e he mode hmode
  have hsecond : color.Fits := hsent e he color hcolor
  refine ⟨⟨he, hmode, hcolor⟩, ⟨hfirst, hsecond, rfl⟩, hread mode hfirst _ rfl,
    hread color hsecond _ rfl, fun hbytes => ?_⟩
  exact absurd (hsame mode color hfirst hsecond hbytes) (by decide)

end Reply

end VideoTerminal
