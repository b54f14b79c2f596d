import VideoTerminal.Proofs.StatusRequests

/-!
# Answers about the clipboard, read back

Who is asked for the contents of a clipboard answers with a system command, and this is also the
command that fills a clipboard.  So an answer that is written to an emulator asks for just what it
says: to fill the clipboard that was named with the contents as text.

Three things are undone on the way.  The command is read back as one message, which needs its body
to be short enough and free of controls; its data is cut at the first semicolon, which is the one
behind the name; and the contents are read back from Base64, three bytes at a time.
-/

namespace VideoTerminal

/-! ## Base64 read back -/

namespace Base64

theorem sextet?_symbol {n : Nat} (h : n < 64) : sextet? (symbol n) = some n := by
  revert n
  decide

theorem symbol_ne_pad {n : Nat} (h : n < 64) : symbol n ≠ '=' := by
  revert n
  decide

theorem le_toNat_symbol {n : Nat} (h : n < 64) : 0x20 ≤ (symbol n).toNat := by
  revert n
  decide

/-- A group is of symbols and padding, so there is no control in it. -/
theorem le_toNat_of_mem_group {a : UInt8} {b c : Option UInt8} {x : Char}
    (h : x ∈ group a b c) : 0x20 ≤ x.toNat := by
  have ha := a.toNat_lt
  have hb := (b.getD 0).toNat_lt
  have hc := (c.getD 0).toNat_lt
  simp only [group, List.mem_cons, List.not_mem_nil, or_false] at h
  rcases h with rfl | rfl | rfl | rfl
  · exact le_toNat_symbol (by omega)
  · exact le_toNat_symbol (by omega)
  · split
    · exact le_toNat_symbol (by omega)
    · decide
  · split
    · exact le_toNat_symbol (by omega)
    · decide

/-- A byte is put together from two numbers that its bits were divided between. -/
theorem ofNat_eq {n : Nat} {b : UInt8} (h : n = b.toNat) : UInt8.ofNat n = b := by
  rw [h, UInt8.ofNat_toNat]

section Groups

variable (out : Array UInt8) (a b c : UInt8)

theorem decodeOnto_one : decodeOnto out (group a none none) = some (out ++ [a]) := by
  have ha := a.toNat_lt
  have hgroup : group a none none
      = [symbol (a.toNat / 4), symbol (a.toNat % 4 * 16), '=', '='] := rfl
  have hread : lastBytes? [symbol (a.toNat / 4), symbol (a.toNat % 4 * 16)] = some [a] := by
    rw [lastBytes?, sextet?_symbol (by omega), sextet?_symbol (by omega)]
    show (if _ then some [_] else none) = _
    rw [if_pos (Nat.mul_mod_left _ 16), ofNat_eq (b := a) (by omega)]
  rw [hgroup, decodeOnto, hread, Option.map_some]

theorem decodeOnto_two : decodeOnto out (group a (some b) none) = some (out ++ [a, b]) := by
  have ha := a.toNat_lt
  have hb := b.toNat_lt
  have hgroup : group a (some b) none = [symbol (a.toNat / 4),
      symbol (a.toNat % 4 * 16 + b.toNat / 16), symbol (b.toNat % 16 * 4), '='] := rfl
  have hread : lastBytes? [symbol (a.toNat / 4), symbol (a.toNat % 4 * 16 + b.toNat / 16),
      symbol (b.toNat % 16 * 4)] = some [a, b] := by
    rw [lastBytes?, sextet?_symbol (by omega), sextet?_symbol (by omega),
      sextet?_symbol (by omega)]
    show (if _ then some [_, _] else none) = _
    rw [if_pos (Nat.mul_mod_left _ 4), ofNat_eq (b := a) (by omega), ofNat_eq (b := b) (by omega)]
  rw [hgroup, decodeOnto, hread, Option.map_some]
  exact symbol_ne_pad (by omega)

theorem decodeOnto_three (rest : List Char) :
    decodeOnto out (group a (some b) (some c) ++ rest) = decodeOnto (out ++ [a, b, c]) rest := by
  have ha := a.toNat_lt
  have hb := b.toNat_lt
  have hc := c.toNat_lt
  have hgroup : group a (some b) (some c) ++ rest = symbol (a.toNat / 4) ::
      symbol (a.toNat % 4 * 16 + b.toNat / 16) :: symbol (b.toNat % 16 * 4 + c.toNat / 64) ::
        symbol (c.toNat % 64) :: rest := rfl
  have hread : groupBytes? (symbol (a.toNat / 4)) (symbol (a.toNat % 4 * 16 + b.toNat / 16))
      (symbol (b.toNat % 16 * 4 + c.toNat / 64)) (symbol (c.toNat % 64)) = some [a, b, c] := by
    rw [groupBytes?, sextet?_symbol (by omega), sextet?_symbol (by omega),
      sextet?_symbol (by omega), sextet?_symbol (by omega)]
    show some [_, _, _] = _
    rw [ofNat_eq (b := a) (by omega), ofNat_eq (b := b) (by omega), ofNat_eq (b := c) (by omega)]
  -- the last symbol is no padding, so this is not taken for a last group
  have hpad : symbol (c.toNat % 64) ≠ '=' := symbol_ne_pad (by omega)
  rw [hgroup, decodeOnto, hread]
  · exact fun _ hlast _ => hpad hlast
  · exact fun hlast _ => hpad hlast

end Groups

/-! ### Texts -/

/-- What is written already stays in front. -/
theorem toList_encodeOnto (out : Array Char) :
    ∀ bs, (encodeOnto out bs).toList = out.toList ++ encode bs
  | [] => by simp [encode, encodeOnto]
  | [a] => by simp [encode, encodeOnto]
  | [a, b] => by simp [encode, encodeOnto]
  | a :: b :: c :: rest => by
      rw [encode, encodeOnto, encodeOnto, toList_encodeOnto _ rest, toList_encodeOnto _ rest]
      simp

theorem encode_three (a b c : UInt8) (rest : List UInt8) :
    encode (a :: b :: c :: rest) = group a (some b) (some c) ++ encode rest := by
  rw [encode, encodeOnto, toList_encodeOnto]
  simp

theorem le_toNat_of_mem_encode {x : Char} : ∀ bs, x ∈ encode bs → 0x20 ≤ x.toNat
  | [], h => absurd h List.not_mem_nil
  | [a], h => le_toNat_of_mem_group (by simpa [encode, encodeOnto] using h)
  | [a, b], h => le_toNat_of_mem_group (by simpa [encode, encodeOnto] using h)
  | a :: b :: c :: rest, h => by
      rw [encode_three] at h
      rcases List.mem_append.mp h with h | h
      · exact le_toNat_of_mem_group h
      · exact le_toNat_of_mem_encode rest h

theorem decodeOnto_encode (out : Array UInt8) :
    ∀ bs, decodeOnto out (encode bs) = some (out ++ bs)
  | [] => by simp [encode, encodeOnto, decodeOnto]
  | [a] => decodeOnto_one out a
  | [a, b] => decodeOnto_two out a b
  | a :: b :: c :: rest => by
      rw [encode_three, decodeOnto_three, decodeOnto_encode _ rest]
      simp

/-- **Bytes are read back from Base64**, however many there are. -/
theorem decode?_encode (bs : List UInt8) : decode? (encode bs) = some bs := by
  rw [decode?, decodeOnto_encode]
  simp

end Base64

/-! ## The answer as a message -/

/-- The data of the command that an answer is: the name of the clipboard and its contents. -/
def clipboardData (selection : String) (contents : List UInt8) : List Char :=
  selection.toList ++ ';' :: Base64.encode contents

/-- The message that an answer is read as. -/
def clipboardMessage (selection : String) (contents : List UInt8) (ending : StringEnd) : Message :=
  .osc (some 52) (String.ofList (clipboardData selection contents)) ending

section

variable {selection : String} {contents : List UInt8} {ending : StringEnd}

theorem commandBody_clipboard : Message.commandBody (some 52)
      (String.ofList (clipboardData selection contents))
    = Utf8.encode (['5', '2', ';'] ++ selection.toList ++ [';'] ++ Base64.encode contents) := by
  have hcode : Numeral.decimal 52 = ['5', '2'] := by decide
  rw [Message.commandBody_some, hcode, clipboardData]
  simp

theorem encode_clipboardMessage : (clipboardMessage selection contents ending).encode
    = clipboardReply selection contents ending := by
  rw [clipboardMessage, Message.encode, commandBody_clipboard, clipboardReply]
  simp only [Utf8.encode_append, List.append_assoc]
  rfl

theorem canonical_clipboardMessage (hcontrols : ∀ c ∈ selection.toList, 0x20 ≤ c.toNat) :
    (clipboardMessage selection contents ending).Canonical := by
  have hdata : ∀ c ∈ clipboardData selection contents, 0x20 ≤ c.toNat := by
    intro c hc
    rcases List.mem_append.mp hc with hc | hc
    · exact hcontrols c hc
    rcases List.mem_cons.mp hc with rfl | hc
    · decide
    · exact Base64.le_toNat_of_mem_encode contents hc
  refine .osc (Message.isCommandBody_some 52 hdata) ?_
  refine Message.ofSystemCommand_of_some ?_ (Numeral.decimal?_decimal (by decide)) ending
  rw [Message.splitFirst?_commandBody_some, Option.getD_some]

/-- The command fills the clipboard that it names. -/
theorem Terminal.apply_clipboardMessage (t : Terminal) (hsome : selection ≠ "")
    (hname : ';' ∉ selection.toList) :
    t.apply (clipboardMessage selection contents ending)
      = (t, [.clipboardSet selection (String.ofList (Utf8.decodeLossy contents))]) := by
  have hchars : selection.toList ≠ [] := by
    intro hnil
    exact hsome (String.toList_inj.mp hnil)
  have hcommand : SystemCommand.ofOsc (some 52) (String.ofList (clipboardData selection contents))
      = .clipboard selection (Base64.encode contents) := by
    show SystemCommand.ofClipboard (String.ofList _).toList = _
    rw [String.toList_ofList, SystemCommand.ofClipboard, clipboardData,
      Field.splitFirst?_of_not_mem hname, Option.getD_some]
    dsimp only
    rw [if_neg hchars, String.ofList_toList]
  -- contents never look like the question mark of a request
  have hread := Base64.decode?_encode contents
  have hquestion : Base64.encode contents ≠ ['?'] := by
    intro hask
    rw [hask] at hread
    exact absurd hread nofun
  show t.applyCommand (SystemCommand.ofOsc (some 52) _) ending = _
  rw [hcommand]
  show (t, applyClipboard selection (Base64.encode contents) ending) = _
  rw [applyClipboard, if_neg hquestion, hread]

end

namespace Emulator

/-- **An answer about a clipboard loops back.**  Written to an emulator between two units, it
    queues the wish to fill this clipboard with the contents as text, and the update that every
    message counts as; nothing else changes.  Contents that are the bytes of a text are this
    text. -/
theorem write_clipboardReply (e : Emulator) (selection : String) (contents : List UInt8)
    (ending : StringEnd) (he : e.decoder.isIdle = true) (hsome : selection ≠ "")
    (hname : ';' ∉ selection.toList) (hcontrols : ∀ c ∈ selection.toList, 0x20 ≤ c.toNat)
    (hroom : (Utf8.encode (['5', '2', ';'] ++ selection.toList ++ [';']
      ++ Base64.encode contents)).length ≤ Payload.limit) :
    let data := String.ofList (Utf8.decodeLossy contents)
    e.write (clipboardReply selection contents ending)
      = { e with events := (e.events.push (.clipboardSet selection data)).push .screenUpdated } ∧
    ∀ text : List Char, contents = Utf8.encode text → data = String.ofList text := by
  have hidle : e.decoder = .ground := of_decide_eq_true he
  refine ⟨?_, ?_⟩
  · rw [← encode_clipboardMessage, write_message hidle (canonical_clipboardMessage hcontrols),
      Terminal.apply_clipboardMessage e.terminal hsome hname, hidle]
    · simp
    · rintro code data ending' hosc
      obtain ⟨rfl, rfl, -⟩ := Message.osc.inj hosc
      rw [commandBody_clipboard]
      exact hroom
  · rintro text rfl
    exact congrArg String.ofList (Utf8.decodeLossy_encode text)

/-- The name of the clipboard is not in ASCII, and the contents begin with a character that is cut
    off; the answer ends with a string terminator. -/
theorem write_clipboardReply_torn :
    let e : Emulator := { terminal := .new 4 2 0 .cancelBold }
    (e.decoder.isIdle = true ∧ "p日" ≠ "" ∧ ';' ∉ "p日".toList ∧
      (∀ c ∈ "p日".toList, 0x20 ≤ c.toNat) ∧
      (Utf8.encode (['5', '2', ';'] ++ "p日".toList ++ [';']
        ++ Base64.encode [0xE6, 0x97, 0x41])).length ≤ Payload.limit) ∧
    e.write (clipboardReply "p日" [0xE6, 0x97, 0x41] .st)
      = { e with events := #[.clipboardSet "p日" "\uFFFDA", .screenUpdated] } := by
  intro e
  have hname : ';' ∉ "p日".toList := by decide
  have hcontrols : ∀ c ∈ "p日".toList, 0x20 ≤ c.toNat := by
    have htext : "p日".toList = ['p', '日'] := by decide
    rw [htext, List.forall_mem_cons, List.forall_mem_singleton]
    decide
  have hroom : (Utf8.encode (['5', '2', ';'] ++ "p日".toList ++ [';']
      ++ Base64.encode [0xE6, 0x97, 0x41])).length ≤ Payload.limit := by decide +kernel
  have hdata : String.ofList (Utf8.decodeLossy [0xE6, 0x97, 0x41]) = "\uFFFDA" := by
    decide +kernel
  refine ⟨⟨rfl, by decide, hname, hcontrols, hroom⟩, ?_⟩
  rw [(write_clipboardReply e "p日" _ .st rfl (by decide) hname hcontrols hroom).1, hdata]
  rfl

end Emulator

end VideoTerminal
