import VideoTerminal.Proofs.Canonical

/-!
# System commands read back

The number and the data of a system command, written with a semicolon between them, are read as the
same number and data.  This is no matter of course: the bytes that the command was made from may
have held anything, and the number may have had a sign or zeros in front.
-/

namespace VideoTerminal

/-! ## Commands -/

namespace Message

/-- The body of a system command: its number, if it has one, and a semicolon, and the data. -/
def commandBody (code : Option Nat) (data : String) : List UInt8 :=
  Utf8.encode ((code.map fun n => Numeral.decimal n ++ [';']).getD [] ++ data.toList)

section Reading

variable {bytes : List UInt8} {head rest : List Char}
  (h : (Field.splitFirst? ';' (Utf8.decodeLossy bytes)).getD (Utf8.decodeLossy bytes, [])
    = (head, rest))

include h

theorem ofSystemCommand_of_some {n : Nat} (hn : Numeral.decimal? Params.maxValue head = some n)
    (ending : StringEnd) :
    ofSystemCommand bytes ending = .osc (some n) (String.ofList rest) ending := by
  simp only [ofSystemCommand, h, hn]

theorem ofSystemCommand_of_none (hnone : Numeral.decimal? Params.maxValue head = none)
    (ending : StringEnd) :
    ofSystemCommand bytes ending = .osc none (String.ofList (Utf8.decodeLossy bytes)) ending := by
  simp only [ofSystemCommand, h, hnone]

end Reading

theorem commandBody_none (cs : List Char) :
    commandBody none (String.ofList cs) = Utf8.encode cs := by
  rw [commandBody, String.toList_ofList]
  rfl

theorem commandBody_some (n : Nat) (rest : List Char) :
    commandBody (some n) (String.ofList rest) = Utf8.encode (Numeral.decimal n ++ ';' :: rest) := by
  rw [commandBody, String.toList_ofList, Option.map_some, Option.getD_some, List.append_assoc,
    List.singleton_append]

theorem isCommandBody_some (n : Nat) {rest : List Char} (hrest : ∀ c ∈ rest, 0x20 ≤ c.toNat) :
    IsCommandBody (commandBody (some n) (String.ofList rest)) := by
  rw [commandBody_some]
  refine Utf8.le_of_mem_encode ?_
  intro c hc
  rcases List.mem_append.mp hc with hc | hc
  · have hdigit := Numeral.toNat_of_mem_decimal hc
    omega
  rcases List.mem_cons.mp hc with rfl | hc
  · decide
  · exact hrest c hc

/-- The first semicolon of a body with a number is the one behind the number. -/
theorem splitFirst?_commandBody_some (n : Nat) (rest : List Char) :
    Field.splitFirst? ';' (Utf8.decodeLossy (commandBody (some n) (String.ofList rest)))
      = some (Numeral.decimal n, rest) := by
  rw [commandBody_some, Utf8.decodeLossy_encode]
  refine Field.splitFirst?_of_not_mem ?_
  intro hmem
  exact absurd (Numeral.toNat_of_mem_decimal hmem).2 (by decide)

/-- A command is read back from the body it is written with, and that body has no controls in it
    either. -/
theorem ofSystemCommand_commandBody {bytes : List UInt8} (hbytes : IsCommandBody bytes)
    {code : Option Nat} {data : String} {ending : StringEnd}
    (hread : ofSystemCommand bytes ending = .osc code data ending) :
    IsCommandBody (commandBody code data) ∧
      ofSystemCommand (commandBody code data) ending = .osc code data ending := by
  have hchars := Utf8.le_of_mem_decodeLossy hbytes
  obtain ⟨head, rest, hsplit⟩ : ∃ head rest,
      (Field.splitFirst? ';' (Utf8.decodeLossy bytes)).getD (Utf8.decodeLossy bytes, [])
        = (head, rest) := ⟨_, _, rfl⟩
  cases hcode : Numeral.decimal? Params.maxValue head with
  | none =>
      -- the whole text is data, and decoding what it is encoded as changes nothing
      have hwhole := ofSystemCommand_of_none hsplit hcode ending
      obtain ⟨rfl, rfl, -⟩ := osc.inj (hwhole.symm.trans hread)
      rw [commandBody_none]
      refine ⟨Utf8.le_of_mem_encode hchars, ?_⟩
      rw [ofSystemCommand, Utf8.decodeLossy_encode]
      exact hread
  | some n =>
      -- the number was perhaps not written as its numeral, but it keeps to the bound, so its
      -- numeral is read as the same number
      have hparts := ofSystemCommand_of_some hsplit hcode ending
      obtain ⟨rfl, rfl, -⟩ := osc.inj (hparts.symm.trans hread)
      constructor
      · exact isCommandBody_some n fun c hc => hchars c (Field.mem_of_splitFirst?_getD hsplit hc)
      · have hagain := Numeral.decimal?_decimal (Numeral.ofDigits?_le hcode)
        refine ofSystemCommand_of_some ?_ hagain ending
        rw [splitFirst?_commandBody_some, Option.getD_some]

end Message

end VideoTerminal
