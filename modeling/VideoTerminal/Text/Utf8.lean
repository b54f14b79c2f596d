/-!
# UTF-8

Writing and reading of characters as bytes.  Two readers stand side by side: `decode?` takes the
bytes of exactly one character and refuses everything else; `decodeLossy` takes any bytes at all
and puts one replacement character for each maximal piece that no character can start with.
-/

namespace VideoTerminal.Utf8

/-- The character that stands for bytes which are no character. -/
def replacement : Char := '\uFFFD'

/-- A continuation byte: the second, third or fourth byte of a character. -/
def isContinuation (b : UInt8) : Bool := 0x80 ≤ b && b ≤ 0xBF

/-- The bytes of a text. -/
def encode (cs : List Char) : List UInt8 := cs.flatMap String.utf8EncodeChar

/-- The bytes of a string. -/
def ofString (s : String) : List UInt8 := s.toUTF8.toList

/-- A code point, provided it is a character and needs at least the length it was written in. -/
def scalar? (least code : Nat) : Option Char :=
  if least ≤ code ∧ code.isValidChar then some (Char.ofNat code) else none

/-- The payload bits of a continuation byte. -/
def tailBits (b : UInt8) : Nat := b.toNat % 64

/-- Reads the bytes of exactly one character: the right number of them, in the shortest form, and
no surrogate. -/
def decode? : List UInt8 → Option Char
  | [a] => if a < 0x80 then some (Char.ofNat a.toNat) else none
  | [a, b] =>
      if 0xC0 ≤ a && a ≤ 0xDF && isContinuation b then
        scalar? 0x80 (a.toNat % 32 * 64 + tailBits b)
      else none
  | [a, b, c] =>
      if 0xE0 ≤ a && a ≤ 0xEF && isContinuation b && isContinuation c then
        scalar? 0x800 ((a.toNat % 16 * 64 + tailBits b) * 64 + tailBits c)
      else none
  | [a, b, c, d] =>
      if 0xF0 ≤ a && a ≤ 0xF7 && isContinuation b && isContinuation c && isContinuation d then
        scalar? 0x10000 (((a.toNat % 8 * 64 + tailBits b) * 64 + tailBits c) * 64 + tailBits d)
      else none
  | _ => none

/-- A character under way: the bits read so far, how many bytes are still to come, and the range
in which the next one must lie for the whole to be a character. -/
structure Partial where
  code : Nat
  missing : Nat
  least : UInt8
  greatest : UInt8
deriving DecidableEq, Repr

/-- A byte between two characters: the first byte of a longer character, or one that is complete
in itself. -/
def start (b : UInt8) : Option Partial × List Char :=
  if b < 0x80 then (none, [Char.ofNat b.toNat])
  else if 0xC2 ≤ b && b ≤ 0xDF then (some ⟨b.toNat % 32, 1, 0x80, 0xBF⟩, [])
  else if b == 0xE0 then (some ⟨0, 2, 0xA0, 0xBF⟩, [])
  else if b == 0xED then (some ⟨13, 2, 0x80, 0x9F⟩, [])
  else if 0xE1 ≤ b && b ≤ 0xEF then (some ⟨b.toNat % 16, 2, 0x80, 0xBF⟩, [])
  else if b == 0xF0 then (some ⟨0, 3, 0x90, 0xBF⟩, [])
  else if 0xF1 ≤ b && b ≤ 0xF3 then (some ⟨b.toNat % 8, 3, 0x80, 0xBF⟩, [])
  else if b == 0xF4 then (some ⟨4, 3, 0x80, 0x8F⟩, [])
  else (none, [replacement])

/-- One byte more.  A byte that cannot continue the character under way ends it with a
replacement character and is then taken as the start of the next. -/
def step (p : Option Partial) (b : UInt8) : Option Partial × List Char :=
  match p with
  | none => start b
  | some p =>
      if p.least ≤ b && b ≤ p.greatest then
        let code := p.code * 64 + tailBits b
        if p.missing ≤ 1 then (none, [Char.ofNat code])
        else (some ⟨code, p.missing - 1, 0x80, 0xBF⟩, [])
      else
        let (q, cs) := start b
        (q, replacement :: cs)

/-- The end of the bytes: a character under way is lost. -/
def finish : Option Partial → List Char
  | none => []
  | some _ => [replacement]

/-- Reads any bytes as text. -/
def decodeLossy (bs : List UInt8) : List Char :=
  let start : Option Partial × Array Char := (none, #[])
  let (p, cs) := bs.foldl (fun (p, cs) b => let (q, ds) := step p b; (q, cs ++ ds)) start
  (cs ++ finish p).toList

/-- The text of well-formed bytes, and nothing for any others. -/
def decodeStrict? (bs : List UInt8) : Option String :=
  String.fromUTF8? ⟨bs.toArray⟩

end VideoTerminal.Utf8
