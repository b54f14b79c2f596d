/-!
# Base64

The standard alphabet with padding.  Reading is strict: whole groups of four characters, padding
only in the last group, and no bits set that no byte uses.
-/

namespace VideoTerminal.Base64

/-- The character of a six-bit number. -/
def symbol (n : Nat) : Char :=
  if n < 26 then Char.ofNat (65 + n)
  else if n < 52 then Char.ofNat (71 + n)
  else if n < 62 then Char.ofNat (n - 4)
  else if n = 62 then '+'
  else '/'

/-- The six-bit number of a character of the alphabet. -/
def sextet? (c : Char) : Option Nat :=
  if 'A' ≤ c ∧ c ≤ 'Z' then some (c.toNat - 65)
  else if 'a' ≤ c ∧ c ≤ 'z' then some (c.toNat - 71)
  else if '0' ≤ c ∧ c ≤ '9' then some (c.toNat + 4)
  else if c = '+' then some 62
  else if c = '/' then some 63
  else none

/-- The group of four characters for one, two or three bytes. -/
def group (a : UInt8) (b c : Option UInt8) : List Char :=
  let byte := fun (x : Option UInt8) => (x.getD 0).toNat
  let s0 := a.toNat / 4
  let s1 := a.toNat % 4 * 16 + byte b / 16
  let s2 := byte b % 16 * 4 + byte c / 64
  let s3 := byte c % 64
  [symbol s0, symbol s1, if b.isSome then symbol s2 else '=', if c.isSome then symbol s3 else '=']

/-- Writes the groups of the bytes behind what is already written. -/
def encodeOnto (out : Array Char) : List UInt8 → Array Char
  | [] => out
  | [a] => out ++ group a none none
  | [a, b] => out ++ group a (some b) none
  | a :: b :: c :: rest => encodeOnto (out ++ group a (some b) (some c)) rest

/-- Bytes as text. -/
def encode (bs : List UInt8) : List Char := (encodeOnto #[] bs).toList

/-- The bytes of the last group that is not whole, read without its padding. -/
def lastBytes? : List Char → Option (List UInt8)
  | [a, b] => do
      let s0 ← sextet? a
      let s1 ← sextet? b
      if s1 % 16 = 0 then some [UInt8.ofNat (s0 * 4 + s1 / 16)] else none
  | [a, b, c] => do
      let s0 ← sextet? a
      let s1 ← sextet? b
      let s2 ← sextet? c
      if s2 % 4 = 0 then
        some [UInt8.ofNat (s0 * 4 + s1 / 16), UInt8.ofNat (s1 % 16 * 16 + s2 / 4)]
      else none
  | _ => none

/-- The three bytes of a whole group. -/
def groupBytes? (a b c d : Char) : Option (List UInt8) := do
  let s0 ← sextet? a
  let s1 ← sextet? b
  let s2 ← sextet? c
  let s3 ← sextet? d
  some [UInt8.ofNat (s0 * 4 + s1 / 16), UInt8.ofNat (s1 % 16 * 16 + s2 / 4),
    UInt8.ofNat (s2 % 4 * 64 + s3)]

/-- The bytes of the text, behind those already read. -/
def decodeOnto (out : Array UInt8) : List Char → Option (Array UInt8)
  | [] => some out
  | [a, b, '=', '='] => (lastBytes? [a, b]).map fun (bs : List UInt8) => out ++ bs
  | [a, b, c, '='] => (lastBytes? [a, b, c]).map fun (bs : List UInt8) => out ++ bs
  | a :: b :: c :: d :: rest =>
      match groupBytes? a b c d with
      | some bs => decodeOnto (out ++ bs) rest
      | none => none
  | _ => none

/-- Text as bytes, where it is Base64. -/
def decode? (cs : List Char) : Option (List UInt8) := (decodeOnto #[] cs).map Array.toList

end VideoTerminal.Base64
