/-!
# Numerals

Unsigned numbers in text.  A numeral is one plus sign at most and then at least one digit;
leading zeros are allowed, and a number above the bound is no number.
-/

namespace VideoTerminal.Numeral

/-- The value of a decimal digit. -/
def decimalDigit? (c : Char) : Option Nat :=
  if '0' ≤ c ∧ c ≤ '9' then some (c.toNat - 48) else none

/-- The value of a hexadecimal digit of either case. -/
def hexDigit? (c : Char) : Option Nat :=
  if '0' ≤ c ∧ c ≤ '9' then some (c.toNat - 48)
  else if 'a' ≤ c ∧ c ≤ 'f' then some (c.toNat - 87)
  else if 'A' ≤ c ∧ c ≤ 'F' then some (c.toNat - 55)
  else none

/-- Takes one more digit, unless the number would pass the bound. -/
def extend (digit? : Char → Option Nat) (base bound n : Nat) (c : Char) : Option Nat := do
  let d ← digit? c
  let m := n * base + d
  if m ≤ bound then some m else none

/-- The number that a run of digits stands for; no digits are no number. -/
def ofDigits? (digit? : Char → Option Nat) (base bound : Nat) : List Char → Option Nat
  | [] => none
  | c :: cs => (c :: cs).foldlM (extend digit? base bound) 0

/-- The text behind a plus sign, or the text itself. -/
def dropPlus : List Char → List Char
  | '+' :: cs => cs
  | cs => cs

/-- Reads a decimal numeral of at most `bound`. -/
def decimal? (bound : Nat) (cs : List Char) : Option Nat :=
  ofDigits? decimalDigit? 10 bound (dropPlus cs)

/-- Reads a hexadecimal numeral of at most `bound`. -/
def hex? (bound : Nat) (cs : List Char) : Option Nat :=
  ofDigits? hexDigit? 16 bound (dropPlus cs)

/-- The lower-case hexadecimal digit of a number below sixteen. -/
def hexDigit (n : Nat) : Char :=
  Char.ofNat (if n < 10 then 48 + n else 87 + n)

/-- A number below 65536 in four hexadecimal digits. -/
def hex4 (n : Nat) : List Char :=
  [hexDigit (n / 4096 % 16), hexDigit (n / 256 % 16), hexDigit (n / 16 % 16), hexDigit (n % 16)]

/-- A number in decimal digits. -/
def decimal (n : Nat) : List Char := Nat.toDigits 10 n

end VideoTerminal.Numeral
