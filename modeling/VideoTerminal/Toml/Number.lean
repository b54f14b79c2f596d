import VideoTerminal.Text.Field
import VideoTerminal.Text.Numeral
import VideoTerminal.Toml.Value

/-!
# Numbers

Integers of 64 bits in four bases, and numbers with a fraction or an exponent.  Single underscores
may stand between digits.
-/

namespace VideoTerminal.Toml

/-- The largest integer. -/
def maxInteger : Nat := 9223372036854775807

/-- A digit of base two. -/
def binaryDigit? (c : Char) : Option Nat :=
  if c = '0' then some 0 else if c = '1' then some 1 else none

/-- A digit of base eight. -/
def octalDigit? (c : Char) : Option Nat :=
  if '0' ≤ c ∧ c ≤ '7' then some (c.toNat - 48) else none

/-- Reads digits, with single underscores between them, and gives them without. -/
def digits? (digit? : Char → Option Nat) (cs : List Char) : Option (List Char × List Char) :=
  let (run, rest) := cs.span fun c => (digit? c).isSome || c == '_'
  let fields := Field.all '_' run
  if fields.contains [] then none else some (fields.flatten, rest)

/-- A sign that may be there: whether it is a minus, and what follows. -/
def sign : List Char → Bool × List Char
  | '-' :: cs => (true, cs)
  | '+' :: cs => (false, cs)
  | cs => (false, cs)

/-- Reads an integer of a base other than ten, of which the beginning is read. -/
def based? (digit? : Char → Option Nat) (base : Nat) (cs : List Char) :
    Option (Value × List Char) := do
  let (ds, rest) ← digits? digit? cs
  let n ← Numeral.ofDigits? digit? base maxInteger ds
  some (.integer n, rest)

/-- Reads the digits behind a point; without a point there are none. -/
def fraction? : List Char → Option (List Char × List Char)
  | '.' :: cs => digits? Numeral.decimalDigit? cs
  | cs => some ([], cs)

/-- The number that decimal digits stand for. -/
def ofDecimalDigits (ds : List Char) : Nat := ds.foldl (fun n d => n * 10 + (d.toNat - 48)) 0

/-- The largest exponent; larger ones stand for it, as no text has digits enough to make up for
it. -/
def maxExponent : Nat := 1000000000000000000

/-- The exponent that decimal digits stand for. -/
def exponentOfDigits (ds : List Char) : Nat :=
  ds.foldl (fun n d => min (n * 10 + (d.toNat - 48)) maxExponent) 0

/-- Reads an exponent, which may be missing. -/
def exponent? : List Char → Option (Option Int × List Char)
  | c :: cs =>
      if c = 'e' ∨ c = 'E' then do
        let (negative, cs) := sign cs
        let (ds, rest) ← digits? Numeral.decimalDigit? cs
        let n : Int := exponentOfDigits ds
        some (some (if negative then -n else n), rest)
      else some (none, c :: cs)
  | [] => some (none, [])

/-- Whether digits, moved by a power of ten, make a number that is too large for a binary number
of 64 bits: one that is at least the middle between the largest of these and the next power of
two. -/
def overflows (ds : List Char) (exponent : Int) : Bool :=
  let significant := ds.dropWhile (· == '0')
  let digits : Int := significant.length + exponent
  if significant.isEmpty || digits ≤ 308 then false
  else if 310 ≤ digits then true
  else
    let n := ofDecimalDigits significant
    let limit : Nat := Nat.pow 2 1024 - Nat.pow 2 970
    let factor := Nat.pow 10 exponent.natAbs
    if exponent < 0 then limit * factor ≤ n else limit ≤ n * factor

/-- Reads a number of base ten.  It starts with a zero only if that is all there is in front of
the point. -/
def decimal? (cs : List Char) : Option (Value × List Char) := do
  let (negative, cs) := sign cs
  let (whole, rest) ← digits? Numeral.decimalDigit? cs
  let (part, rest) ← fraction? rest
  let (exponent, rest) ← exponent? rest
  if whole.head? = some '0' ∧ 1 < whole.length then none
  else if part.isEmpty && exponent.isNone then
    let n ← Numeral.ofDigits? Numeral.decimalDigit? 10
      (if negative then maxInteger + 1 else maxInteger) whole
    some (.integer (if negative then -n else n), rest)
  else if !negative && overflows (whole ++ part) (exponent.getD 0 - part.length) then none
  else some (.float, rest)

/-- Reads what is written in place of a number: infinity, or that there is none. -/
def special? (cs : List Char) : Option (Value × List Char) :=
  let body := (sign cs).2
  ((Field.after? ['i', 'n', 'f'] body).orElse fun _ => Field.after? ['n', 'a', 'n'] body).map
    fun rest => (.float, rest)

/-- Reads a number. -/
def number? : List Char → Option (Value × List Char)
  | '0' :: 'x' :: cs => based? Numeral.hexDigit? 16 cs
  | '0' :: 'o' :: cs => based? octalDigit? 8 cs
  | '0' :: 'b' :: cs => based? binaryDigit? 2 cs
  | cs => (special? cs).orElse fun _ => decimal? cs

end VideoTerminal.Toml
