import VideoTerminal.Text.Numeral
import VideoTerminal.Toml.Blank

/-!
# Quoted text

Text in quotes has four styles.  Double quotes allow escapes and single quotes take every
character as it is; one quote on each side keeps the text on its line and three let it run over
lines.  Every style is read by pieces: a piece is some characters of the text, or its end.

Written text takes the first style of a fixed order that needs no escapes, and an escaping style
where none does.
-/

namespace VideoTerminal.Toml

/-- A style of quoting. -/
inductive Style where
  /-- Double quotes, on one line. -/
  | basic
  /-- Single quotes, on one line. -/
  | literal
  /-- Three double quotes, over lines. -/
  | basicLines
  /-- Three single quotes, over lines. -/
  | literalLines
deriving DecidableEq, Repr

/-- A part of quoted text: characters of the text, the last of them together with the closing
quotes. -/
inductive Piece where
  | text (cs : List Char)
  | close (cs : List Char)
deriving DecidableEq, Repr

/-! ## Reading -/

/-- The character of a code point in hexadecimal digits. -/
def codePoint? (digits : List Char) : Option Char :=
  (Numeral.ofDigits? Numeral.hexDigit? 16 0xFFFFFFFF digits).bind fun code =>
    if code.isValidChar then some (Char.ofNat code) else none

/-- The character of a code point of so many digits, and what follows. -/
def codePointOf? (n : Nat) (cs : List Char) : Option (Char × List Char) :=
  if (cs.take n).length = n then (codePoint? (cs.take n)).map fun c => (c, cs.drop n) else none

/-- The character of an escape, of which the backslash is read. -/
def escape? : List Char → Option (Char × List Char)
  | 'b' :: cs => some ('\x08', cs)
  | 't' :: cs => some ('\t', cs)
  | 'n' :: cs => some ('\n', cs)
  | 'f' :: cs => some ('\x0c', cs)
  | 'r' :: cs => some ('\r', cs)
  | '\x22' :: cs => some ('\x22', cs)
  | '\x5c' :: cs => some ('\x5c', cs)
  | 'u' :: cs => codePointOf? 4 cs
  | 'U' :: cs => codePointOf? 8 cs
  | _ => none

/-- The rest of a text behind a backslash that stands last on its line: the line end and all
space around it belong to no text. -/
def continuation? (cs : List Char) : Option (List Char) :=
  (newline? (dropBlanks cs)).map dropSpace

/-- A character as it is, if it may stand in a line. -/
def plain? : List Char → Option (Piece × List Char)
  | c :: cs => if isPlain c then some (.text [c], cs) else none
  | [] => none

/-- A line end, which counts as a line feed, or a character as it is. -/
def plainOrNewline? (cs : List Char) : Option (Piece × List Char) :=
  match newline? cs with
  | some rest => some (.text ['\n'], rest)
  | none => plain? cs

/-- A run of quotes in text over lines.  Three of them close it, and of more than three up to
two are text. -/
def quotes? (q : Char) (cs : List Char) : Option (Piece × List Char) :=
  match (cs.takeWhile (· == q)).length with
  | 0 => none
  | 1 | 2 => some (.text [q], cs.drop 1)
  | 3 => some (.close [], cs.drop 3)
  | 4 => some (.close [q], cs.drop 4)
  | _ => some (.close [q, q], cs.drop 5)

namespace Style

/-- The next piece of a text. -/
def piece? : Style → List Char → Option (Piece × List Char)
  | .basic, '\x22' :: cs => some (.close [], cs)
  | .basic, '\x5c' :: cs => (escape? cs).map fun (c, rest) => (.text [c], rest)
  | .basic, cs => plain? cs
  | .literal, '\'' :: cs => some (.close [], cs)
  | .literal, cs => plain? cs
  | .basicLines, '\x22' :: cs => quotes? '\x22' ('\x22' :: cs)
  | .basicLines, '\x5c' :: cs =>
      match continuation? cs with
      | some rest => some (.text [], rest)
      | none => (escape? cs).map fun (c, rest) => (.text [c], rest)
  | .basicLines, cs => plainOrNewline? cs
  | .literalLines, '\'' :: cs => quotes? '\'' ('\'' :: cs)
  | .literalLines, cs => plainOrNewline? cs

/-- All pieces up to the closing quotes, behind the text that was already read.  Every piece takes
a character at least, so there are no more pieces than `steps`, which starts as the text itself. -/
def pieces? (style : Style) (read : Array Char) : (steps cs : List Char) →
    Option (List Char × List Char)
  | [], _ => none
  | _ :: steps, cs =>
      match style.piece? cs with
      | none => none
      | some (.text t, rest) => pieces? style (read ++ t) steps rest
      | some (.close t, rest) => some ((read ++ t).toList, rest)

/-- Whether the text may run over lines. -/
def spansLines : Style → Bool
  | .basic | .literal => false
  | .basicLines | .literalLines => true

/-- Reads a text, of which the opening quotes are read.  A line end right behind them is no part
of it. -/
def read? (style : Style) (cs : List Char) : Option (String × List Char) :=
  let body := if style.spansLines then dropNewline cs else cs
  (style.pieces? #[] body body).map fun (t, rest) => (String.ofList t, rest)

end Style

/-- Reads a text in quotes of any style. -/
def quoted? : List Char → Option (String × List Char)
  | '\x22' :: '\x22' :: '\x22' :: cs => Style.basicLines.read? cs
  | '\x22' :: cs => Style.basic.read? cs
  | '\'' :: '\'' :: '\'' :: cs => Style.literalLines.read? cs
  | '\'' :: cs => Style.literal.read? cs
  | _ => none

/-! ## Writing -/

/-- A control character other than tab and line feed. -/
def isControl (c : Char) : Bool := (c < ' ' && c != '\t' && c != '\n') || c == '\x7f'

/-- Whether the same character stands three times in a row. -/
def hasTriple (q : Char) : List Char → Bool
  | a :: b :: c :: cs => (a == q && b == q && c == q) || hasTriple q (b :: c :: cs)
  | _ => false

/-- The upper-case hexadecimal digit of a number below sixteen. -/
def upperDigit (n : Nat) : Char := (Numeral.hexDigit n).toUpper

/-- A character between double quotes. -/
def escaped (c : Char) : List Char :=
  if c = '\x08' then ['\x5c', 'b']
  else if c = '\t' then ['\x5c', 't']
  else if c = '\n' then ['\x5c', 'n']
  else if c = '\x0c' then ['\x5c', 'f']
  else if c = '\r' then ['\x5c', 'r']
  else if c = '\x22' then ['\x5c', '\x22']
  else if c = '\x5c' then ['\x5c', '\x5c']
  else if isControl c then
    ['\x5c', 'u', '0', '0', upperDigit (c.toNat / 16), upperDigit (c.toNat % 16)]
  else [c]

/-- A text between three double quotes, behind `quotes` double quotes in a row.  Line feeds stay
as they are, and so do quotes unless they are the third in a row. -/
def escapedLines : (quotes : Nat) → List Char → List Char
  | _, [] => []
  | quotes, c :: cs =>
      if c = '\n' then '\n' :: escapedLines 0 cs
      else if c = '\x22' ∧ quotes < 2 then '\x22' :: escapedLines (quotes + 1) cs
      else escaped c ++ escapedLines 0 cs

namespace Style

/-- The quotes on each side. -/
def quotes : Style → List Char
  | .basic => ['\x22']
  | .literal => ['\'']
  | .basicLines => ['\x22', '\x22', '\x22']
  | .literalLines => ['\'', '\'', '\'']

/-- What stands for a text between the quotes. -/
def body : Style → List Char → List Char
  | .basic, cs => cs.flatMap escaped
  | .basicLines, cs => escapedLines 0 cs
  | .literal, cs | .literalLines, cs => cs

/-- Writes a text.  One that has several lines starts on a new line where the style allows. -/
def write (style : Style) (cs : List Char) : List Char :=
  let opening := if style.spansLines && cs.contains '\n' then ['\n'] else []
  style.quotes ++ opening ++ style.body cs ++ style.quotes

/-- The style in which a text is written as a value. -/
def ofValue (cs : List Char) : Style :=
  let control := cs.any isControl
  let backslash := cs.contains '\x5c'
  let newline := cs.contains '\n'
  if !control && !backslash && !cs.contains '\x22' && !newline then .basic
  else if !control && !cs.contains '\'' && !newline then .literal
  else if !control && !backslash && !hasTriple '\x22' cs then .basicLines
  else if !control && !hasTriple '\'' cs then .literalLines
  else if newline then .basicLines
  else .basic

/-- The style in which a text is written as a key that needs quotes. -/
def ofKey (cs : List Char) : Style :=
  let control := cs.any isControl || cs.contains '\n'
  if !control && !cs.contains '\x5c' && !cs.contains '\x22' then .basic
  else if !control && !cs.contains '\'' then .literal
  else .basic

end Style

end VideoTerminal.Toml
