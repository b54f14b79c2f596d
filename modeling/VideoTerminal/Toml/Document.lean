import VideoTerminal.Toml.Key
import VideoTerminal.Toml.Statement

/-!
# Documents

Texts as they are written: sections with a header each and one value to a line, with an empty
line between sections.
-/

namespace VideoTerminal.Toml

/-- A value that can be written. -/
inductive Literal where
  | integer (n : Nat)
  | string (s : String)
  | strings (l : List String)
deriving DecidableEq, Repr

/-- A table of a document. -/
structure Section where
  path : List String
  entries : List (String × Literal)
deriving DecidableEq, Repr

/-- Writes a text in quotes. -/
def writeString (s : String) : List Char := (Style.ofValue s.toList).write s.toList

namespace Literal

/-- The value that a literal stands for. -/
def value : Literal → Value
  | .integer n => .integer n
  | .string s => .string s
  | .strings l => .array (l.map .string)

/-- Writes an element of an array on a line of its own. -/
def writeLine (s : String) : List Char := ['\n', ' ', ' ', ' ', ' '] ++ writeString s ++ [',']

/-- Writes a literal.  Of several texts each has a line of its own. -/
def write : Literal → List Char
  | .integer n => Numeral.decimal n
  | .string s => writeString s
  | .strings [] => ['[', ']']
  | .strings [s] => '[' :: writeString s ++ [']']
  | .strings l => '[' :: l.flatMap writeLine ++ ['\n', ']']

end Literal

namespace Section

/-- The statements of a section. -/
def statements (s : Section) : List Statement :=
  .header s.path :: s.entries.map fun (key, v) => .assign [key] v.value

/-- Writes one entry. -/
def writeEntry (key : String) (v : Literal) : List Char :=
  writeKey key ++ [' ', '=', ' '] ++ v.write ++ ['\n']

/-- Writes a section. -/
def write (s : Section) : List Char :=
  '[' :: writePath s.path ++ [']', '\n'] ++ s.entries.flatMap fun (key, v) => writeEntry key v

end Section

/-- Writes the sections of a document. -/
def writeSections (ss : List Section) : List Char := ['\n'].intercalate (ss.map Section.write)

end VideoTerminal.Toml
