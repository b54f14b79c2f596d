import VideoTerminal.Toml.Quoted

/-!
# Keys

A key is bare or in quotes on one line; keys with points between them lead through tables.
-/

namespace VideoTerminal.Toml

/-- A character that a key needs no quotes for. -/
def isBareKeyChar (c : Char) : Bool := c.isAlphanum || c == '_' || c == '-'

/-- Whether a key needs no quotes. -/
def isBareKey (cs : List Char) : Bool := !cs.isEmpty && cs.all isBareKeyChar

/-- Reads a key. -/
def key? (cs : List Char) : Option (String × List Char) :=
  match cs with
  | '\x22' :: rest => Style.basic.read? rest
  | '\'' :: rest => Style.literal.read? rest
  | cs =>
      let (name, rest) := cs.span isBareKeyChar
      if name.isEmpty then none else some (String.ofList name, rest)

/-- The most keys that may stand between points. -/
def maxKeys : Nat := 79

/-- Reads at most `n` keys with points between them, and the blanks around each. -/
def keys? : (n : Nat) → List Char → Option (List String × List Char)
  | 0, _ => none
  | n + 1, cs => do
      let (key, rest) ← key? (dropBlanks cs)
      match dropBlanks rest with
      | '.' :: rest => (keys? n rest).map fun (keys, rest) => (key :: keys, rest)
      | rest => some ([key], rest)

/-- Reads a dotted key. -/
def path? (cs : List Char) : Option (List String × List Char) := keys? maxKeys cs

/-- Writes a key. -/
def writeKey (key : String) : List Char :=
  let cs := key.toList
  if isBareKey cs then cs else (Style.ofKey cs).write cs

/-- Writes a dotted key. -/
def writePath (path : List String) : List Char := ['.'].intercalate (path.map writeKey)

end VideoTerminal.Toml
