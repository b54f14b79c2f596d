import VideoTerminal.Toml.DateTime
import VideoTerminal.Toml.Key
import VideoTerminal.Toml.Number
import VideoTerminal.Toml.Value

/-!
# Statements

A settings text is a list of statements, each on lines of its own: a value is put under a key, or
a header begins a table.  The text is read into statements first and the statements into a table
then.
-/

namespace VideoTerminal.Toml

/-- A statement. -/
inductive Statement where
  | assign (path : List String) (v : Value)
  | header (path : List String)
  /-- The header of one more table of several with the same name. -/
  | nextHeader (path : List String)

/-! ## Values -/

/-- Reads a truth value. -/
def boolean? (cs : List Char) : Option (Value × List Char) :=
  match Field.after? ['t', 'r', 'u', 'e'] cs with
  | some rest => some (.boolean true, rest)
  | none => (Field.after? ['f', 'a', 'l', 's', 'e'] cs).map fun rest => (.boolean false, rest)

/-- Reads a value that has no others in it. -/
def simple? (cs : List Char) : Option (Value × List Char) :=
  match cs with
  | c :: _ =>
      if c = '\x22' ∨ c = '\'' then (quoted? cs).map fun (s, rest) => (.string s, rest)
      else
        match dateTime? cs with
        | some (text, rest) => some (.dateTime text, rest)
        | none => (boolean? cs).orElse fun _ => number? cs
  | [] => none

/-- Reads the elements of an array and its closing bracket, behind the elements already read.
There are no more of them than `steps`, which starts as the text itself. -/
def items? (item? : List Char → Option (Value × List Char)) (read : Array Value) :
    (steps cs : List Char) → Option (List Value × List Char)
  | [], _ => none
  | _ :: steps, cs =>
      match dropGap false cs with
      | ']' :: rest => some (read.toList, rest)
      | cs =>
          match item? cs with
          | none => none
          | some (v, rest) =>
              match dropGap false rest with
              | ']' :: rest => some ((read.push v).toList, rest)
              | ',' :: rest => items? item? (read.push v) steps rest
              | _ => none

/-- Reads a dotted key and its value. -/
def assignment? (item? : List Char → Option (Value × List Char)) (cs : List Char) :
    Option (List String × Value × List Char) := do
  let (path, rest) ← path? cs
  let rest ← expect? '=' rest
  let (v, rest) ← item? (dropBlanks rest)
  some (path, v, rest)

/-- Reads the entries of a table in braces and its closing brace, behind the entries in `t`.
There are no more of them than `steps`, which starts as the text itself. -/
def entries? (item? : List Char → Option (Value × List Char)) (t : Table) :
    (steps cs : List Char) → Option (Table × List Char)
  | [], _ => none
  | _ :: steps, cs =>
      match assignment? item? cs with
      | none => none
      | some (path, v, rest) =>
          match Table.assign? v path t with
          | none => none
          | some t =>
              match dropBlanks rest with
              | '\x7d' :: rest => some (t, rest)
              | ',' :: rest => entries? item? t steps rest
              | _ => none

/-- Reads a value in which others lie at most `depth` deep. -/
def value? : (depth : Nat) → List Char → Option (Value × List Char)
  | depth + 1, '[' :: cs =>
      (items? (value? depth) #[] cs cs).map fun (vs, rest) => (.array vs, rest)
  | depth + 1, '\x7b' :: cs =>
      match dropBlanks cs with
      | '\x7d' :: rest => some (.table .inline [], rest)
      | cs =>
          (entries? (value? depth) [] cs cs).map fun (t, rest) => (.table .inline t, rest)
  | _, cs => simple? cs

/-- How deep values may lie in each other. -/
def maxDepth : Nat := 79

/-! ## The text -/

/-- Reads one statement to the end of its line. -/
def statement? (cs : List Char) : Option (Statement × List Char) :=
  match cs with
  | '[' :: '[' :: cs => do
      let (path, rest) ← path? cs
      let rest ← expect? ']' rest
      let rest ← expect? ']' rest
      let rest ← lineEnd? rest
      some (.nextHeader path, rest)
  | '[' :: cs => do
      let (path, rest) ← path? cs
      let rest ← expect? ']' rest
      let rest ← lineEnd? rest
      some (.header path, rest)
  | cs => do
      let (path, v, rest) ← assignment? (value? maxDepth) cs
      let rest ← lineEnd? rest
      some (.assign path v, rest)

/-- Reads all statements, behind those already read.  There are no more of them than `steps`,
which starts as the text itself. -/
def statements? (read : Array Statement) : (steps cs : List Char) → Option (List Statement)
  | steps, cs =>
      match dropGap false cs with
      | [] => some read.toList
      | cs =>
          match steps with
          | [] => none
          | _ :: steps =>
              match statement? cs with
              | none => none
              | some (s, rest) => statements? (read.push s) steps rest

/-- The text behind a byte order mark that may be there. -/
def dropByteOrderMark : List Char → List Char
  | '\uFEFF' :: cs => cs
  | cs => cs

/-- Reads a text into statements. -/
def readStatements? (cs : List Char) : Option (List Statement) :=
  statements? #[] cs (dropByteOrderMark cs)

/-! ## The table -/

/-- What the statements read so far say, and the table that the next one speaks of. -/
structure Draft where
  table : Table := []
  current : List String := []

/-- Does to the table that a path ends in what `f` does to its last key. -/
def Table.atLast? (f : String → Table → Option Table) : List String → Table → Option Table
  | [], _ => none
  | path@(_ :: _), t => Table.within? (f (path.getLast?.getD "")) path.dropLast t

/-- What one more statement says. -/
def Draft.add? (d : Draft) : Statement → Option Draft
  | .assign path v =>
      (Table.within? (Table.assign? v path) d.current d.table).map fun t => { d with table := t }
  | .header path => (Table.atLast? Table.open? path d.table).map fun t => ⟨t, path⟩
  | .nextHeader path => (Table.atLast? Table.openNext? path d.table).map fun t => ⟨t, path⟩

/-- The table that statements describe. -/
def tableOf? (ss : List Statement) : Option Table :=
  (ss.foldlM Draft.add? {}).map Draft.table

/-- Reads a text into a table. -/
def read? (cs : List Char) : Option Table := (readStatements? cs).bind tableOf?

end VideoTerminal.Toml
