/-!
# Values and tables

What a settings text says: values under keys, in tables that may lie in each other.  A table can
be begun in one place and continued in another, within limits; where it came from decides which
continuations are allowed, so that is kept with it.
-/

namespace VideoTerminal.Toml

/-- Where a table came from. -/
inductive Origin where
  /-- A header of its own. -/
  | header
  /-- A longer header, which names it on the way. -/
  | parent
  /-- A dotted key. -/
  | dotted
  /-- Braces, which also end it. -/
  | inline
deriving DecidableEq, Repr

/-- A value. -/
inductive Value where
  | string (s : String)
  | integer (n : Int)
  /-- A number with a fraction or an exponent, or one that is none.  No setting is of this kind,
  so nothing more is known of it. -/
  | float
  | boolean (b : Bool)
  /-- A date, a time or both, in canonical text. -/
  | dateTime (text : String)
  | array (items : List Value)
  | table (origin : Origin) (entries : List (String × Value))
  /-- The tables of one repeated header, the latest apart and the earlier ones latest first. -/
  | tables (earlier : List (List (String × Value))) (latest : List (String × Value))

/-- Values under keys, each key at most once, the latest first. -/
abbrev Table := List (String × Value)

/-- The key under which a date or time presents its text where a table is asked for. -/
def dateTimeKey : String := "$__toml_private_datetime"

namespace Value

/-- The elements of an array or of a repeated header. -/
def items? : Value → Option (List Value)
  | .array items => some items
  | .tables earlier latest => some ((latest :: earlier).reverse.map (.table .header))
  | _ => none

/-- The entries of a table.  A date or time counts as a table of one entry. -/
def entries? : Value → Option Table
  | .table _ entries => some entries
  | .dateTime text => some [(dateTimeKey, .string text)]
  | _ => none

/-- The entries of a table whose keys are known: an array gives its elements to the keys in
order, and what is left over on either side is dropped. -/
def record? (keys : List String) (v : Value) : Option Table :=
  match v.items? with
  | some items => some (keys.zip items)
  | none => v.entries?

/-- Whether there is nothing in an array or a table. -/
def isHollow : Value → Bool
  | .array items => items.isEmpty
  | .table _ entries => entries.isEmpty
  | _ => false

/-- Continues a table, or the latest table of a repeated header. -/
def extend? (f : Table → Option Table) : Value → Option Value
  | .table .inline _ => none
  | .table origin entries => (f entries).map (.table origin)
  | .tables earlier latest => (f latest).map (.tables earlier)
  | _ => none

/-- Whether a dotted key may lead through a value to a further table. -/
def admitsPassage : Value → Bool
  | .table .parent _ | .table .dotted _ | .tables .. => true
  | _ => false

/-- Whether a dotted key may put an entry into a value. -/
def admitsEntry : Value → Bool
  | .table .dotted _ => true
  | _ => false

end Value

namespace Table

/-- The value under a key. -/
def get? (t : Table) (key : String) : Option Value := t.lookup key

/-- Puts a value in place of the one under a key. -/
def replace (key : String) (v : Value) : Table → Table
  | [] => []
  | (k, w) :: t => if k = key then (key, v) :: t else (k, w) :: replace key v t

/-- Puts a value under a key, in place of the one there or else in front. -/
def set (key : String) (v : Value) (t : Table) : Table :=
  match get? t key with
  | none => (key, v) :: t
  | some _ => replace key v t

/-- Puts a value under a new key; a key that there is already is an error. -/
def add? (key : String) (v : Value) (t : Table) : Option Table :=
  match get? t key with
  | none => some ((key, v) :: t)
  | some _ => none

/-- Puts a value under a new dotted key. -/
def assign? (v : Value) : List String → Table → Option Table
  | [], _ => none
  | [key], t => add? key v t
  | key :: next :: path, t =>
      let inner := (get? t key).getD (.table .dotted [])
      let admits := if path.isEmpty then inner.admitsEntry else inner.admitsPassage
      if admits then (inner.extend? (assign? v (next :: path))).map fun w => set key w t else none

/-- Continues the table that a list of keys leads to; a table that is missing on the way is
made. -/
def within? (f : Table → Option Table) : List String → Table → Option Table
  | [], t => f t
  | key :: path, t =>
      let inner := (get? t key).getD (.table .parent [])
      (inner.extend? (within? f path)).map fun w => set key w t

/-- Begins the table of a header.  It may be known as the parent of another, and then keeps what
is in it. -/
def open? (key : String) (t : Table) : Option Table :=
  match get? t key with
  | none => some ((key, .table .header []) :: t)
  | some (.table .parent entries) => some (replace key (.table .header entries) t)
  | some _ => none

/-- Begins one more table of a repeated header. -/
def openNext? (key : String) (t : Table) : Option Table :=
  match get? t key with
  | none => some ((key, .tables [] []) :: t)
  | some (.tables earlier latest) => some (replace key (.tables (latest :: earlier) []) t)
  | some _ => none

end Table

end VideoTerminal.Toml
