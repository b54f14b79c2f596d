import Std.Data.HashSet

/-!
# Links

The targets of links.  A cell carries only the number of its link; the table has the target for
each number.  Two links are the same if both their identity and their target are.

The table consists of two maps: whoever reads a cell looks up the target of a number, and whoever
opens a link looks up whether it has a number already.
-/

namespace VideoTerminal

/-- The links in use, and the last number given out. -/
structure LinkTable where
  /-- The target of each number. -/
  targets : List (Nat × String) := []
  /-- The number of each pair of an identity and a target. -/
  numbers : List ((String × String) × Nat) := []
  last : Nat := 0
deriving DecidableEq, Repr

namespace LinkTable

/-- The number of links kept before those no longer in use are dropped. -/
def limit : Nat := 1024

/-- The largest number of a link.  Numbers start again from one behind it. -/
def maxNumber : Nat := 4294967295

/-- Puts a value under a key of a map, in place of the one that was there. -/
def put {α β : Type} [BEq α] (key : α) (value : β) (entries : List (α × β)) : List (α × β) :=
  (key, value) :: entries.filter fun e => e.1 != key

/-- The number of links. -/
def size (t : LinkTable) : Nat := t.targets.length

/-- The number of a link, if it has one. -/
def number? (t : LinkTable) (id target : String) : Option Nat := t.numbers.lookup (id, target)

/-- The target of a number. -/
def target? (t : LinkTable) (number : Nat) : Option String := t.targets.lookup number

/-- Whether a number is taken. -/
def isTaken (t : LinkTable) (number : Nat) : Bool := (t.target? number).isSome

/-- The numbers behind the last one given out, in order, one more of them than are taken. -/
def candidates (t : LinkTable) : List Nat :=
  (List.range (t.size + 1)).map fun i => 1 + (t.last + i) % maxNumber

/-- A number behind all that are taken. -/
def beyond (t : LinkTable) : Nat := t.targets.foldl (fun n e => max n (e.1 + 1)) 1

/-- The next free number.  Only if all numbers up to the largest were taken would it lie behind
them. -/
def nextNumber (t : LinkTable) : Nat :=
  match t.candidates.find? fun n => !t.isTaken n with
  | some n => n
  | none => t.beyond

/-- Adds a link under the next free number. -/
def insert (t : LinkTable) (id target : String) : LinkTable :=
  let number := t.nextNumber
  { targets := put number target t.targets
    numbers := put (id, target) number t.numbers
    last := number }

/-- Drops the links whose numbers are not among those in use, from either map. -/
def retain (t : LinkTable) (used : List Nat) : LinkTable :=
  let used := Std.HashSet.ofList used
  { t with
    targets := t.targets.filter fun e => used.contains e.1
    numbers := t.numbers.filter fun e => used.contains e.2 }

end LinkTable

end VideoTerminal
