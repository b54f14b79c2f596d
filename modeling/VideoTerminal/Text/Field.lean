/-!
# Fields

Cutting a text at a separator.
-/

namespace VideoTerminal.Field

/-- The text before and behind the first separator, if there is one. -/
def splitFirst? (sep : Char) (cs : List Char) : Option (List Char × List Char) :=
  match cs.span (· != sep) with
  | (_, []) => none
  | (a, _ :: b) => some (a, b)

/-- Puts a character in front of the first field. -/
def prepend (c : Char) : List (List Char) → List (List Char)
  | [] => [[c]]
  | f :: fs => (c :: f) :: fs

/-- All fields of a text, empty ones included; a text without separator is one field. -/
def all (sep : Char) (cs : List Char) : List (List Char) :=
  cs.foldr (fun c fs => if c = sep then [] :: fs else prepend c fs) [[]]

/-- The text behind a given beginning. -/
def after? : (start cs : List Char) → Option (List Char)
  | [], cs => some cs
  | _ :: _, [] => none
  | a :: start, c :: cs => if a = c then after? start cs else none

end VideoTerminal.Field
