/-!
# Blanks, comments and line ends

A line ends with a line feed, with or without a carriage return before it; a carriage return
alone is no part of any text.
-/

namespace VideoTerminal.Toml

/-- A space or a tab. -/
def isBlank (c : Char) : Bool := c == ' ' || c == '\t'

/-- A character that may stand in a line as it is: any but the control characters, of which only
the tab is allowed. -/
def isPlain (c : Char) : Bool := c == '\t' || (' ' ≤ c && c != '\x7f')

/-- Drops blanks. -/
def dropBlanks (cs : List Char) : List Char := cs.dropWhile isBlank

/-- Drops a line end that must be there. -/
def newline? : List Char → Option (List Char)
  | '\n' :: cs => some cs
  | '\r' :: '\n' :: cs => some cs
  | _ => none

/-- Drops a line end that may be there. -/
def dropNewline (cs : List Char) : List Char := (newline? cs).getD cs

/-- Drops blanks and line ends. -/
def dropSpace : List Char → List Char
  | '\n' :: cs => dropSpace cs
  | '\r' :: '\n' :: cs => dropSpace cs
  | c :: cs => if isBlank c then dropSpace cs else c :: cs
  | [] => []

/-- Drops blanks, line ends and comments, from outside a comment or from inside of one. -/
def dropGap : (inComment : Bool) → List Char → List Char
  | _, '\n' :: cs => dropGap false cs
  | _, '\r' :: '\n' :: cs => dropGap false cs
  | true, c :: cs => if isPlain c then dropGap true cs else c :: cs
  | false, c :: cs =>
      if c = '#' then dropGap true cs else if isBlank c then dropGap false cs else c :: cs
  | _, [] => []

/-- Drops a comment that may be there, up to the end of the line. -/
def dropComment : List Char → List Char
  | '#' :: cs => cs.dropWhile isPlain
  | cs => cs

/-- Drops what may follow on the line of a statement, and the end of that line. -/
def lineEnd? (cs : List Char) : Option (List Char) :=
  match dropComment (dropBlanks cs) with
  | [] => some []
  | rest => newline? rest

end VideoTerminal.Toml
