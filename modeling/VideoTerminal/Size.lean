/-!
# Screen sizes
-/

namespace VideoTerminal

/-- The number of columns and rows of a screen. -/
structure Size where
  cols : Nat
  rows : Nat
deriving DecidableEq, Repr

namespace Size

/-- The most columns a terminal may have. -/
def maxCols : Nat := 2000

/-- The most rows a terminal may have. -/
def maxRows : Nat := 1000

/-- Whether a terminal may have this size. -/
def isValid (s : Size) : Bool :=
  1 ≤ s.cols && s.cols ≤ maxCols && 1 ≤ s.rows && s.rows ≤ maxRows

end Size

/-- The error that a terminal may not have a size. -/
structure InvalidSize where
  size : Size
deriving DecidableEq, Repr

namespace InvalidSize

/-- The message of the error. -/
def message (e : InvalidSize) : String := s!"invalid terminal size {e.size.cols}x{e.size.rows}"

end InvalidSize

/-- Refuses a size that no terminal may have. -/
def Size.check (s : Size) : Except InvalidSize Unit :=
  if s.isValid then .ok () else .error ⟨s⟩

end VideoTerminal
