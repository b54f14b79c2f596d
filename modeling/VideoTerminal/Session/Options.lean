import VideoTerminal.Emulator

/-!
# Session options

How a session is started: the terminal it gets and the command that runs in it.
-/

namespace VideoTerminal

/-- How to start a session. -/
structure SessionOptions where
  /-- The size of the terminal, if it is not to be the usual one. -/
  size : Option Size := none
  historyLimit : Nat := Emulator.defaultHistoryLimit
  sgr21 : Sgr21 := .cancelBold
  /-- The command; the user's shell if there is none. -/
  program : Option String := none
  args : List String := []
  workingDirectory : Option String := none
  environment : List (String × String) := []
  /-- How long the command may take to end, in milliseconds. -/
  stopTimeout : Nat := 1000
deriving DecidableEq, Repr

/-- A new emulator for a session. -/
def SessionOptions.emulator (o : SessionOptions) (size : Size) : Except InvalidSize Emulator :=
  Emulator.create size o.historyLimit o.sgr21

end VideoTerminal
