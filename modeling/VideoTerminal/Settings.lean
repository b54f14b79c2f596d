import VideoTerminal.Session.Options
import VideoTerminal.Settings.Environment

/-!
# Settings

What a user can set for all sessions.  The terminal has a size, a number of history rows and a
meaning of parameter 21; the shell has a command and its surroundings; a session has the time
that its command may take to end; and the log has a filter and a file.
-/

namespace VideoTerminal

/-- The settings of the terminal. -/
structure TerminalSettings where
  cols : UInt16 := 80
  rows : UInt16 := 24
  historyLimit : UInt64 := 10000
  sgr21 : Sgr21 := .cancelBold
deriving DecidableEq, Repr

/-- The settings of the shell. -/
structure ShellSettings where
  /-- The command; the user's shell if there is none. -/
  program : Option String := none
  args : List String := []
  workingDirectory : Option String := none
  environment : Environment := .empty
deriving DecidableEq, Repr

/-- The settings of a session. -/
structure SessionSettings where
  /-- How long the command may take to end, in milliseconds. -/
  stopTimeout : UInt64 := 1000
deriving DecidableEq, Repr

/-- The settings of the log. -/
structure LogSettings where
  /-- Which messages are written. -/
  level : String := "info"
  /-- The file they are written to; one in the home directory if there is none. -/
  file : Option String := none
deriving DecidableEq, Repr

/-- All settings. -/
structure Settings where
  terminal : TerminalSettings := {}
  shell : ShellSettings := {}
  session : SessionSettings := {}
  log : LogSettings := {}
deriving DecidableEq, Repr

/-- The size of the terminal. -/
def TerminalSettings.size (t : TerminalSettings) : Size := ⟨t.cols.toNat, t.rows.toNat⟩

namespace Settings

/-- The options of a session. -/
def sessionOptions (s : Settings) : SessionOptions where
  size := some s.terminal.size
  historyLimit := s.terminal.historyLimit.toNat
  sgr21 := s.terminal.sgr21
  program := s.shell.program
  args := s.shell.args
  workingDirectory := s.shell.workingDirectory
  environment := s.shell.environment.entries
  stopTimeout := s.session.stopTimeout.toNat

/-- The directory of the program's own files, below the home directory. -/
def directory (home : String) : String := s!"{home}/.headterm"

/-- The file that settings are read from where no other is named. -/
def defaultPath (home : String) : String := s!"{directory home}/config.toml"

/-- The file that the log is written to. -/
def logPath (s : Settings) (home : Option String) : String :=
  match s.log.file, home with
  | some file, _ => file
  | none, some home => s!"{directory home}/headterm.log"
  | none, none => "headterm.log"

end Settings

end VideoTerminal
