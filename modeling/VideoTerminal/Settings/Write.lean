import VideoTerminal.Settings.Read
import VideoTerminal.Toml.Document

/-!
# Writing settings

Every setting is written, whether it is the default or not; only one that can be missing and is
has no line.
-/

namespace VideoTerminal

open Toml

namespace Settings

/-- The entry of a text that can be missing. -/
def optional (key : String) (s : Option String) : List (String × Literal) :=
  s.toList.map fun s => (key, .string s)

/-- The sections of the settings. -/
def sections (s : Settings) : List Toml.Section :=
  [{ path := ["terminal"]
     entries :=
       [("cols", .integer s.terminal.cols.toNat),
        ("rows", .integer s.terminal.rows.toNat),
        ("scrollback_limit", .integer s.terminal.historyLimit.toNat),
        ("sgr21_policy", .string (sgr21Name s.terminal.sgr21))] },
   { path := ["shell"]
     entries :=
       optional "program" s.shell.program ++ [("args", .strings s.shell.args)] ++
         optional "working_dir" s.shell.workingDirectory },
   { path := ["shell", "env"]
     entries := s.shell.environment.entries.map fun (name, value) => (name, .string value) },
   { path := ["session"]
     entries := [("stop_timeout_ms", .integer s.session.stopTimeout.toNat)] },
   { path := ["log"]
     entries := ("level", .string s.log.level) :: optional "file" s.log.file }]

/-- The text of the settings. -/
def text (s : Settings) : String := String.ofList (writeSections s.sections)

end Settings

end VideoTerminal
