import VideoTerminal.Settings
import VideoTerminal.Toml.Statement

/-!
# Reading settings

The settings that a table describes.  A setting that is missing has its default, a key that means
nothing is passed over, and a value of the wrong kind is an error wherever it stands.
-/

namespace VideoTerminal

open Toml

namespace Settings

/-- Reads the value under a key, if there is one. -/
def field (t : Table) (key : String) (default : α) (read? : Value → Option α) : Option α :=
  match Table.get? t key with
  | none => some default
  | some v => read? v

/-- An integer between zero and a bound. -/
def natural? (bound : Nat) : Value → Option Nat
  | .integer n => if 0 ≤ n ∧ n ≤ bound then some n.toNat else none
  | _ => none

/-- An unsigned number of 16 bits. -/
def number16? (v : Value) : Option UInt16 := (natural? 65535 v).map UInt16.ofNat

/-- An unsigned number of 64 bits. -/
def number64? (v : Value) : Option UInt64 := (natural? 18446744073709551615 v).map UInt64.ofNat

/-- A text. -/
def text? : Value → Option String
  | .string s => some s
  | _ => none

/-- A text, where there may be none. -/
def optionalText? (v : Value) : Option (Option String) := (text? v).map some

/-- A list of texts. -/
def texts? (v : Value) : Option (List String) := v.items?.bind fun items => items.mapM text?

/-- Variables and their values. -/
def environment? (v : Value) : Option Environment := do
  let entries ← v.entries?
  let pairs ← entries.mapM fun (name, value) => (text? value).map fun s => (name, s)
  some (Environment.ofList pairs)

/-- The name of a meaning of parameter 21. -/
def sgr21Name : Sgr21 → String
  | .cancelBold => "cancel-bold"
  | .doubleUnderline => "double-underline"

/-- The meaning of parameter 21 with a name. -/
def sgr21OfName? (name : String) : Option Sgr21 :=
  if name = "cancel-bold" then some .cancelBold
  else if name = "double-underline" then some .doubleUnderline
  else none

/-- A meaning of parameter 21: its name, or a table with nothing but that name as a key and
nothing under it. -/
def sgr21? : Value → Option Sgr21
  | .string s => sgr21OfName? s
  | .table _ [(name, v)] => if v.isHollow then sgr21OfName? name else none
  | _ => none

/-- The settings of the terminal. -/
def terminal? (v : Value) : Option TerminalSettings := do
  let default : TerminalSettings := {}
  let t ← v.record? ["cols", "rows", "scrollback_limit", "sgr21_policy"]
  let cols ← field t "cols" default.cols number16?
  let rows ← field t "rows" default.rows number16?
  let historyLimit ← field t "scrollback_limit" default.historyLimit number64?
  let sgr21 ← field t "sgr21_policy" default.sgr21 sgr21?
  some { cols, rows, historyLimit, sgr21 }

/-- The settings of the shell. -/
def shell? (v : Value) : Option ShellSettings := do
  let default : ShellSettings := {}
  let t ← v.record? ["program", "args", "working_dir", "env"]
  let program ← field t "program" default.program optionalText?
  let args ← field t "args" default.args texts?
  let workingDirectory ← field t "working_dir" default.workingDirectory optionalText?
  let environment ← field t "env" default.environment environment?
  some { program, args, workingDirectory, environment }

/-- The settings of a session. -/
def session? (v : Value) : Option SessionSettings := do
  let default : SessionSettings := {}
  let t ← v.record? ["stop_timeout_ms"]
  let stopTimeout ← field t "stop_timeout_ms" default.stopTimeout number64?
  some { stopTimeout }

/-- The settings of the log. -/
def log? (v : Value) : Option LogSettings := do
  let default : LogSettings := {}
  let t ← v.record? ["level", "file"]
  let level ← field t "level" default.level text?
  let file ← field t "file" default.file optionalText?
  some { level, file }

/-- The settings that a table describes. -/
def ofTable? (t : Table) : Option Settings := do
  let default : Settings := {}
  let terminal ← field t "terminal" default.terminal terminal?
  let shell ← field t "shell" default.shell shell?
  let session ← field t "session" default.session session?
  let log ← field t "log" default.log log?
  some { terminal, shell, session, log }

/-- The settings that a text describes. -/
def ofText? (text : String) : Option Settings := (Toml.read? text.toList).bind ofTable?

end Settings

end VideoTerminal
