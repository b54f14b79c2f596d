import VideoTerminal.Settings
import VideoTerminal.Settings.Load
import VideoTerminal.Text.Numeral

/-!
# The command line

The arguments are read from left to right.  A flag that takes a value takes the very next
argument, whatever it looks like, and a later value replaces an earlier one.  The first argument
that is wrong, or that asks for help or the version, decides alone; nothing behind it is read.

What the arguments ask for is then worked out together with the settings: either the program ends
at once with a message, or a session is started.
-/

namespace VideoTerminal

/-- A flag that takes a value. -/
inductive Flag where
  | command
  | shell
  | cols
  | rows
  | timeout
  | config
deriving DecidableEq, Repr

namespace Flag

/-- The flag that an argument is. -/
def ofArgument? (arg : String) : Option Flag :=
  if arg = "-c" then some .command
  else if arg = "-s" ∨ arg = "--shell" then some .shell
  else if arg = "--cols" then some .cols
  else if arg = "--rows" then some .rows
  else if arg = "-t" ∨ arg = "--timeout" then some .timeout
  else if arg = "--config" then some .config
  else none

/-- The name of a flag in messages. -/
def name : Flag → String
  | .command => "-c"
  | .shell => "--shell"
  | .cols => "--cols"
  | .rows => "--rows"
  | .timeout => "--timeout"
  | .config => "--config"

end Flag

/-- What a command line asks for. -/
structure Arguments where
  cols : Option UInt16 := none
  rows : Option UInt16 := none
  /-- The shell that runs the command, or that runs by itself. -/
  shell : Option String := none
  command : Option String := none
  /-- How long the command may take, in seconds. -/
  timeout : UInt64 := 10
  /-- The file of the settings. -/
  config : Option String := none
deriving DecidableEq, Repr

/-- What is wrong with a command line. -/
inductive ArgumentError where
  | missingValue (flag : Flag)
  | invalidValue (flag : Flag) (value : String)
  | unknown (arg : String)
deriving DecidableEq, Repr

/-- The message of the error. -/
def ArgumentError.message : ArgumentError → String
  | .missingValue flag => s!"Missing value for {flag.name}"
  | .invalidValue flag value => s!"Invalid value for {flag.name}: {value}"
  | .unknown arg => s!"Unknown argument: {arg}. Use -h for help."

/-- What a command line without error is for. -/
inductive Request where
  | help
  | version
  | run (a : Arguments)
deriving DecidableEq, Repr

namespace Arguments

/-- Reads an unsigned number of 16 bits. -/
def number16? (value : String) : Option UInt16 :=
  (Numeral.decimal? 65535 value.toList).map UInt16.ofNat

/-- Reads an unsigned number of 64 bits. -/
def number64? (value : String) : Option UInt64 :=
  (Numeral.decimal? 18446744073709551615 value.toList).map UInt64.ofNat

/-- Gives a flag its value. -/
def set? (a : Arguments) (value : String) : Flag → Option Arguments
  | .command => some { a with command := some value }
  | .shell => some { a with shell := some value }
  | .cols => (number16? value).map fun n => { a with cols := some n }
  | .rows => (number16? value).map fun n => { a with rows := some n }
  | .timeout => (number64? value).map fun n => { a with timeout := n }
  | .config => some { a with config := some value }

/-- Reads arguments behind those that `a` was read from. -/
def readFrom (a : Arguments) : List String → Except ArgumentError Request
  | [] => .ok (.run a)
  | arg :: rest =>
      if arg = "-h" ∨ arg = "--help" then .ok .help
      else if arg = "-v" ∨ arg = "--version" then .ok .version
      else
        match Flag.ofArgument? arg, rest with
        | none, _ => .error (.unknown arg)
        | some flag, [] => .error (.missingValue flag)
        | some flag, value :: rest =>
            match a.set? value flag with
            | none => .error (.invalidValue flag value)
            | some a => readFrom a rest

/-- Reads a command line. -/
def read (args : List String) : Except ArgumentError Request := readFrom {} args

/-- The shell that a command runs in if no other is named. -/
def defaultShell : String := "/bin/sh"

/-- The options of the session that the arguments and the settings ask for.  A command runs in
the shell, and without one the shell runs by itself. -/
def sessionOptions (a : Arguments) (s : Settings) : SessionOptions :=
  let o := s.sessionOptions
  let size : Size :=
    ⟨(a.cols.getD s.terminal.cols).toNat, (a.rows.getD s.terminal.rows).toNat⟩
  let o := { o with size := some size }
  let o := match a.shell with
    | some shell => { o with program := some shell, args := [] }
    | none => o
  match a.command with
  | some command =>
      { o with program := some (o.program.getD defaultShell), args := ["-c", command] }
  | none => o

end Arguments

namespace CommandLine

/-- The version of the program. -/
def version : String := "0.1.0"

/-- The text for a question about the version. -/
def versionText : String := s!"headterm {version}\n"

/-- The text for a question about the use of the program. -/
def helpText : String := String.join
  [s!"headterm {version} - run a command in a headless terminal\n",
   "\n",
   "Usage: headterm [OPTIONS]\n",
   "\n",
   "Options:\n",
   "  -c <COMMAND>          Command to run through the shell\n",
   "  -s, --shell <PROGRAM> Shell program (default: config or /bin/sh)\n",
   "  --cols <N>            Terminal width\n",
   "  --rows <N>            Terminal height\n",
   "  -t, --timeout <SECS>  Give up waiting after SECS seconds (default: 10)\n",
   "  --config <PATH>       Read configuration from PATH\n",
   "  -v, --version         Show version\n",
   "  -h, --help            Show this help\n",
   "\n",
   "Configuration: ~/.headterm/config.toml\n",
   "Log file:      ~/.headterm/headterm.log (filter with HEADTERM_LOG)\n"]

/-- What the program does. -/
inductive Outcome where
  /-- It ends with a status and a text for the error output. -/
  | exit (code : UInt8) (text : String)
  /-- It runs a session for at most so many seconds. -/
  | session (emulator : Emulator) (options : SessionOptions) (timeout : UInt64)
deriving DecidableEq, Repr

/-- The end of the program for an error, of which the messages go from the last cause to the
first. -/
def failure (code : UInt8) (messages : List String) : Outcome :=
  .exit code ("Error: " ++ ": ".intercalate messages ++ "\n")

/-- The settings that the arguments ask for.  A file that is named must be good; without one the
usual file is read as far as it is. -/
def settings (files : String → FileContent) (home : Option String) (a : Arguments) :
    Except (List String) Settings :=
  match a.config with
  | some path =>
      match Settings.load (files path) with
      | .ok s => .ok s
      | .error e => .error (s!"Failed to load {path}" :: e.causes path)
  | none =>
      match home with
      | some home => .ok (Settings.loadOrDefault (files (Settings.defaultPath home)))
      | none => .ok {}

/-- Starts the session that the arguments and the settings ask for. -/
def start (a : Arguments) (s : Settings) : Outcome :=
  let o := a.sessionOptions s
  match o.emulator (o.size.getD s.terminal.size) with
  | .ok emulator => .session emulator o a.timeout
  | .error e => failure 1 ["Failed to start session", e.message]

/-- What the program does for a command line. -/
def run (files : String → FileContent) (home : Option String) (args : List String) : Outcome :=
  match Arguments.read args with
  | .error e => failure 2 [e.message]
  | .ok .help => .exit 0 helpText
  | .ok .version => .exit 0 versionText
  | .ok (.run a) =>
      match settings files home a with
      | .error messages => failure 1 messages
      | .ok s => start a s

/-- The file that the settings are read from, if a session may be started at all. -/
def settingsPath? (home : Option String) (args : List String) : Option String :=
  match Arguments.read args with
  | .ok (.run a) => a.config.orElse fun _ => home.map Settings.defaultPath
  | _ => none

/-- The text that is printed of a screen when the session ends: its rows up to the last that is
not empty. -/
def printed (e : Emulator) : String :=
  String.ofList ((e.terminal.screen.text.toList.reverse.dropWhile (· == '\n')).reverse) ++ "\n"

end CommandLine

end VideoTerminal
