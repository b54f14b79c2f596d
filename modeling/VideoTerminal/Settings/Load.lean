import VideoTerminal.Settings.Read
import VideoTerminal.Text.Utf8

/-!
# Loading settings

Settings from the bytes of a file, or from the reason why there are none.
-/

namespace VideoTerminal

/-- What reading a file gives: its bytes, or the system's reason for failing. -/
abbrev FileContent := Except String (List UInt8)

namespace FileContent

/-- What reading a file that is not there gives. -/
def missing : FileContent := .error "No such file or directory (os error 2)"

end FileContent

/-- Why settings cannot be loaded. -/
inductive LoadError where
  /-- The file cannot be read. -/
  | unreadable (reason : String)
  /-- What is in it describes no settings. -/
  | invalid
deriving DecidableEq, Repr

/-- The message of the error for a file. -/
def LoadError.message (path : String) : LoadError → String
  | .unreadable reason => s!"Failed to read config {path}: {reason}"
  | .invalid => s!"Failed to parse config {path}"

/-- The messages of all causes of the error, the first cause last. -/
def LoadError.causes (path : String) : LoadError → List String
  | .unreadable reason => [message path (.unreadable reason), reason]
  | .invalid => [message path .invalid]

namespace Settings

/-- The settings in a file. -/
def load : FileContent → Except LoadError Settings
  | .error reason => .error (.unreadable reason)
  | .ok bytes =>
      match Utf8.decodeStrict? bytes with
      | none => .error (.unreadable "stream did not contain valid UTF-8")
      | some text =>
          match ofText? text with
          | none => .error .invalid
          | some s => .ok s

/-- The settings in a file, or the defaults if there are none. -/
def loadOrDefault (file : FileContent) : Settings :=
  match load file with
  | .ok s => s
  | .error _ => {}

end Settings

end VideoTerminal
