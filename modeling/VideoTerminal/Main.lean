import VideoTerminal.CommandLine

/-!
# The program

Reads the command line and the settings, and prints the screen that a command leaves.  The output
of the command arrives on the standard input; to start it is left to whoever feeds that.
-/

namespace VideoTerminal.CommandLine

/-- What reading a file gives. -/
def readFileContent (path : String) : IO FileContent := do
  try
    let bytes ← IO.FS.readBinFile path
    return .ok bytes.toList
  catch
    | .noFileOrDirectory .. => return .missing
    | e => return .error (toString e)

/-- Feeds the standard input to an emulator. -/
partial def feedInput (input : IO.FS.Stream) (e : Emulator) : IO Emulator := do
  let chunk ← input.read 8192
  if chunk.isEmpty then return e.flush
  else feedInput input (e.write chunk.toList)

end VideoTerminal.CommandLine

open VideoTerminal CommandLine

/-- Runs the program. -/
def main (args : List String) : IO UInt32 := do
  let home ← match ← IO.getEnv "HOME" with
    | some directory => pure (some directory)
    | none => IO.getEnv "USERPROFILE"
  let content ← match settingsPath? home args with
    | some path => readFileContent path
    | none => pure .missing
  match run (fun _ => content) home args with
  | .exit code text =>
      IO.eprint text
      return code.toUInt32
  | .session emulator _ _ =>
      let e ← feedInput (← IO.getStdin) emulator
      IO.print (printed e)
      return 0
