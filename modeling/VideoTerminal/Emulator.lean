import VideoTerminal.Decoder
import VideoTerminal.Interpret

/-!
# The emulator

A decoder, the terminal that its messages act on, and the events that nobody has taken yet.
-/

namespace VideoTerminal

/-- A terminal with the stream that feeds it. -/
structure Emulator where
  decoder : Decoder := .ground
  terminal : Terminal
  /-- The events not yet taken, oldest first. -/
  events : Array Event := #[]
deriving DecidableEq, Repr

namespace Emulator

/-- The number of history rows kept where nothing else is asked for. -/
def defaultHistoryLimit : Nat := 10000

/-- A new emulator of a valid size. -/
def create (size : Size) (historyLimit : Nat) (sgr21 : Sgr21) : Except InvalidSize Emulator := do
  size.check
  return { terminal := Terminal.new size.cols size.rows historyLimit sgr21 }

/-- Lets messages act on the terminal.  If there are any, the screen counts as updated. -/
def act (e : Emulator) (decoder : Decoder) (ms : List Message) : Emulator :=
  if ms.isEmpty then { e with decoder }
  else
    let (terminal, events) := e.terminal.applyAll ms
    { decoder, terminal, events := (e.events ++ events).push .screenUpdated }

/-- Takes output of the program. -/
def write (e : Emulator) (bytes : List UInt8) : Emulator :=
  let (decoder, ms) := e.decoder.push bytes
  e.act decoder ms

/-- Ends the output of the program. -/
def flush (e : Emulator) : Emulator :=
  let (decoder, ms) := e.decoder.flush
  e.act decoder ms

/-- Changes the size.  An invalid size changes nothing, and neither does the size there is. -/
def resize (e : Emulator) (size : Size) : Except InvalidSize Emulator := do
  size.check
  if size = e.terminal.size then return e
  else
    return { e with
      terminal := e.terminal.resize size.cols size.rows
      events := e.events.push .screenUpdated }

/-- Takes all events. -/
def takeEvents (e : Emulator) : Emulator × Array Event := ({ e with events := #[] }, e.events)

/-- Changes the view of the screen that is shown. -/
def onView (e : Emulator) (f : Screen → Screen) : Emulator :=
  { e with terminal := e.terminal.onScreen f }

/-- Moves the view back, unless the addition fails. -/
def viewUp? (e : Emulator) (n : Nat) : Option Emulator :=
  (e.terminal.screen.viewUp? n).map fun s => e.onView fun _ => s

/-- Moves the view forward. -/
def viewDown (e : Emulator) (n : Nat) : Emulator := e.onView (·.viewDown n)

/-- Moves the view to the grid. -/
def viewReset (e : Emulator) : Emulator := e.onView Screen.viewReset

end Emulator

end VideoTerminal
