import VideoTerminal.Emulator
import VideoTerminal.Session.Options

/-!
# Sessions

An emulator together with the command that runs in it.  A session can be resized and restarted
until it is closed; after that every operation fails.  What a failed operation leaves behind is a
session too, so each operation gives one beside its outcome.

A command runs in a terminal device, which belongs to the system and not to the session.  So its
kind `D` is left open here, and what is used of it are the operations of `TerminalDevice`.  The
commands themselves are silent: what appears on the screen without being fed to the emulator is
what the device sends, like the echo of the input.  It takes a while to arrive, and `settle` lets
it.
-/

namespace VideoTerminal

/-- The number of a session.  Numbers count up from one, at most one for each session that is asked
for (`Manager.reserved_le_length`), so 64 bits hold them until 2^64 - 1 sessions have been. -/
abbrev SessionId := Nat

/-- What is used of the terminal devices of a kind, each of which stands between a session and its
command. -/
class TerminalDevice (D : Type) where
  /-- Takes input for the command. -/
  receive : D → List UInt8 → D
  /-- Takes the input that is given when nothing more is going to be typed. -/
  hangUp : D → D
  /-- Hands over what it has sent. -/
  read : D → D × List UInt8
  /-- Whether its input has ended the command. -/
  hasEnded : D → Bool

/-- A running command: how it was started, the size it was last told, and where its input goes. -/
structure Child (D : Type) where
  options : SessionOptions
  size : Size
  device : D
deriving DecidableEq, Repr

/-- Why something cannot be done with a command. -/
inductive ChildError where
  | spawn (reason : String)
  | notRunning
deriving DecidableEq, Repr

/-- Why something cannot be done with a session. -/
inductive SessionError where
  | notFound (id : SessionId)
  | closed (id : SessionId)
  | size (e : InvalidSize)
  | child (e : ChildError)
deriving DecidableEq, Repr

/-- The message of the error. -/
def ChildError.message : ChildError → String
  | .spawn reason => s!"Failed to spawn process: {reason}"
  | .notRunning => "Process is not running"

/-- The message of the error. -/
def SessionError.message : SessionError → String
  | .notFound id => s!"Session {id} not found"
  | .closed id => s!"Session {id} has been closed"
  | .size e => e.message
  | .child e => e.message

/-- Whether an operation failed before it did anything to a command. -/
def SessionError.isRefusal : SessionError → Bool
  | .child _ => false
  | _ => true

/-- The system that commands run on, by what it answers when one is to be started: nothing if
that works, and otherwise the reason why not.  A command that starts gets a new terminal device. -/
structure Host (D : Type) where
  refusal : SessionOptions → Option String
  device : D

/-- Starts a command. -/
def Host.start {D : Type} (host : Host D) (options : SessionOptions) (size : Size) :
    Except ChildError (Child D) :=
  match host.refusal options with
  | none => .ok { options, size, device := host.device }
  | some reason => .error (.spawn reason)

/-- An emulator with the command that runs in it, in a terminal device of the kind `D`. -/
structure Session (D : Type) [TerminalDevice D] where
  id : SessionId
  emulator : Emulator
  /-- The command, if it could be started. -/
  child : Option (Child D)
  /-- How the session is started again. -/
  options : SessionOptions
  size : Size
  isClosed : Bool := false
deriving DecidableEq, Repr

namespace Session

variable {D : Type} [TerminalDevice D]

/-- Starts a session. -/
def spawn (host : Host D) (id : SessionId) (options : SessionOptions) (size : Size) :
    Except SessionError (Session D) :=
  match options.emulator size with
  | .error e => .error (.size e)
  | .ok emulator =>
      match host.start options size with
      | .error e => .error (.child e)
      | .ok child => .ok { id, emulator, child := some child, options, size }

/-- Sends input to the command. -/
def input (s : Session D) (bytes : List UInt8) : Session D × Except SessionError Unit :=
  if s.isClosed then (s, .error (.closed s.id))
  else
    match s.child with
    | none => (s, .error (.child .notRunning))
    | some c =>
        let device := TerminalDevice.receive c.device bytes
        ({ s with child := some { c with device } }, .ok ())

/-- Shows what the terminal device has sent.  The answers of the terminal, also those to what it
was fed before, are input of the command again. -/
def pump (s : Session D) (c : Child D) : Session D :=
  match TerminalDevice.read c.device with
  | (_, []) => s
  | (device, sent) =>
      let (emulator, events) := (s.emulator.write sent).takeEvents
      let device := TerminalDevice.receive device (events.toList.flatMap Event.answer)
      { s with emulator, child := some { c with device } }

/-- Forgets the command, after showing what its terminal device has sent.  A sequence that was
left open ends there. -/
def dropChild (s : Session D) (c : Child D) : Session D :=
  let sent := (TerminalDevice.read c.device).2
  { s with emulator := (s.emulator.write sent).flush.takeEvents.1, child := none }

/-- Lets everything arrive that is on its way.  The answers of the terminal are input, which the
device may echo, so it is read once more; no answer follows from an echo, in which there is no
escape. -/
def settle (s : Session D) : Session D :=
  match s.child with
  | none => s
  | some c =>
      if TerminalDevice.hasEnded c.device then s.dropChild c
      else
        let s := s.pump c
        (s.child.map s.pump).getD s

/-- Changes the size of the terminal. -/
def resize (s : Session D) (size : Size) : Session D × Except SessionError Unit :=
  if s.isClosed then (s, .error (.closed s.id))
  else
    match s.emulator.resize size with
    | .error e => (s, .error (.size e))
    | .ok emulator =>
        ({ s with emulator, size, child := s.child.map fun c => { c with size } }, .ok ())

/-- Stops the command and starts a fresh one in a fresh terminal, with new options if there are
any.  The options are taken over first, so they stay also where the restart fails. -/
def restart (host : Host D) (s : Session D) (options : Option SessionOptions) :
    Session D × Except SessionError Unit :=
  if s.isClosed then (s, .error (.closed s.id))
  else
    let options := options.getD s.options
    let size := options.size.getD s.size
    match options.emulator size with
    | .error e => ({ s with options, size }, .error (.size e))
    | .ok emulator =>
        match host.start options size with
        | .error e => ({ s with options, size, emulator, child := none }, .error (.child e))
        | .ok child => ({ s with options, size, emulator, child := some child }, .ok ())

/-- Stops the command for good. -/
def close (s : Session D) : Session D × Except SessionError Unit :=
  if s.isClosed then (s, .error (.closed s.id))
  else
    let s := { s with isClosed := true }
    match s.child with
    | none => (s, .ok ())
    | some c => (s.dropChild { c with device := TerminalDevice.hangUp c.device }, .ok ())

/-- Takes output of the command. -/
def feed (s : Session D) (bytes : List UInt8) : Session D :=
  { s with emulator := s.emulator.write bytes }

end Session

end VideoTerminal
