import VideoTerminal.Registry

/-!
# The session manager

The registry together with the sessions themselves.  A session that is no longer registered is
kept, because whoever got hold of it before may still use it.

Starting and stopping a command takes time, in which whatever is on its way in any of the sessions
arrives; all else is done at once.
-/

namespace VideoTerminal

/-- All sessions of a program. -/
structure Manager (D : Type) [TerminalDevice D] where
  registry : Registry
  /-- Every session that was ever registered, in the order of their registration. -/
  sessions : List (Session D) := []
deriving DecidableEq, Repr

namespace Manager

variable {D : Type} [TerminalDevice D]

/-- A manager without sessions. -/
def new (defaultSize : Size) : Manager D := { registry := { defaultSize } }

/-- A session, registered or not. -/
def session? (m : Manager D) (id : SessionId) : Option (Session D) :=
  m.sessions.find? fun s => s.id == id

/-- A registered session. -/
def get? (m : Manager D) (id : SessionId) : Option (Session D) :=
  if id ∈ m.registry.registered then m.session? id else none

/-- The active session. -/
def activeSession? (m : Manager D) : Option (Session D) := m.registry.active.bind m.get?

/-- Puts a session in the place of the one with its number. -/
def replace (m : Manager D) (s : Session D) : Manager D :=
  { m with sessions := m.sessions.map fun t => if t.id = s.id then s else t }

/-- Does something to a session. -/
def onSession (m : Manager D) (id : SessionId)
    (f : Session D → Session D × Except SessionError α) : Manager D × Except SessionError α :=
  match m.session? id with
  | none => (m, .error (.notFound id))
  | some s =>
      let (s, outcome) := f s
      (m.replace s, outcome)

/-- Lets everything arrive that is on its way in some session. -/
def settle (m : Manager D) : Manager D := { m with sessions := m.sessions.map Session.settle }

/-- Does something to a session that stops its command.  Nothing is stopped if it is refused. -/
def onCommand (m : Manager D) (id : SessionId)
    (f : Session D → Session D × Except SessionError Unit) : Manager D × Except SessionError Unit :=
  match m.onSession id f with
  | (m, .error e) => (if e.isRefusal then m else m.settle, .error e)
  | (m, .ok ()) => (m.settle, .ok ())

/-- Registers a session. -/
def register (m : Manager D) (s : Session D) : Manager D :=
  { registry := m.registry.register s.id, sessions := m.sessions ++ [s] }

/-- Starts a session.  Its number is used up even if that fails. -/
def create (host : Host D) (m : Manager D) (options : SessionOptions) :
    Manager D × Except SessionError SessionId :=
  let (id, defaultSize, registry) := m.registry.reserve
  let m := { m with registry }
  match Session.spawn host id options (options.size.getD defaultSize) with
  | .error e => (m, .error e)
  | .ok s => (m.settle.register s, .ok id)

/-- Closes a session and gives the one that is active then.  One that was closed by somebody else
before is only removed. -/
def close (m : Manager D) (id : SessionId) : Manager D × Except SessionError (Option SessionId) :=
  match m.registry.remove? id with
  | none => (m, .error (.notFound id))
  | some registry =>
      (({ m with registry }.onCommand id Session.close).1, .ok registry.active)

/-- Makes a session the active one. -/
def switch (m : Manager D) (id : SessionId) : Manager D × Except SessionError Unit :=
  match m.registry.switch? id with
  | none => (m, .error (.notFound id))
  | some registry => ({ m with registry }, .ok ())

/-- Restarts a session, with new options if there are any. -/
def restart (host : Host D) (m : Manager D) (id : SessionId) (options : Option SessionOptions) :
    Manager D × Except SessionError Unit :=
  if id ∈ m.registry.registered then m.onCommand id fun s => s.restart host options
  else (m, .error (.notFound id))

/-- Resizes some sessions, all of them even if one fails, and gives the first failure. -/
def resizeEach (m : Manager D) (size : Size) :
    List SessionId → Manager D × Except SessionError Unit
  | [] => (m, .ok ())
  | id :: ids =>
      let (m, first) := m.onSession id fun s => s.resize size
      let (m, others) := m.resizeEach size ids
      (m, match first with | .ok () => others | .error e => .error e)

/-- Resizes all registered sessions, and the ones to come that ask for no size. -/
def broadcastResize (m : Manager D) (size : Size) : Manager D × Except SessionError Unit :=
  match size.check with
  | .error e => (m, .error (.size e))
  | .ok () =>
      { m with registry := m.registry.setDefaultSize size }.resizeEach size m.registry.ids

end Manager

end VideoTerminal
