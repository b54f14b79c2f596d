import VideoTerminal.Session

/-!
# The registry

The bookkeeping of sessions: which there are, which of them is active, and the order in which
they were.  Every operation here is one step that nothing else can come between.  Making a
session takes two steps, one to reserve its number and one to register it when it runs, and other
steps may come between these.
-/

namespace VideoTerminal

/-- The numbers of the registered sessions and what is known of them. -/
structure Registry where
  /-- The registered sessions, in the order of their registration. -/
  registered : List SessionId := []
  /-- The registered sessions, the one that was active last at the end. -/
  recent : List SessionId := []
  active : Option SessionId := none
  /-- The number of the session that is made next. -/
  nextId : SessionId := 1
  /-- The size of a session that asks for none. -/
  defaultSize : Size
deriving DecidableEq, Repr

namespace Registry

/-- The registered sessions, by number. -/
def ids (r : Registry) : List SessionId := r.registered.mergeSort (· ≤ ·)

/-- Makes a session the active one. -/
def activate (r : Registry) (id : SessionId) : Registry :=
  { r with recent := r.recent.filter (· != id) ++ [id], active := some id }

/-- Gives out a number, and the size that goes with it at this moment.  No number is given out
twice. -/
def reserve (r : Registry) : SessionId × Size × Registry :=
  (r.nextId, r.defaultSize, { r with nextId := r.nextId + 1 })

/-- Adds a session as the one that was active longest ago.  If none is active, it becomes so. -/
def register (r : Registry) (id : SessionId) : Registry :=
  let r := { r with registered := r.registered ++ [id], recent := id :: r.recent }
  if r.active.isNone then r.activate id else r

/-- Removes a session.  If it was the active one, then the one that was so before follows it. -/
def remove? (r : Registry) (id : SessionId) : Option Registry :=
  if id ∈ r.registered then
    let recent := r.recent.filter (· != id)
    some { r with
      registered := r.registered.filter (· != id)
      recent
      active := if r.active = some id then recent.getLast? else r.active }
  else none

/-- Makes a registered session the active one. -/
def switch? (r : Registry) (id : SessionId) : Option Registry :=
  if id ∈ r.registered then some (r.activate id) else none

/-- Sets the size of sessions that ask for none. -/
def setDefaultSize (r : Registry) (size : Size) : Registry := { r with defaultSize := size }

end Registry

end VideoTerminal
