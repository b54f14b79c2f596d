import VideoTerminal.Reply

/-!
# Events

What a terminal lets the world outside know.
-/

namespace VideoTerminal

/-- Something that happened on a terminal. -/
inductive Event where
  /-- What is shown may have changed. -/
  | screenUpdated
  /-- A reply has to be sent to the program. -/
  | reply (r : Reply)
  | titleChanged (title : String)
  | iconNameChanged (iconName : String)
  /-- The program wants to fill a clipboard. -/
  | clipboardSet (selection data : String)
  /-- The program wants to know what a clipboard holds; the answer ends as the request did. -/
  | clipboardQuery (selection : String) (ending : StringEnd)
  | bell
deriving DecidableEq, Repr

/-- What is sent to the program because of an event. -/
def Event.answer : Event → List UInt8
  | .reply r => r.bytes
  | _ => []

end VideoTerminal
