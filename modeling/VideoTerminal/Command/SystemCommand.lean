import VideoTerminal.Text.Field

/-!
# System commands

The meaning of an operating system command: titles, links, default colors and the clipboard.
-/

namespace VideoTerminal

/-- What a system command asks for. -/
inductive SystemCommand where
  | setTitleAndIcon (text : String)
  | setIconName (text : String)
  | setTitle (text : String)
  /-- Links what is printed from now on to a target; an empty target ends the link. -/
  | hyperlink (id target : String)
  /-- Sets or asks for the default colors from one number upwards. -/
  | dynamicColors (first : Nat) (specs : List (List Char))
  | resetDynamicColor (code : Nat)
  | clipboard (selection : String) (payload : List Char)
  | unknown
deriving DecidableEq, Repr

namespace SystemCommand

/-- The identity among the parameters of a link; empty where there is none. -/
def linkId (params : List Char) : List Char :=
  ((Field.all ':' params).findSome? (Field.after? ['i', 'd', '='])).getD []

/-- The command of a link. -/
def ofLink (data : List Char) : SystemCommand :=
  match Field.splitFirst? ';' data with
  | some (params, target) => .hyperlink (String.ofList (linkId params)) (String.ofList target)
  | none => .unknown

/-- The command about a clipboard; the first clipboard is the default. -/
def ofClipboard (data : List Char) : SystemCommand :=
  let (selection, payload) := (Field.splitFirst? ';' data).getD ([], data)
  .clipboard (if selection = [] then "c" else String.ofList selection) payload

/-- The command of a number and the text behind it. -/
def ofOsc (code : Option Nat) (data : String) : SystemCommand :=
  match code with
  | some 0 => .setTitleAndIcon data
  | some 1 => .setIconName data
  | some 2 => .setTitle data
  | some 8 => ofLink data.toList
  | some 10 => .dynamicColors 10 (Field.all ';' data.toList)
  | some 11 => .dynamicColors 11 (Field.all ';' data.toList)
  | some 110 => .resetDynamicColor 10
  | some 111 => .resetDynamicColor 11
  | some 52 => ofClipboard data.toList
  | _ => .unknown

end SystemCommand

end VideoTerminal
