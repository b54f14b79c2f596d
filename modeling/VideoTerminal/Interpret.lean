import VideoTerminal.Command.ControlFunction
import VideoTerminal.Command.SystemCommand
import VideoTerminal.Event
import VideoTerminal.Rendition.Encode
import VideoTerminal.Terminal.Print
import VideoTerminal.Terminal.Reset
import VideoTerminal.Terminal.SetMode
import VideoTerminal.Terminal.Tab
import VideoTerminal.Terminal.Title

/-!
# The effect of messages

What each message does to a terminal, and the events it gives rise to.
-/

namespace VideoTerminal.Terminal

/-- The foreground that is reported until a program sets one. -/
def defaultForeground : Rgb := ⟨229, 229, 229⟩

/-- The background that is reported until a program sets one. -/
def defaultBackground : Rgb := ⟨0, 0, 0⟩

/-- The effect of a control. -/
def applyControl (t : Terminal) (b : UInt8) : Terminal × List Event :=
  if b = 0x07 then (t, [.bell])
  else if b = 0x08 then (t.backspace, [])
  else if b = 0x09 then (t.forwardTab 1, [])
  else if b = 0x0A || b == 0x0B || b == 0x0C then (t.linefeed, [])
  else if b = 0x0D then (t.carriageReturn, [])
  else if b = 0x0E then ({ t with charsets := t.charsets.shift .g1 }, [])
  else if b = 0x0F then ({ t with charsets := t.charsets.shift .g0 }, [])
  else (t, [])

/-- The number that reports the value of a mode. -/
def modeValue : Option Bool → Nat
  | some true => 1
  | some false => 2
  | none => 0

/-- The effect of a window operation: a report of the size (18), putting the title aside (22) or
taking it back (23). -/
def applyWindowOperation (t : Terminal) (args : List Nat) : Terminal × List Event :=
  match args.head?.getD 0 with
  | 18 => (t, [.reply (.windowSize t.rows t.cols)])
  | 22 => (t.pushTitle, [])
  | 23 =>
      match t.popTitle? with
      | some t => (t, [.titleChanged t.title, .iconNameChanged t.iconName])
      | none => (t, [])
  | _ => (t, [])

/-- Sets the shape of the cursor, if the number is that of one. -/
def setCursorStyle (t : Terminal) (n : Nat) : Terminal :=
  match CursorStyle.ofNumber? n with
  | some style => t.onCursor ({ · with style })
  | none => t

/-- The effect of a control function. -/
def applyFunction (t : Terminal) (f : ControlFunction) : Terminal × List Event :=
  match f with
  | .cursorUp n => (t.cursorUp n, [])
  | .cursorDown n => (t.cursorDown n, [])
  | .cursorForward n => (t.cursorForward n, [])
  | .cursorBackward n => (t.cursorBackward n, [])
  | .nextLine n => ((t.cursorDown n).carriageReturn, [])
  | .precedingLine n => ((t.cursorUp n).carriageReturn, [])
  | .cursorColumn col => (t.setColumn (col - 1), [])
  | .cursorRow row => (t.setRow (row - 1), [])
  | .cursorPosition row col => (t.setPosition (row - 1) (col - 1), [])
  | .forwardTab n => (t.forwardTab n, [])
  | .backwardTab n => (t.backwardTab n, [])
  | .eraseInDisplay extent selective => (t.eraseInDisplay extent selective, [])
  | .eraseInLine extent selective => (t.eraseInLine extent selective, [])
  | .eraseChars n => (t.eraseChars n, [])
  | .scrollUp n => (t.scrollUp n, [])
  | .scrollDown n => (t.scrollDown n, [])
  | .insertLines n => (t.insertLines n, [])
  | .deleteLines n => (t.deleteLines n, [])
  | .insertChars n => (t.insertChars n, [])
  | .deleteChars n => (t.deleteChars n, [])
  | .repeatLast n => (t.repeatLast n, [])
  | .clearTab extent => (t.clearTabStop extent, [])
  | .setMode modes on => (modes.foldl (·.setMode · on) t, [])
  | .setPrivateMode modes on => (modes.foldl (·.setPrivateMode · on) t, [])
  | .requestMode mode => (t, [.reply (.modeReport false mode (modeValue (t.mode? mode)))])
  | .requestPrivateMode mode =>
      (t, [.reply (.modeReport true mode (modeValue (t.privateMode? mode)))])
  | .savePrivateModes modes => (t.savePrivateModes modes, [])
  | .restorePrivateModes modes => (t.restorePrivateModes modes, [])
  | .deviceStatus 5 => (t, [.reply .deviceStatus])
  | .deviceStatus 6 =>
      let (row, col) := t.reportedPosition
      (t, [.reply (.cursorPosition row col)])
  | .privateDeviceStatus 6 =>
      let (row, col) := t.reportedPosition
      (t, [.reply (.extendedCursorPosition row col)])
  | .deviceStatus _ => (t, [])
  | .privateDeviceStatus _ => (t, [])
  | .deviceAttributes => (t, [.reply .deviceAttributes])
  | .secondaryAttributes => (t, [.reply .secondaryAttributes])
  | .tertiaryAttributes => (t, [.reply .tertiaryAttributes])
  | .setScrollRegion top bottom => (t.setScrollRegion top bottom, [])
  | .saveCursor => (t.savePlace, [])
  | .restoreCursor => (t.restorePlace, [])
  | .windowOperation args => t.applyWindowOperation args
  | .cursorStyle n => (t.setCursorStyle n, [])
  | .protection n => ({ t with penProtected := n == 1 }, [])
  | .softReset => (t.softReset, [])
  | .unknown => (t, [])

/-- The effect of one color of a list: a question mark asks for the color, anything else sets it
if it can be read. -/
def applyColor (ending : StringEnd) (t : Terminal) (code : Nat) (spec : List Char) :
    Terminal × List Event :=
  if spec = ['?'] then
    let color := if code = 10 then t.foreground.getD defaultForeground
      else t.background.getD defaultBackground
    (t, [.reply (.dynamicColor code color ending)])
  else
    match Rgb.parse? spec with
    | some c =>
        (if code = 10 then { t with foreground := some c }
         else { t with background := some c }, [])
    | none => (t, [])

/-- The effect of a list of colors, from a number upwards; there are no colors beyond 11. -/
def applyColors (ending : StringEnd) (t : Terminal) (code : Nat) :
    List (List Char) → Terminal × List Event
  | [] => (t, [])
  | spec :: specs =>
      if 11 < code then (t, [])
      else
        let (t, es) := applyColor ending t code spec
        let (t, fs) := applyColors ending t (code + 1) specs
        (t, es ++ fs)

/-- The effect of a command about a clipboard: a question mark asks for what it holds, Base64
fills it, and anything else is ignored. -/
def applyClipboard (selection : String) (payload : List Char) (ending : StringEnd) : List Event :=
  if payload = ['?'] then [.clipboardQuery selection ending]
  else
    match Base64.decode? payload with
    | some bytes => [.clipboardSet selection (String.ofList (Utf8.decodeLossy bytes))]
    | none => []

/-- The effect of a system command. -/
def applyCommand (t : Terminal) (c : SystemCommand) (ending : StringEnd) : Terminal × List Event :=
  match c with
  | .setTitleAndIcon text =>
      ((t.setTitle text).setIconName text, [.titleChanged text, .iconNameChanged text])
  | .setIconName text => (t.setIconName text, [.iconNameChanged text])
  | .setTitle text => (t.setTitle text, [.titleChanged text])
  | .hyperlink id target =>
      (if target = "" then t.closeHyperlink else t.openHyperlink id target, [])
  | .dynamicColors first specs => applyColors ending t first specs
  | .resetDynamicColor 10 => ({ t with foreground := none }, [])
  | .resetDynamicColor _ => ({ t with background := none }, [])
  | .clipboard selection payload => (t, applyClipboard selection payload ending)
  | .unknown => (t, [])

/-- Designates a set, if the byte names one. -/
def designate (t : Terminal) (slot : CharsetSlot) (b : UInt8) : Terminal :=
  match Charset.ofDesignator? b with
  | some s => { t with charsets := t.charsets.designate slot s }
  | none => t

/-- The effect of an escape sequence, by its characters. -/
def applyEscape (t : Terminal) (sequence : List UInt8) : Terminal :=
  match sequence.map fun b => Char.ofNat b.toNat with
  | ['7'] => t.saveCursor
  | ['8'] => t.restoreCursor
  | ['D'] => t.index
  | ['E'] => t.nextLine
  | ['M'] => t.reverseIndex
  | ['H'] => t.setTabStop
  | ['c'] => t.fullReset
  | ['='] => t.onModes ({ · with applicationKeypad := true })
  | ['>'] => t.onModes ({ · with applicationKeypad := false })
  | ['#', '8'] => t.screenAlignment
  | ['(', _] => t.designate .g0 (sequence.getD 1 0)
  | [')', _] => t.designate .g1 (sequence.getD 1 0)
  | _ => t

/-- The setting that a request names, as the sequence that would select it. -/
def statusString? (t : Terminal) (request : List Char) : Option (List Char) :=
  match request with
  | ['m'] => some (t.pen.encode ++ ['m'])
  | ['r'] => some (Reply.pair (t.region.top + 1) (t.region.bottom + 1) ++ ['r'])
  | [' ', 'q'] => some (Numeral.decimal t.cursor.style.number ++ [' ', 'q'])
  | ['\x22', 'q'] => some ((if t.penProtected then ['1'] else ['0']) ++ ['\x22', 'q'])
  | _ => none

/-- The effect of a device control string: only requests for settings have one. -/
def applyDeviceControl (t : Terminal) (intermediates : List UInt8) (final : UInt8)
    (data : List UInt8) : List Event :=
  if intermediates = [0x24] ∧ final = 0x71 then
    [.reply (.statusString (t.statusString? (Utf8.decodeLossy data)))]
  else []

/-- The function of a control sequence received as bytes. -/
def functionOf (marker : Option UInt8) (params : Params) (intermediates : List UInt8)
    (final : UInt8) : ControlFunction :=
  let char := fun (b : UInt8) => Char.ofNat b.toNat
  ControlFunction.ofSequence (marker.map char) params (intermediates.map char) (char final)

/-- The effect of a message. -/
def apply (t : Terminal) (m : Message) : Terminal × List Event :=
  match m with
  | .print text => (text.foldl print t, [])
  | .control b => t.applyControl b
  | .sgr params => ({ t with pen := Rendition.select t.sgr21 params t.pen }, [])
  | .csi marker params intermediates final =>
      t.applyFunction (functionOf marker params intermediates final)
  | .osc code data ending => t.applyCommand (SystemCommand.ofOsc code data) ending
  | .esc sequence => (t.applyEscape sequence, [])
  | .dcs _ intermediates final data => (t, t.applyDeviceControl intermediates final data)

/-- The effect of messages in order. -/
def applyAll (t : Terminal) (ms : List Message) : Terminal × Array Event :=
  ms.foldl (fun (t, es) m => let (t', fs) := t.apply m; (t', es ++ fs)) (t, #[])

end VideoTerminal.Terminal
