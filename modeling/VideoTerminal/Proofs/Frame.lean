import VideoTerminal.Proofs.RelinkedTerminal
import VideoTerminal.Proofs.ShownScreen

/-!
# The frame of a terminal

Around what a terminal shows there are its size, its titles and the number of the open link.
Whatever draws, moves the cursor or switches a mode leaves all three alone.  No message changes the
size; the titles change just as the events of a message say, or else the message resets everything;
and besides the reset only a command about links changes the open link.  That is `frame_apply`, with
one lemma below it for each operation.
-/

namespace VideoTerminal

/-- A title and an icon name. -/
structure Titles where
  title : String := ""
  iconName : String := ""
deriving DecidableEq, Repr

namespace Titles

/-- What a listener has who hears of an event. -/
def hear (x : Titles) : Event → Titles
  | .titleChanged title => { x with title }
  | .iconNameChanged iconName => { x with iconName }
  | _ => x

/-- What a listener has who hears of events in order. -/
def hearAll (x : Titles) (es : List Event) : Titles := es.foldl hear x

/-- Events are heard in order. -/
@[simp] theorem hearAll_cons (x : Titles) (e : Event) (es : List Event) :
    x.hearAll (e :: es) = (x.hear e).hearAll es := rfl

/-- Those of two messages are heard one after the other. -/
theorem hearAll_append (x : Titles) (es fs : List Event) :
    x.hearAll (es ++ fs) = (x.hearAll es).hearAll fs := List.foldl_append

end Titles

/-- Whether a system command opens or ends a link. -/
def SystemCommand.isHyperlink : SystemCommand → Bool
  | .hyperlink _ _ => true
  | _ => false

/-- Whether a message opens or ends a link. -/
def Message.isHyperlink : Message → Bool
  | .osc code data _ => (SystemCommand.ofOsc code data).isHyperlink
  | _ => false

namespace Terminal

/-- The title and the icon name of a terminal. -/
def titles (t : Terminal) : Titles := ⟨t.title, t.iconName⟩

/-- The size and the titles of a terminal, and its open link. -/
structure Frame where
  size : Size
  titles : Titles
  openLink : Nat

/-- What is around the screens of a terminal. -/
def frame (t : Terminal) : Frame := ⟨t.size, t.titles, t.openLink⟩

/-! ## Operations that leave the frame alone -/

/-- Size, titles and open link are not the shown screen. -/
theorem blind_frame (x : Frame) : Blind (·.frame = x) where
  onScreen := by
    intro t f h
    rw [onScreen]
    split <;> exact h
  onCursor := id
  printed := id

/-- What one step of a list leaves alone, the whole list does. -/
theorem frame_foldl {α : Type} {f : Terminal → α → Terminal}
    (hf : ∀ t a, (f t a).frame = t.frame) (t : Terminal) (as : List α) :
    (as.foldl f t).frame = t.frame :=
  List.foldlRecOn (motive := fun u => u.frame = t.frame) as f rfl
    fun u hu a _ => (hf u a).trans hu

/-- A cursor is saved beside the frame. -/
theorem frame_saveCursor (t : Terminal) : t.saveCursor.frame = t.frame := by
  rw [saveCursor]
  split <;> rfl

/-- It is restored beside the frame. -/
theorem frame_restoreCursor (t : Terminal) : t.restoreCursor.frame = t.frame := by
  rw [restoreCursor]
  split <;> rfl

/-- So is the position. -/
theorem frame_restorePlace (t : Terminal) : t.restorePlace.frame = t.frame := by
  rw [restorePlace]
  split <;> rfl

/-- Entering the alternate screen keeps the frame. -/
theorem frame_enterAlternate (t : Terminal) (clear : Bool) :
    (t.enterAlternate clear).frame = t.frame := by
  rw [enterAlternate]
  split
  · rfl
  · cases clear <;> rfl

/-- Leaving it does too. -/
theorem frame_exitAlternate (t : Terminal) (clear : Bool) :
    (t.exitAlternate clear).frame = t.frame := by
  rw [exitAlternate]
  split
  · cases clear <;> rfl
  · rfl

/-- Modes that are not private are beside it. -/
theorem frame_setMode (t : Terminal) (mode : Nat) (on : Bool) :
    (t.setMode mode on).frame = t.frame := by
  simp only [setMode]
  split <;> rfl

/-- So are private modes, whichever of them is switched. -/
theorem frame_switch (t : Terminal) (mode : PrivateMode) (on : Bool) :
    (t.switch mode on).frame = t.frame := by
  cases mode with
  | alternateScreen =>
      cases on with
      | true => exact frame_enterAlternate t false
      | false => exact frame_exitAlternate t false
  | blankAlternateScreen =>
      cases on with
      | true => exact frame_enterAlternate t true
      | false => exact frame_exitAlternate t true
  | savedCursor =>
      cases on with
      | true => exact frame_saveCursor t
      | false => exact frame_restoreCursor t
  | alternateScreenAndCursor =>
      cases on with
      | true =>
          show (if t.modes.alternateScreen then t else _).frame = _
          split
          · rfl
          · exact (frame_enterAlternate _ true).trans (frame_saveCursor t)
      | false =>
          show (if t.modes.alternateScreen then _ else t).frame = _
          split
          · exact (frame_restoreCursor _).trans (frame_exitAlternate t false)
          · rfl
  | _ => rfl

/-- By their numbers too. -/
theorem frame_setPrivateMode (t : Terminal) (mode : Nat) (on : Bool) :
    (t.setPrivateMode mode on).frame = t.frame := by
  rw [setPrivateMode]
  split
  · exact frame_switch t _ on
  · rfl

/-- Their values are saved beside it. -/
theorem frame_savePrivateMode (t : Terminal) (mode : Nat) :
    (t.savePrivateMode mode).frame = t.frame := by
  rw [savePrivateMode]
  split <;> rfl

/-- They are restored beside it. -/
theorem frame_restorePrivateMode (t : Terminal) (mode : Nat) :
    (t.restorePrivateMode mode).frame = t.frame := by
  rw [restorePrivateMode]
  split
  · exact frame_setPrivateMode t mode _
  · rfl

/-- Stops are no part of the frame. -/
theorem frame_clearTabStop (t : Terminal) (extent : Nat) :
    (t.clearTabStop extent).frame = t.frame := by
  simp only [clearTabStop]
  split <;> rfl

/-- The scroll region is none. -/
theorem frame_setScrollRegion (t : Terminal) (top bottom : Nat) :
    (t.setScrollRegion top bottom).frame = t.frame := by
  rw [setScrollRegion]
  generalize (if bottom = 0 then t.rows else min bottom t.rows) = stop
  dsimp only
  split <;> rfl

/-- The style of the cursor is none. -/
theorem frame_setCursorStyle (t : Terminal) (n : Nat) :
    (t.setCursorStyle n).frame = t.frame := by
  rw [setCursorStyle]
  split <;> rfl

/-- Opening a link changes which link is open and nothing else of the frame. -/
theorem frame_openHyperlink (t : Terminal) (id target : String) :
    (t.openHyperlink id target).frame
      = { t.frame with openLink := (t.openHyperlink id target).openLink } := by
  rw [openHyperlink]
  split <;> rfl

/-- Setting a color changes nothing of the frame. -/
theorem frame_applyColor (ending : StringEnd) (t : Terminal) (code : Nat) (spec : List Char) :
    (applyColor ending t code spec).1.frame = t.frame := by
  rw [applyColor]
  split
  · rfl
  · split
    · dsimp only
      split <;> rfl
    · rfl

/-- Choosing a charset does not either. -/
theorem frame_designate (t : Terminal) (slot : CharsetSlot) (b : UInt8) :
    (t.designate slot b).frame = t.frame := by
  rw [designate]
  split <;> rfl

/-- The alignment pattern fills the grid within the frame. -/
theorem frame_screenAlignment (t : Terminal) : t.screenAlignment.frame = t.frame :=
  have hreset : t.resetRegions.frame = t.frame := rfl
  (blind_frame t.frame).setPosition ((blind_frame t.frame).onScreen hreset) 0 0

/-! ## What a message announces -/

/-- A step has left size and open link alone, and changed the titles as its events say. -/
def Announced (t : Terminal) (next : Terminal × List Event) : Prop :=
  next.1.frame = ⟨t.size, t.titles.hearAll next.2, t.openLink⟩

/-- A control changes nothing of the frame, and is heard as a bell at most. -/
theorem announced_applyControl (t : Terminal) (b : UInt8) : t.Announced (t.applyControl b) := by
  rw [applyControl]
  split
  · exact rfl
  split
  · exact (blind_frame t.frame).backspace rfl
  split
  · exact rfl
  split
  · exact (blind_frame t.frame).linefeed rfl
  split
  · exact rfl
  split
  · exact rfl
  split <;> exact rfl

/-- Both titles that are taken back are announced. -/
theorem announced_applyWindowOperation (t : Terminal) (args : List Nat) :
    t.Announced (t.applyWindowOperation args) := by
  rw [applyWindowOperation]
  split
  · exact rfl
  · exact rfl
  · split
    · rename_i u hu
      rw [popTitle?] at hu
      split at hu
      · rw [← Option.some.inj hu]
        exact rfl
      · cases hu
    · exact rfl
  · exact rfl

/-- What a control function changes of the titles is announced. -/
theorem announced_applyFunction (t : Terminal) (f : ControlFunction) :
    t.Announced (t.applyFunction f) := by
  have hblind := blind_frame t.frame
  cases f with
  | eraseInDisplay extent selective => exact hblind.eraseInDisplay rfl extent selective
  | eraseInLine extent selective => exact hblind.eraseInLine rfl extent selective
  | eraseChars n => exact hblind.eraseChars rfl n
  | scrollUp n => exact hblind.scroll rfl n .up
  | scrollDown n => exact hblind.scroll rfl n .down
  | insertLines n => exact hblind.shiftFromCursor rfl n .down
  | deleteLines n => exact hblind.shiftFromCursor rfl n .up
  | insertChars n => exact hblind.insertChars rfl n
  | deleteChars n => exact hblind.deleteChars rfl n
  | repeatLast n => exact hblind.repeatLast rfl n
  | clearTab extent => exact frame_clearTabStop t extent
  | setMode modes on => exact frame_foldl (fun u mode => frame_setMode u mode on) t modes
  | setPrivateMode modes on =>
      exact frame_foldl (fun u mode => frame_setPrivateMode u mode on) t modes
  | savePrivateModes modes => exact frame_foldl frame_savePrivateMode t _
  | restorePrivateModes modes => exact frame_foldl frame_restorePrivateMode t _
  | setScrollRegion top bottom => exact frame_setScrollRegion t top bottom
  | restoreCursor => exact frame_restorePlace t
  | windowOperation args => exact announced_applyWindowOperation t args
  | cursorStyle n => exact frame_setCursorStyle t n
  | deviceStatus request =>
      rw [applyFunction_deviceStatus]
      -- reports announce no title
      by_cases h5 : request = 5
      · rw [if_pos h5]
        exact rfl
      · rw [if_neg h5]
        split <;> exact rfl
  | privateDeviceStatus request =>
      rw [applyFunction_privateDeviceStatus]
      split <;> exact rfl
  | _ => exact rfl

/-- Setting several colors changes nothing of the frame. -/
theorem announced_applyColors (ending : StringEnd) (t : Terminal) (code : Nat)
    (specs : List (List Char)) : t.Announced (applyColors ending t code specs) := by
  induction specs generalizing t code with
  | nil => exact rfl
  | cons spec specs ih =>
      have hquiet : t.titles.hearAll (applyColor ending t code spec).2 = t.titles := by
        rw [applyColor]
        split
        · rfl
        · split <;> rfl
      rw [applyColors]
      split
      · exact rfl
      · -- the rest of the list finds the frame as it was
        have hframe := frame_applyColor ending t code spec
        have hrest : Frame.mk _ _ _ = ⟨_, _, _⟩ := ih (applyColor ending t code spec).1 (code + 1)
        rw [show (applyColor ending t code spec).1.size = t.size from congrArg Frame.size hframe,
          show (applyColor ending t code spec).1.titles = t.titles from
            congrArg Frame.titles hframe,
          show (applyColor ending t code spec).1.openLink = t.openLink from
            congrArg Frame.openLink hframe] at hrest
        show Frame.mk _ _ _ = ⟨t.size, t.titles.hearAll (_ ++ _), t.openLink⟩
        rw [Titles.hearAll_append, hquiet]
        exact hrest

/-- A command about links changes the open link and announces nothing. -/
theorem frame_applyCommand_hyperlink (t : Terminal) {c : SystemCommand}
    (hc : c.isHyperlink = true) (ending : StringEnd) :
    (t.applyCommand c ending).1.frame
      = ⟨t.size, t.titles.hearAll (t.applyCommand c ending).2,
        (t.applyCommand c ending).1.openLink⟩ := by
  cases c with
  | hyperlink id target =>
      simp only [applyCommand]
      split
      · exact rfl
      · exact frame_openHyperlink t id target
  | _ => cases hc

/-- A command that is not about links announces the titles it sets. -/
theorem announced_applyCommand (t : Terminal) {c : SystemCommand} (hc : c.isHyperlink = false)
    (ending : StringEnd) : t.Announced (t.applyCommand c ending) := by
  cases c with
  | hyperlink id target => cases hc
  | dynamicColors first specs => exact announced_applyColors ending t first specs
  | resetDynamicColor code =>
      rw [applyCommand_resetDynamicColor]
      split <;> exact rfl
  | clipboard selection payload =>
      show t.frame
        = ⟨t.size, t.titles.hearAll (applyClipboard selection payload ending), t.openLink⟩
      rw [applyClipboard]
      split
      · rfl
      · split <;> rfl
  | _ => exact rfl

/-- An escape sequence changes nothing of the frame, unless it resets everything. -/
theorem frame_applyEscape (t : Terminal) {sequence : List UInt8}
    (hreset : (sequence.map fun b => Char.ofNat b.toNat) ≠ ['c']) :
    (t.applyEscape sequence).frame = t.frame := by
  have hblind := blind_frame t.frame
  rw [applyEscape]
  split
  · exact frame_saveCursor t
  · exact frame_restoreCursor t
  · exact hblind.index rfl
  · exact hblind.index (t := t.carriageReturn) rfl
  · exact hblind.reverseIndex rfl
  · rfl
  · rename_i hc
    exact absurd hc hreset
  · rfl
  · rfl
  · exact frame_screenAlignment t
  · exact frame_designate t _ _
  · exact frame_designate t _ _
  · rfl

/-- **What a message does to the frame.**  It leaves the size alone, and it changes the titles as
    its events say or, if it resets everything, empties them.  The open link is none behind a
    reset, and otherwise the same unless the message is about links. -/
theorem frame_apply (t : Terminal) (m : Message) :
    (t.apply m).1.frame
      = if m.isFullReset then ⟨t.size, {}, 0⟩
        else ⟨t.size, t.titles.hearAll (t.apply m).2,
          if m.isHyperlink then (t.apply m).1.openLink else t.openLink⟩ := by
  split
  · rename_i hreset
    rw [apply_fullReset hreset]
    rfl
  · rename_i hreset
    cases m with
    | print text => exact frame_foldl (fun u c => (blind_frame u.frame).print rfl c) t text
    | control b => exact announced_applyControl t b
    | sgr params => rfl
    | csi marker params intermediates final => exact announced_applyFunction t _
    | osc code data ending =>
        rw [Message.isHyperlink]
        split
        · rename_i hlink
          exact frame_applyCommand_hyperlink t hlink ending
        · rename_i hlink
          exact announced_applyCommand t (Bool.eq_false_iff.mpr hlink) ending
    | esc sequence => exact frame_applyEscape t fun hc => hreset (decide_eq_true hc)
    | dcs params intermediates final data =>
        show t.frame
          = ⟨t.size, t.titles.hearAll (t.applyDeviceControl intermediates final data), t.openLink⟩
        rw [applyDeviceControl]
        split <;> rfl

/-- Titles are what was heard of them, or empty behind a full reset. -/
theorem titles_apply (t : Terminal) (m : Message) :
    (t.apply m).1.titles = if m.isFullReset then {} else t.titles.hearAll (t.apply m).2 := by
  have htitles := congrArg Frame.titles (frame_apply t m)
  split at htitles
  · rename_i hreset
    rwa [if_pos hreset]
  · rename_i hreset
    rwa [if_neg hreset]

/-- No message changes the size. -/
theorem size_apply (t : Terminal) (m : Message) : (t.apply m).1.size = t.size := by
  have hsize := congrArg Frame.size (frame_apply t m)
  split at hsize
  · exact hsize
  · exact hsize

/-- What is not about links keeps the open one. -/
theorem openLink_apply (t : Terminal) {m : Message} (hreset : m.isFullReset = false)
    (hlink : m.isHyperlink = false) : (t.apply m).1.openLink = t.openLink := by
  have hopen := congrArg Frame.openLink (frame_apply t m)
  rwa [hreset, hlink] at hopen

end Terminal

end VideoTerminal
