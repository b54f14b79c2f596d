import VideoTerminal.Proofs.Titles

/-!
# Runs without a marked message

Many properties of a terminal are kept by all messages but a few.  Which these are may depend on the
terminal, so they are marked by a predicate on both, and a run is asked whether a marked message is
among its messages.  What all other messages keep, and changes of size and motions of the view as
far as there are any, is then kept by a run in which no message is marked.
-/

namespace VideoTerminal

/-- Whether a message is the escape sequence of one character. -/
def Message.isEscape (c : Char) : Message → Bool
  | .esc sequence => (sequence.map fun b => Char.ofNat b.toNat) = [c]
  | _ => false

/-- Whether a message calls for a control function. -/
def Message.callsFor (f : ControlFunction) : Message → Bool
  | .csi marker params intermediates final =>
      Terminal.functionOf marker params intermediates final = f
  | _ => false

/-! ## Marked switches -/

namespace Terminal

section

variable (marked : Terminal → PrivateMode → Bool → Bool)

/-- Whether the private mode of a number is switched by a marked switch. -/
def setsAny (t : Terminal) (mode : Nat) (on : Bool) : Bool :=
  (PrivateMode.ofNumber? mode).any (marked t · on)

/-- Whether the saved value of a private mode is brought back by a marked switch. -/
def resetsAny (t : Terminal) (mode : Nat) : Bool :=
  (t.modes.saved? mode).any (t.setsAny marked mode)

/-- Whether a control function makes a marked switch. -/
def functionSwitchesAny (t : Terminal) (f : ControlFunction) : Bool :=
  match f with
  | .setPrivateMode modes on =>
      Machine.anyStep (·.setPrivateMode · on) (setsAny marked · · on) t modes
  | .restorePrivateModes modes =>
      Machine.anyStep restorePrivateMode (resetsAny marked) t
        (if modes = [] then t.modes.saved.map Prod.fst else modes)
  | _ => false

/-- Whether a message makes a marked switch. -/
def switchesAny (t : Terminal) (m : Message) : Bool :=
  match m with
  | .csi marker params intermediates final =>
      t.functionSwitchesAny marked (functionOf marker params intermediates final)
  | _ => false

end

/-- Where no switch is marked, no message makes a marked one. -/
theorem switchesAny_none (t : Terminal) (m : Message) :
    t.switchesAny (fun _ _ _ => false) m = false := by
  have hset : ∀ (t : Terminal) mode on, t.setsAny (fun _ _ _ => false) mode on = false := by
    intro t mode on
    rw [setsAny]
    cases PrivateMode.ofNumber? mode <;> rfl
  have hreset : ∀ (t : Terminal) mode, t.resetsAny (fun _ _ _ => false) mode = false := by
    intro t mode
    rw [resetsAny]
    cases t.modes.saved? mode with
    | none => rfl
    | some value => exact hset t mode value
  cases m with
  | csi marker params intermediates final =>
      rw [switchesAny]
      generalize functionOf marker params intermediates final = f
      cases f with
      | setPrivateMode modes on => exact Machine.anyStep_none (fun t mode => hset t mode on) _ _
      | restorePrivateModes modes => exact Machine.anyStep_none hreset _ _
      | _ => rfl
  | _ => rfl

variable {marked : Terminal → PrivateMode → Bool → Bool} {I : Terminal → Prop}
  (hswitch : ∀ {t : Terminal} {mode on}, marked t mode on = false → I t → I (t.switch mode on))
  {t : Terminal}

include hswitch

theorem setPrivateMode_unmarked (h : I t) {mode : Nat} {on : Bool}
    (hnone : t.setsAny marked mode on = false) : I (t.setPrivateMode mode on) := by
  rw [setPrivateMode]
  split
  · rename_i m hm
    rw [setsAny, hm] at hnone
    exact hswitch hnone h
  · exact h

theorem restorePrivateMode_unmarked (h : I t) {mode : Nat}
    (hnone : t.resetsAny marked mode = false) : I (t.restorePrivateMode mode) := by
  rw [restorePrivateMode]
  split
  · rename_i value hvalue
    rw [resetsAny, hvalue] at hnone
    exact setPrivateMode_unmarked hswitch h hnone
  · exact h

theorem setPrivateModes_unmarked (h : I t) {modes : List Nat} {on : Bool}
    (hnone : t.functionSwitchesAny marked (.setPrivateMode modes on) = false) :
    I (modes.foldl (·.setPrivateMode · on) t) :=
  Machine.foldl_of_anyStep (fun _ _ hmode hu => setPrivateMode_unmarked hswitch hu hmode) h hnone

theorem restorePrivateModes_unmarked (h : I t) {modes : List Nat}
    (hnone : t.functionSwitchesAny marked (.restorePrivateModes modes) = false) :
    I (t.restorePrivateModes modes) :=
  Machine.foldl_of_anyStep (fun _ _ hmode hu => restorePrivateMode_unmarked hswitch hu hmode) h
    hnone

end Terminal

/-! ## Marked messages -/

namespace Emulator

variable {marked : Terminal → Message → Bool}

/-- Whether a call completes a marked message. -/
def completesAny (marked : Terminal → Message → Bool) (e : Emulator) (c : Call) : Bool :=
  Machine.anyStep (fun t m => (t.apply m).1) marked e.terminal (e.completed c)

/-- Whether calls complete a marked message. -/
def runCompletesAny (marked : Terminal → Message → Bool) (e : Emulator) (calls : List Call) :
    Bool :=
  Machine.anyStep call (completesAny marked) e calls

variable {I : Terminal → Prop} {e : Emulator}
  (happly : ∀ {t : Terminal} {m : Message}, marked t m = false → I t → I (t.apply m).1)

include happly

theorem act_unmarked (h : I e.terminal) (decoder : Decoder) {ms : List Message}
    (hnone : Machine.anyStep (fun t m => (t.apply m).1) marked e.terminal ms = false) :
    I (e.act decoder ms).terminal := by
  rw [act]
  split
  · exact h
  · rw [Terminal.applyAll_eq_run, Machine.run_fst]
    exact Machine.foldl_of_anyStep (fun _ _ hm ht => happly hm ht) h hnone

variable
  (hview : ∀ {t : Terminal} {offset : Screen → Nat},
    (∀ s, s.viewOffset ≤ s.history.size → offset s ≤ s.history.size) → I t →
      I (t.onScreen fun s => { s with viewOffset := offset s }))

include hview

/-- A call keeps what is kept by every message that is not marked, unless it changes the size. -/
theorem call_unmarked {c : Call}
    (hresize : ∀ size, c = .resize size → size.isValid = true →
      I (e.terminal.resize size.cols size.rows))
    (h : I e.terminal) (hnone : e.completesAny marked c = false) : I (e.call c).terminal := by
  cases c with
  | write bytes => exact act_unmarked happly h _ hnone
  | flush => exact act_unmarked happly h _ hnone
  | resize size =>
      rw [call_resize]
      split
      · rename_i hsize
        exact hresize size rfl hsize.1
      · exact h
  | viewUp n =>
      rw [call_viewUp]
      exact hview (fun s hs => s.offsetBack_le hs n) h
  | viewDown n =>
      show I (e.terminal.onScreen (·.viewDown n))
      exact hview (fun _ hs => Nat.le_trans (Nat.sub_le _ n) hs) h
  | viewReset =>
      show I (e.terminal.onScreen Screen.viewReset)
      exact hview (fun _ _ => Nat.zero_le _) h
  | takeEvents => exact h

theorem run_unmarked {calls : List Call}
    (hresize : ∀ {t : Terminal} size, .resize size ∈ calls → size.isValid = true → I t →
      I (t.resize size.cols size.rows))
    (h : I e.terminal) (hnone : e.runCompletesAny marked calls = false) :
    I (e.run calls).terminal := by
  induction calls generalizing e with
  | nil => exact h
  | cons c calls ih =>
      rw [runCompletesAny, Machine.anyStep, Bool.or_eq_false_iff] at hnone
      refine ih (fun size hmem => hresize size (List.mem_cons_of_mem c hmem)) ?_ hnone.2
      refine call_unmarked happly hview ?_ h hnone.1
      rintro size rfl hsize
      exact hresize size List.mem_cons_self hsize h

end Emulator

end VideoTerminal
