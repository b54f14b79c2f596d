import VideoTerminal.Proofs.Frame
import VideoTerminal.Proofs.Reachable

/-!
# Titles by hearsay

Whoever takes the events of an emulator can keep the last title and the last icon name that were
announced.  That is what the terminal has itself, with one exception: a full reset empties both and
announces nothing.

The exception is the only one.  A message that is not a full reset changes the titles just as its
events say (`Terminal.titles_apply`), so a listener who is told of full resets too, and forgets what
was heard then, has the titles of the terminal at any time (`Emulator.titles_run`).
-/

namespace VideoTerminal

/-- The title that an event announces. -/
def Event.title? : Event → Option String
  | .titleChanged title => some title
  | _ => none

/-- The icon name that an event announces. -/
def Event.iconName? : Event → Option String
  | .iconNameChanged iconName => some iconName
  | _ => none

/-- The title and the icon name that were announced last, empty where none was. -/
def Titles.lastIn (es : List Event) : Titles where
  title := (es.filterMap Event.title?).getLast?.getD ""
  iconName := (es.filterMap Event.iconName?).getLast?.getD ""

/-- A listener has what was announced last. -/
theorem Titles.hearAll_eq_lastIn (es : List Event) : hearAll {} es = lastIn es := by
  have hgeneral : ∀ x : Titles, x.hearAll es
      = ⟨(es.filterMap Event.title?).getLast?.getD x.title,
        (es.filterMap Event.iconName?).getLast?.getD x.iconName⟩ := by
    induction es with
    | nil => exact fun _ => rfl
    | cons e es ih =>
        intro x
        rw [hearAll_cons, ih]
        cases e <;> simp [hear, Event.title?, Event.iconName?, List.getLast?_cons]
  exact hgeneral {}

/-! ## Listening to a run -/

/-- What a listener is told who is told of full resets too. -/
inductive Notice where
  | event (e : Event)
  | fullReset
deriving DecidableEq

/-- The event that is told of. -/
def Notice.event? : Notice → Option Event
  | .event e => some e
  | .fullReset => none

/-- What a listener has who forgets everything at a full reset. -/
def Titles.learn (x : Titles) : Notice → Titles
  | .event e => x.hear e
  | .fullReset => {}

theorem Titles.foldl_learn_events (x : Titles) (es : List Event) :
    (es.map Notice.event).foldl Titles.learn x = x.hearAll es := by
  rw [List.foldl_map]
  rfl

namespace Terminal

/-- The effect of a message, with notice of a full reset. -/
def tell (t : Terminal) (m : Message) : Terminal × List Notice :=
  ((t.apply m).1,
    (if m.isFullReset then [.fullReset] else []) ++ (t.apply m).2.map Notice.event)

/-- A full reset has no event that could come behind its notice. -/
theorem titles_tell (t : Terminal) (m : Message) :
    (t.tell m).1.titles = (t.tell m).2.foldl Titles.learn t.titles := by
  rw [tell, List.foldl_append, Titles.foldl_learn_events]
  refine (titles_apply t m).trans ?_
  split
  · rename_i hreset
    cases m with
    | esc sequence => rfl
    | _ => cases hreset
  · rfl

theorem titles_run_tell (t : Terminal) (ms : List Message) :
    (Machine.run tell t ms).1.titles = (Machine.run tell t ms).2.foldl Titles.learn t.titles := by
  induction ms generalizing t with
  | nil => rfl
  | cons m ms ih =>
      rw [Machine.run_cons, List.foldl_append, ← titles_tell]
      exact ih _

/-- Telling of full resets changes nothing else. -/
theorem run_tell (t : Terminal) (ms : List Message) :
    (Machine.run tell t ms).1 = (Machine.run apply t ms).1 ∧
    (Machine.run tell t ms).2.filterMap Notice.event? = (Machine.run apply t ms).2 := by
  have hevents : ∀ m t, (tell t m).2.filterMap Notice.event? = (t.apply m).2 := by
    intro m t
    have hmap : ((t.apply m).2.map Notice.event).filterMap Notice.event? = (t.apply m).2 := by
      rw [List.filterMap_map]
      exact List.filterMap_some
    rw [tell, List.filterMap_append, hmap]
    split <;> rfl
  induction ms generalizing t with
  | nil => exact ⟨rfl, rfl⟩
  | cons m ms ih =>
      obtain ⟨hstate, hheard⟩ := ih (t.apply m).1
      rw [Machine.run_cons, Machine.run_cons, List.filterMap_append, hevents]
      exact ⟨hstate, congrArg _ hheard⟩

theorem fullReset_mem_run_tell (t : Terminal) (ms : List Message) :
    .fullReset ∈ (Machine.run tell t ms).2 ↔ ∃ m ∈ ms, m.isFullReset = true := by
  induction ms generalizing t with
  | nil => simp
  | cons m ms ih =>
      rw [Machine.run_cons, List.mem_append, ih]
      cases hm : m.isFullReset <;> simp [tell, hm]

end Terminal

namespace Emulator

/-- The events that a call hands out. -/
def handsOut (e : Emulator) : Call → List Event
  | .takeEvents => e.takeEvents.2.toList
  | _ => []

/-- The events that calls hand out. -/
def handedOut (e : Emulator) (calls : List Call) : List Event :=
  (Machine.run (fun e c => (e.call c, e.handsOut c)) e calls).2

/-- Whether the screen counts as updated by a call. -/
def updates (e : Emulator) : Call → Bool
  | .resize size => size.isValid && size != e.terminal.size
  | c => !(e.completed c).isEmpty

/-- What a call gives notice of. -/
def notices (e : Emulator) (c : Call) : List Notice :=
  (Machine.run Terminal.tell e.terminal (e.completed c)).2
    ++ if e.updates c then [.event .screenUpdated] else []

/-- What calls give notice of. -/
def noticesOf (e : Emulator) (calls : List Call) : List Notice :=
  (Machine.run (fun e c => (e.call c, e.notices c)) e calls).2

theorem act_terminal (e : Emulator) (decoder : Decoder) (ms : List Message) :
    (e.act decoder ms).terminal = (Machine.run Terminal.tell e.terminal ms).1 := by
  rw [act, (Terminal.run_tell e.terminal ms).1]
  split
  · rename_i hnone
    rw [List.isEmpty_iff.mp hnone]
    rfl
  · rw [Terminal.applyAll_eq_run]

/-- What a call queues is what it gives notice of; what it hands out was queued before. -/
theorem events_call (e : Emulator) (c : Call) :
    e.handsOut c ++ (e.call c).events.toList
      = e.events.toList ++ (e.notices c).filterMap Notice.event? := by
  have hact : ∀ decoder ms, (e.act decoder ms).events.toList
      = e.events.toList ++ ((Machine.run Terminal.tell e.terminal ms).2
        ++ if !ms.isEmpty then [Notice.event .screenUpdated] else []).filterMap Notice.event? := by
    intro decoder ms
    rw [act_events, List.filterMap_append, (Terminal.run_tell e.terminal ms).2,
      List.append_assoc]
    cases ms.isEmpty <;> rfl
  cases c with
  | write bytes => exact hact _ _
  | flush => exact hact _ _
  | resize size =>
      show (e.call (.resize size)).events.toList = e.events.toList
        ++ (if size.isValid && size != e.terminal.size then [Notice.event .screenUpdated]
          else []).filterMap Notice.event?
      rw [call_resize]
      by_cases hresized : size.isValid = true ∧ size ≠ e.terminal.size
      · rw [if_pos hresized, if_pos (by simpa using hresized)]
        simp [Notice.event?]
      · rw [if_neg hresized, if_neg (by simpa using hresized)]
        simp
  | takeEvents => simp [handsOut, call, takeEvents, notices, completed, updates]
  | viewUp n =>
      rw [call_viewUp]
      exact (List.append_nil _).symm
  | _ => exact (List.append_nil _).symm

/-- A change of size and a motion of the view have nothing to do with titles. -/
theorem titles_call (e : Emulator) (c : Call) :
    (e.call c).terminal.titles = (e.notices c).foldl Titles.learn e.terminal.titles := by
  have hact : ∀ decoder ms, (e.act decoder ms).terminal.titles
      = ((Machine.run Terminal.tell e.terminal ms).2
        ++ if !ms.isEmpty then [Notice.event .screenUpdated] else []).foldl Titles.learn
          e.terminal.titles := by
    intro decoder ms
    rw [act_terminal, List.foldl_append, ← Terminal.titles_run_tell]
    cases ms.isEmpty <;> rfl
  have hview : ∀ view : Screen → Screen, (e.onView view).terminal.titles = e.terminal.titles :=
    fun _ =>
    congrArg Terminal.Frame.titles ((Terminal.blind_frame e.terminal.frame).onScreen rfl)
  cases c with
  | write bytes => exact hact _ _
  | flush => exact hact _ _
  | resize size =>
      show _ = (if size.isValid && size != e.terminal.size then [Notice.event .screenUpdated]
        else []).foldl Titles.learn e.terminal.titles
      rw [call_resize]
      by_cases hresized : size.isValid = true ∧ size ≠ e.terminal.size
      · rw [if_pos hresized, if_pos (by simpa using hresized)]
        rfl
      · rw [if_neg hresized, if_neg (by simpa using hresized)]
        rfl
  | viewUp n =>
      rw [call_viewUp]
      exact hview _
  | viewDown n => exact hview _
  | viewReset => exact hview _
  | takeEvents => rfl

/-! ## Runs -/

theorem run_cons (e : Emulator) (c : Call) (calls : List Call) :
    e.run (c :: calls) = (e.call c).run calls := rfl

theorem noticesOf_cons (e : Emulator) (c : Call) (calls : List Call) :
    e.noticesOf (c :: calls) = e.notices c ++ (e.call c).noticesOf calls := rfl

/-- Every event of a run is handed out or still queued, in order. -/
theorem events_run (e : Emulator) (calls : List Call) :
    e.handedOut calls ++ (e.run calls).events.toList
      = e.events.toList ++ (e.noticesOf calls).filterMap Notice.event? := by
  induction calls generalizing e with
  | nil => exact (List.append_nil _).symm
  | cons c calls ih =>
      calc e.handedOut (c :: calls) ++ (e.run (c :: calls)).events.toList
          = e.handsOut c ++ ((e.call c).handedOut calls
              ++ ((e.call c).run calls).events.toList) := List.append_assoc _ _ _
        _ = (e.handsOut c ++ (e.call c).events.toList)
              ++ ((e.call c).noticesOf calls).filterMap Notice.event? := by
            rw [ih, List.append_assoc]
        _ = e.events.toList ++ (e.noticesOf (c :: calls)).filterMap Notice.event? := by
            rw [events_call, noticesOf_cons, List.filterMap_append, List.append_assoc]

theorem titles_run (e : Emulator) (calls : List Call) :
    (e.run calls).terminal.titles = (e.noticesOf calls).foldl Titles.learn e.terminal.titles := by
  induction calls generalizing e with
  | nil => rfl
  | cons c calls ih => rw [run_cons, noticesOf_cons, List.foldl_append, ih, titles_call]

theorem fullReset_mem_noticesOf (e : Emulator) (calls : List Call) :
    .fullReset ∈ e.noticesOf calls ↔ ∃ m ∈ e.completedBy calls, m.isFullReset = true := by
  have hnotices : ∀ (e : Emulator) c,
      .fullReset ∈ e.notices c ↔ ∃ m ∈ e.completed c, m.isFullReset = true := by
    intro e c
    rw [notices, List.mem_append, Terminal.fullReset_mem_run_tell]
    cases e.updates c <;> simp
  induction calls generalizing e with
  | nil => simp [noticesOf, completedBy]
  | cons c calls ih =>
      have hnext := or_congr (hnotices e c) (ih (e.call c))
      rw [noticesOf_cons, List.mem_append, hnext]
      show _ ↔ ∃ m ∈ e.completed c ++ (e.call c).completedBy calls, m.isFullReset = true
      simp only [List.mem_append, or_and_right, exists_or]

/-- Without a full reset, all that is told of is events. -/
theorem foldl_learn_eq (x : Titles) {notices : List Notice} (hnone : .fullReset ∉ notices) :
    notices.foldl Titles.learn x = x.hearAll (notices.filterMap Notice.event?) := by
  induction notices generalizing x with
  | nil => rfl
  | cons n notices ih =>
      rw [List.mem_cons, not_or] at hnone
      cases n with
      | event e => exact ih (x.hear e) hnone.2
      | fullReset => exact absurd rfl hnone.1

/-- **Titles are what was announced last, but for full resets.**  A listener takes events whenever
    it likes, and those still queued at the end.  If no message was a full reset, the listener has
    the title and the icon name of the terminal: those announced last, or none.  And in any case
    they are what a listener has who is told of the same events and of full resets, and forgets
    at each of these what was heard before. -/
theorem run_titles {size : Size} (hsize : size.isValid = true) (limit : Nat) (sgr21 : Sgr21)
    (calls : List Call) :
    ∃ e, create size limit sgr21 = .ok e ∧
      let heard := e.handedOut calls ++ (e.run calls).events.toList
      let told := e.noticesOf calls
      ((∀ m ∈ e.completedBy calls, m.isFullReset = false) →
        (e.run calls).terminal.titles = .lastIn heard) ∧
      (e.run calls).terminal.titles = told.foldl Titles.learn {} ∧
      told.filterMap Notice.event? = heard ∧
      (.fullReset ∈ told ↔ ∃ m ∈ e.completedBy calls, m.isFullReset = true) := by
  refine ⟨_, create_of_valid hsize limit sgr21, ?_⟩
  intro heard told
  have htold : told.filterMap Notice.event? = heard := by
    show _ = handedOut _ calls ++ _
    rw [events_run]
    rfl
  have htitles := titles_run { terminal := Terminal.new size.cols size.rows limit sgr21 } calls
  refine ⟨?_, htitles, htold, fullReset_mem_noticesOf _ calls⟩
  intro hnone
  have hmem : .fullReset ∉ told := by
    intro hmem
    obtain ⟨m, hm, hreset⟩ := (fullReset_mem_noticesOf _ calls).mp hmem
    rw [hnone m hm] at hreset
    cases hreset
  rw [← htold, ← Titles.hearAll_eq_lastIn, ← foldl_learn_eq _ hmem]
  exact htitles

/-- Events taken in between, titles put aside and taken back, and a command cut short by the end. -/
theorem run_titles_taken_back :
    let size : Size := ⟨4, 2⟩
    let calls : List Call := [
      .write (Utf8.ofString "\x1b]0;a\x07\x1b[22t\x1b]2;"), .takeEvents,
      .write (Utf8.ofString "b\x07\x1b]1;c\x1b\\"), .resize ⟨9, 1⟩,
      .write (Utf8.ofString "\x1b[23t"), .takeEvents, .write (Utf8.ofString "\x1b]2;d"), .flush]
    size.isValid = true ∧ ∃ e, create size 0 .cancelBold = .ok e ∧
      (∀ m ∈ e.completedBy calls, m.isFullReset = false) ∧
      .lastIn (e.handedOut calls ++ (e.run calls).events.toList) = Titles.mk "d" "a" ∧
      (e.run calls).terminal.titles = ⟨"d", "a"⟩ := by
  intro size calls
  have hsize : size.isValid = true := by decide
  obtain ⟨e, he, hheard, -⟩ := run_titles hsize 0 .cancelBold calls
  obtain rfl := Except.ok.inj (he.symm.trans (create_of_valid hsize 0 .cancelBold))
  have hnone : ∀ m ∈ completedBy { terminal := Terminal.new 4 2 0 .cancelBold } calls,
      m.isFullReset = false := by
    decide +kernel
  have hlast : .lastIn (handedOut { terminal := Terminal.new 4 2 0 .cancelBold } calls
      ++ (run { terminal := Terminal.new 4 2 0 .cancelBold } calls).events.toList)
        = Titles.mk "d" "a" := by
    decide +kernel
  exact ⟨hsize, _, he, hnone, hlast, (hheard hnone).trans hlast⟩

/-- A full reset empties both titles, and a listener is not told. -/
theorem run_titles_fullReset :
    let calls : List Call := [.write (Utf8.ofString "\x1b]0;hi\x07"), .takeEvents,
      .write (Utf8.ofString "\x1bc"), .takeEvents]
    ∃ e, create ⟨4, 2⟩ 0 .cancelBold = .ok e ∧
      (e.run calls).terminal.titles = ⟨"", ""⟩ ∧ (e.run calls).events = #[] ∧
      .lastIn (e.handedOut calls) = Titles.mk "hi" "hi" := by
  refine ⟨_, create_of_valid (by decide) 0 .cancelBold, ?_⟩
  decide +kernel

end Emulator

end VideoTerminal
