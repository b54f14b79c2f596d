import VideoTerminal.Proofs.ManagerCalls

/-!
# Restarting a session that has been resized

A session has a size, and options, which may ask for one.  Resizing changes the first and not the
second.  A restart goes by the options where they ask for a size, so it takes a session back to the
size it was started in; only where they ask for none does the session stay as large as it is.

`Resized` is how a session comes about that has been resized on its own or together with the
others of a manager, and otherwise left alone.
-/

namespace VideoTerminal

variable {D : Type} [TerminalDevice D]

namespace Session

/-- What happens to a session without anyone doing more to it than giving it input. -/
def Happening.IsQuiet {D : Type} : Happening D → Prop
  | .operation (.input _) | .arrival | .output _ => True
  | .operation _ => False

theorem SameSizes.happen (s : Session D) {what : Happening D} (hquiet : what.IsQuiet) :
    s.SameSizes (s.happen what) := by
  cases what with
  | operation o =>
      cases o with
      | input bytes => exact .input s bytes
      | _ => exact hquiet.elim
  | arrival => exact .settle s
  | output bytes => exact .feed s bytes

theorem isClosed_happen_of_isQuiet (s : Session D) {what : Happening D} (hquiet : what.IsQuiet) :
    (s.happen what).isClosed = s.isClosed := by
  cases what with
  | operation o =>
      cases o with
      | input bytes => exact s.isClosed_input bytes
      | _ => exact hquiet.elim
  | arrival => exact s.isClosed_settle
  | output bytes => rfl

/-- How a session comes about that was started with some options, and since then resized on its own
or by its manager. -/
inductive Resized (options : SessionOptions) : Session D → Prop
  | spawn {host : Host D} {id : SessionId} {size : Size} {s : Session D}
      (h : Session.spawn host id options size = .ok s) : Resized options s
  | resize {s : Session D} (h : Resized options s) (size : Size) : Resized options (s.resize size).1
  | broadcast {s u : Session D} (h : Resized options s) (size : Size) {m : Manager D}
      (hm : m.Reachable) (hs : m.get? s.id = some s)
      (hu : (m.broadcastResize size).1.get? s.id = some u) : Resized options u
  | happen {s : Session D} (h : Resized options s) {what : Happening D} (hquiet : what.IsQuiet) :
      Resized options (s.happen what)

end Session

namespace Manager

variable {m : Manager D} {s : Session D}

namespace Sound

/-- A manager that sends a size round does to each of its sessions what resizing it does. -/
theorem get?_broadcastResize (h : m.Sound) (size : Size) (id : SessionId) :
    (m.broadcastResize size).1.get? id = (m.get? id).map fun s => (s.resize size).1 := by
  rw [broadcastResize_eq]
  cases hsize : size.isValid with
  | false =>
      rw [broadcastIn_of_invalid hsize]
      cases m.get? id with
      | none => rfl
      | some s => rw [Option.map_some, s.resize_of_invalid hsize]
  | true =>
      rw [h.broadcastIn_of_valid hsize m.ids_perm]
      have hfound := session?_mapSessions (fun s => s.id_resize size) m id
      show (if id ∈ m.registry.registered then (m.mapSessions _).session? id else none) = _
      rw [get?, hfound]
      split <;> rfl

/-- A restart that a manager is asked for is one of its session. -/
theorem get?_restart (h : m.Sound) (hs : m.get? s.id = some s) (host : Host D)
    (options : Option SessionOptions) :
    (m.restart host s.id options).2 = (s.restart host options).2 ∧
    ∃ u, (m.restart host s.id options).1.get? s.id = some u ∧
      (s.restart host options).1.SameSizes u := by
  obtain ⟨hid, hs⟩ := get?_eq_some_iff.mp hs
  have hkeeps : ∀ s : Session D, (s.restart host options).1.id = s.id := fun s =>
    s.id_happen (.operation (.restart host options))
  have hfound := session?_mapSession hkeeps hs
  rw [← onSession_eq h.nodup_ids s.id hkeeps] at hfound
  rw [Manager.restart, if_pos hid]
  obtain ⟨houtcome, hcases⟩ := m.onCommand_cases s.id fun s => s.restart host options
  refine ⟨?_, ?_⟩
  · rw [houtcome, Manager.onSession, hs]
  · rcases hcases with heq | heq
    · refine ⟨_, get?_eq_some_iff.mpr ⟨?_, heq ▸ hfound⟩, .refl _⟩
      rwa [onCommand_registry]
    · refine ⟨_, get?_eq_some_iff.mpr ⟨?_, ?_⟩, .settle _⟩
      · rwa [onCommand_registry]
      · rw [heq]
        exact (session?_mapSessions (fun s => s.id_happen .arrival) _ _).trans
          (congrArg (Option.map Session.settle) hfound)

end Sound

end Manager

namespace Session

variable {s : Session D} {options : SessionOptions} {host : Host D}

/-- What holds of a session that has only been resized. -/
structure AsStarted (options : SessionOptions) (s : Session D) : Prop where
  sized : s.Sized
  options : s.options = options
  size : s.size = s.emulator.terminal.size
  isOpen : s.isClosed = false

namespace AsStarted

theorem spawn {id : SessionId} {size : Size} (h : Session.spawn host id options size = .ok s) :
    s.AsStarted options := by
  obtain ⟨hsized, hoptions, hsize⟩ := Sized.spawn h
  refine ⟨hsized, hoptions, hsize, ?_⟩
  rw [Session.spawn] at h
  split at h
  · cases h
  · split at h
    · cases h
    · cases h
      rfl

theorem resize (h : s.AsStarted options) (size : Size) : (s.resize size).1.AsStarted options := by
  have hsized := h.sized.resize size
  have hopen := (s.isClosed_resize size).trans h.isOpen
  rcases s.resize_cases size with ⟨-, heq⟩ | ⟨-, -, heq⟩ | ⟨-, -, _, hterminal, heq⟩
  · rwa [heq]
  · rwa [heq]
  · rw [heq] at hsized hopen ⊢
    exact ⟨hsized, h.options, hterminal.symm, hopen⟩

theorem happen (h : s.AsStarted options) {what : Happening D} (hquiet : what.IsQuiet) :
    (s.happen what).AsStarted options := by
  have hsame := SameSizes.happen s hquiet
  exact ⟨h.sized.sameSizes hsame, hsame.options.trans h.options,
    hsame.size.trans (h.size.trans hsame.terminal.symm),
    (s.isClosed_happen_of_isQuiet hquiet).trans h.isOpen⟩

end AsStarted

/-- **A session that has only been resized** is open and has the size of its terminal, and resizing
    has not reached its options. -/
theorem Resized.asStarted (hs : s.Resized options) : s.AsStarted options := by
  induction hs with
  | spawn h => exact .spawn h
  | resize _ size ih => exact ih.resize size
  | broadcast _ size hm hs hu ih =>
      rw [hm.sound.get?_broadcastResize, hs] at hu
      cases hu
      exact ih.resize size
  | happen _ hquiet ih => exact ih.happen hquiet

/-- A restart of an open session without new options, where the host starts its command. -/
theorem restart_of_open (hopen : s.isClosed = false) (hhost : host.refusal s.options = none) :
    let back := s.options.size.getD s.size
    (back.isValid = false →
      s.restart host none = ({ s with size := back }, .error (.size ⟨back⟩))) ∧
    (back.isValid = true → ∃ u, s.restart host none = (u, .ok ()) ∧ u.size = back ∧
      u.emulator.terminal.size = back ∧ ∃ c ∈ u.child, c.size = back) := by
  intro back
  rw [restart, hopen]
  dsimp only [Option.getD_none]
  refine ⟨fun hinvalid => ?_, fun hvalid => ?_⟩
  · rw [emulator_of_invalid hinvalid]
    rfl
  · obtain ⟨fresh, hfresh, hemulator⟩ := emulator_of_valid hvalid s.options
    rw [hemulator, Host.start, hhost]
    exact ⟨_, rfl, rfl, hfresh, _, rfl, rfl⟩

/-- **Restarting after resizing.**  However an open session has been resized, on its own or with the
    others, it has the size of its terminal.  A restart without new options goes by the options the
    session was started with.  If they ask for no size, it succeeds, and session, terminal and
    command have the size they had.  If they ask for one, the restart goes back to that; so the size
    is kept just when none is asked for or the session has this size anyway.  A manager that is
    asked for the restart of one of its sessions does this to it. -/
theorem restart_resized (hs : s.Resized options) (hhost : host.refusal options = none) :
    let back := options.size.getD s.size
    let r := s.restart host none
    (s.isClosed = false ∧ s.options = options ∧ s.size = s.emulator.terminal.size) ∧
    (back.isValid = true → r.2 = .ok () ∧ r.1.size = back ∧ r.1.emulator.terminal.size = back ∧
      ∃ c ∈ r.1.child, c.size = back) ∧
    (back.isValid = false → r = ({ s with size := back }, .error (.size ⟨back⟩))) ∧
    ((r.2 = .ok () ∧ r.1.size = s.size ∧
        r.1.emulator.terminal.size = s.emulator.terminal.size) ↔
      ∀ size ∈ options.size, size = s.size) ∧
    ∀ m : Manager D, m.Reachable → m.get? s.id = some s →
      (m.restart host s.id none).2 = r.2 ∧
      ∃ u, (m.restart host s.id none).1.get? s.id = some u ∧ u.size = r.1.size ∧
        u.emulator.terminal.size = r.1.emulator.terminal.size := by
  have h := hs.asStarted
  obtain rfl := h.options
  intro back r
  obtain ⟨hinvalid, hvalid⟩ := restart_of_open h.isOpen hhost
  have hback : back.isValid = true → r.2 = .ok () ∧ r.1.size = back ∧
      r.1.emulator.terminal.size = back ∧ ∃ c ∈ r.1.child, c.size = back := by
    intro hback
    obtain ⟨u, heq, hu⟩ := hvalid hback
    have hr : r = (u, .ok ()) := heq
    rw [hr]
    exact ⟨rfl, hu⟩
  -- also where it is refused
  have hrsize : r.1.size = back := by
    cases hsize : back.isValid with
    | false => exact congrArg (·.1.size) (hinvalid hsize)
    | true => exact (hback hsize).2.1
  refine ⟨⟨h.isOpen, rfl, h.size⟩, hback, hinvalid, ⟨?_, ?_⟩, ?_⟩
  · rintro ⟨-, hsize, -⟩ size hasked
    rw [← hsize, hrsize]
    show size = s.options.size.getD s.size
    rw [hasked]
    rfl
  · intro hasked
    have hsame : back = s.size := by
      show s.options.size.getD s.size = s.size
      cases hsize : s.options.size with
      | none => rfl
      | some size => exact hasked size hsize
    have hvalid' : back.isValid = true := by
      rw [hsame, h.size]
      exact h.sized.terminal
    obtain ⟨hok, -, hterminal, -⟩ := hback hvalid'
    exact ⟨hok, hrsize.trans hsame, hterminal.trans (hsame.trans h.size)⟩
  · intro m hm hmem
    obtain ⟨houtcome, u, hu, hsame⟩ := hm.sound.get?_restart hmem host none
    exact ⟨houtcome, u, hu, hsame.size, hsame.terminal⟩

/-- A session that was started without asking for a size is resized and restarted. -/
theorem restart_resized_kept :
    let host : Host LineDiscipline := ⟨fun _ => none, {}⟩
    ∃ s : Session LineDiscipline, s.Resized {} ∧ host.refusal {} = none ∧ s.size = ⟨30, 6⟩ ∧
      (s.restart host none).2 = .ok () ∧ (s.restart host none).1.size = ⟨30, 6⟩ ∧
      (s.restart host none).1.emulator.terminal.size = s.emulator.terminal.size := by
  intro host
  obtain ⟨new, hnew⟩ : ∃ new, spawn host 1 {} ⟨20, 5⟩ = .ok new := ⟨_, rfl⟩
  have hs : (new.resize ⟨30, 6⟩).1.Resized {} := .resize (.spawn hnew) ⟨30, 6⟩
  have hsize : (new.resize ⟨30, 6⟩).1.size = ⟨30, 6⟩ := by
    cases hnew
    rfl
  obtain ⟨-, -, -, hkept, -⟩ := restart_resized hs (show host.refusal {} = none from rfl)
  obtain ⟨hok, hkept, hterminal⟩ := hkept.mpr nofun
  exact ⟨_, hs, rfl, hsize, hok, hkept.trans hsize, hterminal⟩

/-- A session that was started in a size of its own is resized with the others.  By its restart it
    has the size again that it was started in, and so has its terminal. -/
theorem restart_resized_back :
    let host : Host LineDiscipline := ⟨fun _ => none, {}⟩
    let options : SessionOptions := { size := some ⟨20, 5⟩ }
    let m := ((Manager.new ⟨90, 20⟩).create host options).1
    ∃ s : Session LineDiscipline, (m.broadcastResize ⟨30, 6⟩).1.get? 1 = some s ∧
      s.Resized options ∧ host.refusal options = none ∧
      s.size = ⟨30, 6⟩ ∧ s.emulator.terminal.size = ⟨30, 6⟩ ∧
      (s.restart host none).2 = .ok () ∧ (s.restart host none).1.size = ⟨20, 5⟩ ∧
      (s.restart host none).1.emulator.terminal.size = ⟨20, 5⟩ := by
  intro host options m
  obtain ⟨new, hnew⟩ : ∃ new, spawn host 1 options ⟨20, 5⟩ = .ok new := ⟨_, rfl⟩
  have hm : m.Reachable := ⟨⟨90, 20⟩, [.create host options], rfl⟩
  have hfound : m.get? new.id = some new := by
    cases hnew
    rfl
  have hresized := hm.sound.get?_broadcastResize ⟨30, 6⟩ new.id
  rw [hfound] at hresized
  have hs : (new.resize ⟨30, 6⟩).1.Resized options :=
    .broadcast (.spawn hnew) ⟨30, 6⟩ hm hfound hresized
  refine ⟨_, spawn_id hnew ▸ hresized, hs, rfl, ?_⟩
  cases hnew
  decide +kernel

end Session

end VideoTerminal
