import Mathlib.Data.List.Nodup
import VideoTerminal.Proofs.Interleaving
import VideoTerminal.Proofs.SessionCalls

/-!
# Calls of a manager, one after the other

Here each call of a manager has returned before the next one is made.  In between, whoever has got
hold of a session may do with it whatever a session allows, or close it without the manager knowing.

What holds of all managers that come about like this is `Sound`: every session has a number of its
own, every registered number is that of a session, and a session that is no longer registered has
been closed.  One call keeps it, so a row of calls does.  Then sessions can be looked up by their
numbers, and what is done to one of them is done to no other.

The main result is about a size that is sent round.  It is tried on all registered sessions, in an
order that is not specified, and the first failure is given back.  So the order decides which
failure that is, and nothing else.
-/

namespace VideoTerminal

variable {D : Type} [TerminalDevice D]

namespace Manager

/-! ## Calls -/

/-- What can be done with a manager, and with a session that somebody has got hold of.  The hosts
answer for the system at that time. -/
inductive Operation (D : Type) where
  | create (host : Host D) (options : SessionOptions)
  | close (id : SessionId)
  | switch (id : SessionId)
  | restart (host : Host D) (id : SessionId) (options : Option SessionOptions)
  | broadcast (size : Size)
  /-- Something happens to one session, past the manager. -/
  | onHeld (id : SessionId) (what : Session.Happening D)
  /-- Whoever has got hold of a session does something to its emulator. -/
  | onEmulator (id : SessionId) (f : Emulator → Emulator)
  /-- Everything arrives that is on its way. -/
  | arrival

/-- The manager behind an operation. -/
def operate (m : Manager D) : Operation D → Manager D
  | .create host options => (m.create host options).1
  | .close id => (m.close id).1
  | .switch id => (m.switch id).1
  | .restart host id options => (m.restart host id options).1
  | .broadcast size => (m.broadcastResize size).1
  | .onHeld id what => (m.onSession id fun s => (s.happen what, .ok ())).1
  | .onEmulator id f => (m.onSession id fun s => ({ s with emulator := f s.emulator }, .ok ())).1
  | .arrival => m.settle

/-- The manager behind all operations, in order. -/
def after (m : Manager D) (os : List (Operation D)) : Manager D := os.foldl operate m

/-- The same operation on every session. -/
def mapSessions (m : Manager D) (g : Session D → Session D) : Manager D :=
  { m with sessions := m.sessions.map g }

/-- An operation on the session of a number, which leaves the others alone. -/
def mapSession (m : Manager D) (id : SessionId) (g : Session D → Session D) : Manager D :=
  m.mapSessions fun s => if s.id = id then g s else s

/-! ## What holds at any time -/

/-- What holds of a manager between calls. -/
structure Sound (m : Manager D) : Prop where
  consistent : m.registry.Consistent
  nodup_registered : m.registry.registered.Nodup
  nodup_ids : (m.sessions.map Session.id).Nodup
  fresh : ∀ s ∈ m.sessions, s.id < m.registry.nextId
  known : ∀ id ∈ m.registry.registered, id ∈ m.sessions.map Session.id
  isOpen : ∀ s ∈ m.sessions, s.isClosed = false → s.id ∈ m.registry.registered

variable {m : Manager D} {id : SessionId} {s : Session D} {g : Session D → Session D}

/-- What keeps the numbers of sessions may be done before one is looked up, or after. -/
theorem session?_mapSessions (hid : ∀ s, (g s).id = s.id) (m : Manager D) (id : SessionId) :
    (m.mapSessions g).session? id = (m.session? id).map g := by
  show (m.sessions.map g).find? _ = _
  rw [List.find?_map]
  congr 2
  funext s
  rw [Function.comp_apply, hid]

/-- What is done to one session keeps the numbers too. -/
theorem id_ite (hid : ∀ s, (g s).id = s.id) (id : SessionId) (s : Session D) :
    (if s.id = id then g s else s).id = s.id := by
  split
  · exact hid s
  · rfl

/-- The session of a number is found changed. -/
theorem session?_mapSession (hid : ∀ s, (g s).id = s.id) (hs : m.session? id = some s) :
    (m.mapSession id g).session? id = some (g s) := by
  rw [mapSession, session?_mapSessions (id_ite hid id), hs, Option.map_some,
    if_pos (mem_of_session? hs).2]

/-- What is done to the session of a number is done to no other. -/
theorem onSession_eq (hids : (m.sessions.map Session.id).Nodup) {α : Type} (id : SessionId)
    {f : Session D → Session D × Except SessionError α} (hid : ∀ s, (f s).1.id = s.id) :
    (m.onSession id f).1 = m.mapSession id fun s => (f s).1 := by
  rw [onSession]
  cases hs : m.session? id with
  | none =>
      have hsame : (m.sessions.map fun s => if s.id = id then (f s).1 else s) = m.sessions := by
        refine (List.map_congr_left fun s hmem => if_neg ?_).trans (List.map_id _)
        simpa using List.find?_eq_none.mp hs s hmem
      rw [mapSession, mapSessions, hsame]
  | some s =>
      obtain ⟨hmem, rfl⟩ := mem_of_session? hs
      dsimp only
      rw [replace, mapSession, mapSessions, hid]
      congr 1
      refine List.map_congr_left fun t ht => ?_
      by_cases hts : t.id = s.id
      · rw [if_pos hts, if_pos hts, List.inj_on_of_nodup_map hids ht hmem hts]
      · rw [if_neg hts, if_neg hts]

namespace Sound

/-- In a sound manager the session that is found is the one of the number. -/
theorem session?_eq_some_iff (h : m.Sound) :
    m.session? id = some s ↔ s ∈ m.sessions ∧ s.id = id := by
  constructor
  · exact mem_of_session?
  · rintro ⟨hs, rfl⟩
    cases hfound : m.session? s.id with
    | none =>
        have hnone := List.find?_eq_none.mp hfound s hs
        simp at hnone
    | some u =>
        obtain ⟨hu, hid⟩ := mem_of_session? hfound
        rw [List.inj_on_of_nodup_map h.nodup_ids hu hs hid]

/-- Every registered session is found. -/
theorem exists_session? (h : m.Sound) (hid : id ∈ m.registry.registered) :
    ∃ s, m.session? id = some s := by
  obtain ⟨s, hs, rfl⟩ := List.mem_map.mp (h.known id hid)
  exact ⟨s, h.session?_eq_some_iff.mpr ⟨hs, rfl⟩⟩

/-! ### One call -/

/-- A new manager has no sessions. -/
theorem new (defaultSize : Size) : (Manager.new defaultSize : Manager D).Sound where
  consistent := .new defaultSize
  nodup_registered := List.nodup_nil
  nodup_ids := List.nodup_nil
  fresh := fun _ hs => absurd hs List.not_mem_nil
  known := fun _ hid => absurd hid List.not_mem_nil
  isOpen := fun _ hs => absurd hs List.not_mem_nil

/-- Sessions may change in place, as long as none is opened again. -/
theorem mapSessions (h : m.Sound) (hid : ∀ s, (g s).id = s.id)
    (hclosed : ∀ s, s.isClosed = true → (g s).isClosed = true) : (m.mapSessions g).Sound := by
  have hids : (m.sessions.map g).map Session.id = m.sessions.map Session.id := by
    rw [List.map_map]
    exact List.map_congr_left fun s _ => hid s
  refine ⟨h.consistent, h.nodup_registered, ?_, ?_, ?_, ?_⟩
  · show ((m.sessions.map g).map Session.id).Nodup
    rw [hids]
    exact h.nodup_ids
  · intro s hs
    obtain ⟨t, ht, rfl⟩ := List.mem_map.mp hs
    rw [hid]
    exact h.fresh t ht
  · intro id hmem
    show id ∈ (m.sessions.map g).map Session.id
    rw [hids]
    exact h.known id hmem
  · intro s hs hopen
    obtain ⟨t, ht, rfl⟩ := List.mem_map.mp hs
    rw [hid]
    refine h.isOpen t ht (Bool.eq_false_iff.mpr fun hclosed' => ?_)
    rw [hclosed t hclosed'] at hopen
    cases hopen

/-- One session may change, as long as it is not opened again. -/
theorem mapSession (h : m.Sound) (id : SessionId) (hid : ∀ s, (g s).id = s.id)
    (hclosed : ∀ s, s.isClosed = true → (g s).isClosed = true) : (m.mapSession id g).Sound := by
  refine h.mapSessions (id_ite hid id) fun s hs => ?_
  split
  · exact hclosed s hs
  · exact hs

/-- The same for what gives an outcome. -/
theorem onSession (h : m.Sound) {α : Type} (id : SessionId)
    {f : Session D → Session D × Except SessionError α} (hid : ∀ s, (f s).1.id = s.id)
    (hclosed : ∀ s, s.isClosed = true → (f s).1.isClosed = true) : (m.onSession id f).1.Sound := by
  rw [onSession_eq h.nodup_ids id hid]
  exact h.mapSession id hid hclosed

/-- Whatever happens to one session. -/
theorem happen (h : m.Sound) (id : SessionId) (what : Session.Happening D) :
    (m.onSession id fun s => (s.happen what, Except.ok (ε := SessionError) ())).1.Sound :=
  h.onSession id (fun s => s.id_happen what) fun _ hs => Session.isClosed_happen hs what

/-- What arrives in the sessions opens none. -/
theorem settle (h : m.Sound) : m.settle.Sound :=
  h.mapSessions (g := Session.settle) (fun s => s.id_happen .arrival)
    fun s hs => (s.isClosed_settle).trans hs

end Sound

/-- Nothing but one session changes, and then everything may arrive that is on its way. -/
theorem onCommand_cases (m : Manager D) (id : SessionId)
    (f : Session D → Session D × Except SessionError Unit) :
    (m.onCommand id f).2 = (m.onSession id f).2 ∧
    ((m.onCommand id f).1 = (m.onSession id f).1 ∨
      (m.onCommand id f).1 = (m.onSession id f).1.settle) := by
  rw [onCommand]
  cases h : m.onSession id f with
  | mk n outcome =>
      cases outcome with
      | error e =>
          dsimp only
          split
          · exact ⟨rfl, .inl rfl⟩
          · exact ⟨rfl, .inr rfl⟩
      | ok _ => exact ⟨rfl, .inr rfl⟩

namespace Sound

/-- An operation on a session that stops its command, with what arrives after it. -/
theorem onCommand (h : m.Sound) (id : SessionId) (o : Session.Operation D) :
    (m.onCommand id fun s => s.operate o).1.Sound := by
  have hsession : (m.onSession id fun s => s.operate o).1.Sound :=
    h.onSession id (fun s => s.id_happen (.operation o))
      fun _ hs => Session.isClosed_happen hs (.operation o)
  rcases (m.onCommand_cases id fun s => s.operate o).2 with heq | heq
  · rwa [heq]
  · rw [heq]
    exact hsession.settle

/-- A new session has a number that none has, and is registered. -/
theorem register (h : m.Sound) (hnew : s.id ∉ m.sessions.map Session.id)
    (hfresh : s.id < m.registry.nextId) : (m.register s).Sound := by
  have hunregistered : s.id ∉ m.registry.registered := fun hmem => hnew (h.known s.id hmem)
  have hregistered : (m.registry.register s.id).registered = m.registry.registered ++ [s.id] :=
    (h.consistent.register_recent s.id).2
  have hnextId : (m.registry.register s.id).nextId = m.registry.nextId := by
    rw [Registry.register]
    dsimp only
    split <;> rfl
  refine ⟨h.consistent.register hunregistered, ?_, ?_, ?_, ?_, ?_⟩
  · show (m.registry.register s.id).registered.Nodup
    rw [hregistered, ← List.concat_eq_append]
    exact h.nodup_registered.concat hunregistered
  · show ((m.sessions ++ [s]).map Session.id).Nodup
    rw [List.map_append, List.map_singleton, ← List.concat_eq_append]
    exact h.nodup_ids.concat hnew
  · intro t ht
    show t.id < (m.registry.register s.id).nextId
    rw [hnextId]
    rcases List.mem_append.mp ht with ht | ht
    · exact h.fresh t ht
    · rwa [List.mem_singleton.mp ht]
  · intro id hid
    show id ∈ (m.sessions ++ [s]).map Session.id
    rw [List.map_append]
    rcases List.mem_append.mp (hregistered ▸ hid) with hid | hid
    · exact List.mem_append_left _ (h.known id hid)
    · exact List.mem_append_right _ hid
  · intro t ht hopen
    show t.id ∈ (m.registry.register s.id).registered
    rw [hregistered]
    rcases List.mem_append.mp ht with ht | ht
    · exact List.mem_append_left _ (h.isOpen t ht hopen)
    · rw [List.mem_singleton.mp ht]
      exact List.mem_append_right _ (List.mem_singleton_self _)

/-- A number is used up also where the command does not start. -/
theorem create (h : m.Sound) (host : Host D) (options : SessionOptions) :
    (m.create host options).1.Sound := by
  have hreserved : ({ m with registry := m.registry.reserve.2.2 } : Manager D).Sound :=
    { h with
      consistent := h.consistent.reserve
      fresh := fun s hs => Nat.lt_succ_of_lt (h.fresh s hs) }
  rw [Manager.create]
  dsimp only [Registry.reserve]
  split
  · exact hreserved
  · rename_i s hspawn
    have hid : s.id = m.registry.nextId := Session.spawn_id hspawn
    refine hreserved.settle.register ?_ (hid ▸ Nat.lt_succ_self _)
    intro hmem
    -- all numbers that have been given out are smaller
    obtain ⟨t, ht, hts⟩ := List.mem_map.mp hmem
    obtain ⟨u, hu, rfl⟩ := List.mem_map.mp ht
    have hlt : u.id < m.registry.nextId := h.fresh u hu
    rw [(Session.SameSizes.settle u).id, hid] at hts
    exact absurd hts (Nat.ne_of_lt hlt)

/-- A session is removed once it has been closed. -/
theorem remove (h : m.Sound) {registry : Registry}
    (hremoved : m.registry.remove? id = some registry)
    (hclosed : ∀ s ∈ m.sessions, s.id = id → s.isClosed = true) :
    ({ m with registry } : Manager D).Sound := by
  have hconsistent := h.consistent.remove hremoved
  obtain ⟨-, rfl⟩ := Registry.remove?_eq_some hremoved
  refine { h with
    consistent := hconsistent
    nodup_registered := h.nodup_registered.filter _
    known := fun other hother => h.known other (List.mem_filter.mp hother).1
    isOpen := ?_ }
  intro s hs hopen
  refine List.mem_filter.mpr ⟨h.isOpen s hs hopen, bne_iff_ne.mpr fun hid => ?_⟩
  rw [hclosed s hs hid] at hopen
  cases hopen

/-- A session that is closed is no longer registered. -/
theorem close (h : m.Sound) (id : SessionId) : (m.close id).1.Sound := by
  rw [Manager.close]
  cases hremoved : m.registry.remove? id with
  | none => exact h
  | some registry =>
      -- the number is forgotten first, but that makes no difference to the session
      have hid : ∀ s : Session D, s.close.1.id = s.id := fun s => (Session.SameSizes.close s).id
      have hsessions : (m.mapSession id fun s => s.close.1).Sound :=
        h.mapSession id hid fun s _ => s.isClosed_close
      have hclosed : ({ m.mapSession id fun s => s.close.1 with registry } : Manager D).Sound := by
        refine hsessions.remove hremoved fun s hs hs' => ?_
        obtain ⟨t, -, rfl⟩ := List.mem_map.mp hs
        split
        · exact t.isClosed_close
        · rename_i hne
          rw [if_neg hne] at hs'
          exact absurd hs' hne
      have honSession : (Manager.onSession { m with registry } id Session.close).1
          = { m.mapSession id fun s => s.close.1 with registry } :=
        onSession_eq (m := { m with registry }) h.nodup_ids id hid
      dsimp only
      rcases (onCommand_cases { m with registry } id Session.close).2 with heq | heq
      · rw [heq, honSession]
        exact hclosed
      · rw [heq, honSession]
        exact hclosed.settle

/-- Another session is made the active one. -/
theorem switch (h : m.Sound) (id : SessionId) : (m.switch id).1.Sound := by
  rw [Manager.switch]
  cases hswitched : m.registry.switch? id with
  | none => exact h
  | some registry =>
      obtain ⟨hid, rfl⟩ := Registry.switch?_eq_some hswitched
      exact { h with consistent := h.consistent.activate hid }

/-- A session that is restarted keeps its number. -/
theorem restart (h : m.Sound) (host : Host D) (id : SessionId) (options : Option SessionOptions) :
    (m.restart host id options).1.Sound := by
  rw [Manager.restart]
  split
  · exact h.onCommand id (.restart host options)
  · exact h

/-- The default size is no matter of the sessions. -/
theorem setDefaultSize (h : m.Sound) (size : Size) :
    ({ m with registry := m.registry.setDefaultSize size } : Manager D).Sound :=
  { h with consistent := h.consistent.setDefaultSize size }

end Sound

/-! ## Sending a size round -/

/-- A size is sent round with the sessions in the given order. -/
def broadcastIn (m : Manager D) (size : Size) (order : List SessionId) :
    Manager D × Except SessionError Unit :=
  match size.check with
  | .error e => (m, .error (.size e))
  | .ok () => { m with registry := m.registry.setDefaultSize size }.resizeEach size order

/-- The first of some sessions that is closed. -/
def firstClosed? (m : Manager D) (ids : List SessionId) : Option SessionId :=
  ids.find? fun id => (m.session? id).any Session.isClosed

/-- What changes no session changes nothing. -/
theorem mapSessions_eq_self (hg : ∀ s ∈ m.sessions, g s = s) : m.mapSessions g = m := by
  rw [mapSessions, List.map_congr_left hg, List.map_id']

/-- A session is resized, and all others are left alone. -/
theorem Sound.resize (h : m.Sound) (size : Size) (id : SessionId) :
    (m.onSession id fun s => s.resize size).1 = m.mapSession id (fun s => (s.resize size).1) ∧
      (m.mapSession id fun s => (s.resize size).1).Sound :=
  ⟨onSession_eq h.nodup_ids id fun s => s.id_resize size,
    h.mapSession id (fun s => s.id_resize size) fun s hs => (s.isClosed_resize size).trans hs⟩

/-- Resizing some sessions, each of them once, changes these and no others. -/
theorem Sound.resizeEach_eq (h : m.Sound) (size : Size) {ids : List SessionId}
    (hids : ids.Nodup) :
    (m.resizeEach size ids).1
      = m.mapSessions fun s => if s.id ∈ ids then (s.resize size).1 else s := by
  induction ids generalizing m with
  | nil => exact (mapSessions_eq_self fun s _ => if_neg List.not_mem_nil).symm
  | cons id ids ih =>
      obtain ⟨hid, hids⟩ := List.nodup_cons.mp hids
      obtain ⟨hfirst, hsound⟩ := h.resize size id
      rw [resizeEach]
      dsimp only
      rw [hfirst, ih hsound hids, Manager.mapSession, Manager.mapSessions, Manager.mapSessions,
        Manager.mapSessions, List.map_map]
      refine congrArg (Manager.mk m.registry) (List.map_congr_left fun s _ => ?_)
      rw [Function.comp_apply]
      by_cases hs : s.id = id
      · -- it has its turn, and no second one
        rw [if_pos hs, s.id_resize, hs, if_neg hid, if_pos List.mem_cons_self]
      · rw [if_neg hs]
        by_cases hmem : s.id ∈ ids
        · rw [if_pos hmem, if_pos (List.mem_cons_of_mem _ hmem)]
        · rw [if_neg hmem, if_neg fun hmem' => (List.mem_cons.mp hmem').elim hs hmem]

/-- A session is got by its number if it is registered. -/
theorem get?_eq_some_iff :
    m.get? id = some s ↔ id ∈ m.registry.registered ∧ m.session? id = some s := by
  rw [get?]
  split
  · rename_i hid
    exact ⟨fun h => ⟨hid, h⟩, And.right⟩
  · rename_i hid
    exact ⟨fun h => (by cases h), fun h => absurd h.1 hid⟩

/-- There is no such session just when every registered one is open. -/
theorem firstClosed?_eq_none_iff {order : List SessionId}
    (horder : order.Perm m.registry.registered) :
    m.firstClosed? order = none ↔ ∀ id s, m.get? id = some s → s.isClosed = false := by
  rw [firstClosed?, List.find?_eq_none]
  constructor
  · intro h id s hs
    obtain ⟨hid, hs⟩ := get?_eq_some_iff.mp hs
    have hopen := h id (horder.mem_iff.mpr hid)
    rw [hs] at hopen
    exact Bool.eq_false_iff.mpr hopen
  · intro h id hid hclosed
    obtain ⟨s, hs, hclosed⟩ := (Option.any_eq_true _ _).mp hclosed
    rw [h id s (get?_eq_some_iff.mpr ⟨horder.mem_iff.mp hid, hs⟩)] at hclosed
    cases hclosed

/-- The first closed session is a registered one, and closed. -/
theorem exists_of_firstClosed? {order : List SessionId}
    (horder : order.Perm m.registry.registered) (h : m.firstClosed? order = some id) :
    ∃ s, m.get? id = some s ∧ s.isClosed = true := by
  have hclosed : (m.session? id).any Session.isClosed = true :=
    List.find?_some (p := fun id => (m.session? id).any Session.isClosed) h
  obtain ⟨s, hs, hclosed⟩ := (Option.any_eq_true _ _).mp hclosed
  have hid : id ∈ m.registry.registered := horder.mem_iff.mp (List.mem_of_find?_eq_some h)
  exact ⟨s, get?_eq_some_iff.mpr ⟨hid, hs⟩, hclosed⟩

/-- What does not open or close sessions does not change which of them is the first closed one. -/
theorem firstClosed?_mapSessions (hid : ∀ s, (g s).id = s.id)
    (hclosed : ∀ s, (g s).isClosed = s.isClosed) (m : Manager D) (ids : List SessionId) :
    (m.mapSessions g).firstClosed? ids = m.firstClosed? ids := by
  rw [firstClosed?, firstClosed?]
  congr 1
  funext id
  rw [session?_mapSessions hid, Option.any_map]
  congr 1
  funext s
  exact hclosed s

/-- **The outcome of resizing sessions** is the failure of the first one that is closed. -/
theorem Sound.resizeEach_outcome (h : m.Sound) {size : Size} (hsize : size.isValid = true)
    {ids : List SessionId} (hids : ∀ id ∈ ids, id ∈ m.registry.registered) :
    (m.resizeEach size ids).2
      = match m.firstClosed? ids with
        | none => .ok ()
        | some id => .error (.closed id) := by
  induction ids generalizing m with
  | nil => rfl
  | cons id ids ih =>
      obtain ⟨s, hs⟩ := h.exists_session? (hids id List.mem_cons_self)
      obtain ⟨hchanged, hsound⟩ := h.resize size id
      have hfirst : (m.onSession id fun s => s.resize size).2 = (s.resize size).2 := by
        rw [Manager.onSession, hs]
      rw [resizeEach, firstClosed?]
      dsimp only
      rw [hfirst]
      cases hclosed : s.isClosed with
      | true =>
          rw [Session.resize_of_closed hclosed, (mem_of_session? hs).2,
            List.find?_cons_of_pos (by rw [hs]; exact hclosed)]
      | false =>
          obtain ⟨u, hresized, -⟩ := Session.resize_of_open hclosed hsize
          rw [hresized, List.find?_cons_of_neg (by rw [hs]; simpa using hclosed), hchanged]
          dsimp only
          rw [ih hsound fun other hother => hids other (List.mem_cons_of_mem _ hother),
            Manager.mapSession,
            firstClosed?_mapSessions (id_ite (fun s => s.id_resize size) id), firstClosed?]
          intro s
          split
          · exact s.isClosed_resize size
          · rfl

/-- A size that no terminal may have is not sent round. -/
theorem broadcastIn_of_invalid {size : Size} (hsize : size.isValid = false) (m : Manager D)
    (order : List SessionId) : m.broadcastIn size order = (m, .error (.size ⟨size⟩)) := by
  rw [broadcastIn, Size.check, hsize]
  rfl

/-- In whatever order the registered sessions are taken, all sessions are resized in the end: those
    that are not registered have been closed, and closed sessions stay as they are. -/
theorem Sound.broadcastIn_of_valid (h : m.Sound) {size : Size} (hsize : size.isValid = true)
    {order : List SessionId} (horder : order.Perm m.registry.registered) :
    m.broadcastIn size order
      = ({ registry := m.registry.setDefaultSize size,
           sessions := m.sessions.map fun s => (s.resize size).1 },
        match m.firstClosed? order with
        | none => .ok ()
        | some id => .error (.closed id)) := by
  have hcheck : size.check = .ok () := by rw [Size.check, if_pos hsize]
  have hsound := h.setDefaultSize size
  rw [broadcastIn, hcheck]
  refine Prod.ext ?_ (hsound.resizeEach_outcome hsize fun id hid => horder.mem_iff.mp hid)
  dsimp only
  rw [hsound.resizeEach_eq size (horder.nodup_iff.mpr h.nodup_registered), Manager.mapSessions]
  refine congrArg (Manager.mk _) (List.map_congr_left fun s hs => ?_)
  split
  · rfl
  · -- without a turn it is not registered, so it has been closed
    rename_i hout
    have hclosed : s.isClosed = true := by
      refine Bool.not_eq_false _ |>.mp fun hopen => hout ?_
      exact horder.mem_iff.mpr (h.isOpen s hs hopen)
    rw [Session.resize_of_closed hclosed]

/-- The order in which a manager takes its sessions is one of those. -/
theorem broadcastResize_eq (m : Manager D) (size : Size) :
    m.broadcastResize size = m.broadcastIn size m.registry.ids := rfl

/-- The numbers in ascending order are those that are registered. -/
theorem ids_perm (m : Manager D) : m.registry.ids.Perm m.registry.registered :=
  List.mergeSort_perm _ _

/-- A size that is sent round closes and opens nothing. -/
theorem Sound.broadcastResize (h : m.Sound) (size : Size) : (m.broadcastResize size).1.Sound := by
  rw [broadcastResize_eq]
  cases hsize : size.isValid with
  | false =>
      rw [broadcastIn_of_invalid hsize]
      exact h
  | true =>
      rw [h.broadcastIn_of_valid hsize m.ids_perm]
      exact (h.setDefaultSize size).mapSessions (g := fun s => (s.resize size).1)
        (fun s => s.id_resize size)
        fun s hs => (s.isClosed_resize size).trans hs

/-! ## Any calls -/

/-- **One call keeps a manager sound.** -/
theorem Sound.operate (h : m.Sound) (o : Operation D) : (m.operate o).Sound := by
  cases o with
  | create host options => exact h.create host options
  | close id => exact h.close id
  | switch id => exact h.switch id
  | restart host id options => exact h.restart host id options
  | broadcast size => exact h.broadcastResize size
  | onHeld id what => exact h.happen id what
  | onEmulator id f =>
      exact h.onSession (f := fun s => ({ s with emulator := f s.emulator }, .ok ())) id
        (fun _ => rfl) fun _ hs => hs
  | arrival => exact h.settle

/-- All operations keep a manager sound, in any order. -/
theorem Sound.after (h : m.Sound) (os : List (Operation D)) : (m.after os).Sound :=
  List.foldlRecOn (motive := Sound) os Manager.operate h fun _ hn o _ => hn.operate o

/-- A manager that calls have led to from a new one. -/
def Reachable (m : Manager D) : Prop := ∃ defaultSize os, m = (new defaultSize).after os

/-- So every manager that comes about by operations is sound. -/
theorem Reachable.sound (hm : m.Reachable) : m.Sound := by
  obtain ⟨defaultSize, os, rfl⟩ := hm
  exact (Sound.new defaultSize).after os

/-- **A size that is sent round reaches everyone or nobody.**  Whatever calls have been made of a
    manager, and whatever has been done with its sessions: a size that no terminal may have is
    refused and changes nothing.  Any other size becomes the default, and every session that is not
    closed gets it, with its terminal and its command.  The closed ones stay as they are.  If a
    registered session is closed, the outcome is the failure of such a one; otherwise there is
    none.  Which are registered, which of them is active and in what order they have been used does
    not change.  All this is so in whatever order the sessions are taken, and apart from which
    failure it is, the order makes no difference. -/
theorem broadcastResize_reaches (defaultSize : Size) (os : List (Operation D)) (size : Size) :
    let m := (new defaultSize).after os
    (m.broadcastResize size = m.broadcastIn size m.registry.ids ∧
      m.registry.ids.Perm m.registry.registered) ∧
    ∀ order, order.Perm m.registry.registered →
      let r := m.broadcastIn size order
      (size.isValid = false → r = (m, .error (.size ⟨size⟩))) ∧
      (size.isValid = true →
        r.1 = (m.broadcastResize size).1 ∧
        r.1.registry = { m.registry with defaultSize := size } ∧
        r.1.sessions.map Session.id = m.sessions.map Session.id ∧
        (∀ id s, m.session? id = some s → ∃ u, r.1.session? id = some u ∧
          (s.isClosed = true → u = s) ∧
          (s.isClosed = false → u.isClosed = false ∧ u.size = size ∧
            u.emulator.terminal.size = size ∧ ∀ c ∈ u.child, c.size = size)) ∧
        (r.2 = .ok () ↔ ∀ id s, m.get? id = some s → s.isClosed = false) ∧
        ∀ e, r.2 = .error e → ∃ id s, m.get? id = some s ∧ s.isClosed = true ∧ e = .closed id) := by
  intro m
  have h : m.Sound := (Sound.new defaultSize).after os
  refine ⟨⟨m.broadcastResize_eq size, m.ids_perm⟩, fun order horder => ?_⟩
  intro r
  refine ⟨fun hsize => broadcastIn_of_invalid hsize m order, fun hsize => ?_⟩
  have hr : r = _ := h.broadcastIn_of_valid hsize horder
  refine ⟨?_, ?_, ?_, ?_, ?_, ?_⟩
  · rw [hr, broadcastResize_eq, h.broadcastIn_of_valid hsize m.ids_perm]
  · rw [hr]
    rfl
  · rw [hr, List.map_map]
    exact List.map_congr_left fun s _ => s.id_resize size
  · intro id s hs
    refine ⟨(s.resize size).1, ?_, fun hclosed => ?_, fun hopen => ?_⟩
    · have hfound := session?_mapSessions (fun s => s.id_resize size) m id
      rw [hs] at hfound
      rw [hr]
      exact hfound
    · rw [Session.resize_of_closed hclosed]
    · obtain ⟨u, heq, -, hu⟩ := Session.resize_of_open hopen hsize
      rw [heq]
      exact hu
  · rw [hr, ← firstClosed?_eq_none_iff horder]
    cases m.firstClosed? order with
    | none => exact ⟨fun _ => rfl, fun _ => rfl⟩
    | some id => exact ⟨fun h => (by cases h), fun h => (by cases h)⟩
  · intro e he
    rw [hr] at he
    cases hfirst : m.firstClosed? order with
    | none =>
        rw [hfirst] at he
        cases he
    | some id =>
        rw [hfirst] at he
        obtain ⟨s, hs, hclosed⟩ := exists_of_firstClosed? horder hfirst
        cases he
        exact ⟨id, s, hs, hclosed, rfl⟩

end Manager

end VideoTerminal
