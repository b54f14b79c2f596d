import VideoTerminal.Proofs.Interleaving
import VideoTerminal.Proofs.SessionCalls

/-!
# Sizes sent round while sessions start

A new size is sent round by making it the default and then resizing, one by one, the sessions that
were registered at that moment.  A session is made by taking a number and the default size, starting
the command, and registering the session.  Between these steps the steps of other calls may come, so
that a session may be left with a size that is not the default, in two ways.  It may be on its way
when the last size is sent round: then it is registered too late to be resized.  Or it may be
resized by an earlier call that has fallen behind the last one.

These are the only ways (`Kept.size_eq`).  What is done is written down as it happens, and each way
is a pattern of the record.  One step keeps `Kept`, in which a session may also be due to be
resized, so every schedule does; and when all calls have returned nothing is due.
-/

namespace VideoTerminal

variable {D : Type} [TerminalDevice D]

/-- A session is started in the size it is given, and open. -/
theorem Session.spawn_size {host : Host D} {id : SessionId} {options : SessionOptions}
    {size : Size} {s : Session D} (h : spawn host id options size = .ok s) :
    s.size = size ∧ s.isClosed = false := by
  rw [spawn] at h
  split at h
  · cases h
  · split at h
    · cases h
    · rw [← Except.ok.inj h]
      exact ⟨rfl, rfl⟩

namespace Broadcasts

/-- What is asked of a manager. -/
inductive Request where
  | create (options : SessionOptions)
  | broadcast (size : Size)

/-- How far a call has come. -/
inductive Call where
  | asked (request : Request)
  /-- A number and a size have been given out, and the command is on its way. -/
  | starting (id : SessionId) (options : SessionOptions) (size : Size)
  | created (outcome : Except SessionError SessionId)
  /-- The size is the default; some sessions are yet to be resized. -/
  | resizing (size : Size) (left : List SessionId) (outcome : Except SessionError Unit)
  | refused (e : InvalidSize)

/-- Whether a call has returned. -/
def Call.hasReturned : Call → Bool
  | .created _ | .resizing _ [] _ | .refused _ => true
  | _ => false

/-- What is written down of a step. -/
inductive Mark where
  /-- A number has been given out, with the size that the session is to have. -/
  | reserved (id : SessionId) (size : Size)
  | registered (id : SessionId)
  /-- A call has made a size the default. -/
  | announced (call : Nat) (size : Size)
  /-- A call has resized a session. -/
  | resized (call : Nat) (id : SessionId) (size : Size)
deriving DecidableEq

/-- Whose turn it is, the system at that time, and the session to be resized, if it is one that is
left. -/
structure Turn (D : Type) where
  call : Nat
  host : Host D
  session : SessionId

/-- The next step of a call. -/
def Call.advance (turn : Turn D) (m : Manager D) : Call → Manager D × Call × List Mark
  | .asked (.create options) =>
      let (id, defaultSize, registry) := m.registry.reserve
      let size := options.size.getD defaultSize
      ({ m with registry }, .starting id options size, [.reserved id size])
  | .starting id options size =>
      match Session.spawn turn.host id options size with
      | .error e => (m, .created (.error e), [])
      | .ok s => (m.settle.register s, .created (.ok id), [.registered id])
  | .asked (.broadcast size) =>
      match size.check with
      | .error e => (m, .refused e, [])
      | .ok () =>
          ({ m with registry := m.registry.setDefaultSize size },
            .resizing size m.registry.ids (.ok ()), [.announced turn.call size])
  | .resizing size left outcome =>
      if turn.session ∈ left then
        let (m, resized) := m.onSession turn.session fun s => s.resize size
        (m, .resizing size (left.erase turn.session)
            (match outcome with | .ok () => resized | .error e => .error e),
          [.resized turn.call turn.session size])
      else (m, .resizing size left outcome, [])
  | call => (m, call, [])

/-- A manager, and the calls that are under way. -/
structure State (D : Type) [TerminalDevice D] where
  manager : Manager D
  calls : List Call

/-- The next step of the call whose turn it is. -/
def step (s : State D) (turn : Turn D) : State D × List Mark :=
  match s.calls[turn.call]? with
  | none => (s, [])
  | some call =>
      let (manager, next, marks) := call.advance turn s.manager
      ({ manager, calls := s.calls.set turn.call next }, marks)

/-- A manager without sessions, and what is asked of it from then on. -/
def arrive (defaultSize : Size) (requests : List Request) : State D :=
  { manager := .new defaultSize, calls := requests.map .asked }

/-! ## One call alone

When no other call comes in between, the steps of a call are what the manager does. -/

theorem run_create_alone (host : Host D) (m : Manager D) (options : SessionOptions)
    (id : SessionId) :
    (Machine.run step ⟨m, [.asked (.create options)]⟩ [⟨0, host, id⟩, ⟨0, host, id⟩]).1
      = ⟨(m.create host options).1, [.created (m.create host options).2]⟩ := by
  rw [Manager.create]
  show (step ⟨{ m with registry := m.registry.reserve.2.2 }, [.starting m.registry.nextId options
    (options.size.getD m.registry.defaultSize)]⟩ ⟨0, host, id⟩).1 = _
  dsimp only [step, List.getElem?_cons_zero, Call.advance, Registry.reserve]
  cases Session.spawn host m.registry.nextId options
      (options.size.getD m.registry.defaultSize) with
  | error e => rfl
  | ok s => rfl

theorem run_resizeEach (host : Host D) (m : Manager D) (size : Size) (ids : List SessionId)
    (outcome : Except SessionError Unit) :
    (Machine.run step ⟨m, [.resizing size ids outcome]⟩ (ids.map fun id => ⟨0, host, id⟩)).1
      = ⟨(m.resizeEach size ids).1,
        [.resizing size [] (match outcome with
          | .ok () => (m.resizeEach size ids).2
          | .error e => .error e)]⟩ := by
  induction ids generalizing m outcome with
  | nil => cases outcome <;> rfl
  | cons id ids ih =>
      have hfirst : (step ⟨m, [.resizing size (id :: ids) outcome]⟩ ⟨0, host, id⟩).1
          = ⟨(m.onSession id fun s => s.resize size).1, [.resizing size ids
            (match outcome with
              | .ok () => (m.onSession id fun s => s.resize size).2
              | .error e => .error e)]⟩ := by
        dsimp only [step, List.getElem?_cons_zero, Call.advance]
        rw [if_pos List.mem_cons_self, List.erase_cons_head]
        rfl
      rw [List.map_cons, Machine.run_cons, hfirst]
      dsimp only
      rw [ih, Manager.resizeEach]
      dsimp only
      cases outcome with
      | error e => rfl
      | ok _ => cases (m.onSession id fun s => s.resize size).2 <;> rfl

theorem run_broadcast_alone (host : Host D) (m : Manager D) {size : Size}
    (hsize : size.isValid = true) (id : SessionId) :
    (Machine.run step ⟨m, [.asked (.broadcast size)]⟩
        (⟨0, host, id⟩ :: m.registry.ids.map fun id => ⟨0, host, id⟩)).1
      = ⟨(m.broadcastResize size).1, [.resizing size [] (m.broadcastResize size).2]⟩ := by
  have hcheck : size.check = .ok () := by rw [Size.check, if_pos hsize]
  rw [Machine.run_cons, Manager.broadcastResize]
  dsimp only [step, List.getElem?_cons_zero, Call.advance]
  rw [hcheck]
  exact run_resizeEach host _ size m.registry.ids (.ok ())

/-! ## What is kept -/

/-- The announcement that a mark is. -/
def Mark.announcement? : Mark → Option (Nat × Size)
  | .announced call size => some (call, size)
  | _ => none

/-- The call that announced a size last, and the size. -/
def lastAnnouncement (h : List Mark) : Option (Nat × Size) :=
  (h.filterMap Mark.announcement?).getLast?

theorem lastAnnouncement_concat (h : List Mark) (call : Nat) (size : Size) :
    lastAnnouncement (h ++ [.announced call size]) = some (call, size) := by
  rw [lastAnnouncement, List.filterMap_append]
  exact List.getLast?_concat

/-- Marks that are no announcement leave the last one as it is. -/
theorem lastAnnouncement_append (h : List Mark) {marks : List Mark}
    (hmarks : ∀ x ∈ marks, x.announcement? = none) :
    lastAnnouncement (h ++ marks) = lastAnnouncement h := by
  rw [lastAnnouncement, lastAnnouncement, List.filterMap_append,
    List.filterMap_eq_nil_iff.mpr hmarks, List.append_nil]

/-- What has been written down in order stays so, also with a new mark behind it. -/
theorem sublist_append_mark {l h marks : List Mark} (hl : l.Sublist h) {x : Mark}
    (hx : x ∈ marks) : (l ++ [x]).Sublist (h ++ marks) :=
  hl.append (List.singleton_sublist.mpr hx)

namespace State

/-- The size of sessions that ask for none. -/
def defaultSize (s : State D) : Size := s.manager.registry.defaultSize

/-- A call that made the default what it is has yet to resize a session. -/
def Due (s : State D) (k : Nat) (id : SessionId) : Prop :=
  ∃ left outcome, s.calls[k]? = some (.resizing s.defaultSize left outcome) ∧ id ∈ left

end State

/-- A session was on its way when its size ceased to be the default. -/
def Missed (h : List Mark) (k : Nat) (current : Size) (x : Session D) : Prop :=
  [.reserved x.id x.size, .announced k current, .registered x.id].Sublist h

/-- A session was resized by an earlier call after the last one had resized it. -/
def Overtaken (h : List Mark) (k : Nat) (current : Size) (x : Session D) : Prop :=
  ∃ j, j ≠ k ∧ [.announced j x.size, .announced k current, .resized k x.id current,
    .resized j x.id x.size].Sublist h

/-- What holds of a registered session. -/
def SessionKept (s : State D) (h : List Mark) (x : Session D) : Prop :=
  x.size = s.defaultSize ∨ ∃ k, lastAnnouncement h = some (k, s.defaultSize) ∧
    (s.Due k x.id ∨ Missed h k s.defaultSize x ∨ Overtaken h k s.defaultSize x)

/-- What holds of a call, by its number. -/
def CallKept (s : State D) (h : List Mark) (i : Nat) : Call → Prop
  | .asked (.create options) => options.size = none
  | .starting id _ size =>
      .reserved id size ∈ h ∧ (size = s.defaultSize ∨ ∃ k,
        lastAnnouncement h = some (k, s.defaultSize) ∧
        [.reserved id size, .announced k s.defaultSize].Sublist h)
  | .resizing size left _ =>
      size.isValid = true ∧ .announced i size ∈ h ∧ left ⊆ s.manager.registry.registered ∧
      ∃ k, lastAnnouncement h = some (k, s.defaultSize) ∧
        (k = i ∧ size = s.defaultSize ∨
          i ≠ k ∧ [.announced i size, .announced k s.defaultSize].Sublist h ∧
          ∀ id ∈ left, s.Due k id ∨
            [.announced i size, .announced k s.defaultSize, .resized k id s.defaultSize].Sublist h)
  | _ => True

/-- What holds of the manager, the calls and the record at any time. -/
structure Kept (s : State D) (h : List Mark) : Prop where
  registered : ∀ x ∈ s.manager.sessions, x.id ∈ s.manager.registry.registered
  isOpen : ∀ x ∈ s.manager.sessions, x.isClosed = false
  sessions : ∀ x ∈ s.manager.sessions, SessionKept s h x
  calls : ∀ i call, s.calls[i]? = some call → CallKept s h i call

/-! ## Steps that announce nothing -/

section Quiet

variable {s t : State D} {h marks : List Mark}

/-- A step that makes no announcement keeps what holds of the other calls, as long as the same is
    due after it, apart from what it has done itself. -/
theorem CallKept.append {i : Nat} {call : Call} (hcall : CallKept s h i call)
    (hmarks : ∀ x ∈ marks, x.announcement? = none) (hdefault : t.defaultSize = s.defaultSize)
    (hregistered : s.manager.registry.registered ⊆ t.manager.registry.registered)
    (hdue : ∀ k id, s.Due k id → t.Due k id ∨ .resized k id s.defaultSize ∈ marks) :
    CallKept t (h ++ marks) i call := by
  have hkeep : ∀ {l : List Mark}, l.Sublist h → l.Sublist (h ++ marks) := fun hl =>
    hl.trans (List.sublist_append_left h marks)
  cases call with
  | asked request =>
      cases request with
      | create options => exact hcall
      | broadcast size => trivial
  | starting id options size =>
      obtain ⟨hmem, hsize⟩ := hcall
      refine ⟨List.mem_append_left _ hmem, ?_⟩
      rw [hdefault, lastAnnouncement_append h hmarks]
      rcases hsize with hsize | ⟨k, hk, hpair⟩
      · exact .inl hsize
      · exact .inr ⟨k, hk, hkeep hpair⟩
  | resizing size left outcome =>
      obtain ⟨hvalid, hmem, hleft, k, hk, hsize⟩ := hcall
      refine ⟨hvalid, List.mem_append_left _ hmem, fun _ hid => hregistered (hleft hid), k, ?_⟩
      rw [hdefault, lastAnnouncement_append h hmarks]
      refine ⟨hk, ?_⟩
      rcases hsize with hsize | ⟨hne, hpair, hall⟩
      · exact .inl hsize
      · refine .inr ⟨hne, hkeep hpair, ?_⟩
        intro id hid
        rcases hall id hid with hid | hdone
        · exact (hdue k id hid).imp_right (sublist_append_mark hpair)
        · exact .inr (hkeep hdone)
  | _ => trivial

/-- The same for a session that the step leaves as it was, as far as its size goes. -/
theorem SessionKept.append {x y : Session D} (hx : SessionKept s h x)
    (hmarks : ∀ x ∈ marks, x.announcement? = none) (hdefault : t.defaultSize = s.defaultSize)
    (hid : y.id = x.id) (hsize : y.size = x.size) (hdue : ∀ k, s.Due k x.id → t.Due k x.id) :
    SessionKept t (h ++ marks) y := by
  have hkeep : ∀ {l : List Mark}, l.Sublist h → l.Sublist (h ++ marks) := fun hl =>
    hl.trans (List.sublist_append_left h marks)
  simp only [SessionKept, Missed, Overtaken, hid, hsize, hdefault,
    lastAnnouncement_append h hmarks]
  rcases hx with hx | ⟨k, hk, hx⟩
  · exact .inl hx
  · refine .inr ⟨k, hk, ?_⟩
    rcases hx with hx | hx | ⟨j, hj, hx⟩
    · exact .inl (hdue k hx)
    · exact .inr (.inl (hkeep hx))
    · exact .inr (.inr ⟨j, hj, hkeep hx⟩)

/-- Where a call that resizes nothing takes a step, the same is due after it. -/
theorem State.Due.set {m : Manager D} {calls : List Call} {i : Nat} {call next : Call}
    (hcall : calls[i]? = some call) (hnot : ∀ size left outcome, call ≠ .resizing size left outcome)
    {k : Nat} {id : SessionId} (hdue : State.Due ⟨m, calls⟩ k id) {n : Manager D}
    (hdefault : n.registry.defaultSize = m.registry.defaultSize) :
    State.Due ⟨n, calls.set i next⟩ k id := by
  obtain ⟨left, outcome, hk, hid⟩ := hdue
  have hne : i ≠ k := by
    rintro rfl
    exact hnot _ left outcome (Option.some.inj (hcall.symm.trans hk))
  refine ⟨left, outcome, ?_, hid⟩
  show (calls.set i next)[k]? = some (.resizing n.registry.defaultSize left outcome)
  rw [List.getElem?_set_ne hne, hdefault]
  exact hk

end Quiet

/-! ## One step -/

/-- A manager that resizes an open session does only this. -/
theorem onSession_resize {m : Manager D} (hopen : ∀ x ∈ m.sessions, x.isClosed = false)
    {size : Size} (hsize : size.isValid = true) (id : SessionId) :
    (m.onSession id fun s => s.resize size).1.registry = m.registry ∧
    ∀ y ∈ (m.onSession id fun s => s.resize size).1.sessions, ∃ x ∈ m.sessions,
      y.id = x.id ∧ y.isClosed = false ∧ (x.id ≠ id ∧ y = x ∨ x.id = id ∧ y.size = size) := by
  rw [Manager.onSession]
  cases hs : m.session? id with
  | none =>
      refine ⟨rfl, fun x hx => ⟨x, hx, rfl, hopen x hx, .inl ⟨?_, rfl⟩⟩⟩
      have hnone := List.find?_eq_none.mp hs x hx
      simpa using hnone
  | some s =>
      obtain ⟨hmem, hid⟩ := Manager.mem_of_session? hs
      have hresized : (s.resize size).1.id = id ∧ (s.resize size).1.isClosed = false ∧
          (s.resize size).1.size = size := by
        obtain ⟨u, heq, huid, huopen, husize, -⟩ := Session.resize_of_open (hopen s hmem) hsize
        rw [heq]
        exact ⟨huid.trans hid, huopen, husize⟩
      dsimp only
      generalize (s.resize size).1 = u at hresized
      obtain ⟨huid, huopen, husize⟩ := hresized
      refine ⟨rfl, ?_⟩
      intro y hy
      obtain ⟨x, hx, rfl⟩ := List.mem_map.mp hy
      refine ⟨x, hx, ?_⟩
      rw [huid]
      by_cases hxid : x.id = id
      · rw [if_pos hxid]
        exact ⟨huid.trans hxid.symm, huopen, .inr ⟨hxid, husize⟩⟩
      · rw [if_neg hxid]
        exact ⟨rfl, hopen x hx, .inl ⟨hxid, rfl⟩⟩

namespace Kept

variable {m : Manager D} {calls : List Call} {h : List Mark} {i : Nat} {call : Call}

/-- The calls behind a step are the old ones and the one whose turn it was. -/
theorem calls_set {t : State D} {h' : List Mark} {next : Call}
    (hothers : ∀ j other, calls[j]? = some other → CallKept t h' j other)
    (hnext : CallKept t h' i next) :
    ∀ j other, (calls.set i next)[j]? = some other → CallKept t h' j other := by
  intro j other hother
  by_cases hij : i = j
  · subst hij
    rw [List.getElem?_set_self'] at hother
    cases hi : calls[i]? with
    | none =>
        rw [hi] at hother
        cases hother
    | some call =>
        rw [hi] at hother
        cases hother
        exact hnext
  · rw [List.getElem?_set_ne hij] at hother
    exact hothers j other hother

/-- The call whose turn it was is where it has been. -/
theorem getElem?_set_turn (hcall : calls[i]? = some call) (next : Call) :
    (calls.set i next)[i]? = some next := by
  rw [List.getElem?_set_self', hcall]
  rfl

/-- A call that ends without having done anything. -/
theorem finish (hkept : Kept ⟨m, calls⟩ h) (hcall : calls[i]? = some call)
    (hnot : ∀ size left outcome, call ≠ .resizing size left outcome) {next : Call}
    (hnext : CallKept ⟨m, calls.set i next⟩ h i next) : Kept ⟨m, calls.set i next⟩ h := by
  have hdue : ∀ k id, State.Due ⟨m, calls⟩ k id → State.Due ⟨m, calls.set i next⟩ k id :=
    fun k id hk => hk.set hcall hnot rfl
  have hmarks : ∀ x ∈ ([] : List Mark), x.announcement? = none := nofun
  refine ⟨hkept.registered, hkept.isOpen, ?_, ?_⟩
  · intro x hx
    have hsession := (hkept.sessions x hx).append (t := ⟨m, calls.set i next⟩) hmarks
      rfl rfl rfl (hdue · x.id)
    rwa [List.append_nil] at hsession
  · refine calls_set (fun j other hother => ?_) hnext
    have hcall := (hkept.calls j other hother).append (t := ⟨m, calls.set i next⟩) hmarks
      rfl (List.Subset.refl _) fun k id hk => .inl (hdue k id hk)
    rwa [List.append_nil] at hcall

/-- A number is given out, with the size that is the default. -/
theorem reserve (hkept : Kept ⟨m, calls⟩ h) {options : SessionOptions}
    (hcall : calls[i]? = some (.asked (.create options))) :
    Kept ⟨{ m with registry := m.registry.reserve.2.2 },
        calls.set i (.starting m.registry.nextId options m.registry.defaultSize)⟩
      (h ++ [.reserved m.registry.nextId m.registry.defaultSize]) := by
  have hmarks : ∀ x ∈ [Mark.reserved m.registry.nextId m.registry.defaultSize],
      x.announcement? = none := by simp [Mark.announcement?]
  refine ⟨hkept.registered, hkept.isOpen, ?_, ?_⟩
  · intro x hx
    exact (hkept.sessions x hx).append hmarks rfl rfl rfl fun k hk => hk.set hcall (by simp) rfl
  · refine calls_set (fun j other hother => ?_) ⟨by simp, .inl rfl⟩
    exact (hkept.calls j other hother).append hmarks rfl (List.Subset.refl _)
      fun k id hk => .inl (hk.set hcall (by simp) rfl)

/-- A session that is registered has the default size, or has missed its change. -/
theorem register (hkept : Kept ⟨m, calls⟩ h) {id : SessionId} {options : SessionOptions}
    {size : Size} (hcall : calls[i]? = some (.starting id options size)) {s : Session D}
    (hid : s.id = id) (hsize : s.size = size) (hopen : s.isClosed = false) :
    Kept ⟨m.settle.register s, calls.set i (.created (.ok id))⟩ (h ++ [.registered id]) := by
  subst hid hsize
  have hmarks : ∀ x ∈ [Mark.registered s.id], x.announcement? = none := by
    simp [Mark.announcement?]
  have hdefault : (m.registry.register s.id).defaultSize = m.registry.defaultSize := by
    rw [Registry.register]
    dsimp only
    split <;> rfl
  have hregistered : (m.registry.register s.id).registered = m.registry.registered ++ [s.id] := by
    rw [Registry.register]
    dsimp only
    split <;> rfl
  have hsubset : m.registry.registered ⊆ (m.settle.register s).registry.registered := by
    show _ ⊆ (m.registry.register s.id).registered
    rw [hregistered]
    exact List.subset_append_left _ _
  -- a session is an old one that what was on its way has reached, or the new one
  have hcases : ∀ y ∈ (m.settle.register s).sessions, (∃ x ∈ m.sessions, x.settle = y) ∨ y = s := by
    intro y hy
    rcases List.mem_append.mp hy with hy | hy
    · exact .inl (List.mem_map.mp hy)
    · exact .inr (List.mem_singleton.mp hy)
  refine ⟨?_, ?_, ?_, ?_⟩
  · intro y hy
    rcases hcases y hy with ⟨x, hx, rfl⟩ | rfl
    · rw [(Session.SameSizes.settle x).id]
      exact hsubset (hkept.registered x hx)
    · show y.id ∈ (m.registry.register y.id).registered
      rw [hregistered]
      exact List.mem_append_right _ (List.mem_singleton_self _)
  · intro y hy
    rcases hcases y hy with ⟨x, hx, rfl⟩ | rfl
    · rw [Session.isClosed_settle]
      exact hkept.isOpen x hx
    · exact hopen
  · intro y hy
    rcases hcases y hy with ⟨x, hx, rfl⟩ | rfl
    · have hsame := Session.SameSizes.settle x
      exact (hkept.sessions x hx).append hmarks hdefault hsame.id hsame.size
        fun k hk => hk.set hcall (by simp) hdefault
    · obtain ⟨-, hsize⟩ := hkept.calls i _ hcall
      rw [SessionKept, lastAnnouncement_append h hmarks]
      show y.size = (m.registry.register y.id).defaultSize ∨ ∃ k, _ = some (k,
        (m.registry.register y.id).defaultSize) ∧ (_ ∨ Missed _ k
          (m.registry.register y.id).defaultSize y ∨ Overtaken _ k
            (m.registry.register y.id).defaultSize y)
      rw [hdefault]
      rcases hsize with hsize | ⟨k, hk, hpair⟩
      · exact .inl hsize
      · exact .inr ⟨k, hk, .inr (.inl (sublist_append_mark hpair (List.mem_singleton_self _)))⟩
  · refine calls_set (fun j other hother => ?_) trivial
    exact (hkept.calls j other hother).append hmarks hdefault hsubset
      fun k id hk => .inl (hk.set hcall (by simp) hdefault)

/-- When a size is announced, every registered session is due to be resized. -/
theorem announce (hkept : Kept ⟨m, calls⟩ h) {size : Size}
    (hcall : calls[i]? = some (.asked (.broadcast size))) (hsize : size.isValid = true) :
    Kept ⟨{ m with registry := m.registry.setDefaultSize size },
        calls.set i (.resizing size m.registry.ids (.ok ()))⟩ (h ++ [.announced i size]) := by
  have hlast := lastAnnouncement_concat h i size
  have hids : ∀ id, id ∈ m.registry.ids ↔ id ∈ m.registry.registered := by
    intro id
    rw [Registry.ids, List.mem_mergeSort]
  have hself := getElem?_set_turn hcall (.resizing size m.registry.ids (.ok ()))
  have hdue : ∀ id ∈ m.registry.registered,
      State.Due ⟨{ m with registry := m.registry.setDefaultSize size },
        calls.set i (.resizing size m.registry.ids (.ok ()))⟩ i id := fun id hid =>
    ⟨_, _, hself, (hids id).mpr hid⟩
  refine ⟨hkept.registered, hkept.isOpen, ?_, ?_⟩
  · intro x hx
    exact .inr ⟨i, hlast, .inl (hdue x.id (hkept.registered x hx))⟩
  · refine calls_set ?_ ?_
    · intro j other hother
      have hother' := hkept.calls j other hother
      cases other with
      | asked request =>
          cases request with
          | create options => exact hother'
          | broadcast size => trivial
      | starting id options size' =>
          obtain ⟨hmem, -⟩ := hother'
          refine ⟨List.mem_append_left _ hmem, .inr ⟨i, hlast, ?_⟩⟩
          exact sublist_append_mark (List.singleton_sublist.mpr hmem) (List.mem_singleton_self _)
      | resizing size' left outcome =>
          obtain ⟨hvalid, hmem, hleft, -⟩ := hother'
          refine ⟨hvalid, List.mem_append_left _ hmem, hleft, i, hlast, .inr ⟨?_, ?_, ?_⟩⟩
          · rintro rfl
            rw [hcall] at hother
            cases hother
          · exact sublist_append_mark (List.singleton_sublist.mpr hmem)
              (List.mem_singleton_self _)
          · exact fun id hid => .inl (hdue id (hleft hid))
      | _ => trivial
    · refine ⟨hsize, by simp, fun id hid => (hids id).mp hid, i, hlast, .inl ⟨rfl, rfl⟩⟩

/-- A session that is resized has the default size, or is yet to get it, or a call that has fallen
    behind has taken it away. -/
theorem resize (hkept : Kept ⟨m, calls⟩ h) {size : Size} {left : List SessionId}
    {outcome : Except SessionError Unit} (hcall : calls[i]? = some (.resizing size left outcome))
    {id : SessionId} (hid : id ∈ left) (outcome' : Except SessionError Unit) :
    Kept ⟨(m.onSession id fun s => s.resize size).1,
        calls.set i (.resizing size (left.erase id) outcome')⟩ (h ++ [.resized i id size]) := by
  have hstage := hkept.calls i _ hcall
  obtain ⟨hvalid, -, -, k, hk, hlast⟩ := hstage
  obtain ⟨hregistry, hsessions⟩ := onSession_resize hkept.isOpen hvalid id
  generalize (m.onSession id fun s => s.resize size).1 = n at hregistry hsessions
  have hmarks : ∀ x ∈ [Mark.resized i id size], x.announcement? = none := by
    simp [Mark.announcement?]
  have hself := getElem?_set_turn hcall (.resizing size (left.erase id) outcome')
  have hdefault : State.defaultSize
      ⟨n, calls.set i (.resizing size (left.erase id) outcome')⟩ = m.registry.defaultSize :=
    congrArg Registry.defaultSize hregistry
  -- only what is done here is no longer due
  have hdue : ∀ k other, State.Due ⟨m, calls⟩ k other → (k = i → other ≠ id) →
      State.Due ⟨n, calls.set i (.resizing size (left.erase id) outcome')⟩ k other := by
    rintro k other ⟨left', outcome'', hk, hother⟩ hne
    rw [State.Due, hdefault]
    by_cases hki : k = i
    · subst hki
      cases hcall.symm.trans hk
      exact ⟨_, _, hself, (List.mem_erase_of_ne (hne rfl)).mpr hother⟩
    · exact ⟨left', outcome'', (List.getElem?_set_ne (Ne.symm hki)).trans hk, hother⟩
  have hcallKept : ∀ j other, calls[j]? = some other → CallKept
      ⟨n, calls.set i (.resizing size (left.erase id) outcome')⟩ (h ++ [.resized i id size])
      j other := by
    intro j other hother
    refine (hkept.calls j other hother).append hmarks hdefault ?_ ?_
    · show m.registry.registered ⊆ n.registry.registered
      rw [hregistry]
      exact List.Subset.refl _
    · intro k other hk
      by_cases hdone : k = i ∧ other = id
      · obtain ⟨rfl, rfl⟩ := hdone
        obtain ⟨left', outcome'', hk, -⟩ := hk
        cases hcall.symm.trans hk
        exact .inr (List.mem_singleton_self _)
      · exact .inl (hdue k other hk fun hki hother => hdone ⟨hki, hother⟩)
  refine ⟨?_, ?_, ?_, calls_set hcallKept ?_⟩
  · intro y hy
    obtain ⟨x, hx, hyid, -⟩ := hsessions y hy
    show y.id ∈ n.registry.registered
    rw [hyid, hregistry]
    exact hkept.registered x hx
  · intro y hy
    obtain ⟨x, -, -, hopen, -⟩ := hsessions y hy
    exact hopen
  · intro y hy
    obtain ⟨x, hx, hyid, -, ⟨hne, rfl⟩ | ⟨heq, hysize⟩⟩ := hsessions y hy
    · exact (hkept.sessions y hx).append hmarks hdefault rfl rfl
        fun k hk => hdue k y.id hk fun _ => hne
    · have hyid : y.id = id := hyid.trans heq
      simp only [SessionKept, Missed, Overtaken, lastAnnouncement_append h hmarks, hdefault, hyid,
        hysize]
      rcases hlast with ⟨-, hsize⟩ | ⟨hne, hpair, hall⟩
      · exact .inl hsize
      · refine .inr ⟨k, hk, ?_⟩
        rcases hall id hid with hid | hdone
        · exact .inl (hdue k id hid fun hki => absurd hki.symm hne)
        · exact .inr (.inr ⟨i, hne, sublist_append_mark hdone (List.mem_singleton_self _)⟩)
  · obtain ⟨hvalid, hmem, hleft, k, hk, hlast⟩ := hcallKept i _ hcall
    refine ⟨hvalid, hmem, fun _ hother => hleft (List.mem_of_mem_erase hother), k, hk, ?_⟩
    rcases hlast with hlast | ⟨hne, hpair, hall⟩
    · exact .inl hlast
    · exact .inr ⟨hne, hpair, fun other hother => hall other (List.mem_of_mem_erase hother)⟩

/-- Whatever step is taken, and whatever the host answers. -/
theorem step {s : State D} (hkept : Kept s h) (turn : Turn D) :
    Kept (step s turn).1 (h ++ (step s turn).2) := by
  obtain ⟨m, calls⟩ := s
  rw [Broadcasts.step]
  cases hcall : calls[turn.call]? with
  | none => rwa [List.append_nil]
  | some call =>
      cases call with
      | asked request =>
          cases request with
          | create options =>
              have hsize : options.size = none := hkept.calls _ _ hcall
              dsimp only [Call.advance, Registry.reserve]
              rw [hsize]
              exact hkept.reserve hcall
          | broadcast size =>
              dsimp only [Call.advance]
              rw [Size.check]
              cases hsize : size.isValid with
              | true => exact hkept.announce hcall hsize
              | false =>
                  rw [if_neg Bool.false_ne_true]
                  dsimp only
                  rw [List.append_nil]
                  exact hkept.finish hcall (by simp) trivial
      | starting id options size =>
          dsimp only [Call.advance]
          cases hspawn : Session.spawn turn.host id options size with
          | error e =>
              dsimp only
              rw [List.append_nil]
              exact hkept.finish hcall (by simp) trivial
          | ok s =>
              obtain ⟨hsize, hopen⟩ := Session.spawn_size hspawn
              exact hkept.register hcall (Session.spawn_id hspawn) hsize hopen
      | resizing size left outcome =>
          dsimp only [Call.advance]
          by_cases hid : turn.session ∈ left
          · rw [if_pos hid]
            exact hkept.resize hcall hid _
          · -- nothing is done
            have hsame : calls.set turn.call (.resizing size left outcome) = calls := by
              obtain ⟨hlt, heq⟩ := List.getElem?_eq_some_iff.mp hcall
              rw [← heq, List.set_getElem_self]
            rw [if_neg hid]
            dsimp only
            rwa [hsame, List.append_nil]
      | created outcome =>
          dsimp only [Call.advance]
          rw [List.append_nil]
          exact hkept.finish hcall (by simp) trivial
      | refused e =>
          dsimp only [Call.advance]
          rw [List.append_nil]
          exact hkept.finish hcall (by simp) trivial

theorem arrive (first : Size) {requests : List Request}
    (hnone : ∀ options, .create options ∈ requests → options.size = none) :
    Kept (arrive first requests : State D) [] := by
  have hempty : ∀ x, x ∉ (Broadcasts.arrive first requests : State D).manager.sessions :=
    fun _ => List.not_mem_nil
  refine ⟨fun x hx => absurd hx (hempty x), fun x hx => absurd hx (hempty x),
    fun x hx => absurd hx (hempty x), ?_⟩
  intro i call hcall
  obtain ⟨request, hrequest, rfl⟩ := List.mem_map.mp (List.mem_of_getElem? hcall)
  cases request with
  | create options => exact hnone options hrequest
  | broadcast size => trivial

/-- Whatever the schedule. -/
theorem run {s : State D} {record : List Mark} (hkept : Kept s record) (turns : List (Turn D)) :
    Kept (Machine.run Broadcasts.step s turns).1
      (record ++ (Machine.run Broadcasts.step s turns).2) := by
  induction turns generalizing s record with
  | nil => rwa [Machine.run_nil, List.append_nil]
  | cons turn turns ih =>
      have hrest := ih (hkept.step turn)
      rw [List.append_assoc] at hrest
      rw [Machine.run_cons]
      exact hrest

/-- When all calls have returned, nothing is due. -/
theorem size_eq {s : State D} (hkept : Kept s h) (hall : ∀ call ∈ s.calls, call.hasReturned = true)
    {x : Session D} (hx : x ∈ s.manager.sessions) :
    x.size = s.defaultSize ∨ ∃ k, lastAnnouncement h = some (k, s.defaultSize) ∧
      (Missed h k s.defaultSize x ∨ Overtaken h k s.defaultSize x) := by
  rcases hkept.sessions x hx with hx | ⟨k, hk, ⟨left, outcome, hcall, hid⟩ | hx⟩
  · exact .inl hx
  · have hreturned := hall _ (List.mem_of_getElem? hcall)
    cases left with
    | nil => exact absurd hid List.not_mem_nil
    | cons id left => exact Bool.noConfusion hreturned
  · exact .inr ⟨k, hk, hx⟩

end Kept

/-- **Sizes that are sent round.**  Sessions are made, asking for no size, and sizes are sent round,
    in any order and with any steps of one call between those of another.  When all calls have
    returned, a registered session has the default size, or else it has one of two others.  It has
    the size that was the default when its number was given out, if the last size was sent round
    after that and before it was registered; or the size that an earlier call sent round, if that
    call has resized it after the last one had. -/
theorem size_of_returned (first : Size) {requests : List Request}
    (hnone : ∀ options, .create options ∈ requests → options.size = none) (turns : List (Turn D)) :
    let s := (Machine.run step (arrive first requests) turns).1
    let record := (Machine.run step (arrive first requests) turns).2
    let current := s.manager.registry.defaultSize
    (∀ call ∈ s.calls, call.hasReturned = true) → ∀ id x, s.manager.get? id = some x →
      x.size = current ∨ ∃ k, lastAnnouncement record = some (k, current) ∧
        ([.reserved x.id x.size, .announced k current, .registered x.id].Sublist record ∨
          ∃ j, j ≠ k ∧ [.announced j x.size, .announced k current, .resized k x.id current,
            .resized j x.id x.size].Sublist record) := by
  intro s record current hall id x hx
  have hkept : Kept s record := (Kept.arrive first hnone).run turns
  refine hkept.size_eq hall ?_
  rw [Manager.get?] at hx
  split at hx
  · exact List.mem_of_find?_eq_some hx
  · exact absurd hx nofun

/-- Two sessions are made.  One is registered before a size is sent round, and gets it; the number
    of the other was given out before, but it is registered after. -/
theorem size_of_returned_two :
    let host : Host LineDiscipline := ⟨fun _ => none, {}⟩
    let requests : List Request := [.create {}, .create {}, .broadcast ⟨6, 3⟩]
    let turns : List (Turn LineDiscipline) :=
      [⟨0, host, 0⟩, ⟨1, host, 0⟩, ⟨1, host, 0⟩, ⟨2, host, 0⟩, ⟨0, host, 0⟩, ⟨2, host, 2⟩]
    let s := (Machine.run step (arrive ⟨4, 2⟩ requests) turns).1
    let record := (Machine.run step (arrive ⟨4, 2⟩ requests) turns).2
    (∀ options, .create options ∈ requests → options.size = none) ∧
    (∀ call ∈ s.calls, call.hasReturned = true) ∧
    (s.manager.get? 2).map Session.size = some ⟨6, 3⟩ ∧
    ∃ y, s.manager.get? 1 = some y ∧ y.size = ⟨4, 2⟩ ∧
      (y.size = ⟨6, 3⟩ ∨ ∃ k, lastAnnouncement record = some (k, ⟨6, 3⟩) ∧
        ([.reserved y.id y.size, .announced k ⟨6, 3⟩, .registered y.id].Sublist record ∨
          ∃ j, j ≠ k ∧ [.announced j y.size, .announced k ⟨6, 3⟩, .resized k y.id ⟨6, 3⟩,
            .resized j y.id y.size].Sublist record)) := by
  intro host requests turns s record
  have hnone : ∀ options, .create options ∈ requests → options.size = none := by
    simp [requests]
  have hall : ∀ call ∈ s.calls, call.hasReturned = true := by decide +kernel
  obtain ⟨y, hy, hsize⟩ : ∃ y, s.manager.get? 1 = some y ∧ y.size = ⟨4, 2⟩ := by
    have hmap : (s.manager.get? 1).map Session.size = some ⟨4, 2⟩ := by decide +kernel
    exact Option.map_eq_some_iff.mp hmap
  have hcurrent : s.manager.registry.defaultSize = ⟨6, 3⟩ := by decide +kernel
  have hcases := size_of_returned ⟨4, 2⟩ hnone turns hall 1 y hy
  refine ⟨hnone, hall, by decide +kernel, y, hy, hsize, ?_⟩
  rwa [← hcurrent]

/-- Two schedules after which all calls have returned and a session has not the default size.  In
    the first it is registered after the size has been sent round.  In the second, two sizes are
    sent round, and the call that came first is the last to resize the session. -/
theorem size_of_returned_lost :
    let host : Host LineDiscipline := ⟨fun _ => none, {}⟩
    let late := (Machine.run step (arrive ⟨90, 20⟩ [.create {}, .broadcast ⟨100, 30⟩])
      [⟨0, host, 0⟩, ⟨1, host, 0⟩, ⟨0, host, 0⟩]).1
    let behind := (Machine.run step
      (arrive ⟨90, 20⟩ [.create {}, .broadcast ⟨90, 20⟩, .broadcast ⟨100, 30⟩])
      [⟨0, host, 0⟩, ⟨0, host, 0⟩, ⟨1, host, 0⟩, ⟨2, host, 0⟩, ⟨2, host, 1⟩, ⟨1, host, 1⟩]).1
    ∀ s ∈ [late, behind], (∀ call ∈ s.calls, call.hasReturned = true) ∧
      s.manager.registry.defaultSize = ⟨100, 30⟩ ∧
      (s.manager.get? 1).map Session.size = some ⟨90, 20⟩ := by
  decide +kernel

end Broadcasts

end VideoTerminal
