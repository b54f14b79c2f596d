import VideoTerminal.LineDiscipline
import VideoTerminal.Manager
import VideoTerminal.Proofs.Machine

/-!
# Calls that come between each other

Several calls of a manager can be under way at a time.  Each of them reaches the registry in
sections that nothing else can come between: making a session in two of them, with the start of
its command in between, and every other call in one.  `Manager.step` does the next section of any
call, so a schedule, which says whose turn it is, is one way in which calls can come between each
other.

What sections do to the registry is also written down, in order.  `Registry.Consistent` is what
holds of the registry alone, and `Accounts` of the registry, the calls and the record together:
numbers are counted there, and the sessions stand in the order of `Precedes`.  One section keeps
both, so a schedule does.
-/

namespace VideoTerminal

/-! ## The registry alone -/

namespace Registry

variable {r : Registry} {id : SessionId}

/-- Only a registered session can be closed, and nothing but it is lost. -/
theorem remove?_eq_some {closed : Registry} (h : r.remove? id = some closed) :
    id ∈ r.registered ∧ closed = { r with
      registered := r.registered.filter (· != id)
      recent := r.recent.filter (· != id)
      active :=
        if r.active = some id then (r.recent.filter (· != id)).getLast? else r.active } := by
  rw [remove?] at h
  split at h
  case isTrue hid => exact ⟨hid, (Option.some.inj h).symm⟩
  case isFalse => exact nomatch h

/-- Only a registered session can be made the active one. -/
theorem switch?_eq_some {switched : Registry} (h : r.switch? id = some switched) :
    id ∈ r.registered ∧ switched = r.activate id := by
  rw [switch?] at h
  split at h
  case isTrue hid => exact ⟨hid, (Option.some.inj h).symm⟩
  case isFalse => exact nomatch h

/-- The sessions in the order of their use are the registered ones, each once, and the last of them
    is the active one. -/
structure Consistent (r : Registry) : Prop where
  nodup : r.recent.Nodup
  mem_iff : ∀ id, id ∈ r.recent ↔ id ∈ r.registered
  active_eq : r.active = r.recent.getLast?

namespace Consistent

/-- A new registry knows no session. -/
theorem new (size : Size) : Consistent { defaultSize := size } where
  nodup := List.nodup_nil
  mem_iff := fun _ => Iff.rfl
  active_eq := rfl

/-- A number that is reserved is no session yet. -/
theorem reserve (h : r.Consistent) : r.reserve.2.2.Consistent := { h with }

/-- The default size has nothing to do with the order. -/
theorem setDefaultSize (h : r.Consistent) (size : Size) : (r.setDefaultSize size).Consistent :=
  { h with }

/-- Only where no session is registered is none active. -/
theorem active_eq_none (h : r.Consistent) : r.active = none ↔ r.registered = [] := by
  rw [h.active_eq, List.getLast?_eq_none_iff, List.eq_nil_iff_forall_not_mem,
    List.eq_nil_iff_forall_not_mem]
  exact forall_congr' fun id => not_congr (h.mem_iff id)

/-- Any session of the registry may be made the active one. -/
theorem activate (h : r.Consistent) (hid : id ∈ r.registered) : (r.activate id).Consistent where
  nodup := by
    have hfilter : (r.recent.filter (· != id)).Nodup := h.nodup.filter _
    refine List.nodup_append.mpr ⟨hfilter, by simp, ?_⟩
    intro a ha b hb hab
    rw [hab, List.mem_singleton.mp hb, List.mem_filter, bne_self_eq_false] at ha
    exact Bool.noConfusion ha.2
  mem_iff := by
    intro other
    show other ∈ r.recent.filter (· != id) ++ [id] ↔ other ∈ r.registered
    rw [List.mem_append, List.mem_filter, List.mem_singleton, h.mem_iff, bne_iff_ne]
    by_cases hother : other = id
    · rw [hother]
      exact ⟨fun _ => hid, fun _ => .inr rfl⟩
    · exact ⟨fun hmem => (hmem.resolve_right hother).1, fun hmem => .inl ⟨hmem, hother⟩⟩
  active_eq := List.getLast?_concat.symm

/-- Where a session is active, a new one goes to the end of the line. -/
theorem register_recent (h : r.Consistent) (id : SessionId) :
    (r.register id).recent = id :: r.recent ∧
      (r.register id).registered = r.registered ++ [id] := by
  rw [Registry.register]
  dsimp only
  split
  case isTrue hnone =>
    have hempty : r.recent = [] :=
      List.getLast?_eq_none_iff.mp (h.active_eq ▸ Option.isNone_iff_eq_none.mp hnone)
    rw [Registry.activate]
    dsimp only
    rw [hempty]
    refine ⟨?_, rfl⟩
    simp
  case isFalse hsome => exact ⟨rfl, rfl⟩

/-- A session that is registered becomes the least recently used one, or the active one if it is
    alone. -/
theorem register (h : r.Consistent) (hid : id ∉ r.registered) : (r.register id).Consistent := by
  obtain ⟨hrecent, hregistered⟩ := h.register_recent id
  refine ⟨?_, ?_, ?_⟩
  · rw [hrecent]
    exact List.nodup_cons.mpr ⟨fun hmem => hid ((h.mem_iff id).mp hmem), h.nodup⟩
  · intro other
    rw [hrecent, hregistered, List.mem_cons, List.mem_append, List.mem_singleton, h.mem_iff]
    exact Or.comm
  · rw [Registry.register]
    dsimp only
    split
    case isTrue hnone => exact List.getLast?_concat.symm
    case isFalse hsome =>
      -- whoever was last before is last still
      show r.active = (id :: r.recent).getLast?
      rw [h.active_eq] at hsome ⊢
      rw [List.getLast?_cons]
      cases hlast : r.recent.getLast? with
      | none => exact absurd (by rw [hlast]; rfl) hsome
      | some last => rfl

/-- A session that is closed leaves the order of the others as it is. -/
theorem remove {closed : Registry} (h : r.Consistent) (hclosed : r.remove? id = some closed) :
    closed.Consistent := by
  obtain ⟨-, rfl⟩ := remove?_eq_some hclosed
  refine ⟨h.nodup.filter _, ?_, ?_⟩
  · intro other
    show other ∈ r.recent.filter (· != id) ↔ other ∈ r.registered.filter (· != id)
    rw [List.mem_filter, List.mem_filter, h.mem_iff]
  · show (if r.active = some id then (r.recent.filter (· != id)).getLast? else r.active)
      = (r.recent.filter (· != id)).getLast?
    by_cases hactive : r.active = some id
    · rw [if_pos hactive]
    · rw [if_neg hactive, h.active_eq]
      cases hlast : r.recent.getLast? with
      | none => rw [List.getLast?_eq_none_iff.mp hlast]; rfl
      | some last =>
          -- it is not the one that goes
          obtain ⟨others, hrecent⟩ := List.getLast?_eq_some_iff.mp hlast
          have hne : last ≠ id := by
            intro hlastId
            exact hactive (by rw [h.active_eq, hlast, hlastId])
          have hkept : [last].filter (· != id) = [last] := by simp [hne]
          rw [hrecent, List.filter_append, hkept, List.getLast?_concat]

end Consistent

end Registry

/-! ## Calls in sections -/

variable {D : Type} [TerminalDevice D]

namespace Session

/-- A session that is started has the number it was given. -/
theorem spawn_id {host : Host D} {id : SessionId} {options : SessionOptions} {size : Size}
    {s : Session D} (h : spawn host id options size = .ok s) : s.id = id := by
  rw [spawn] at h
  split at h
  · exact nomatch h
  · split at h
    · exact nomatch h
    · rw [← Except.ok.inj h]

end Session

namespace Manager

/-- A session that is found is one of the manager's, and it has the number it was looked for by. -/
theorem mem_of_session? {m : Manager D} {id : SessionId} {s : Session D}
    (h : m.session? id = some s) : s ∈ m.sessions ∧ s.id = id :=
  ⟨List.mem_of_find?_eq_some h, by simpa using List.find?_some h⟩

/-- What is asked of a manager, as far as the registry takes part in it. -/
inductive Request where
  | create (options : SessionOptions)
  | close (id : SessionId)
  | switch (id : SessionId)
  | broadcast (size : Size)
  /-- A question, or a restart: the session is looked up. -/
  | look

/-- How far a call has come. -/
inductive Call where
  | waiting (request : Request)
  /-- A number has been given out, and the command is on its way. -/
  | starting (id : SessionId) (options : SessionOptions) (size : Size)
  | created (id : SessionId) (outcome : Except SessionError SessionId)
  | closed (id : SessionId) (outcome : Except SessionError (Option SessionId))
  | switched (id : SessionId) (outcome : Except SessionError Unit)
  | answered

/-- What is written down of a section. -/
inductive Change where
  | reserved (id : SessionId)
  | refused (id : SessionId)
  | registered (id : SessionId)
  | activated (id : SessionId)
  | closed (id : SessionId)
deriving DecidableEq

/-- The next section of a call.  The host answers for the system at that time. -/
def Call.advance (host : Host D) (r : Registry) : Call → Registry × Call × List Change
  | .waiting (.create options) =>
      let (id, defaultSize, r) := r.reserve
      (r, .starting id options (options.size.getD defaultSize), [.reserved id])
  | .starting id options size =>
      match Session.spawn host id options size with
      | .error e => (r, .created id (.error e), [.refused id])
      | .ok _ =>
          (r.register id, .created id (.ok id),
            if r.active.isNone then [.registered id, .activated id] else [.registered id])
  | .waiting (.close id) =>
      match r.remove? id with
      | none => (r, .closed id (.error (.notFound id)), [])
      | some r => (r, .closed id (.ok r.active), [.closed id])
  | .waiting (.switch id) =>
      match r.switch? id with
      | none => (r, .switched id (.error (.notFound id)), [])
      | some r => (r, .switched id (.ok ()), [.activated id])
  | .waiting (.broadcast size) =>
      match size.check with
      | .error _ => (r, .answered, [])
      | .ok () => (r.setDefaultSize size, .answered, [])
  | .waiting .look => (r, .answered, [])
  | call => (r, call, [])

/-- The registry, and the calls that reach it. -/
structure InFlight where
  registry : Registry
  calls : List Call

/-- Whose turn it is, and the system at that time. -/
structure Turn (D : Type) where
  call : Nat
  host : Host D

/-- The next section of the call whose turn it is. -/
def step (s : InFlight) (turn : Turn D) : InFlight × List Change :=
  match s.calls[turn.call]? with
  | none => (s, [])
  | some call =>
      let (registry, next, changes) := call.advance turn.host s.registry
      ({ registry, calls := s.calls.set turn.call next }, changes)

/-- A manager without sessions, and what is asked of it from then on. -/
def arrive (defaultSize : Size) (requests : List Request) : InFlight :=
  { registry := { defaultSize }, calls := requests.map .waiting }

/-! ## What a section can do -/

/-- What a call has done with a number. -/
def Call.mark : Call → Option Change
  | .starting id _ _ => some (.reserved id)
  | .created id (.error _) => some (.refused id)
  | .created id (.ok _) => some (.registered id)
  | .closed id (.ok _) => some (.closed id)
  | _ => none

/-- The sections there are, by what they do to the registry and what is written down of them. -/
inductive Advances (r : Registry) : Call → Registry → Call → List Change → Prop where
  | reserve (options : SessionOptions) (size : Size) :
      Advances r (.waiting (.create options)) r.reserve.2.2 (.starting r.nextId options size)
        [.reserved r.nextId]
  | refuse (id : SessionId) (options : SessionOptions) (size : Size) (e : SessionError) :
      Advances r (.starting id options size) r (.created id (.error e)) [.refused id]
  | register (id : SessionId) (options : SessionOptions) (size : Size)
      (hactive : r.active.isNone = false) :
      Advances r (.starting id options size) (r.register id) (.created id (.ok id))
        [.registered id]
  | registerFirst (id : SessionId) (options : SessionOptions) (size : Size)
      (hactive : r.active.isNone = true) :
      Advances r (.starting id options size) (r.register id) (.created id (.ok id))
        [.registered id, .activated id]
  | close {id : SessionId} {closed : Registry} (hclosed : r.remove? id = some closed) :
      Advances r (.waiting (.close id)) closed (.closed id (.ok closed.active)) [.closed id]
  | switch {id : SessionId} {switched : Registry} (hswitch : r.switch? id = some switched) :
      Advances r (.waiting (.switch id)) switched (.switched id (.ok ())) [.activated id]
  | answer (request : Request) {next : Call} (size : Size) (hnext : next.mark = none) :
      Advances r (.waiting request) (r.setDefaultSize size) next []
  | finished (call : Call) : Advances r call r call []

/-- What a call does when its turn comes is one of the sections. -/
theorem Call.advances (host : Host D) (r : Registry) (call : Call) :
    Advances r call (call.advance host r).1 (call.advance host r).2.1
      (call.advance host r).2.2 := by
  cases call with
  | waiting request =>
      cases request with
      | create options => exact .reserve options _
      | close id =>
          rw [advance]
          cases hclosed : r.remove? id with
          | none => exact .answer _ r.defaultSize rfl
          | some closed => exact .close hclosed
      | switch id =>
          rw [advance]
          cases hswitch : r.switch? id with
          | none => exact .answer _ r.defaultSize rfl
          | some switched => exact .switch hswitch
      | broadcast size =>
          rw [advance]
          cases size.check with
          | error e => exact .answer _ r.defaultSize rfl
          | ok _ => exact .answer _ size rfl
      | look => exact .answer _ r.defaultSize rfl
  | starting id options size =>
      rw [advance]
      cases Session.spawn host id options size with
      | error e => exact .refuse id options size e
      | ok s =>
          dsimp only
          cases hactive : r.active.isNone with
          | true => exact .registerFirst id options size hactive
          | false => exact .register id options size hactive
  | created id outcome => exact .finished _
  | closed id outcome => exact .finished _
  | switched id outcome => exact .finished _
  | answered => exact .finished _

/-! ### One call alone

When no other call comes in between, the sections of a call are what the manager does. -/

/-- A command to one session leaves the registry as it is. -/
theorem onCommand_registry (m : Manager D) (id : SessionId)
    (f : Session D → Session D × Except SessionError Unit) :
    (m.onCommand id f).1.registry = m.registry := by
  have hsession : (m.onSession id f).1.registry = m.registry := by
    rw [onSession]
    split <;> rfl
  rw [onCommand]
  split <;> rename_i heq <;> rw [heq] at hsession
  · split <;> exact hsession
  · exact hsession

/-- A session that is created without another call in between is created in two turns. -/
theorem run_create (host : Host D) (m : Manager D) (options : SessionOptions) :
    (Machine.run step ⟨m.registry, [.waiting (.create options)]⟩ [⟨0, host⟩, ⟨0, host⟩]).1
      = ⟨(m.create host options).1.registry,
          [.created m.registry.nextId (m.create host options).2]⟩ := by
  rw [create]
  show (step ⟨m.registry.reserve.2.2, [.starting m.registry.nextId options
    (options.size.getD m.registry.defaultSize)]⟩ ⟨0, host⟩).1 = _
  dsimp only [step, List.getElem?_cons_zero, Call.advance, Registry.reserve]
  cases hspawn : Session.spawn host m.registry.nextId options
      (options.size.getD m.registry.defaultSize) with
  | error e => rfl
  | ok s =>
      have hid := Session.spawn_id hspawn
      dsimp only
      rw [register, hid]
      rfl

/-- Closing a session takes one turn. -/
theorem run_close (host : Host D) (m : Manager D) (id : SessionId) :
    (Machine.run step ⟨m.registry, [.waiting (.close id)]⟩ [⟨0, host⟩]).1
      = ⟨(m.close id).1.registry, [.closed id (m.close id).2]⟩ := by
  rw [Machine.run_singleton, close]
  dsimp only [step, List.getElem?_cons_zero, Call.advance]
  cases m.registry.remove? id with
  | none => rfl
  | some registry =>
      dsimp only
      rw [onCommand_registry]
      rfl

/-- So does switching to one. -/
theorem run_switch (host : Host D) (m : Manager D) (id : SessionId) :
    (Machine.run step ⟨m.registry, [.waiting (.switch id)]⟩ [⟨0, host⟩]).1
      = ⟨(m.switch id).1.registry, [.switched id (m.switch id).2]⟩ := by
  rw [Machine.run_singleton, switch]
  dsimp only [step, List.getElem?_cons_zero, Call.advance]
  cases m.registry.switch? id with
  | none => rfl
  | some registry => rfl

/-- Resizing sessions leaves the registry as it is. -/
theorem resizeEach_registry (m : Manager D) (size : Size) (ids : List SessionId) :
    (m.resizeEach size ids).1.registry = m.registry := by
  induction ids generalizing m with
  | nil => rfl
  | cons id ids ih =>
      rw [resizeEach]
      dsimp only
      rw [ih, onSession]
      split <;> rfl

/-- The part of a broadcast that is done under the lock takes one turn. -/
theorem run_broadcast (host : Host D) (m : Manager D) (size : Size) :
    (Machine.run step ⟨m.registry, [.waiting (.broadcast size)]⟩ [⟨0, host⟩]).1
      = ⟨(m.broadcastResize size).1.registry, [.answered]⟩ := by
  rw [Machine.run_singleton, broadcastResize]
  dsimp only [step, List.getElem?_cons_zero, Call.advance]
  cases size.check with
  | error e => rfl
  | ok _ =>
      dsimp only
      rw [resizeEach_registry]
      rfl

/-! ## The order of use -/

/-- The number of the last entry that is the given one, or zero if there is none. -/
def lastTime (h : List Change) (x : Change) : Nat := h.length - h.reverse.idxOf x

/-- The time of an entry is a place in the record. -/
theorem lastTime_le (h : List Change) (x : Change) : lastTime h x ≤ h.length := Nat.sub_le _ _

/-- Whatever is written down last has the latest time. -/
theorem lastTime_concat (h : List Change) (x y : Change) :
    lastTime (h ++ [y]) x = if y = x then h.length + 1 else lastTime h x := by
  rw [lastTime, List.reverse_append, List.reverse_singleton, List.singleton_append,
    List.idxOf_cons, List.length_append, List.length_singleton, lastTime]
  by_cases hyx : y = x
  · rw [if_pos hyx, beq_iff_eq.mpr hyx]
    rfl
  · rw [if_neg hyx, beq_false_of_ne hyx]
    exact Nat.add_sub_add_right _ 1 _

/-- Time zero is that of what has not been written down. -/
theorem lastTime_eq_zero {h : List Change} {x : Change} (hx : x ∉ h) : lastTime h x = 0 := by
  rw [lastTime, List.idxOf_eq_length (by rwa [List.mem_reverse]), List.length_reverse, Nat.sub_self]

/-- A session comes before another in the order of use if it was made active less recently, or if
    neither was and it was registered after the other.  A session that follows a closed one is the
    last in this order already, so it need not count as made active there. -/
def Precedes (h : List Change) (a b : SessionId) : Prop :=
  lastTime h (.activated a) < lastTime h (.activated b) ∨
  lastTime h (.activated a) = 0 ∧ lastTime h (.activated b) = 0 ∧
    lastTime h (.registered b) < lastTime h (.registered a)

/-- What is written down of other sessions, and what is not about use, leaves the order alone. -/
theorem Precedes.concat {h : List Change} {a b : SessionId} (hab : Precedes h a b) {x : Change}
    (ha : x ≠ .activated a ∧ x ≠ .registered a) (hb : x ≠ .activated b ∧ x ≠ .registered b) :
    Precedes (h ++ [x]) a b := by
  rw [Precedes, lastTime_concat, lastTime_concat, lastTime_concat, lastTime_concat, if_neg ha.1,
    if_neg ha.2, if_neg hb.1, if_neg hb.2]
  exact hab

/-! ## Numbers are accounted for -/

/-- When a call goes on, it is counted for what it is then, and no longer for what it was. -/
theorem countP_set_add {calls : List Call} {i : Nat} {call : Call} (hcall : calls[i]? = some call)
    (next : Call) (p : Call → Bool) :
    (calls.set i next).countP p + (if p call then 1 else 0)
      = calls.countP p + (if p next then 1 else 0) := by
  obtain ⟨hi, rfl⟩ := List.getElem?_eq_some_iff.mp hcall
  have hle : (if p calls[i] then 1 else 0) ≤ calls.countP p := by
    split
    case isTrue h => exact List.countP_pos_iff.mpr ⟨calls[i], List.getElem_mem hi, h⟩
    case isFalse => exact Nat.zero_le _
  rw [List.countP_set hi]
  omega

/-- The number of calls that have done the given thing. -/
def marked (calls : List Call) (x : Change) : Nat := calls.countP (·.mark == some x)

/-- A call that goes on gives up its mark and takes the next one. -/
theorem marked_set {calls : List Call} {i : Nat} {call : Call} (hcall : calls[i]? = some call)
    (next : Call) (x : Change) :
    marked (calls.set i next) x + (if call.mark = some x then 1 else 0)
      = marked calls x + (if next.mark = some x then 1 else 0) := by
  have hcount := countP_set_add hcall next (·.mark == some x)
  simpa only [marked, beq_iff_eq] using hcount

/-- Whether a call has yet to reach the registry. -/
def Call.isWaiting : Call → Bool
  | .waiting _ => true
  | _ => false

/-- Whether something ends what can be done with a number in one call. -/
def Change.isFinal : Change → Bool
  | .refused _ | .registered _ | .closed _ => true
  | .reserved _ | .activated _ => false

namespace Advances

variable {r s : Registry} {call next : Call} {changes : List Change}

/-- What is written down of a section is what it has done to the call. -/
theorem count_final (h : Advances r call s next changes) {x : Change} (hx : x.isFinal = true) :
    changes.count x + (if call.mark = some x then 1 else 0)
      = (if next.mark = some x then 1 else 0) := by
  cases h with
  | answer request size hnext =>
      rw [hnext]
      rfl
  | finished => exact Nat.zero_add _
  | _ => cases x <;> simp_all [Call.mark, Change.isFinal, List.count_cons]

/-- A number that is handed out belongs to the call from then on. -/
theorem count_reserved (h : Advances r call s next changes) (id : SessionId) :
    changes.count (.reserved id) + ((if call.mark = some (.reserved id) then 1 else 0)
        + (if call.mark = some (.refused id) then 1 else 0)
        + (if call.mark = some (.registered id) then 1 else 0))
      = (if next.mark = some (.reserved id) then 1 else 0)
        + (if next.mark = some (.refused id) then 1 else 0)
        + (if next.mark = some (.registered id) then 1 else 0) := by
  cases h with
  | answer request size hnext =>
      rw [hnext]
      rfl
  | finished => exact Nat.zero_add _
  | _ => simp [Call.mark, List.count_cons]

/-- What is registered afterwards was so before or is registered by the call, and what is not so
    any longer is closed by it. -/
theorem count_registered (h : Advances r call s next changes) (hr : r.Consistent)
    (hcount : ∀ id, r.registered.count id ≤ 1) (id : SessionId) :
    s.registered.count id + (if next.mark = some (.closed id) then 1 else 0)
        + (if call.mark = some (.registered id) then 1 else 0)
      = r.registered.count id + (if next.mark = some (.registered id) then 1 else 0)
        + (if call.mark = some (.closed id) then 1 else 0) := by
  cases h with
  | reserve | refuse => simp [Call.mark, Registry.reserve]
  | register other | registerFirst other =>
      rw [(hr.register_recent _).2]
      simp [Call.mark, List.count_cons]
  | @close other _ hclosed =>
      obtain ⟨hother, rfl⟩ := Registry.remove?_eq_some hclosed
      by_cases hid : other = id
      · have hone : r.registered.count id = 1 :=
          Nat.le_antisymm (hcount id) (List.count_pos_iff.mpr (hid ▸ hother))
        have hnone : (r.registered.filter (· != other)).count id = 0 :=
          List.count_eq_zero.mpr fun hmem => by simp [hid] at hmem
        simp [Call.mark, hid, hone, hid ▸ hnone]
      · have hsame : (r.registered.filter (· != other)).count id = r.registered.count id :=
          List.count_filter (bne_iff_ne.mpr (Ne.symm hid))
        simp [Call.mark, hid, hsame]
  | switch hswitch =>
      obtain ⟨-, rfl⟩ := Registry.switch?_eq_some hswitch
      simp [Call.mark, Registry.activate]
  | answer request size hnext =>
      rw [hnext]
      rfl
  | finished => omega

/-- Numbers are handed out in ascending order. -/
theorem nextId_le (h : Advances r call s next changes) : r.nextId ≤ s.nextId := by
  cases h with
  | reserve => exact Nat.le_succ _
  | register | registerFirst =>
      rw [Registry.register]
      dsimp only
      split <;> exact Nat.le_refl _
  | close hclosed =>
      obtain ⟨-, rfl⟩ := Registry.remove?_eq_some hclosed
      exact Nat.le_refl _
  | switch hswitch =>
      obtain ⟨-, rfl⟩ := Registry.switch?_eq_some hswitch
      exact Nat.le_refl _
  | refuse | answer | finished => exact Nat.le_refl _

/-- A call that a number is handed out to has waited for it, and does so no longer. -/
theorem nextId_add_le (h : Advances r call s next changes) :
    s.nextId + (if next.isWaiting then 1 else 0)
      ≤ r.nextId + (if call.isWaiting then 1 else 0) := by
  cases h with
  | reserve => exact Nat.le_refl _
  | register | registerFirst =>
      rw [Registry.register]
      dsimp only
      split <;> exact Nat.le_refl _
  | close hclosed =>
      obtain ⟨-, rfl⟩ := Registry.remove?_eq_some hclosed
      exact Nat.le_succ _
  | switch hswitch =>
      obtain ⟨-, rfl⟩ := Registry.switch?_eq_some hswitch
      exact Nat.le_succ _
  | answer =>
      refine Nat.add_le_add_left ?_ r.nextId
      split
      · exact Nat.le_refl 1
      · exact Nat.zero_le 1
  | refuse | finished => exact Nat.le_refl _

/-- A section hands out no number, or the next one. -/
theorem reserved_changes (h : Advances r call s next changes) :
    (∀ id, .reserved id ∉ changes) ∨
      changes = [.reserved r.nextId] ∧ s.nextId = r.nextId + 1 := by
  cases h with
  | reserve => exact .inr ⟨rfl, rfl⟩
  | _ => exact .inl fun id hid => by simp at hid

end Advances

/-- The registry, the calls under way and the record agree: every number is handed out once, its
    session is on its way, refused or registered, and once registered it stays so until it is
    closed.  The order of the sessions is that of their use. -/
structure Accounts (s : InFlight) (h : List Change) : Prop where
  consistent : s.registry.Consistent
  ordered : s.registry.recent.Pairwise (Precedes h)
  activated : ∀ id, .activated id ∈ h → .registered id ∈ h
  fresh : ∀ id, .reserved id ∈ h → id < s.registry.nextId
  once : ∀ id, h.count (.reserved id) ≤ 1
  recorded : ∀ x, x.isFinal = true → h.count x = marked s.calls x
  reserved_eq : ∀ id, h.count (.reserved id)
    = marked s.calls (.reserved id) + marked s.calls (.refused id) + marked s.calls (.registered id)
  registered_eq : ∀ id, marked s.calls (.registered id)
    = marked s.calls (.closed id) + s.registry.registered.count id

namespace Accounts

variable {r s : Registry} {calls : List Call} {record changes : List Change} {call next : Call}
  {i : Nat} {id : SessionId}

/-- At the start nothing is written down, and all calls wait. -/
theorem arrive (size : Size) (requests : List Request) : Accounts (arrive size requests) [] := by
  have hmarked : ∀ x, marked (Manager.arrive size requests).calls x = 0 := by
    intro x
    refine List.countP_eq_zero.mpr fun call hcall => ?_
    obtain ⟨request, -, rfl⟩ := List.mem_map.mp hcall
    exact Bool.false_ne_true
  exact {
    consistent := .new size
    ordered := List.Pairwise.nil
    activated := nofun
    fresh := nofun
    once := fun _ => Nat.zero_le 1
    recorded := fun x _ => (hmarked x).symm
    reserved_eq := fun id => by rw [hmarked, hmarked, hmarked]; rfl
    registered_eq := fun id => by rw [hmarked, hmarked]; rfl }

/-- A session that is on its way has not been registered. -/
theorem of_starting (h : Accounts ⟨r, calls⟩ record) {options : SessionOptions} {size : Size}
    (hcall : calls[i]? = some (.starting id options size)) :
    id ∉ r.registered ∧ .registered id ∉ record := by
  have hmarked : 0 < marked calls (.reserved id) :=
    List.countP_pos_iff.mpr ⟨_, List.mem_of_getElem? hcall, beq_self_eq_true _⟩
  have honce := h.once id
  have hreserved := h.reserved_eq id
  have hregistered := h.registered_eq id
  have hrecorded := h.recorded (.registered id) rfl
  dsimp only at hreserved hregistered hrecorded
  exact ⟨List.count_eq_zero.mp (by omega), List.count_eq_zero.mp (by omega)⟩

/-- A session is registered at most once at a time. -/
theorem count_registered_le (h : Accounts ⟨r, calls⟩ record) (id : SessionId) :
    r.registered.count id ≤ 1 := by
  have honce := h.once id
  have hreserved := h.reserved_eq id
  have hregistered := h.registered_eq id
  dsimp only at hreserved hregistered
  omega

/-- No section of a call leaves the registry in disorder.  The only one that asks for something is
    the registration, and its number is not registered since it is still on its way. -/
theorem consistent_advance (h : Accounts ⟨r, calls⟩ record) (hcall : calls[i]? = some call)
    (hstep : Advances r call s next changes) : s.Consistent := by
  cases hstep with
  | reserve => exact h.consistent.reserve
  | register | registerFirst => exact h.consistent.register (h.of_starting hcall).1
  | close hclosed => exact h.consistent.remove hclosed
  | switch hswitch =>
      obtain ⟨hid, rfl⟩ := Registry.switch?_eq_some hswitch
      exact h.consistent.activate hid
  | answer _ size => exact h.consistent.setDefaultSize size
  | refuse | finished => exact h.consistent

/-- A change that is not about use leaves the order of any sessions alone. -/
theorem ordered_concat {ids : List SessionId} (h : ids.Pairwise (Precedes record)) {x : Change}
    (hx : ∀ id ∈ ids, x ≠ .activated id ∧ x ≠ .registered id) :
    ids.Pairwise (Precedes (record ++ [x])) :=
  h.imp_of_mem fun ha hb hab => hab.concat (hx _ ha) (hx _ hb)

/-- The session that is made the active one was so most recently. -/
theorem ordered_activate (h : Accounts ⟨r, calls⟩ record) (id : SessionId) :
    (r.activate id).recent.Pairwise (Precedes (record ++ [.activated id])) := by
  have hothers : ∀ other ∈ r.recent.filter (· != id), other ≠ id := fun other hother =>
    bne_iff_ne.mp (List.mem_filter.mp hother).2
  refine List.pairwise_append.mpr ⟨?_, List.pairwise_singleton _ _, ?_⟩
  · refine ordered_concat (h.ordered.filter _) fun other hother => ⟨?_, nofun⟩
    exact fun heq => hothers other hother (Change.activated.inj heq).symm
  · intro other hother last hlast
    rw [List.mem_singleton.mp hlast]
    refine .inl ?_
    have hle := lastTime_le record (.activated other)
    rw [lastTime_concat, lastTime_concat, if_pos rfl,
      if_neg fun heq => hothers other hother (Change.activated.inj heq).symm]
    exact Nat.lt_succ_of_le hle

/-- A session that is registered while another is active comes before all others. -/
theorem ordered_register (h : Accounts ⟨r, calls⟩ record) (hid : id ∉ r.registered)
    (hnew : .registered id ∉ record) :
    (id :: r.recent).Pairwise (Precedes (record ++ [.registered id])) := by
  have hothers : ∀ other ∈ r.recent, Change.registered id ≠ .registered other := by
    intro other hother heq
    rw [← Change.registered.inj heq, h.consistent.mem_iff] at hother
    exact hid hother
  refine List.pairwise_cons.mpr ⟨?_, ?_⟩
  · intro other hother
    have hnever : lastTime record (.activated id) = 0 :=
      lastTime_eq_zero fun hmem => hnew (h.activated id hmem)
    have hle := lastTime_le record (.registered other)
    rw [Precedes, lastTime_concat, lastTime_concat, lastTime_concat, lastTime_concat, if_pos rfl,
      if_neg (hothers other hother), if_neg nofun, if_neg nofun, hnever]
    rcases Nat.eq_zero_or_pos (lastTime record (.activated other)) with hother | hother
    · exact .inr ⟨rfl, hother, Nat.lt_succ_of_le hle⟩
    · exact .inl hother
  · exact ordered_concat h.ordered fun other hother => ⟨nofun, hothers other hother⟩

/-- The order of the sessions remains that of their use, as far as it is written down by then. -/
theorem ordered_advance (h : Accounts ⟨r, calls⟩ record) (hcall : calls[i]? = some call)
    (hstep : Advances r call s next changes) :
    s.recent.Pairwise (Precedes (record ++ changes)) := by
  cases hstep with
  | reserve | refuse => exact ordered_concat h.ordered fun _ _ => ⟨nofun, nofun⟩
  | register =>
      rw [(h.consistent.register_recent _).1]
      exact h.ordered_register (h.of_starting hcall).1 (h.of_starting hcall).2
  | registerFirst id options size hactive =>
      -- there are no others
      rw [(h.consistent.register_recent _).1]
      have hempty : r.recent = [] := by
        rw [← List.getLast?_eq_none_iff, ← h.consistent.active_eq]
        exact Option.isNone_iff_eq_none.mp hactive
      rw [hempty]
      exact List.pairwise_singleton _ _
  | close hclosed =>
      obtain ⟨-, rfl⟩ := Registry.remove?_eq_some hclosed
      exact ordered_concat (h.ordered.filter _) fun _ _ => ⟨nofun, nofun⟩
  | switch hswitch =>
      obtain ⟨-, rfl⟩ := Registry.switch?_eq_some hswitch
      exact h.ordered_activate _
  | answer | finished =>
      rw [List.append_nil]
      exact h.ordered

/-- Only registered sessions are made active. -/
theorem activated_advance (h : Accounts ⟨r, calls⟩ record)
    (hstep : Advances r call s next changes)
    (hid : .activated id ∈ record ++ changes) : .registered id ∈ record ++ changes := by
  rcases List.mem_append.mp hid with hid | hid
  · exact List.mem_append_left _ (h.activated id hid)
  · cases hstep with
    | registerFirst => simp_all
    | switch hswitch =>
        have hmem := (Registry.switch?_eq_some hswitch).1
        rw [← Change.activated.inj (List.mem_singleton.mp hid)] at hmem
        have hregistered := h.registered_eq id
        have hrecorded := h.recorded (.registered id) rfl
        have hpos := List.count_pos_iff.mpr hmem
        dsimp only at hregistered hrecorded
        exact List.mem_append_left _ (List.count_pos_iff.mp (by omega))
    | _ => simp at hid

/-- **One section keeps the accounts.** -/
theorem advance (h : Accounts ⟨r, calls⟩ record) (hcall : calls[i]? = some call)
    (hstep : Advances r call s next changes) :
    Accounts ⟨s, calls.set i next⟩ (record ++ changes) where
  consistent := h.consistent_advance hcall hstep
  ordered := h.ordered_advance hcall hstep
  activated := fun _ hid => h.activated_advance hstep hid
  fresh := by
    intro id hid
    rcases List.mem_append.mp hid with hid | hid
    · exact Nat.lt_of_lt_of_le (h.fresh id hid) hstep.nextId_le
    · rcases hstep.reserved_changes with hnone | ⟨hone, hnext⟩
      · exact absurd hid (hnone id)
      · rw [hone] at hid
        rw [Change.reserved.inj (List.mem_singleton.mp hid)]
        exact hnext ▸ Nat.lt_succ_self _
  once := by
    intro id
    rw [List.count_append]
    rcases hstep.reserved_changes with hnone | ⟨hone, hnext⟩
    · rw [List.count_eq_zero.mpr (hnone id)]
      exact h.once id
    · rw [hone]
      by_cases hid : id = r.nextId
      · -- the next number has not been handed out before
        have hnever : .reserved id ∉ record := fun hmem =>
          absurd (h.fresh id hmem) (hid ▸ Nat.lt_irrefl _)
        refine Nat.le_of_eq ?_
        rw [List.count_eq_zero.mpr hnever, Nat.zero_add, hid, List.count_singleton_self]
      · have hother : .reserved id ∉ [Change.reserved r.nextId] := fun hmem =>
          hid (Change.reserved.inj (List.mem_singleton.mp hmem))
        rw [List.count_eq_zero.mpr hother]
        exact h.once id
  recorded := by
    intro x hx
    have hset := marked_set hcall next x
    have hrecorded := h.recorded x hx
    have hchange := hstep.count_final hx
    dsimp only at hrecorded ⊢
    rw [List.count_append]
    omega
  reserved_eq := by
    intro id
    have hreserved := marked_set hcall next (.reserved id)
    have hrefused := marked_set hcall next (.refused id)
    have hregistered := marked_set hcall next (.registered id)
    have heq := h.reserved_eq id
    have hchange := hstep.count_reserved id
    dsimp only at heq ⊢
    rw [List.count_append]
    omega
  registered_eq := by
    intro id
    have hregistered := marked_set hcall next (.registered id)
    have hclosed := marked_set hcall next (.closed id)
    have heq := h.registered_eq id
    have hchange := hstep.count_registered h.consistent h.count_registered_le id
    dsimp only at heq ⊢
    omega

end Accounts

/-- Every turn keeps the accounts. -/
theorem Accounts.step {s : InFlight} {record : List Change} (h : Accounts s record)
    (turn : Turn D) :
    Accounts (step s turn).1 (record ++ (Manager.step s turn).2) := by
  rw [Manager.step]
  cases hcall : s.calls[turn.call]? with
  | none =>
      rw [List.append_nil]
      exact h
  | some call => exact h.advance hcall (call.advances turn.host s.registry)

/-- Any schedule keeps the accounts. -/
theorem Accounts.run {s : InFlight} {record : List Change} (h : Accounts s record)
    (schedule : List (Turn D)) :
    Accounts (Machine.run Manager.step s schedule).1
      (record ++ (Machine.run Manager.step s schedule).2) := by
  induction schedule generalizing s record with
  | nil =>
      rw [Machine.run_nil, List.append_nil]
      exact h
  | cons turn schedule ih =>
      rw [Machine.run_cons, ← List.append_assoc]
      exact ih (h.step turn)

/-- One section hands out at most one number, and then one call less waits. -/
theorem nextId_add_step_le (s : InFlight) (turn : Turn D) :
    (step s turn).1.registry.nextId + (step s turn).1.calls.countP Call.isWaiting
      ≤ s.registry.nextId + s.calls.countP Call.isWaiting := by
  rw [step]
  cases hcall : s.calls[turn.call]? with
  | none => exact Nat.le_refl _
  | some call =>
      have hadvance := (call.advances turn.host s.registry).nextId_add_le
      have hcount := countP_set_add hcall (call.advance turn.host s.registry).2.1 Call.isWaiting
      -- stated of numbers as such, which session numbers only abbreviate
      have hsum : ∀ a b c d e f : Nat, a + c ≤ b + d → e + d = f + c → a + e ≤ b + f := by omega
      exact hsum _ _ _ _ _ _ hadvance hcount

/-- **Numbers are as small as the calls are few.**  They count up from one, at most one of them for
    a call, so they fit into any word that the number of calls fits into: 64 bits are enough until
    2^64 - 1 sessions have been asked for. -/
theorem reserved_le_length (defaultSize : Size) (requests : List Request)
    (schedule : List (Turn D)) :
    let s := (Machine.run step (arrive defaultSize requests) schedule).1
    let record := (Machine.run step (arrive defaultSize requests) schedule).2
    s.registry.nextId ≤ requests.length + 1 ∧
      ∀ id, .reserved id ∈ record → id ≤ requests.length := by
  intro s record
  have hstart : 1 + (requests.map Call.waiting).countP Call.isWaiting ≤ requests.length + 1 := by
    have hcount := List.countP_le_length (p := Call.isWaiting) (l := requests.map Call.waiting)
    rw [List.length_map] at hcount
    omega
  have hrun : s.registry.nextId + s.calls.countP Call.isWaiting ≤ requests.length + 1 := by
    refine Machine.run_invariant (I := fun s : InFlight =>
      s.registry.nextId + s.calls.countP Call.isWaiting ≤ requests.length + 1) ?_ hstart
    intro s turn _ hs
    exact Nat.le_trans (nextId_add_step_le s turn) hs
  have hnext : s.registry.nextId ≤ requests.length + 1 :=
    Nat.le_trans (Nat.le_add_right _ _) hrun
  refine ⟨hnext, fun id hid => ?_⟩
  have haccounts : Accounts s record := (Accounts.arrive defaultSize requests).run schedule
  exact Nat.le_of_lt_succ (Nat.lt_of_lt_of_le (haccounts.fresh id hid) hnext)

/-- What follows a session that is closed: of those that remain, the last in the order of use. -/
theorem Accounts.close {s : InFlight} {record : List Change} (h : Accounts s record) {turn : Turn D}
    {id : SessionId} (hcall : s.calls[turn.call]? = some (.waiting (.close id)))
    (hactive : s.registry.active = some id) :
    let next := (Manager.step s turn).1
    next.registry.registered = s.registry.registered.filter (· != id) ∧
    next.calls[turn.call]? = some (.closed id (.ok next.registry.active)) ∧
    (next.registry.registered = [] ∧ next.registry.active = none ∨
      ∃ other ∈ next.registry.registered, next.registry.active = some other ∧
        ∀ another ∈ next.registry.registered, another ≠ other →
          Precedes record another other) := by
  have hid : id ∈ s.registry.registered := by
    rw [← h.consistent.mem_iff]
    exact List.mem_of_getLast? (h.consistent.active_eq ▸ hactive)
  have hi : turn.call < s.calls.length := (List.getElem?_eq_some_iff.mp hcall).1
  have hstep : (Manager.step s turn).1 = {
      registry := { s.registry with
        registered := s.registry.registered.filter (· != id)
        recent := s.registry.recent.filter (· != id)
        active := (s.registry.recent.filter (· != id)).getLast? }
      calls := s.calls.set turn.call
        (.closed id (.ok (s.registry.recent.filter (· != id)).getLast?)) } := by
    rw [Manager.step, hcall]
    dsimp only [Call.advance]
    rw [Registry.remove?, if_pos hid]
    dsimp only
    rw [if_pos hactive]
  have hconsistent := (h.step turn).consistent
  rw [hstep] at hconsistent ⊢
  refine ⟨rfl, List.getElem?_set_self hi, ?_⟩
  dsimp only at hconsistent ⊢
  cases hlast : (s.registry.recent.filter (· != id)).getLast? with
  | none =>
      refine .inl ⟨hconsistent.active_eq_none.mp hlast, rfl⟩
  | some other =>
      obtain ⟨others, hrecent⟩ := List.getLast?_eq_some_iff.mp hlast
      have hordered := h.ordered.filter (· != id)
      rw [hrecent] at hordered
      refine .inr ⟨other, (hconsistent.mem_iff other).mp (List.mem_of_getLast? hlast), rfl, ?_⟩
      intro another hanother hne
      rw [← hconsistent.mem_iff] at hanother
      dsimp only at hanother
      rw [hrecent] at hanother
      have hbefore : another ∈ others :=
        (List.mem_append.mp hanother).resolve_right fun hmem => hne (List.mem_singleton.mp hmem)
      exact (List.pairwise_append.mp hordered).2.2 another hbefore other
        (List.mem_singleton_self other)

/-- **Calls may come between each other in any order.**  Whatever is asked of a manager, and
    whoever's turn it is: the sessions in the order of their use are the registered ones and the
    last of them is the active one, no number is handed out or registered twice, one call at most
    closes a session, a command that does not start registers nothing, and where the active session
    is closed the last of the others follows in the order of use. -/
theorem registry_run (defaultSize : Size) (requests : List Request) (schedule : List (Turn D)) :
    let s := (Machine.run step (arrive defaultSize requests) schedule).1
    let record := (Machine.run step (arrive defaultSize requests) schedule).2
    (s.registry.recent.Nodup ∧ ∀ id, id ∈ s.registry.recent ↔ id ∈ s.registry.registered) ∧
    (s.registry.active = s.registry.recent.getLast? ∧
      (s.registry.active = none ↔ s.registry.registered = [])) ∧
    (∀ id, record.count (.reserved id) ≤ 1 ∧
      marked s.calls (.reserved id) + marked s.calls (.refused id) + marked s.calls (.registered id)
        = record.count (.reserved id)) ∧
    (∀ id, record.count (.registered id) ≤ 1 ∧
      (.closed id ∈ record → id ∉ s.registry.registered)) ∧
    (∀ id, marked s.calls (.closed id) ≤ 1) ∧
    (∀ id e, .created id (.error e) ∈ s.calls →
      .registered id ∉ record ∧ id ∉ s.registry.registered) ∧
    ∀ (turn : Turn D) id, s.calls[turn.call]? = some (.waiting (.close id)) →
      s.registry.active = some id →
      let next := (step s turn).1
      next.registry.registered = s.registry.registered.filter (· != id) ∧
      next.calls[turn.call]? = some (.closed id (.ok next.registry.active)) ∧
      (next.registry.registered = [] ∧ next.registry.active = none ∨
        ∃ other ∈ next.registry.registered, next.registry.active = some other ∧
          ∀ another ∈ next.registry.registered, another ≠ other →
            Precedes record another other) := by
  intro s record
  have h : Accounts s record := (Accounts.arrive defaultSize requests).run schedule
  have hcounts : ∀ id, _ := fun id =>
    And.intro (h.once id) (And.intro (h.reserved_eq id) (And.intro (h.registered_eq id)
      (And.intro (h.recorded (.registered id) rfl) (h.recorded (.closed id) rfl))))
  refine ⟨⟨h.consistent.nodup, h.consistent.mem_iff⟩,
    ⟨h.consistent.active_eq, h.consistent.active_eq_none⟩,
    fun id => ⟨h.once id, (h.reserved_eq id).symm⟩, ?_, ?_, ?_, ?_⟩
  · intro id
    obtain ⟨honce, hreserved, hregistered, hrecorded, hclosed⟩ := hcounts id
    refine ⟨by omega, fun hmem => List.count_eq_zero.mp ?_⟩
    have hpos := List.count_pos_iff.mpr hmem
    omega
  · intro id
    obtain ⟨honce, hreserved, hregistered, -, -⟩ := hcounts id
    omega
  · intro id e hcall
    obtain ⟨honce, hreserved, hregistered, hrecorded, -⟩ := hcounts id
    have hrefused : 0 < marked s.calls (.refused id) :=
      List.countP_pos_iff.mpr ⟨_, hcall, beq_iff_eq.mpr rfl⟩
    exact ⟨List.count_eq_zero.mp (by omega), List.count_eq_zero.mp (by omega)⟩
  · exact fun turn id hcall hactive => h.close hcall hactive

-- the first two sessions are registered the other way round, and the second of them is closed
example :
    let host : Host LineDiscipline := ⟨fun _ => none, {}⟩
    let requests : List Request := [.create {}, .create {}, .switch 1, .close 2]
    let record := (Machine.run step (arrive ⟨2, 1⟩ requests)
      ([0, 1, 1, 0, 3].map fun call => ⟨call, host⟩))
    record.1.registry.active = some 1 ∧
      record.2 = [.reserved 1, .reserved 2, .registered 2, .activated 2, .registered 1,
        .closed 2] := by
  decide +kernel

end Manager

end VideoTerminal
