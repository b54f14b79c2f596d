import VideoTerminal.LineDiscipline
import VideoTerminal.Proofs.Frame
import VideoTerminal.Proofs.Reachable

/-!
# What failed operations leave behind

An operation on a session fails because the session is closed, because no terminal may have the
size that is asked for, or because of the command.  In the first two cases nothing should have been
done.  That is so for all operations but one: a restart takes over the new options, and the size
that goes with them, before it looks whether a terminal may have this size.

So the session may say afterwards that it has a size that its terminal does not have.
`restart_cases` is what a restart can do; everything else is drawn from that.  `Sized` is what holds
of every session, and `InStep` what holds as long as no options ask for a size that no terminal may
have.
-/

namespace VideoTerminal

/-! ## Output does not change the size -/

namespace Emulator

/-- Messages do not change the size. -/
theorem size_act (e : Emulator) (decoder : Decoder) (ms : List Message) :
    (e.act decoder ms).terminal.size = e.terminal.size := by
  rw [act]
  split
  · rfl
  · rw [Terminal.applyAll_eq_run]
    exact Machine.run_invariant (I := fun t : Terminal => t.size = e.terminal.size)
      (fun t m _ ht => (t.size_apply m).trans ht) rfl

/-- Output does not, since it only makes messages. -/
theorem size_write (e : Emulator) (bytes : List UInt8) :
    (e.write bytes).terminal.size = e.terminal.size := e.size_act _ _

/-- The end of the output may complete a message, which does not either. -/
theorem size_flush (e : Emulator) : e.flush.terminal.size = e.terminal.size := e.size_act _ _

end Emulator

variable {D : Type} [TerminalDevice D]

omit [TerminalDevice D] in
/-- A command is started in the size that it is to have, or not at all. -/
theorem Host.start_cases (host : Host D) (options : SessionOptions) (size : Size) :
    (∃ reason, host.start options size = .error (.spawn reason)) ∨
    ∃ child, child.size = size ∧ host.start options size = .ok child := by
  rw [start]
  split
  · exact .inr ⟨_, rfl, rfl⟩
  · rename_i reason _
    exact .inl ⟨reason, rfl⟩

/-- The options ask for no size, or for one that a terminal may have. -/
def SessionOptions.IsSound (o : SessionOptions) : Prop := ∀ size ∈ o.size, size.isValid = true

namespace Session

/-! ## What can happen to a session -/

/-- What can be asked of a session, and refused. -/
inductive Operation (D : Type) where
  | input (bytes : List UInt8)
  | resize (size : Size)
  /-- The host answers for the system at that time. -/
  | restart (host : Host D) (options : Option SessionOptions)
  | close

/-- The session behind an operation, and the outcome. -/
def operate (s : Session D) : Operation D → Session D × Except SessionError Unit
  | .input bytes => s.input bytes
  | .resize size => s.resize size
  | .restart host options => s.restart host options
  | .close => s.close

/-- What happens to a session. -/
inductive Happening (D : Type) where
  | operation (o : Operation D)
  /-- What is on its way arrives. -/
  | arrival
  /-- The terminal is given output. -/
  | output (bytes : List UInt8)

/-- The session behind something that happens. -/
def happen (s : Session D) : Happening D → Session D
  | .operation o => (s.operate o).1
  | .arrival => s.settle
  | .output bytes => s.feed bytes

/-- The session behind all that happens, in order. -/
def after (s : Session D) (hs : List (Happening D)) : Session D := hs.foldl happen s

variable {s : Session D}

/-! ## What an operation can do -/

/-- The options that a restart goes by. -/
def optionsFor (s : Session D) (options : Option SessionOptions) : SessionOptions :=
  options.getD s.options

/-- The size that a restart goes by. -/
def sizeFor (s : Session D) (options : Option SessionOptions) : Size :=
  (s.optionsFor options).size.getD s.size

/-- A terminal of an allowed size can be had. -/
theorem emulator_of_valid {size : Size} (hsize : size.isValid = true) (o : SessionOptions) :
    ∃ fresh, fresh.terminal.size = size ∧ o.emulator size = .ok fresh :=
  ⟨_, rfl, Emulator.create_of_valid hsize o.historyLimit o.sgr21⟩

/-- A terminal of any other size cannot. -/
theorem emulator_of_invalid {size : Size} (hsize : size.isValid = false) (o : SessionOptions) :
    o.emulator size = .error ⟨size⟩ := by
  rw [SessionOptions.emulator, Emulator.create, Size.check, hsize]
  rfl

/-- A restart of a closed session does nothing; one that is refused because of its size takes over
    options and size; any other gets a fresh terminal of that size, and perhaps no command. -/
theorem restart_cases (host : Host D) (s : Session D) (options : Option SessionOptions) :
    (s.isClosed = true ∧ s.restart host options = (s, .error (.closed s.id))) ∨
    (s.isClosed = false ∧ (s.sizeFor options).isValid = false ∧
      s.restart host options
        = ({ s with options := s.optionsFor options, size := s.sizeFor options },
          .error (.size ⟨s.sizeFor options⟩))) ∨
    (s.isClosed = false ∧ (s.sizeFor options).isValid = true ∧ ∃ emulator child outcome,
      emulator.terminal.size = s.sizeFor options ∧
      (∀ c ∈ child, c.size = s.sizeFor options) ∧
      (∀ e, outcome = .error e → e.isRefusal = false) ∧
      s.restart host options
        = ({ s with
              options := s.optionsFor options, size := s.sizeFor options, emulator, child },
          outcome)) := by
  by_cases hclosed : s.isClosed = true
  · refine .inl ⟨hclosed, ?_⟩
    rw [restart, if_pos hclosed]
  · have hopen : s.isClosed = false := Bool.eq_false_iff.mpr hclosed
    refine .inr ?_
    cases hsize : (s.sizeFor options).isValid with
    | false =>
        have hemulator := emulator_of_invalid hsize (s.optionsFor options)
        refine .inl ⟨hopen, rfl, ?_⟩
        rw [sizeFor, optionsFor] at *
        rw [restart, if_neg hclosed]
        dsimp only
        rw [hemulator]
    | true =>
        obtain ⟨fresh, hfresh, hemulator⟩ := emulator_of_valid hsize (s.optionsFor options)
        refine .inr ⟨hopen, rfl, ?_⟩
        rw [sizeFor, optionsFor] at *
        rw [restart, if_neg hclosed]
        dsimp only
        rw [hemulator]
        dsimp only
        have hstart := host.start_cases (options.getD s.options)
          ((options.getD s.options).size.getD s.size)
        rcases hstart with ⟨reason, hstart⟩ | ⟨child, hchild, hstart⟩
        · refine ⟨fresh, none, .error (.child (.spawn reason)), hfresh, ?_, ?_, ?_⟩
          · exact fun c hc => absurd hc (Option.not_mem_none c)
          · rintro e ⟨⟩
            rfl
          · rw [hstart]
        · refine ⟨fresh, some child, .ok (), hfresh, ?_, nofun, ?_⟩
          · rintro _ ⟨⟩
            exact hchild
          · rw [hstart]

/-- A resize does nothing, or brings terminal and command to the size. -/
theorem resize_cases (s : Session D) (size : Size) :
    (s.isClosed = true ∧ s.resize size = (s, .error (.closed s.id))) ∨
    (s.isClosed = false ∧ size.isValid = false ∧ s.resize size = (s, .error (.size ⟨size⟩))) ∨
    (s.isClosed = false ∧ size.isValid = true ∧ ∃ emulator,
      emulator.terminal.size = size ∧
      s.resize size
        = ({ s with emulator, size, child := s.child.map fun c => { c with size } }, .ok ())) := by
  by_cases hclosed : s.isClosed = true
  · refine .inl ⟨hclosed, ?_⟩
    rw [resize, if_pos hclosed]
  · have hopen : s.isClosed = false := Bool.eq_false_iff.mpr hclosed
    refine .inr ?_
    rw [resize, if_neg hclosed, Emulator.resize_eq]
    cases hsize : size.isValid with
    | false => exact .inl ⟨hopen, rfl, rfl⟩
    | true =>
        refine .inr ⟨hopen, rfl, ?_⟩
        rw [if_pos rfl]
        by_cases hsame : size = s.emulator.terminal.size
        · rw [if_pos hsame]
          exact ⟨_, hsame.symm, rfl⟩
        · rw [if_neg hsame]
          exact ⟨_, rfl, rfl⟩

/-! ## What keeps the sizes -/

/-- Sizes and options are as they were, and so is the command, if it has not ended. -/
structure SameSizes (s u : Session D) : Prop where
  id : u.id = s.id
  options : u.options = s.options
  size : u.size = s.size
  terminal : u.emulator.terminal.size = s.emulator.terminal.size
  child : ∀ c ∈ u.child, ∃ d ∈ s.child, c.size = d.size

namespace SameSizes

/-- Nothing has changed. -/
theorem refl (s : Session D) : s.SameSizes s := ⟨rfl, rfl, rfl, rfl, fun c hc => ⟨c, hc, rfl⟩⟩

/-- One thing after the other. -/
theorem trans {s u v : Session D} (h : s.SameSizes u) (h' : u.SameSizes v) : s.SameSizes v where
  id := h'.id.trans h.id
  options := h'.options.trans h.options
  size := h'.size.trans h.size
  terminal := h'.terminal.trans h.terminal
  child := by
    intro c hc
    obtain ⟨d, hd, hcd⟩ := h'.child c hc
    obtain ⟨b, hb, hdb⟩ := h.child d hd
    exact ⟨b, hb, hcd.trans hdb⟩

/-- What the device sends is output, and answers are input. -/
theorem pump (s : Session D) {c : Child D} (hc : c ∈ s.child) : s.SameSizes (s.pump c) := by
  rw [Session.pump]
  split
  · exact .refl s
  · refine ⟨rfl, rfl, rfl, s.emulator.size_write _, ?_⟩
    rintro _ ⟨⟩
    exact ⟨c, hc, rfl⟩

/-- A command that is forgotten has no size any more. -/
theorem dropChild (s : Session D) (c : Child D) : s.SameSizes (s.dropChild c) where
  id := rfl
  options := rfl
  size := rfl
  terminal := (Emulator.size_flush _).trans (s.emulator.size_write _)
  child := fun d hd => absurd hd (Option.not_mem_none d)

/-- What arrives is output, twice at most, or the end of the command. -/
theorem settle (s : Session D) : s.SameSizes s.settle := by
  rw [Session.settle]
  split
  · exact .refl s
  · rename_i c hc
    split
    · exact .dropChild s c
    · have hpump : s.SameSizes (s.pump c) := .pump s hc
      dsimp only
      cases hchild : (s.pump c).child with
      | none => exact hpump
      | some d => exact hpump.trans (.pump _ hchild)

/-- Input goes to the device. -/
theorem input (s : Session D) (bytes : List UInt8) : s.SameSizes (s.input bytes).1 := by
  rw [Session.input]
  split
  · exact .refl s
  · split
    · exact .refl s
    · rename_i c hc
      refine ⟨rfl, rfl, rfl, rfl, ?_⟩
      rintro _ ⟨⟩
      exact ⟨c, hc, rfl⟩

/-- A session that is closed keeps its terminal and forgets its command. -/
theorem close (s : Session D) : s.SameSizes s.close.1 := by
  rw [Session.close]
  split
  · exact .refl s
  · have hclosed : s.SameSizes { s with isClosed := true } :=
      ⟨rfl, rfl, rfl, rfl, fun c hc => ⟨c, hc, rfl⟩⟩
    dsimp only
    split
    · exact hclosed
    · exact hclosed.trans (.dropChild _ _)

/-- Output changes the terminal but not its size. -/
theorem feed (s : Session D) (bytes : List UInt8) : s.SameSizes (s.feed bytes) :=
  ⟨rfl, rfl, rfl, s.emulator.size_write bytes, fun c hc => ⟨c, hc, rfl⟩⟩

end SameSizes

/-- What holds of every session.  The size it says it has is that of its terminal, or else one that
no terminal may have. -/
structure Sized (s : Session D) : Prop where
  terminal : s.emulator.terminal.size.isValid = true
  child : ∀ c ∈ s.child, c.size = s.emulator.terminal.size
  size : s.size.isValid = true → s.size = s.emulator.terminal.size

namespace Sized

/-- What keeps the sizes keeps what holds of every session. -/
theorem sameSizes (h : s.Sized) {u : Session D} (hu : s.SameSizes u) : u.Sized where
  terminal := hu.terminal ▸ h.terminal
  child := by
    intro c hc
    obtain ⟨d, hd, hcd⟩ := hu.child c hc
    rw [hcd, h.child d hd, hu.terminal]
  size := by
    intro hsize
    rw [hu.size] at hsize
    rw [hu.size, hu.terminal]
    exact h.size hsize

/-- A resize brings all sizes to the same, or none. -/
theorem resize (h : s.Sized) (size : Size) : (s.resize size).1.Sized := by
  rcases s.resize_cases size with ⟨-, heq⟩ | ⟨-, -, heq⟩ | ⟨-, hsize, emulator, hterminal, heq⟩
  · rwa [heq]
  · rwa [heq]
  · rw [heq]
    refine ⟨hterminal ▸ hsize, ?_, fun _ => hterminal.symm⟩
    intro c hc
    obtain ⟨d, -, rfl⟩ := Option.map_eq_some_iff.mp hc
    exact hterminal.symm

/-- A restart that is refused leaves a size behind that no terminal may have. -/
theorem restart (h : s.Sized) (host : Host D) (options : Option SessionOptions) :
    (s.restart host options).1.Sized := by
  rcases restart_cases host s options with ⟨-, heq⟩ | ⟨-, hinvalid, heq⟩ |
    ⟨-, hvalid, emulator, child, outcome, hterminal, hchild, -, heq⟩
  · rwa [heq]
  · rw [heq]
    refine ⟨h.terminal, h.child, ?_⟩
    intro hvalid
    rw [show (s.sizeFor options).isValid = true from hvalid] at hinvalid
    cases hinvalid
  · rw [heq]
    exact ⟨hterminal ▸ hvalid, fun c hc => (hchild c hc).trans hterminal.symm,
      fun _ => hterminal.symm⟩

/-- Whatever happens to a session. -/
theorem happen (h : s.Sized) (what : Happening D) : (s.happen what).Sized := by
  cases what with
  | operation o =>
      cases o with
      | input bytes => exact h.sameSizes (.input s bytes)
      | resize size => exact h.resize size
      | restart host options => exact h.restart host options
      | close => exact h.sameSizes (.close s)
  | arrival => exact h.sameSizes (.settle s)
  | output bytes => exact h.sameSizes (.feed s bytes)

/-- The same for all that happens, one after the other. -/
theorem after (h : s.Sized) (hs : List (Happening D)) : (s.after hs).Sized :=
  List.foldlRecOn (motive := Sized) hs Session.happen h fun _ hu what _ => hu.happen what

/-- A session that has just been started. -/
theorem spawn {host : Host D} {id : SessionId} {options : SessionOptions} {size : Size}
    (hspawn : Session.spawn host id options size = .ok s) :
    s.Sized ∧ s.options = options ∧ s.size = s.emulator.terminal.size := by
  rw [Session.spawn] at hspawn
  cases hsize : size.isValid with
  | false =>
      rw [emulator_of_invalid hsize] at hspawn
      cases hspawn
  | true =>
      obtain ⟨fresh, hfresh, hemulator⟩ := emulator_of_valid hsize options
      rw [hemulator] at hspawn
      dsimp only at hspawn
      rcases host.start_cases options size with ⟨reason, hstart⟩ | ⟨child, hchild, hstart⟩
      · rw [hstart] at hspawn
        cases hspawn
      · rw [hstart] at hspawn
        cases hspawn
        refine ⟨⟨hfresh ▸ hsize, ?_, fun _ => hfresh.symm⟩, rfl, hfresh.symm⟩
        rintro _ ⟨⟩
        exact hchild.trans hfresh.symm

end Sized

/-! ## Options that ask for a size no terminal may have -/

/-- An operation brings no options, or options that ask for no size or for one that a terminal may
have. -/
def Operation.IsSound {D : Type} : Operation D → Prop
  | .restart _ (some options) => options.IsSound
  | _ => True

/-- The same for anything that happens. -/
def Happening.IsSound {D : Type} : Happening D → Prop
  | .operation o => o.IsSound
  | _ => True

/-- What holds of a session as long as all options are sound. -/
structure InStep (s : Session D) : Prop where
  sized : s.Sized
  options : s.options.IsSound
  size : s.size = s.emulator.terminal.size

namespace InStep

/-- What keeps the sizes keeps sessions in step. -/
theorem sameSizes (h : s.InStep) {u : Session D} (hu : s.SameSizes u) : u.InStep where
  sized := h.sized.sameSizes hu
  options := hu.options ▸ h.options
  size := hu.size.trans (h.size.trans hu.terminal.symm)

/-- The options of a restart are sound if the given ones and those of the session are. -/
theorem optionsFor (h : s.InStep) {options : Option SessionOptions}
    (hoptions : ∀ o ∈ options, o.IsSound) : (s.optionsFor options).IsSound := by
  cases options with
  | none => exact h.options
  | some o => exact hoptions o rfl

/-- No restart is refused because of its size. -/
theorem isValid_sizeFor (h : s.InStep) {options : Option SessionOptions}
    (hoptions : ∀ o ∈ options, o.IsSound) : (s.sizeFor options).isValid = true := by
  rw [sizeFor]
  cases hsize : (s.optionsFor options).size with
  | none => exact h.size ▸ h.sized.terminal
  | some size => exact h.optionsFor hoptions size hsize

/-- A resize is refused or brings the session in step with its terminal. -/
theorem resize (h : s.InStep) (size : Size) : (s.resize size).1.InStep := by
  have hsized := h.sized.resize size
  rcases s.resize_cases size with ⟨-, heq⟩ | ⟨-, -, heq⟩ | ⟨-, -, emulator, hterminal, heq⟩
  · rwa [heq]
  · rwa [heq]
  · rw [heq] at hsized ⊢
    exact ⟨hsized, h.options, hterminal.symm⟩

/-- A restart with sound options is not refused because of its size. -/
theorem restart (h : s.InStep) (host : Host D) {options : Option SessionOptions}
    (hoptions : ∀ o ∈ options, o.IsSound) : (s.restart host options).1.InStep := by
  have hsized := h.sized.restart host options
  rcases restart_cases host s options with ⟨-, heq⟩ | ⟨-, hinvalid, -⟩ |
    ⟨-, -, emulator, child, outcome, hterminal, -, -, heq⟩
  · rwa [heq]
  · rw [h.isValid_sizeFor hoptions] at hinvalid
    cases hinvalid
  · rw [heq] at hsized ⊢
    exact ⟨hsized, h.optionsFor hoptions, hterminal.symm⟩

/-- Whatever happens with sound options. -/
theorem happen (h : s.InStep) {what : Happening D} (hwhat : what.IsSound) :
    (s.happen what).InStep := by
  cases what with
  | operation o =>
      cases o with
      | input bytes => exact h.sameSizes (.input s bytes)
      | resize size => exact h.resize size
      | restart host options =>
          refine h.restart host ?_
          rintro o ⟨⟩
          exact hwhat
      | close => exact h.sameSizes (.close s)
  | arrival => exact h.sameSizes (.settle s)
  | output bytes => exact h.sameSizes (.feed s bytes)

/-- The same for all that happens. -/
theorem after (h : s.InStep) {hs : List (Happening D)} (hsound : ∀ what ∈ hs, what.IsSound) :
    (s.after hs).InStep :=
  List.foldlRecOn (motive := InStep) hs Session.happen h
    fun _ hu what hwhat => hu.happen (hsound what hwhat)

end InStep

/-! ## Operations that are refused -/

/-- An operation that is refused does nothing, but for a restart that is refused because of its
    size. -/
theorem operate_refused (s : Session D) (o : Operation D) {e : SessionError}
    (he : (s.operate o).2 = .error e) (hrefusal : e.isRefusal = true) :
    (s.operate o).1 = s ∨ ∃ host options, o = .restart host options ∧
      (s.sizeFor options).isValid = false ∧ e = .size ⟨s.sizeFor options⟩ ∧
      (s.operate o).1
        = { s with options := s.optionsFor options, size := s.sizeFor options } := by
  cases o with
  | input bytes =>
      refine .inl ?_
      rw [operate, input] at he ⊢
      by_cases hclosed : s.isClosed = true
      · rw [if_pos hclosed]
      · rw [if_neg hclosed] at he ⊢
        cases hchild : s.child with
        | none => rfl
        | some c =>
            rw [hchild] at he
            cases he
  | resize size =>
      refine .inl ?_
      rw [operate] at he ⊢
      rcases s.resize_cases size with ⟨-, heq⟩ | ⟨-, -, heq⟩ | ⟨-, -, emulator, -, heq⟩
      · rw [heq]
      · rw [heq]
      · rw [heq] at he
        cases he
  | restart host options =>
      rw [operate] at he ⊢
      rcases restart_cases host s options with ⟨-, heq⟩ | ⟨-, hinvalid, heq⟩ |
        ⟨-, -, emulator, child, outcome, -, -, houtcome, heq⟩
      · rw [heq]
        exact .inl rfl
      · rw [heq] at he ⊢
        exact .inr ⟨host, options, rfl, hinvalid, (Except.error.inj he).symm, rfl⟩
      · -- whatever went wrong was wrong with the command
        rw [heq] at he
        rw [houtcome e he] at hrefusal
        cases hrefusal
  | close =>
      refine .inl ?_
      rw [operate, close] at he ⊢
      by_cases hclosed : s.isClosed = true
      · rw [if_pos hclosed]
      · rw [if_neg hclosed] at he
        dsimp only at he
        split at he <;> cases he

/-- A closed session refuses every operation and stays as it is. -/
theorem operate_of_closed (hclosed : s.isClosed = true) (o : Operation D) :
    s.operate o = (s, .error (.closed s.id)) := by
  cases o with
  | input bytes => rw [operate, input, if_pos hclosed]
  | resize size => rw [operate, resize, if_pos hclosed]
  | restart host options => rw [operate, restart, if_pos hclosed]
  | close => rw [operate, close, if_pos hclosed]

/-- A session that has been asked to close is closed. -/
theorem isClosed_close (s : Session D) : s.close.1.isClosed = true := by
  rw [close]
  split
  · assumption
  · dsimp only
    split <;> rfl

/-- Input does not close a session. -/
theorem isClosed_input (s : Session D) (bytes : List UInt8) :
    (s.input bytes).1.isClosed = s.isClosed := by
  rw [input]
  split
  · rfl
  · split <;> rfl

/-- Neither does what the device sends. -/
theorem isClosed_pump (s : Session D) (c : Child D) : (s.pump c).isClosed = s.isClosed := by
  rw [pump]
  split <;> rfl

/-- Nor the end of its command. -/
theorem isClosed_settle (s : Session D) : s.settle.isClosed = s.isClosed := by
  rw [settle]
  split
  · rfl
  · split
    · rfl
    · rename_i c hc hended
      dsimp only
      cases hchild : (s.pump c).child with
      | none => exact isClosed_pump s c
      | some d => exact (isClosed_pump _ d).trans (isClosed_pump s c)

/-- A closed session is not opened again. -/
theorem isClosed_happen (hclosed : s.isClosed = true) (what : Happening D) :
    (s.happen what).isClosed = true := by
  cases what with
  | operation o =>
      rw [happen, operate_of_closed hclosed]
      exact hclosed
  | arrival => exact (isClosed_settle s).trans hclosed
  | output bytes => exact hclosed

/-- Nor is it opened by anything that happens later. -/
theorem isClosed_after (hclosed : s.isClosed = true) (hs : List (Happening D)) :
    (s.after hs).isClosed = true :=
  List.foldlRecOn (motive := fun s : Session D => s.isClosed = true) hs happen hclosed
    fun _ hu what _ => isClosed_happen hu what

/-! ## What stays of a session -/

/-- A session keeps its number. -/
theorem id_happen (s : Session D) (what : Happening D) : (s.happen what).id = s.id := by
  cases what with
  | operation o =>
      cases o with
      | input bytes => exact (SameSizes.input s bytes).id
      | resize size =>
          show (s.resize size).1.id = s.id
          rcases s.resize_cases size with ⟨-, heq⟩ | ⟨-, -, heq⟩ | ⟨-, -, _, -, heq⟩ <;> rw [heq]
      | restart host options =>
          show (s.restart host options).1.id = s.id
          rcases restart_cases host s options with ⟨-, heq⟩ | ⟨-, -, heq⟩ |
            ⟨-, -, _, _, _, -, -, -, heq⟩ <;> rw [heq]
      | close => exact (SameSizes.close s).id
  | arrival => exact (SameSizes.settle s).id
  | output bytes => rfl

/-- In particular when it is resized. -/
theorem id_resize (s : Session D) (size : Size) : (s.resize size).1.id = s.id :=
  s.id_happen (.operation (.resize size))

/-- A closed session refuses a size and stays as it is. -/
theorem resize_of_closed (h : s.isClosed = true) (size : Size) :
    s.resize size = (s, .error (.closed s.id)) := operate_of_closed h (.resize size)

/-- An open session takes a size, and so do its terminal and its command. -/
theorem resize_of_open (h : s.isClosed = false) {size : Size}
    (hsize : size.isValid = true) :
    ∃ u, s.resize size = (u, .ok ()) ∧ u.id = s.id ∧ u.isClosed = false ∧ u.size = size ∧
      u.emulator.terminal.size = size ∧ ∀ c ∈ u.child, c.size = size := by
  rcases s.resize_cases size with ⟨hclosed, -⟩ | ⟨-, hinvalid, -⟩ | ⟨-, -, emulator, hterminal, heq⟩
  · rw [h] at hclosed
    cases hclosed
  · rw [hsize] at hinvalid
    cases hinvalid
  · refine ⟨_, heq, rfl, h, rfl, hterminal, ?_⟩
    intro c hc
    obtain ⟨d, -, rfl⟩ := Option.map_eq_some_iff.mp hc
    rfl

/-- A size that no terminal may have changes nothing. -/
theorem resize_of_invalid {size : Size} (hsize : size.isValid = false) (s : Session D) :
    (s.resize size).1 = s := by
  rcases s.resize_cases size with ⟨-, heq⟩ | ⟨-, -, heq⟩ | ⟨-, hvalid, -⟩
  · rw [heq]
  · rw [heq]
  · rw [hsize] at hvalid
    cases hvalid

/-- A resize neither closes a session nor opens one. -/
theorem isClosed_resize (s : Session D) (size : Size) :
    (s.resize size).1.isClosed = s.isClosed := by
  rcases s.resize_cases size with ⟨-, heq⟩ | ⟨-, -, heq⟩ | ⟨-, -, _, -, heq⟩ <;> rw [heq]

/-- **What failed operations leave behind.**  Whatever has happened to a session since it was
    started: its terminal has a size that is allowed, the command was told that size, and the
    session says the same, unless what it says is no size for a terminal.  An operation that is
    refused changes nothing, except that a restart refused because of its size leaves the options
    and the size it was to have, and nothing else.  If no options ever asked for such a size, the
    session has the size of its terminal and a refused operation leaves it just as it was.  And
    once it has been closed, every operation is refused and changes nothing. -/
theorem refused_operations {host : Host D} {id : SessionId} {options : SessionOptions}
    {size : Size} {new : Session D} (hnew : spawn host id options size = .ok new)
    (hs : List (Happening D)) :
    let s := new.after hs
    (s.emulator.terminal.size.isValid = true ∧
      (∀ c ∈ s.child, c.size = s.emulator.terminal.size) ∧
      (s.size.isValid = true → s.size = s.emulator.terminal.size)) ∧
    (∀ o e, (s.operate o).2 = .error e → e.isRefusal = true →
      (s.operate o).1 = s ∨ ∃ host options, o = .restart host options ∧
        (s.sizeFor options).isValid = false ∧ e = .size ⟨s.sizeFor options⟩ ∧
        (s.operate o).1
          = { s with options := s.optionsFor options, size := s.sizeFor options }) ∧
    (options.IsSound → (∀ what ∈ hs, what.IsSound) →
      s.size = s.emulator.terminal.size ∧
      ∀ o : Operation D, o.IsSound → ∀ e, (s.operate o).2 = .error e → e.isRefusal = true →
        (s.operate o).1 = s) ∧
    ∀ later o, let u := s.close.1.after later; u.operate o = (u, .error (.closed u.id)) := by
  intro s
  obtain ⟨hstart, hoptions, hsize⟩ := Sized.spawn hnew
  have hsized : s.Sized := hstart.after hs
  refine ⟨⟨hsized.terminal, hsized.child, hsized.size⟩, ?_, ?_, ?_⟩
  · intro o e he hrefusal
    exact operate_refused s o he hrefusal
  · intro hsound hall
    have hstep : s.InStep := InStep.after ⟨hstart, hoptions ▸ hsound, hsize⟩ hall
    refine ⟨hstep.size, ?_⟩
    intro o ho e he hrefusal
    rcases operate_refused s o he hrefusal with heq | ⟨_, given, rfl, hinvalid, -⟩
    · exact heq
    · have hgiven : ∀ o ∈ given, o.IsSound := by
        rintro o ⟨⟩
        exact ho
      rw [hstep.isValid_sizeFor hgiven] at hinvalid
      cases hinvalid
  · intro later o
    exact operate_of_closed (isClosed_after (isClosed_close s) later) o

/-- Resizes that are refused and one that is not, a restart in a size of its own, input, and the
    end. -/
theorem refused_operations_sound :
    let host : Host LineDiscipline := ⟨fun _ => none, {}⟩
    let hs : List (Happening LineDiscipline) := [.operation (.resize ⟨0, 9⟩),
      .operation (.resize ⟨30, 6⟩), .operation (.restart host (some { size := some ⟨2, 1⟩ })),
      .operation (.input [0x61]), .arrival, .operation (.resize ⟨9, 1001⟩),
      .operation (.restart host none)]
    ∃ new, spawn host 1 {} ⟨20, 5⟩ = .ok new ∧
      SessionOptions.IsSound {} ∧ (∀ what ∈ hs, what.IsSound) ∧
      (new.after hs).size = ⟨2, 1⟩ ∧
      (new.after hs).size = (new.after hs).emulator.terminal.size ∧
      ((new.after hs).resize ⟨0, 0⟩).1 = new.after hs ∧
      ((new.after hs).close.1.resize ⟨3, 3⟩).1 = (new.after hs).close.1 := by
  intro host hs
  obtain ⟨new, hnew⟩ : ∃ new, spawn host 1 {} ⟨20, 5⟩ = .ok new := ⟨_, rfl⟩
  have hoptions : SessionOptions.IsSound {} := nofun
  have hrestart : SessionOptions.IsSound { size := some ⟨2, 1⟩ } := by
    rintro size ⟨⟩
    rfl
  have hsound : ∀ what ∈ hs, what.IsSound := by
    simp [hs, Happening.IsSound, Operation.IsSound, hrestart]
  obtain ⟨-, -, hkept, hclosed⟩ := refused_operations hnew hs
  obtain ⟨hsize, hrefused⟩ := hkept hoptions hsound
  refine ⟨new, hnew, hoptions, hsound, ?_, hsize, ?_, ?_⟩
  · cases hnew
    decide +kernel
  · have hopen : (new.after hs).isClosed = false := by
      cases hnew
      decide +kernel
    refine hrefused (.resize ⟨0, 0⟩) trivial (.size ⟨⟨0, 0⟩⟩) ?_ rfl
    rw [operate, resize, hopen]
    rfl
  · have hlast : (new.after hs).close.1.resize ⟨3, 3⟩ = (_, _) := hclosed [] (.resize ⟨3, 3⟩)
    rw [hlast]
    rfl

/-- A restart is refused because of the size that its options ask for.  The session takes this for
    its size, while its terminal has the size it had. -/
theorem refused_operations_restart :
    let host : Host LineDiscipline := ⟨fun _ => none, {}⟩
    let options : SessionOptions := { size := some ⟨0, 9⟩ }
    ∃ s, spawn host 1 {} ⟨20, 5⟩ = .ok s ∧
      (s.restart host (some options)).2 = .error (.size ⟨⟨0, 9⟩⟩) ∧
      (s.restart host (some options)).1.size = ⟨0, 9⟩ ∧
      (s.restart host (some options)).1.options = options ∧
      (s.restart host (some options)).1.emulator.terminal.size = ⟨20, 5⟩ ∧
      (s.restart host (some options)).1 ≠ s := by
  refine ⟨_, rfl, rfl, ?_⟩
  decide +kernel

end Session

end VideoTerminal
