import VideoTerminal.Proofs.CheckedDecoder
import VideoTerminal.Proofs.CheckedMessages
import VideoTerminal.Proofs.RoundTrip

/-!
# No input gives a fault

An emulator with checks: its decoder stands in registers, and bytes, messages and changes of size
go through the operations with checks.  Whatever is put into it, no check fails, and it becomes what
the emulator without checks becomes.

What carries this is what the other modules have proved of all runs: the registers stay sound, the
messages that come out of them are canonical, and the terminal stays well formed.  Each of the
operations with checks needs nothing more.
-/

namespace VideoTerminal

open Checked

/-! ## Machines with checks -/

namespace Machine

variable {σ ι ο : Type}

/-- The state behind all inputs, and what they gave, unless a step was a fault. -/
def checkedRun (step : σ → ι → Checked (σ × List ο)) : σ → List ι → Checked (σ × List ο)
  | s, [] => pure (s, [])
  | s, x :: xs => do
      let (s, os) ← step s x
      let (s, ps) ← checkedRun step s xs
      return (s, os ++ ps)

/-- A run is safe if each of its steps is, and keeps what makes it so. -/
theorem checkedRun_eq {I : σ → Prop} {step : σ → ι → Checked (σ × List ο)}
    {next : σ → ι → σ × List ο} {xs : List ι}
    (heq : ∀ s, ∀ x ∈ xs, I s → step s x = pure (next s x))
    (hkeeps : ∀ s, ∀ x ∈ xs, I s → I (next s x).1) {s : σ} (h : I s) :
    checkedRun step s xs = pure (run next s xs) := by
  induction xs generalizing s with
  | nil => rfl
  | cons x xs ih =>
      have hrest := ih (fun u y hy => heq u y (List.mem_cons_of_mem x hy))
        (fun u y hy => hkeeps u y (List.mem_cons_of_mem x hy)) (hkeeps s x List.mem_cons_self h)
      rw [checkedRun, heq s x List.mem_cons_self h, pure_bind]
      dsimp only
      rw [hrest, pure_bind, run_cons]

end Machine

/-! ## Resizing -/

namespace Terminal

/-- Cuts the tab stops to a number of columns, or adds columns and puts the default into each. -/
def checkedResizeStops (stops : Array Bool) (cols : Nat) : Checked (Array Bool) :=
  (List.range' stops.size (cols - stops.size)).foldlM
    (fun stops col => store stops col (isDefaultStop col))
    (stops.take cols ++ Array.replicate (cols - stops.size) false)

/-- Changes the size. -/
def checkedResize (t : Terminal) (cols rows : Nat) : Checked Terminal := do
  return { t.resize cols rows with tabStops := ← checkedResizeStops t.tabStops cols }

/-- Columns that have been added get their stops one after the other. -/
theorem foldlM_store (stops : Array Bool) (n : Nat) :
    (List.range' stops.size n).foldlM (fun stops col => store stops col (isDefaultStop col))
        (stops ++ Array.replicate n false)
      = pure (stops ++ (Array.range' stops.size n).map isDefaultStop) := by
  induction n generalizing stops with
  | zero => simp
  | succ n ih =>
      have hroom : stops.size < (stops ++ Array.replicate (n + 1) false).size := by simp
      have hnew : (stops ++ Array.replicate (n + 1) false).setIfInBounds stops.size
            (isDefaultStop stops.size)
          = stops.push (isDefaultStop stops.size) ++ Array.replicate n false := by
        apply Array.ext'
        simp [List.replicate_succ]
      have hrest := ih (stops.push (isDefaultStop stops.size))
      rw [Array.size_push] at hrest
      rw [List.range'_succ, List.foldlM_cons, store_eq hroom, pure_bind, hnew, hrest]
      congr 1
      apply Array.ext'
      simp [List.range'_succ]

theorem checkedResizeStops_eq (stops : Array Bool) (cols : Nat) :
    checkedResizeStops stops cols = pure (resizeStops stops cols) := by
  rw [checkedResizeStops, resizeStops]
  by_cases hcols : stops.size ≤ cols
  · have htake : stops.take cols = stops := by simp [hcols]
    rw [htake, foldlM_store]
  · rw [Nat.sub_eq_zero_of_le (by omega)]
    simp

theorem checkedResize_eq (t : Terminal) (cols rows : Nat) :
    t.checkedResize cols rows = pure (t.resize cols rows) := by
  rw [checkedResize, checkedResizeStops_eq, pure_bind]
  rfl

end Terminal

/-! ## What the decoder gives out -/

namespace Registers

/-- Takes bytes and gives the messages they complete. -/
def checkedPush (r : Registers) (bytes : List UInt8) : Checked (Registers × List Message) := do
  let (r, out) ← Machine.checkedRun checkedStep r bytes
  let (r, rest) := r.flushText
  return (r, out ++ rest)

theorem checkedPush_eq {r : Registers} (h : r.Sound) (bytes : List UInt8) :
    r.checkedPush bytes = pure (r.push bytes) := by
  have hrun : Machine.checkedRun checkedStep r bytes = pure (Machine.run step r bytes) :=
    Machine.checkedRun_eq (I := Sound) (fun _ b _ hs => checkedStep_eq hs.character b)
      (fun _ b _ hs => (follows_step hs b).sound) h
  rw [checkedPush, hrun, pure_bind]
  rfl

end Registers

/-! ## The emulator with checks -/

/-- What comes in. -/
inductive Input where
  /-- Output of the program, any bytes at all. -/
  | write (bytes : List UInt8)
  | flush
  /-- A change of size, which is refused if the size is invalid. -/
  | resize (size : Size)
deriving DecidableEq, Repr

/-- The call of the emulator that takes it. -/
def Input.call : Input → Emulator.Call
  | .write bytes => .write bytes
  | .flush => .flush
  | .resize size => .resize size

/-- An emulator whose decoder stands in registers. -/
structure CheckedEmulator where
  registers : Registers := {}
  terminal : Terminal
  events : Array Event := #[]

namespace CheckedEmulator

/-- The emulator without checks in the same state. -/
def emulator (c : CheckedEmulator) : Emulator := ⟨c.registers.decoder, c.terminal, c.events⟩

/-- Lets messages act on the terminal. -/
def act (c : CheckedEmulator) (registers : Registers) (ms : List Message) :
    Checked CheckedEmulator := do
  if ms.isEmpty then return { c with registers }
  else
    let (terminal, events) ← Machine.checkedRun Terminal.checkedApply c.terminal ms
    return { registers, terminal, events := (c.events ++ events.toArray).push .screenUpdated }

/-- Takes an input. -/
def take (c : CheckedEmulator) : Input → Checked CheckedEmulator
  | .write bytes => do
      let (registers, ms) ← c.registers.checkedPush bytes
      c.act registers ms
  | .flush =>
      let (registers, ms) := c.registers.flush
      c.act registers ms
  | .resize size => do
      if size.isValid = true ∧ size ≠ c.terminal.size then
        return { c with
          terminal := ← c.terminal.checkedResize size.cols size.rows
          events := c.events.push .screenUpdated }
      else return c

/-- What holds at any time. -/
structure Sound (limit : Nat) (c : CheckedEmulator) : Prop where
  registers : c.registers.Sound
  text : c.registers.text = []
  decoder : c.registers.decoder.Sound
  terminal : c.terminal.WellFormed limit

variable {limit : Nat} {c : CheckedEmulator}

/-- Messages act as they do without checks, whatever registers they have come from. -/
theorem act_eq (h : c.terminal.WellFormed limit) {new : Registers × List Message}
    {seen : Decoder × List Message} (hmatches : Registers.Matches new seen)
    (hseen : seen.1.Sound ∧ ∀ m ∈ seen.2, m.Canonical) :
    ∃ d : CheckedEmulator, c.act new.1 new.2 = pure d ∧ d.Sound limit ∧
      d.emulator = c.emulator.act seen.1 seen.2 := by
  have hdecoder : new.1.decoder.Sound := hmatches.decoder ▸ hseen.1
  rw [act, hmatches.messages, Emulator.act, ← hmatches.decoder]
  split
  · exact ⟨_, rfl, ⟨hmatches.sound, hmatches.text, hdecoder, h⟩, rfl⟩
  · have hrun : Machine.checkedRun Terminal.checkedApply c.terminal seen.2
        = pure (Machine.run Terminal.apply c.terminal seen.2) :=
      Machine.checkedRun_eq (I := Terminal.WellFormed limit)
        (fun _ m hm ht => ht.checkedApply (hseen.2 m hm)) (fun _ m _ ht => ht.apply m) h
    have hterminal : (Machine.run Terminal.apply c.terminal seen.2).1.WellFormed limit :=
      Machine.run_invariant (I := Terminal.WellFormed limit) (fun _ m _ ht => ht.apply m) h
    rw [hrun, pure_bind, Terminal.applyAll_eq_run]
    exact ⟨_, rfl, ⟨hmatches.sound, hmatches.text, hdecoder, hterminal⟩, rfl⟩

/-- Taking an input is no fault, and does what it does without checks. -/
theorem take_eq (h : c.Sound limit) (i : Input) :
    ∃ d : CheckedEmulator, c.take i = pure d ∧ d.Sound limit ∧
      d.emulator = c.emulator.call i.call := by
  cases i with
  | write bytes =>
      rw [take, Registers.checkedPush_eq h.registers, pure_bind]
      exact act_eq h.terminal (Registers.matches_push h.registers h.text bytes)
        (Decoder.sound_push h.decoder bytes)
  | flush =>
      exact act_eq h.terminal (Registers.matches_flush h.registers h.text)
        (Decoder.sound_flush h.decoder)
  | resize size =>
      rw [take, Terminal.checkedResize_eq, pure_bind, Input.call, Emulator.call_resize]
      show ∃ d : CheckedEmulator, (if size.isValid = true ∧ size ≠ c.terminal.size then _ else _)
        = pure d ∧ d.Sound limit ∧
        d.emulator = if size.isValid = true ∧ size ≠ c.terminal.size then _ else _
      split
      · rename_i hsize
        exact ⟨_, rfl, { h with terminal := h.terminal.resize hsize.1 }, rfl⟩
      · exact ⟨c, rfl, h, rfl⟩

/-- A new emulator. -/
def new (size : Size) (limit : Nat) (sgr21 : Sgr21) : CheckedEmulator where
  terminal := .new size.cols size.rows limit sgr21

theorem sound_new {size : Size} (hsize : size.isValid = true) (limit : Nat) (sgr21 : Sgr21) :
    (new size limit sgr21).Sound limit :=
  ⟨Registers.sound_new, rfl, trivial, Terminal.wellFormed_new hsize limit sgr21⟩

theorem foldlM_take (h : c.Sound limit) (inputs : List Input) :
    ∃ d : CheckedEmulator, inputs.foldlM take c = pure d ∧
      d.emulator = c.emulator.run (inputs.map Input.call) := by
  induction inputs generalizing c with
  | nil => exact ⟨c, rfl, rfl⟩
  | cons i inputs ih =>
      obtain ⟨d, htake, hsound, hd⟩ := take_eq h i
      obtain ⟨last, hrest, hlast⟩ := ih hsound
      refine ⟨last, ?_, ?_⟩
      · rw [List.foldlM_cons, htake, pure_bind, hrest]
      · rw [hlast, hd]
        rfl

/-- **No input gives a fault.**  Of any valid size an emulator is created, and whatever comes in,
    any bytes, the end of the input or a change of size, in any order: the emulator with checks
    takes it without a fault, and is in the state that the one without checks gets into. -/
theorem run_faultless {size : Size} (hsize : size.isValid = true) (limit : Nat) (sgr21 : Sgr21)
    (inputs : List Input) :
    ∃ e, Emulator.create size limit sgr21 = .ok e ∧
      ∃ c : CheckedEmulator, inputs.foldlM take (new size limit sgr21) = .ok c ∧
        c.emulator = e.run (inputs.map Input.call) := by
  obtain ⟨c, hrun, hc⟩ := foldlM_take (sound_new hsize limit sgr21) inputs
  exact ⟨_, Emulator.create_of_valid hsize limit sgr21, c, hrun, hc⟩

/-- On one column and one row: a wide character, columns, rows and regions from zero on, more to
    insert and to delete than there is, colors without an end, a character that is cut, and changes
    of size in between. -/
theorem run_faultless_narrow :
    let inputs : List Input := [
      .write (Utf8.ofString "日a\x1b[0G\x1b[0d\x1b[9@\x1b[9P\x1b[0;0r\x1b[6n\x1b[38;2m"),
      .write [0xE6], .flush, .resize ⟨2, 1⟩, .write (Utf8.ofString "\x1b[4h日\x1b]10;#é"), .flush,
      .resize ⟨0, 1⟩, .resize ⟨1, 2⟩, .write (Utf8.ofString "\x1bM\x1b[9S\x1b[9b")]
    (Size.mk 1 1).isValid = true ∧
    ∃ e, Emulator.create ⟨1, 1⟩ 1 .cancelBold = .ok e ∧
      ∃ c : CheckedEmulator, inputs.foldlM take (new ⟨1, 1⟩ 1 .cancelBold) = .ok c ∧
        c.emulator = e.run (inputs.map Input.call) :=
  ⟨by decide, run_faultless (by decide) 1 .cancelBold _⟩

end CheckedEmulator

end VideoTerminal
