import VideoTerminal.Emulator

/-!
# Machines with output

The decoder takes bytes and gives emissions, the terminal takes messages and gives events.  Both
go over a list by a fold that collects what comes out in an array.  `Machine.run` is the same by
recursion on the list, which is the form in which a run is cut into pieces and followed step by
step.

The terminal is also run on emissions directly, character by character.  How characters have been
joined into runs of text then makes no difference.
-/

namespace VideoTerminal

namespace Machine

variable {σ ι ο : Type} {step : σ → ι → σ × List ο}

/-- The state behind all inputs, and what they gave, in order. -/
def run (step : σ → ι → σ × List ο) : σ → List ι → σ × List ο
  | s, [] => (s, [])
  | s, x :: xs =>
      let next := step s x
      let rest := run step next.1 xs
      (rest.1, next.2 ++ rest.2)

@[simp] theorem run_nil (s : σ) : run step s [] = (s, []) := rfl

theorem run_cons (s : σ) (x : ι) (xs : List ι) :
    run step s (x :: xs)
      = ((run step (step s x).1 xs).1, (step s x).2 ++ (run step (step s x).1 xs).2) := rfl

@[simp] theorem run_singleton (s : σ) (x : ι) : run step s [x] = step s x := by
  rw [run_cons, run_nil, List.append_nil]

/-- A run over two pieces is one over the first and then one over the second. -/
theorem run_append (s : σ) (xs ys : List ι) :
    run step s (xs ++ ys)
      = ((run step (run step s xs).1 ys).1,
        (run step s xs).2 ++ (run step (run step s xs).1 ys).2) := by
  induction xs generalizing s with
  | nil => rfl
  | cons x xs ih =>
      rw [List.cons_append, run_cons, ih, run_cons, List.append_assoc]

/-- Runs that meet in a state are one run. -/
theorem run_trans {s u v : σ} {xs ys : List ι} {os ps : List ο} (hxs : run step s xs = (u, os))
    (hys : run step u ys = (v, ps)) : run step s (xs ++ ys) = (v, os ++ ps) := by
  rw [run_append, hxs, hys]

/-- Pieces that each leave the state alone do so together. -/
theorem run_flatMap {α : Type} {f : α → List ι} {out : α → List ο} {s : σ} {xs : List α}
    (h : ∀ x ∈ xs, run step s (f x) = (s, out x)) :
    run step s (xs.flatMap f) = (s, xs.flatMap out) := by
  induction xs with
  | nil => rfl
  | cons x xs ih =>
      exact run_trans (h x List.mem_cons_self) (ih fun y hy => h y (List.mem_cons_of_mem x hy))

/-- What every step keeps, a run keeps. -/
theorem run_invariant {I : σ → Prop} {xs : List ι} (hstep : ∀ s, ∀ x ∈ xs, I s → I (step s x).1)
    {s : σ} (h : I s) : I (run step s xs).1 := by
  induction xs generalizing s with
  | nil => exact h
  | cons x xs ih =>
      exact ih (fun u y hy => hstep u y (List.mem_cons_of_mem x hy))
        (hstep s x List.mem_cons_self h)

/-- What holds of all outputs of every step holds of all outputs of a run. -/
theorem forall_mem_run {I : σ → Prop} {Q : ο → Prop} {xs : List ι}
    (hstep : ∀ s, ∀ x ∈ xs, I s → I (step s x).1)
    (hout : ∀ s, ∀ x ∈ xs, I s → ∀ o ∈ (step s x).2, Q o) {s : σ} (h : I s) :
    ∀ o ∈ (run step s xs).2, Q o := by
  induction xs generalizing s with
  | nil =>
      intro o ho
      exact absurd ho List.not_mem_nil
  | cons x xs ih =>
      intro o ho
      rcases List.mem_append.mp ho with ho | ho
      · exact hout s x List.mem_cons_self h o ho
      · exact ih (fun u y hy => hstep u y (List.mem_cons_of_mem x hy))
          (fun u y hy => hout u y (List.mem_cons_of_mem x hy)) (hstep s x List.mem_cons_self h) o ho

/-- A machine that stays in some states over a list and says nothing there. -/
theorem run_silent {I : σ → Prop} {xs : List ι}
    (hstep : ∀ s, ∀ x ∈ xs, I s → ∃ u, I u ∧ step s x = (u, [])) {s : σ} (h : I s) :
    ∃ u, I u ∧ run step s xs = (u, []) := by
  induction xs generalizing s with
  | nil => exact ⟨s, h, rfl⟩
  | cons x xs ih =>
      obtain ⟨u, hu, hfirst⟩ := hstep s x List.mem_cons_self h
      obtain ⟨v, hv, hrest⟩ := ih (fun s y hy => hstep s y (List.mem_cons_of_mem x hy)) hu
      refine ⟨v, hv, ?_⟩
      rw [run_cons, hfirst, hrest]
      rfl

/-- Inputs that no state of a kind takes note of make no difference. -/
theorem run_filter {I : σ → Prop} {noted : ι → Bool} {xs : List ι}
    (hstep : ∀ s, ∀ x ∈ xs, I s → I (step s x).1)
    (hskip : ∀ s, ∀ x ∈ xs, noted x = false → I s → step s x = (s, [])) {s : σ} (h : I s) :
    run step s xs = run step s (xs.filter noted) := by
  induction xs generalizing s with
  | nil => rfl
  | cons x xs ih =>
      have hrest := ih (fun u y hy => hstep u y (List.mem_cons_of_mem x hy))
        (fun u y hy => hskip u y (List.mem_cons_of_mem x hy)) (hstep s x List.mem_cons_self h)
      cases hx : noted x with
      | true =>
          rw [List.filter_cons_of_pos hx, run_cons, run_cons, hrest]
      | false =>
          rw [hskip s x List.mem_cons_self hx h] at hrest
          rw [List.filter_cons_of_neg (ne_true_of_eq_false hx), run_cons,
            hskip s x List.mem_cons_self hx h, hrest]
          rfl

/-- The states of a run are those of a fold. -/
theorem run_fst (s : σ) (xs : List ι) :
    (run step s xs).1 = xs.foldl (fun s x => (step s x).1) s := by
  induction xs generalizing s with
  | nil => rfl
  | cons x xs ih => exact ih (step s x).1

/-- Whether some step along a list is marked, in the state in which it is taken. -/
def anyStep (next : σ → ι → σ) (marked : σ → ι → Bool) : σ → List ι → Bool
  | _, [] => false
  | s, x :: xs => marked s x || anyStep next marked (next s x) xs

theorem anyStep_none {next : σ → ι → σ} {marked : σ → ι → Bool}
    (hnone : ∀ s x, marked s x = false) (s : σ) (xs : List ι) :
    anyStep next marked s xs = false := by
  induction xs generalizing s with
  | nil => rfl
  | cons x xs ih => rw [anyStep, hnone, ih, Bool.or_self]

/-- What every step keeps that is not marked, a list without marked steps keeps. -/
theorem foldl_of_anyStep {next : σ → ι → σ} {marked : σ → ι → Bool} {I : σ → Prop}
    (hnext : ∀ s x, marked s x = false → I s → I (next s x)) {s : σ} (h : I s) {xs : List ι}
    (hnone : anyStep next marked s xs = false) : I (xs.foldl next s) := by
  induction xs generalizing s with
  | nil => exact h
  | cons x xs ih =>
      rw [anyStep, Bool.or_eq_false_iff] at hnone
      exact ih (hnext s x hnone.1 h) hnone.2

/-- The fold that collects outputs in an array is a run. -/
theorem foldl_collect (s : σ) (out : Array ο) (xs : List ι) :
    xs.foldl (fun (s, out) x => let (s', os) := step s x; (s', out ++ os)) (s, out)
      = ((run step s xs).1, out ++ (run step s xs).2) := by
  induction xs generalizing s out with
  | nil =>
      rw [List.foldl_nil, run_nil]
      exact congrArg (Prod.mk s) (Array.toList_inj.mp (by simp))
  | cons x xs ih =>
      rw [List.foldl_cons]
      show xs.foldl _ ((step s x).1, out ++ (step s x).2) = _
      rw [ih, run_cons]
      exact congrArg (Prod.mk _) (Array.toList_inj.mp (by simp))

end Machine

/-! ## The decoder -/

namespace Emission

/-- Messages are not joined with anything. -/
theorem foldl_add_messages (before ms : List Message) :
    (ms.map message).foldl Batch.add ⟨before, []⟩ = ⟨ms.reverse ++ before, []⟩ := by
  induction ms generalizing before with
  | nil => rfl
  | cons m ms ih =>
      rw [List.map_cons, List.foldl_cons, List.reverse_cons, List.append_assoc]
      exact ih (m :: before)

theorem batch_cut_messages (ms : List Message) :
    batch (.cut :: ms.map message).toArray = ms := by
  rw [batch, List.foldl_toArray, List.foldl_cons]
  show (List.foldl Batch.add ⟨[], []⟩ (ms.map message)).close.reverse = ms
  rw [foldl_add_messages, List.append_nil]
  exact List.reverse_reverse ms

end Emission

namespace Decoder

theorem feed_eq_run (d : Decoder) (bytes : List UInt8) :
    d.feed bytes = ((Machine.run step d bytes).1, (Machine.run step d bytes).2.toArray) := by
  rw [feed, Machine.foldl_collect]
  exact congrArg (Prod.mk _) (Array.toList_inj.mp (by simp))

theorem push_eq_run (d : Decoder) (bytes : List UInt8) :
    d.push bytes = ((Machine.run step d bytes).1,
      Emission.batch (Machine.run step d bytes).2.toArray) := by
  rw [push, feed_eq_run]

end Decoder

/-! ## The terminal -/

namespace Terminal

theorem applyAll_eq_run (t : Terminal) (ms : List Message) :
    t.applyAll ms = ((Machine.run apply t ms).1, (Machine.run apply t ms).2.toArray) := by
  rw [applyAll, Machine.foldl_collect]
  exact congrArg (Prod.mk _) (Array.toList_inj.mp (by simp))

/-- A status request leaves the terminal alone. -/
theorem applyFunction_deviceStatus (t : Terminal) (request : Nat) :
    t.applyFunction (.deviceStatus request)
      = (t, if request = 5 then [.reply .deviceStatus]
        else if request = 6 then
          [.reply (.cursorPosition t.reportedPosition.1 t.reportedPosition.2)]
        else []) := by
  by_cases h5 : request = 5
  · subst h5
    rfl
  · by_cases h6 : request = 6
    · subst h6
      rfl
    · rw [applyFunction, if_neg h5, if_neg h6]
      · exact h5
      · exact h6

theorem applyFunction_privateDeviceStatus (t : Terminal) (request : Nat) :
    t.applyFunction (.privateDeviceStatus request)
      = (t, if request = 6 then
          [.reply (.extendedCursorPosition t.reportedPosition.1 t.reportedPosition.2)]
        else []) := by
  by_cases h6 : request = 6
  · subst h6
    rfl
  · rw [applyFunction, if_neg h6]
    exact h6

theorem applyCommand_resetDynamicColor (t : Terminal) (code : Nat) (ending : StringEnd) :
    t.applyCommand (.resetDynamicColor code) ending
      = (if code = 10 then { t with foreground := none } else { t with background := none },
        []) := by
  by_cases h : code = 10
  · subst h
    rfl
  · rw [applyCommand, if_neg h]
    exact h

/-- The effect of one emission: a character is printed, a message acts. -/
def absorb (t : Terminal) : Emission → Terminal × List Event
  | .glyph c => (t.print c, [])
  | .cut => (t, [])
  | .message m => t.apply m

/-- Printing a run of text is printing its characters. -/
theorem run_absorb_glyphs (t : Terminal) (cs : List Char) :
    Machine.run absorb t (cs.map Emission.glyph) = t.apply (.print cs) := by
  induction cs generalizing t with
  | nil => rfl
  | cons c cs ih =>
      rw [List.map_cons, Machine.run_cons, ih]
      rfl

/-- Messages that have been closed act like those behind the open run of text, followed by its
    characters. -/
theorem run_apply_close (t : Terminal) (b : Emission.Batch) :
    Machine.run apply t b.close.reverse
      = (b.run.reverse.foldl print (Machine.run apply t b.messages.reverse).1,
        (Machine.run apply t b.messages.reverse).2) := by
  rw [Emission.Batch.close]
  by_cases hrun : b.run = []
  · rw [if_pos hrun, hrun]
    rfl
  · rw [if_neg hrun, List.reverse_cons, Machine.run_append, Machine.run_singleton]
    simp only [apply, List.append_nil]

/-- One emission more in a batch acts behind everything that is in it already. -/
theorem run_apply_add (t : Terminal) (b : Emission.Batch) (e : Emission) :
    Machine.run apply t (b.add e).close.reverse
      = ((absorb (Machine.run apply t b.close.reverse).1 e).1,
        (Machine.run apply t b.close.reverse).2
          ++ (absorb (Machine.run apply t b.close.reverse).1 e).2) := by
  cases e with
  | glyph c =>
      rw [run_apply_close, run_apply_close]
      show (List.foldl print _ (c :: b.run).reverse, _) = _
      rw [List.reverse_cons, List.foldl_append]
      simp only [Emission.Batch.add, absorb, List.foldl_cons, List.foldl_nil, List.append_nil]
  | cut =>
      rw [run_apply_close t (b.add .cut)]
      simp only [Emission.Batch.add, absorb, List.reverse_nil, List.foldl_nil, List.append_nil]
  | message m =>
      rw [run_apply_close t (b.add (.message m))]
      show ((Machine.run apply t (m :: b.close).reverse).1,
        (Machine.run apply t (m :: b.close).reverse).2) = _
      rw [List.reverse_cons, Machine.run_append, Machine.run_singleton]
      rfl

/-- Joining characters into runs of text makes no difference to the terminal. -/
theorem run_apply_batch (t : Terminal) (es : List Emission) :
    Machine.run apply t (Emission.batch es.toArray) = Machine.run absorb t es := by
  -- for any batch to begin with, since the induction changes it
  have hgeneral : ∀ (es : List Emission) (b : Emission.Batch),
      Machine.run apply t (es.foldl Emission.Batch.add b).close.reverse
        = ((Machine.run absorb (Machine.run apply t b.close.reverse).1 es).1,
          (Machine.run apply t b.close.reverse).2
            ++ (Machine.run absorb (Machine.run apply t b.close.reverse).1 es).2) := by
    intro es
    induction es with
    | nil =>
        intro b
        rw [List.foldl_nil, Machine.run_nil, List.append_nil]
    | cons e es ih =>
        intro b
        rw [List.foldl_cons, ih, run_apply_add, Machine.run_cons, List.append_assoc]
  rw [Emission.batch, List.foldl_toArray]
  exact hgeneral es {}

end Terminal

end VideoTerminal
