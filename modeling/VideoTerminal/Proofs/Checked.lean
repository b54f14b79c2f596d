import Mathlib.Algebra.GroupWithZero.Nat
import VideoTerminal.Proofs.RowShape

/-!
# Checked operations

The operations of a machine that can go wrong: sums and differences of words, places of an array,
ranges, rotations, and cuts of a text at a byte.  Where its condition holds, each of them gives what
it should; elsewhere it is a fault, and so is everything that was to come behind it.

A checked function is right if it gives what the function without checks gives, and no fault.  The
lemmas here say so of single operations, and of loops over steps of which it is known.
-/

namespace VideoTerminal

/-- What goes wrong. -/
inductive Fault where
  /-- A number that does not fit into its word. -/
  | overflow
  /-- A difference below zero. -/
  | underflow
  /-- A division by zero. -/
  | division
  /-- A place that is not there. -/
  | index
  /-- A range that starts behind its end, or ends behind the last place. -/
  | range
  /-- A rotation by more than there is to rotate. -/
  | rotation
  /-- A cut within the bytes of a character. -/
  | boundary
deriving DecidableEq, Repr

/-- A result, unless a fault came first. -/
abbrev Checked := Except Fault

namespace Checked

/-! ## Words -/

/-- A sum in a word of so many bits. -/
def add (bits a b : Nat) : Checked Nat := if a + b < 2 ^ bits then pure (a + b) else throw .overflow

/-- A product in a word of so many bits. -/
def mul (bits a b : Nat) : Checked Nat := if a * b < 2 ^ bits then pure (a * b) else throw .overflow

/-- A difference of words. -/
def sub (a b : Nat) : Checked Nat := if b ≤ a then pure (a - b) else throw .underflow

/-- A quotient of words. -/
def div (a b : Nat) : Checked Nat := if b = 0 then throw .division else pure (a / b)

/-- A word of so many bits shifted to the left, by less than its length. -/
def shiftLeft (bits a n : Nat) : Checked Nat :=
  if n < bits then pure (a * 2 ^ n % 2 ^ bits) else throw .overflow

/-- A sum that fits its type is no fault. -/
theorem add_eq {bits a b : Nat} (h : a + b < 2 ^ bits) : add bits a b = pure (a + b) := if_pos h

/-- A product that fits its type is no fault. -/
theorem mul_eq {bits a b : Nat} (h : a * b < 2 ^ bits) : mul bits a b = pure (a * b) := if_pos h

/-- Nor is a difference of which the greater is the first. -/
theorem sub_eq {a b : Nat} (h : b ≤ a) : sub a b = pure (a - b) := if_pos h

/-- Nor is a quotient, if it is not by zero. -/
theorem div_eq {a b : Nat} (h : 0 < b) : div a b = pure (a / b) := if_neg (Nat.ne_of_gt h)

/-- Nor is a shift by less than the width; what goes beyond it is lost. -/
theorem shiftLeft_eq {bits a n : Nat} (h : n < bits) :
    shiftLeft bits a n = pure (a * 2 ^ n % 2 ^ bits) := if_pos h

/-! ## Places and ranges -/

variable {α β : Type}

/-- What has been looked up. -/
def found : Option α → Checked α
  | some x => pure x
  | none => throw .index

/-- The bounds of a slice of something of a size. -/
def within (start stop size : Nat) : Checked Unit :=
  if start ≤ stop ∧ stop ≤ size then pure () else throw .range

/-- Puts an element at a place. -/
def store (xs : Array α) (i : Nat) (x : α) : Checked (Array α) :=
  if i < xs.size then pure (xs.setIfInBounds i x) else throw .index

/-- A slice of a list. -/
def slice (xs : List α) (start stop : Nat) : Checked (List α) := do
  within start stop xs.length
  return (xs.drop start).take (stop - start)

/-- Changes the elements of a slice. -/
def mapSlice (f : α → α) (start stop : Nat) (xs : Array α) : Checked (Array α) := do
  within start stop xs.size
  return modifyRange f start (stop - start) xs

/-- Changes a slice as a whole. -/
def onSlice (f : Array α → Checked (Array α)) (start stop : Nat) (xs : Array α) :
    Checked (Array α) := do
  within start stop xs.size
  return xs.take start ++ (← f (xs.extract start stop)) ++ xs.drop stop

/-- Brings the first `n` elements to the end. -/
def rotateLeft (n : Nat) (xs : Array α) : Checked (Array α) :=
  if n ≤ xs.size then pure (xs.drop n ++ xs.take n) else throw .rotation

/-- Brings the last `n` elements to the beginning. -/
def rotateRight (n : Nat) (xs : Array α) : Checked (Array α) :=
  if n ≤ xs.size then pure (xs.drop (xs.size - n) ++ xs.take (xs.size - n)) else throw .rotation

/-- Puts an element at `n` places from `start` on, and gives those that were there. -/
def replaceRange (x : α) : (start n : Nat) → Array α → Checked (Array α × List α)
  | _, 0, xs => pure (xs, [])
  | start, n + 1, xs => do
      let old ← found xs[start]?
      let xs ← store xs start x
      let (xs, olds) ← replaceRange x (start + 1) n xs
      return (xs, old :: olds)

theorem within_eq {start stop size : Nat} (h : start ≤ stop ∧ stop ≤ size) :
    within start stop size = pure () := if_pos h

theorem store_eq {xs : Array α} {i : Nat} (h : i < xs.size) (x : α) :
    store xs i x = pure (xs.setIfInBounds i x) := if_pos h

theorem slice_eq {xs : List α} {start stop : Nat} (h : start ≤ stop ∧ stop ≤ xs.length) :
    slice xs start stop = pure ((xs.drop start).take (stop - start)) := by
  rw [slice, within_eq h, pure_bind]

theorem mapSlice_eq {xs : Array α} {start stop : Nat} (h : start ≤ stop ∧ stop ≤ xs.size)
    (f : α → α) : mapSlice f start stop xs = pure (modifyRange f start (stop - start) xs) := by
  rw [mapSlice, within_eq h, pure_bind]

theorem onSlice_eq {f : Array α → Checked (Array α)} {xs ys : Array α} {start stop : Nat}
    (h : start ≤ stop ∧ stop ≤ xs.size) (hf : f (xs.extract start stop) = pure ys) :
    onSlice f start stop xs = pure (xs.take start ++ ys ++ xs.drop stop) := by
  rw [onSlice, within_eq h, pure_bind, hf, pure_bind]

theorem rotateLeft_eq {xs : Array α} {n : Nat} (h : n ≤ xs.size) :
    rotateLeft n xs = pure (xs.drop n ++ xs.take n) := if_pos h

theorem rotateRight_eq {xs : Array α} {n : Nat} (h : n ≤ xs.size) :
    rotateRight n xs = pure (xs.drop (xs.size - n) ++ xs.take (xs.size - n)) := if_pos h

/-- The middle one of three parts is replaced. -/
theorem replaceRange_append (x : α) (xs ys zs : Array α) :
    replaceRange x xs.size ys.size (xs ++ ys ++ zs)
      = pure (xs ++ Array.replicate ys.size x ++ zs, ys.toList) := by
  obtain ⟨ys⟩ := ys
  induction ys generalizing xs with
  | nil => simp [replaceRange]
  | cons y ys ih =>
      have hold : (xs ++ (y :: ys).toArray ++ zs)[xs.size]? = some y := by
        rw [Array.append_assoc, Array.getElem?_append_right (Nat.le_refl _), Nat.sub_self,
          Array.getElem?_append_left (Nat.succ_pos _)]
        rfl
      have hnew : (xs ++ (y :: ys).toArray ++ zs).setIfInBounds xs.size x
          = xs.push x ++ ys.toArray ++ zs := by
        apply Array.ext'
        simp
      have hsize : xs.size < (xs ++ (y :: ys).toArray ++ zs).size := by
        simp only [Array.size_append, List.size_toArray, List.length_cons]
        omega
      have hrest := ih (xs.push x)
      rw [Array.size_push] at hrest
      simp only [List.size_toArray, List.length_cons, replaceRange, hold, found, store_eq hsize,
        pure_bind, hnew] at hrest ⊢
      rw [hrest, pure_bind]
      congr 2
      apply Array.ext'
      simp [List.replicate_succ]

/-- The middle one of three parts is changed. -/
theorem modifyRange_append (f : α → α) (xs ys zs : Array α) :
    modifyRange f xs.size ys.size (xs ++ ys ++ zs) = xs ++ ys.map f ++ zs := by
  obtain ⟨ys⟩ := ys
  induction ys generalizing xs with
  | nil => simp [modifyRange]
  | cons y ys ih =>
      have hnew : (xs ++ (y :: ys).toArray ++ zs).modify xs.size f
          = xs.push (f y) ++ ys.toArray ++ zs := by
        apply Array.ext'
        simp [List.modify_eq_take_drop]
      have hrest := ih (xs.push (f y))
      rw [Array.size_push] at hrest
      simp only [List.size_toArray, List.length_cons, modifyRange, hnew] at hrest ⊢
      rw [hrest]
      apply Array.ext'
      simp

/-! ## Steps and loops -/

/-- Takes a step under a condition. -/
def stepIf (p : Prop) [Decidable p] (f : α → Checked α) (a : α) : Checked α :=
  if p then f a else pure a

/-- A step that is not taken cannot fault. -/
theorem stepIf_eq {p : Prop} [Decidable p] {f : α → Checked α} {a b : α}
    (h : p → f a = pure b) : stepIf p f a = pure (if p then b else a) := by
  rw [stepIf]
  split
  · rename_i hp
    exact h hp
  · rfl

/-- Changes the element at a place by a step, if there is one. -/
def changeAt (f : α → Checked α) (i : Nat) (xs : Array α) : Checked (Array α) :=
  match xs[i]? with
  | some x => do return xs.setIfInBounds i (← f x)
  | none => pure xs

/-- Changes `n` elements from `start` on, one after the other. -/
def overRange (f : α → Checked α) : (start n : Nat) → Array α → Checked (Array α)
  | _, 0, xs => pure xs
  | start, n + 1, xs => do overRange f (start + 1) n (← changeAt f start xs)

/-- Takes a step `n` times. -/
def iterate (f : α → Checked α) : (n : Nat) → α → Checked α
  | 0, a => pure a
  | n + 1, a => do f (← iterate f n a)

/-- Steps that give no fault where a property holds, and keep it. -/
structure Safe (I : α → Prop) (f : α → Checked α) (g : α → α) : Prop where
  eq : ∀ a, I a → f a = pure (g a)
  keeps : ∀ a, I a → I (g a)

/-- Changing one element is safe if the change is, on what may stand there. -/
theorem Safe.changeAt {P : α → Prop} {f : α → Checked α} {g : α → α} (hf : Safe P f g)
    {size : Nat} {xs : Array α} (h : AllOf P size xs) (i : Nat) :
    Checked.changeAt f i xs = pure (xs.modify i g) := by
  rw [Checked.changeAt]
  cases hx : xs[i]? with
  | some x =>
      dsimp only
      rw [hf.eq x (h.each x (Array.mem_of_getElem? hx)), pure_bind]
      congr 1
      apply Array.ext_getElem?
      intro j
      rw [Array.getElem?_setIfInBounds, Array.getElem?_modify]
      by_cases hj : i = j
      · subst hj
        obtain ⟨hi, rfl⟩ := Array.getElem?_eq_some_iff.mp hx
        simp [hi]
      · rw [if_neg hj, if_neg hj]
  | none =>
      dsimp only
      congr 1
      apply Array.ext'
      rw [Array.toList_modify, List.modify_eq_self (by simpa using hx)]

/-- So is changing several. -/
theorem Safe.overRange {P : α → Prop} {f : α → Checked α} {g : α → α} (hf : Safe P f g)
    {size : Nat} {xs : Array α} (h : AllOf P size xs) (start n : Nat) :
    Checked.overRange f start n xs = pure (modifyRange g start n xs) := by
  induction n generalizing start xs with
  | zero => rfl
  | succ n ih =>
      rw [Checked.overRange, hf.changeAt h, pure_bind, modifyRange]
      exact ih (h.modify hf.keeps start) (start + 1)

/-- A step that is safe where an invariant holds, and keeps it, may be repeated. -/
theorem Safe.iterate {I : α → Prop} {f : α → Checked α} {g : α → α} (hf : Safe I f g) {a : α}
    (h : I a) (n : Nat) : Checked.iterate f n a = pure (Nat.repeat g n a) := by
  have hall : Checked.iterate f n a = pure (Nat.repeat g n a) ∧ I (Nat.repeat g n a) := by
    induction n with
    | zero => exact ⟨rfl, h⟩
    | succ n ih =>
        obtain ⟨heq, hI⟩ := ih
        refine ⟨?_, hf.keeps _ hI⟩
        rw [Checked.iterate, heq, pure_bind, hf.eq _ hI]
        rfl
  exact hall.1

/-- A loop over a list is safe if each of its steps is. -/
theorem Safe.foldlM {I : α → Prop} {f : α → β → Checked α} {g : α → β → α} {bs : List β}
    (hf : ∀ b ∈ bs, Safe I (f · b) (g · b)) {a : α} (h : I a) :
    bs.foldlM f a = pure (bs.foldl g a) := by
  induction bs generalizing a with
  | nil => rfl
  | cons b bs ih =>
      have hb := hf b List.mem_cons_self
      rw [List.foldlM_cons, hb.eq a h, pure_bind, List.foldl_cons]
      exact ih (fun c hc => hf c (List.mem_cons_of_mem b hc)) (hb.keeps a h)

end Checked

end VideoTerminal
