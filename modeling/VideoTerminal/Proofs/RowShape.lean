import VideoTerminal.Row

/-!
# The shape of a row

A row keeps its number of cells under every operation, and a property that blank cells have and
that the written cells have stays with all its cells.  Everything here is stated for any such
property; the number of marks on a cell is one of them.

The operations are arrays changed at a place, cut, joined and filled, so the first part says what
each of these does to "so many elements, each with the property"; grids of rows use it too.
-/

namespace VideoTerminal

/-- An array of `n` elements, each of which has a property. -/
structure AllOf {α : Type} (P : α → Prop) (n : Nat) (xs : Array α) : Prop where
  size : xs.size = n
  each : ∀ x ∈ xs, P x

namespace AllOf

variable {α : Type} {P : α → Prop} {n : Nat} {xs : Array α}

/-- Copies of one element. -/
theorem replicate {v : α} (hv : P v) (n : Nat) : AllOf P n (Array.replicate n v) := by
  refine ⟨Array.size_replicate, ?_⟩
  intro x hx
  rw [(Array.mem_replicate.mp hx).2]
  exact hv

/-- One element is replaced. -/
theorem set (h : AllOf P n xs) {v : α} (hv : P v) (i : Nat) :
    AllOf P n (xs.setIfInBounds i v) := by
  refine ⟨Array.size_setIfInBounds.trans h.size, ?_⟩
  intro x hx
  rcases Array.mem_or_eq_of_mem_setIfInBounds hx with hx | rfl
  · exact h.each x hx
  · exact hv

/-- One element is changed. -/
theorem modify (h : AllOf P n xs) {f : α → α} (hf : ∀ x, P x → P (f x)) (i : Nat) :
    AllOf P n (xs.modify i f) := by
  refine ⟨Array.size_modify.trans h.size, ?_⟩
  intro x hx
  -- the element may be the changed one or any other, so it is looked up by its place
  obtain ⟨j, hj, rfl⟩ := Array.mem_iff_getElem.mp hx
  have hold : j < xs.size := by simpa using hj
  rw [Array.getElem_modify]
  split
  · exact hf _ (h.each _ (Array.getElem_mem hold))
  · exact h.each _ (Array.getElem_mem hold)

/-- Some elements in a row are changed. -/
theorem modifyRange {f : α → α} (hf : ∀ x, P x → P (f x)) (start k : Nat) (h : AllOf P n xs) :
    AllOf P n (modifyRange f start k xs) := by
  induction k generalizing start xs with
  | zero => exact h
  | succ k ih => exact ih (start + 1) (h.modify hf start)

/-- All elements are changed. -/
theorem map {β : Type} {Q : β → Prop} (h : AllOf P n xs) {f : α → β}
    (hf : ∀ x, P x → Q (f x)) : AllOf Q n (xs.map f) := by
  refine ⟨Array.size_map.trans h.size, ?_⟩
  intro y hy
  obtain ⟨x, hx, rfl⟩ := Array.mem_map.mp hy
  exact hf x (h.each x hx)

/-- Part of an array. -/
theorem extract (h : AllOf P n xs) (i j : Nat) : AllOf P (min j n - i) (xs.extract i j) := by
  refine ⟨by rw [Array.size_extract, h.size], ?_⟩
  intro x hx
  obtain ⟨k, _, rfl⟩ := Array.mem_extract_iff_getElem.mp hx
  exact h.each _ (Array.getElem_mem _)

/-- One array behind another. -/
theorem append {m : Nat} {ys : Array α} (hx : AllOf P n xs) (hy : AllOf P m ys) :
    AllOf P (n + m) (xs ++ ys) :=
  ⟨by rw [Array.size_append, hx.size, hy.size], Array.forall_mem_append.mpr ⟨hx.each, hy.each⟩⟩

/-- One of two arrays of the same size. -/
theorem ite {c : Prop} [Decidable c] {ys : Array α} (hx : AllOf P n xs) (hy : AllOf P n ys) :
    AllOf P n (if c then xs else ys) := by
  split
  · exact hx
  · exact hy

/-- The size may be written in another way. -/
theorem cast {m : Nat} (h : AllOf P n xs) (hm : n = m) : AllOf P m xs := hm ▸ h

end AllOf

/-- Changing elements in place changes no size. -/
theorem size_modifyRange {α : Type} (f : α → α) (start n : Nat) (xs : Array α) :
    (modifyRange f start n xs).size = xs.size := by
  have hall : AllOf (fun _ => True) xs.size xs := ⟨rfl, fun _ _ => trivial⟩
  exact (AllOf.modifyRange (fun _ _ => trivial) start n hall).size

/-! ## Rows -/

/-- A row of `cols` cells, each of which has a property. -/
def Row.Fits (P : Cell → Prop) (cols : Nat) (r : Row) : Prop := AllOf P cols r.cells

/-- Blank cells have a property, whatever rendition they were erased with. -/
def Cell.HeldByBlanks (P : Cell → Prop) : Prop := ∀ a : Rendition, P (Cell.blank a)

/-- The cell that pads a row is blank too. -/
theorem Cell.HeldByBlanks.default {P : Cell → Prop} (hP : Cell.HeldByBlanks P) : P {} := hP {}

namespace Row

variable {P : Cell → Prop} {cols : Nat} {r : Row} {cells : Array Cell}

/-- A row of equal cells. -/
theorem fits_filled {c : Cell} (hc : P c) (cols : Nat) : (filled cols c).Fits P cols :=
  AllOf.replicate hc cols

/-- A row of blank cells. -/
theorem fits_empty (hP : Cell.HeldByBlanks P) (cols : Nat) : (empty cols).Fits P cols :=
  fits_filled hP.default cols

/-! ### A cell that is blanked under a condition -/

/-- A cell that may be replaced is no more and no less. -/
@[simp] theorem size_ite_setIfInBounds {p : Prop} [Decidable p] {b : Cell} (i : Nat) :
    (if p then cells.setIfInBounds i b else cells).size = cells.size := by
  split
  · exact Array.size_setIfInBounds
  · rfl

/-- What stands in a column after that. -/
theorem getElem?_ite_setIfInBounds {p : Prop} [Decidable p] {b : Cell} {i : Nat}
    (hi : i < cells.size) (j : Nat) : (if p then cells.setIfInBounds i b else cells)[j]?
      = if p ∧ j = i then some b else cells[j]? := by
  by_cases hp : p
  · rw [if_pos hp, Array.getElem?_setIfInBounds]
    by_cases hj : j = i
    · rw [if_pos hj.symm, if_pos hi, if_pos ⟨hp, hj⟩]
    · rw [if_neg (Ne.symm hj), if_neg fun h => hj h.2]
  · rw [if_neg hp, if_neg fun h => hp h.1]

/-! ### What rows are made of -/

/-- Mending puts blank cells in the place of halves. -/
theorem allOf_mendAround (h : AllOf P cols cells) {b : Cell} (hb : P b) (col last : Nat) :
    AllOf P cols (mendAround b col last cells) := by
  -- left of the change first, then right of it
  have hleft := AllOf.ite (c := (0 < col && continuesAt cells col) = true) (h.set hb (col - 1)) h
  exact AllOf.ite (hleft.set hb (last + 1)) hleft

/-- What moves to the right stays within the row, since the gap does. -/
theorem allOf_moveRight (h : AllOf P cols cells) {b : Cell} (hb : P b) (col n : Nat) :
    AllOf P cols (moveRight b col (min n (cells.size - col)) cells) := by
  have hparts := ((h.extract 0 col).append (AllOf.replicate hb (min n (cells.size - col)))).append
    (h.extract col (cells.size - min n (cells.size - col)))
  refine hparts.cast ?_
  rw [h.size]
  omega

/-- A move to the left fills up with blank cells. -/
theorem allOf_moveLeft (h : AllOf P cols cells) {b : Cell} (hb : P b) (col n : Nat) :
    AllOf P cols (moveLeft b col (min n (cells.size - col)) cells) := by
  have hparts := ((h.extract 0 col).append
    (h.extract (col + min n (cells.size - col)) cells.size)).append
    (AllOf.replicate hb (min n (cells.size - col)))
  refine hparts.cast ?_
  rw [h.size]
  omega

namespace Fits

/-- Every cell is replaced. -/
theorem fill (h : r.Fits P cols) {c : Cell} (hc : P c) : (r.fill c).Fits P cols :=
  (AllOf.replicate hc r.cells.size).cast h.size

/-- One cell is changed. -/
theorem modify (h : r.Fits P cols) {f : Cell → Cell} (hf : ∀ c, P c → P (f c)) (col : Nat) :
    (r.modify col f).Fits P cols :=
  AllOf.modify h hf col

/-- The mark of a wrapped row is no cell. -/
theorem markWrapped (h : r.Fits P cols) : ({ r with wrapped := true } : Row).Fits P cols := h

/-- Cutting or padding gives the new number of columns, and the cell that loses its second half
    becomes blank. -/
theorem resize (hP : Cell.HeldByBlanks P) (h : r.Fits P cols) (n : Nat) :
    (r.resize n).Fits P n := by
  have hmended : ∀ c, P c → P (if c.isWide then Cell.blank c.rendition else c) := by
    intro c hc
    split
    · exact hP c.rendition
    · exact hc
  have hcut := (AllOf.extract h 0 n).append (AllOf.replicate hP.default (n - r.cells.size))
  refine AllOf.modify (hcut.cast ?_) hmended _
  rw [AllOf.size h]
  omega

/-- A glyph, its continuation and the blank cells around them. -/
theorem write (h : r.Fits P cols) (col : Nat) {b g k : Cell} (hb : P b) (hg : P g) (hk : P k) :
    (r.write col b g k).Fits P cols := by
  rw [Row.write]
  split
  · exact ((allOf_mendAround h hb col (col + 1)).set hg col).set hk (col + 1)
  · exact (allOf_mendAround h hb col col).set hg col

/-- Blank cells in the place of erased ones. -/
theorem erase (h : r.Fits P cols) {b : Cell} (hb : P b) (start stop : Nat) (selective : Bool) :
    (r.erase b start stop selective).Fits P cols := by
  have herased : ∀ c, P c → P (if selective && c.isProtected then c else b) := by
    intro c hc
    split
    · exact hc
    · exact hb
  have hrange := fun i n => AllOf.modifyRange herased i n h
  have hbefore := fun p [Decidable p] i j n =>
    AllOf.ite (c := p) ((hrange i n).set hb j) (hrange i n)
  exact AllOf.ite ((hbefore _ _ _ _).set hb _) (hbefore _ _ _ _)

/-- Blank cells at the column, and what is pushed out is lost. -/
theorem insert (h : r.Fits P cols) {b : Cell} (hb : P b) (col n : Nat) :
    (r.insert b col n).Fits P cols := by
  have hmended := AllOf.ite (c := (0 < col && continuesAt r.cells col) = true)
    ((AllOf.set h hb (col - 1)).set hb col) h
  have hmoved := allOf_moveRight hmended hb col n
  exact AllOf.ite (hmoved.set hb _) hmoved

/-- Blank cells at the end. -/
theorem delete (h : r.Fits P cols) {b : Cell} (hb : P b) (col n : Nat) :
    (r.delete b col n).Fits P cols := by
  have hmended := AllOf.ite (c := (0 < col && continuesAt r.cells col) = true)
    (AllOf.set h hb (col - 1)) h
  have hmoved := allOf_moveLeft hmended hb col n
  exact AllOf.ite (hmoved.set hb _) hmoved

end Fits

end Row

end VideoTerminal
