import Mathlib
import VideoTerminal.Proofs.RowShape

/-!
# The halves of wide characters in a row

In a row without defects every cell of width two is followed by a cell of width zero, and every
cell of width zero follows one of width two.  Each operation first says, cell by cell, where the
cells of the new row come from.  Then the pairs follow: what is overwritten takes the other half
of a pair along, and where cells part from their neighbours a half that is left is blanked.
-/

namespace VideoTerminal

namespace Row

/-! ## Looking at single cells -/

/-- Whether there is a cell at a place, with a property. -/
def holdsAt (p : Cell → Bool) (cells : Array Cell) (i : Nat) : Bool := (cells[i]?.map p).getD false

section holdsAt

variable {p : Cell → Bool} {cells : Array Cell} {c : Cell}

/-- Beyond the end nothing holds. -/
theorem lt_of_holdsAt {i : Nat} (h : holdsAt p cells i = true) : i < cells.size := by
  rw [holdsAt] at h
  by_cases hi : i < cells.size
  · exact hi
  · rw [Array.getElem?_eq_none (Nat.le_of_not_lt hi)] at h
    exact nomatch h

/-- A cell that is set is asked for itself. -/
theorem holdsAt_set (j i : Nat) : holdsAt p (cells.setIfInBounds j c) i
    = if j = i ∧ j < cells.size then p c else holdsAt p cells i := by
  rw [holdsAt, holdsAt, Array.getElem?_setIfInBounds]
  by_cases hji : j = i
  · by_cases hj : j < cells.size
    · rw [if_pos hji, if_pos hj, if_pos ⟨hji, hj⟩]
      rfl
    · rw [if_pos hji, if_neg hj, if_neg fun h => hj h.2,
        Array.getElem?_eq_none (hji ▸ Nat.le_of_not_lt hj)]
  · rw [if_neg hji, if_neg fun h => hji h.1]

/-- Two rows behind each other are asked where the column is. -/
theorem holdsAt_append {ys : Array Cell} (i : Nat) : holdsAt p (cells ++ ys) i
    = if i < cells.size then holdsAt p cells i else holdsAt p ys (i - cells.size) := by
  rw [holdsAt, Array.getElem?_append]
  split <;> rfl

/-- A part of a row is asked at the column it was taken from. -/
theorem holdsAt_extract (start stop i : Nat) : holdsAt p (cells.extract start stop) i
    = (decide (i < min stop cells.size - start) && holdsAt p cells (start + i)) := by
  rw [holdsAt, Array.getElem?_extract]
  split
  case isTrue hi =>
    rw [decide_eq_true hi, Bool.true_and]
    rfl
  case isFalse hi =>
    rw [decide_eq_false hi]
    rfl

/-- Equal cells answer alike. -/
theorem holdsAt_replicate (n i : Nat) :
    holdsAt p (Array.replicate n c) i = (decide (i < n) && p c) := by
  rw [holdsAt, Array.getElem?_replicate]
  split
  case isTrue hi =>
    rw [decide_eq_true hi, Bool.true_and]
    rfl
  case isFalse hi =>
    rw [decide_eq_false hi]
    rfl

/-- A cell that is changed is asked after the change. -/
theorem holdsAt_modify {f : Cell → Cell} (j i : Nat) : holdsAt p (cells.modify j f) i
    = if j = i then holdsAt (p ∘ f) cells i else holdsAt p cells i := by
  rw [holdsAt, Array.getElem?_modify]
  split
  · rw [Option.map_map]
    rfl
  · rfl

end holdsAt

/-! ## Pairs -/

/-- Every first half of a wide character is followed by a second half, and every second half
    follows a first. -/
def PairIntact (cells : Array Cell) : Prop :=
  ∀ i, (isWideAt cells i = true → continuesAt cells (i + 1) = true) ∧
    (continuesAt cells i = true → 0 < i ∧ isWideAt cells (i - 1) = true)

variable {cells : Array Cell}

/-- A row does not begin with a second half, and the two halves go together. -/
theorem pairIntact_iff : PairIntact cells ↔
    continuesAt cells 0 = false ∧ ∀ i, isWideAt cells i = continuesAt cells (i + 1) := by
  constructor
  · intro h
    refine ⟨Bool.eq_false_iff.mpr fun h0 => Nat.lt_irrefl 0 ((h 0).2 h0).1, fun i => ?_⟩
    exact Bool.eq_iff_iff.mpr ⟨(h i).1, fun hi => ((h (i + 1)).2 hi).2⟩
  · rintro ⟨hfirst, hnext⟩ i
    refine ⟨fun hi => hnext i ▸ hi, fun hi => ?_⟩
    cases i with
    | zero => exact absurd hi (Bool.eq_false_iff.mp hfirst)
    | succ i => exact ⟨Nat.succ_pos i, (hnext i).trans hi⟩

/-- Beyond the row there are no halves, so its own columns decide. -/
instance (cells : Array Cell) : Decidable (PairIntact cells) :=
  decidable_of_iff (continuesAt cells 0 = false ∧
      ∀ i < cells.size, isWideAt cells i = continuesAt cells (i + 1)) <| by
    rw [pairIntact_iff]
    refine and_congr_right fun _ => ⟨fun h i => ?_, fun h i _ => h i⟩
    by_cases hi : i < cells.size
    · exact h i hi
    · rw [isWideAt, continuesAt, Array.getElem?_eq_none (by omega),
        Array.getElem?_eq_none (by omega)]
      rfl

/-- A cell is not both halves. -/
theorem not_both_halves (cells : Array Cell) (i : Nat) :
    (isWideAt cells i && continuesAt cells i) = false := by
  rw [isWideAt, continuesAt]
  cases cells[i]? with
  | none => rfl
  | some c =>
      show (c.width == 2 && c.width == 0) = false
      cases hwidth : c.width == 2 with
      | false => rfl
      | true =>
          rw [beq_iff_eq.mp hwidth]
          rfl

end Row

/-- A cell that is a character of its own. -/
structure Cell.IsNarrow (c : Cell) : Prop where
  isWide : c.isWide = false
  isContinuation : c.isContinuation = false

/-- An erased cell is narrow. -/
theorem Cell.isNarrow_blank (a : Rendition) : (Cell.blank a).IsNarrow := ⟨rfl, rfl⟩

namespace Row

variable {cells : Array Cell} {b g : Cell}

/-- Equal cells that are characters of their own. -/
theorem PairIntact.replicate (hb : b.IsNarrow) (n : Nat) : PairIntact (Array.replicate n b) := by
  have hnone : ∀ p : Cell → Bool, p b = false → ∀ i, holdsAt p (Array.replicate n b) i = false := by
    intro p hp i
    rw [holdsAt_replicate, hp, Bool.and_false]
  refine pairIntact_iff.mpr ⟨hnone _ hb.isContinuation 0, fun i => ?_⟩
  exact (hnone _ hb.isWide i).trans (hnone _ hb.isContinuation (i + 1)).symm

/-- The pairs are whole but for the cells from `col` to `last`, and none reaches into these. -/
structure IntactOutside (col last : Nat) (cells : Array Cell) : Prop where
  first : 0 < col → continuesAt cells 0 = false
  pairs : ∀ i, i + 1 < col ∨ last < i → isWideAt cells i = continuesAt cells (i + 1)
  before : ∀ i, i + 1 = col → isWideAt cells i = false
  after : continuesAt cells (last + 1) = false

/-- Setting a cell makes its column wide or not. -/
theorem isWideAt_set (j i : Nat) (c : Cell) : isWideAt (cells.setIfInBounds j c) i
    = if j = i ∧ j < cells.size then c.isWide else isWideAt cells i :=
  holdsAt_set j i

/-- Setting a cell makes its column a second half or not. -/
theorem continuesAt_set (j i : Nat) (c : Cell) : continuesAt (cells.setIfInBounds j c) i
    = if j = i ∧ j < cells.size then c.isContinuation else continuesAt cells i :=
  holdsAt_set j i

/-- Blanking the halves that are left on both sides separates what is overwritten. -/
theorem PairIntact.mendAround (h : PairIntact cells) (hb : b.IsNarrow) {col last : Nat}
    (hlast : col ≤ last) : IntactOutside col last (mendAround b col last cells) := by
  obtain ⟨hfirst, hpairs⟩ := pairIntact_iff.mp h
  have hboth := not_both_halves cells
  have hinside : ∀ i, continuesAt cells i = true → i < cells.size := fun _ => lt_of_holdsAt
  have hwide := hb.isWide
  have hcontinuation := hb.isContinuation
  rw [Row.mendAround]
  constructor <;> grind [isWideAt_set, continuesAt_set]

/-- A character of one column in the gap makes the row whole. -/
theorem IntactOutside.setNarrow {col : Nat} (h : IntactOutside col col cells) (hg : g.IsNarrow)
    (hcol : col < cells.size) : PairIntact (cells.setIfInBounds col g) := by
  have hwide := hg.isWide
  have hcontinuation := hg.isContinuation
  obtain ⟨hfirst, hpairs, hbefore, hafter⟩ := h
  rw [pairIntact_iff]
  constructor <;> grind [isWideAt_set, continuesAt_set]

/-- A character of two columns in the gap makes the row whole. -/
theorem IntactOutside.setWide {col : Nat} {k : Cell} (h : IntactOutside col (col + 1) cells)
    (hg : g.isWide = true) (hk : k.isContinuation = true) (hcol : col + 1 < cells.size) :
    PairIntact ((cells.setIfInBounds col g).setIfInBounds (col + 1) k) := by
  have hboth : g.isContinuation = false ∧ k.isWide = false := by
    simp_all [Cell.isWide, Cell.isContinuation]
  obtain ⟨hfirst, hpairs, hbefore, hafter⟩ := h
  rw [pairIntact_iff]
  constructor <;> grind [isWideAt_set, continuesAt_set]

/-- Mending blanks cells and removes none. -/
theorem size_mendAround (b : Cell) (col last : Nat) (cells : Array Cell) :
    (Row.mendAround b col last cells).size = cells.size := by
  rw [Row.mendAround]
  grind

/-! ## Cells that move -/

/-- The first columns are as many as were taken. -/
theorem size_take {col : Nat} (hcol : col ≤ cells.size) : (cells.take col).size = col := by
  rw [Array.take, Array.size_extract]
  omega

/-- They are the cells that were there. -/
theorem getElem?_take_of_lt {col i : Nat} (hi : i < col) : (cells.take col)[i]? = cells[i]? := by
  rw [Array.take, Array.getElem?_extract, Nat.zero_add]
  by_cases hinside : i < cells.size
  · rw [if_pos (by omega)]
  · rw [if_neg (by omega), Array.getElem?_eq_none (Nat.le_of_not_lt hinside)]

/-- Where cells come from when others make room: they have moved, or are blank. -/
theorem getElem?_moveRight {col n : Nat} (hcol : col ≤ cells.size) (i : Nat) :
    (moveRight b col n cells)[i]? = if i < col then cells[i]?
      else if i < col + n then some b else if i < cells.size then cells[i - n]? else none := by
  rw [moveRight, Array.append_assoc, Array.getElem?_append, size_take hcol]
  by_cases hleft : i < col
  · rw [if_pos hleft, if_pos hleft, getElem?_take_of_lt hleft]
  rw [if_neg hleft, if_neg hleft, Array.getElem?_append, Array.size_replicate]
  by_cases hgap : i < col + n
  · rw [if_pos hgap, if_pos (by omega), Array.getElem?_replicate, if_pos (by omega)]
  rw [if_neg hgap, if_neg (by omega), Array.getElem?_extract]
  by_cases hinside : i < cells.size
  · rw [if_pos hinside, if_pos (by omega), show col + (i - col - n) = i - n by omega]
  · rw [if_neg hinside, if_neg (by omega)]

/-- Where the cells are after a move to the left: in front of the column as before, behind it as
    many columns on, and blank at the end. -/
theorem getElem?_moveLeft {col n : Nat} (hn : n ≤ cells.size - col) (hcol : col ≤ cells.size)
    (i : Nat) : (moveLeft b col n cells)[i]? = if i < col then cells[i]?
      else if i + n < cells.size then cells[i + n]?
      else if i < cells.size then some b else none := by
  have hrest : (cells.drop (col + n)).size = cells.size - (col + n) := by
    rw [Array.drop, Array.size_extract, Nat.min_self]
  rw [moveLeft, Array.append_assoc, Array.getElem?_append, size_take hcol]
  by_cases hleft : i < col
  · rw [if_pos hleft, if_pos hleft, getElem?_take_of_lt hleft]
  rw [if_neg hleft, if_neg hleft, Array.getElem?_append, hrest]
  by_cases hmoved : i + n < cells.size
  · rw [if_pos hmoved, if_pos (by omega), Array.drop, Array.getElem?_extract, if_pos (by omega),
      show col + n + (i - col) = i + n by omega]
  rw [if_neg hmoved, if_neg (by omega), Array.getElem?_replicate]
  exact if_congr (by omega) rfl rfl

/-- What holds after a move to the right, of a property that blank cells do not have. -/
theorem holdsAt_moveRight {p : Cell → Bool} (hb : p b = false) {col n : Nat}
    (hcol : col ≤ cells.size) (i : Nat) :
    holdsAt p (moveRight b col n cells) i = if i < col then holdsAt p cells i
      else if col + n ≤ i ∧ i < cells.size then holdsAt p cells (i - n) else false := by
  rw [holdsAt, getElem?_moveRight hcol]
  grind [holdsAt]

/-- What holds after a move to the left. -/
theorem holdsAt_moveLeft {p : Cell → Bool} (hb : p b = false) {col n : Nat}
    (hn : n ≤ cells.size - col) (hcol : col ≤ cells.size) (i : Nat) :
    holdsAt p (moveLeft b col n cells) i = holdsAt p cells (if i < col then i else i + n) := by
  have hinside : holdsAt p cells (i + n) = true → i + n < cells.size := lt_of_holdsAt
  rw [holdsAt, getElem?_moveLeft hn hcol]
  grind [holdsAt]

/-- Which columns are wide after a move to the left. -/
theorem isWideAt_moveLeft (hb : b.IsNarrow) {col n : Nat} (hn : n ≤ cells.size - col)
    (hcol : col ≤ cells.size) (i : Nat) :
    isWideAt (moveLeft b col n cells) i = isWideAt cells (if i < col then i else i + n) :=
  holdsAt_moveLeft hb.isWide hn hcol i

/-- Which are second halves. -/
theorem continuesAt_moveLeft (hb : b.IsNarrow) {col n : Nat} (hn : n ≤ cells.size - col)
    (hcol : col ≤ cells.size) (i : Nat) :
    continuesAt (moveLeft b col n cells) i = continuesAt cells (if i < col then i else i + n) :=
  holdsAt_moveLeft hb.isContinuation hn hcol i

/-- Which columns are wide after a move to the right. -/
theorem isWideAt_moveRight (hb : b.IsNarrow) {col n : Nat} (hcol : col ≤ cells.size) (i : Nat) :
    isWideAt (moveRight b col n cells) i = if i < col then isWideAt cells i
      else if col + n ≤ i ∧ i < cells.size then isWideAt cells (i - n) else false :=
  holdsAt_moveRight hb.isWide hcol i

/-- Which are second halves. -/
theorem continuesAt_moveRight (hb : b.IsNarrow) {col n : Nat} (hcol : col ≤ cells.size)
    (i : Nat) :
    continuesAt (moveRight b col n cells) i = if i < col then continuesAt cells i
      else if col + n ≤ i ∧ i < cells.size then continuesAt cells (i - n) else false :=
  holdsAt_moveRight hb.isContinuation hcol i

/-- A move to the right keeps the width of the row: what is pushed out is lost. -/
theorem size_moveRight {col n : Nat} (hn : n ≤ cells.size - col) (hcol : col ≤ cells.size) :
    (moveRight b col n cells).size = cells.size := by
  rw [moveRight]
  grind

/-- A move to the left keeps it too: what is missing is blank. -/
theorem size_moveLeft {col n : Nat} (hn : n ≤ cells.size - col) (hcol : col ≤ cells.size) :
    (moveLeft b col n cells).size = cells.size := by
  rw [moveLeft]
  grind

/-- A whole row, but for a first half without a second in its last cell. -/
structure IntactButLast (cells : Array Cell) : Prop where
  first : continuesAt cells 0 = false
  pairs : ∀ i, i + 1 < cells.size → isWideAt cells i = continuesAt cells (i + 1)

/-- The half that is left in the last cell is blanked. -/
theorem IntactButLast.mend (h : IntactButLast cells) (hb : b.IsNarrow) :
    PairIntact (if isWideAt cells (cells.size - 1) then cells.setIfInBounds (cells.size - 1) b
      else cells) := by
  have hboth := not_both_halves cells
  have hinside : ∀ i, continuesAt cells i = true → i < cells.size := fun _ => lt_of_holdsAt
  have hwideInside : ∀ i, isWideAt cells i = true → i < cells.size := fun _ => lt_of_holdsAt
  have hwide := hb.isWide
  have hcontinuation := hb.isContinuation
  obtain ⟨hfirst, hpairs⟩ := h
  rw [pairIntact_iff]
  constructor <;> grind [isWideAt_set, continuesAt_set]

/-- Cells that part where no pair is stay whole on both sides of the gap. -/
theorem PairIntact.moveRight (h : PairIntact cells) (hb : b.IsNarrow) {col n : Nat}
    (hcol : col ≤ cells.size) (hseam : continuesAt cells col = false) (hn : n ≤ cells.size - col) :
    IntactButLast (moveRight b col n cells) := by
  obtain ⟨hfirst, hpairs⟩ := pairIntact_iff.mp h
  refine ⟨by grind [continuesAt_moveRight], fun i hi => ?_⟩
  rw [size_moveRight hn hcol] at hi
  rw [isWideAt_moveRight hb hcol, continuesAt_moveRight hb hcol]
  rcases Nat.lt_trichotomy (i + 1) col with hleft | hedge | hright
  · rw [if_pos (Nat.lt_of_succ_lt hleft), if_pos hleft, hpairs]
  · -- the last cell before the gap is no first half, since no second half follows
    have hlast : isWideAt cells i = false := by rw [hpairs, hedge, hseam]
    rw [if_pos (show i < col by omega), hlast, if_neg (show ¬ i + 1 < col by omega)]
    by_cases hn0 : n = 0
    · rw [hn0, hedge, Nat.sub_zero, hseam, ite_self]
    · rw [if_neg (by omega)]
  · rw [if_neg (show ¬ i < col by omega), if_neg (show ¬ i + 1 < col by omega)]
    by_cases hgap : i + 1 ≤ col + n
    · -- a blank cell, and behind it another one or the first that has moved
      rw [if_neg (by omega)]
      by_cases hend : i + 1 = col + n
      · rw [show i + 1 - n = col by omega, hseam, ite_self]
      · rw [if_neg (by omega)]
    · rw [if_pos (by omega), if_pos (by omega), hpairs, show i + 1 - n = i - n + 1 by omega]

/-- A whole row, but for a second half at `col` whose first half is gone. -/
structure IntactButAt (col : Nat) (cells : Array Cell) : Prop where
  first : 0 < col → continuesAt cells 0 = false
  pairs : ∀ i, i + 1 ≠ col → isWideAt cells i = continuesAt cells (i + 1)
  before : ∀ i, i + 1 = col → isWideAt cells i = false

/-- The first half of a pair that lies across the seam is blanked. -/
theorem PairIntact.part (h : PairIntact cells) (hb : b.IsNarrow) {col : Nat}
    (hcol : col < cells.size) :
    IntactButAt col (if 0 < col && continuesAt cells col then cells.setIfInBounds (col - 1) b
      else cells) := by
  obtain ⟨hfirst, hpairs⟩ := pairIntact_iff.mp h
  have hboth := not_both_halves cells
  have hwide := hb.isWide
  have hcontinuation := hb.isContinuation
  constructor <;> grind [isWideAt_set, continuesAt_set]

/-- What moves up to the seam may begin with a second half, but whole pairs stay so. -/
theorem IntactButAt.moveLeft {col n : Nat} (h : IntactButAt col cells) (hb : b.IsNarrow)
    (hcol : col < cells.size) (hn : n ≤ cells.size - col) :
    IntactButAt col (moveLeft b col n cells) := by
  have hwide := isWideAt_moveLeft hb hn (Nat.le_of_lt hcol)
  have hcontinues := continuesAt_moveLeft hb hn (Nat.le_of_lt hcol)
  refine ⟨fun hpos => ?_, fun i hi => ?_, fun i hi => ?_⟩
  · rw [hcontinues, if_pos hpos]
    exact h.first hpos
  · rw [hwide, hcontinues]
    rcases Nat.lt_or_ge i col with hleft | hright
    · rw [if_pos hleft, if_pos (by omega), h.pairs i hi]
    · rw [if_neg (by omega), if_neg (by omega), h.pairs (i + n) (by omega), Nat.add_right_comm]
  · rw [hwide, if_pos (by omega)]
    exact h.before i hi

/-- The half that is left at the seam is blanked. -/
theorem IntactButAt.mend {col : Nat} (h : IntactButAt col cells) (hb : b.IsNarrow) :
    PairIntact (if continuesAt cells col then cells.setIfInBounds col b else cells) := by
  obtain ⟨hfirst, hpairs, hbefore⟩ := h
  have hboth := not_both_halves cells col
  have hinside : continuesAt cells col = true → col < cells.size := lt_of_holdsAt
  have hwide := hb.isWide
  have hcontinuation := hb.isContinuation
  rw [pairIntact_iff]
  constructor <;> grind [isWideAt_set, continuesAt_set]

/-- A pair that lies across a place is blanked as a whole. -/
theorem PairIntact.separate (h : PairIntact cells) (hb : b.IsNarrow) {col : Nat}
    (hcol : col < cells.size) {parted : Array Cell}
    (hparted : parted = if 0 < col && continuesAt cells col then
      (cells.setIfInBounds (col - 1) b).setIfInBounds col b else cells) :
    PairIntact parted ∧ continuesAt parted col = false ∧ parted.size = cells.size := by
  by_cases hpair : (0 < col && continuesAt cells col) = true
  · obtain ⟨hpos, hcontinues⟩ := Bool.and_eq_true_iff.mp hpair
    have hfirst := h.part hb hcol
    rw [if_pos hpair] at hparted hfirst
    have hsecond : continuesAt (cells.setIfInBounds (col - 1) b) col = true := by
      rw [continuesAt_set, if_neg, hcontinues]
      have := of_decide_eq_true hpos
      omega
    have hwhole := hfirst.mend hb
    rw [if_pos hsecond, ← hparted] at hwhole
    have hsize : parted.size = cells.size := by
      rw [hparted, Array.size_setIfInBounds, Array.size_setIfInBounds]
    refine ⟨hwhole, ?_, hsize⟩
    rw [hparted, continuesAt_set, Array.size_setIfInBounds, if_pos ⟨rfl, hcol⟩]
    exact hb.isContinuation
  · rw [if_neg hpair] at hparted
    rw [hparted]
    refine ⟨h, ?_, rfl⟩
    cases col with
    | zero => exact (pairIntact_iff.mp h).1
    | succ col => simpa using hpair

/-! ## The operations on a row -/

/-- **Writing** tears nothing: the cells it covers are mended on both sides first. -/
theorem PairIntact.write {r : Row} (h : PairIntact r.cells) {col : Nat} {g k : Cell}
    (hb : b.IsNarrow) (hg : g.isContinuation = false) (hk : k.isContinuation = true)
    (hcol : col < r.cells.size) (hroom : g.isWide = true → col + 1 < r.cells.size) :
    PairIntact (r.write col b g k).cells := by
  rw [Row.write]
  split
  case isTrue hwide =>
    refine (h.mendAround hb (Nat.le_succ col)).setWide hwide hk ?_
    rw [size_mendAround]
    exact hroom hwide
  case isFalse hwide =>
    refine (h.mendAround hb (Nat.le_refl col)).setNarrow ⟨Bool.eq_false_iff.mpr hwide, hg⟩ ?_
    rw [size_mendAround]
    exact hcol

/-- **Deleting** tears nothing: behind what is deleted a second half may be left, which is blanked.
    -/
theorem PairIntact.delete {r : Row} (h : PairIntact r.cells) (hb : b.IsNarrow) {col : Nat}
    (hcol : col < r.cells.size) (n : Nat) : PairIntact (r.delete b col n).cells := by
  have hparted := h.part hb hcol
  rw [Row.delete]
  generalize hcells : (if 0 < col && continuesAt r.cells col then
    r.cells.setIfInBounds (col - 1) b else r.cells) = cells at hparted
  have hsize : cells.size = r.cells.size := by rw [← hcells, size_ite_setIfInBounds]
  exact (hparted.moveLeft hb (hsize ▸ hcol) (Nat.min_le_right n _)).mend hb

/-- **Inserting** tears nothing: the character at the column is blanked, and so is a half at the
    margin. -/
theorem PairIntact.insert {r : Row} (h : PairIntact r.cells) (hb : b.IsNarrow) {col : Nat}
    (hcol : col < r.cells.size) (n : Nat) : PairIntact (r.insert b col n).cells := by
  rw [Row.insert]
  generalize hcells : (if 0 < col && continuesAt r.cells col then
    (r.cells.setIfInBounds (col - 1) b).setIfInBounds col b else r.cells) = cells
  obtain ⟨hparted, hseam, hsize⟩ := h.separate hb hcol hcells.symm
  exact (hparted.moveRight hb (hsize ▸ Nat.le_of_lt hcol) hseam (Nat.min_le_right n _)).mend hb

/-- What leaves the widths alone tears nothing. -/
theorem PairIntact.modify {r : Row} (h : PairIntact r.cells) {f : Cell → Cell}
    (hf : ∀ c, (f c).width = c.width) (col : Nat) : PairIntact (r.modify col f).cells := by
  have hsame : ∀ p : Nat → Bool, ∀ i, holdsAt (p ·.width) (r.modify col f).cells i
      = holdsAt (p ·.width) r.cells i := by
    intro p i
    rw [Row.modify, holdsAt_modify]
    split
    · exact congrArg (fun q => holdsAt q r.cells i) (funext fun c => congrArg p (hf c))
    · rfl
  intro i
  rw [show isWideAt (r.modify col f).cells = isWideAt r.cells from funext (hsame (· == 2)),
    show continuesAt (r.modify col f).cells = continuesAt r.cells from funext (hsame (· == 0))]
  exact h i

/-- The cell that mending the end leaves in the last place is narrow where it was the first half of
    a pair. -/
theorem mendEnd_eq (cells : Array Cell) : ∃ a : Rendition, mendEnd cells =
    if isWideAt cells (cells.size - 1) then cells.setIfInBounds (cells.size - 1) (Cell.blank a)
    else cells := by
  refine ⟨(cells[cells.size - 1]?.getD {}).rendition, Array.ext_getElem? fun i => ?_⟩
  rw [mendEnd]
  grind [isWideAt]

/-- Cells that are cut off, or padded with blank ones. -/
theorem holdsAt_padded {p : Cell → Bool} {c : Cell} (hp : p c = false) (cols i : Nat) :
    holdsAt p (cells.take cols ++ Array.replicate (cols - cells.size) c) i
      = if i < cols then holdsAt p cells i else false := by
  have hinside : holdsAt p cells i = true → i < cells.size := lt_of_holdsAt
  rw [Array.take]
  grind [holdsAt_append, holdsAt_extract, holdsAt_replicate]

/-- A row that is cut loses a first half at its end. -/
theorem PairIntact.resize {r : Row} (h : PairIntact r.cells) (cols : Nat) :
    PairIntact (r.resize cols).cells := by
  obtain ⟨hfirst, hpairs⟩ := pairIntact_iff.mp h
  rw [Row.resize]
  generalize hcells : r.cells.take cols ++ Array.replicate (cols - r.cells.size) ({} : Cell) = cells
  obtain ⟨a, hmended⟩ := mendEnd_eq cells
  dsimp only
  rw [hmended]
  have hsize : cells.size = cols := by
    rw [← hcells, Array.size_append, Array.take, Array.size_extract, Array.size_replicate]
    omega
  have hwide : ∀ i, isWideAt cells i = if i < cols then isWideAt r.cells i else false :=
    fun i => hcells ▸ holdsAt_padded rfl cols i
  have hcontinues : ∀ i, continuesAt cells i = if i < cols then continuesAt r.cells i else false :=
    fun i => hcells ▸ holdsAt_padded rfl cols i
  refine IntactButLast.mend ⟨?_, fun i hi => ?_⟩ (Cell.isNarrow_blank a)
  · rw [hcontinues, hfirst, ite_self]
  · rw [hsize] at hi
    rw [hwide, hcontinues, if_pos (Nat.lt_of_succ_lt hi), if_pos hi]
    exact hpairs i

end Row

end VideoTerminal
