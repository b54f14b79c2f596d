import VideoTerminal.Proofs.Reachable
import VideoTerminal.Proofs.WideCharacters

/-!
# Erasing

Erasing works on each row of the shown screen by itself, on a range of its columns; the rest of the
terminal stays as it is.  So everything is said of one row first: which cells become blank when a
range is erased, and what becomes of a wide character that lies across an end of the range.

At the far end the second half is erased with the first.  At the near end it is not so: when the
range begins on a second half, that half is blank before anyone looks for its first half, which
then stays alone.  A selective range, on the other hand, may have kept a protected second half
there, and then the first half is erased, protected or not.
-/

namespace VideoTerminal

/-! ## Ranges of elements -/

theorem getElem?_modifyRange {α : Type} (f : α → α) (start n : Nat) (xs : Array α) (i : Nat) :
    (modifyRange f start n xs)[i]?
      = if start ≤ i ∧ i < start + n then xs[i]?.map f else xs[i]? := by
  induction n generalizing start xs with
  | zero => rw [modifyRange, if_neg (by omega)]
  | succ n ih =>
      rw [modifyRange, ih, Array.getElem?_modify]
      by_cases hfirst : start = i
      · rw [if_neg (by omega), if_pos hfirst, if_pos (by omega)]
      · rw [if_neg hfirst]
        by_cases hrest : start + 1 ≤ i ∧ i < start + 1 + n
        · rw [if_pos hrest, if_pos (by omega)]
        · rw [if_neg hrest, if_neg (by omega)]

/-! ## One row -/

namespace Row

variable {r : Row} {b : Cell}

/-- The cells that become blank when the columns from `start` up to `stop` are erased: those in the
    range, unless they are spared; the one in front, if a second half is spared at `start`; and a
    second half at `stop`. -/
def blanks (r : Row) (start stop : Nat) (selective : Bool) (i : Nat) (c : Cell) : Bool :=
  decide (start ≤ i ∧ i < stop) && !(selective && c.isProtected) ||
    i + 1 == start && decide (start < stop) &&
      holdsAt (fun d => selective && d.isProtected && d.isContinuation) r.cells start ||
    i == stop && c.isContinuation

/-- What is left of the cells in a range. -/
def sparing (b : Cell) (selective : Bool) (c : Cell) : Cell :=
  if selective && c.isProtected then c else b

/-- A second half that is left in a range has been spared. -/
theorem isContinuation_sparing (hb : b.IsNarrow) (selective : Bool) (c : Cell) :
    (sparing b selective c).isContinuation = (selective && c.isProtected && c.isContinuation) := by
  rw [sparing]
  split
  case isTrue hspared => rw [hspared, Bool.true_and]
  case isFalse hspared => rw [hb.isContinuation, Bool.eq_false_iff.mpr hspared, Bool.false_and]

theorem getElem?_erase (hb : b.IsNarrow) {start stop : Nat} (hrange : start ≤ stop)
    (selective : Bool) (i : Nat) : (r.erase b start stop selective).cells[i]?
      = r.cells[i]?.map fun c => if r.blanks start stop selective i c then b else c := by
  rw [erase]
  dsimp only
  generalize hcells : modifyRange _ _ _ r.cells = cells
  have hsize : cells.size = r.cells.size := by rw [← hcells, size_modifyRange]
  have hcell : ∀ j, cells[j]? = if start ≤ j ∧ j < stop
      then r.cells[j]?.map (sparing b selective) else r.cells[j]? := by
    intro j
    rw [← hcells, getElem?_modifyRange]
    by_cases hj : j < r.cells.size
    · exact if_congr (by omega) rfl rfl
    · rw [Array.getElem?_eq_none (Nat.le_of_not_lt hj)]
      simp only [Option.map_none, ite_self]
  have hnear : start < stop → continuesAt cells start
      = holdsAt (fun d => selective && d.isProtected && d.isContinuation) r.cells start := by
    intro hlt
    rw [continuesAt, hcell, if_pos ⟨Nat.le_refl _, hlt⟩, Option.map_map, holdsAt]
    exact congrArg (fun f => (Option.map f r.cells[start]?).getD false)
      (funext (isContinuation_sparing hb selective))
  have hfar : continuesAt cells stop = continuesAt r.cells stop := by
    rw [continuesAt, hcell, if_neg (by omega)]
    rfl
  grind [blanks, sparing, continuesAt]

/-! ### Wide characters at the ends of a range -/

/-- The columns that are covered, and the other halves of wide characters of which one half is. -/
def takes (cells : Array Cell) (covered : Nat → Bool) (i : Nat) : Bool :=
  covered i || isWideAt cells i && covered (i + 1) ||
    decide (0 < i) && continuesAt cells i && covered (i - 1)

/-- Columns beyond the row do not matter. -/
theorem PairIntact.takes_congr (h : PairIntact r.cells) {p q : Nat → Bool}
    (hpq : ∀ i < r.cells.size, p i = q i) {i : Nat} (hi : i < r.cells.size) :
    takes r.cells p i = takes r.cells q i := by
  have hsecond : isWideAt r.cells i = true → i + 1 < r.cells.size :=
    fun hwide => lt_of_holdsAt ((h i).1 hwide)
  grind [takes]

/-- The halves of a wide character are taken together. -/
theorem PairIntact.takes_halves (h : PairIntact r.cells) (covered : Nat → Bool) {i : Nat}
    (hwide : isWideAt r.cells i = true) :
    takes r.cells covered (i + 1) = takes r.cells covered i := by
  have hsecond := (h i).1 hwide
  have hfirst : continuesAt r.cells i = false := by
    simpa [hwide] using not_both_halves r.cells i
  have hnext : isWideAt r.cells (i + 1) = false := by
    simpa [hsecond] using not_both_halves r.cells (i + 1)
  simp only [takes, hwide, hsecond, hfirst, hnext, Nat.add_sub_cancel]
  simp [Bool.or_comm]

/-- Blanking cells takes their halves away and leaves the others. -/
theorem holdsAt_blanked {p : Cell → Bool} (hp : p b = false) {cells cells' : Array Cell}
    {blanked : Nat → Prop} [DecidablePred blanked]
    (hcells : ∀ i, cells'[i]? = cells[i]?.map fun c => if blanked i then b else c) (i : Nat) :
    holdsAt p cells' i = (!decide (blanked i) && holdsAt p cells i) := by
  rw [holdsAt, hcells, Option.map_map, holdsAt]
  by_cases hi : blanked i
  · cases hc : cells[i]? <;> simp [hi, hp]
  · cases hc : cells[i]? <;> simp [hi]

/-- A range that is erased altogether leaves a second half behind it only by itself. -/
theorem blanks_plain {start stop i : Nat} {c : Cell} (hc : r.cells[i]? = some c) :
    r.blanks start stop false i c =
      (decide (start ≤ i ∧ i < stop) || i == stop && continuesAt r.cells i) := by
  have hspared : holdsAt (fun d => false && d.isProtected && d.isContinuation) r.cells start
      = false := by
    rw [holdsAt]
    cases r.cells[start]? <;> rfl
  rw [blanks, hspared, continuesAt, hc, Bool.false_and, Bool.and_false, Bool.or_false,
    Bool.not_false, Bool.and_true]
  rfl

variable {start stop : Nat} (h : PairIntact r.cells) (hb : b.IsNarrow) (hrange : start ≤ stop)

include h hb hrange

/-- A range that does not begin on a second half takes the second half behind it along. -/
theorem PairIntact.getElem?_erase (hseam : continuesAt r.cells start = false) (i : Nat) :
    (r.erase b start stop false).cells[i]? = r.cells[i]?.map fun c =>
      if takes r.cells (fun j => decide (start ≤ j ∧ j < stop)) i then b else c := by
  obtain ⟨hfirst, hpairs⟩ := pairIntact_iff.mp h
  rw [Row.getElem?_erase hb hrange]
  refine Option.map_congr fun c hc => ?_
  rw [blanks_plain hc, takes, hpairs i]
  congr 2
  -- of the first halves only one in front of `start` is not covered itself
  grind

/-- A range that begins on a second half leaves the first half in front of it alone. -/
theorem PairIntact.getElem?_erase_severed (hseam : continuesAt r.cells start = true) (i : Nat) :
    (r.erase b start stop false).cells[i]? = r.cells[i]?.map fun c =>
      if i = start ∨
          takes r.cells (fun j => decide (start ≤ j ∧ j < stop)) i = true ∧ i + 1 ≠ start
      then b else c := by
  obtain ⟨hfirst, hpairs⟩ := pairIntact_iff.mp h
  rw [Row.getElem?_erase hb hrange]
  refine Option.map_congr fun c hc => ?_
  rw [blanks_plain hc, takes, hpairs i]
  grind

/-- The halves go together afterwards just when the range does not begin on a second half. -/
theorem PairIntact.erase_iff :
    PairIntact (r.erase b start stop false).cells ↔ continuesAt r.cells start = false := by
  obtain ⟨hfirst, hpairs⟩ := pairIntact_iff.mp h
  constructor
  · intro hwhole
    by_contra hseam
    rw [Bool.not_eq_false] at hseam
    have hcells := h.getElem?_erase_severed hb hrange hseam
    obtain ⟨hpos, hwide⟩ := (h start).2 hseam
    -- the first half in front of the range is there, and the second is blank
    have hleft := (hwhole (start - 1)).1
    rw [Nat.sub_add_cancel hpos] at hleft
    have hsecond : continuesAt (r.erase b start stop false).cells start = false := by
      refine (holdsAt_blanked hb.isContinuation hcells start).trans ?_
      rw [decide_eq_true (.inl rfl)]
      rfl
    refine absurd (hleft ?_) (Bool.eq_false_iff.mp hsecond)
    refine (holdsAt_blanked hb.isWide hcells (start - 1)).trans ?_
    rw [decide_eq_false (by omega)]
    exact hwide
  · intro hseam
    have hcells := h.getElem?_erase hb hrange hseam
    rw [pairIntact_iff]
    refine ⟨?_, fun i => ?_⟩
    · refine (holdsAt_blanked hb.isContinuation hcells 0).trans ?_
      rw [show holdsAt Cell.isContinuation r.cells 0 = false from hfirst, Bool.and_false]
    · refine (holdsAt_blanked hb.isWide hcells i).trans
        (Eq.trans ?_ (holdsAt_blanked hb.isContinuation hcells (i + 1)).symm)
      rw [show holdsAt Cell.isContinuation r.cells (i + 1) = isWideAt r.cells i from
        (hpairs i).symm]
      cases hwide : isWideAt r.cells i with
      | false => rw [Bool.and_false]; exact (congrArg _ hwide).trans (Bool.and_false _)
      | true => rw [h.takes_halves _ hwide]; exact congrArg _ hwide

end Row

/-! ## The terminal -/

/-- The part of a line or of the display that is erased, seen from the cursor. -/
inductive Extent where
  /-- From the cursor on. -/
  | after
  /-- Up to the cursor. -/
  | before
  | all
deriving DecidableEq, Repr

/-- The number that stands for an extent in a control sequence. -/
def Extent.number : Extent → Nat
  | .after => 0
  | .before => 1
  | .all => 2

/-- What can be erased.  Selective erasing spares protected cells. -/
inductive Erasure where
  | display (extent : Extent) (selective : Bool)
  | line (extent : Extent) (selective : Bool)
  /-- So many characters from the cursor on. -/
  | chars (n : Nat)
deriving DecidableEq, Repr

namespace Erasure

/-- The control function that erases it. -/
def function : Erasure → ControlFunction
  | .display extent selective => .eraseInDisplay extent.number selective
  | .line extent selective => .eraseInLine extent.number selective
  | .chars n => .eraseChars n

/-- Whether protected cells are spared. -/
def selective : Erasure → Bool
  | .display _ selective => selective
  | .line _ selective => selective
  | .chars _ => false

/-- The places that are to be erased when the cursor is at `c`. -/
def covers (x : Erasure) (c : Cursor) (row col : Nat) : Bool :=
  match x with
  | .display .after _ => c.row < row || row == c.row && c.col ≤ col
  | .display .before _ => row < c.row || row == c.row && col ≤ c.col
  | .display .all _ => true
  | .line .after _ => row == c.row && c.col ≤ col
  | .line .before _ => row == c.row && col ≤ c.col
  | .line .all _ => row == c.row
  | .chars n => row == c.row && (c.col ≤ col && col < c.col + n)

/-- Whether the places in the row of the cursor begin at the cursor. -/
def startsAtCursor : Erasure → Bool
  | .display .after _ | .line .after _ | .chars _ => true
  | _ => false

/-- Whether the places in the row of the cursor end at the cursor. -/
def endsAtCursor : Erasure → Bool
  | .display .before _ | .line .before _ => true
  | _ => false

end Erasure

/-- Changes each row of the grid by itself. -/
def Screen.mapRows (f : Nat → Row → Row) (s : Screen) : Screen :=
  { s with grid := s.grid.mapIdx f }

theorem Screen.mapRows_mapRows (f g : Nat → Row → Row) (s : Screen) :
    (s.mapRows f).mapRows g = s.mapRows fun row r => g row (f row r) := by
  rw [mapRows, mapRows, Array.mapIdx_mapIdx]
  rfl

namespace Terminal

/-- The terminal after an erasure. -/
def erase (t : Terminal) (x : Erasure) : Terminal := (t.applyFunction x.function).1

/-- The columns that an erasure goes over in a row, if there are any. -/
def span? (t : Terminal) (row : Nat) : Erasure → Option (Nat × Nat)
  | .display .after _ =>
      if row = t.cursor.row then some (t.cursor.col, t.cols)
      else if t.cursor.row < row ∧ row < t.rows then some (0, t.cols) else none
  | .display .before _ =>
      if row = t.cursor.row then some (0, t.cursor.col + 1)
      else if row < t.cursor.row then some (0, t.cols) else none
  | .display .all _ => if row < t.rows then some (0, t.cols) else none
  | .line .after _ => if row = t.cursor.row then some (t.cursor.col, t.cols) else none
  | .line .before _ => if row = t.cursor.row then some (0, t.cursor.col + 1) else none
  | .line .all _ => if row = t.cursor.row then some (0, t.cols) else none
  | .chars n =>
      if row = t.cursor.row then some (t.cursor.col, min (t.cursor.col + n) t.cols) else none

/-- What an erasure makes of a row. -/
def erasedRow (t : Terminal) (x : Erasure) (row : Nat) (r : Row) : Row :=
  match t.span? row x with
  | some (start, stop) => r.erase t.blank start stop x.selective
  | none => r

variable {t : Terminal}

theorem onScreen_clearPending (t : Terminal) (f : Screen → Screen) :
    t.clearPending.onScreen f = (t.onScreen f).clearPending := by
  rw [onScreen, onScreen]
  split <;> rename_i hshown
  · rw [if_pos (show t.modes.alternateScreen = true from hshown)]
    rfl
  · rw [if_neg (show ¬ t.modes.alternateScreen = true from hshown)]
    rfl

theorem blank_onScreen (t : Terminal) (f : Screen → Screen) : (t.onScreen f).blank = t.blank := by
  rw [onScreen]
  split <;> rfl

/-- Columns of the row of the cursor are erased in that row of the grid. -/
theorem eraseColumns_eq (t : Terminal) (start stop : Nat) (selective : Bool) :
    t.eraseColumns start stop selective = t.onScreen (Screen.mapRows fun row r =>
      if row = t.cursor.row then r.erase t.blank start stop selective else r) := by
  dsimp only [eraseColumns, onCursorRow]
  refine onScreen_congr ?_
  dsimp only [Screen.modifyRow, Screen.mapRows]
  congr 1
  refine Array.ext_getElem? fun i => ?_
  rw [Array.getElem?_modify, Array.getElem?_mapIdx]
  by_cases hi : t.cursor.row = i
  · rw [if_pos hi]
    simp [hi]
  · rw [if_neg hi]
    simp [Ne.symm hi]

theorem eraseRows_eq (t : Terminal) (first stop : Nat) (selective : Bool) :
    t.eraseRows first stop selective = t.onScreen (Screen.mapRows fun row r =>
      if first ≤ row ∧ row < stop then r.erase t.blank 0 t.cols selective else r) := by
  dsimp only [eraseRows]
  refine onScreen_congr ?_
  dsimp only [Screen.mapRows]
  congr 1
  refine Array.ext_getElem? fun i => ?_
  rw [getElem?_modifyRange, Array.getElem?_mapIdx]
  by_cases hi : first ≤ i ∧ i < stop
  · rw [if_pos (by omega)]
    simp [hi]
  · rw [if_neg (by omega)]
    simp [hi]

/-- An erasure changes each row of the shown grid by itself, and drops the wrap that is due. -/
theorem erase_eq (t : Terminal) (x : Erasure) :
    t.erase x = (t.onScreen (Screen.mapRows (t.erasedRow x))).clearPending := by
  have hrows : ∀ {f : Nat → Row → Row}, (∀ row r, f row r = t.erasedRow x row r) →
      (t.onScreen (Screen.mapRows f)).clearPending
        = (t.onScreen (Screen.mapRows (t.erasedRow x))).clearPending :=
    fun {f} hf => by rw [show f = t.erasedRow x from funext fun row => funext (hf row)]
  have hcolumns : ∀ start stop, (∀ row, t.span? row x
      = if row = t.cursor.row then some (start, stop) else none) →
      (t.eraseColumns start stop x.selective).clearPending
        = (t.onScreen (Screen.mapRows (t.erasedRow x))).clearPending := by
    intro start stop hspan
    rw [eraseColumns_eq]
    refine hrows fun row r => ?_
    rw [erasedRow, hspan]
    split <;> rfl
  cases x with
  | display extent selective =>
      cases extent with
      | after =>
          show ((t.eraseColumns t.cursor.col t.cols selective).clearPending.eraseRows
            (t.cursor.row + 1) t.rows selective).clearPending = _
          rw [eraseColumns_eq, ← onScreen_clearPending, eraseRows_eq, onScreen_onScreen,
            onScreen_clearPending]
          simp only [Screen.mapRows_mapRows, blank_onScreen, onScreen_cols]
          refine hrows fun row r => ?_
          rw [erasedRow, span?]
          -- the rest of the row of the cursor first, then the rows below it
          by_cases hrow : row = t.cursor.row
          · rw [if_pos hrow, if_pos hrow, if_neg (by omega)]
            rfl
          · rw [if_neg hrow, if_neg hrow]
            by_cases hbelow : t.cursor.row < row ∧ row < t.rows
            · rw [if_pos hbelow, if_pos (by omega)]
              rfl
            · rw [if_neg hbelow, if_neg (by omega)]
      | before =>
          show ((t.eraseRows 0 t.cursor.row selective).eraseColumns 0
            ((t.eraseRows 0 t.cursor.row selective).cursor.col + 1) selective).clearPending = _
          rw [eraseRows_eq, eraseColumns_eq, onScreen_onScreen]
          simp only [Screen.mapRows_mapRows, blank_onScreen, onScreen_cursor]
          refine hrows fun row r => ?_
          rw [erasedRow, span?]
          by_cases hrow : row = t.cursor.row
          · rw [if_pos hrow, if_pos hrow, if_neg (by omega)]
            rfl
          · rw [if_neg hrow, if_neg hrow]
            by_cases habove : row < t.cursor.row
            · rw [if_pos habove, if_pos ⟨Nat.zero_le _, habove⟩]
              rfl
            · rw [if_neg habove, if_neg (by omega)]
      | all =>
          show (t.eraseRows 0 t.rows selective).clearPending = _
          rw [eraseRows_eq]
          refine hrows fun row r => ?_
          rw [erasedRow, span?]
          by_cases hrow : row < t.rows
          · rw [if_pos hrow, if_pos ⟨Nat.zero_le _, hrow⟩]
            rfl
          · rw [if_neg hrow, if_neg (by omega)]
  | line extent selective =>
      cases extent with
      | after => exact hcolumns t.cursor.col t.cols fun row => rfl
      | before => exact hcolumns 0 (t.cursor.col + 1) fun row => rfl
      | all => exact hcolumns 0 t.cols fun row => rfl
  | chars n => exact hcolumns t.cursor.col (min (t.cursor.col + n) t.cols) fun row => rfl

theorem cell?_erase (t : Terminal) (x : Erasure) (row col : Nat) :
    (t.erase x).screen.cell? row col
      = t.screen.grid[row]?.bind fun r => (t.erasedRow x row r).cells[col]? := by
  have hscreen : (t.erase x).screen = t.screen.mapRows (t.erasedRow x) := by
    rw [erase_eq]
    exact screen_onScreen t _
  rw [hscreen, Screen.cell?, Screen.mapRows, Array.getElem?_mapIdx, Option.bind_map]
  rfl

/-- Beside the grid that is shown only the wrap that is due changes. -/
theorem erase_frame (t : Terminal) (x : Erasure) :
    (t.erase x).cursor.row = t.cursor.row ∧ (t.erase x).cursor.col = t.cursor.col ∧
    (t.erase x).modes = t.modes ∧
    (t.erase x).primary.history = t.primary.history ∧
    (t.erase x).alternate.history = t.alternate.history ∧
    (t.modes.alternateScreen = true → (t.erase x).primary = t.primary) ∧
    (t.modes.alternateScreen = false → (t.erase x).alternate = t.alternate) := by
  rw [erase_eq, onScreen]
  split <;> rename_i hshown
  · exact ⟨rfl, rfl, rfl, rfl, rfl, fun _ => rfl, fun h =>
      absurd (h.symm.trans hshown) Bool.false_ne_true⟩
  · exact ⟨rfl, rfl, rfl, rfl, rfl, fun h => absurd h hshown, fun _ => rfl⟩

/-- The places that are to be erased are those in the range that is gone over. -/
theorem covers_eq (x : Erasure) {row col : Nat} (hrow : row < t.rows) (hcol : col < t.cols) :
    x.covers t.cursor row col = match t.span? row x with
      | some (start, stop) => decide (start ≤ col ∧ col < stop)
      | none => false := by
  cases x with
  | display extent selective => cases extent <;> grind [span?, Erasure.covers]
  | line extent selective => cases extent <;> grind [span?, Erasure.covers]
  | chars n => grind [span?, Erasure.covers]

/-- Only in the row of the cursor a range may begin elsewhere than in the first column. -/
theorem span?_start {x : Erasure} {row start stop : Nat} (hcol : t.cursor.col < t.cols)
    (h : t.span? row x = some (start, stop)) :
    start ≤ stop ∧
      start = if row = t.cursor.row ∧ x.startsAtCursor = true then t.cursor.col else 0 := by
  cases x with
  | display extent selective => cases extent <;> grind [span?, Erasure.startsAtCursor]
  | line extent selective => cases extent <;> grind [span?, Erasure.startsAtCursor]
  | chars n => grind [span?, Erasure.startsAtCursor]

/-- Something of the row of the cursor is gone over. -/
theorem span?_cursor_ne_none (x : Erasure) {row : Nat} (hrow : row < t.rows)
    (hhere : row = t.cursor.row) : t.span? row x ≠ none := by
  cases x with
  | display extent selective => cases extent <;> simp [span?, hhere ▸ hrow, hhere]
  | line extent selective => cases extent <;> simp [span?, hhere]
  | chars n => simp [span?, hhere]

/-! ## Erasing everything -/

/-- Whether the cursor stands on the second half of a wide character. -/
def onSecondHalf (t : Terminal) : Bool :=
  (t.screen.cell? t.cursor.row t.cursor.col).any Cell.isContinuation

/-- Whether an erasure begins between the halves of a wide character. -/
def severs (t : Terminal) (x : Erasure) : Bool := x.startsAtCursor && t.onSecondHalf

theorem WholeRows.screen (h : t.WholeRows) : t.screen.Whole t.cols := by
  rw [Terminal.screen]
  split
  · exact h.alternate
  · exact h.primary

section plain

variable {x : Erasure} {row : Nat} {r : Row}

theorem onSecondHalf_eq (hr : t.screen.grid[t.cursor.row]? = some r) :
    t.onSecondHalf = Row.continuesAt r.cells t.cursor.col := by
  rw [onSecondHalf, Screen.cell?, hr, Option.bind_some, Row.continuesAt]
  cases r.cells[t.cursor.col]? <;> rfl

variable (hx : x.selective = false) (hcol : t.cursor.col < t.cols)
  (hr : t.screen.grid[row]? = some r) (hwhole : r.Whole t.cols)

include hcol hr hwhole

/-- Where a range begins on a second half, it is that under the cursor. -/
theorem continuesAt_start {start stop : Nat} (hspan : t.span? row x = some (start, stop)) :
    Row.continuesAt r.cells start = (decide (row = t.cursor.row) && t.severs x) := by
  have hfirst := (Row.pairIntact_iff.mp hwhole.pairs).1
  rw [(span?_start hcol hspan).2, severs]
  by_cases hhere : row = t.cursor.row
  · rw [onSecondHalf_eq (hhere ▸ hr), decide_eq_true hhere, Bool.true_and]
    cases hstarts : x.startsAtCursor with
    | true => rw [if_pos ⟨hhere, rfl⟩, Bool.true_and]
    | false => rw [if_neg (fun h => absurd h.2 nofun), Bool.false_and, hfirst]
  · rw [if_neg (fun h => hhere h.1), decide_eq_false hhere, Bool.false_and, hfirst]

include hx

/-- What becomes of the cells of a row.  The first half in front of the cursor stays where the
    erasure begins on the second. -/
theorem getElem?_erasedRow (hrow : row < t.rows) (col : Nat) :
    (t.erasedRow x row r).cells[col]? = r.cells[col]?.map fun c =>
      if row = t.cursor.row ∧ t.severs x = true then
        if col = t.cursor.col ∨
            Row.takes r.cells (x.covers t.cursor row) col = true ∧ col + 1 ≠ t.cursor.col
        then t.blank else c
      else if Row.takes r.cells (x.covers t.cursor row) col = true then t.blank else c := by
  have hblank : t.blank.IsNarrow := Cell.isNarrow_blank _
  have hinside : ∀ {c}, r.cells[col]? = some c → col < r.cells.size :=
    fun hc => (Array.getElem?_eq_some_iff.mp hc).1
  cases hspan : t.span? row x with
  | none =>
      have helsewhere : ¬ (row = t.cursor.row ∧ t.severs x = true) :=
        fun h => span?_cursor_ne_none x hrow h.1 hspan
      simp only [erasedRow, hspan]
      cases hc : r.cells[col]? with
      | none => rfl
      | some c =>
          have htakes : Row.takes r.cells (x.covers t.cursor row) col
              = Row.takes r.cells (fun _ => false) col := by
            refine hwhole.pairs.takes_congr (fun j hj => ?_) (hinside hc)
            rw [covers_eq x hrow (hwhole.size ▸ hj), hspan]
          rw [Option.map_some, if_neg helsewhere, htakes]
          simp [Row.takes]
  | some range =>
      obtain ⟨start, stop⟩ := range
      obtain ⟨hrange, hstart⟩ := span?_start hcol hspan
      have htakes : col < r.cells.size → Row.takes r.cells (x.covers t.cursor row) col
          = Row.takes r.cells (fun j => decide (start ≤ j ∧ j < stop)) col := by
        refine hwhole.pairs.takes_congr fun j hj => ?_
        rw [covers_eq x hrow (hwhole.size ▸ hj), hspan]
      have hseam := continuesAt_start hcol hr hwhole hspan
      simp only [erasedRow, hspan, hx]
      by_cases hsevers : row = t.cursor.row ∧ t.severs x = true
      · rw [decide_eq_true hsevers.1, hsevers.2] at hseam
        rw [hwhole.pairs.getElem?_erase_severed hblank hrange hseam]
        have hcursor : start = t.cursor.col := by
          rw [hstart, if_pos ⟨hsevers.1, (Bool.and_eq_true_iff.mp hsevers.2).1⟩]
        refine Option.map_congr fun c hc => ?_
        rw [if_pos hsevers, htakes (hinside hc), hcursor]
      · have hwholeSeam : Row.continuesAt r.cells start = false := by
          rw [hseam]
          simpa using hsevers
        rw [hwhole.pairs.getElem?_erase hblank hrange hwholeSeam]
        refine Option.map_congr fun c hc => ?_
        rw [if_neg hsevers, htakes (hinside hc)]

theorem pairs_erasedRow_iff (hrow : row < t.rows) :
    Row.PairIntact (t.erasedRow x row r).cells ↔ ¬ (row = t.cursor.row ∧ t.severs x = true) := by
  cases hspan : t.span? row x with
  | none =>
      simp only [erasedRow, hspan]
      exact iff_of_true hwhole.pairs fun h => span?_cursor_ne_none x hrow h.1 hspan
  | some range =>
      obtain ⟨start, stop⟩ := range
      simp only [erasedRow, hspan, hx]
      rw [hwhole.pairs.erase_iff (b := t.blank) (Cell.isNarrow_blank _)
        (span?_start hcol hspan).1, continuesAt_start hcol hr hwhole hspan]
      simp

end plain

/-- The rows after an erasure have a property that all rows had before, if the rows of the shown
    grid have it. -/
theorem forall_allRows_erase {Q : Row → Prop} (hQ : ∀ r ∈ t.allRows, Q r) (x : Erasure) :
    (∀ r ∈ (t.erase x).allRows, Q r) ↔
      ∀ row r, t.screen.grid[row]? = some r → Q (t.erasedRow x row r) := by
  obtain ⟨⟨hgrid, hhistory⟩, hgrid', hhistory'⟩ := forall_mem_allRows.mp hQ
  have hmap : ∀ s : Screen, (∀ r ∈ (s.mapRows (t.erasedRow x)).grid, Q r) ↔
      ∀ row r, s.grid[row]? = some r → Q (t.erasedRow x row r) := by
    intro s
    rw [Screen.mapRows]
    constructor
    · intro h row r hr
      refine h _ (Array.mem_of_getElem? (i := row) ?_)
      rw [Array.getElem?_mapIdx, hr]
      rfl
    · intro h r hr
      obtain ⟨row, hrow, rfl⟩ := Array.mem_mapIdx.mp hr
      exact h row _ (Array.getElem?_eq_getElem hrow)
  rw [forall_mem_allRows, erase_eq, onScreen, screen]
  split <;> rename_i hshown
  · rw [← hmap t.alternate]
    exact ⟨fun h => h.2.1, fun h => ⟨⟨hgrid, hhistory⟩, h, hhistory'⟩⟩
  · rw [← hmap t.primary]
    exact ⟨fun h => h.1.1, fun h => ⟨⟨h, hhistory⟩, hgrid', hhistory'⟩⟩

/-- The halves of wide characters go together afterwards just when none is severed. -/
theorem pairs_erase_iff {x : Erasure} (hx : x.selective = false) (h : t.Whole)
    (hpairs : ∀ r ∈ t.allRows, Row.PairIntact r.cells) (hrows : t.screen.grid.size = t.rows) :
    (∀ r ∈ (t.erase x).allRows, Row.PairIntact r.cells) ↔ t.severs x = false := by
  have hrow : ∀ {row r}, t.screen.grid[row]? = some r →
      (Row.PairIntact (t.erasedRow x row r).cells ↔
        ¬ (row = t.cursor.row ∧ t.severs x = true)) := fun hr =>
    pairs_erasedRow_iff hx h.cursor hr (h.screen.grid _ (Array.mem_of_getElem? hr))
      (hrows ▸ (Array.getElem?_eq_some_iff.mp hr).1)
  rw [forall_allRows_erase (Q := fun r => Row.PairIntact r.cells) hpairs]
  constructor
  · intro hall
    by_contra hsevers
    rw [Bool.not_eq_false] at hsevers
    -- what is severed stands in the row of the cursor
    have hhalf : t.onSecondHalf = true := (Bool.and_eq_true_iff.mp hsevers).2
    cases hr : t.screen.grid[t.cursor.row]? with
    | none =>
        rw [onSecondHalf, Screen.cell?, hr] at hhalf
        exact nomatch hhalf
    | some r => exact (hrow hr).mp (hall _ r hr) ⟨rfl, hsevers⟩
  · intro hsevers row r hr
    exact (hrow hr).mpr fun hhere => absurd (hsevers.symm.trans hhere.2) nofun

/-! ## Erasing selectively -/

/-- Whether a selective erasure makes a place blank that it does not cover: the one in front of the
    cursor, if it begins there on a protected second half, or the one behind the cursor, if that is
    a second half and it ends there. -/
def tears (t : Terminal) (x : Erasure) (row col : Nat) : Bool :=
  row == t.cursor.row &&
    (x.startsAtCursor && (col + 1 == t.cursor.col &&
        (t.screen.cell? row t.cursor.col).any fun c => c.isProtected && c.isContinuation) ||
      x.endsAtCursor && (col == t.cursor.col + 1 &&
        (t.screen.cell? row col).any Cell.isContinuation))

theorem any_cell? {row : Nat} {r : Row} (hr : t.screen.grid[row]? = some r) (p : Cell → Bool)
    (col : Nat) : (t.screen.cell? row col).any p = Row.holdsAt p r.cells col := by
  rw [Screen.cell?, hr, Option.bind_some, Row.holdsAt]
  cases r.cells[col]? <;> rfl

/-- What becomes of the cells of a row, whatever their widths are. -/
theorem getElem?_erasedRow_selective {x : Erasure} (hx : x.selective = true) {row : Nat} {r : Row}
    (hr : t.screen.grid[row]? = some r) (hcol : t.cursor.col < t.cols) (hrow : row < t.rows)
    (hsize : r.cells.size = t.cols) (col : Nat) :
    (t.erasedRow x row r).cells[col]? = r.cells[col]?.map fun c =>
      if (x.covers t.cursor row col && !c.isProtected || t.tears x row col) = true then t.blank
      else c := by
  cases hspan : t.span? row x with
  | none =>
      have helsewhere : row ≠ t.cursor.row := fun h => span?_cursor_ne_none x hrow h hspan
      simp only [erasedRow, hspan]
      cases hc : r.cells[col]? with
      | none => rfl
      | some c =>
          have hinside : col < t.cols := hsize ▸ (Array.getElem?_eq_some_iff.mp hc).1
          rw [Option.map_some, covers_eq x hrow hinside, hspan, tears,
            beq_eq_false_iff_ne.mpr helsewhere]
          rfl
  | some range =>
      obtain ⟨start, stop⟩ := range
      obtain ⟨hrange, -⟩ := span?_start hcol hspan
      simp only [erasedRow, hspan, hx]
      rw [Row.getElem?_erase (b := t.blank) (Cell.isNarrow_blank _) hrange]
      refine Option.map_congr fun c hc => ?_
      have hinside : col < t.cols := hsize ▸ (Array.getElem?_eq_some_iff.mp hc).1
      have hthis : c.isContinuation = Row.holdsAt Cell.isContinuation r.cells col := by
        rw [Row.holdsAt, hc]
        rfl
      rw [covers_eq x hrow hinside, hspan, Row.blanks, tears]
      simp only [any_cell? hr, hthis]
      cases x with
      | display extent selective =>
          cases extent <;> grind [span?, Erasure.startsAtCursor, Erasure.endsAtCursor]
      | line extent selective =>
          cases extent <;> grind [span?, Erasure.startsAtCursor, Erasure.endsAtCursor]
      | chars n => exact absurd hx Bool.false_ne_true

end Terminal

namespace Emulator

/-- **Erasing is exact, unless it begins between the halves of a wide character.**  On an emulator
    that can be reached and has no severed character, an erasure that spares nothing makes blank
    what it covers and the other halves of wide characters of which it covers one; the pen gives the
    background, and no other cell changes.  An erasure that begins on a second half leaves the first
    half in front of it as it is, and this alone keeps the halves from going together afterwards.
    Histories, the screen that is not shown and the place of the cursor stay. -/
theorem erase_exact {e : Emulator} (he : e.Reachable)
    (hpairs : ∀ r ∈ e.terminal.allRows, Row.PairIntact r.cells) {x : Erasure}
    (hx : x.selective = false) :
    let t := e.terminal
    let u := t.erase x
    let blank : Cell := { rendition := { background := t.pen.background } }
    (∀ row r, t.screen.grid[row]? = some r → ∀ col,
      u.screen.cell? row col = r.cells[col]?.map fun c =>
        if row = t.cursor.row ∧ t.severs x = true then
          if col = t.cursor.col ∨
              Row.takes r.cells (x.covers t.cursor row) col = true ∧ col + 1 ≠ t.cursor.col
          then blank else c
        else if Row.takes r.cells (x.covers t.cursor row) col = true then blank else c) ∧
    ((∀ r ∈ u.allRows, Row.PairIntact r.cells) ↔ t.severs x = false) ∧
    u.cursor.row = t.cursor.row ∧ u.cursor.col = t.cursor.col ∧ u.modes = t.modes ∧
    u.primary.history = t.primary.history ∧ u.alternate.history = t.alternate.history ∧
    (t.modes.alternateScreen = true → u.primary = t.primary) ∧
    (t.modes.alternateScreen = false → u.alternate = t.alternate) := by
  intro t u blank
  obtain ⟨limit, hwell⟩ := he.wellFormed
  have hwhole : t.Whole := hwell.geometry.whole hpairs
  have hgrid : t.screen.grid.size = t.rows := hwell.size_grid
  refine ⟨?_, Terminal.pairs_erase_iff hx hwhole hpairs hgrid, t.erase_frame x⟩
  intro row r hr col
  have hrow : row < t.rows := hgrid ▸ (Array.getElem?_eq_some_iff.mp hr).1
  rw [Terminal.cell?_erase, hr, Option.bind_some]
  exact Terminal.getElem?_erasedRow hx hwhole.cursor hr
    (hwhole.screen.grid r (Array.mem_of_getElem? hr)) hrow col

/-- A shown character of two columns is severed neither by what ends between its halves nor by what
    begins in front of it. -/
theorem erase_exact_trailing :
    let calls : List Call := [.write (Utf8.ofString "日本\x1b[44m\x1b[1;3H")]
    let e := run { terminal := .new 4 2 0 .cancelBold } calls
    let x := Erasure.line .before false
    (e.Reachable ∧ (∀ r ∈ e.terminal.allRows, Row.PairIntact r.cells) ∧ x.selective = false) ∧
      (e.terminal.screen.grid[0]?.any fun r => Row.isWideAt r.cells 2) = true ∧
      (e.terminal.erase x).screen.cell? 0 3
        = some { rendition := { background := some (.named 4) } } ∧
      ∀ r ∈ (e.terminal.erase x).allRows, Row.PairIntact r.cells := by
  intro calls e x
  have he : e.Reachable := ⟨⟨4, 2⟩, 0, .cancelBold, _, calls, rfl, rfl⟩
  have hpairs : ∀ r ∈ e.terminal.allRows, Row.PairIntact r.cells := by decide +kernel
  obtain ⟨-, hwhole, -⟩ := erase_exact he hpairs (x := x) rfl
  refine ⟨⟨he, hpairs, rfl⟩, by decide +kernel, by decide +kernel, hwhole.mpr ?_⟩
  decide +kernel

/-- The first half of a character stays when the line is erased from its second half on. -/
theorem erase_exact_severed :
    let calls : List Call := [.write (Utf8.ofString "日\x08")]
    let e := run { terminal := .new 4 2 0 .cancelBold } calls
    let x := Erasure.line .after false
    e.Reachable ∧ (∀ r ∈ e.terminal.allRows, Row.PairIntact r.cells) ∧
      (e.write (Utf8.ofString "\x1b[K")).terminal = e.terminal.erase x ∧
      ∃ r, e.terminal.screen.grid[0]? = some r ∧
        Row.takes r.cells (x.covers e.terminal.cursor 0) 0 = true ∧
        (e.terminal.erase x).screen.cell? 0 0 ≠ some (Cell.blank e.terminal.pen) ∧
        ¬ ∀ r ∈ (e.terminal.erase x).allRows, Row.PairIntact r.cells := by
  intro calls e x
  have he : e.Reachable := ⟨⟨4, 2⟩, 0, .cancelBold, _, calls, rfl, rfl⟩
  refine ⟨he, by decide +kernel, by decide +kernel,
    e.terminal.screen.grid[0]?.getD ⟨#[], false⟩, ?_⟩
  decide +kernel

/-- **Selective erasing spares protected cells, unless it tears a wide character.**  On an emulator
    that can be reached a selective erasure makes blank what it covers and is not protected, and the
    half that it tears off from a wide character.  A protected cell stays just when it is not such a
    half. -/
theorem erase_spares {e : Emulator} (he : e.Reachable) {x : Erasure} (hx : x.selective = true)
    (row col : Nat) :
    let t := e.terminal
    (t.erase x).screen.cell? row col = (t.screen.cell? row col).map (fun c =>
      if (x.covers t.cursor row col && !c.isProtected || t.tears x row col) = true then t.blank
      else c) ∧
    ∀ c, t.screen.cell? row col = some c → c.isProtected = true →
      ((t.erase x).screen.cell? row col = some c ↔ t.tears x row col = false) := by
  intro t
  obtain ⟨limit, hwell⟩ := he.wellFormed
  have hcell : (t.erase x).screen.cell? row col = (t.screen.cell? row col).map (fun c =>
      if (x.covers t.cursor row col && !c.isProtected || t.tears x row col) = true then t.blank
      else c) := by
    rw [Terminal.cell?_erase, Screen.cell?]
    cases hr : t.screen.grid[row]? with
    | none => rfl
    | some r =>
        have hrow : row < t.rows := hwell.size_grid ▸ (Array.getElem?_eq_some_iff.mp hr).1
        exact Terminal.getElem?_erasedRow_selective hx hr hwell.cursor.2 hrow
          (hwell.size_row (Array.mem_of_getElem? hr)) col
  refine ⟨hcell, fun c hc hprotected => ?_⟩
  rw [hcell, hc, Option.map_some, hprotected, Bool.not_true, Bool.and_false, Bool.false_or]
  cases htears : t.tears x row col with
  | false => exact iff_of_true rfl rfl
  | true =>
      -- a blank cell is not protected
      refine iff_of_false (fun h => ?_) nofun
      have hblank : t.blank = c := Option.some.inj h
      rw [← hblank] at hprotected
      exact nomatch hprotected

/-- Of the two cells from the cursor on only the one that is not protected goes. -/
theorem erase_spares_narrow :
    let calls : List Call := [.write (Utf8.ofString "\x1b[1\"qa\x1b[0\"qb\r")]
    let e := run { terminal := .new 4 2 0 .cancelBold } calls
    let x := Erasure.line .after true
    (e.Reachable ∧ x.selective = true) ∧
      (e.write (Utf8.ofString "\x1b[?K")).terminal = e.terminal.erase x ∧
      (e.terminal.erase x).screen.cell? 0 0 = e.terminal.screen.cell? 0 0 ∧
      (e.terminal.erase x).screen.cell? 0 1 = some (Cell.blank e.terminal.pen) := by
  intro calls e x
  have he : e.Reachable := ⟨⟨4, 2⟩, 0, .cancelBold, _, calls, rfl, rfl⟩
  refine ⟨⟨he, rfl⟩, by decide +kernel, ?_, ?_⟩
  · rw [(erase_spares (x := x) he rfl 0 0).1]
    decide +kernel
  · rw [(erase_spares (x := x) he rfl 0 1).1]
    decide +kernel

/-- A protected first half goes when the line is erased from its second half on, and a protected
    second half goes when the line is erased up to its first half. -/
theorem erase_spares_torn :
    let wide : List Call := [.write (Utf8.ofString "\x1b[1\"q日\x08")]
    let e := run { terminal := .new 4 2 0 .cancelBold } wide
    let first := e.write (Utf8.ofString "\x08")
    e.Reachable ∧
      (e.write (Utf8.ofString "\x1b[?K")).terminal
        = e.terminal.erase (.line .after true) ∧
      (e.terminal.screen.cell? 0 0).any Cell.isProtected = true ∧
      (e.terminal.erase (.line .after true)).screen.cell? 0 0 = some (Cell.blank e.terminal.pen) ∧
      (first.terminal.screen.cell? 0 1).any Cell.isProtected = true ∧
      (first.terminal.erase (.line .before true)).screen.cell? 0 1
        = some (Cell.blank first.terminal.pen) := by
  intro wide e first
  exact ⟨⟨⟨4, 2⟩, 0, .cancelBold, _, wide, rfl, rfl⟩, by decide +kernel, by decide +kernel,
    by decide +kernel, by decide +kernel, by decide +kernel⟩

end Emulator

end VideoTerminal
