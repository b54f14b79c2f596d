import Mathlib.Algebra.GroupWithZero.Nat
import VideoTerminal.Row
import VideoTerminal.Text.Width

/-!
# Wrapping lines

What lines look like on rows of a given width when a row is begun just where the next character
does not fit in the one before.  This says nothing about a terminal yet: a line becomes segments,
one for each row, and a segment is drawn as a row.

Joining the segments where a line goes on gives the lines back.  From the drawn rows the lines come
back up to blanks: the cell that is left over in front of a wide character looks like a blank, and
so does what is left over behind the last character.
-/

namespace VideoTerminal

/-! ## Columns of text -/

namespace Width

/-- A character that takes one column or two. -/
def Shown (c : Char) : Prop := columns? c = some 1 ∨ columns? c = some 2

/-- The columns that a character takes. -/
def columns (c : Char) : Nat := (columns? c).getD 0

/-- The columns that a text takes. -/
def total (cs : List Char) : Nat := (cs.map columns).sum

theorem Shown.columns?_eq {c : Char} (h : Shown c) : columns? c = some (columns c) := by
  rw [columns]
  rcases h with h | h <;> rw [h, Option.getD_some]

theorem Shown.columns_eq {c : Char} (h : Shown c) : columns c = 1 ∨ columns c = 2 := by
  rw [columns]
  rcases h with h | h <;> rw [h]
  · exact Or.inl rfl
  · exact Or.inr rfl

/-- A character that takes columns is no control. -/
theorem Shown.not_control {c : Char} (h : Shown c) : isControl c.toNat = false := by
  cases hcontrol : isControl c.toNat with
  | false => rfl
  | true =>
      have hnone : columns? c = none := if_pos hcontrol
      rw [h.columns?_eq] at hnone
      exact absurd hnone nofun

@[simp] theorem total_nil : total [] = 0 := rfl

@[simp] theorem total_singleton (c : Char) : total [c] = columns c := Nat.add_zero _

theorem total_append (cs ds : List Char) : total (cs ++ ds) = total cs + total ds := by
  simp only [total]
  rw [List.map_append, List.sum_append]

end Width

/-! ## Segments -/

/-- The part of a line that one row takes, and whether the line goes on in the next row. -/
structure Segment where
  glyphs : List Char
  continues : Bool := false
deriving DecidableEq, Repr

namespace Segment

/-- A line of which some characters stand in an open row already.  They are followed by as many as
    there is room for; the first one for which there is none begins the next row. -/
def wrapFrom (cols : Nat) (row : List Char) : List Char → List Segment
  | [] => [⟨row, false⟩]
  | c :: cs =>
      if Width.total row + Width.columns c ≤ cols then wrapFrom cols (row ++ [c]) cs
      else ⟨row, true⟩ :: wrapFrom cols [c] cs

/-- A whole line.  An empty one takes a row too. -/
def wrap (cols : Nat) (line : List Char) : List Segment := wrapFrom cols [] line

theorem wrapFrom_nil (cols : Nat) (row : List Char) : wrapFrom cols row [] = [⟨row, false⟩] := rfl

theorem wrapFrom_of_fits {cols : Nat} {row : List Char} {c : Char}
    (h : Width.total row + Width.columns c ≤ cols) (cs : List Char) :
    wrapFrom cols row (c :: cs) = wrapFrom cols (row ++ [c]) cs := if_pos h

theorem wrapFrom_of_not_fits {cols : Nat} {row : List Char} {c : Char}
    (h : ¬Width.total row + Width.columns c ≤ cols) (cs : List Char) :
    wrapFrom cols row (c :: cs) = ⟨row, true⟩ :: wrapFrom cols [c] cs := if_neg h

end Segment

/-! ## Rows -/

/-- The cells that a character is drawn in: a wide one is followed by its continuation. -/
def Cell.drawing (c : Char) : List Cell :=
  if Width.columns c = 2 then [{ base := c, width := 2 }, { base := ' ', width := 0 }]
  else [{ base := c }]

/-- The row that shows a segment: its characters, and default cells behind them. -/
def Segment.draw (cols : Nat) (s : Segment) : Row where
  cells := (s.glyphs.flatMap Cell.drawing
    ++ List.replicate (cols - Width.total s.glyphs) ({} : Cell)).toArray
  wrapped := s.continues

theorem Cell.length_drawing {c : Char} (h : Width.Shown c) :
    (Cell.drawing c).length = Width.columns c := by
  rw [Cell.drawing]
  rcases h.columns_eq with h1 | h2
  · rw [h1]
    rfl
  · rw [h2]
    rfl

theorem Cell.length_drawings {cs : List Char} (h : ∀ c ∈ cs, Width.Shown c) :
    (cs.flatMap Cell.drawing).length = Width.total cs := by
  induction cs with
  | nil => rfl
  | cons c cs ih =>
      rw [List.flatMap_cons, List.length_append, Cell.length_drawing (h c List.mem_cons_self),
        ih fun d hd => h d (List.mem_cons_of_mem c hd)]
      rfl

/-- A row of nothing is empty. -/
theorem Segment.draw_nil (cols : Nat) : Segment.draw cols ⟨[], false⟩ = Row.empty cols := by
  rw [Segment.draw, Row.empty, Row.filled]
  rw [List.flatMap_nil, List.nil_append, Width.total_nil, Nat.sub_zero, List.toArray_replicate]

/-! ## Joining -/

/-- The lines that parts make up, each part being joined to the next if its line goes on there. -/
def joinWrapped {α : Type} (text : α → List Char) (goesOn : α → Bool) : List α → List (List Char)
  | [] => []
  | x :: xs =>
      if goesOn x then
        match joinWrapped text goesOn xs with
        | [] => [text x]
        | line :: lines => (text x ++ line) :: lines
      else text x :: joinWrapped text goesOn xs

theorem joinWrapped_wrapFrom (cols : Nat) (row line : List Char) (rest : List Segment) :
    joinWrapped Segment.glyphs Segment.continues (Segment.wrapFrom cols row line ++ rest)
      = (row ++ line) :: joinWrapped Segment.glyphs Segment.continues rest := by
  induction line generalizing row with
  | nil =>
      rw [Segment.wrapFrom_nil, List.append_nil]
      rfl
  | cons c cs ih =>
      by_cases hfits : Width.total row + Width.columns c ≤ cols
      · rw [Segment.wrapFrom_of_fits hfits, ih, List.append_assoc, List.singleton_append]
      · rw [Segment.wrapFrom_of_not_fits hfits, List.cons_append, joinWrapped, if_pos rfl, ih]
        rfl

/-- Nothing is lost or moved by wrapping. -/
theorem joinWrapped_wrap (cols : Nat) (lines : List (List Char)) :
    joinWrapped Segment.glyphs Segment.continues (lines.flatMap (Segment.wrap cols)) = lines := by
  induction lines with
  | nil => rfl
  | cons line lines ih =>
      rw [List.flatMap_cons, Segment.wrap, joinWrapped_wrapFrom, ih, List.nil_append]

/-- A text without its blanks. -/
def withoutBlanks (cs : List Char) : List Char := cs.filter (· ≠ ' ')

theorem withoutBlanks_append (cs ds : List Char) :
    withoutBlanks (cs ++ ds) = withoutBlanks cs ++ withoutBlanks ds := List.filter_append cs ds

/-- Whether parts are joined before or after something is taken out of them makes no difference. -/
theorem map_joinWrapped {α β : Type} {text : α → List Char} {goesOn : α → Bool}
    {text' : β → List Char} {goesOn' : β → Bool} {f : α → β} {xs : List α}
    (htext : ∀ x ∈ xs, withoutBlanks (text' (f x)) = withoutBlanks (text x))
    (hgoesOn : ∀ x, goesOn' (f x) = goesOn x) :
    (joinWrapped text' goesOn' (xs.map f)).map withoutBlanks
      = (joinWrapped text goesOn xs).map withoutBlanks := by
  induction xs with
  | nil => rfl
  | cons x xs ih =>
      have ih := ih fun y hy => htext y (List.mem_cons_of_mem x hy)
      have hx := htext x List.mem_cons_self
      rw [List.map_cons, joinWrapped, joinWrapped, hgoesOn]
      by_cases hx' : goesOn x = true
      · rw [if_pos hx', if_pos hx']
        -- both sides have a first line to join to, or neither has
        cases h' : joinWrapped text' goesOn' (xs.map f) with
        | nil =>
            rw [h'] at ih
            rw [List.map_eq_nil_iff.mp ih.symm]
            exact congrArg (· :: []) hx
        | cons line' lines' =>
            rw [h'] at ih
            cases h : joinWrapped text goesOn xs with
            | nil =>
                rw [h] at ih
                exact absurd ih (List.cons_ne_nil _ _)
            | cons line lines =>
                rw [h] at ih
                obtain ⟨hline, hlines⟩ := List.cons.inj ih
                show withoutBlanks (text' (f x) ++ line') :: _ = withoutBlanks (text x ++ line) :: _
                rw [withoutBlanks_append, withoutBlanks_append, hx, hline, hlines]
      · rw [if_neg hx', if_neg hx', List.map_cons, List.map_cons, hx, ih]

/-! ### From the rows -/

theorem withoutBlanks_putBefore (c : Char) (cs : List Char) :
    withoutBlanks (Row.putBefore c cs) = withoutBlanks (c :: cs) := by
  rw [Row.putBefore]
  split
  · next h =>
    obtain ⟨rfl, hempty⟩ := h
    rw [List.isEmpty_iff.mp hempty]
    rfl
  · rfl

theorem withoutBlanks_foldr_putBefore (marks rest : List Char) :
    withoutBlanks (marks.foldr Row.putBefore rest) = withoutBlanks (marks ++ rest) := by
  induction marks with
  | nil => rfl
  | cons m marks ih =>
      rw [List.foldr_cons, withoutBlanks_putBefore, ← List.singleton_append, withoutBlanks_append,
        ih, ← withoutBlanks_append]
      rfl

/-- The text of a row is that of its cells, up to blanks. -/
theorem withoutBlanks_text (r : Row) :
    withoutBlanks r.text.toList = withoutBlanks (r.cells.toList.flatMap Cell.text) := by
  rw [Row.text, String.toList_ofList, ← Array.foldr_toList]
  induction r.cells.toList with
  | nil => rfl
  | cons c cells ih =>
      rw [List.foldr_cons, List.flatMap_cons, Cell.text]
      split
      · -- the second cell of a wide character has no text
        exact ih
      · show withoutBlanks ((c.base :: c.marks).foldr Row.putBefore _) = _
        rw [withoutBlanks_foldr_putBefore, withoutBlanks_append, ih, ← withoutBlanks_append]

theorem text_drawing (c : Char) : (Cell.drawing c).flatMap Cell.text = [c] := by
  rw [Cell.drawing]
  split <;> rfl

/-- The text of a drawn segment is its text, up to blanks. -/
theorem withoutBlanks_text_draw (cols : Nat) (s : Segment) :
    withoutBlanks (s.draw cols).text.toList = withoutBlanks s.glyphs := by
  have hglyphs : (s.glyphs.flatMap Cell.drawing).flatMap Cell.text = s.glyphs := by
    rw [List.flatMap_assoc]
    simp only [text_drawing, List.flatMap_singleton']
  have hblanks : ∀ n, withoutBlanks ((List.replicate n ({} : Cell)).flatMap Cell.text) = [] := by
    intro n
    induction n with
    | zero => rfl
    | succ n ih =>
        rw [List.replicate_succ, List.flatMap_cons, withoutBlanks_append, ih]
        rfl
  rw [withoutBlanks_text, Segment.draw, List.flatMap_append, withoutBlanks_append, hglyphs, hblanks,
    List.append_nil]

/-- The drawn rows, joined where they are marked, show the lines up to blanks. -/
theorem joinWrapped_draw (cols : Nat) (lines : List (List Char)) :
    (joinWrapped (fun r => r.text.toList) Row.wrapped
        ((lines.flatMap (Segment.wrap cols)).map (Segment.draw cols))).map withoutBlanks
      = lines.map withoutBlanks := by
  have hjoined : (joinWrapped (fun r => r.text.toList) Row.wrapped
      ((lines.flatMap (Segment.wrap cols)).map (Segment.draw cols))).map withoutBlanks
        = (joinWrapped Segment.glyphs Segment.continues
            (lines.flatMap (Segment.wrap cols))).map withoutBlanks :=
    map_joinWrapped (fun s _ => withoutBlanks_text_draw cols s) fun _ => rfl
  rw [hjoined, joinWrapped_wrap]

end VideoTerminal
