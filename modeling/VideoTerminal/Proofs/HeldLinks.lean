import VideoTerminal.Proofs.LinkTables
import VideoTerminal.Proofs.RelinkedTerminal

/-!
# Links that are held

The numbers of links that stand somewhere on a terminal: under the open link, and in the cells of
both grids and of the history.  They are the ones that are kept when a full table is cleared.

What does the same whatever the numbers are cannot bring in a number of its own.  For numbers can
be changed so that those on the terminal stay and all others become zero; this leaves the terminal
as it was, and so it leaves the result as it was.
-/

namespace VideoTerminal

/-! ## Cells and numbers -/

/-- All cells: those of the grid and those of the history. -/
def Screen.cells (s : Screen) : List Cell :=
  (s.grid.toList ++ s.history.toList).flatMap fun r => r.cells.toList

namespace Terminal

/-- All cells: those of both grids and those of the history. -/
def cells (t : Terminal) : List Cell := t.primary.cells ++ t.alternate.cells

/-- The number of the open link and those in the cells, zero where there is no link. -/
def linkNumbers (t : Terminal) : List Nat := t.openLink :: t.cells.map Cell.link

/-- The links that are open or in a cell. -/
def heldLinks (t : Terminal) : Finset Nat := t.linkNumbers.toFinset.erase 0

/-! ## The numbers that a cleared table keeps -/

variable {n : Nat}

/-- The links of a row are those of its cells, added to what was collected. -/
theorem mem_addLinks (hn : n ≠ 0) (links : List Nat) (r : Row) :
    n ∈ addLinks links r ↔ n ∈ links ∨ ∃ c ∈ r.cells.toList, c.link = n := by
  rw [addLinks, ← Array.foldl_toList]
  induction r.cells.toList generalizing links with
  | nil => simp
  | cons c cells ih =>
      rw [List.foldl_cons, ih, List.exists_mem_cons_iff, ← or_assoc]
      refine or_congr ?_ Iff.rfl
      split
      · rename_i hlink
        rw [hlink]
        exact ⟨Or.inl, fun h => h.resolve_right hn.symm⟩
      · rw [List.mem_cons, eq_comm, or_comm]

/-- So it is for several rows. -/
theorem mem_foldl_addLinks (hn : n ≠ 0) (links : List Nat) (rows : List Row) :
    n ∈ rows.foldl addLinks links ↔
      n ∈ links ∨ ∃ c ∈ rows.flatMap (fun r => r.cells.toList), c.link = n := by
  induction rows generalizing links with
  | nil => simp
  | cons r rows ih =>
      rw [List.foldl_cons, ih, mem_addLinks hn, List.flatMap_cons, or_assoc]
      refine or_congr Iff.rfl ?_
      constructor
      · rintro (⟨c, hc, hlink⟩ | ⟨c, hc, hlink⟩)
        · exact ⟨c, List.mem_append_left _ hc, hlink⟩
        · exact ⟨c, List.mem_append_right _ hc, hlink⟩
      · rintro ⟨c, hc, hlink⟩
        rcases List.mem_append.mp hc with hc | hc
        · exact Or.inl ⟨c, hc, hlink⟩
        · exact Or.inr ⟨c, hc, hlink⟩

/-- So it is for a screen, with its history. -/
theorem mem_addLinksOf (hn : n ≠ 0) (links : List Nat) (s : Screen) :
    n ∈ addLinksOf links s ↔ n ∈ links ∨ ∃ c ∈ s.cells, c.link = n := by
  rw [addLinksOf, ← Array.foldl_toList, ← List.foldl_append, mem_foldl_addLinks hn, Screen.cells]

/-- The table keeps what is held, and only this. -/
theorem mem_usedLinks (hn : n ≠ 0) (t : Terminal) : n ∈ t.usedLinks ↔ n ∈ t.linkNumbers := by
  rw [usedLinks, linkNumbers, List.mem_cons, List.mem_cons, carriedLinks, mem_addLinksOf hn,
    mem_addLinksOf hn, List.mem_map, cells]
  refine or_congr Iff.rfl ?_
  constructor
  · rintro ((hnil | ⟨c, hc, hlink⟩) | ⟨c, hc, hlink⟩)
    · exact absurd hnil List.not_mem_nil
    · exact ⟨c, List.mem_append_right _ hc, hlink⟩
    · exact ⟨c, List.mem_append_left _ hc, hlink⟩
  · rintro ⟨c, hc, hlink⟩
    rcases List.mem_append.mp hc with hc | hc
    · exact Or.inr ⟨c, hc, hlink⟩
    · exact Or.inl (Or.inr ⟨c, hc, hlink⟩)

/-- What clearing the table collects are the links that are held. -/
theorem heldLinks_eq (t : Terminal) : t.heldLinks = t.usedLinks.toFinset.erase 0 := by
  refine Finset.ext fun n => ?_
  rw [heldLinks, Finset.mem_erase, Finset.mem_erase, List.mem_toFinset, List.mem_toFinset]
  exact and_congr_right fun hn => (mem_usedLinks hn t).symm

end Terminal

/-! ## Changes of numbers -/

namespace Renumbering

/-- All numbers stay. -/
def same : Renumbering := ⟨fun n => n, rfl⟩

/-- The numbers listed stay, and all others become zero. -/
def only (kept : List Nat) : Renumbering where
  number n := if n ∈ kept then n else 0
  zero := by split <;> rfl

theorem only_of_mem {kept : List Nat} {n : Nat} (hn : n ∈ kept) : only kept n = n := if_pos hn

/-- Only numbers that are kept, and zero, come out. -/
theorem only_mem {kept : List Nat} {n : Nat} (hn : only kept n ≠ 0) : only kept n ∈ kept := by
  by_cases hmem : n ∈ kept
  · rwa [only_of_mem hmem]
  · exact absurd (if_neg hmem) hn

/-- One number is changed into another. -/
def set (f : Renumbering) (n k : Nat) (hn : n ≠ 0) : Renumbering where
  number i := if i = n then k else f i
  zero := (if_neg hn.symm).trans f.zero

variable {f : Renumbering} {n k : Nat}

theorem set_self (hn : n ≠ 0) : f.set n k hn n = k := if_pos rfl

theorem set_of_ne (hn : n ≠ 0) {i : Nat} (hi : i ≠ n) : f.set n k hn i = f i := if_neg hi

end Renumbering

namespace Row

theorem relink_same (r : Row) : r.relink .same = r := by
  rw [relink, show Cell.relink .same = id from rfl, Array.map_id]

/-- The change matters only for the numbers in the cells. -/
theorem relink_congr {f f' : Renumbering} {r : Row}
    (hff' : ∀ c ∈ r.cells.toList, f c.link = f' c.link) : r.relink f = r.relink f' := by
  rw [relink, relink]
  refine congrArg (fun cells => ({ r with cells } : Row)) (Array.map_congr_left fun c hc => ?_)
  rw [Cell.relink, Cell.relink, hff' c (Array.mem_toList_iff.mpr hc)]

/-- The cells of renumbered rows are the renumbered cells. -/
theorem cells_relink (f : Renumbering) (rows : List Row) :
    (rows.map (relink f)).flatMap (fun r => r.cells.toList) =
      (rows.flatMap fun r => r.cells.toList).map (Cell.relink f) := by
  rw [List.flatMap_map, List.map_flatMap]
  refine congrArg (fun cellsOf => rows.flatMap cellsOf) (funext fun r => ?_)
  exact Array.toList_map

end Row

namespace Screen.Relinked

variable {f f' : Renumbering} {s u : Screen}

/-- A screen differs in nothing from itself. -/
theorem refl (s : Screen) : s.Relinked .same s := by
  have hsame : Row.relink .same = id := funext Row.relink_same
  have hrefl := @intro .same s s.history (by rw [hsame, List.map_id])
  rwa [hsame, Array.map_id] at hrefl

/-- Screens that differ in the numbers of links have the same cells but for these. -/
theorem cells_eq (h : s.Relinked f u) : u.cells = s.cells.map (Cell.relink f) := by
  obtain ⟨history, hrows⟩ := h
  rw [cells, cells, hrows, Array.toList_map, ← List.map_append, Row.cells_relink]

/-- Only the numbers that occur in the cells of a screen matter. -/
theorem congr (h : s.Relinked f u) (hff' : ∀ c ∈ s.cells, f c.link = f' c.link) :
    s.Relinked f' u := by
  obtain ⟨history, hrows⟩ := h
  have hrow : ∀ r ∈ s.grid.toList ++ s.history.toList, r.relink f = r.relink f' :=
    fun r hr => Row.relink_congr fun c hc => hff' c (List.mem_flatMap.mpr ⟨r, hr, hc⟩)
  have hgrid : s.grid.map (Row.relink f) = s.grid.map (Row.relink f') :=
    Array.map_congr_left fun r hr => hrow r (List.mem_append_left _ (Array.mem_toList_iff.mpr hr))
  rw [hgrid]
  refine .intro history (hrows.trans ?_)
  exact List.map_congr_left fun r hr => hrow r (List.mem_append_right _ hr)

end Screen.Relinked

namespace Terminal

namespace Relinked

variable {f f' : Renumbering} {links : LinkTable} {t u : Terminal}

/-- A terminal differs in nothing from itself. -/
theorem refl (t : Terminal) : t.Relinked .same t.links t :=
  .intro (Screen.Relinked.refl t.primary) (Screen.Relinked.refl t.alternate)

theorem links_eq (h : t.Relinked f links u) : u.links = links := by
  cases h
  rfl

/-- Terminals that differ in the numbers of links have the same cells but for these. -/
theorem cells_eq (h : t.Relinked f links u) : u.cells = t.cells.map (Cell.relink f) := by
  obtain ⟨hprimary, halternate⟩ := h
  rw [cells, cells, List.map_append, ← hprimary.cells_eq, ← halternate.cells_eq]

theorem openLink_eq (h : t.Relinked f links u) : u.openLink = f t.openLink := by
  cases h
  rfl

/-- All numbers of the one are those of the other, renumbered. -/
theorem linkNumbers_eq (h : t.Relinked f links u) : u.linkNumbers = t.linkNumbers.map f := by
  rw [linkNumbers, linkNumbers, h.cells_eq, h.openLink_eq, List.map_cons, List.map_map,
    List.map_map]
  rfl

/-- The change matters only for the numbers that stand somewhere. -/
theorem congr (h : t.Relinked f links u) (hff' : ∀ n ∈ t.linkNumbers, f n = f' n) :
    t.Relinked f' links u := by
  have hcell : ∀ c ∈ t.cells, f c.link = f' c.link :=
    fun c hc => hff' _ (List.mem_cons_of_mem _ (List.mem_map_of_mem hc))
  obtain ⟨hprimary, halternate⟩ := h
  rw [hff' _ List.mem_cons_self]
  exact .intro (hprimary.congr fun c hc => hcell c (List.mem_append_left _ hc))
    (halternate.congr fun c hc => hcell c (List.mem_append_right _ hc))

/-- A link is opened on both sides. -/
theorem openLink (h : t.Relinked f links u) (n : Nat) (links' : LinkTable) :
    { t with openLink := n }.Relinked f links' { u with links := links', openLink := f n } := by
  obtain ⟨hprimary, halternate⟩ := h
  exact .intro hprimary halternate

end Relinked

/-! ## What does the same whatever the numbers are -/

/-- An operation does the same to terminals that differ in the numbers of links only. -/
def Uniform (F : Terminal → Terminal) : Prop :=
  ∀ {f : Renumbering} {links : LinkTable} {t u : Terminal},
    t.Relinked f links u → (F t).Relinked f links (F u)

namespace Uniform

variable {F : Terminal → Terminal}

/-- What does the same whatever the numbers are cannot look at the table, and so leaves it alone. -/
theorem links_eq (hF : Uniform F) (t : Terminal) : (F t).links = t.links :=
  (hF (Relinked.refl t)).links_eq

/-- It brings in no number of its own. -/
theorem mem_linkNumbers (hF : Uniform F) {t : Terminal} {n : Nat} (hn : n ≠ 0)
    (hmem : n ∈ (F t).linkNumbers) : n ∈ t.linkNumbers := by
  -- keeping only the numbers on `t` leaves `t` as it is, and with it what becomes of it
  have honly : t.Relinked (.only t.linkNumbers) t.links t :=
    (Relinked.refl t).congr fun k hk => (Renumbering.only_of_mem hk).symm
  rw [(hF honly).linkNumbers_eq] at hmem
  obtain ⟨k, -, rfl⟩ := List.mem_map.mp hmem
  exact Renumbering.only_mem hn

end Uniform

/-- A new terminal has no links. -/
theorem linkNumbers_new {cols rows limit : Nat} {sgr21 : Sgr21} {n : Nat}
    (hmem : n ∈ (Terminal.new cols rows limit sgr21).linkNumbers) : n = 0 := by
  rw [(Relinked.new (.only []) cols rows limit sgr21).linkNumbers_eq] at hmem
  obtain ⟨k, -, rfl⟩ := List.mem_map.mp hmem
  by_contra hn
  exact absurd (Renumbering.only_mem hn) List.not_mem_nil

end Terminal

end VideoTerminal
