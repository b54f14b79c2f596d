/-!
# Environments

Variables of a program: a finite map from names to values, as the list of its entries in the
order of the names.
-/

namespace VideoTerminal

/-- Puts a value under a name into a sorted list. -/
def insertSorted (name value : String) : List (String × String) → List (String × String)
  | [] => [(name, value)]
  | (n, v) :: rest =>
      if name < n then (name, value) :: (n, v) :: rest
      else if name = n then (name, value) :: rest
      else (n, v) :: insertSorted name value rest

/-- A name in a list after an insertion was there before or is the new one. -/
theorem name_of_mem_insertSorted {name value : String} {l : List (String × String)}
    {e : String × String} (h : e ∈ insertSorted name value l) : e.1 = name ∨ e ∈ l := by
  induction l with
  | nil => simp_all [insertSorted]
  | cons d l ih =>
    obtain ⟨n, v⟩ := d
    simp only [insertSorted] at h
    split at h
    · rcases List.mem_cons.1 h with rfl | h
      · exact .inl rfl
      · exact .inr h
    · split at h
      · rcases List.mem_cons.1 h with rfl | h
        · exact .inl rfl
        · exact .inr (List.mem_cons_of_mem _ h)
      · rcases List.mem_cons.1 h with rfl | h
        · exact .inr List.mem_cons_self
        · exact (ih h).imp id (List.mem_cons_of_mem _)

/-- Insertion keeps the order. -/
theorem pairwise_insertSorted (name value : String) {l : List (String × String)}
    (h : l.Pairwise fun a b => a.1 < b.1) :
    (insertSorted name value l).Pairwise fun a b => a.1 < b.1 := by
  induction l with
  | nil => simp [insertSorted]
  | cons d l ih =>
    obtain ⟨n, v⟩ := d
    obtain ⟨first, rest⟩ := List.pairwise_cons.1 h
    simp only [insertSorted]
    split
    · next lt =>
      refine List.pairwise_cons.2 ⟨fun e he => ?_, h⟩
      rcases List.mem_cons.1 he with rfl | he
      · exact lt
      · exact String.lt_trans lt (first e he)
    · next notLt =>
      split
      · next eq => exact List.pairwise_cons.2 ⟨fun e he => eq ▸ first e he, rest⟩
      · next ne =>
        refine List.pairwise_cons.2 ⟨fun e he => ?_, ih rest⟩
        rcases name_of_mem_insertSorted he with rfl | he
        · exact Std.lt_of_le_of_ne (String.not_lt.1 notLt) (Ne.symm ne)
        · exact first e he

/-- Variables and their values. -/
structure Environment where
  entries : List (String × String)
  /-- Each name is there once, in order. -/
  sorted : entries.Pairwise fun a b => a.1 < b.1
deriving DecidableEq, Repr

namespace Environment

/-- No variables. -/
def empty : Environment := ⟨[], .nil⟩

/-- Sets a variable. -/
def insert (e : Environment) (name value : String) : Environment :=
  ⟨insertSorted name value e.entries, pairwise_insertSorted name value e.sorted⟩

/-- The environment of a list of variables, of which the last of a name counts. -/
def ofList (l : List (String × String)) : Environment :=
  l.foldl (fun e (name, value) => e.insert name value) empty

end Environment

end VideoTerminal
