import VideoTerminal.Toml.Document
import VideoTerminal.Toml.Statement

/-!
# Tables of documents

The sections of a document become tables one after the other: a header opens a table and each
assignment puts one value in front of it.  A section below another changes the other's table where
it lies, so `Leads` says of a path how the tables look that it leads through, and one lemma for all
sections adds a table at the end of it.

Entries that are dropped by their keys leave all others where they were.
-/

namespace VideoTerminal.Toml

/-! ## Entries by key -/

/-- The entries of a section as the table that they are read into. -/
def entriesTable (entries : List (String × Literal)) : Table :=
  (entries.map fun (key, v) => (key, v.value)).reverse

theorem entriesTable_cons (key : String) (v : Literal) (entries : List (String × Literal)) :
    entriesTable ((key, v) :: entries) = entriesTable entries ++ [(key, v.value)] := by
  rw [entriesTable, List.map_cons, List.reverse_cons]
  rfl

theorem entriesTable_filter (keep : String → Bool) (entries : List (String × Literal)) :
    entriesTable (entries.filter fun e => keep e.1)
      = (entriesTable entries).filter fun e => keep e.1 := by
  rw [entriesTable, entriesTable, List.filter_reverse, List.filter_map]
  rfl

namespace Table

theorem get?_cons_of_ne {key other : String} (h : other ≠ key) (v : Value) (t : Table) :
    get? ((key, v) :: t) other = get? t other := by
  rw [get?, get?, List.lookup_cons, beq_eq_false_iff_ne.mpr h]

theorem get?_cons_self (key : String) (v : Value) (t : Table) :
    get? ((key, v) :: t) key = some v := by
  rw [get?, List.lookup_cons, beq_self_eq_true]

/-- Entries that are dropped by their keys leave the others where they were. -/
theorem get?_filter (keep : String → Bool) (t : Table) (key : String) :
    get? (t.filter fun e => keep e.1) key = if keep key then get? t key else none := by
  induction t with
  | nil =>
      rw [List.filter_nil]
      exact (ite_self _).symm
  | cons e t ih =>
      obtain ⟨k, v⟩ := e
      rw [List.filter_cons]
      by_cases hkey : key = k
      · subst hkey
        rw [get?_cons_self]
        by_cases hk : keep key = true
        · rw [if_pos hk, if_pos hk, get?_cons_self]
        · rw [if_neg hk, if_neg hk, ih, if_neg hk]
      · rw [get?_cons_of_ne hkey]
        by_cases hk : keep k = true
        · rw [if_pos hk, get?_cons_of_ne hkey, ih]
        · rw [if_neg hk, ih]

/-! ## Tables on a path -/

theorem within?_append (f : Table → Option Table) (path inner : List String) (t : Table) :
    within? f (path ++ inner) t = within? (within? f inner) path t := by
  induction path generalizing t with
  | nil => rfl
  | cons key path ih =>
      have hwithin : within? f (path ++ inner) = within? (within? f inner) path := funext ih
      rw [List.cons_append, within?, within?, hwithin]

theorem atLast?_append (f : String → Table → Option Table) (parents : List String) (key : String)
    (t : Table) : atLast? f (parents ++ [key]) t = within? (f key) parents t := by
  rw [atLast?.eq_def]
  split
  · next heq => exact absurd heq (List.append_ne_nil_of_right_ne_nil _ (List.cons_ne_nil _ _))
  · next heq =>
    rw [← heq, List.getLast?_concat, List.dropLast_concat]
    rfl

/-- A path leads to the tables that `wrap` puts a table in. -/
def Leads (path : List String) (wrap : Table → Table) : Prop :=
  ∀ f t, within? f path (wrap t) = (f t).map wrap

theorem leads_nil : Leads [] id := by
  intro f t
  rw [Option.map_id]
  rfl

/-- The table under the latest key of another. -/
def under (key : String) (t inner : Table) : Table := (key, .table .header inner) :: t

theorem leads_under (key : String) (t : Table) : Leads [key] (under key t) := by
  intro f inner
  have hget : get? (under key t inner) key = some (.table .header inner) := get?_cons_self _ _ _
  rw [within?, hget]
  show ((f inner).map (Value.table .header)).map _ = _
  cases f inner with
  | none => rfl
  | some inner' =>
      simp only [Option.map_some, set, hget]
      rw [under, replace, if_pos rfl]
      rfl

theorem Leads.append {path inner : List String} {wrap wrap' : Table → Table}
    (h : Leads path wrap) (h' : Leads inner wrap') : Leads (path ++ inner) (wrap ∘ wrap') := by
  intro f t
  rw [within?_append, Function.comp_apply, h, h', Option.map_map]

end Table

/-! ## Sections one after the other -/

/-- Assignments of new keys put their values in front, one after the other. -/
theorem foldlM_assign {path : List String} {wrap : Table → Table} (hwrap : Table.Leads path wrap)
    {entries : List (String × Literal)} (hkeys : (entries.map Prod.fst).Nodup) {t : Table}
    (hnew : ∀ e ∈ entries, Table.get? t e.1 = none) :
    (entries.map fun (key, v) => Statement.assign [key] v.value).foldlM Draft.add? ⟨wrap t, path⟩
      = some ⟨wrap (entriesTable entries ++ t), path⟩ := by
  induction entries generalizing t with
  | nil => rfl
  | cons e entries ih =>
      obtain ⟨key, v⟩ := e
      obtain ⟨hkey, hnodup⟩ := List.nodup_cons.mp hkeys
      obtain ⟨hfirst, hrest⟩ := List.forall_mem_cons.mp hnew
      have hadd : Draft.add? ⟨wrap t, path⟩ (.assign [key] v.value)
          = some ⟨wrap ((key, v.value) :: t), path⟩ := by
        have hassign : Table.assign? v.value [key] t = some ((key, v.value) :: t) := by
          rw [Table.assign?, Table.add?, hfirst]
        rw [Draft.add?, hwrap, hassign]
        rfl
      have hstill : ∀ e ∈ entries, Table.get? ((key, v.value) :: t) e.1 = none := by
        intro e he
        have hne : e.1 ≠ key := fun heq => hkey (List.mem_map.mpr ⟨e, he, heq⟩)
        rw [Table.get?_cons_of_ne hne, hrest e he]
      rw [List.map_cons, List.foldlM_cons, hadd]
      show List.foldlM _ _ _ = _
      rw [ih hnodup hstill, entriesTable_cons, List.append_assoc, List.singleton_append]

/-- A section adds a table of its entries to the one that its header leads to. -/
theorem foldlM_section {parents : List String} {wrap : Table → Table}
    (hwrap : Table.Leads parents wrap) {key : String} {entries : List (String × Literal)}
    (hkeys : (entries.map Prod.fst).Nodup) {t : Table} (hnew : Table.get? t key = none)
    (current : List String) :
    (Section.statements ⟨parents ++ [key], entries⟩).foldlM Draft.add? ⟨wrap t, current⟩
      = some ⟨wrap (Table.under key t (entriesTable entries)), parents ++ [key]⟩ := by
  have hopen : Draft.add? ⟨wrap t, current⟩ (.header (parents ++ [key]))
      = some ⟨wrap (Table.under key t []), parents ++ [key]⟩ := by
    have hfirst : Table.open? key t = some (Table.under key t []) := by
      rw [Table.open?, hnew]
      rfl
    rw [Draft.add?, Table.atLast?_append, hwrap, hfirst]
    rfl
  have hinner : Table.Leads (parents ++ [key]) (wrap ∘ Table.under key t) :=
    hwrap.append (Table.leads_under key t)
  have hassign := foldlM_assign hinner hkeys (t := []) fun _ _ => rfl
  rw [List.append_nil] at hassign
  rw [Section.statements, List.foldlM_cons, hopen]
  exact hassign

end VideoTerminal.Toml
