import Mathlib.Data.Finset.Card
import Mathlib.Data.List.Nodup
import VideoTerminal.Link

/-!
# Tables of links

The two maps of a table are in step: what one of them says of a link, the other says of its number.
A table is sound if they are, if no number stands for two links, and if zero stands for none.
Adding a link that is new under the next free number and dropping links keeps it sound, and both
leave the other links where they are.  So a number that has been given out keeps its link as long
as the link is kept.
-/

namespace VideoTerminal.LinkTable

/-! ## Maps -/

section Maps

variable {α β : Type} [BEq α] [LawfulBEq α] {key : α} {value : β} {entries : List (α × β)}

/-- What is looked up is among the entries. -/
theorem mem_of_lookup (h : entries.lookup key = some value) : (key, value) ∈ entries := by
  obtain ⟨before, behind, rfl, -⟩ := List.lookup_eq_some_iff.mp h
  exact List.mem_append_right _ List.mem_cons_self

theorem notMem_of_lookup (h : entries.lookup key = none) : (key, value) ∉ entries := by
  intro hmem
  have hne := List.lookup_eq_none_iff.mp h _ hmem
  exact absurd rfl (bne_iff_ne.mp hne)

/-- Where keys are distinct, an entry is what is looked up under its key. -/
theorem lookup_of_mem (hnodup : (entries.map Prod.fst).Nodup) (hmem : (key, value) ∈ entries) :
    entries.lookup key = some value := by
  cases hfound : entries.lookup key with
  | none => exact absurd hmem (notMem_of_lookup hfound)
  | some other =>
      have hother := mem_of_lookup hfound
      cases List.inj_on_of_nodup_map hnodup hother hmem rfl
      rfl

/-- Under a new key nothing has to be replaced. -/
theorem put_of_new (h : entries.lookup key = none) :
    put key value entries = (key, value) :: entries := by
  refine congrArg _ (List.filter_eq_self.mpr fun e he => ?_)
  have hne := bne_iff_ne.mp (List.lookup_eq_none_iff.mp h e he)
  exact bne_iff_ne.mpr hne.symm

omit [LawfulBEq α] in
/-- What is not in a map is not in a part of it. -/
theorem lookup_filter_none (p : α × β → Bool) (h : entries.lookup key = none) :
    (entries.filter p).lookup key = none := by
  rw [List.lookup_eq_none_iff] at h ⊢
  exact fun e he => h e (List.mem_filter.mp he).1

end Maps

/-! ## The next number -/

/-- What lies behind all numbers seen so far and all that are still to come lies behind each. -/
theorem lt_foldl_max (es : List (Nat × String)) (n : Nat) :
    n ≤ es.foldl (fun n e => max n (e.1 + 1)) n ∧
      ∀ e ∈ es, e.1 < es.foldl (fun n e => max n (e.1 + 1)) n := by
  induction es generalizing n with
  | nil =>
      refine ⟨Nat.le_refl n, fun e he => ?_⟩
      exact absurd he List.not_mem_nil
  | cons e es ih =>
      obtain ⟨hle, hlt⟩ := ih (max n (e.1 + 1))
      rw [List.foldl_cons]
      refine ⟨by omega, fun k hk => ?_⟩
      rcases List.mem_cons.mp hk with rfl | hk
      · omega
      · exact hlt k hk

/-- The next number is free, and it is not zero, whether it is one of the candidates or behind
    them. -/
theorem nextNumber_free (t : LinkTable) : t.target? t.nextNumber = none ∧ t.nextNumber ≠ 0 := by
  rw [nextNumber]
  cases hfind : t.candidates.find? fun n => !t.isTaken n with
  | some n =>
      refine ⟨?_, ?_⟩
      · have hfree := List.find?_some hfind
        rw [Bool.not_eq_true', isTaken] at hfree
        exact Option.isSome_eq_false_iff.mp hfree |> Option.isNone_iff_eq_none.mp
      · obtain ⟨i, -, rfl⟩ := List.mem_map.mp (List.mem_of_find?_eq_some hfind)
        exact Nat.ne_of_gt (Nat.add_pos_left Nat.one_pos _)
  | none =>
      obtain ⟨hle, hlt⟩ := lt_foldl_max t.targets 1
      refine ⟨?_, Nat.ne_of_gt hle⟩
      refine List.lookup_eq_none_iff.mpr fun e he => bne_iff_ne.mpr ?_
      exact Nat.ne_of_gt (hlt e he)

/-! ## Sound tables -/

/-- The two maps are in step, no number stands for two links and no link has two numbers, and zero
stands for none. -/
structure Sound (t : LinkTable) : Prop where
  inStep : t.targets = t.numbers.map fun e => (e.2, e.1.2)
  nodup_links : (t.numbers.map Prod.fst).Nodup
  nodup : (t.targets.map Prod.fst).Nodup
  nonzero : ∀ e ∈ t.targets, e.1 ≠ 0

theorem sound_empty : Sound {} where
  inStep := rfl
  nodup_links := List.nodup_nil
  nodup := List.nodup_nil
  nonzero _ he := absurd he List.not_mem_nil

/-- Under distinct keys there is none but those that are looked up in vain. -/
theorem nodup_cons_of_new {α β : Type} [BEq α] [LawfulBEq α] {key : α} {value : β}
    {entries : List (α × β)} (hnew : entries.lookup key = none)
    (hnodup : (entries.map Prod.fst).Nodup) :
    (((key, value) :: entries).map Prod.fst).Nodup := by
  refine List.nodup_cons.mpr ⟨fun hmem => ?_, hnodup⟩
  obtain ⟨e, he, rfl⟩ := List.mem_map.mp hmem
  exact notMem_of_lookup hnew he

/-- A link that is new is put in front of both maps. -/
theorem insert_of_new {t : LinkTable} {id target : String} (hnone : t.number? id target = none) :
    t.insert id target =
      { targets := (t.nextNumber, target) :: t.targets
        numbers := ((id, target), t.nextNumber) :: t.numbers
        last := t.nextNumber } := by
  rw [insert, put_of_new t.nextNumber_free.1, put_of_new hnone]

namespace Sound

variable {t : LinkTable}

theorem insert (h : t.Sound) {id target : String} (hnone : t.number? id target = none) :
    (t.insert id target).Sound := by
  rw [insert_of_new hnone]
  exact {
    inStep := congrArg _ h.inStep
    nodup_links := nodup_cons_of_new hnone h.nodup_links
    nodup := nodup_cons_of_new t.nextNumber_free.1 h.nodup
    nonzero := List.forall_mem_cons.mpr ⟨t.nextNumber_free.2, h.nonzero⟩ }

/-- Both maps lose the same links. -/
theorem retain (h : t.Sound) (used : List Nat) : (t.retain used).Sound where
  inStep := by
    show t.targets.filter _ = (t.numbers.filter _).map _
    rw [h.inStep, List.filter_map]
    rfl
  nodup_links := h.nodup_links.sublist (List.filter_sublist.map Prod.fst)
  nodup := h.nodup.sublist (List.filter_sublist.map Prod.fst)
  nonzero e he := h.nonzero e (List.mem_filter.mp he).1

/-- A link with a number is the link of this number. -/
theorem mem_targets (h : t.Sound) {id target : String} {number : Nat}
    (hmem : ((id, target), number) ∈ t.numbers) : (number, target) ∈ t.targets := by
  rw [h.inStep]
  exact List.mem_map_of_mem hmem

theorem nodup_numbers (h : t.Sound) : (t.numbers.map Prod.snd).Nodup := by
  have hnodup := h.nodup
  rw [h.inStep, List.map_map] at hnodup
  exact hnodup

end Sound

/-! ## What is looked up -/

variable {t : LinkTable} {id target : String} {number : Nat}

theorem Sound.number?_ne_zero (h : t.Sound) (hnumber : t.number? id target = some number) :
    number ≠ 0 :=
  h.nonzero _ (h.mem_targets (mem_of_lookup hnumber))

/-- The number of a link has its target. -/
theorem Sound.target?_of_number? (h : t.Sound) (hnumber : t.number? id target = some number) :
    t.target? number = some target :=
  lookup_of_mem h.nodup (h.mem_targets (mem_of_lookup hnumber))

/-- A number with a target is that of a link. -/
theorem Sound.exists_number?_of_target? (h : t.Sound) (htarget : t.target? number = some target) :
    ∃ id, t.number? id target = some number := by
  have hmem := mem_of_lookup htarget
  rw [h.inStep] at hmem
  obtain ⟨⟨⟨id, _⟩, _⟩, hentry, hsame⟩ := List.mem_map.mp hmem
  cases hsame
  exact ⟨id, lookup_of_mem h.nodup_links hentry⟩

/-- Two links of one number are the same. -/
theorem Sound.number?_inj (h : t.Sound) {id' target' : String}
    (hnumber : t.number? id target = some number)
    (hnumber' : t.number? id' target' = some number) : (id, target) = (id', target') := by
  have hsame := List.inj_on_of_nodup_map h.nodup_numbers (mem_of_lookup hnumber)
    (mem_of_lookup hnumber') rfl
  exact congrArg Prod.fst hsame

/-- What the two maps of a table say of links and numbers agrees: the number of a link has its
target, a number with a target is that of a link, different links have different numbers, none has
zero, and the maps are of one size. -/
structure InStep (t : LinkTable) : Prop where
  target_of_number : ∀ id target number,
    t.number? id target = some number → t.target? number = some target
  number_of_target : ∀ number target,
    t.target? number = some target → ∃ id, t.number? id target = some number
  injective : ∀ id target id' target' number, t.number? id target = some number →
    t.number? id' target' = some number → (id, target) = (id', target')
  nonzero : t.target? 0 = none
  size_eq : t.targets.length = t.numbers.length

theorem Sound.toInStep (h : t.Sound) : t.InStep where
  target_of_number _ _ _ := h.target?_of_number?
  number_of_target _ _ := h.exists_number?_of_target?
  injective _ _ _ _ _ := h.number?_inj
  nonzero := List.lookup_eq_none_iff.mpr fun e he => bne_iff_ne.mpr (h.nonzero e he).symm
  size_eq := by
    rw [h.inStep, List.length_map]

/-! ## What adding and dropping leaves -/

theorem number?_insert_self (t : LinkTable) (id target : String) :
    (t.insert id target).number? id target = some (t.insert id target).last := by
  exact List.lookup_cons_self

/-- A link in the table keeps its number when one is added that was not. -/
theorem number?_insert (hnone : t.number? id target = none) {id' target' : String}
    (hnumber : t.number? id' target' = some number) :
    (t.insert id target).number? id' target' = some number := by
  have hne : (id', target') ≠ (id, target) := by
    intro heq
    cases heq
    rw [hnone] at hnumber
    cases hnumber
  rw [insert_of_new hnone, number?, List.lookup_cons, beq_eq_false_iff_ne.mpr hne]
  exact hnumber

theorem number?_retain_none (used : List Nat) (hnone : t.number? id target = none) :
    (t.retain used).number? id target = none := lookup_filter_none _ hnone

/-- A link whose number is in use keeps it when others are dropped. -/
theorem Sound.number?_retain (h : t.Sound) {used : List Nat} (hused : number ∈ used)
    (hnumber : t.number? id target = some number) :
    (t.retain used).number? id target = some number := by
  refine lookup_of_mem (h.retain used).nodup_links (List.mem_filter.mpr ⟨?_, ?_⟩)
  · exact mem_of_lookup hnumber
  · rw [Std.HashSet.contains_ofList, List.contains_iff_mem]
    exact hused

/-- No more links are left than numbers in use. -/
theorem Sound.size_retain_le (h : t.Sound) (used : List Nat) :
    (t.retain used).size ≤ (used.toFinset.erase 0).card := by
  have hnodup := (h.retain used).nodup
  rw [size, ← List.length_map Prod.fst, ← List.toFinset_card_of_nodup hnodup]
  refine Finset.card_le_card fun n hn => ?_
  obtain ⟨e, he, rfl⟩ := List.mem_map.mp (List.mem_toFinset.mp hn)
  obtain ⟨he, hcontains⟩ := List.mem_filter.mp he
  rw [Std.HashSet.contains_ofList, List.contains_iff_mem] at hcontains
  exact Finset.mem_erase.mpr ⟨h.nonzero e he, List.mem_toFinset.mpr hcontains⟩

theorem size_insert_of_new (hnone : t.number? id target = none) :
    (t.insert id target).size = t.size + 1 := by
  rw [insert_of_new hnone]
  rfl

end VideoTerminal.LinkTable
