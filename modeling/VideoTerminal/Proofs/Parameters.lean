import VideoTerminal.Decoder
import VideoTerminal.Proofs.Numerals

/-!
# Parameters read back

The text of a parameter string is read as the parameters it was made from.  Not all parameters can
come from a text: there are bounds on groups, slots and values, and a single empty slot has the same
text as no parameters at all.  `Params.Canonical` says what is left, and the reader makes nothing
else, whatever it has read.
-/

namespace VideoTerminal

/-- A value that can be kept has five digits at most. -/
theorem Numeral.length_decimal_le {n : Nat} (hn : n ≤ Params.maxValue) :
    (decimal n).length ≤ 5 :=
  (Nat.length_toDigits_le_iff (by decide) (by decide)).mpr
    (Nat.lt_of_le_of_lt hn (by decide : Params.maxValue < 10 ^ 5))

/-! ## What parameters there can be -/

/-- A group of some slots, not too many, and each with a value that is not too large. -/
structure Params.CanonicalGroup (group : List (Option Nat)) : Prop where
  ne_nil : group ≠ []
  length_le : group.length ≤ maxSlots
  value_le : ∀ v ∈ group, ∀ n ∈ v, n ≤ maxValue

/-- One number makes a group. -/
theorem Params.canonicalGroup_singleton {n : Nat} (hn : n ≤ maxValue) :
    CanonicalGroup [some n] where
  ne_nil := List.cons_ne_nil _ _
  length_le := Nat.le_of_ble_eq_true rfl
  value_le := by
    intro v hv m hm
    rw [List.mem_singleton.mp hv] at hm
    exact Option.some.inj hm ▸ hn

/-- Parameters that a text can stand for. -/
structure Params.Canonical (p : Params) : Prop where
  length_le : p.groups.length ≤ maxGroups
  each : ∀ group ∈ p.groups, CanonicalGroup group
  not_blank : p.groups ≠ [[none]]

/-- Parameters of one number or more. -/
theorem Params.canonical_numbers {ns : List Nat} (hlength : ns.length ≤ maxGroups)
    (hns : ∀ n ∈ ns, n ≤ maxValue) : Canonical ⟨ns.map fun n => [some n]⟩ where
  length_le := by rwa [List.length_map]
  each := by
    intro group hgroup
    obtain ⟨n, hn, rfl⟩ := List.mem_map.mp hgroup
    exact canonicalGroup_singleton (hns n hn)
  not_blank := by
    cases ns with
    | nil => exact nofun
    | cons n ns => simp

/-- What holds of a reader in the middle of a parameter string.  Once it has begun there is
    something to show for it. -/
structure ParamReader.Sound (r : ParamReader) : Prop where
  groups_le : r.groups.length ≤ Params.maxGroups
  each : ∀ group ∈ r.groups, Params.CanonicalGroup group
  slots_le : r.slots.length ≤ Params.maxSlots
  slot_le : ∀ v ∈ r.slots, ∀ n ∈ v, n ≤ Params.maxValue
  value_le : ∀ n ∈ r.value, n ≤ Params.maxValue
  begun : r.started = true → r.groups ≠ [] ∨ r.slots ≠ [] ∨ r.value ≠ none
  not_begun : r.started = false → r.groups ≠ [[none]]

namespace ParamReader

/-- The invariant of the reader holds before its first byte. -/
theorem sound_empty : Sound {} where
  groups_le := Nat.zero_le _
  each := fun _ hgroup => absurd hgroup List.not_mem_nil
  slots_le := Nat.zero_le _
  slot_le := fun _ hv => absurd hv List.not_mem_nil
  value_le := fun _ hn => absurd hn (Option.not_mem_none _)
  begun := nofun
  not_begun := nofun

/-- There is at least one group, and be it the open one. -/
theorem allGroups_ne_nil (r : ParamReader) : r.allGroups ≠ [] := by
  rw [allGroups]
  split
  · exact List.append_ne_nil_of_right_ne_nil _ (List.cons_ne_nil _ _)
  · next hroom =>
    intro hnil
    rw [hnil] at hroom
    exact hroom (by decide)

/-- The open group has no more slots than are kept. -/
theorem length_openGroup_le {r : ParamReader} (h : r.slots.length ≤ Params.maxSlots) :
    r.openGroup.length ≤ Params.maxSlots := by
  rw [openGroup]
  split
  · next hroom =>
    rw [List.length_append]
    exact hroom
  · exact h

/-- Nor are there more groups than are kept. -/
theorem length_allGroups_le {r : ParamReader} (h : r.groups.length ≤ Params.maxGroups) :
    r.allGroups.length ≤ Params.maxGroups := by
  rw [allGroups]
  split
  · next hroom =>
    rw [List.length_append]
    exact hroom
  · exact h

/-- A group with anything in it is not a single empty slot. -/
theorem openGroup_ne_blank {r : ParamReader} (h : r.slots ≠ [] ∨ r.value ≠ none) :
    r.openGroup ≠ [none] := by
  intro hblank
  rw [openGroup] at hblank
  split at hblank
  · rcases List.append_eq_singleton_iff.mp hblank with ⟨hslots, hvalue⟩ | ⟨-, hnil⟩
    · exact h.elim (fun hsome => hsome hslots) fun hsome => hsome (List.cons.inj hvalue).1
    · exact absurd hnil (List.cons_ne_nil _ _)
  · next hroom =>
    rw [hblank] at hroom
    exact hroom (by decide)

/-- A byte of a parameter string is taken in one of three ways. -/
theorem readParameter?_cases {r r' : ParamReader} {b : UInt8}
    (h : Decoder.readParameter? r b = some r') :
    r' = r.digit (b.toNat - 0x30) ∨ r' = r.closeSlot ∨ r' = r.closeGroup := by
  rw [Decoder.readParameter?] at h
  split at h
  · exact .inl (Option.some.inj h).symm
  split at h
  · exact .inr (.inl (Option.some.inj h).symm)
  split at h
  · exact .inr (.inr (Option.some.inj h).symm)
  · exact absurd h nofun

namespace Sound

variable {r : ParamReader}

/-- What the invariant says of closed groups holds of the open one. -/
theorem openGroup (h : r.Sound) : Params.CanonicalGroup r.openGroup := by
  have hlength := length_openGroup_le h.slots_le
  rw [ParamReader.openGroup] at hlength ⊢
  by_cases hroom : r.slots.length < Params.maxSlots
  · rw [if_pos hroom] at hlength ⊢
    refine ⟨List.append_ne_nil_of_right_ne_nil _ (List.cons_ne_nil _ _), hlength, ?_⟩
    intro v hv n hn
    rcases List.mem_append.mp hv with hv | hv
    · exact h.slot_le v hv n hn
    · rw [List.mem_singleton.mp hv] at hn
      exact h.value_le n hn
  · rw [if_neg hroom]
    refine ⟨?_, h.slots_le, h.slot_le⟩
    intro hnil
    rw [hnil] at hroom
    exact hroom (by decide)

/-- The number of groups, with the open one among them. -/
theorem allGroups_le (h : r.Sound) : r.allGroups.length ≤ Params.maxGroups :=
  length_allGroups_le h.groups_le

/-- Each of the groups, with the open one among them. -/
theorem allGroups_each (h : r.Sound) : ∀ group ∈ r.allGroups, Params.CanonicalGroup group := by
  intro group hgroup
  rw [ParamReader.allGroups] at hgroup
  split at hgroup
  · rcases List.mem_append.mp hgroup with hgroup | hgroup
    · exact h.each group hgroup
    · rw [List.mem_singleton.mp hgroup]
      exact h.openGroup
  · exact h.each group hgroup

/-- The groups of a string that has begun are not those of an empty one. -/
theorem allGroups_ne_blank (h : r.Sound) (hbegun : r.started = true) :
    r.allGroups ≠ [[none]] := by
  intro hblank
  rw [ParamReader.allGroups] at hblank
  split at hblank
  · rcases List.append_eq_singleton_iff.mp hblank with ⟨hgroups, hopen⟩ | ⟨-, hnil⟩
    · have hgroup := (List.cons.inj hopen).1
      rcases h.begun hbegun with hsome | hsome
      · exact hsome hgroups
      · exact openGroup_ne_blank hsome hgroup
    · exact absurd hnil (List.cons_ne_nil _ _)
  · next hroom =>
    rw [hblank] at hroom
    exact hroom (by decide)

/-- The parameters of a string are canonical wherever it ends. -/
theorem params (h : r.Sound) : r.params.Canonical := by
  rw [ParamReader.params, ParamReader.finish]
  by_cases hbegun : r.started = true
  · rw [if_pos hbegun]
    exact ⟨h.allGroups_le, h.allGroups_each, h.allGroups_ne_blank hbegun⟩
  · rw [if_neg hbegun]
    exact ⟨h.groups_le, h.each, h.not_begun (eq_false_of_ne_true hbegun)⟩

/-! ### Steps of the reader -/

/-- A digit keeps the invariant: the value is cut at the largest one. -/
theorem digit (h : r.Sound) (d : Nat) : (r.digit d).Sound :=
  { h with
    value_le := by
      intro n hn
      rw [← Option.some.inj hn]
      exact Nat.min_le_right _ _
    begun := fun _ => Or.inr (Or.inr (Option.some_ne_none _))
    not_begun := nofun }

/-- So does a colon, which drops the slot when there are too many. -/
theorem closeSlot (h : r.Sound) : r.closeSlot.Sound :=
  { h with
    slots_le := h.openGroup.length_le
    slot_le := h.openGroup.value_le
    value_le := fun _ hn => absurd hn (Option.not_mem_none _)
    begun := fun _ => Or.inr (Or.inl h.openGroup.ne_nil)
    not_begun := nofun }

/-- So does a semicolon, which drops the group when there are too many. -/
theorem closeGroup (h : r.Sound) : r.closeGroup.Sound :=
  { sound_empty with
    groups_le := h.allGroups_le
    each := h.allGroups_each
    begun := fun _ => Or.inl r.allGroups_ne_nil
    not_begun := nofun }

/-- And so does the end. -/
theorem finish (h : r.Sound) : r.finish.Sound := by
  rw [ParamReader.finish]
  by_cases hbegun : r.started = true
  · rw [if_pos hbegun]
    exact { sound_empty with
      groups_le := h.allGroups_le
      each := h.allGroups_each
      begun := nofun
      not_begun := fun _ => h.allGroups_ne_blank hbegun }
  · rw [if_neg hbegun]
    exact h

/-- Every byte that is read keeps the invariant: it is a digit, a colon or a semicolon. -/
theorem readParameter? (h : r.Sound) {b : UInt8} {r' : ParamReader}
    (hr : Decoder.readParameter? r b = some r') : r'.Sound := by
  rcases readParameter?_cases hr with rfl | rfl | rfl
  · exact h.digit _
  · exact h.closeSlot
  · exact h.closeGroup

end Sound

/-! ## Reading the text of parameters -/

/-- Takes a character of a parameter string. -/
def readChar? (r : ParamReader) (c : Char) : Option ParamReader :=
  Decoder.readParameter? r (UInt8.ofNat c.toNat)

/-- The characters of a slot. -/
def slotChars (v : Option Nat) : List Char := (v.map Numeral.decimal).getD []

/-- The characters of a group. -/
def groupChars (group : List (Option Nat)) : List Char := [':'].intercalate (group.map slotChars)

/-- A group of one slot is that slot. -/
theorem groupChars_singleton (v : Option Nat) : groupChars [v] = slotChars v := by
  rw [groupChars, List.map_singleton, List.intercalate_singleton]

/-- Colons stand between the slots of a group. -/
theorem groupChars_cons (v w : Option Nat) (vs : List (Option Nat)) :
    groupChars (v :: w :: vs) = slotChars v ++ ':' :: groupChars (w :: vs) := by
  rw [groupChars, List.map_cons, List.map_cons, List.intercalate_cons_cons, List.append_assoc,
    List.singleton_append]
  rfl

/-- The text of parameters has semicolons between its groups. -/
theorem toList_text (p : Params) :
    p.text.toList = [';'].intercalate (p.groups.map groupChars) := by
  have hslot : ∀ v : Option Nat,
      ((v.map fun n => String.ofList (Numeral.decimal n)).getD "").toList = slotChars v := by
    intro v
    cases v with
    | none => rfl
    | some n => exact String.toList_ofList
  have hgroup : ∀ group, (Params.groupText group).toList = groupChars group := by
    intro group
    rw [Params.groupText, String.toList_intercalate, List.map_map, groupChars]
    exact congrArg _ (List.map_congr_left fun v _ => hslot v)
  rw [Params.text, String.toList_intercalate, List.map_map]
  exact congrArg _ (List.map_congr_left fun group _ => hgroup group)

/-- What stands in an interspersed list stands in one of its parts, or between them. -/
theorem mem_intercalate {α : Type} {a : α} {sep : List α} {parts : List (List α)}
    (h : a ∈ sep.intercalate parts) : a ∈ sep ∨ ∃ part ∈ parts, a ∈ part := by
  induction parts with
  | nil => exact absurd h List.not_mem_nil
  | cons part parts ih =>
      cases parts with
      | nil =>
          rw [List.intercalate_singleton] at h
          exact Or.inr ⟨part, List.mem_cons_self, h⟩
      | cons next parts =>
          rw [List.intercalate_cons_cons, List.append_assoc] at h
          rcases List.mem_append.mp h with h | h
          · exact Or.inr ⟨part, List.mem_cons_self, h⟩
          rcases List.mem_append.mp h with h | h
          · exact Or.inl h
          rcases ih h with h | ⟨other, hother, h⟩
          · exact Or.inl h
          · exact Or.inr ⟨other, List.mem_cons_of_mem part hother, h⟩

/-- The text of parameters is of digits, colons and semicolons. -/
theorem toNat_of_mem_text {p : Params} {c : Char} (h : c ∈ p.text.toList) :
    0x30 ≤ c.toNat ∧ c.toNat ≤ 0x3B := by
  rw [toList_text] at h
  rcases mem_intercalate h with h | ⟨chars, hchars, h⟩
  · rw [List.mem_singleton.mp h]
    decide
  obtain ⟨group, -, rfl⟩ := List.mem_map.mp hchars
  rcases mem_intercalate h with h | ⟨slot, hslot, h⟩
  · rw [List.mem_singleton.mp h]
    decide
  obtain ⟨v, -, rfl⟩ := List.mem_map.mp hslot
  cases v with
  | none => exact absurd h List.not_mem_nil
  | some n =>
      have hdigit := Numeral.toNat_of_mem_decimal h
      omega

/-- How long an interspersed list is, if its parts are not too long: one more for each part covers
    what stands between. -/
theorem length_intercalate_le {α : Type} (sep : α) {parts : List (List α)} {k : Nat}
    (h : ∀ part ∈ parts, part.length ≤ k) :
    ([sep].intercalate parts).length ≤ parts.length * (k + 1) := by
  induction parts with
  | nil => exact Nat.zero_le _
  | cons part parts ih =>
      have hpart := h part List.mem_cons_self
      have hrest := ih fun other hother => h other (List.mem_cons_of_mem part hother)
      rw [List.length_cons, Nat.add_mul]
      cases parts with
      | nil =>
          rw [List.intercalate_singleton]
          omega
      | cons next parts =>
          rw [List.intercalate_cons_cons, List.length_append, List.length_append,
            List.length_singleton]
          omega

/-- The text of parameters is not long. -/
theorem length_text_le {p : Params} (hp : p.Canonical) :
    p.text.toList.length ≤ Params.maxGroups * (Params.maxSlots * 6 + 1) := by
  have hgroup : ∀ chars ∈ p.groups.map groupChars, chars.length ≤ Params.maxSlots * 6 := by
    intro chars hchars
    obtain ⟨group, hgroup, rfl⟩ := List.mem_map.mp hchars
    have hcanonical := hp.each group hgroup
    have hslot : ∀ slot ∈ group.map slotChars, slot.length ≤ 5 := by
      intro slot hslot
      obtain ⟨v, hv, rfl⟩ := List.mem_map.mp hslot
      cases v with
      | none => exact Nat.zero_le _
      | some n => exact Numeral.length_decimal_le (hcanonical.value_le _ hv n rfl)
    have hlength := length_intercalate_le ':' hslot
    rw [List.length_map] at hlength
    exact Nat.le_trans hlength (Nat.mul_le_mul_right 6 hcanonical.length_le)
  have hlength := length_intercalate_le ';' hgroup
  rw [List.length_map] at hlength
  rw [toList_text]
  exact Nat.le_trans hlength (Nat.mul_le_mul_right _ hp.length_le)

/-- The character of a digit is read as that digit. -/
theorem readChar?_digit (r : ParamReader) {d : Nat} (hd : d < 10) :
    r.readChar? (Nat.digitChar d) = some (r.digit d) := by
  have hcode : (UInt8.ofNat (Nat.digitChar d).toNat).toNat = 48 + d := by
    rw [Nat.toNat_digitChar_of_lt_ten hd, UInt8.toNat_ofNat']
    omega
  rw [readChar?, Decoder.readParameter?]
  generalize UInt8.ofNat (Nat.digitChar d).toNat = b at hcode
  have hdigit : Byte.isDigit b = true := by
    rw [Byte.isDigit, Bool.and_eq_true, decide_eq_true_eq, decide_eq_true_eq,
      UInt8.le_iff_toNat_le, UInt8.le_iff_toNat_le, hcode]
    exact ⟨Nat.le_add_right 48 d, show 48 + d ≤ 57 by omega⟩
  rw [if_pos hdigit, hcode, Nat.add_sub_cancel_left]

theorem readChar?_colon (r : ParamReader) : r.readChar? ':' = some r.closeSlot := rfl

theorem readChar?_semicolon (r : ParamReader) : r.readChar? ';' = some r.closeGroup := rfl

/-- A slot that is open fills with the value that its text stands for. -/
theorem read_slot {r : ParamReader} (hr : r.value = none) {v : Option Nat}
    (hv : ∀ n ∈ v, n ≤ Params.maxValue) :
    (slotChars v).foldlM readChar? r
      = some { r with value := v, started := r.started || v.isSome } := by
  cases v with
  | none =>
      show some r = some { r with value := none, started := r.started || false }
      rw [Bool.or_false]
      cases r
      cases hr
      rfl
  | some n =>
      have hread : (Numeral.decimal n).foldlM readChar? r
          = some { r with value := some n, started := true } := by
        refine Numeral.foldlM_decimal
          (fun m => { r with value := some m, started := true }) ?_ ?_ n (hv n rfl)
        · intro d hd hle
          rw [readChar?_digit r hd, digit, hr, Option.getD_none, Nat.zero_mul, Nat.zero_add,
            Nat.min_eq_left hle]
        · intro m d hd hle
          rw [readChar?_digit _ hd, digit, Option.getD_some, Nat.min_eq_left hle]
      rw [Option.isSome_some, Bool.or_true]
      exact hread

/-- A group is read behind the slots that are closed already.  All that later steps depend on is
    the open group that it makes, and whether the string has begun. -/
theorem read_group {r : ParamReader} (hr : r.value = none) {v : Option Nat}
    {vs : List (Option Nat)} (hlength : r.slots.length + (v :: vs).length ≤ Params.maxSlots)
    (hvalue : ∀ w ∈ v :: vs, ∀ n ∈ w, n ≤ Params.maxValue) :
    ∃ r', (groupChars (v :: vs)).foldlM readChar? r = some r' ∧ r'.groups = r.groups ∧
      r'.openGroup = r.slots ++ v :: vs ∧
      r'.started = (r.started || decide (v :: vs ≠ [none])) := by
  induction vs generalizing r v with
  | nil =>
      rw [List.length_singleton] at hlength
      refine ⟨{ r with value := v, started := r.started || v.isSome }, ?_, rfl, ?_, ?_⟩
      · rw [groupChars_singleton]
        exact read_slot hr (hvalue v List.mem_cons_self)
      · rw [openGroup]
        exact if_pos hlength
      · cases v with
        | none => exact congrArg (r.started || ·) (decide_eq_false (fun h => h rfl)).symm
        | some n => exact congrArg (r.started || ·) (decide_eq_true nofun).symm
  | cons w vs ih =>
      rw [List.length_cons] at hlength
      have hroom : r.slots.length < Params.maxSlots := by omega
      have hslot := read_slot hr (hvalue v List.mem_cons_self)
      have hclose := readChar?_colon { r with value := v, started := r.started || v.isSome }
      have hopen : ({ r with value := v, started := r.started || v.isSome } : ParamReader).openGroup
          = r.slots ++ [v] := if_pos hroom
      rw [closeSlot, hopen] at hclose
      -- behind the colon the slot is closed, and the next one open and empty
      obtain ⟨r', hread, hgroups, hgroup, hstarted⟩ :=
        ih (r := { r with slots := r.slots ++ [v], value := none, started := true }) rfl
          (by rw [List.length_append, List.length_singleton]; omega)
          fun u hu => hvalue u (List.mem_cons_of_mem v hu)
      refine ⟨r', ?_, hgroups, ?_, ?_⟩
      · rw [groupChars_cons, List.foldlM_append, hslot]
        show List.foldlM readChar? _ (':' :: groupChars (w :: vs)) = _
        rw [List.foldlM_cons, hclose]
        exact hread
      · rw [hgroup, List.append_assoc, List.singleton_append]
      · rw [hstarted, Bool.true_or]
        exact (Bool.or_eq_true_iff.mpr (Or.inr (decide_eq_true nofun))).symm

/-- Groups are read behind those that are closed already. -/
theorem read_groups {r : ParamReader} (hvalue : r.value = none) (hslots : r.slots = [])
    {group : List (Option Nat)} {groups : List (List (Option Nat))}
    (hlength : r.groups.length + (group :: groups).length ≤ Params.maxGroups)
    (heach : ∀ g ∈ group :: groups, Params.CanonicalGroup g) :
    ∃ r', ([';'].intercalate ((group :: groups).map groupChars)).foldlM readChar? r = some r' ∧
      r'.allGroups = r.groups ++ group :: groups ∧
      r'.started = (r.started || decide (group :: groups ≠ [[none]])) := by
  induction groups generalizing r group with
  | nil =>
      have hgroup := heach group List.mem_cons_self
      obtain ⟨v, vs, rfl⟩ := List.exists_cons_of_ne_nil hgroup.ne_nil
      obtain ⟨r', hread, hgroups, hopen, hstarted⟩ :=
        read_group hvalue (by rw [hslots]; simpa using hgroup.length_le) hgroup.value_le
      rw [List.length_singleton] at hlength
      rw [hslots, List.nil_append] at hopen
      refine ⟨r', ?_, ?_, ?_⟩
      · rw [List.map_singleton, List.intercalate_singleton]
        exact hread
      · rw [allGroups, hgroups, hopen]
        exact if_pos hlength
      · rw [hstarted]
        simp
  | cons second groups ih =>
      have hgroup := heach group List.mem_cons_self
      obtain ⟨v, vs, rfl⟩ := List.exists_cons_of_ne_nil hgroup.ne_nil
      obtain ⟨r1, hread1, hgroups1, hopen1, -⟩ :=
        read_group hvalue (by rw [hslots]; simpa using hgroup.length_le) hgroup.value_le
      rw [List.length_cons] at hlength
      rw [hslots, List.nil_append] at hopen1
      have hclose : r1.closeGroup = { groups := r.groups ++ [v :: vs], started := true } := by
        have hroom : r1.groups.length < Params.maxGroups := by
          rw [hgroups1]
          omega
        rw [closeGroup, allGroups, if_pos hroom, hgroups1, hopen1]
      -- behind the semicolon nothing is left of how the groups before were read
      obtain ⟨r', hread, hgroups, hstarted⟩ :=
        ih (r := { groups := r.groups ++ [v :: vs], started := true }) rfl rfl
          (by rw [List.length_append, List.length_singleton]; omega)
          fun g hg => heach g (List.mem_cons_of_mem _ hg)
      refine ⟨r', ?_, ?_, ?_⟩
      · rw [List.map_cons, List.map_cons, List.intercalate_cons_cons, List.append_assoc,
          List.foldlM_append, hread1]
        show List.foldlM readChar? r1 (';' :: [';'].intercalate ((second :: groups).map groupChars))
          = _
        rw [List.foldlM_cons, readChar?_semicolon, hclose]
        exact hread
      · rw [hgroups, List.append_assoc, List.singleton_append]
      · rw [hstarted, Bool.true_or]
        exact (Bool.or_eq_true_iff.mpr (Or.inr (decide_eq_true nofun))).symm

/-- **Parameters come back from their text.** -/
theorem read_text {p : Params} (hp : p.Canonical) :
    ∃ r, p.text.toList.foldlM readChar? {} = some r ∧ r.params = p := by
  rw [toList_text]
  obtain ⟨groups⟩ := p
  cases groups with
  | nil => exact ⟨{}, rfl, rfl⟩
  | cons group groups =>
      obtain ⟨r, hread, hgroups, hstarted⟩ :=
        read_groups (r := {}) rfl rfl (by simpa using hp.length_le) hp.each
      refine ⟨r, hread, ?_⟩
      -- the one string of groups that is not begun is the blank one
      have hbegun : r.started = true := by
        rw [hstarted]
        exact decide_eq_true hp.not_blank
      rw [params, finish, if_pos hbegun]
      exact congrArg Params.mk hgroups

end ParamReader

end VideoTerminal
