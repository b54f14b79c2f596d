import Mathlib.Data.List.TakeDrop
import VideoTerminal.Text.Field
import VideoTerminal.Text.Numeral

/-!
# Numerals and fields read back

A number is read from its numeral, and a field from a text in which a separator ends it.
-/

namespace VideoTerminal

/-! ## Fields -/

namespace Field

/-- A run of characters ends where one follows that does not belong to it. -/
theorem span_append {p : Char → Bool} {run rest : List Char} (hrun : ∀ c ∈ run, p c = true)
    (hrest : ∀ c ∈ rest.head?, p c = false) : (run ++ rest).span p = (run, rest) := by
  rw [List.span_eq_takeWhile_dropWhile, List.takeWhile_append_of_pos hrun,
    List.dropWhile_append_of_pos hrun]
  cases rest with
  | nil => rw [List.takeWhile_nil, List.dropWhile_nil, List.append_nil]
  | cons c rest =>
      have hc : ¬p c = true := Bool.eq_false_iff.mp (hrest c rfl)
      rw [List.takeWhile_cons_of_neg hc, List.dropWhile_cons_of_neg hc, List.append_nil]

theorem splitFirst?_of_not_mem {sep : Char} {head rest : List Char} (h : sep ∉ head) :
    splitFirst? sep (head ++ sep :: rest) = some (head, rest) := by
  have hall : ∀ c ∈ head, (c != sep) = true := by
    intro c hc
    rw [bne_iff_ne]
    rintro rfl
    exact h hc
  have hsep : ∀ c ∈ (sep :: rest).head?, (c != sep) = false := by
    intro c hc
    rw [← Option.some.inj hc, bne_self_eq_false]
  rw [splitFirst?, span_append hall hsep]

/-- The two fields and the separator between them make up the text. -/
theorem eq_append_of_splitFirst? {sep : Char} {cs head rest : List Char}
    (h : splitFirst? sep cs = some (head, rest)) : cs = head ++ sep :: rest := by
  rw [splitFirst?, List.span_eq_takeWhile_dropWhile] at h
  split at h
  · exact absurd h nofun
  · next first second third hspan =>
    obtain ⟨htake, hdrop⟩ := Prod.mk.inj hspan
    obtain ⟨rfl, rfl⟩ := Prod.mk.inj (Option.some.inj h)
    have hsep := List.head?_dropWhile_not (· != sep) cs
    rw [hdrop] at hsep
    have hsecond : second = sep := by simpa using hsep
    rw [← hsecond, ← hdrop, ← htake, List.takeWhile_append_dropWhile]

theorem mem_of_splitFirst? {sep : Char} {cs head rest : List Char}
    (h : splitFirst? sep cs = some (head, rest)) {c : Char} (hc : c ∈ rest) : c ∈ cs := by
  rw [eq_append_of_splitFirst? h]
  exact List.mem_append_right _ (List.mem_cons_of_mem _ hc)

/-- What stands behind the first separator, or nothing if there is none, comes from the text. -/
theorem mem_of_splitFirst?_getD {sep : Char} {cs head rest : List Char}
    (h : (splitFirst? sep cs).getD (cs, []) = (head, rest)) {c : Char} (hc : c ∈ rest) :
    c ∈ cs := by
  cases hfirst : splitFirst? sep cs with
  | none =>
      rw [hfirst] at h
      rw [← (Prod.mk.inj h).2] at hc
      exact absurd hc List.not_mem_nil
  | some parts =>
      rw [hfirst] at h
      exact mem_of_splitFirst? (hfirst.trans (congrArg some h)) hc

theorem all_of_not_mem {sep : Char} {cs : List Char} (h : sep ∉ cs) : all sep cs = [cs] := by
  induction cs with
  | nil => rfl
  | cons c cs ih =>
      rw [List.mem_cons, not_or] at h
      have hrest := ih h.2
      rw [all] at hrest ⊢
      rw [List.foldr_cons, hrest, if_neg (Ne.symm h.1), prepend]

/-- A field ends at the first separator. -/
theorem all_append {sep : Char} {cs : List Char} (h : sep ∉ cs) (rest : List Char) :
    all sep (cs ++ sep :: rest) = cs :: all sep rest := by
  induction cs with
  | nil => exact if_pos rfl
  | cons c cs ih =>
      rw [List.mem_cons, not_or] at h
      have hrest := ih h.2
      rw [all] at hrest ⊢
      rw [List.cons_append, List.foldr_cons, hrest, if_neg (Ne.symm h.1), prepend]

/-- What stands behind a beginning makes up the text together with it. -/
theorem after?_eq_some_iff {start cs rest : List Char} :
    after? start cs = some rest ↔ cs = start ++ rest := by
  induction start generalizing cs with
  | nil => exact ⟨fun h => Option.some.inj h, fun h => congrArg some h⟩
  | cons a start ih =>
      cases cs with
      | nil => exact ⟨nofun, nofun⟩
      | cons c cs =>
          rw [after?, List.cons_append, List.cons.injEq]
          split
          · rename_i hc
            rw [ih, hc, eq_self, true_and]
          · rename_i hc
            exact ⟨nofun, fun h => absurd h.1.symm hc⟩

end Field

/-! ## Numerals -/

namespace Numeral

/-- A reader that goes from `n` to `n * 10 + d` with each digit `d` has the number behind its
    numeral.  The bound is one that the reader may need, since no digit passes it. -/
theorem foldlM_decimal {σ : Type} {f : σ → Char → Option σ} {s : σ} {bound : Nat} (value : Nat → σ)
    (hfirst : ∀ d, d < 10 → d ≤ bound → f s (Nat.digitChar d) = some (value d))
    (hnext : ∀ n d, d < 10 → n * 10 + d ≤ bound →
      f (value n) (Nat.digitChar d) = some (value (n * 10 + d)))
    (n : Nat) (hn : n ≤ bound) : (decimal n).foldlM f s = some (value n) := by
  induction n using Nat.strongRecOn with
  | ind n ih =>
      rw [decimal, Nat.toDigits_eq_if (by decide)]
      by_cases hdigit : n < 10
      · rw [if_pos hdigit, List.foldlM_cons, hfirst n hdigit hn]
        rfl
      · have hread : (Nat.toDigits 10 (n / 10)).foldlM f s = some (value (n / 10)) :=
          ih (n / 10) (by omega) (by omega)
        have hsplit : n / 10 * 10 + n % 10 = n := by omega
        have hlast := hnext (n / 10) (n % 10) (by omega) (by omega)
        rw [hsplit] at hlast
        rw [if_neg hdigit, List.foldlM_append, hread]
        show (List.foldlM f (value (n / 10)) [Nat.digitChar (n % 10)]) = _
        rw [List.foldlM_cons, hlast]
        rfl

theorem toNat_of_mem_decimal {n : Nat} {c : Char} (h : c ∈ decimal n) :
    48 ≤ c.toNat ∧ c.toNat ≤ 57 := by
  have hdigit : c.isDigit = true := Nat.isDigit_of_mem_toDigits (by decide) (by decide) h
  rw [Char.isDigit, Bool.and_eq_true, decide_eq_true_eq, decide_eq_true_eq] at hdigit
  exact hdigit

theorem decimalDigit?_digitChar {d : Nat} (hd : d < 10) :
    decimalDigit? (Nat.digitChar d) = some d := by
  have hcode := Nat.toNat_digitChar_of_lt_ten hd
  have hdigit : '0' ≤ Nat.digitChar d ∧ Nat.digitChar d ≤ '9' :=
    ⟨show 48 ≤ (Nat.digitChar d).toNat by omega, show (Nat.digitChar d).toNat ≤ 57 by omega⟩
  rw [decimalDigit?, if_pos hdigit, hcode, Nat.add_sub_cancel_left]

theorem extend_digitChar {bound n d : Nat} (hd : d < 10) (hle : n * 10 + d ≤ bound) :
    extend decimalDigit? 10 bound n (Nat.digitChar d) = some (n * 10 + d) := by
  rw [extend, decimalDigit?_digitChar hd]
  exact if_pos hle

theorem decimal_ne_nil (n : Nat) : decimal n ≠ [] := Nat.toDigits_ne_nil

/-- A numeral has nothing but digits. -/
theorem isSome_of_mem_decimal {n : Nat} {c : Char} (h : c ∈ decimal n) :
    (decimalDigit? c).isSome = true := by
  obtain ⟨hlo, hhi⟩ := toNat_of_mem_decimal h
  have hdigit : '0' ≤ c ∧ c ≤ '9' := ⟨hlo, hhi⟩
  rw [decimalDigit?, if_pos hdigit, Option.isSome_some]

theorem ne_of_mem_decimal {n : Nat} {c d : Char} (h : c ∈ decimal n)
    (hd : decimalDigit? d = none) : c ≠ d := by
  rintro rfl
  exact absurd (hd ▸ isSome_of_mem_decimal h) nofun

/-- Only the numeral of zero begins with a zero. -/
theorem eq_zero_of_head?_decimal {n : Nat} (h : (decimal n).head? = some '0') : n = 0 := by
  induction n using Nat.strongRecOn with
  | ind n ih =>
      rw [decimal, Nat.toDigits_eq_if (by decide)] at h
      by_cases hdigit : n < 10
      · rw [if_pos hdigit] at h
        have hcode := Nat.toNat_digitChar_of_lt_ten hdigit
        have hchar : '0'.toNat = 48 := rfl
        rw [Option.some.inj h] at hcode
        omega
      · obtain ⟨c, cs, hsplit⟩ := List.exists_cons_of_ne_nil (decimal_ne_nil (n / 10))
        rw [decimal] at hsplit
        rw [if_neg hdigit, hsplit] at h
        have hzero := ih (n / 10) (by omega) (by rw [decimal, hsplit]; exact h)
        omega

/-- A number that keeps to the bound is read from its digits. -/
theorem ofDigits?_decimal {bound n : Nat} (hn : n ≤ bound) :
    ofDigits? decimalDigit? 10 bound (decimal n) = some n := by
  have hread : (decimal n).foldlM (extend decimalDigit? 10 bound) 0 = some n := by
    refine foldlM_decimal (fun m => m) ?_ ?_ n hn
    · intro d hd hle
      have hfirst : extend decimalDigit? 10 bound 0 (Nat.digitChar d) = some (0 * 10 + d) :=
        extend_digitChar hd (by omega)
      rw [hfirst, Nat.zero_mul, Nat.zero_add]
    · intro m d hd hle
      exact extend_digitChar hd hle
  obtain ⟨c, cs, hsplit⟩ := List.exists_cons_of_ne_nil (decimal_ne_nil n)
  rw [hsplit] at hread ⊢
  exact hread

/-- A number that keeps to the bound is read from its numeral. -/
theorem decimal?_decimal {bound n : Nat} (hn : n ≤ bound) :
    decimal? bound (decimal n) = some n := by
  -- a numeral begins with a digit, so no sign is dropped
  have hplus : dropPlus (decimal n) = decimal n := by
    rw [dropPlus]
    intro rest heq
    exact ne_of_mem_decimal (heq ▸ List.mem_cons_self) rfl rfl
  rw [decimal?, hplus, ofDigits?_decimal hn]

theorem extend_le {digit? : Char → Option Nat} {base bound m k : Nat} {c : Char}
    (h : extend digit? base bound m c = some k) : k ≤ bound := by
  rw [extend, Option.bind_eq_bind, Option.bind_eq_some_iff] at h
  obtain ⟨d, -, h⟩ := h
  obtain ⟨hle, h⟩ := Option.ite_none_right_eq_some.mp h
  exact Option.some.inj h ▸ hle

/-- A number that is read keeps to the bound. -/
theorem ofDigits?_le {digit? : Char → Option Nat} {base bound n : Nat} {cs : List Char}
    (h : ofDigits? digit? base bound cs = some n) : n ≤ bound := by
  have hfold : ∀ {ds : List Char} {m k : Nat}, m ≤ bound →
      ds.foldlM (extend digit? base bound) m = some k → k ≤ bound := by
    intro ds
    induction ds with
    | nil =>
        intro m k hm hk
        exact Option.some.inj hk ▸ hm
    | cons d ds ih =>
        intro m k hm hk
        rw [List.foldlM_cons, Option.bind_eq_bind, Option.bind_eq_some_iff] at hk
        obtain ⟨l, hl, hk⟩ := hk
        exact ih (extend_le hl) hk
  cases cs with
  | nil => exact absurd h nofun
  | cons c cs => exact hfold (Nat.zero_le bound) h

/-- What a number is read from has nothing but digits. -/
theorem isSome_of_mem_ofDigits? {digit? : Char → Option Nat} {base bound n : Nat} {cs : List Char}
    (h : ofDigits? digit? base bound cs = some n) {c : Char} (hc : c ∈ cs) :
    (digit? c).isSome = true := by
  have hfold : ∀ {ds : List Char} {m : Nat}, ds.foldlM (extend digit? base bound) m = some n →
      ∀ d ∈ ds, (digit? d).isSome = true := by
    intro ds
    induction ds with
    | nil => exact fun _ _ hd => absurd hd List.not_mem_nil
    | cons d ds ih =>
        intro m hm
        rw [List.foldlM_cons, Option.bind_eq_bind, Option.bind_eq_some_iff] at hm
        obtain ⟨k, hk, hrest⟩ := hm
        obtain ⟨v, hv, -⟩ := Option.bind_eq_some_iff.mp hk
        exact List.forall_mem_cons.mpr ⟨Option.isSome_of_eq_some hv, ih hrest⟩
  cases cs with
  | nil => exact absurd hc List.not_mem_nil
  | cons c cs => exact hfold h _ hc

/-! ### Which texts are numerals -/

section Readable

variable {digit? : Char → Option Nat} {base bound : Nat}

/-- A number with one more digit behind it. -/
def withDigitOf (digit? : Char → Option Nat) (base n : Nat) (c : Char) : Nat :=
  n * base + (digit? c).getD 0

theorem extend_eq_some_iff {m n : Nat} {c : Char} :
    extend digit? base bound m c = some n
      ↔ (digit? c).isSome = true ∧ withDigitOf digit? base m c = n ∧ n ≤ bound := by
  rw [extend, withDigitOf]
  cases digit? c with
  | none => simp
  | some d =>
      rw [Option.bind_eq_bind, Option.bind_some, Option.isSome_some, Option.getD_some,
        Option.ite_none_right_eq_some, Option.some_inj]
      constructor
      · rintro ⟨hle, rfl⟩
        exact ⟨rfl, rfl, hle⟩
      · rintro ⟨-, rfl, hle⟩
        exact ⟨hle, rfl⟩

theorem le_foldl_withDigitOf (hbase : 0 < base) (m : Nat) (cs : List Char) :
    m ≤ cs.foldl (withDigitOf digit? base) m := by
  induction cs generalizing m with
  | nil => exact Nat.le_refl m
  | cons c cs ih =>
      refine Nat.le_trans ?_ (ih (withDigitOf digit? base m c))
      exact Nat.le_trans (Nat.le_mul_of_pos_right m hbase) (Nat.le_add_right _ _)

/-- Digits make a number no smaller, so all of it keeps to the bound if it does at the end. -/
theorem foldlM_extend_eq_some_iff (hbase : 0 < base) {m n : Nat} {cs : List Char}
    (hm : m ≤ bound) :
    cs.foldlM (extend digit? base bound) m = some n
      ↔ (∀ c ∈ cs, (digit? c).isSome = true) ∧ cs.foldl (withDigitOf digit? base) m = n ∧
        n ≤ bound := by
  induction cs generalizing m with
  | nil =>
      rw [List.foldlM_nil, List.foldl_nil]
      constructor
      · intro h
        obtain rfl := Option.some.inj h
        exact ⟨List.forall_mem_nil _, rfl, hm⟩
      · rintro ⟨-, rfl, -⟩
        rfl
  | cons c cs ih =>
      rw [List.foldlM_cons, Option.bind_eq_bind, Option.bind_eq_some_iff, List.forall_mem_cons,
        List.foldl_cons]
      constructor
      · rintro ⟨k, hk, hrest⟩
        obtain ⟨hdigit, rfl, hle⟩ := extend_eq_some_iff.mp hk
        obtain ⟨heach, hvalue, hbound⟩ := (ih hle).mp hrest
        exact ⟨⟨hdigit, heach⟩, hvalue, hbound⟩
      · rintro ⟨⟨hdigit, heach⟩, hvalue, hbound⟩
        have hle := Nat.le_trans (le_foldl_withDigitOf hbase _ cs) (hvalue ▸ hbound)
        exact ⟨_, extend_eq_some_iff.mpr ⟨hdigit, rfl, hle⟩, (ih hle).mpr ⟨heach, hvalue, hbound⟩⟩

/-- A number is read from one digit or more and nothing else, if it keeps to the bound. -/
theorem ofDigits?_eq_some_iff (hbase : 0 < base) {n : Nat} {cs : List Char} :
    ofDigits? digit? base bound cs = some n
      ↔ (cs ≠ [] ∧ (∀ c ∈ cs, (digit? c).isSome = true) ∧
        cs.foldl (withDigitOf digit? base) 0 = n) ∧ n ≤ bound := by
  cases cs with
  | nil =>
      constructor
      · intro h
        cases h
      · rintro ⟨⟨hnonempty, -⟩, -⟩
        exact absurd rfl hnonempty
  | cons c cs =>
      rw [ofDigits?, foldlM_extend_eq_some_iff hbase (Nat.zero_le bound)]
      constructor
      · rintro ⟨heach, hvalue, hle⟩
        exact ⟨⟨List.cons_ne_nil _ _, heach, hvalue⟩, hle⟩
      · rintro ⟨⟨-, heach, hvalue⟩, hle⟩
        exact ⟨heach, hvalue, hle⟩

theorem dropPlus_of_not_mem {cs : List Char} (h : '+' ∉ cs) : dropPlus cs = cs := by
  rw [dropPlus]
  rintro ds rfl
  exact h List.mem_cons_self

end Readable

/-- A text of one decimal digit or more, with at most one plus sign in front of them, and the number
    that the digits stand for. -/
def IsDecimal (cs : List Char) (n : Nat) : Prop :=
  ∃ digits, (cs = digits ∨ cs = '+' :: digits) ∧ digits ≠ [] ∧
    (∀ c ∈ digits, c.isDigit = true) ∧ Nat.ofDigitChars 10 digits 0 = n

theorem isSome_decimalDigit? (c : Char) : (decimalDigit? c).isSome = c.isDigit := by
  have hclass : ('0' ≤ c ∧ c ≤ '9') ↔ c.isDigit = true := by
    rw [Char.isDigit, Bool.and_eq_true, decide_eq_true_eq, decide_eq_true_eq]
    rfl
  rw [decimalDigit?]
  split
  · next h => rw [Option.isSome_some, hclass.mp h]
  · next h => rw [Option.isSome_none, Bool.eq_false_iff.mpr fun hc => h (hclass.mpr hc)]

theorem foldl_withDigitOf_decimal {cs : List Char} (h : ∀ c ∈ cs, c.isDigit = true) (m : Nat) :
    cs.foldl (withDigitOf decimalDigit? 10) m = Nat.ofDigitChars 10 cs m := by
  induction cs generalizing m with
  | nil => rfl
  | cons c cs ih =>
      obtain ⟨hc, hcs⟩ := List.forall_mem_cons.mp h
      have hdigit : '0' ≤ c ∧ c ≤ '9' := by
        rw [Char.isDigit, Bool.and_eq_true, decide_eq_true_eq, decide_eq_true_eq] at hc
        exact hc
      have hfirst : withDigitOf decimalDigit? 10 m c = 10 * m + (c.toNat - '0'.toNat) := by
        rw [withDigitOf, decimalDigit?, if_pos hdigit, Option.getD_some, Nat.mul_comm]
        rfl
      rw [List.foldl_cons, hfirst, ih hcs]
      rfl

/-- **A decimal numeral** is digits with at most one sign, as far as the bound goes. -/
theorem decimal?_eq_some_iff {bound n : Nat} {cs : List Char} :
    decimal? bound cs = some n ↔ IsDecimal cs n ∧ n ≤ bound := by
  have hdigits (digits : List Char) : ofDigits? decimalDigit? 10 bound digits = some n ↔
      (digits ≠ [] ∧ (∀ c ∈ digits, c.isDigit = true) ∧ Nat.ofDigitChars 10 digits 0 = n) ∧
        n ≤ bound := by
    rw [ofDigits?_eq_some_iff (by decide)]
    simp only [isSome_decimalDigit?]
    refine and_congr_left fun _ => and_congr_right fun _ => and_congr_right fun heach => ?_
    rw [foldl_withDigitOf_decimal heach]
  rw [decimal?]
  constructor
  · intro h
    obtain ⟨hread, hle⟩ := (hdigits _).mp h
    refine ⟨⟨dropPlus cs, ?_, hread⟩, hle⟩
    rw [dropPlus.eq_def]
    split
    · exact .inr rfl
    · exact .inl rfl
  · rintro ⟨⟨digits, hcs, hread⟩, hle⟩
    have hplus : '+' ∉ digits := fun hmem => absurd (hread.2.1 _ hmem) (by decide)
    have hdrop : dropPlus cs = digits := by
      rcases hcs with rfl | rfl
      · exact dropPlus_of_not_mem hplus
      · rfl
    rw [hdrop]
    exact (hdigits digits).mpr ⟨hread, hle⟩

theorem hexDigit?_hexDigit {d : Nat} (hd : d < 16) : hexDigit? (hexDigit d) = some d := by
  revert d
  decide

theorem extend_hexDigit {bound n d : Nat} (hd : d < 16) (hle : n * 16 + d ≤ bound) :
    extend hexDigit? 16 bound n (hexDigit d) = some (n * 16 + d) := by
  rw [extend, hexDigit?_hexDigit hd]
  exact if_pos hle

theorem hexDigit_ne {c : Char} (hc : hexDigit? c = none) {d : Nat} (hd : d < 16) :
    hexDigit d ≠ c := by
  rintro rfl
  exact absurd ((hexDigit?_hexDigit hd).symm.trans hc) nofun

/-- A number of four digits is read from these. -/
theorem hex?_hex4 {bound n : Nat} (hn : n < 65536) (hbound : n ≤ bound) :
    hex? bound (hex4 n) = some n := by
  have hplus : dropPlus (hex4 n) = hex4 n := by
    rw [dropPlus]
    intro rest heq
    exact hexDigit_ne (by decide) (Nat.mod_lt _ (by decide)) (List.cons.inj heq).1
  have hvalue : (((0 * 16 + n / 4096 % 16) * 16 + n / 256 % 16) * 16 + n / 16 % 16) * 16 + n % 16
      = n := by
    omega
  have hread : (hex4 n).foldlM (extend hexDigit? 16 bound) 0 = some n := by
    rw [hex4]
    simp (disch := omega) only [List.foldlM_cons, extend_hexDigit, Option.bind_eq_bind,
      Option.bind_some, List.foldlM_nil, hvalue]
    rfl
  rw [hex?, hplus]
  exact hread

end Numeral

end VideoTerminal
