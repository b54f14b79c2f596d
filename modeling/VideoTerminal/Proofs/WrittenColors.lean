import Mathlib.Data.List.Basic
import VideoTerminal.Proofs.CheckedColors
import VideoTerminal.Proofs.Numerals

/-!
# Which texts are colors

A color is written as six hexadecimal digits behind a number sign, or as three fractions of one to
four digits each between slashes, behind `rgb:`.  What a reader takes for the digits is left open
here, as a relation between texts and numbers; so the two forms are stated once (`Rgb.Written`).

Colors are read with a reader of numerals, and a numeral may have a plus sign in front.  So the
texts that are read are those of the two forms with such signs, of which each counts as a digit for
the length; and the forms proper are the texts among them without a plus sign.
-/

namespace VideoTerminal

/-! ## Numerals -/

namespace Numeral

/-- A number with one more digit behind it. -/
def withDigit (n : Nat) (c : Char) : Nat := n * 16 + (hexDigit? c).getD 0

/-- The number that hexadecimal digits stand for. -/
def hexValue (cs : List Char) : Nat := cs.foldl withDigit 0

/-- The text has one hexadecimal digit or more and nothing else, and they stand for the number. -/
structure Digits (cs : List Char) (n : Nat) : Prop where
  nonempty : cs ≠ []
  each : ∀ c ∈ cs, (hexDigit? c).isSome = true
  value : hexValue cs = n

/-- The same with one plus sign in front, or none. -/
def SignedDigits (cs : List Char) (n : Nat) : Prop := Digits (dropPlus cs) n

/-- **A hexadecimal numeral** is digits with at most one sign, as far as the bound goes. -/
theorem hex?_eq_some_iff {bound n : Nat} {cs : List Char} :
    hex? bound cs = some n ↔ SignedDigits cs n ∧ n ≤ bound := by
  rw [hex?, SignedDigits, ofDigits?_eq_some_iff (by decide)]
  refine and_congr_left fun _ => ?_
  constructor
  · rintro ⟨hnonempty, heach, hvalue⟩
    exact ⟨hnonempty, heach, hvalue⟩
  · intro h
    exact ⟨h.nonempty, h.each, h.value⟩

variable {cs : List Char} {n : Nat}

theorem Digits.not_mem (h : Digits cs n) {c : Char} (hc : hexDigit? c = none) : c ∉ cs := by
  intro hmem
  exact absurd (hc ▸ h.each c hmem) nofun

/-- Digits alone are digits without a plus sign. -/
theorem digits_iff : Digits cs n ↔ SignedDigits cs n ∧ '+' ∉ cs := by
  constructor
  · intro h
    have hplus : '+' ∉ cs := h.not_mem rfl
    refine ⟨?_, hplus⟩
    rw [SignedDigits, dropPlus_of_not_mem hplus]
    exact h
  · rintro ⟨h, hplus⟩
    rw [SignedDigits, dropPlus_of_not_mem hplus] at h
    exact h

theorem SignedDigits.not_mem (h : SignedDigits cs n) {c : Char} (hc : hexDigit? c = none)
    (hplus : c ≠ '+') : c ∉ cs := by
  by_cases hsign : ∃ ds, cs = '+' :: ds
  · obtain ⟨ds, rfl⟩ := hsign
    rw [List.mem_cons, not_or]
    exact ⟨hplus, Digits.not_mem h hc⟩
  · rw [SignedDigits, dropPlus] at h
    · exact h.not_mem hc
    · exact fun ds hds => hsign ⟨ds, hds⟩

theorem SignedDigits.nonempty (h : SignedDigits cs n) : cs ≠ [] := by
  rintro rfl
  exact Digits.nonempty h rfl

/-- So many digits stand for less than the next power; a sign only makes them fewer. -/
theorem SignedDigits.lt (h : SignedDigits cs n) : n < 16 ^ cs.length :=
  (hex?_some (hex?_eq_some_iff.mpr ⟨h, Nat.le_refl n⟩)).2

end Numeral

/-! ## Fields -/

namespace Field

theorem all_ne_nil (sep : Char) (cs : List Char) : all sep cs ≠ [] := by
  cases cs with
  | nil => exact List.cons_ne_nil _ _
  | cons c cs =>
      rw [all, List.foldr_cons]
      split
      · exact List.cons_ne_nil _ _
      · rw [prepend.eq_def]
        split <;> exact List.cons_ne_nil _ _

/-- The fields of a text with the separator between them are the text. -/
theorem intercalate_all (sep : Char) (cs : List Char) : [sep].intercalate (all sep cs) = cs := by
  induction cs with
  | nil => rfl
  | cons c cs ih =>
      obtain ⟨f, fs, hfs⟩ := List.exists_cons_of_ne_nil (all_ne_nil sep cs)
      have hall : all sep (c :: cs) = if c = sep then [] :: f :: fs else (c :: f) :: fs := by
        show (if c = sep then [] :: all sep cs else prepend c (all sep cs)) = _
        rw [hfs, prepend]
      rw [hfs] at ih
      rw [hall]
      split
      · rename_i hc
        rw [List.intercalate_cons_cons, ih, hc]
        rfl
      · -- the character belongs to the first field, whether it is the only one or not
        rw [← ih]
        cases fs with
        | nil => rfl
        | cons g fs => rw [List.intercalate_cons_cons, List.intercalate_cons_cons]; rfl

end Field

/-! ## Colors -/

namespace Rgb

/-- Two characters that are read as a component. -/
def IsPair (Reads : List Char → Nat → Prop) (cs : List Char) (x : UInt8) : Prop :=
  cs.length = 2 ∧ Reads cs x.toNat

/-- At most four characters that are read as a number, and what the number is of the largest one
with as many digits, on a scale to 255. -/
def IsFraction (Reads : List Char → Nat → Prop) (cs : List Char) (x : UInt8) : Prop :=
  cs.length ≤ 4 ∧ ∃ v, Reads cs v ∧ x.toNat = v * 255 / (16 ^ cs.length - 1)

/-- The two forms of a written color, for a reader of numbers. -/
inductive Written (Reads : List Char → Nat → Prop) : List Char → Rgb → Prop where
  /-- Six characters behind a number sign, two for each component. -/
  | pairs {r g b : List Char} {c : Rgb} :
      IsPair Reads r c.red → IsPair Reads g c.green → IsPair Reads b c.blue →
      Written Reads ('#' :: (r ++ (g ++ b))) c
  /-- Three fractions with slashes between them. -/
  | fractions {r g b : List Char} {c : Rgb} :
      IsFraction Reads r c.red → IsFraction Reads g c.green → IsFraction Reads b c.blue →
      Written Reads (['r', 'g', 'b', ':'] ++ (r ++ '/' :: (g ++ '/' :: b))) c

open Numeral (Digits SignedDigits)

/-- The fraction is at most 255, so it is not cut to a byte. -/
theorem component?_eq_some_iff {cs : List Char} {x : UInt8} :
    component? cs = some x ↔ IsFraction SignedDigits cs x := by
  have hscale : ∀ {v : Nat}, SignedDigits cs v →
      (UInt8.ofNat (v * 255 / (16 ^ cs.length - 1))).toNat = v * 255 / (16 ^ cs.length - 1) := by
    intro v hv
    have hlt := hv.lt
    have hle : v * 255 / (16 ^ cs.length - 1) ≤ 255 :=
      Nat.div_le_of_le_mul (Nat.mul_le_mul_right 255 (by omega))
    rw [UInt8.toNat_ofNat']
    exact Nat.mod_eq_of_lt (Nat.lt_succ_of_le hle)
  have hread : ∀ {v : Nat}, cs.length ≤ 4 →
      (Numeral.hex? 4294967295 cs = some v ↔ SignedDigits cs v) := by
    intro v hlength
    rw [Numeral.hex?_eq_some_iff, and_iff_left_iff_imp]
    intro hv
    have hpower : 16 ^ cs.length ≤ 16 ^ 4 := Nat.pow_le_pow_right (by decide) hlength
    have hlt := hv.lt
    omega
  rw [component?, IsFraction]
  constructor
  · intro h
    split at h
    · cases h
    · rename_i hlength
      have hfour : cs.length ≤ 4 := by omega
      obtain ⟨v, hv, h⟩ := Option.bind_eq_some_iff.mp h
      have hdigits := (hread hfour).mp hv
      refine ⟨hfour, v, hdigits, ?_⟩
      rw [← Option.some.inj h]
      exact hscale hdigits
  · rintro ⟨hfour, v, hdigits, hx⟩
    have hpos : 0 < cs.length := List.length_pos_iff.mpr hdigits.nonempty
    rw [if_neg (by omega), (hread hfour).mpr hdigits]
    refine congrArg some (UInt8.toNat_inj.mp ?_)
    rw [hx]
    exact hscale hdigits

theorem map_hex?_eq_some_iff {cs : List Char} {x : UInt8} :
    (Numeral.hex? 255 cs).map UInt8.ofNat = some x ↔ SignedDigits cs x.toNat := by
  rw [Option.map_eq_some_iff]
  constructor
  · rintro ⟨v, hv, rfl⟩
    obtain ⟨hdigits, hle⟩ := Numeral.hex?_eq_some_iff.mp hv
    rw [UInt8.toNat_ofNat', Nat.mod_eq_of_lt (by omega)]
    exact hdigits
  · intro h
    exact ⟨x.toNat, Numeral.hex?_eq_some_iff.mpr ⟨h, Nat.le_of_lt_succ x.toNat_lt⟩,
      UInt8.ofNat_toNat⟩

theorem ofSixDigits?_eq_some_iff {cs : List Char} {c : Rgb} :
    ofSixDigits? cs = some c ↔ ∃ r g b, cs = r ++ (g ++ b) ∧
      IsPair SignedDigits r c.red ∧ IsPair SignedDigits g c.green ∧
        IsPair SignedDigits b c.blue := by
  constructor
  · intro h
    unfold ofSixDigits? at h
    split at h
    · rename_i r r' g g' b b'
      obtain ⟨red, hr, h⟩ := Option.bind_eq_some_iff.mp h
      obtain ⟨green, hg, h⟩ := Option.bind_eq_some_iff.mp h
      obtain ⟨blue, hb, h⟩ := Option.bind_eq_some_iff.mp h
      obtain rfl := Option.some.inj h
      exact ⟨[r, r'], [g, g'], [b, b'], rfl,
        ⟨rfl, map_hex?_eq_some_iff.mp (congrArg (Option.map _) hr)⟩,
        ⟨rfl, map_hex?_eq_some_iff.mp (congrArg (Option.map _) hg)⟩,
        ⟨rfl, map_hex?_eq_some_iff.mp (congrArg (Option.map _) hb)⟩⟩
    · cases h
  · rintro ⟨r, g, b, rfl, ⟨hr, hred⟩, ⟨hg, hgreen⟩, ⟨hb, hblue⟩⟩
    obtain ⟨r, r', rfl⟩ := List.length_eq_two.mp hr
    obtain ⟨g, g', rfl⟩ := List.length_eq_two.mp hg
    obtain ⟨b, b', rfl⟩ := List.length_eq_two.mp hb
    obtain ⟨red, hr, hred⟩ := Option.map_eq_some_iff.mp (map_hex?_eq_some_iff.mpr hred)
    obtain ⟨green, hg, hgreen⟩ := Option.map_eq_some_iff.mp (map_hex?_eq_some_iff.mpr hgreen)
    obtain ⟨blue, hb, hblue⟩ := Option.map_eq_some_iff.mp (map_hex?_eq_some_iff.mpr hblue)
    show ofSixDigits? [r, r', g, g', b, b'] = _
    rw [ofSixDigits?, hr, hg, hb]
    show some (⟨_, _, _⟩ : Rgb) = _
    rw [hred, hgreen, hblue]

theorem ofComponents?_eq_some_iff {parts : List (List Char)} {c : Rgb} :
    ofComponents? parts = some c ↔ ∃ r g b, parts = [r, g, b] ∧
      IsFraction SignedDigits r c.red ∧ IsFraction SignedDigits g c.green ∧
        IsFraction SignedDigits b c.blue := by
  simp only [← component?_eq_some_iff]
  constructor
  · intro h
    unfold ofComponents? at h
    split at h
    · obtain ⟨r, hr, h⟩ := Option.bind_eq_some_iff.mp h
      obtain ⟨g, hg, h⟩ := Option.bind_eq_some_iff.mp h
      obtain ⟨b, hb, h⟩ := Option.bind_eq_some_iff.mp h
      obtain rfl := Option.some.inj h
      exact ⟨_, _, _, rfl, hr, hg, hb⟩
    · cases h
  · rintro ⟨r, g, b, rfl, hr, hg, hb⟩
    rw [ofComponents?, hr, hg, hb]
    rfl

/-- Three fields are three texts with two separators between them. -/
theorem all_eq_iff {cs r g b : List Char} (hr : '/' ∉ r) (hg : '/' ∉ g) (hb : '/' ∉ b) :
    Field.all '/' cs = [r, g, b] ↔ cs = r ++ '/' :: (g ++ '/' :: b) := by
  constructor
  · intro h
    rw [← Field.intercalate_all '/' cs, h, List.intercalate_cons_cons, List.intercalate_cons_cons,
      List.intercalate_singleton]
    simp
  · rintro rfl
    rw [Field.all_append hr, Field.all_append hg, Field.all_of_not_mem hb]

theorem IsFraction.slash_not_mem {cs : List Char} {x : UInt8} (h : IsFraction SignedDigits cs x) :
    '/' ∉ cs := by
  obtain ⟨-, v, hv, -⟩ := h
  exact hv.not_mem rfl (by decide)

theorem parse?_rgb (body : List Char) :
    parse? (['r', 'g', 'b', ':'] ++ body) = ofComponents? (Field.all '/' body) := rfl

theorem parse?_eq_some_iff {s : List Char} {c : Rgb} :
    parse? s = some c ↔ Written SignedDigits s c := by
  constructor
  · intro h
    unfold parse? at h
    split at h
    · obtain ⟨r, g, b, rfl, hr, hg, hb⟩ := ofSixDigits?_eq_some_iff.mp h
      exact .pairs hr hg hb
    · obtain ⟨body, hbody, h⟩ := Option.bind_eq_some_iff.mp h
      rw [Field.after?_eq_some_iff.mp hbody]
      obtain ⟨r, g, b, hparts, hr, hg, hb⟩ := ofComponents?_eq_some_iff.mp h
      rw [(all_eq_iff hr.slash_not_mem hg.slash_not_mem hb.slash_not_mem).mp hparts]
      exact .fractions hr hg hb
  · intro h
    cases h with
    | pairs hr hg hb => exact ofSixDigits?_eq_some_iff.mpr ⟨_, _, _, rfl, hr, hg, hb⟩
    | fractions hr hg hb =>
        have hparts := (all_eq_iff hr.slash_not_mem hg.slash_not_mem hb.slash_not_mem).mpr rfl
        rw [parse?_rgb, hparts]
        exact ofComponents?_eq_some_iff.mpr ⟨_, _, _, rfl, hr, hg, hb⟩

theorem isPair_digits_iff {cs : List Char} {x : UInt8} :
    IsPair Digits cs x ↔ IsPair SignedDigits cs x ∧ '+' ∉ cs := by
  rw [IsPair, IsPair, Numeral.digits_iff, and_assoc]

theorem isFraction_digits_iff {cs : List Char} {x : UInt8} :
    IsFraction Digits cs x ↔ IsFraction SignedDigits cs x ∧ '+' ∉ cs := by
  simp only [IsFraction, Numeral.digits_iff]
  constructor
  · rintro ⟨hlength, v, ⟨hv, hplus⟩, hx⟩
    exact ⟨⟨hlength, v, hv, hx⟩, hplus⟩
  · rintro ⟨⟨hlength, v, hv, hx⟩, hplus⟩
    exact ⟨hlength, v, ⟨hv, hplus⟩, hx⟩

/-- The forms with digits alone are those without a plus sign. -/
theorem written_digits_iff {s : List Char} {c : Rgb} :
    Written Digits s c ↔ Written SignedDigits s c ∧ '+' ∉ s := by
  constructor
  · intro h
    cases h with
    | pairs hr hg hb =>
        obtain ⟨hr, hr'⟩ := isPair_digits_iff.mp hr
        obtain ⟨hg, hg'⟩ := isPair_digits_iff.mp hg
        obtain ⟨hb, hb'⟩ := isPair_digits_iff.mp hb
        exact ⟨.pairs hr hg hb, by simp [hr', hg', hb']⟩
    | fractions hr hg hb =>
        obtain ⟨hr, hr'⟩ := isFraction_digits_iff.mp hr
        obtain ⟨hg, hg'⟩ := isFraction_digits_iff.mp hg
        obtain ⟨hb, hb'⟩ := isFraction_digits_iff.mp hb
        exact ⟨.fractions hr hg hb, by simp [hr', hg', hb']⟩
  · rintro ⟨h, hplus⟩
    cases h with
    | pairs hr hg hb =>
        simp only [List.mem_cons, List.mem_append, not_or] at hplus
        obtain ⟨-, hr', hg', hb'⟩ := hplus
        exact .pairs (isPair_digits_iff.mpr ⟨hr, hr'⟩) (isPair_digits_iff.mpr ⟨hg, hg'⟩)
          (isPair_digits_iff.mpr ⟨hb, hb'⟩)
    | fractions hr hg hb =>
        simp only [List.mem_cons, List.mem_append, not_or] at hplus
        obtain ⟨-, hr', -, hg', -, hb'⟩ := hplus
        exact .fractions (isFraction_digits_iff.mpr ⟨hr, hr'⟩)
          (isFraction_digits_iff.mpr ⟨hg, hg'⟩) (isFraction_digits_iff.mpr ⟨hb, hb'⟩)

/-- **Which texts are colors.**  The arithmetic behind a color never leaves its machine words.  A
    text is read as a color exactly if it has one of the two forms, with plus signs allowed in
    front of the digits; and it has one of the forms proper exactly if it is read as this color
    and there is no plus sign in it. -/
theorem parse?_exact (s : List Char) :
    checkedParse s = pure (parse? s) ∧
    ∀ c, (parse? s = some c ↔ Written SignedDigits s c) ∧
      (Written Digits s c ↔ parse? s = some c ∧ '+' ∉ s) :=
  ⟨checkedParse_eq s, fun _ => ⟨parse?_eq_some_iff,
    written_digits_iff.trans (and_congr_left' parse?_eq_some_iff.symm)⟩⟩

/-- Signs are taken for digits: these texts are colors, although neither has a form proper, and the
    sign of the second one makes a fraction of 255 of what would be one of 15. -/
theorem parse?_signed :
    (parse? "#+1+2+3".toList = some ⟨1, 2, 3⟩ ∧
      ¬∃ c, Written Digits "#+1+2+3".toList c) ∧
    (parse? "rgb:+f/0/0".toList = some ⟨15, 0, 0⟩ ∧
      ¬∃ c, Written Digits "rgb:+f/0/0".toList c) := by
  refine ⟨⟨by decide, ?_⟩, ⟨by decide, ?_⟩⟩
  · rintro ⟨c, hc⟩
    exact absurd (written_digits_iff.mp hc).2 (by decide)
  · rintro ⟨c, hc⟩
    exact absurd (written_digits_iff.mp hc).2 (by decide)

end Rgb

end VideoTerminal
