import VideoTerminal.Color
import VideoTerminal.Proofs.Checked

/-!
# Reading colors with checks

A written color is cut at bytes, not at characters, and its components are scaled in words of 32
bits.  Cuts fall between characters because a text that is cut has been found to be in ASCII; a
component fits because it has four digits at most, and it is not divided by zero because it has one
at least.
-/

namespace VideoTerminal

namespace Numeral

/-- A text of characters that take one byte each. -/
def IsAscii (cs : List Char) : Prop := ∀ c ∈ cs, c.utf8Size = 1

theorem hexDigit?_some {c : Char} {d : Nat} (h : hexDigit? c = some d) :
    c.utf8Size = 1 ∧ d < 16 := by
  have hrange : ∀ {lo hi : Char}, lo ≤ c → c ≤ hi → lo.toNat ≤ c.toNat ∧ c.toNat ≤ hi.toNat :=
    fun hlo hhi => ⟨hlo, hhi⟩
  have hascii : c.toNat ≤ 102 → c.utf8Size = 1 := by
    intro hc
    refine Char.utf8Size_eq_one_iff.mpr (UInt32.le_iff_toNat_le.mpr ?_)
    exact Nat.le_trans hc (by decide)
  rw [hexDigit?] at h
  split at h
  · rename_i hc
    obtain ⟨hlo, hhi⟩ := hrange hc.1 hc.2
    simp at hlo hhi h
    exact ⟨hascii (by omega), by omega⟩
  · split at h
    · rename_i hc
      obtain ⟨hlo, hhi⟩ := hrange hc.1 hc.2
      simp at hlo hhi h
      exact ⟨hascii (by omega), by omega⟩
    · split at h
      · rename_i hc
        obtain ⟨hlo, hhi⟩ := hrange hc.1 hc.2
        simp at hlo hhi h
        exact ⟨hascii (by omega), by omega⟩
      · cases h

/-- Digits in a row are in ASCII, and stand for less than the next power. -/
theorem foldlM_extend {bound n v : Nat} {cs : List Char}
    (h : cs.foldlM (extend hexDigit? 16 bound) n = some v) :
    IsAscii cs ∧ v < (n + 1) * 16 ^ cs.length := by
  induction cs generalizing n with
  | nil =>
      cases h
      exact ⟨fun c hc => absurd hc List.not_mem_nil, by simp⟩
  | cons c cs ih =>
      rw [List.foldlM_cons] at h
      obtain ⟨m, hm, hrest⟩ := Option.bind_eq_some_iff.mp h
      obtain ⟨d, hd, hm⟩ := Option.bind_eq_some_iff.mp hm
      obtain ⟨hsize, hlt⟩ := hexDigit?_some hd
      obtain ⟨hascii, hv⟩ := ih hrest
      have hm : m = n * 16 + d := by
        dsimp only at hm
        split at hm
        · exact (Option.some.inj hm).symm
        · cases hm
      refine ⟨List.forall_mem_cons.mpr ⟨hsize, hascii⟩, ?_⟩
      calc v < (m + 1) * 16 ^ cs.length := hv
        _ ≤ ((n + 1) * 16) * 16 ^ cs.length := Nat.mul_le_mul_right _ (by omega)
        _ = (n + 1) * 16 ^ (c :: cs).length := by
          rw [List.length_cons, Nat.pow_succ', Nat.mul_assoc]

/-- So is a hexadecimal numeral, with or without a sign. -/
theorem hex?_some {bound v : Nat} {cs : List Char} (h : hex? bound cs = some v) :
    IsAscii cs ∧ v < 16 ^ cs.length := by
  have hdigits : ∀ {ds : List Char}, ofDigits? hexDigit? 16 bound ds = some v →
      IsAscii ds ∧ v < 16 ^ ds.length := by
    intro ds hds
    cases ds with
    | nil => cases hds
    | cons d ds => simpa using foldlM_extend hds
  rw [hex?] at h
  obtain ⟨hascii, hv⟩ := hdigits h
  by_cases hplus : ∃ ds, cs = '+' :: ds
  · obtain ⟨ds, rfl⟩ := hplus
    refine ⟨List.forall_mem_cons.mpr ⟨by decide, hascii⟩, Nat.lt_of_lt_of_le hv ?_⟩
    exact Nat.pow_le_pow_right (by decide) (by simp [dropPlus])
  · have hdrop : dropPlus cs = cs := by
      rw [dropPlus]
      intro ds hds
      exact hplus ⟨ds, hds⟩
    rw [hdrop] at hascii hv
    exact ⟨hascii, hv⟩

end Numeral

/-! ## Texts cut at bytes -/

namespace Checked

open Numeral (IsAscii)

/-- The number of bytes of a text. -/
def byteLength (cs : List Char) : Nat := (cs.map Char.utf8Size).sum

/-- A text cut behind so many bytes. -/
def cut : (cs : List Char) → (n : Nat) → Checked (List Char × List Char)
  | cs, 0 => pure ([], cs)
  | [], _ + 1 => throw .range
  | c :: cs, n + 1 =>
      if c.utf8Size ≤ n + 1 then do
        let (before, behind) ← cut cs (n + 1 - c.utf8Size)
        return (c :: before, behind)
      else throw .boundary

/-- The text from one byte up to another. -/
def textSlice (cs : List Char) (start stop : Nat) : Checked (List Char) := do
  within start stop (byteLength cs)
  let (_, rest) ← cut cs start
  let (part, _) ← cut rest (stop - start)
  return part

theorem byteLength_of_isAscii {cs : List Char} (h : IsAscii cs) : byteLength cs = cs.length := by
  induction cs with
  | nil => rfl
  | cons c cs ih =>
      obtain ⟨hc, hcs⟩ := List.forall_mem_cons.mp h
      have hrest : (cs.map Char.utf8Size).sum = cs.length := ih hcs
      rw [byteLength, List.map_cons, List.sum_cons, hc, hrest, List.length_cons, Nat.add_comm]

/-- No character takes less than a byte. -/
theorem length_le_byteLength (cs : List Char) : cs.length ≤ byteLength cs := by
  induction cs with
  | nil => exact Nat.le_refl 0
  | cons c cs ih =>
      have hrest : cs.length ≤ (cs.map Char.utf8Size).sum := ih
      have hc := c.utf8Size_pos
      rw [byteLength, List.map_cons, List.sum_cons, List.length_cons]
      omega

theorem cut_eq {cs : List Char} (h : IsAscii cs) {n : Nat} (hn : n ≤ cs.length) :
    cut cs n = pure (cs.take n, cs.drop n) := by
  induction cs generalizing n with
  | nil =>
      obtain rfl : n = 0 := Nat.le_zero.mp hn
      rfl
  | cons c cs ih =>
      cases n with
      | zero => rfl
      | succ n =>
          obtain ⟨hc, hcs⟩ := List.forall_mem_cons.mp h
          rw [cut, if_pos (by omega), hc, Nat.add_sub_cancel, ih hcs (Nat.le_of_succ_le_succ hn),
            pure_bind]
          rfl

theorem textSlice_eq {cs : List Char} (h : IsAscii cs) {start stop : Nat} (hstart : start ≤ stop)
    (hstop : stop ≤ cs.length) :
    textSlice cs start stop = pure ((cs.drop start).take (stop - start)) := by
  have hrest : IsAscii (cs.drop start) := fun c hc => h c (List.mem_of_mem_drop hc)
  rw [textSlice, within_eq ⟨hstart, (byteLength_of_isAscii h).symm ▸ hstop⟩, pure_bind,
    cut_eq h (by omega), pure_bind]
  dsimp only
  rw [cut_eq hrest (by rw [List.length_drop]; omega), pure_bind]

end Checked

/-! ## Colors -/

namespace Rgb

open Checked
open Numeral (IsAscii)

/-- The component in the two digits from a byte on. -/
def checkedPair (hex : List Char) (i : Nat) : Checked (Option UInt8) := do
  let digits ← textSlice hex i (← add 64 i 2)
  return (Numeral.hex? 255 digits).map UInt8.ofNat

/-- The color of six digits. -/
def checkedSixDigits (hex : List Char) : Checked (Option Rgb) := do
  if byteLength hex ≠ 6 ∨ !hex.all (·.utf8Size == 1) then return none
  else
    let some red ← checkedPair hex 0 | return none
    let some green ← checkedPair hex 2 | return none
    let some blue ← checkedPair hex 4 | return none
    return some ⟨red, green, blue⟩

/-- A component, as a fraction of the largest number with as many digits. -/
def checkedComponent (part : List Char) : Checked (Option UInt8) := do
  if part = [] ∨ 4 < byteLength part then return none
  else
    let some value := Numeral.hex? 4294967295 part | return none
    let max ← sub (← shiftLeft 32 1 (← mul 64 4 (byteLength part))) 1
    return some (UInt8.ofNat (← div (← mul 32 value 255) max))

/-- The next component, if there is one, and what is behind it. -/
def checkedNext : List (List Char) → Checked (Option UInt8 × List (List Char))
  | [] => return (none, [])
  | part :: parts => return (← checkedComponent part, parts)

/-- The color of three components. -/
def checkedComponents (parts : List (List Char)) : Checked (Option Rgb) := do
  let (some red, parts) ← checkedNext parts | return none
  let (some green, parts) ← checkedNext parts | return none
  let (some blue, parts) ← checkedNext parts | return none
  return if parts = [] then some ⟨red, green, blue⟩ else none

/-- Reads a written color. -/
def checkedParse (spec : List Char) : Checked (Option Rgb) :=
  match spec with
  | '#' :: digits => checkedSixDigits digits
  | _ =>
      match Field.after? ['r', 'g', 'b', ':'] spec with
      | some body => checkedComponents (Field.all '/' body)
      | none => pure none

theorem checkedPair_eq {hex : List Char} (h : IsAscii hex) {i : Nat} (hi : i + 2 ≤ hex.length)
    (hword : hex.length < 2 ^ 64) :
    checkedPair hex i = pure ((Numeral.hex? 255 ((hex.drop i).take 2)).map UInt8.ofNat) := by
  rw [checkedPair, add_eq (by omega), pure_bind, textSlice_eq h (by omega) hi, pure_bind,
    Nat.add_sub_cancel_left]

/-- Six digits are six bytes. -/
theorem ofSixDigits?_some {hex : List Char} {c : Rgb} (h : ofSixDigits? hex = some c) :
    IsAscii hex ∧ hex.length = 6 := by
  unfold ofSixDigits? at h
  split at h
  · rename_i a b c d e f
    obtain ⟨red, hred, h⟩ := Option.bind_eq_some_iff.mp h
    obtain ⟨green, hgreen, h⟩ := Option.bind_eq_some_iff.mp h
    obtain ⟨blue, hblue, -⟩ := Option.bind_eq_some_iff.mp h
    refine ⟨?_, rfl⟩
    have hred := (Numeral.hex?_some hred).1
    have hgreen := (Numeral.hex?_some hgreen).1
    have hblue := (Numeral.hex?_some hblue).1
    simp only [IsAscii, List.forall_mem_cons] at hred hgreen hblue ⊢
    exact ⟨hred.1, hred.2.1, hgreen.1, hgreen.2.1, hblue⟩
  · cases h

theorem checkedSixDigits_eq (hex : List Char) :
    checkedSixDigits hex = pure (ofSixDigits? hex) := by
  rw [checkedSixDigits]
  by_cases hascii : IsAscii hex ∧ hex.length = 6
  · obtain ⟨hascii, hlength⟩ := hascii
    have hgo : ¬(byteLength hex ≠ 6 ∨ (!hex.all (·.utf8Size == 1)) = true) := by
      rw [byteLength_of_isAscii hascii]
      simpa [hlength, IsAscii] using hascii
    rw [if_neg hgo, checkedPair_eq hascii (by omega) (by omega),
      checkedPair_eq hascii (by omega) (by omega), checkedPair_eq hascii (by omega) (by omega)]
    obtain ⟨a, b, c, d, e, f, rfl⟩ : ∃ a b c d e f, hex = [a, b, c, d, e, f] := by
      match hex, hlength with
      | [a, b, c, d, e, f], _ => exact ⟨a, b, c, d, e, f, rfl⟩
    simp only [pure_bind, ofSixDigits?, List.drop_zero, List.drop_succ_cons, List.take_succ_cons,
      List.take_zero]
    cases Numeral.hex? 255 [a, b] with
    | none => rfl
    | some red =>
        cases Numeral.hex? 255 [c, d] with
        | none => rfl
        | some green => cases Numeral.hex? 255 [e, f] <;> rfl
  · -- a text of other bytes is no color anyway
    have hnone : ofSixDigits? hex = none := by
      cases hcolor : ofSixDigits? hex with
      | none => rfl
      | some c => exact absurd (ofSixDigits?_some hcolor) hascii
    have hstop : byteLength hex ≠ 6 ∨ (!hex.all (·.utf8Size == 1)) = true := by
      by_cases hall : IsAscii hex
      · rw [byteLength_of_isAscii hall]
        exact .inl fun hlength => hascii ⟨hall, hlength⟩
      · refine .inr ?_
        simpa [IsAscii] using hall
    rw [if_pos hstop, hnone]

theorem checkedComponent_eq (part : List Char) :
    checkedComponent part = pure (component? part) := by
  rw [checkedComponent, component?]
  have hlength := length_le_byteLength part
  by_cases hempty : part = []
  · subst hempty
    rfl
  have hpos : 0 < part.length := List.length_pos_iff.mpr hempty
  cases hvalue : Numeral.hex? 4294967295 part with
  | none =>
      -- too long or not, it is no numeral
      simp
  | some value =>
      obtain ⟨hascii, hlt⟩ := Numeral.hex?_some hvalue
      rw [byteLength_of_isAscii hascii]
      by_cases hlong : 4 < part.length
      · rw [if_pos (.inr hlong), if_pos (.inr hlong)]
      have hpower : 16 ^ part.length = 2 ^ (4 * part.length) := by
        rw [Nat.pow_mul]
      have hfits : 2 ^ (4 * part.length) ≤ 2 ^ 16 :=
        Nat.pow_le_pow_right (by decide) (by omega)
      have hmax : 1 < 16 ^ part.length := Nat.one_lt_pow (by omega) (by decide)
      have hshift : 1 * 2 ^ (4 * part.length) % 2 ^ 32 = 16 ^ part.length := by
        rw [Nat.one_mul, ← hpower, Nat.mod_eq_of_lt (by omega)]
      rw [if_neg (by simp [hempty, hlong]), if_neg (by omega)]
      dsimp only
      rw [mul_eq (by omega), pure_bind,
        shiftLeft_eq (by omega), pure_bind, hshift, sub_eq (by omega), pure_bind,
        mul_eq (by omega), pure_bind, div_eq (by omega), pure_bind]
      rfl

theorem checkedNext_eq (parts : List (List Char)) :
    checkedNext parts = pure (parts.head?.bind component?, parts.tail) := by
  cases parts with
  | nil => rfl
  | cons part parts =>
      rw [checkedNext, checkedComponent_eq, pure_bind]
      rfl

theorem checkedComponents_eq (parts : List (List Char)) :
    checkedComponents parts = pure (ofComponents? parts) := by
  simp only [checkedComponents, checkedNext_eq, pure_bind]
  match parts with
  | [] => rfl
  | [red] => cases h : component? red <;> simp [h, ofComponents?]
  | [red, green] =>
      cases h : component? red <;> cases h' : component? green <;> simp [h, h', ofComponents?]
  | red :: green :: blue :: parts =>
      cases h : component? red <;> cases h' : component? green <;>
        cases h'' : component? blue <;> cases parts <;> simp [h, h', h'', ofComponents?]

theorem checkedParse_eq (spec : List Char) : checkedParse spec = pure (parse? spec) := by
  unfold parse?
  split
  · exact checkedSixDigits_eq _
  · rename_i hsharp
    rw [checkedParse]
    · cases Field.after? ['r', 'g', 'b', ':'] spec with
      | some body => exact checkedComponents_eq _
      | none => rfl
    · exact hsharp

end Rgb

end VideoTerminal
