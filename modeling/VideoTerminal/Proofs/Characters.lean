import Mathlib.Algebra.Group.Nat.Defs
import VideoTerminal.Proofs.Machine

/-!
# Characters in bytes

A character is written as one to four bytes.  `Spelled` says which, by the number of bytes, and
the three readers are followed along it: the one for exactly one character, the one that reads any
bytes at all, and the decoder of the terminal.  Each gives the character back.

The reader of any bytes is also followed where the bytes are no text: whatever it makes of them, it
makes no control character that was not there.  And a character is written in one way only, so that
the reader for exactly one character takes its bytes and no others.
-/

namespace VideoTerminal

namespace Utf8

/-! ## The bytes of a character -/

/-- The bytes that a character is written as: its code in groups of six bits, and in front of them
    the number of bytes. -/
inductive Spelled (c : Char) : List UInt8 → Prop where
  | one {a : UInt8} (hlt : c.toNat < 0x80) (ha : a.toNat = c.toNat) : Spelled c [a]
  | two {a b : UInt8} (hle : 0x80 ≤ c.toNat) (hlt : c.toNat < 0x800)
      (ha : a.toNat = 0xC0 + c.toNat / 64) (hb : b.toNat = 0x80 + c.toNat % 64) :
      Spelled c [a, b]
  | three {a b d : UInt8} (hle : 0x800 ≤ c.toNat) (hlt : c.toNat < 0x10000)
      (ha : a.toNat = 0xE0 + c.toNat / 4096) (hb : b.toNat = 0x80 + c.toNat / 64 % 64)
      (hd : d.toNat = 0x80 + c.toNat % 64) : Spelled c [a, b, d]
  | four {a b d e : UInt8} (hle : 0x10000 ≤ c.toNat)
      (ha : a.toNat = 0xF0 + c.toNat / 262144) (hb : b.toNat = 0x80 + c.toNat / 4096 % 64)
      (hd : d.toNat = 0x80 + c.toNat / 64 % 64) (he : e.toNat = 0x80 + c.toNat % 64) :
      Spelled c [a, b, d, e]

/-- The code of a character is no surrogate, and no more than the largest code point. -/
theorem toNat_range (c : Char) :
    c.toNat < 0xD800 ∨ 0xDFFF < c.toNat ∧ c.toNat < 0x110000 := c.valid

/-- The bytes of a character are spelled as they should be. -/
theorem spelled_utf8EncodeChar (c : Char) : Spelled c (String.utf8EncodeChar c) := by
  have hrange := toNat_range c
  have hval : c.val.toNat = c.toNat := rfl
  unfold String.utf8EncodeChar
  rw [hval]
  dsimp only
  split
  · refine .one (by omega) ?_
    simp only [UInt8.toNat_ofNat']
    omega
  · split
    · refine .two (by omega) (by omega) ?_ ?_ <;> simp only [UInt8.toNat_ofNat'] <;> omega
    · split
      · refine .three (by omega) (by omega) ?_ ?_ ?_ <;> simp only [UInt8.toNat_ofNat'] <;> omega
      · refine .four (by omega) ?_ ?_ ?_ ?_ <;> simp only [UInt8.toNat_ofNat'] <;> omega

/-- Bytes are ordered as their numbers are. -/
theorem le_of_toNat_le {a b : UInt8} (h : a.toNat ≤ b.toNat) : a ≤ b := UInt8.le_iff_toNat_le.mpr h

/-- Six bits behind the mark of a continuation lie in its range. -/
theorem range_of_toNat {b : UInt8} {n : Nat} (h : b.toNat = 0x80 + n % 64) :
    0x80 ≤ b ∧ b ≤ 0xBF :=
  ⟨le_of_toNat_le (show 0x80 ≤ b.toNat by omega), le_of_toNat_le (show b.toNat ≤ 0xBF by omega)⟩

/-- They make a continuation. -/
theorem isContinuation_of_toNat {b : UInt8} {n : Nat} (h : b.toNat = 0x80 + n % 64) :
    isContinuation b = true := by
  obtain ⟨hle, hge⟩ := range_of_toNat h
  rw [isContinuation, decide_eq_true hle, decide_eq_true hge]
  rfl

/-- They are read back as these bits. -/
theorem tailBits_of_toNat {b : UInt8} {n : Nat} (h : b.toNat = 0x80 + n % 64) :
    tailBits b = n % 64 := by
  rw [tailBits]
  omega

/-- The number of a character is read as the character. -/
theorem scalar?_toNat {least : Nat} {c : Char} (h : least ≤ c.toNat) :
    scalar? least c.toNat = some c := by
  rw [scalar?, if_pos ⟨h, c.valid⟩, Char.ofNat_toNat]

/-- A character is read from its bytes. -/
theorem decode?_of_spelled {c : Char} {bytes : List UInt8} (h : Spelled c bytes) :
    decode? bytes = some c := by
  have hrange := toNat_range c
  cases h with
  | @one a hlt ha =>
      have ha' : a < 0x80 := UInt8.lt_iff_toNat_lt.mpr (show a.toNat < 0x80 by omega)
      rw [decode?, if_pos ha', ha, Char.ofNat_toNat]
  | @two a b hle hlt ha hb =>
      have h1 : 0xC0 ≤ a := le_of_toNat_le (show 0xC0 ≤ a.toNat by omega)
      have h2 : a ≤ 0xDF := le_of_toNat_le (show a.toNat ≤ 0xDF by omega)
      have hcode : a.toNat % 32 * 64 + tailBits b = c.toNat := by
        rw [tailBits_of_toNat hb]
        omega
      rw [decode?, isContinuation_of_toNat hb, decide_eq_true h1, decide_eq_true h2, hcode]
      exact scalar?_toNat hle
  | @three a b d hle hlt ha hb hd =>
      have h1 : 0xE0 ≤ a := le_of_toNat_le (show 0xE0 ≤ a.toNat by omega)
      have h2 : a ≤ 0xEF := le_of_toNat_le (show a.toNat ≤ 0xEF by omega)
      have hcode : (a.toNat % 16 * 64 + tailBits b) * 64 + tailBits d = c.toNat := by
        rw [tailBits_of_toNat hb, tailBits_of_toNat hd]
        omega
      rw [decode?, isContinuation_of_toNat hb, isContinuation_of_toNat hd, decide_eq_true h1,
        decide_eq_true h2, hcode]
      exact scalar?_toNat hle
  | @four a b d e hle ha hb hd he =>
      have h1 : 0xF0 ≤ a := le_of_toNat_le (show 0xF0 ≤ a.toNat by omega)
      have h2 : a ≤ 0xF7 := le_of_toNat_le (show a.toNat ≤ 0xF7 by omega)
      have hcode : ((a.toNat % 8 * 64 + tailBits b) * 64 + tailBits d) * 64 + tailBits e
          = c.toNat := by
        rw [tailBits_of_toNat hb, tailBits_of_toNat hd, tailBits_of_toNat he]
        omega
      rw [decode?, isContinuation_of_toNat hb, isContinuation_of_toNat hd,
        isContinuation_of_toNat he, decide_eq_true h1, decide_eq_true h2, hcode]
      exact scalar?_toNat hle

/-- Texts behind each other are encoded behind each other. -/
theorem encode_append (cs ds : List Char) : encode (cs ++ ds) = encode cs ++ encode ds :=
  List.flatMap_append

/-! ## Reading any bytes -/

/-- Decoding is a run of a machine, and what is left open at the end. -/
theorem decodeLossy_eq_run (bytes : List UInt8) :
    decodeLossy bytes
      = (Machine.run step none bytes).2 ++ finish (Machine.run step none bytes).1 := by
  rw [decodeLossy]
  dsimp only
  rw [Machine.foldl_collect]
  simp

/-- The last byte that is missing completes the character. -/
theorem step_last {p : Partial} {b : UInt8} (hle : p.least ≤ b) (hge : b ≤ p.greatest)
    (hmissing : p.missing ≤ 1) :
    step (some p) b = (none, [Char.ofNat (p.code * 64 + tailBits b)]) := by
  rw [step, decide_eq_true hle, decide_eq_true hge]
  exact if_pos hmissing

/-- Another byte leaves one less missing. -/
theorem step_more {p : Partial} {b : UInt8} (hle : p.least ≤ b) (hge : b ≤ p.greatest)
    (hmissing : 1 < p.missing) :
    step (some p) b
      = (some ⟨p.code * 64 + tailBits b, p.missing - 1, 0x80, 0xBF⟩, []) := by
  rw [step, decide_eq_true hle, decide_eq_true hge]
  exact if_neg (Nat.not_le.mpr hmissing)

/-- The first of three bytes.  Two of them bound the second more closely: one against a form that
    is longer than it need be, one against surrogates. -/
theorem start_three {a : UInt8} (hle : 0xE0 ≤ a) (hge : a ≤ 0xEF) :
    ∃ p, start a = (some p, []) ∧ p.code = a.toNat % 16 ∧ p.missing = 2 ∧
      ∀ b : UInt8, 0x80 ≤ b.toNat → b.toNat ≤ 0xBF → (a.toNat = 0xE0 → 0xA0 ≤ b.toNat) →
        (a.toNat = 0xED → b.toNat ≤ 0x9F) → p.least ≤ b ∧ b ≤ p.greatest := by
  by_cases hlong : a = 0xE0
  · subst hlong
    exact ⟨_, rfl, rfl, rfl, fun b _ hb2 hb3 _ =>
      ⟨le_of_toNat_le (hb3 rfl), le_of_toNat_le hb2⟩⟩
  · by_cases hsurrogate : a = 0xED
    · subst hsurrogate
      exact ⟨_, rfl, rfl, rfl, fun b hb1 _ _ hb4 =>
        ⟨le_of_toNat_le hb1, le_of_toNat_le (hb4 rfl)⟩⟩
    · refine ⟨⟨a.toNat % 16, 2, 0x80, 0xBF⟩, ?_, rfl, rfl, fun b hb1 hb2 _ _ =>
        ⟨le_of_toNat_le hb1, le_of_toNat_le hb2⟩⟩
      grind [start]

/-- The first of four bytes.  Two of them bound the second more closely: one against a form that is
    longer than it need be, one against what is beyond the last code point. -/
theorem start_four {a : UInt8} (hle : 0xF0 ≤ a) (hge : a ≤ 0xF4) :
    ∃ p, start a = (some p, []) ∧ p.code = a.toNat % 8 ∧ p.missing = 3 ∧
      ∀ b : UInt8, 0x80 ≤ b.toNat → b.toNat ≤ 0xBF → (a.toNat = 0xF0 → 0x90 ≤ b.toNat) →
        (a.toNat = 0xF4 → b.toNat ≤ 0x8F) → p.least ≤ b ∧ b ≤ p.greatest := by
  by_cases hlong : a = 0xF0
  · subst hlong
    exact ⟨_, rfl, rfl, rfl, fun b _ hb2 hb3 _ =>
      ⟨le_of_toNat_le (hb3 rfl), le_of_toNat_le hb2⟩⟩
  · by_cases hbeyond : a = 0xF4
    · subst hbeyond
      exact ⟨_, rfl, rfl, rfl, fun b hb1 _ _ hb4 =>
        ⟨le_of_toNat_le hb1, le_of_toNat_le (hb4 rfl)⟩⟩
    · refine ⟨⟨a.toNat % 8, 3, 0x80, 0xBF⟩, ?_, rfl, rfl, fun b hb1 hb2 _ _ =>
        ⟨le_of_toNat_le hb1, le_of_toNat_le hb2⟩⟩
      grind [start]

/-- A character is read from its bytes, with nothing left over. -/
theorem run_step_of_spelled {c : Char} {bytes : List UInt8} (h : Spelled c bytes) :
    Machine.run step none bytes = (none, [c]) := by
  have hrange := toNat_range c
  cases h with
  | @one a hlt ha =>
      have ha' : a < 0x80 := UInt8.lt_iff_toNat_lt.mpr (show a.toNat < 0x80 by omega)
      rw [Machine.run_singleton, step, start, if_pos ha', ha, Char.ofNat_toNat]
  | @two a b hle hlt ha hb =>
      have h1 : 0xC2 ≤ a := le_of_toNat_le (show 0xC2 ≤ a.toNat by omega)
      have h2 : a ≤ 0xDF := le_of_toNat_le (show a.toNat ≤ 0xDF by omega)
      have hstart : step none a = (some ⟨a.toNat % 32, 1, 0x80, 0xBF⟩, []) := by
        grind [step, start]
      have hcode : a.toNat % 32 * 64 + tailBits b = c.toNat := by
        rw [tailBits_of_toNat hb]
        omega
      obtain ⟨hb1, hb2⟩ := range_of_toNat hb
      rw [Machine.run_cons, hstart, Machine.run_singleton, step_last hb1 hb2 Nat.le.refl, hcode,
        Char.ofNat_toNat]
      rfl
  | @three a b d hle hlt ha hb hd =>
      have h1 : 0xE0 ≤ a := le_of_toNat_le (show 0xE0 ≤ a.toNat by omega)
      have h2 : a ≤ 0xEF := le_of_toNat_le (show a.toNat ≤ 0xEF by omega)
      have hcode : (a.toNat % 16 * 64 + tailBits b) * 64 + tailBits d = c.toNat := by
        rw [tailBits_of_toNat hb, tailBits_of_toNat hd]
        omega
      -- the closer bounds hold since the character is no shorter and no surrogate
      obtain ⟨p, hstart, hfirst, hmissing, hbounds⟩ := start_three h1 h2
      obtain ⟨hleast, hgreatest⟩ :=
        hbounds b (by omega) (by omega) (fun _ => by omega) (fun _ => by omega)
      obtain ⟨hd1, hd2⟩ := range_of_toNat hd
      rw [Machine.run_cons, step, hstart, Machine.run_cons,
        step_more hleast hgreatest (by omega), hfirst, hmissing, Machine.run_singleton,
        step_last hd1 hd2 Nat.le.refl, hcode, Char.ofNat_toNat]
      rfl
  | @four a b d e hle ha hb hd he =>
      have h1 : 0xF0 ≤ a := le_of_toNat_le (show 0xF0 ≤ a.toNat by omega)
      have h2 : a ≤ 0xF4 := le_of_toNat_le (show a.toNat ≤ 0xF4 by omega)
      have hcode : ((a.toNat % 8 * 64 + tailBits b) * 64 + tailBits d) * 64 + tailBits e
          = c.toNat := by
        rw [tailBits_of_toNat hb, tailBits_of_toNat hd, tailBits_of_toNat he]
        omega
      obtain ⟨p, hstart, hfirst, hmissing, hbounds⟩ := start_four h1 h2
      obtain ⟨hleast, hgreatest⟩ :=
        hbounds b (by omega) (by omega) (fun _ => by omega) (fun _ => by omega)
      obtain ⟨hd1, hd2⟩ := range_of_toNat hd
      obtain ⟨he1, he2⟩ := range_of_toNat he
      rw [Machine.run_cons, step, hstart, Machine.run_cons,
        step_more hleast hgreatest (by omega), hfirst, hmissing, Machine.run_cons,
        step_more hd1 hd2 Nat.one_lt_two, Machine.run_singleton, step_last he1 he2 Nat.le.refl,
        hcode, Char.ofNat_toNat]
      rfl

/-- Text is read from its bytes. -/
theorem decodeLossy_encode (cs : List Char) : decodeLossy (encode cs) = cs := by
  have hrun : Machine.run step none (cs.flatMap String.utf8EncodeChar)
      = (none, cs.flatMap fun c => [c]) :=
    Machine.run_flatMap fun c _ => run_step_of_spelled (spelled_utf8EncodeChar c)
  rw [decodeLossy_eq_run, encode, hrun, List.flatMap_singleton']
  exact List.append_nil cs

/-! ### No control that was not there -/

/-- A number that a character may have is that of the character. -/
theorem toNat_ofNat {n : Nat} (h : n.isValidChar) : (Char.ofNat n).toNat = n := by
  rw [Char.ofNat, dif_pos h]
  rfl

/-- The least code that a character under way can come to. -/
def Partial.lowest (p : Partial) : Nat :=
  (p.code * 64 + tailBits p.least) * 64 ^ (p.missing - 1)

/-- The first code beyond all that a character under way can come to. -/
def Partial.beyond (p : Partial) : Nat :=
  (p.code * 64 + tailBits p.greatest + 1) * 64 ^ (p.missing - 1)

/-- A character under way that will be a character whatever comes next in its range, and none of
    ASCII. -/
structure Partial.Sound (p : Partial) : Prop where
  le_least : 0x80 ≤ p.least
  greatest_le : p.greatest ≤ 0xBF
  le_lowest : 0x80 ≤ p.lowest
  beyond_le : p.beyond ≤ 0xD800 ∨ 0xDFFF < p.lowest ∧ p.beyond ≤ 0x110000

/-- Of two continuations the larger has the larger bits. -/
theorem tailBits_mono {a b : UInt8} (ha : 0x80 ≤ a) (hb : b ≤ 0xBF) (h : a ≤ b) :
    tailBits a ≤ tailBits b := by
  have h1 : 0x80 ≤ a.toNat := UInt8.le_iff_toNat_le.mp ha
  have h2 : b.toNat ≤ 0xBF := UInt8.le_iff_toNat_le.mp hb
  have h3 : a.toNat ≤ b.toNat := UInt8.le_iff_toNat_le.mp h
  simp only [tailBits]
  omega

/-- The code so far, with one byte more, stays between the bounds. -/
theorem Partial.Sound.step {p : Partial} (h : p.Sound) {b : UInt8} (hle : p.least ≤ b)
    (hge : b ≤ p.greatest) :
    p.lowest ≤ (p.code * 64 + tailBits b) * 64 ^ (p.missing - 1) ∧
    (p.code * 64 + tailBits b + 1) * 64 ^ (p.missing - 1) ≤ p.beyond := by
  have h1 := tailBits_mono h.le_least (UInt8.le_trans hge h.greatest_le) hle
  have h2 := tailBits_mono (UInt8.le_trans h.le_least hle) h.greatest_le hge
  exact ⟨Nat.mul_le_mul_right _ (by omega), Nat.mul_le_mul_right _ (by omega)⟩

/-- The last byte gives a character, and none of ASCII. -/
theorem Partial.Sound.le_toNat {p : Partial} (h : p.Sound) {b : UInt8} (hle : p.least ≤ b)
    (hge : b ≤ p.greatest) (hmissing : p.missing ≤ 1) :
    0x80 ≤ (Char.ofNat (p.code * 64 + tailBits b)).toNat := by
  obtain ⟨hlow, hhigh⟩ := h.step hle hge
  have hle_lowest := h.le_lowest
  have hbeyond_le := h.beyond_le
  have hnone : p.missing - 1 = 0 := by omega
  rw [hnone, Nat.pow_zero, Nat.mul_one] at hlow hhigh
  rw [toNat_ofNat (by show _ ∨ _; omega)]
  omega

/-- A character under way that may go on with any continuation byte. -/
theorem Partial.sound_open {code m : Nat} (hle : 0x80 ≤ code * 64 ^ (m + 1))
    (hbeyond : (code + 1) * 64 ^ (m + 1) ≤ 0xD800 ∨
      0xDFFF < code * 64 ^ (m + 1) ∧ (code + 1) * 64 ^ (m + 1) ≤ 0x110000) :
    Partial.Sound ⟨code, m + 1, 0x80, 0xBF⟩ := by
  have hlowest : Partial.lowest ⟨code, m + 1, 0x80, 0xBF⟩ = code * 64 ^ (m + 1) := by
    have hbits : tailBits 0x80 = 0 := rfl
    rw [Partial.lowest, hbits, Nat.pow_succ, Nat.mul_comm (64 ^ m), ← Nat.mul_assoc]
    rfl
  have hlast : Partial.beyond ⟨code, m + 1, 0x80, 0xBF⟩ = (code + 1) * 64 ^ (m + 1) := by
    have hbits : tailBits 0xBF = 63 := rfl
    rw [Partial.beyond]
    have hsum : (code + 1) * 64 = code * 64 + 63 + 1 := Nat.add_mul code 1 64
    rw [hbits, Nat.pow_succ, Nat.mul_comm (64 ^ m), ← Nat.mul_assoc, hsum]
    rfl
  refine ⟨(by decide : (0x80 : UInt8) ≤ 0x80), (by decide : (0xBF : UInt8) ≤ 0xBF), ?_, ?_⟩
  · rw [hlowest]
    exact hle
  · rw [hlowest, hlast]
    exact hbeyond

/-- What a byte begins has a range for the next byte. -/
theorem start_sound {b : UInt8} {p : Partial} (hp : (start b).1 = some p) : p.Sound := by
  rw [start] at hp
  split at hp
  · exact absurd hp nofun
  split at hp
  · next hlead =>
    obtain ⟨h1, h2⟩ : 0xC2 ≤ b.toNat ∧ b.toNat ≤ 0xDF := by
      simpa [UInt8.le_iff_toNat_le] using hlead
    cases hp
    exact Partial.sound_open (by omega) (by omega)
  split at hp
  · cases hp
    exact ⟨by decide, by decide, by decide, by decide⟩
  split at hp
  · cases hp
    exact ⟨by decide, by decide, by decide, by decide⟩
  split at hp
  · next hlong hsurrogate hlead =>
    obtain ⟨h1, h2⟩ : 0xE1 ≤ b.toNat ∧ b.toNat ≤ 0xEF := by
      simpa [UInt8.le_iff_toNat_le] using hlead
    have h3 : b.toNat ≠ 0xED := by
      intro heq
      exact hsurrogate (beq_iff_eq.mpr (UInt8.toNat_inj.mp heq))
    cases hp
    exact Partial.sound_open (by omega) (by omega)
  split at hp
  · cases hp
    exact ⟨by decide, by decide, by decide, by decide⟩
  split at hp
  · next hlead =>
    obtain ⟨h1, h2⟩ : 0xF1 ≤ b.toNat ∧ b.toNat ≤ 0xF3 := by
      simpa [UInt8.le_iff_toNat_le] using hlead
    cases hp
    exact Partial.sound_open (by omega) (by omega)
  split at hp
  · cases hp
    exact ⟨by decide, by decide, by decide, by decide⟩
  · exact absurd hp nofun

/-- A byte that is no control gives no control. -/
theorem start_output {b : UInt8} (hb : 0x20 ≤ b.toNat) :
    ∀ c ∈ (start b).2, 0x20 ≤ c.toNat := by
  intro c hc
  by_cases hascii : b < 0x80
  · rw [start, if_pos hascii, List.mem_singleton] at hc
    have hlt : b.toNat < 0x80 := UInt8.lt_iff_toNat_lt.mp hascii
    rw [hc, toNat_ofNat (Or.inl (by omega))]
    exact hb
  · have hrest : (start b).2 = [] ∨ (start b).2 = [replacement] := by
      rw [start, if_neg hascii]
      grind
    rcases hrest with hrest | hrest
    · rw [hrest] at hc
      exact absurd hc List.not_mem_nil
    · rw [hrest, List.mem_singleton] at hc
      rw [hc]
      decide

/-- One byte more of a character under way leaves one under way. -/
theorem step_sound {p : Option Partial} (h : ∀ q ∈ p, q.Sound) (b : UInt8) :
    ∀ q ∈ (step p b).1, q.Sound := by
  intro q hq
  match p with
  | none => exact start_sound hq
  | some p =>
      by_cases hrange : (p.least ≤ b && b ≤ p.greatest) = true
      · obtain ⟨hle, hge⟩ : p.least ≤ b ∧ b ≤ p.greatest := by simpa using hrange
        by_cases hmissing : p.missing ≤ 1
        · rw [step_last hle hge hmissing] at hq
          exact absurd hq nofun
        · rw [step_more hle hge (by omega)] at hq
          cases hq
          obtain ⟨hlow, hhigh⟩ := (h p rfl).step hle hge
          obtain ⟨m, hm⟩ : ∃ m, p.missing - 1 = m + 1 := ⟨p.missing - 2, by omega⟩
          rw [hm] at hlow hhigh
          have hle_lowest := (h p rfl).le_lowest
          have hbeyond_le := (h p rfl).beyond_le
          rw [hm]
          exact Partial.sound_open (by omega) (by omega)
      · rw [step, if_neg hrange] at hq
        exact start_sound hq

/-- Neither does one within a character. -/
theorem step_output {p : Option Partial} (h : ∀ q ∈ p, q.Sound) {b : UInt8}
    (hb : 0x20 ≤ b.toNat) : ∀ c ∈ (step p b).2, 0x20 ≤ c.toNat := by
  intro c hc
  match p with
  | none => exact start_output hb c hc
  | some p =>
      by_cases hrange : (p.least ≤ b && b ≤ p.greatest) = true
      · obtain ⟨hle, hge⟩ : p.least ≤ b ∧ b ≤ p.greatest := by simpa using hrange
        by_cases hmissing : p.missing ≤ 1
        · rw [step_last hle hge hmissing, List.mem_singleton] at hc
          have hwide := (h p rfl).le_toNat hle hge hmissing
          rw [hc]
          omega
        · rw [step_more hle hge (by omega)] at hc
          exact absurd hc List.not_mem_nil
      · rw [step, if_neg hrange] at hc
        rcases List.mem_cons.mp hc with rfl | hc
        · decide
        · exact start_output hb c hc

/-- Bytes that are no controls are read as characters that are none. -/
theorem le_of_mem_decodeLossy {bytes : List UInt8} (h : ∀ b ∈ bytes, 0x20 ≤ b.toNat) :
    ∀ c ∈ decodeLossy bytes, 0x20 ≤ c.toNat := by
  intro c hc
  rw [decodeLossy_eq_run] at hc
  rcases List.mem_append.mp hc with hc | hc
  · -- a character under way stays sound, and only its last byte gives one out
    exact Machine.forall_mem_run (I := fun p => ∀ q ∈ p, Partial.Sound q)
      (fun p b _ hp => step_sound hp b) (fun p b hb hp => step_output hp (h b hb))
      (fun q hq => absurd hq (Option.not_mem_none q)) c hc
  · simp only [finish] at hc
    split at hc
    · exact absurd hc List.not_mem_nil
    · rw [List.mem_singleton.mp hc]
      decide

/-! ### No ASCII that was not there -/

/-- A character under way goes on, or comes out as one beyond ASCII or as a replacement. -/
theorem step_wide {p : Partial} (h : p.Sound) (b : UInt8) :
    (∃ q : Partial, q.Sound ∧ (step (some p) b).1 = some q) ∨
      ∃ c ∈ (step (some p) b).2, 0x80 ≤ c.toNat := by
  by_cases hrange : (p.least ≤ b && b ≤ p.greatest) = true
  · obtain ⟨hle, hge⟩ : p.least ≤ b ∧ b ≤ p.greatest := by simpa using hrange
    by_cases hmissing : p.missing ≤ 1
    · rw [step_last hle hge hmissing]
      exact .inr ⟨_, List.mem_singleton_self _, h.le_toNat hle hge hmissing⟩
    · have hsound := step_sound (fun q hq => Option.some.inj hq ▸ h) b
      rw [step_more hle hge (by omega)] at hsound ⊢
      exact .inl ⟨_, hsound _ rfl, rfl⟩
  · rw [step, if_neg hrange]
    exact .inr ⟨replacement, List.mem_cons_self, by decide⟩

/-- A character that was begun, complete or not, gives something beyond ASCII. -/
theorem exists_wide {p : Partial} (h : p.Sound) (bytes : List UInt8) :
    ∃ c ∈ (Machine.run step (some p) bytes).2 ++ finish (Machine.run step (some p) bytes).1,
      0x80 ≤ c.toNat := by
  induction bytes generalizing p with
  | nil => exact ⟨replacement, List.mem_singleton_self _, by decide⟩
  | cons b bytes ih =>
      rw [Machine.run_cons, List.append_assoc]
      rcases step_wide h b with ⟨q, hq, hstep⟩ | ⟨c, hc, hwide⟩
      · obtain ⟨c, hc, hwide⟩ := ih hq
        rw [hstep]
        exact ⟨c, List.mem_append_right _ hc, hwide⟩
      · exact ⟨c, List.mem_append_left _ hc, hwide⟩

/-- An ASCII character is one byte. -/
theorem utf8EncodeChar_ofNat {b : UInt8} (hb : b < 0x80) :
    String.utf8EncodeChar (Char.ofNat b.toNat) = [b] := by
  have hlt : b.toNat < 0x80 := UInt8.lt_iff_toNat_lt.mp hb
  have hcode : (Char.ofNat b.toNat).toNat = b.toNat := toNat_ofNat (Or.inl (by omega))
  have hspelled := spelled_utf8EncodeChar (Char.ofNat b.toNat)
  generalize String.utf8EncodeChar (Char.ofNat b.toNat) = bytes at hspelled
  cases hspelled with
  | one _ ha => rw [UInt8.toNat_inj.mp (ha.trans hcode)]
  | two => omega
  | three => omega
  | four => omega

/-- Bytes that are read as ASCII are ASCII. -/
theorem eq_encode_of_decodeLossy {bytes : List UInt8} {cs : List Char}
    (h : decodeLossy bytes = cs) (hcs : ∀ c ∈ cs, c.toNat < 0x80) : bytes = encode cs := by
  rw [decodeLossy_eq_run] at h
  induction bytes generalizing cs with
  | nil =>
      rw [← h]
      rfl
  | cons b bytes ih =>
      rw [Machine.run_cons, List.append_assoc] at h
      by_cases hascii : b < 0x80
      · have hstep : step none b = (none, [Char.ofNat b.toNat]) := if_pos hascii
        rw [hstep] at h
        have hrest := ih rfl fun c hc => hcs c (h ▸ List.mem_append_right _ hc)
        rw [← h, encode, List.singleton_append, List.flatMap_cons, utf8EncodeChar_ofNat hascii]
        exact congrArg (b :: ·) hrest
      · -- something else would come of any other byte
        exfalso
        have hrest : (start b).2 = [replacement] ∨ ∃ p, (start b).1 = some p := by
          rw [start, if_neg hascii]
          grind
        rcases hrest with hrest | ⟨p, hp⟩
        · have hmem : replacement ∈ cs := by
            rw [← h]
            exact List.mem_append_left _ (hrest ▸ List.mem_singleton_self _)
          exact absurd (hcs _ hmem) (by decide)
        · obtain ⟨c, hc, hwide⟩ := exists_wide (start_sound hp) bytes
          have hmem : c ∈ cs := by
            rw [← h]
            refine List.mem_append_right _ ?_
            show c ∈ (Machine.run step (start b).1 bytes).2 ++
              finish (Machine.run step (start b).1 bytes).1
            rw [hp]
            exact hc
          exact absurd (hcs c hmem) (by omega)

/-- Characters that are no controls are written in bytes that are none. -/
theorem le_of_mem_encode {cs : List Char} (h : ∀ c ∈ cs, 0x20 ≤ c.toNat) :
    ∀ b ∈ encode cs, 0x20 ≤ b.toNat := by
  intro b hb
  obtain ⟨c, hc, hb⟩ := List.mem_flatMap.mp hb
  have hle := h c hc
  have hspelled := spelled_utf8EncodeChar c
  generalize String.utf8EncodeChar c = bytes at hb hspelled
  cases hspelled <;> grind

/-! ### Which bytes are a character -/

/-- A character is written in one way. -/
theorem Spelled.unique {c : Char} {bytes others : List UInt8} (h : Spelled c bytes)
    (h' : Spelled c others) : bytes = others := by
  have hsame {a b : UInt8} {n : Nat} (ha : a.toNat = n) (hb : b.toNat = n) : a = b :=
    UInt8.toNat_inj.mp (ha.trans hb.symm)
  cases h with
  | one hlt ha =>
      cases h' with
      | one _ ha' => rw [hsame ha ha']
      | _ => omega
  | two hle hlt ha hb =>
      cases h' with
      | two _ _ ha' hb' => rw [hsame ha ha', hsame hb hb']
      | _ => omega
  | three hle hlt ha hb hd =>
      cases h' with
      | three _ _ ha' hb' hd' => rw [hsame ha ha', hsame hb hb', hsame hd hd']
      | _ => omega
  | four hle ha hb hd he =>
      cases h' with
      | four _ ha' hb' hd' he' => rw [hsame ha ha', hsame hb hb', hsame hd hd', hsame he he']
      | _ => omega

/-- A number that is read as a character is that of the character, and not too small. -/
theorem toNat_of_scalar? {least code : Nat} {c : Char} (h : scalar? least code = some c) :
    least ≤ c.toNat ∧ c.toNat = code := by
  rw [scalar?, Option.ite_none_right_eq_some] at h
  obtain ⟨⟨hle, hvalid⟩, hc⟩ := h
  rw [← Option.some.inj hc, toNat_ofNat hvalid]
  exact ⟨hle, rfl⟩

/-- A continuation is its bits behind the mark. -/
theorem toNat_of_isContinuation {b : UInt8} (hb : isContinuation b = true) :
    b.toNat = 0x80 + tailBits b := by
  obtain ⟨hle, hge⟩ : 0x80 ≤ b.toNat ∧ b.toNat ≤ 0xBF := by
    simpa [isContinuation, UInt8.le_iff_toNat_le] using hb
  rw [tailBits]
  omega

/-- What is read as a character is how it is written. -/
theorem spelled_of_decode? {c : Char} {bytes : List UInt8} (h : decode? bytes = some c) :
    Spelled c bytes := by
  have hrange := toNat_range c
  rw [decode?.eq_def] at h
  split at h
  · next a =>
    obtain ⟨ha, hc⟩ := Option.ite_none_right_eq_some.mp h
    have ha' : a.toNat < 0x80 := UInt8.lt_iff_toNat_lt.mp ha
    have hcode : (Char.ofNat a.toNat).toNat = a.toNat := toNat_ofNat (Or.inl (by omega))
    rw [Option.some.inj hc] at hcode
    exact .one (by omega) hcode.symm
  · next a b =>
    obtain ⟨hclass, hc⟩ := Option.ite_none_right_eq_some.mp h
    simp only [Bool.and_eq_true, decide_eq_true_eq, UInt8.le_iff_toNat_le] at hclass
    obtain ⟨⟨h1, h2⟩, hb⟩ := hclass
    have hb' := toNat_of_isContinuation hb
    obtain ⟨hle, hcode⟩ := toNat_of_scalar? hc
    have hbits : tailBits b < 64 := Nat.mod_lt _ (by decide)
    have h1' : 0xC0 ≤ a.toNat := h1
    have h2' : a.toNat ≤ 0xDF := h2
    exact .two hle (by omega) (by omega) (by omega)
  · next a b d =>
    obtain ⟨hclass, hc⟩ := Option.ite_none_right_eq_some.mp h
    simp only [Bool.and_eq_true, decide_eq_true_eq, UInt8.le_iff_toNat_le] at hclass
    obtain ⟨⟨⟨h1, h2⟩, hb⟩, hd⟩ := hclass
    have hb' := toNat_of_isContinuation hb
    have hd' := toNat_of_isContinuation hd
    obtain ⟨hle, hcode⟩ := toNat_of_scalar? hc
    have hbits : tailBits b < 64 := Nat.mod_lt _ (by decide)
    have hbits' : tailBits d < 64 := Nat.mod_lt _ (by decide)
    have h1' : 0xE0 ≤ a.toNat := h1
    have h2' : a.toNat ≤ 0xEF := h2
    exact .three hle (by omega) (by omega) (by omega) (by omega)
  · next a b d e =>
    obtain ⟨hclass, hc⟩ := Option.ite_none_right_eq_some.mp h
    simp only [Bool.and_eq_true, decide_eq_true_eq, UInt8.le_iff_toNat_le] at hclass
    obtain ⟨⟨⟨⟨h1, h2⟩, hb⟩, hd⟩, he⟩ := hclass
    have hb' := toNat_of_isContinuation hb
    have hd' := toNat_of_isContinuation hd
    have he' := toNat_of_isContinuation he
    obtain ⟨hle, hcode⟩ := toNat_of_scalar? hc
    have hbits : tailBits b < 64 := Nat.mod_lt _ (by decide)
    have hbits' : tailBits d < 64 := Nat.mod_lt _ (by decide)
    have hbits'' : tailBits e < 64 := Nat.mod_lt _ (by decide)
    have h1' : 0xF0 ≤ a.toNat := h1
    have h2' : a.toNat ≤ 0xF7 := h2
    exact .four hle (by omega) (by omega) (by omega) (by omega)
  · cases h

/-- **The bytes of a character** are those that are read as it. -/
theorem decode?_eq_some_iff {c : Char} {bytes : List UInt8} :
    decode? bytes = some c ↔ bytes = String.utf8EncodeChar c := by
  constructor
  · intro h
    exact (spelled_of_decode? h).unique (spelled_utf8EncodeChar c)
  · rintro rfl
    exact decode?_of_spelled (spelled_utf8EncodeChar c)

/-- No encoding of a character begins another, so texts are split in one way only. -/
theorem utf8EncodeChar_append_inj {c d : Char} {xs ys : List UInt8}
    (h : String.utf8EncodeChar c ++ xs = String.utf8EncodeChar d ++ ys) : c = d ∧ xs = ys := by
  have hread (c : Char) (xs : List UInt8) :
      (Machine.run step none (String.utf8EncodeChar c ++ xs)).2
        = c :: (Machine.run step none xs).2 := by
    rw [Machine.run_append, run_step_of_spelled (spelled_utf8EncodeChar c)]
    rfl
  have hfirst := congrArg (fun bytes => (Machine.run step none bytes).2) h
  simp only [hread] at hfirst
  obtain ⟨rfl, -⟩ := List.cons.inj hfirst
  exact ⟨rfl, List.append_cancel_left h⟩

/-- Every character has at least one byte. -/
theorem utf8EncodeChar_ne_nil (c : Char) : String.utf8EncodeChar c ≠ [] := by
  intro h
  have hspelled := spelled_utf8EncodeChar c
  rw [h] at hspelled
  cases hspelled

/-- What stands behind text in the bytes of a text is a text as well. -/
theorem eq_append_of_encode_eq {cs ds : List Char} {xs : List UInt8}
    (h : encode cs = encode ds ++ xs) : ∃ es, cs = ds ++ es ∧ xs = encode es := by
  induction ds generalizing cs with
  | nil => exact ⟨cs, rfl, h.symm⟩
  | cons d ds ih =>
      have hd : encode (d :: ds) = String.utf8EncodeChar d ++ encode ds := List.flatMap_cons
      rw [hd, List.append_assoc] at h
      cases cs with
      | nil =>
          refine absurd ?_ (utf8EncodeChar_ne_nil d)
          exact (List.append_eq_nil_iff.mp h.symm).1
      | cons c cs =>
          have hc : encode (c :: cs) = String.utf8EncodeChar c ++ encode cs := List.flatMap_cons
          rw [hc] at h
          obtain ⟨rfl, hrest⟩ := utf8EncodeChar_append_inj h
          obtain ⟨es, rfl, hxs⟩ := ih hrest
          exact ⟨es, rfl, hxs⟩

end Utf8

namespace Decoder

/-- A character that is drawn when it comes between units: no control of the C0 set, and not
    delete. -/
def Prints (c : Char) : Prop := 0x20 ≤ c.toNat ∧ c.toNat ≠ 0x7F

/-- The last byte of a character gives the character. -/
theorem step_character_last {bytes : List UInt8} {b : UInt8} {c : Char}
    (hb : Utf8.isContinuation b = true) (hc : Utf8.decode? (bytes ++ [b]) = some c) :
    step (.character bytes 1) b = (.ground, [.glyph c]) := by
  rw [step, fromCharacter, if_pos hb]
  show (ground, [Emission.glyph ((Utf8.decode? (bytes ++ [b])).getD Utf8.replacement)]) = _
  rw [hc, Option.getD_some]

/-- A byte before the last is kept. -/
theorem step_character_more {bytes : List UInt8} {b : UInt8} {missing : Nat}
    (hb : Utf8.isContinuation b = true) :
    step (.character bytes (missing + 2)) b = (.character (bytes ++ [b]) (missing + 1), []) := by
  rw [step, fromCharacter, if_pos hb, if_neg (by omega)]
  rfl

/-- A character that prints is given out behind its last byte. -/
theorem run_step_of_spelled {c : Char} {bytes : List UInt8} (hc : Prints c)
    (h : Utf8.Spelled c bytes) : Machine.run step .ground bytes = (.ground, [.glyph c]) := by
  have hrange := Utf8.toNat_range c
  have hdecode := Utf8.decode?_of_spelled h
  cases h with
  | @one a hlt ha =>
      have h1 : 0x20 ≤ a := Utf8.le_of_toNat_le (show 0x20 ≤ a.toNat by have := hc.1; omega)
      have h2 : a < 0x80 := UInt8.lt_iff_toNat_lt.mpr (show a.toNat < 0x80 by omega)
      have h3 : a ≠ 0x7F := by
        rintro rfl
        exact hc.2 ha.symm
      have hstep : fromGround a = (.ground, [.glyph (Char.ofNat a.toNat)]) := by
        grind [fromGround, Byte.escape, Byte.isC0, Byte.delete]
      rw [Machine.run_singleton, step, hstep, ha, Char.ofNat_toNat]
  | @two a b hle hlt ha hb =>
      have h1 : 0xC2 ≤ a := Utf8.le_of_toNat_le (show 0xC2 ≤ a.toNat by omega)
      have h2 : a ≤ 0xDF := Utf8.le_of_toNat_le (show a.toNat ≤ 0xDF by omega)
      have hstep : step .ground a = (.character [a] 1, []) := by
        grind [step, fromGround, Byte.escape, Byte.isC0, Byte.delete]
      rw [Machine.run_cons, hstep, Machine.run_singleton,
        step_character_last (Utf8.isContinuation_of_toNat hb) hdecode]
      rfl
  | @three a b d hle hlt ha hb hd =>
      have h1 : 0xE0 ≤ a := Utf8.le_of_toNat_le (show 0xE0 ≤ a.toNat by omega)
      have h2 : a ≤ 0xEF := Utf8.le_of_toNat_le (show a.toNat ≤ 0xEF by omega)
      have hstep : step .ground a = (.character [a] 2, []) := by
        grind [step, fromGround, Byte.escape, Byte.isC0, Byte.delete]
      rw [Machine.run_cons, hstep, Machine.run_cons,
        step_character_more (Utf8.isContinuation_of_toNat hb), Machine.run_singleton,
        step_character_last (Utf8.isContinuation_of_toNat hd) hdecode]
      rfl
  | @four a b d e hle ha hb hd he =>
      have h1 : 0xF0 ≤ a := Utf8.le_of_toNat_le (show 0xF0 ≤ a.toNat by omega)
      have h2 : a ≤ 0xF4 := Utf8.le_of_toNat_le (show a.toNat ≤ 0xF4 by omega)
      have hstep : step .ground a = (.character [a] 3, []) := by
        grind [step, fromGround, Byte.escape, Byte.isC0, Byte.delete]
      rw [Machine.run_cons, hstep, Machine.run_cons,
        step_character_more (Utf8.isContinuation_of_toNat hb), Machine.run_cons,
        step_character_more (Utf8.isContinuation_of_toNat hd), Machine.run_singleton,
        step_character_last (Utf8.isContinuation_of_toNat he) hdecode]
      rfl

/-- Text that prints is given out character by character. -/
theorem run_step_encode {cs : List Char} (h : ∀ c ∈ cs, Prints c) :
    Machine.run step .ground (Utf8.encode cs) = (.ground, cs.map Emission.glyph) := by
  have hrun : Machine.run step .ground (cs.flatMap String.utf8EncodeChar)
      = (.ground, cs.flatMap fun c => [Emission.glyph c]) :=
    Machine.run_flatMap fun c hc => run_step_of_spelled (h c hc) (Utf8.spelled_utf8EncodeChar c)
  rw [Utf8.encode, hrun, List.map_eq_flatMap]

end Decoder

end VideoTerminal
