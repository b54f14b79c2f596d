import VideoTerminal.Proofs.Numerals
import VideoTerminal.Toml.Key

/-!
# Quoted text read back

Text in quotes is read piece by piece, and what is written is read as the text it stands for,
whatever stands behind the quotes.  `Style.Spells` says so of any characters, without a bound on
the number of pieces.

Between single quotes, and between double quotes on one line, the pieces are the characters of the
text one by one.  Where three quotes close the text a run of quotes has to be read as a whole: up to
two of them are text, and these may stand right in front of the three.  So the induction goes over
the text with up to two quotes pending, which are written but not read yet.
-/

namespace VideoTerminal.Toml

/-! ## Pieces -/

namespace Style

/-- What stands in the first list begins with the text in the second, up to and with its closing
    quotes; behind them stands the third. -/
inductive Spells (style : Style) : List Char → List Char → List Char → Prop where
  | close {cs t rest : List Char} (hpiece : style.piece? cs = some (.close t, rest)) :
      Spells style cs t rest
  | text {cs next t u rest : List Char} (hpiece : style.piece? cs = some (.text t, next))
      (hshorter : next.length < cs.length) (hnext : Spells style next u rest) :
      Spells style cs (t ++ u) rest

theorem piece?_nil (style : Style) : style.piece? [] = none := by
  cases style <;> rfl

/-- The text is read, if there are steps enough. -/
theorem Spells.pieces? {style : Style} {cs t rest : List Char} (h : style.Spells cs t rest)
    {steps : List Char} (hsteps : cs.length ≤ steps.length) (read : Array Char) :
    style.pieces? read steps cs = some (read.toList ++ t, rest) := by
  induction h generalizing steps read with
  | @close cs t rest hpiece =>
      cases steps with
      | nil =>
          rw [List.eq_nil_of_length_eq_zero (Nat.le_zero.mp hsteps), piece?_nil] at hpiece
          exact absurd hpiece nofun
      | cons _ steps =>
          simp only [Style.pieces?, hpiece]
          rw [Array.toList_appendList]
  | @text cs next t u rest hpiece hshorter _ ih =>
      cases steps with
      | nil => exact absurd (Nat.lt_of_lt_of_le hshorter hsteps) (Nat.not_lt_zero _)
      | cons _ steps =>
          have hroom : next.length ≤ steps.length := by
            rw [List.length_cons] at hsteps
            omega
          simp only [Style.pieces?, hpiece]
          rw [ih hroom, Array.toList_appendList, List.append_assoc]

/-- A character that is read by itself. -/
theorem Spells.char {style : Style} (written : List Char) {next t rest : List Char} {c : Char}
    (hpiece : style.piece? (written ++ next) = some (.text [c], next)) (hsome : written ≠ [])
    (hnext : style.Spells next t rest) : style.Spells (written ++ next) (c :: t) rest := by
  refine .text hpiece ?_ hnext
  have hlength := List.length_pos_iff.mpr hsome
  rw [List.length_append]
  omega

end Style

/-! ## Characters -/

theorem newline?_cons {c : Char} (hlf : c ≠ '\n') (hcr : c ≠ '\r') (cs : List Char) :
    newline? (c :: cs) = none := by
  rw [newline?.eq_def]
  split
  · rename_i heq
    exact absurd (List.cons.inj heq).1 hlf
  · rename_i heq
    exact absurd (List.cons.inj heq).1 hcr
  · rfl

/-- All but control characters may stand in a line. -/
theorem isPlain_of_not_isControl {c : Char} (h : isControl c = false) (hlf : c ≠ '\n') :
    isPlain c = true := by
  by_cases htab : c = '\t'
  · rw [htab]
    rfl
  · simp only [isControl, Bool.or_eq_false_iff, Bool.and_eq_false_iff, decide_eq_false_iff_not,
      Char.not_lt, bne_eq_false_iff_eq, beq_eq_false_iff_ne] at h
    obtain ⟨(hle | h) | h, hdel⟩ := h
    · simp [isPlain, hle, hdel]
    · exact absurd h htab
    · exact absurd h hlf

theorem ne_cr_of_isPlain {c : Char} (h : isPlain c = true) : c ≠ '\r' := by
  rintro rfl
  exact absurd h (by decide)

theorem ne_lf_of_isPlain {c : Char} (h : isPlain c = true) : c ≠ '\n' := by
  rintro rfl
  exact absurd h (by decide)

/-- The escape of a control character gives its code point. -/
theorem codePoint?_control {n : Nat} (hn : n < 128) :
    codePoint? ['0', '0', upperDigit (n / 16), upperDigit (n % 16)] = some (Char.ofNat n) := by
  revert n
  decide

theorem toNat_lt_of_isControl {c : Char} (h : isControl c = true) : c.toNat < 128 := by
  rw [isControl, Bool.or_eq_true, Bool.and_eq_true, Bool.and_eq_true, decide_eq_true_eq,
    beq_iff_eq] at h
  rcases h with ⟨⟨hlt, -⟩, -⟩ | rfl
  · have hlt' : c.toNat < ' '.toNat := hlt
    exact Nat.lt_trans hlt' (by decide)
  · decide

/-- The characters behind the backslash stand for `c` in an escape, and no line ends with the
    backslash. -/
structure Escapes (c : Char) (behind : List Char) : Prop where
  escape? (cs : List Char) : escape? (behind ++ cs) = some (c, cs)
  continuation? (cs : List Char) : continuation? (behind ++ cs) = none

/-- Between double quotes a character is an escape or stands for itself. -/
theorem escaped_cases (c : Char) :
    (∃ behind, escaped c = '\x5c' :: behind ∧ Escapes c behind) ∨
      escaped c = [c] ∧ isPlain c = true ∧ c ≠ '\x22' ∧ c ≠ '\x5c' := by
  rw [escaped]
  split
  · next h => exact .inl ⟨['b'], rfl, h ▸ ⟨fun _ => rfl, fun _ => rfl⟩⟩
  split
  · next h => exact .inl ⟨['t'], rfl, h ▸ ⟨fun _ => rfl, fun _ => rfl⟩⟩
  split
  · next h => exact .inl ⟨['n'], rfl, h ▸ ⟨fun _ => rfl, fun _ => rfl⟩⟩
  split
  · next h => exact .inl ⟨['f'], rfl, h ▸ ⟨fun _ => rfl, fun _ => rfl⟩⟩
  split
  · next h => exact .inl ⟨['r'], rfl, h ▸ ⟨fun _ => rfl, fun _ => rfl⟩⟩
  split
  · subst c
    exact .inl ⟨['\x22'], rfl, fun _ => rfl, fun _ => rfl⟩
  split
  · subst c
    exact .inl ⟨['\x5c'], rfl, fun _ => rfl, fun _ => rfl⟩
  split
  · next hcontrol =>
    refine .inl ⟨_, rfl, fun cs => ?_, fun _ => rfl⟩
    have hread := codePoint?_control (toNat_lt_of_isControl hcontrol)
    rw [Char.ofNat_toNat] at hread
    exact congrArg (Option.map fun d => (d, cs)) hread
  · next hlf _ _ hquote hbackslash hcontrol =>
    exact .inr ⟨rfl, isPlain_of_not_isControl (Bool.eq_false_iff.mpr hcontrol) hlf, hquote,
      hbackslash⟩

/-! ## One line -/

namespace Style

theorem piece?_basic_escape {c : Char} {behind : List Char} (h : Escapes c behind)
    (cs : List Char) :
    Style.basic.piece? ('\x5c' :: behind ++ cs) = some (.text [c], cs) := by
  show (escape? (behind ++ cs)).map _ = _
  rw [h.escape?]
  rfl

theorem piece?_basicLines_escape {c : Char} {behind : List Char} (h : Escapes c behind)
    (cs : List Char) :
    Style.basicLines.piece? ('\x5c' :: behind ++ cs) = some (.text [c], cs) := by
  rw [List.cons_append, piece?, h.continuation?, h.escape?]
  rfl

theorem plain?_cons {c : Char} (h : isPlain c = true) (cs : List Char) :
    plain? (c :: cs) = some (.text [c], cs) := if_pos h

/-- A character of a text over lines: one that may stand in a line, or a line feed. -/
theorem plainOrNewline?_cons {c : Char} (h : isPlain c = true ∨ c = '\n') (cs : List Char) :
    plainOrNewline? (c :: cs) = some (.text [c], cs) := by
  rcases h with h | rfl
  · rw [plainOrNewline?, newline?_cons (ne_lf_of_isPlain h) (ne_cr_of_isPlain h)]
    exact plain?_cons h cs
  · rfl

theorem piece?_basic_plain {c : Char} (hquote : c ≠ '\x22') (hbackslash : c ≠ '\x5c')
    (cs : List Char) : Style.basic.piece? (c :: cs) = plain? (c :: cs) := by
  rw [piece?.eq_def]
  split <;> simp_all

theorem piece?_literal_plain {c : Char} (hquote : c ≠ '\'') (cs : List Char) :
    Style.literal.piece? (c :: cs) = plain? (c :: cs) := by
  rw [piece?.eq_def]
  split <;> simp_all

theorem piece?_basicLines_plain {c : Char} (hquote : c ≠ '\x22') (hbackslash : c ≠ '\x5c')
    (cs : List Char) : Style.basicLines.piece? (c :: cs) = plainOrNewline? (c :: cs) := by
  rw [piece?.eq_def]
  split <;> simp_all

theorem piece?_literalLines_plain {c : Char} (hquote : c ≠ '\'') (cs : List Char) :
    Style.literalLines.piece? (c :: cs) = plainOrNewline? (c :: cs) := by
  rw [piece?.eq_def]
  split <;> simp_all

/-- Between double quotes on one line every text can stand. -/
theorem spells_basic (t rest : List Char) :
    Style.basic.Spells (t.flatMap escaped ++ '\x22' :: rest) t rest := by
  induction t with
  | nil => exact .close rfl
  | cons c t ih =>
      rw [List.flatMap_cons, List.append_assoc]
      rcases escaped_cases c with ⟨behind, hescaped, hescapes⟩ | ⟨hescaped, hplain, hquote, hslash⟩
      · rw [hescaped]
        exact .char _ (piece?_basic_escape hescapes _) (List.cons_ne_nil _ _) ih
      · rw [hescaped]
        refine .char [c] ?_ (List.cons_ne_nil _ _) ih
        rw [List.singleton_append, piece?_basic_plain hquote hslash, plain?_cons hplain]

/-- Between single quotes on one line any text without them and without control characters. -/
theorem spells_literal {t : List Char} (ht : ∀ c ∈ t, isPlain c = true ∧ c ≠ '\'')
    (rest : List Char) : Style.literal.Spells (t ++ '\'' :: rest) t rest := by
  induction t with
  | nil => exact .close rfl
  | cons c t ih =>
      obtain ⟨⟨hplain, hquote⟩, hrest⟩ := List.forall_mem_cons.mp ht
      refine .char [c] ?_ (List.cons_ne_nil _ _) (ih hrest)
      rw [List.singleton_append, piece?_literal_plain hquote, plain?_cons hplain]

/-! ## Over lines -/

theorem length_takeWhile_replicate {q : Char} {cs : List Char} (hcs : cs.head? ≠ some q)
    (n : Nat) : ((List.replicate n q ++ cs).takeWhile (· == q)).length = n := by
  induction n with
  | zero =>
      cases cs with
      | nil => rfl
      | cons c cs =>
          have hne : (c == q) = false := beq_eq_false_iff_ne.mpr fun h => hcs (congrArg some h)
          show ((c :: cs).takeWhile (· == q)).length = 0
          rw [List.takeWhile_cons_of_neg (by rw [hne]; exact nofun), List.length_nil]
  | succ n ih =>
      show ((q :: (List.replicate n q ++ cs)).takeWhile (· == q)).length = n + 1
      rw [List.takeWhile_cons_of_pos (p := (· == q)) (beq_self_eq_true q), List.length_cons, ih]

/-- One or two quotes in a row are text, one by one. -/
theorem quotes?_text {q : Char} {cs : List Char} {n : Nat} (hn : n = 1 ∨ n = 2)
    (h : (cs.takeWhile (· == q)).length = n) : quotes? q cs = some (.text [q], cs.drop 1) := by
  rw [quotes?, h]
  rcases hn with rfl | rfl <;> rfl

/-- Three quotes close, and up to two more in front of them are text. -/
theorem quotes?_close {q : Char} {cs : List Char} {k : Nat} (hk : k ≤ 2)
    (h : (cs.takeWhile (· == q)).length = k + 3) :
    quotes? q cs = some (.close (List.replicate k q), cs.drop (k + 3)) := by
  rw [quotes?, h]
  obtain rfl | rfl | rfl : k = 0 ∨ k = 1 ∨ k = 2 := by omega
  all_goals rfl

section quotes

variable {style : Style} {q : Char} (hq : ∀ cs, style.piece? (q :: cs) = quotes? q (q :: cs))

include hq

/-- Three quotes close a text, together with up to two in front of them that are text. -/
theorem spells_close {k : Nat} (hk : k ≤ 2) {rest : List Char} (hrest : rest.head? ≠ some q) :
    style.Spells (List.replicate k q ++ q :: q :: q :: rest) (List.replicate k q) rest := by
  have hclose := quotes?_close hk (length_takeWhile_replicate hrest (k + 3))
  obtain rfl | rfl | rfl : k = 0 ∨ k = 1 ∨ k = 2 := by omega
  all_goals exact .close ((hq _).trans hclose)

/-- One or two quotes with none behind them are text. -/
theorem spells_quotes {k : Nat} (hk : k ≤ 2) {cs t rest : List Char} (hcs : cs.head? ≠ some q)
    (h : style.Spells cs t rest) :
    style.Spells (List.replicate k q ++ cs) (List.replicate k q ++ t) rest := by
  have hone : style.Spells (q :: cs) (q :: t) rest :=
    .char [q] ((hq _).trans (quotes?_text (.inl rfl) (length_takeWhile_replicate hcs 1)))
      (List.cons_ne_nil _ _) h
  obtain rfl | rfl | rfl : k = 0 ∨ k = 1 ∨ k = 2 := by omega
  · exact h
  · exact hone
  · exact .char [q] ((hq _).trans (quotes?_text (.inr rfl) (length_takeWhile_replicate hcs 2)))
      (List.cons_ne_nil _ _) hone

/-- A character that is written without a quote in front, behind one or two quotes. -/
theorem spells_behind {k : Nat} (hk : k ≤ 2) (written : List Char) {next t rest : List Char}
    {c : Char} (hpiece : style.piece? (written ++ next) = some (.text [c], next))
    (hfirst : ∃ d ds, written = d :: ds ∧ d ≠ q) (hnext : style.Spells next t rest) :
    style.Spells (List.replicate k q ++ (written ++ next)) (List.replicate k q ++ c :: t) rest := by
  obtain ⟨d, ds, rfl, hd⟩ := hfirst
  refine spells_quotes hq hk ?_ (.char _ hpiece (List.cons_ne_nil _ _) hnext)
  exact fun h => hd (Option.some.inj h)

end quotes

theorem replicate_append_cons (k : Nat) (q : Char) (cs : List Char) :
    List.replicate k q ++ q :: cs = List.replicate (k + 1) q ++ cs := by
  rw [List.replicate_succ', List.append_assoc, List.singleton_append]

/-- Between three double quotes every text can stand. -/
theorem spells_basicLines (t : List Char) {k : Nat} (hk : k ≤ 2) {rest : List Char}
    (hrest : rest.head? ≠ some '\x22') :
    Style.basicLines.Spells
      (List.replicate k '\x22' ++ (escapedLines k t ++ '\x22' :: '\x22' :: '\x22' :: rest))
      (List.replicate k '\x22' ++ t) rest := by
  have hq : ∀ cs, Style.basicLines.piece? ('\x22' :: cs) = quotes? '\x22' ('\x22' :: cs) :=
    fun _ => rfl
  induction t generalizing k with
  | nil =>
      rw [List.append_nil]
      exact spells_close hq hk hrest
  | cons c t ih =>
      have hnext := ih (k := 0) (Nat.zero_le 2)
      rw [escapedLines]
      split
      · next hlf =>
        subst c
        exact spells_behind hq hk ['\n'] rfl ⟨_, _, rfl, by decide⟩ hnext
      split
      · next hquote =>
        -- one more quote is pending
        obtain ⟨rfl, hlt⟩ := hquote
        rw [List.cons_append, replicate_append_cons, replicate_append_cons]
        exact ih hlt
      · next hlf hquote =>
        rw [List.append_assoc]
        rcases escaped_cases c with ⟨behind, hescaped, hescapes⟩ | ⟨hescaped, hplain, hne, hslash⟩
        · rw [hescaped]
          exact spells_behind hq hk _ (piece?_basicLines_escape hescapes _)
            ⟨_, _, rfl, by decide⟩ hnext
        · rw [hescaped]
          refine spells_behind hq hk [c] ?_ ⟨_, _, rfl, hne⟩ hnext
          rw [List.singleton_append, piece?_basicLines_plain hne hslash,
            plainOrNewline?_cons (.inl hplain)]

/-- Of a text without three quotes in a row, at most two are at the front. -/
theorem replicate_le_of_hasTriple {q : Char} {k : Nat} {cs : List Char}
    (h : hasTriple q (List.replicate k q ++ cs) = false) : k ≤ 2 := by
  refine Nat.le_of_not_lt fun hlt => ?_
  obtain ⟨n, rfl⟩ : ∃ n, k = n + 3 := ⟨k - 3, by omega⟩
  simp [List.replicate_succ, hasTriple] at h

theorem hasTriple_tail {q c : Char} {cs : List Char} (h : hasTriple q (c :: cs) = false) :
    hasTriple q cs = false := by
  rcases cs with - | ⟨a, - | ⟨b, cs⟩⟩
  · rfl
  · rfl
  · rw [hasTriple, Bool.or_eq_false_iff] at h
    exact h.2

theorem hasTriple_append {q : Char} {cs ds : List Char} (h : hasTriple q (cs ++ ds) = false) :
    hasTriple q ds = false := by
  induction cs with
  | nil => exact h
  | cons c cs ih => exact ih (hasTriple_tail h)

/-- Between three single quotes any text without three of them in a row, and without control
    characters other than line feeds. -/
theorem spells_literalLines (t : List Char) {k : Nat}
    (ht : ∀ c ∈ t, isPlain c = true ∨ c = '\n')
    (htriple : hasTriple '\'' (List.replicate k '\'' ++ t) = false) {rest : List Char}
    (hrest : rest.head? ≠ some '\'') :
    Style.literalLines.Spells (List.replicate k '\'' ++ (t ++ '\'' :: '\'' :: '\'' :: rest))
      (List.replicate k '\'' ++ t) rest := by
  have hq : ∀ cs, Style.literalLines.piece? ('\'' :: cs) = quotes? '\'' ('\'' :: cs) :=
    fun _ => rfl
  have hk := replicate_le_of_hasTriple htriple
  induction t generalizing k with
  | nil =>
      rw [List.append_nil]
      exact spells_close hq hk hrest
  | cons c t ih =>
      obtain ⟨hc, hrestPlain⟩ := List.forall_mem_cons.mp ht
      by_cases hquote : c = '\''
      · -- one more quote is pending
        subst c
        rw [replicate_append_cons] at htriple
        rw [List.cons_append, replicate_append_cons, replicate_append_cons]
        exact ih hrestPlain htriple (replicate_le_of_hasTriple htriple)
      · have hnext := ih (k := 0) hrestPlain (hasTriple_tail (hasTriple_append htriple))
          (Nat.zero_le 2)
        refine spells_behind hq hk [c] ?_ ⟨_, _, rfl, hquote⟩ hnext
        rw [List.singleton_append, piece?_literalLines_plain hquote, plainOrNewline?_cons hc]

/-! ## Any style -/

/-- The character that quotes are made of. -/
def quote : Style → Char
  | .basic | .basicLines => '\x22'
  | .literal | .literalLines => '\''

/-- A text that can stand in a style. -/
def Carries (style : Style) (t : List Char) : Prop :=
  match style with
  | .basic | .basicLines => True
  | .literal => ∀ c ∈ t, isPlain c = true ∧ c ≠ '\''
  | .literalLines => (∀ c ∈ t, isPlain c = true ∨ c = '\n') ∧ hasTriple '\'' t = false

/-- What stands between the quotes is read, with the closing quotes.  Three quotes must not have
    more of them behind. -/
theorem spells_body {style : Style} {t : List Char} (ht : style.Carries t) {rest : List Char}
    (hrest : style.spansLines = true → rest.head? ≠ some style.quote) :
    style.Spells (style.body t ++ (style.quotes ++ rest)) t rest := by
  cases style with
  | basic => exact spells_basic t rest
  | literal => exact spells_literal ht rest
  | basicLines => exact spells_basicLines t (Nat.zero_le 2) (hrest rfl)
  | literalLines => exact spells_literalLines t (k := 0) ht.1 ht.2 (hrest rfl)

/-- The line end behind the opening quotes, if there is one. -/
def opening (style : Style) (t : List Char) : List Char :=
  if style.spansLines && t.contains '\n' then ['\n'] else []

theorem write_eq (style : Style) (t : List Char) :
    style.write t = style.quotes ++ (style.opening t ++ (style.body t ++ style.quotes)) := by
  rw [write, opening, List.append_assoc, List.append_assoc]

/-- Text without line feeds does not begin with a line end, so none is dropped. -/
theorem newline?_body {style : Style} {t : List Char} (ht : style.Carries t)
    (hspans : style.spansLines = true) (hlf : '\n' ∉ t) (rest : List Char) :
    newline? (style.body t ++ (style.quotes ++ rest)) = none := by
  have hplain : ∀ {c : Char}, isPlain c = true → ∀ cs, newline? (c :: cs) = none :=
    fun h => newline?_cons (ne_lf_of_isPlain h) (ne_cr_of_isPlain h)
  cases t with
  | nil => cases style <;> rfl
  | cons c t =>
      have hc : c ≠ '\n' := fun h => hlf (h ▸ List.mem_cons_self)
      cases style with
      | basic => exact absurd hspans nofun
      | literal => exact absurd hspans nofun
      | basicLines =>
          rw [body, escapedLines, if_neg hc]
          split
          · rfl
          · rcases escaped_cases c with ⟨behind, hescaped, -⟩ | ⟨hescaped, hc, -⟩
            · rw [hescaped]
              rfl
            · rw [hescaped]
              exact hplain hc _
      | literalLines =>
          rcases ht.1 c List.mem_cons_self with h | h
          · exact hplain h _
          · exact absurd h hc

/-- Behind its opening quotes a text is read as it was. -/
theorem read?_opening {style : Style} {t : List Char} (ht : style.Carries t) (rest : List Char)
    (hrest : style.spansLines = true → rest.head? ≠ some style.quote) :
    style.read? (style.opening t ++ (style.body t ++ (style.quotes ++ rest)))
      = some (String.ofList t, rest) := by
  have hbody : (if style.spansLines then
        dropNewline (style.opening t ++ (style.body t ++ (style.quotes ++ rest)))
      else style.opening t ++ (style.body t ++ (style.quotes ++ rest)))
      = style.body t ++ (style.quotes ++ rest) := by
    cases hspans : style.spansLines with
    | false =>
        rw [opening, hspans]
        rfl
    | true =>
        rw [opening, hspans, if_pos rfl, Bool.true_and]
        split
        · rfl
        · next hlf =>
          rw [List.nil_append, dropNewline, newline?_body ht hspans (by simpa using hlf) rest]
          rfl
  have hread := (spells_body ht hrest).pieces? (Nat.le_refl _) #[]
  rw [read?, hbody]
  simp only [hread]
  rfl

end Style

/-! ## Texts as they are written -/

/-- One double quote opens a text on one line. -/
theorem quoted?_basic {cs : List Char} (h : ∀ ds, cs ≠ '\x22' :: '\x22' :: ds) :
    quoted? ('\x22' :: cs) = Style.basic.read? cs := by
  rw [quoted?.eq_def]
  split <;> simp_all

/-- One single quote opens a text on one line. -/
theorem quoted?_literal {cs : List Char} (h : ∀ ds, cs ≠ '\'' :: '\'' :: ds) :
    quoted? ('\'' :: cs) = Style.literal.read? cs := by
  rw [quoted?.eq_def]
  split <;> simp_all

/-- A text is read in whichever style it is written, unless one more quote follows it. -/
theorem quoted?_write {style : Style} {t : List Char} (ht : style.Carries t) {rest : List Char}
    (hrest : rest.head? ≠ some style.quote) :
    quoted? (style.write t ++ rest) = some (String.ofList t, rest) := by
  have hread := Style.read?_opening ht rest (fun _ => hrest)
  rw [Style.write_eq, List.append_assoc, List.append_assoc, List.append_assoc]
  cases style with
  | basicLines => exact hread
  | literalLines => exact hread
  | basic =>
      refine (quoted?_basic fun ds heq => ?_).trans hread
      -- two quotes in front would be those of an empty text with a quote behind it
      cases t with
      | nil => exact hrest (congrArg List.head? (List.cons.inj heq).2)
      | cons c t =>
          rcases escaped_cases c with ⟨behind, hescaped, -⟩ | ⟨hescaped, -, hquote, -⟩
          · have hbody : Style.basic.body (c :: t) = '\x5c' :: behind ++ t.flatMap escaped :=
              congrArg (· ++ _) hescaped
            rw [hbody] at heq
            exact absurd (List.cons.inj heq).1 (by decide)
          · have hbody : Style.basic.body (c :: t) = [c] ++ t.flatMap escaped :=
              congrArg (· ++ _) hescaped
            rw [hbody] at heq
            exact hquote (List.cons.inj heq).1
  | literal =>
      refine (quoted?_literal fun ds heq => ?_).trans hread
      cases t with
      | nil => exact hrest (congrArg List.head? (List.cons.inj heq).2)
      | cons c t => exact (ht c List.mem_cons_self).2 (List.cons.inj heq).1

theorem isPlain_of_any_isControl {t : List Char} (h : t.any isControl = false) {c : Char}
    (hc : c ∈ t) (hlf : c ≠ '\n') : isPlain c = true :=
  isPlain_of_not_isControl (Bool.eq_false_iff.mpr (List.any_eq_false.mp h c hc)) hlf

theorem ne_of_contains {t : List Char} {d : Char} (h : t.contains d = false) {c : Char}
    (hc : c ∈ t) : c ≠ d := by
  rintro rfl
  rw [List.contains_iff_mem.mpr hc] at h
  exact absurd h.symm Bool.false_ne_true

/-- Single quotes on one line carry a text without them, line feeds and control characters. -/
theorem carries_literal {t : List Char} (hcontrol : t.any isControl = false)
    (hquote : t.contains '\'' = false) (hlf : t.contains '\n' = false) :
    Style.literal.Carries t := fun _ hc =>
  ⟨isPlain_of_any_isControl hcontrol hc (ne_of_contains hlf hc), ne_of_contains hquote hc⟩

/-- The style that is chosen for a value carries it. -/
theorem carries_ofValue (t : List Char) : (Style.ofValue t).Carries t := by
  rw [Style.ofValue]
  split
  · exact trivial
  split
  · next h =>
    simp only [Bool.and_eq_true, Bool.not_eq_true'] at h
    obtain ⟨⟨hcontrol, hquote⟩, hlf⟩ := h
    exact carries_literal hcontrol hquote hlf
  split
  · exact trivial
  split
  · next h =>
    simp only [Bool.and_eq_true, Bool.not_eq_true'] at h
    obtain ⟨hcontrol, htriple⟩ := h
    refine ⟨fun c hc => ?_, htriple⟩
    by_cases hlf : c = '\n'
    · exact .inr hlf
    · exact .inl (isPlain_of_any_isControl hcontrol hc hlf)
  split <;> exact trivial

/-- A written value of text is read back, unless a quote follows it. -/
theorem quoted?_write_ofValue (s : String) {rest : List Char} (hbasic : rest.head? ≠ some '\x22')
    (hliteral : rest.head? ≠ some '\'') :
    quoted? ((Style.ofValue s.toList).write s.toList ++ rest) = some (s, rest) := by
  have hquote : rest.head? ≠ some (Style.ofValue s.toList).quote := by
    cases Style.ofValue s.toList with
    | basic => exact hbasic
    | basicLines => exact hbasic
    | literal => exact hliteral
    | literalLines => exact hliteral
  rw [quoted?_write (carries_ofValue s.toList) hquote, String.ofList_toList]

/-! ## Keys -/

/-- The style that is chosen for a key carries it, on one line. -/
theorem carries_ofKey (t : List Char) :
    (Style.ofKey t).Carries t ∧ (Style.ofKey t).spansLines = false := by
  rw [Style.ofKey]
  split
  · exact ⟨trivial, rfl⟩
  split
  · next h =>
    simp only [Bool.and_eq_true, Bool.not_eq_true', Bool.or_eq_false_iff] at h
    obtain ⟨⟨hcontrol, hlf⟩, hquote⟩ := h
    exact ⟨carries_literal hcontrol hquote hlf, rfl⟩
  · exact ⟨trivial, rfl⟩

/-- A bare key ends where no more of its characters follow. -/
theorem key?_bare {name rest : List Char} (hbare : isBareKey name = true)
    (hrest : ∀ c ∈ rest.head?, isBareKeyChar c = false) :
    key? (name ++ rest) = some (String.ofList name, rest) := by
  rw [isBareKey, Bool.and_eq_true, Bool.not_eq_true', List.all_eq_true] at hbare
  obtain ⟨hsome, hname⟩ := hbare
  have hspan := Field.span_append hname hrest
  cases name with
  | nil => exact absurd hsome nofun
  | cons c name =>
      have hc : isBareKeyChar c = true := hname c List.mem_cons_self
      rw [key?.eq_def]
      split
      · next heq =>
        rw [(List.cons.inj heq).1] at hc
        exact absurd hc (by decide)
      · next heq =>
        rw [(List.cons.inj heq).1] at hc
        exact absurd hc (by decide)
      · simp only [hspan]
        rfl

/-- A written key is read back, unless a character that a bare key could have follows it. -/
theorem key?_writeKey (key : String) {rest : List Char}
    (hrest : ∀ c ∈ rest.head?, isBareKeyChar c = false) :
    key? (writeKey key ++ rest) = some (key, rest) := by
  rw [writeKey]
  split
  · next hbare =>
    rw [key?_bare hbare hrest, String.ofList_toList]
  · obtain ⟨hcarries, hline⟩ := carries_ofKey key.toList
    have hread := Style.read?_opening hcarries rest
      (fun hspans => absurd (hspans.symm.trans hline) nofun)
    rw [String.ofList_toList] at hread
    rw [Style.write_eq, List.append_assoc, List.append_assoc, List.append_assoc]
    generalize Style.ofKey key.toList = style at hread hline
    cases style with
    | basic => exact hread
    | literal => exact hread
    | basicLines => exact absurd hline nofun
    | literalLines => exact absurd hline nofun

end VideoTerminal.Toml
