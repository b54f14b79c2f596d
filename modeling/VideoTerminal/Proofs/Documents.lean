import VideoTerminal.Proofs.QuotedText
import VideoTerminal.Toml.Document

/-!
# Documents read back

A document that is written from sections is read as the statements of these sections, one header
and the assignments of its entries each.

Every key and every value is read up to its own end, whatever stands behind it on the next line.
For texts in quotes this is known; for a number it is seen from the digits, since what is no digit
behind them is the line end, and dates, times and numbers of other bases need something else there.
`Reads` says that a text is read as some statements, and holds by its two rules from the end of the
text to its beginning.
-/

namespace VideoTerminal.Toml

open Numeral (decimal decimalDigit?)

/-! ## How keys and values begin -/

/-- A character that a key or a value other than an array begins with. -/
def isInitial (c : Char) : Bool := isBareKeyChar c || c == '\x22' || c == '\''

/-- A character that may begin something is none that may not. -/
theorem ne_of_isInitial {c d : Char} (hc : isInitial c = true) (hd : isInitial d = false) :
    c ≠ d := by
  rintro rfl
  exact absurd (hc.symm.trans hd) nofun

/-- The text begins as a key or a value does that is no array. -/
def Begins (cs : List Char) : Prop := ∃ c ds, cs = c :: ds ∧ isInitial c = true

/-- What begins well still does with more behind it. -/
theorem Begins.append {cs : List Char} (h : Begins cs) (ds : List Char) : Begins (cs ++ ds) := by
  obtain ⟨c, cs, rfl, hc⟩ := h
  exact ⟨c, cs ++ ds, rfl, hc⟩

/-- Nothing begins well without a character. -/
theorem Begins.ne_nil {cs : List Char} (h : Begins cs) : cs ≠ [] := by
  obtain ⟨c, cs, rfl, -⟩ := h
  exact List.cons_ne_nil c cs

/-- No blank begins anything. -/
theorem not_isBlank {c : Char} (hc : isInitial c = true) : ¬isBlank c = true := by
  rw [isBlank, Bool.or_eq_true, beq_iff_eq, beq_iff_eq]
  exact fun h => h.elim (ne_of_isInitial hc rfl) (ne_of_isInitial hc rfl)

/-- There are no blanks to drop in front. -/
theorem Begins.dropBlanks {cs : List Char} (h : Begins cs) : dropBlanks cs = cs := by
  obtain ⟨c, cs, rfl, hc⟩ := h
  exact List.dropWhile_cons_of_neg (not_isBlank hc)

/-- Nor blank lines or comments. -/
theorem Begins.dropGap {cs : List Char} (h : Begins cs) : dropGap false cs = cs := by
  obtain ⟨c, cs, rfl, hc⟩ := h
  have hblank : ¬isBlank c = true := not_isBlank hc
  rw [Toml.dropGap.eq_def]
  split
  · next heq => exact absurd (List.cons.inj heq).1 (ne_of_isInitial hc rfl)
  · next heq => exact absurd (List.cons.inj heq).1 (ne_of_isInitial hc rfl)
  · next hfalse _ => exact absurd hfalse nofun
  · next d ds heq =>
    obtain ⟨rfl, rfl⟩ := List.cons.inj heq
    rw [if_neg (ne_of_isInitial hc rfl), if_neg hblank]
  · next heq => exact absurd heq nofun

/-- A text in quotes begins with a quote. -/
theorem exists_cons_writeString (s : String) :
    ∃ q cs, writeString s = q :: cs ∧ (q = '\x22' ∨ q = '\'') := by
  rw [writeString, Style.write_eq]
  cases Style.ofValue s.toList with
  | basic => exact ⟨_, _, rfl, .inl rfl⟩
  | literal => exact ⟨_, _, rfl, .inr rfl⟩
  | basicLines => exact ⟨_, _, rfl, .inl rfl⟩
  | literalLines => exact ⟨_, _, rfl, .inr rfl⟩

/-- A string that is written begins with a quote. -/
theorem begins_writeString (s : String) : Begins (writeString s) := by
  obtain ⟨q, cs, hwrite, hquote⟩ := exists_cons_writeString s
  refine ⟨q, cs, hwrite, ?_⟩
  rcases hquote with rfl | rfl <;> rfl

/-- A key begins with a quote or as a bare one. -/
theorem begins_writeKey (key : String) : Begins (writeKey key) := by
  rw [writeKey]
  split
  · next hbare =>
    rw [isBareKey, Bool.and_eq_true, Bool.not_eq_true', List.all_eq_true] at hbare
    obtain ⟨hsome, hname⟩ := hbare
    cases hkey : key.toList with
    | nil =>
        rw [hkey] at hsome
        exact absurd hsome.symm Bool.false_ne_true
    | cons c cs =>
        have hc := hname c (hkey ▸ List.mem_cons_self)
        exact ⟨c, cs, rfl, by rw [isInitial, hc, Bool.true_or, Bool.true_or]⟩
  · rw [Style.write_eq]
    cases Style.ofKey key.toList <;> exact ⟨_, _, rfl, rfl⟩

/-- A number begins with a digit. -/
theorem begins_decimal (n : Nat) : Begins (decimal n) := by
  obtain ⟨c, cs, hsplit⟩ := List.exists_cons_of_ne_nil (Numeral.decimal_ne_nil n)
  refine ⟨c, cs, hsplit, ?_⟩
  have hmem : c ∈ decimal n := hsplit ▸ List.mem_cons_self
  have hdigit : c.isDigit = true := Nat.isDigit_of_mem_toDigits (by decide) (by decide) hmem
  rw [isInitial, isBareKeyChar, Char.isAlphanum, hdigit, Bool.or_true, Bool.true_or, Bool.true_or,
    Bool.true_or, Bool.true_or]

/-! ## Numbers -/

/-- Behind digits at the front there is a digit or the line end, so no separator. -/
theorem expect?_eq_none {n : Nat} {rest : List Char} {k v : Nat} {sep : Char} {behind : List Char}
    (hsep : decimalDigit? sep = none) (hlf : sep ≠ '\n')
    (h : fixedDigits? k (decimal n ++ '\n' :: rest) = some (v, behind)) :
    expect? sep behind = none := by
  rw [fixedDigits?] at h
  obtain ⟨hlength, h⟩ := Option.ite_none_right_eq_some.mp h
  obtain ⟨w, hw, heq⟩ := Option.map_eq_some_iff.mp h
  rw [← (Prod.mk.inj heq).2]
  have hk : k ≤ (decimal n).length := by
    refine Nat.le_of_not_lt fun hlt => ?_
    obtain ⟨m, hm⟩ : ∃ m, k - (decimal n).length = m + 1 := ⟨k - (decimal n).length - 1, by omega⟩
    have hmem : '\n' ∈ (decimal n ++ '\n' :: rest).take k := by
      rw [List.take_append, hm]
      exact List.mem_append_right _ List.mem_cons_self
    exact absurd (Numeral.isSome_of_mem_ofDigits? hw hmem) nofun
  rw [List.drop_append_of_le_length hk]
  cases hrun : (decimal n).drop k with
  | nil => exact if_neg hlf.symm
  | cons d ds =>
      have hmem : d ∈ decimal n := List.mem_of_mem_drop (hrun ▸ List.mem_cons_self)
      exact if_neg (Numeral.ne_of_mem_decimal hmem hsep)

section numbers

variable (n : Nat) (rest : List Char)

/-- A number followed by the end of the line is no date or time. -/
theorem dateTime?_decimal : dateTime? (decimal n ++ '\n' :: rest) = none := by
  have hdate : date? (decimal n ++ '\n' :: rest) = none := by
    rw [date?]
    cases hyear : fixedDigits? 4 (decimal n ++ '\n' :: rest) with
    | none => rfl
    | some year =>
        show (expect? '-' year.2).bind _ = none
        rw [expect?_eq_none rfl (by decide) hyear]
        rfl
  have htime : time? (decimal n ++ '\n' :: rest) = none := by
    rw [time?]
    cases hhour : fixedDigits? 2 (decimal n ++ '\n' :: rest) with
    | none => rfl
    | some hour =>
        show (expect? ':' hour.2).bind _ = none
        rw [expect?_eq_none rfl (by decide) hhour]
        rfl
  rw [dateTime?, hdate, htime]
  rfl

/-- It is none of the words that begin with a letter. -/
theorem after?_decimal {a : Char} (ha : decimalDigit? a = none) (start : List Char) :
    Field.after? (a :: start) (decimal n ++ '\n' :: rest) = none := by
  obtain ⟨c, cs, hsplit⟩ := List.exists_cons_of_ne_nil (Numeral.decimal_ne_nil n)
  have hc : c ∈ decimal n := hsplit ▸ List.mem_cons_self
  rw [hsplit]
  exact if_neg (Numeral.ne_of_mem_decimal hc ha).symm

/-- It has no sign. -/
theorem sign_decimal : sign (decimal n ++ '\n' :: rest) = (false, decimal n ++ '\n' :: rest) := by
  obtain ⟨c, cs, hsplit⟩ := List.exists_cons_of_ne_nil (Numeral.decimal_ne_nil n)
  have hc : c ∈ decimal n := hsplit ▸ List.mem_cons_self
  rw [hsplit, List.cons_append, sign.eq_def]
  split
  · next heq => exact absurd (List.cons.inj heq).1 (Numeral.ne_of_mem_decimal hc rfl)
  · next heq => exact absurd (List.cons.inj heq).1 (Numeral.ne_of_mem_decimal hc rfl)
  · rfl

/-- All of its digits are read. -/
theorem digits?_decimal :
    digits? decimalDigit? (decimal n ++ '\n' :: rest) = some (decimal n, '\n' :: rest) := by
  have hspan : (decimal n ++ '\n' :: rest).span (fun c => (decimalDigit? c).isSome || c == '_')
      = (decimal n, '\n' :: rest) := by
    refine Field.span_append (fun c hc => ?_) (fun c hc => ?_)
    · rw [Numeral.isSome_of_mem_decimal hc, Bool.true_or]
    · rw [← Option.some.inj hc]
      rfl
  have hfields : Field.all '_' (decimal n) = [decimal n] :=
    Field.all_of_not_mem fun h => Numeral.ne_of_mem_decimal h rfl rfl
  simp only [digits?, hspan, hfields]
  rw [if_neg (by simp [Numeral.decimal_ne_nil]), List.flatten_singleton]

/-- A number is read from its numeral, as one of base ten. -/
theorem decimal?_write (hn : n ≤ maxInteger) :
    decimal? (decimal n ++ '\n' :: rest) = some (.integer n, '\n' :: rest) := by
  have hzero : ¬((decimal n).head? = some '0' ∧ 1 < (decimal n).length) := by
    rintro ⟨hhead, hlength⟩
    rw [Numeral.eq_zero_of_head?_decimal hhead] at hlength
    exact absurd hlength (by decide)
  have hfraction : fraction? ('\n' :: rest) = some ([], '\n' :: rest) := rfl
  have hexponent : exponent? ('\n' :: rest) = some (none, '\n' :: rest) := rfl
  simp only [decimal?, sign_decimal, digits?_decimal, hfraction, hexponent, Option.bind_eq_bind,
    Option.bind_some, if_neg hzero]
  show (Numeral.ofDigits? decimalDigit? 10 maxInteger (decimal n)).bind _ = _
  rw [Numeral.ofDigits?_decimal hn]
  rfl

/-- A number is read back as long as it is one of 64 bits. -/
theorem number?_decimal (hn : n ≤ maxInteger) :
    number? (decimal n ++ '\n' :: rest) = some (.integer n, '\n' :: rest) := by
  -- the second character is a digit or the line end, so no base is named
  have hsecond : ∀ {b c : Char} {cs : List Char}, decimal n ++ '\n' :: rest = b :: c :: cs →
      c = '\n' ∨ c ∈ decimal n := by
    intro b c cs heq
    obtain ⟨d, ds, hsplit⟩ := List.exists_cons_of_ne_nil (Numeral.decimal_ne_nil n)
    rw [hsplit] at heq ⊢
    cases ds with
    | nil => exact .inl (List.cons.inj (List.cons.inj heq).2).1.symm
    | cons e ds =>
        rw [← (List.cons.inj (List.cons.inj heq).2).1]
        exact .inr (List.mem_cons_of_mem _ List.mem_cons_self)
  have hbase : ∀ {b c : Char} {cs : List Char}, decimal n ++ '\n' :: rest = b :: c :: cs →
      decimalDigit? c = none → c ≠ '\n' → False := fun heq hc hlf =>
    (hsecond heq).elim hlf fun hmem => Numeral.ne_of_mem_decimal hmem hc rfl
  rw [number?.eq_def]
  split
  · next heq => exact (hbase heq rfl (by decide)).elim
  · next heq => exact (hbase heq rfl (by decide)).elim
  · next heq => exact (hbase heq rfl (by decide)).elim
  · rw [special?, sign_decimal, after?_decimal n rest rfl, after?_decimal n rest rfl,
      decimal?_write n rest hn]
    rfl

end numbers

/-! ## Values -/

/-- A number in a literal is one that can be read. -/
def Literal.Fits : Literal → Prop
  | .integer n => n ≤ maxInteger
  | .string _ | .strings _ => True

/-- What begins neither an array nor a table is a simple value. -/
theorem value?_of_begins {cs : List Char} (h : Begins cs) (depth : Nat) :
    value? depth cs = simple? cs := by
  obtain ⟨c, cs, rfl, hc⟩ := h
  rw [value?.eq_def]
  split
  · next heq => exact absurd (List.cons.inj heq).1 (ne_of_isInitial hc rfl)
  · next heq => exact absurd (List.cons.inj heq).1 (ne_of_isInitial hc rfl)
  · rfl

/-- It is read back as a value, however deep. -/
theorem value?_decimal {n : Nat} (hn : n ≤ maxInteger) (depth : Nat) (rest : List Char) :
    value? depth (decimal n ++ '\n' :: rest) = some (.integer n, '\n' :: rest) := by
  have hdate := dateTime?_decimal n rest
  have hboolean : boolean? (decimal n ++ '\n' :: rest) = none := by
    rw [boolean?, after?_decimal n rest rfl, after?_decimal n rest rfl]
    rfl
  have hnumber := number?_decimal n rest hn
  rw [value?_of_begins ((begins_decimal n).append _)]
  obtain ⟨c, cs, hsplit⟩ := List.exists_cons_of_ne_nil (Numeral.decimal_ne_nil n)
  have hc : c ∈ decimal n := hsplit ▸ List.mem_cons_self
  have hquote : ¬(c = '\x22' ∨ c = '\'') := fun h =>
    h.elim (Numeral.ne_of_mem_decimal hc rfl) (Numeral.ne_of_mem_decimal hc rfl)
  rw [hsplit, List.cons_append] at hdate hboolean hnumber ⊢
  rw [simple?, if_neg hquote, hdate]
  simp only [hboolean, hnumber]
  rfl

/-- A text is read wherever no quote follows it. -/
theorem value?_writeString (s : String) {c : Char} (hc : c ≠ '\x22' ∧ c ≠ '\'') (depth : Nat)
    (rest : List Char) :
    value? depth (writeString s ++ c :: rest) = some (.string s, c :: rest) := by
  have hread : quoted? (writeString s ++ c :: rest) = some (s, c :: rest) :=
    quoted?_write_ofValue s (fun h => hc.1 (Option.some.inj h)) fun h => hc.2 (Option.some.inj h)
  rw [value?_of_begins ((begins_writeString s).append _)]
  obtain ⟨q, cs, hwrite, hquote⟩ := exists_cons_writeString s
  rw [hwrite, List.cons_append] at hread ⊢
  rw [simple?, if_pos hquote, hread]
  rfl

/-! ## Arrays -/

section items

variable {item? : List Char → Option (Value × List Char)} {read : Array Value} {step : Char}
  {steps cs ds rest : List Char} {v : Value}

/-- One element with a comma behind it. -/
theorem items?_cons (hgap : dropGap false cs = ds) (hbegins : Begins ds)
    (hitem : item? ds = some (v, ',' :: rest)) :
    items? item? read (step :: steps) cs = items? item? (read.push v) steps rest := by
  obtain ⟨c, ds, rfl, hc⟩ := hbegins
  rw [items?, hgap]
  split
  · next heq => exact absurd (List.cons.inj heq).1 (ne_of_isInitial hc rfl)
  · rw [hitem]
    rfl

/-- The last element, with the closing bracket behind it. -/
theorem items?_last (hsteps : steps ≠ []) (hgap : dropGap false cs = ds) (hbegins : Begins ds)
    (hitem : item? ds = some (v, ']' :: rest)) :
    items? item? read steps cs = some ((read.push v).toList, rest) := by
  obtain ⟨step, steps, rfl⟩ := List.exists_cons_of_ne_nil hsteps
  obtain ⟨c, ds, rfl, hc⟩ := hbegins
  rw [items?, hgap]
  split
  · next heq => exact absurd (List.cons.inj heq).1 (ne_of_isInitial hc rfl)
  · rw [hitem]
    rfl

end items

/-- The elements of an array, on a line each. -/
theorem items?_lines (depth : Nat) (l : List String) {steps : List Char}
    (hsteps : l.length < steps.length) (read : Array Value) (rest : List Char) :
    items? (value? depth) read steps (l.flatMap Literal.writeLine ++ '\n' :: ']' :: rest)
      = some (read.toList ++ l.map .string, rest) := by
  induction l generalizing steps read with
  | nil =>
      obtain ⟨step, steps, rfl⟩ := List.exists_cons_of_length_pos hsteps
      rw [List.map_nil, List.append_nil]
      rfl
  | cons s l ih =>
      obtain ⟨step, steps, rfl⟩ := List.exists_cons_of_length_pos (Nat.zero_lt_of_lt hsteps)
      have hgap : dropGap false ((s :: l).flatMap Literal.writeLine ++ '\n' :: ']' :: rest)
          = writeString s ++ ',' :: (l.flatMap Literal.writeLine ++ '\n' :: ']' :: rest) := by
        rw [List.flatMap_cons, Literal.writeLine, List.append_assoc, List.append_assoc,
          List.append_assoc]
        exact ((begins_writeString s).append _).dropGap
      rw [items?_cons hgap ((begins_writeString s).append _)
        (value?_writeString s (by decide) depth _), ih (Nat.lt_of_succ_lt_succ hsteps),
        Array.toList_push, List.append_assoc]
      rfl

/-- A list is no longer than what comes of its elements, if something comes of each. -/
theorem length_le_length_flatMap {α β : Type} {f : α → List β} (hf : ∀ a, f a ≠ [])
    (l : List α) : l.length ≤ (l.flatMap f).length := by
  induction l with
  | nil => exact Nat.zero_le _
  | cons a l ih =>
      have hpos := List.length_pos_iff.mpr (hf a)
      rw [List.flatMap_cons, List.length_append, List.length_cons]
      omega

/-- A written value is read up to the end of its line. -/
theorem value?_write {l : Literal} (hl : l.Fits) (depth : Nat) (rest : List Char) :
    value? (depth + 1) (l.write ++ '\n' :: rest) = some (l.value, '\n' :: rest) := by
  have harray : ∀ cs, value? (depth + 1) ('[' :: cs)
      = (items? (value? depth) #[] cs cs).map fun read => (.array read.1, read.2) := fun _ => rfl
  cases l with
  | integer n => exact value?_decimal hl _ _
  | string s => exact value?_writeString s (by decide) _ _
  | strings l =>
      rcases l with - | ⟨s, - | ⟨t, l⟩⟩
      · rfl
      · have hwrite : (Literal.strings [s]).write ++ '\n' :: rest
            = '[' :: (writeString s ++ ']' :: '\n' :: rest) := by
          simp [Literal.write]
        have hbegins := (begins_writeString s).append (']' :: '\n' :: rest)
        rw [hwrite, harray, items?_last hbegins.ne_nil hbegins.dropGap hbegins
          (value?_writeString s (by decide) depth _)]
        rfl
      · have hwrite : (Literal.strings (s :: t :: l)).write ++ '\n' :: rest
            = '[' :: ((s :: t :: l).flatMap Literal.writeLine ++ '\n' :: ']' :: '\n' :: rest) := by
          simp [Literal.write]
        have hlines := length_le_length_flatMap (f := Literal.writeLine)
          (fun _ => List.cons_ne_nil _ _) (s :: t :: l)
        have hsteps : (s :: t :: l).length
            < ((s :: t :: l).flatMap Literal.writeLine ++ '\n' :: ']' :: '\n' :: rest).length := by
          rw [List.length_append]
          exact Nat.lt_of_le_of_lt hlines (Nat.lt_add_of_pos_right (Nat.zero_lt_succ _))
        rw [hwrite, harray, items?_lines depth (s :: t :: l) hsteps]
        rfl

/-- Nothing has to be dropped in front of a literal. -/
theorem dropBlanks_write (l : Literal) (rest : List Char) :
    dropBlanks (l.write ++ rest) = l.write ++ rest := by
  cases l with
  | integer n => exact ((begins_decimal n).append rest).dropBlanks
  | string s => exact ((begins_writeString s).append rest).dropBlanks
  | strings l => rcases l with - | ⟨s, - | ⟨t, l⟩⟩ <;> rfl

/-! ## Keys with points between them -/

/-- The last key of a path, and the blanks behind it. -/
theorem keys?_last (n : Nat) (key : String) {rest : List Char}
    (hbare : ∀ c ∈ rest.head?, isBareKeyChar c = false)
    (hpoint : ∀ ds, dropBlanks rest ≠ '.' :: ds) :
    keys? (n + 1) (writeKey key ++ rest) = some ([key], dropBlanks rest) := by
  rw [keys?, ((begins_writeKey key).append rest).dropBlanks, key?_writeKey key hbare]
  -- with the hypothesis that no point follows, the other branch is taken
  simp only [Option.bind_eq_bind, Option.bind_some]

/-- A key with a point behind it. -/
theorem keys?_cons (n : Nat) (key : String) (rest : List Char) :
    keys? (n + 1) (writeKey key ++ '.' :: rest)
      = (keys? n rest).map fun (keys, rest) => (key :: keys, rest) := by
  have hbare : ∀ c ∈ ('.' :: rest).head?, isBareKeyChar c = false := fun c hc =>
    Option.some.inj hc ▸ rfl
  rw [keys?, ((begins_writeKey key).append _).dropBlanks, key?_writeKey key hbare]
  rfl

/-- A path is its first key, a dot and the rest. -/
theorem writePath_cons_cons (key next : String) (path : List String) :
    writePath (key :: next :: path) = writeKey key ++ '.' :: writePath (next :: path) := by
  rw [writePath, writePath, List.map_cons, List.map_cons, List.intercalate_cons_cons,
    List.append_assoc]
  rfl

/-- A path begins as its first key does. -/
theorem begins_writePath {path : List String} (hsome : path ≠ []) : Begins (writePath path) := by
  rcases path with - | ⟨key, - | ⟨next, path⟩⟩
  · exact absurd rfl hsome
  · rw [writePath, List.map_singleton, List.intercalate_singleton]
    exact begins_writeKey key
  · rw [writePath_cons_cons]
    exact (begins_writeKey key).append _

/-- A path in a header is read up to the closing bracket. -/
theorem keys?_writePath {path : List String} (hsome : path ≠ []) {n : Nat}
    (hlength : path.length ≤ n) (rest : List Char) :
    keys? n (writePath path ++ ']' :: rest) = some (path, ']' :: rest) := by
  induction path generalizing n with
  | nil => exact absurd rfl hsome
  | cons key path ih =>
      obtain ⟨n, rfl⟩ : ∃ m, n = m + 1 := ⟨n - 1, by rw [List.length_cons] at hlength; omega⟩
      cases path with
      | nil =>
          rw [writePath, List.map_singleton, List.intercalate_singleton]
          exact keys?_last n key (fun c hc => Option.some.inj hc ▸ rfl)
            fun ds heq => absurd (List.cons.inj heq).1 (by decide)
      | cons next path =>
          rw [writePath_cons_cons, List.append_assoc, List.cons_append, keys?_cons,
            ih (List.cons_ne_nil _ _) (Nat.le_of_succ_le_succ hlength)]
          rfl

/-! ## Statements -/

/-- An entry is a key, an equals sign between blanks, a literal and the end of the line. -/
theorem writeEntry_append (key : String) (v : Literal) (rest : List Char) :
    Section.writeEntry key v ++ rest
      = writeKey key ++ ' ' :: '=' :: ' ' :: (v.write ++ '\n' :: rest) := by
  simp [Section.writeEntry]

/-- An entry begins as its key does. -/
theorem begins_writeEntry (key : String) (v : Literal) (rest : List Char) :
    Begins (Section.writeEntry key v ++ rest) := by
  rw [writeEntry_append]
  exact (begins_writeKey key).append _

/-- A written entry is read up to the end of its line. -/
theorem assignment?_writeEntry (key : String) {v : Literal} (hv : v.Fits) (rest : List Char) :
    assignment? (value? maxDepth) (Section.writeEntry key v ++ rest)
      = some ([key], v.value, '\n' :: rest) := by
  have hpath : path? (Section.writeEntry key v ++ rest)
      = some ([key], '=' :: ' ' :: (v.write ++ '\n' :: rest)) := by
    rw [writeEntry_append]
    exact keys?_last 78 key (fun c hc => Option.some.inj hc ▸ rfl)
      fun ds heq => absurd (List.cons.inj heq).1 (by decide)
  have hvalue : value? maxDepth (dropBlanks (' ' :: (v.write ++ '\n' :: rest)))
      = some (v.value, '\n' :: rest) := by
    show value? maxDepth (dropBlanks (v.write ++ '\n' :: rest)) = _
    rw [dropBlanks_write]
    exact value?_write hv 78 rest
  rw [assignment?, hpath]
  show (value? maxDepth (dropBlanks (' ' :: (v.write ++ '\n' :: rest)))).bind _ = _
  rw [hvalue]
  rfl

/-- The text is read as these statements, one after the other. -/
inductive Reads : List Char → List Statement → Prop where
  | nil {cs : List Char} (hgap : dropGap false cs = []) : Reads cs []
  | cons {c : Char} {cs ds rest : List Char} {s : Statement} {ss : List Statement}
      (hgap : dropGap false cs = c :: ds) (hstatement : statement? (c :: ds) = some (s, rest))
      (hshorter : rest.length < cs.length) (hrest : Reads rest ss) : Reads cs (s :: ss)

namespace Reads

/-- The statements are read, if there are steps enough. -/
theorem statements? {cs : List Char} {ss : List Statement} (h : Reads cs ss) {steps : List Char}
    (hsteps : cs.length ≤ steps.length) (read : Array Statement) :
    statements? read steps cs = some (read.toList ++ ss) := by
  induction h generalizing steps read with
  | nil hgap =>
      rw [Toml.statements?.eq_def]
      dsimp only
      rw [hgap, List.append_nil]
  | @cons c cs ds rest s ss hgap hstatement hshorter _ ih =>
      cases steps with
      | nil => exact absurd (Nat.lt_of_lt_of_le hshorter hsteps) (Nat.not_lt_zero _)
      | cons step steps =>
          have hroom : rest.length ≤ steps.length := by
            rw [List.length_cons] at hsteps
            omega
          rw [Toml.statements?, hgap]
          simp only [hstatement]
          rw [ih hroom, Array.toList_push, List.append_assoc, List.singleton_append]

/-- Empty lines say nothing. -/
theorem emptyLine {cs : List Char} {ss : List Statement} (h : Reads cs ss) :
    Reads ('\n' :: cs) ss := by
  cases h with
  | nil hgap => exact .nil hgap
  | cons hgap hstatement hshorter hrest =>
      exact .cons hgap hstatement (Nat.lt_succ_of_lt hshorter) hrest

/-- A written entry is an assignment. -/
theorem entry (key : String) {v : Literal} (hv : v.Fits) {rest : List Char} {ss : List Statement}
    (h : Reads rest ss) :
    Reads (Section.writeEntry key v ++ rest) (.assign [key] v.value :: ss) := by
  have hbegins := begins_writeEntry key v rest
  have hgap := hbegins.dropGap
  have hassignment := assignment?_writeEntry key hv rest
  have hshorter : rest.length < (Section.writeEntry key v ++ rest).length := by
    rw [writeEntry_append, List.length_append, List.length_cons, List.length_cons,
      List.length_cons, List.length_append, List.length_cons]
    omega
  obtain ⟨c, cs, hsplit, hc⟩ := hbegins
  rw [hsplit] at hassignment hgap hshorter ⊢
  refine .cons hgap ?_ hshorter h
  rw [statement?.eq_def]
  split
  · next heq => exact absurd (List.cons.inj heq).1 (ne_of_isInitial hc rfl)
  · next heq => exact absurd (List.cons.inj heq).1 (ne_of_isInitial hc rfl)
  · rw [hassignment]
    rfl

/-- So are the entries of a section, one by one. -/
theorem entries {entries : List (String × Literal)} (hentries : ∀ e ∈ entries, e.2.Fits)
    {rest : List Char} {ss : List Statement} (h : Reads rest ss) :
    Reads (entries.flatMap (fun (key, v) => Section.writeEntry key v) ++ rest)
      (entries.map (fun (key, v) => .assign [key] v.value) ++ ss) := by
  induction entries with
  | nil => exact h
  | cons e entries ih =>
      obtain ⟨he, hrest⟩ := List.forall_mem_cons.mp hentries
      rw [List.flatMap_cons, List.append_assoc, List.map_cons, List.cons_append]
      exact entry e.1 he (ih hrest)

/-- A written header begins a table. -/
theorem header {path : List String} (hsome : path ≠ []) (hlength : path.length ≤ maxKeys)
    {rest : List Char} {ss : List Statement} (h : Reads rest ss) :
    Reads ('[' :: (writePath path ++ ']' :: '\n' :: rest)) (.header path :: ss) := by
  have hpath : path? (writePath path ++ ']' :: '\n' :: rest) = some (path, ']' :: '\n' :: rest) :=
    keys?_writePath hsome hlength _
  refine .cons rfl ?_ (by simp; omega) h
  rw [statement?.eq_def]
  split
  · next heq =>
    obtain ⟨c, ds, hsplit, hc⟩ := (begins_writePath hsome).append (']' :: '\n' :: rest)
    rw [hsplit] at heq
    exact absurd (List.cons.inj (List.cons.inj heq).2).1 (ne_of_isInitial hc rfl)
  · next heq =>
    rw [← (List.cons.inj heq).2, hpath]
    rfl
  · next hne => exact absurd rfl (hne _)

end Reads

/-! ## Sections -/

/-- Numbers in a section can be read, and its path leads through some tables but not too many. -/
structure Section.Fits (s : Section) : Prop where
  path_ne_nil : s.path ≠ []
  path_le : s.path.length ≤ maxKeys
  entries : ∀ e ∈ s.entries, e.2.Fits

/-- What is written of a section is read back as its statements, with anything readable behind. -/
theorem Reads.write {s : Section} (hs : s.Fits) {rest : List Char} {ss : List Statement}
    (h : Reads rest ss) : Reads (s.write ++ rest) (s.statements ++ ss) := by
  have hwrite : s.write ++ rest = '[' :: (writePath s.path ++ ']' :: '\n' ::
      (s.entries.flatMap (fun (key, v) => Section.writeEntry key v) ++ rest)) := by
    simp [Section.write]
  rw [hwrite, Section.statements, List.cons_append]
  exact .header hs.path_ne_nil hs.path_le (.entries hs.entries h)

/-- A document is read as the statements of its sections. -/
theorem reads_writeSections {ss : List Section} (hss : ∀ s ∈ ss, s.Fits) :
    Reads (writeSections ss) (ss.flatMap Section.statements) := by
  induction ss with
  | nil => exact .nil rfl
  | cons s ss ih =>
      obtain ⟨hs, hrest⟩ := List.forall_mem_cons.mp hss
      rw [List.flatMap_cons]
      cases ss with
      | nil =>
          have hwrite := Reads.write hs (.nil rfl : Reads [] [])
          rw [List.append_nil] at hwrite
          rw [writeSections, List.map_singleton, List.intercalate_singleton]
          exact hwrite
      | cons next ss =>
          have hwrite : writeSections (s :: next :: ss)
              = s.write ++ '\n' :: writeSections (next :: ss) := by
            rw [writeSections, writeSections, List.map_cons, List.map_cons,
              List.intercalate_cons_cons, List.append_assoc]
            rfl
          rw [hwrite]
          exact Reads.write hs (ih hrest).emptyLine

/-- A document begins with a bracket, so no mark of the byte order is dropped. -/
theorem dropByteOrderMark_writeSections (ss : List Section) :
    dropByteOrderMark (writeSections ss) = writeSections ss := by
  rcases ss with - | ⟨s, - | ⟨next, ss⟩⟩
  · rfl
  · rw [writeSections, List.map_singleton, List.intercalate_singleton]
    rfl
  · rw [writeSections, List.map_cons, List.map_cons, List.intercalate_cons_cons]
    rfl

/-- What is written is read back, statement by statement. -/
theorem readStatements?_writeSections {ss : List Section} (hss : ∀ s ∈ ss, s.Fits) :
    readStatements? (writeSections ss) = some (ss.flatMap Section.statements) := by
  rw [readStatements?, dropByteOrderMark_writeSections,
    (reads_writeSections hss).statements? (Nat.le_refl _)]
  rfl

/-! ## Assignments deleted from a document -/

/-- A part of the text of a document: the assignment of one key of a table, or what stands between
    assignments. -/
inductive Stretch where
  | frame (text : List Char)
  | assignment (path : List String) (key : String) (text : List Char)

namespace Stretch

/-- The characters of a stretch. -/
def text : Stretch → List Char
  | frame text | assignment _ _ text => text

/-- Whether a stretch is left, if of the assignments only some are. -/
def isKept (keep : List String → String → Bool) : Stretch → Bool
  | frame _ => true
  | assignment path key _ => keep path key

end Stretch

/-- The stretches of a section: its header and one assignment for each entry. -/
def Section.stretches (s : Section) : List Stretch :=
  .frame ('[' :: writePath s.path ++ [']', '\n']) ::
    s.entries.map fun (key, v) => .assignment s.path key (writeEntry key v)

/-- The stretches of a document, with the empty lines between sections. -/
def stretches (ss : List Section) : List Stretch :=
  [Stretch.frame ['\n']].intercalate (ss.map Section.stretches)

/-- A section with some of its entries. -/
def Section.kept (keep : List String → String → Bool) (s : Section) : Section :=
  { s with entries := s.entries.filter fun e => keep s.path e.1 }

/-- A section that loses entries still fits. -/
theorem Section.Fits.kept {s : Section} (h : s.Fits) (keep : List String → String → Bool) :
    (s.kept keep).Fits where
  path_ne_nil := h.path_ne_nil
  path_le := h.path_le
  entries := fun e he => h.entries e (List.mem_filter.mp he).1

/-- The stretches of a section are all of its text. -/
theorem Section.text_stretches (s : Section) : s.stretches.flatMap Stretch.text = s.write := by
  rw [Section.stretches, List.flatMap_cons, List.flatMap_map]
  rfl

/-- Leaving out entries is leaving out their stretches. -/
theorem Section.filter_stretches (keep : List String → String → Bool) (s : Section) :
    s.stretches.filter (Stretch.isKept keep) = (s.kept keep).stretches := by
  rw [Section.stretches, List.filter_cons_of_pos rfl, List.filter_map]
  rfl

/-- What is done to every part of a text is done to a text with separators between its parts. -/
theorem apply_intercalate {α β : Type} {f : List α → List β} (hnil : f [] = [])
    (happend : ∀ l m, f (l ++ m) = f l ++ f m) (sep : List α) (parts : List (List α)) :
    f (sep.intercalate parts) = (f sep).intercalate (parts.map f) := by
  induction parts with
  | nil => exact hnil
  | cons part parts ih =>
      cases parts with
      | nil => rw [List.intercalate_singleton, List.map_singleton, List.intercalate_singleton]
      | cons next parts =>
          rw [List.map_cons, List.map_cons, List.intercalate_cons_cons,
            List.intercalate_cons_cons, happend, happend, ih, List.map_cons]

/-- The stretches together are the text. -/
theorem text_stretches (ss : List Section) :
    (stretches ss).flatMap Stretch.text = writeSections ss := by
  rw [stretches, apply_intercalate (f := List.flatMap Stretch.text) List.flatMap_nil fun _ _ =>
    List.flatMap_append, List.map_map, writeSections]
  exact congrArg _ (List.map_congr_left fun s _ => s.text_stretches)

/-- Deleting assignments leaves the document of the entries that are left. -/
theorem filter_stretches (keep : List String → String → Bool) (ss : List Section) :
    (stretches ss).filter (Stretch.isKept keep) = stretches (ss.map (Section.kept keep)) := by
  rw [stretches, apply_intercalate List.filter_nil fun _ _ => List.filter_append _ _, List.map_map,
    stretches, List.map_map]
  exact congrArg _ (List.map_congr_left fun s _ => s.filter_stretches keep)

end VideoTerminal.Toml
