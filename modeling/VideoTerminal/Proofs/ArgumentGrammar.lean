import VideoTerminal.CommandLine
import VideoTerminal.Proofs.Numerals

/-!
# The grammar of command lines

A command line that starts a session is a list of assignments, each of them a flag and the value
behind it: `Assignment` carries what makes it one.  Whatever the values look like, they are never
taken for flags, since the places of flags and of values alternate.

Any other command line begins with assignments, and then something stands in the place of a flag at
which reading stops.  `Stops` says what that can be and how the program ends there.  So a word in
the place of a flag either stops the reading or begins an assignment (`stops_or_assigns`), and the
whole command line follows by induction.
-/

namespace VideoTerminal

/-! ## Flags and their values -/

namespace Flag

/-- The words that a flag is written as. -/
def spellings : Flag → List String
  | .command => ["-c"]
  | .shell => ["-s", "--shell"]
  | .cols => ["--cols"]
  | .rows => ["--rows"]
  | .timeout => ["-t", "--timeout"]
  | .config => ["--config"]

theorem spellings_ne_nil (flag : Flag) : flag.spellings ≠ [] := by
  cases flag <;> exact List.cons_ne_nil _ _

/-- The word that stands for a flag in messages, however it was written: the longest of its
    spellings, which is the last. -/
def title (flag : Flag) : String := flag.spellings.getLast flag.spellings_ne_nil

/-- The program names a flag in its messages by its title. -/
theorem name_eq_title (flag : Flag) : flag.name = flag.title := by
  cases flag <;> rfl

/-- The largest number that a flag takes, where it takes numbers. -/
def largest? : Flag → Option Nat
  | .cols | .rows => some 65535
  | .timeout => some 18446744073709551615
  | .command | .shell | .config => none

/-- The values that a flag takes: the numerals of numbers that are not too large, or anything. -/
def Takes (flag : Flag) (value : String) : Prop :=
  ∀ bound ∈ flag.largest?, ∃ n, n ≤ bound ∧ Numeral.IsDecimal value.toList n

variable {flag : Flag} {word : String}

/-- The program takes a word for a flag just when it is one of the flag's spellings. -/
theorem ofArgument?_eq_some_iff : ofArgument? word = some flag ↔ word ∈ flag.spellings := by
  constructor
  · intro h
    rw [ofArgument?] at h
    split_ifs at h with hc hs hcols hrows ht hconfig
    all_goals
      obtain rfl := Option.some.inj h
      simp_all [spellings]
  · intro h
    cases flag <;> simp only [spellings, List.mem_cons, List.not_mem_nil, or_false] at h
    case shell | timeout =>
      rcases h with rfl | rfl
      · rfl
      · rfl
    all_goals
      obtain rfl := h
      rfl

/-- A flag asks neither for help nor for the version. -/
theorem not_query (h : word ∈ flag.spellings) : word ∉ ["-h", "--help", "-v", "--version"] := by
  have hall : ∀ word ∈ flag.spellings, word ∉ ["-h", "--help", "-v", "--version"] := by
    cases flag <;> decide
  exact hall word h

end Flag

namespace Arguments

/-- Sixteen bits hold the numbers up to 65535, so the bound on numerals is that of the type. -/
theorem number16?_eq_some_iff {value : String} {n : UInt16} :
    number16? value = some n ↔ Numeral.IsDecimal value.toList n.toNat := by
  rw [number16?, Option.map_eq_some_iff]
  constructor
  · rintro ⟨m, hm, rfl⟩
    obtain ⟨hdecimal, hle⟩ := Numeral.decimal?_eq_some_iff.mp hm
    rwa [UInt16.toNat_ofNat_of_lt' (Nat.lt_succ_of_le hle)]
  · intro h
    have hle : n.toNat ≤ 65535 := Nat.le_of_lt_succ n.toNat_lt
    exact ⟨n.toNat, Numeral.decimal?_eq_some_iff.mpr ⟨h, hle⟩, UInt16.ofNat_toNat⟩

/-- The same for the numbers of 64 bits. -/
theorem number64?_eq_some_iff {value : String} {n : UInt64} :
    number64? value = some n ↔ Numeral.IsDecimal value.toList n.toNat := by
  rw [number64?, Option.map_eq_some_iff]
  constructor
  · rintro ⟨m, hm, rfl⟩
    obtain ⟨hdecimal, hle⟩ := Numeral.decimal?_eq_some_iff.mp hm
    rwa [UInt64.toNat_ofNat_of_lt' (Nat.lt_succ_of_le hle)]
  · intro h
    have hle : n.toNat ≤ 18446744073709551615 := Nat.le_of_lt_succ n.toNat_lt
    exact ⟨n.toNat, Numeral.decimal?_eq_some_iff.mpr ⟨h, hle⟩, UInt64.ofNat_toNat⟩

/-- A value is read just when its flag takes it. -/
theorem isSome_set?_iff (a : Arguments) (value : String) (flag : Flag) :
    (a.set? value flag).isSome = true ↔ flag.Takes value := by
  have hnumber (bound : Nat) : (Numeral.decimal? bound value.toList).isSome = true ↔
      ∃ n, n ≤ bound ∧ Numeral.IsDecimal value.toList n := by
    rw [Option.isSome_iff_exists]
    constructor
    · rintro ⟨n, hn⟩
      obtain ⟨hdecimal, hle⟩ := Numeral.decimal?_eq_some_iff.mp hn
      exact ⟨n, hle, hdecimal⟩
    · rintro ⟨n, hle, hdecimal⟩
      exact ⟨n, Numeral.decimal?_eq_some_iff.mpr ⟨hdecimal, hle⟩⟩
  cases flag with
  | command | shell | config => simp [set?, Flag.Takes, Flag.largest?]
  | cols | rows => simp [set?, number16?, Flag.Takes, Flag.largest?, hnumber]
  | timeout => simp [set?, number64?, Flag.Takes, Flag.largest?, hnumber]

/-! ## Assignments -/

/-- A flag as it is written, and a value behind it that it takes. -/
structure Assignment where
  flag : Flag
  word : String
  value : String
  spelled : word ∈ flag.spellings
  taken : flag.Takes value

/-- The words of an assignment. -/
def Assignment.words (g : Assignment) : List String := [g.word, g.value]

/-- The value that a flag is given last. -/
def lastValue? (given : List Assignment) (flag : Flag) : Option String :=
  (given.filter (·.flag = flag)).getLast?.map (·.value)

/-- What assignments ask for: of every flag the last value, or else its default. -/
def ofAssignments (given : List Assignment) : Arguments where
  cols := (lastValue? given .cols).bind number16?
  rows := (lastValue? given .rows).bind number16?
  shell := lastValue? given .shell
  command := lastValue? given .command
  timeout := ((lastValue? given .timeout).bind number64?).getD 10
  config := lastValue? given .config

/-- Behind one assignment more, its flag has its value and every other flag has the value from
    before. -/
theorem lastValue?_concat (given : List Assignment) (g : Assignment) (flag : Flag) :
    lastValue? (given ++ [g]) flag
      = if g.flag = flag then some g.value else lastValue? given flag := by
  rw [lastValue?, List.filter_append, List.getLast?_append]
  by_cases h : g.flag = flag
  · simp [h]
  · simp [h, lastValue?]

/-- One assignment more replaces the value of its flag. -/
theorem set?_ofAssignments (given : List Assignment) (g : Assignment) :
    (ofAssignments given).set? g.value g.flag = some (ofAssignments (given ++ [g])) := by
  obtain ⟨a, ha⟩ := Option.isSome_iff_exists.mp
    ((isSome_set?_iff (ofAssignments given) g.value g.flag).mpr g.taken)
  rw [ha]
  refine congrArg some ?_
  obtain ⟨flag, word, value, spelled, taken⟩ := g
  cases flag with
  | command | shell | config =>
      obtain rfl := Option.some.inj ha
      simp [ofAssignments, lastValue?_concat]
  | cols | rows | timeout =>
      obtain ⟨n, hn, rfl⟩ := Option.map_eq_some_iff.mp ha
      simp [ofAssignments, lastValue?_concat, hn]

/-! ## Where reading stops -/

/-- The line in which the program gives a message. -/
def report (message : String) : String := "Error: " ++ message ++ "\n"

/-- Words in the place of a flag at which reading stops, and how the program ends there: what it
    prints names the flag, the value or the word that it stops at.  Nothing but a missing value
    depends on what stands behind these words, and that only on whether anything does. -/
inductive Stops (behind : List String) : List String → UInt8 → String → Prop
  | help {word : String} (hword : word ∈ ["-h", "--help"]) :
      Stops behind [word] 0 CommandLine.helpText
  | version {word : String} (hword : word ∈ ["-v", "--version"]) :
      Stops behind [word] 0 CommandLine.versionText
  | unknown {word : String} (hquery : word ∉ ["-h", "--help", "-v", "--version"])
      (hflag : ∀ flag : Flag, word ∉ flag.spellings) :
      Stops behind [word] 2 (report s!"Unknown argument: {word}. Use -h for help.")
  | missing {flag : Flag} {word : String} (hword : word ∈ flag.spellings) (hend : behind = []) :
      Stops behind [word] 2 (report s!"Missing value for {flag.title}")
  | invalid {flag : Flag} {word value : String} (hword : word ∈ flag.spellings)
      (hvalue : ¬flag.Takes value) :
      Stops behind [word, value] 2
        (report s!"Invalid value for {flag.title}: {value}")

/-- Once anything stands behind, what it is makes no difference. -/
theorem Stops.of_behind {behind offending : List String} {code : UInt8} {text : String}
    (h : Stops behind offending code text) (hbehind : behind ≠ []) (other : List String) :
    Stops other offending code text := by
  cases h with
  | help hword => exact .help hword
  | version hword => exact .version hword
  | unknown hquery hflag => exact .unknown hquery hflag
  | missing hword hend => exact absurd hend hbehind
  | invalid hword hvalue => exact .invalid hword hvalue

/-- A word in the place of a flag stops the reading or begins an assignment. -/
theorem stops_or_assigns (word : String) (rest : List String) :
    (∃ behind offending code text, word :: rest = offending ++ behind ∧
      Stops behind offending code text) ∨
    ∃ (g : Assignment) (behind : List String), word :: rest = g.words ++ behind := by
  by_cases hhelp : word ∈ ["-h", "--help"]
  · exact .inl ⟨rest, [word], _, _, rfl, .help hhelp⟩
  by_cases hversion : word ∈ ["-v", "--version"]
  · exact .inl ⟨rest, [word], _, _, rfl, .version hversion⟩
  by_cases hflag : ∃ flag : Flag, word ∈ flag.spellings
  · obtain ⟨flag, hword⟩ := hflag
    cases rest with
    | nil => exact .inl ⟨[], [word], _, _, rfl, .missing hword rfl⟩
    | cons value behind =>
        by_cases hvalue : flag.Takes value
        · exact .inr ⟨⟨flag, word, value, hword, hvalue⟩, behind, rfl⟩
        · exact .inl ⟨behind, [word, value], _, _, rfl, .invalid hword hvalue⟩
  · refine .inl ⟨rest, [word], _, _, rfl, .unknown ?_ fun flag hword => hflag ⟨flag, hword⟩⟩
    intro hquery
    rcases List.mem_append.mp (show word ∈ ["-h", "--help"] ++ ["-v", "--version"] from hquery)
      with h | h
    · exact hhelp h
    · exact hversion h

/-- Every command line is assignments, up to its end or to where reading stops. -/
theorem exists_assignments (args : List String) :
    ∃ given : List Assignment, args = given.flatMap Assignment.words ∨
      ∃ behind offending code text,
        args = given.flatMap Assignment.words ++ offending ++ behind ∧
          Stops behind offending code text := by
  induction hlength : args.length using Nat.strongRecOn generalizing args with
  | ind n ih =>
      cases args with
      | nil => exact ⟨[], .inl rfl⟩
      | cons word rest =>
          rcases stops_or_assigns word rest with ⟨behind, offending, code, text, hsplit, h⟩ |
            ⟨g, rest', hsplit⟩
          · exact ⟨[], .inr ⟨behind, offending, code, text, hsplit, h⟩⟩
          · have hshorter : rest'.length < n := by
              rw [← hlength, hsplit, List.length_append]
              exact Nat.lt_add_of_pos_left (Nat.zero_lt_succ 1)
            obtain ⟨given, hgiven⟩ := ih _ hshorter rest' rfl
            refine ⟨g :: given, ?_⟩
            rw [hsplit, List.flatMap_cons]
            rcases hgiven with rfl | ⟨behind, offending, code, text, rfl, h⟩
            · exact .inl rfl
            · refine .inr ⟨behind, offending, code, text, ?_, h⟩
              simp only [List.append_assoc]

/-! ## Reading -/

/-- A question for help is answered, whatever was read before and stands behind. -/
theorem readFrom_help {word : String} (hword : word ∈ ["-h", "--help"]) (a : Arguments)
    (rest : List String) : readFrom a (word :: rest) = .ok .help := by
  have hhelp : word = "-h" ∨ word = "--help" := by simpa using hword
  rw [readFrom.eq_def]
  exact if_pos hhelp

/-- So is a question for the version. -/
theorem readFrom_version {word : String} (hword : word ∈ ["-v", "--version"]) (a : Arguments)
    (rest : List String) : readFrom a (word :: rest) = .ok .version := by
  have hversion : word = "-v" ∨ word = "--version" := by simpa using hword
  have hhelp : ¬(word = "-h" ∨ word = "--help") := by
    rcases hversion with rfl | rfl <;> decide
  rw [readFrom.eq_def]
  exact (if_neg hhelp).trans (if_pos hversion)

/-- Any other word is looked up among the flags. -/
theorem readFrom_other {word : String} (hquery : word ∉ ["-h", "--help", "-v", "--version"])
    (a : Arguments) (rest : List String) :
    readFrom a (word :: rest) = match Flag.ofArgument? word, rest with
      | none, _ => .error (.unknown word)
      | some flag, [] => .error (.missingValue flag)
      | some flag, value :: rest =>
          match a.set? value flag with
          | none => .error (.invalidValue flag value)
          | some a => readFrom a rest := by
  simp only [List.mem_cons, List.not_mem_nil, or_false, not_or] at hquery
  rw [readFrom.eq_def]
  refine (if_neg ?_).trans (if_neg ?_)
  · exact not_or.mpr ⟨hquery.1, hquery.2.1⟩
  · exact not_or.mpr hquery.2.2

/-- Reading an assignment consumes its two words. -/
theorem readFrom_assignment (g : Assignment) (given : List Assignment) (rest : List String) :
    readFrom (ofAssignments given) (g.words ++ rest)
      = readFrom (ofAssignments (given ++ [g])) rest := by
  show readFrom (ofAssignments given) (g.word :: g.value :: rest) = _
  rw [readFrom_other (Flag.not_query g.spelled), Flag.ofArgument?_eq_some_iff.mpr g.spelled]
  dsimp only
  rw [set?_ofAssignments]

/-- Assignments are read one after the other. -/
theorem readFrom_assignments (before given : List Assignment) (rest : List String) :
    readFrom (ofAssignments before) (given.flatMap Assignment.words ++ rest)
      = readFrom (ofAssignments (before ++ given)) rest := by
  induction given generalizing before with
  | nil => rw [List.flatMap_nil, List.nil_append, List.append_nil]
  | cons g given ih =>
      rw [List.flatMap_cons, List.append_assoc, readFrom_assignment, ih, List.append_assoc]
      rfl

/-- A command line is read as its assignments and then the rest. -/
theorem read_assignments (given : List Assignment) (rest : List String) :
    read (given.flatMap Assignment.words ++ rest) = readFrom (ofAssignments given) rest :=
  readFrom_assignments [] given rest

/-- A command line of assignments starts a session. -/
theorem read_all_assignments (given : List Assignment) :
    read (given.flatMap Assignment.words) = .ok (.run (ofAssignments given)) := by
  have hread := read_assignments given []
  rwa [List.append_nil] at hread

/-- A message about a flag without a value names the flag by its title. -/
theorem message_missingValue (flag : Flag) :
    (ArgumentError.missingValue flag).message = s!"Missing value for {flag.title}" := by
  rw [← Flag.name_eq_title]
  rfl

/-- A message about a wrong value names both the flag and the value. -/
theorem message_invalidValue (flag : Flag) (value : String) :
    (ArgumentError.invalidValue flag value).message
      = s!"Invalid value for {flag.title}: {value}" := by
  rw [← Flag.name_eq_title]
  rfl

/-- Where reading stops no session is started, and the program ends as it says. -/
theorem Stops.readFrom {behind offending : List String} {code : UInt8} {text : String}
    (h : Stops behind offending code text) (a : Arguments) :
    ∃ r, readFrom a (offending ++ behind) = r ∧ (∀ b, r ≠ .ok (.run b)) ∧
      ∀ files home args, read args = r → CommandLine.run files home args = .exit code text := by
  have hfailure {e : ArgumentError} {message : String} (hmessage : e.message = message) :
      ∀ files home args, read args = .error e →
        CommandLine.run files home args = .exit 2 (report message) := by
    intro files home args hread
    rw [CommandLine.run, hread, ← hmessage]
    rfl
  cases h with
  | help hword =>
      refine ⟨.ok .help, readFrom_help hword a behind, nofun, ?_⟩
      intro files home args hread
      rw [CommandLine.run, hread]
  | version hword =>
      refine ⟨.ok .version, readFrom_version hword a behind, nofun, ?_⟩
      intro files home args hread
      rw [CommandLine.run, hread]
  | @unknown word hquery hflag =>
      have hnone : Flag.ofArgument? word = none :=
        Option.eq_none_iff_forall_ne_some.mpr fun flag h =>
          hflag flag (Flag.ofArgument?_eq_some_iff.mp h)
      refine ⟨.error (.unknown word), ?_, nofun, hfailure rfl⟩
      rw [List.singleton_append, readFrom_other hquery, hnone]
  | @missing flag word hword hend =>
      refine ⟨.error (.missingValue flag), ?_, nofun, hfailure (message_missingValue flag)⟩
      rw [hend, List.append_nil, readFrom_other (Flag.not_query hword),
        Flag.ofArgument?_eq_some_iff.mpr hword]
  | @invalid flag word value hword hvalue =>
      have hnone : a.set? value flag = none := by
        rw [← Option.not_isSome_iff_eq_none, isSome_set?_iff]
        exact hvalue
      have hmessage := message_invalidValue flag value
      refine ⟨.error (.invalidValue flag value), ?_, nofun, hfailure hmessage⟩
      show Arguments.readFrom a (word :: value :: behind) = _
      rw [readFrom_other (Flag.not_query hword), Flag.ofArgument?_eq_some_iff.mpr hword]
      dsimp only
      rw [hnone]

/-- Behind assignments too, what stops the reading settles what is read. -/
theorem Stops.exists_read {behind offending : List String} {code : UInt8} {text : String}
    (h : Stops behind offending code text) (given : List Assignment) :
    ∃ r, read (given.flatMap Assignment.words ++ offending ++ behind) = r ∧
      (∀ b, r ≠ .ok (.run b)) ∧
      ∀ files home args, read args = r →
        CommandLine.run files home args = .exit code text := by
  obtain ⟨r, hr, hends⟩ := h.readFrom (ofAssignments given)
  refine ⟨r, ?_, hends⟩
  rw [List.append_assoc, read_assignments, hr]

/-- So no session is started there. -/
theorem Stops.read_ne_run {behind offending : List String} {code : UInt8} {text : String}
    (h : Stops behind offending code text) (given : List Assignment) (a : Arguments) :
    read (given.flatMap Assignment.words ++ offending ++ behind) ≠ .ok (.run a) := by
  obtain ⟨r, hr, hnone, -⟩ := h.exists_read given
  rw [hr]
  exact hnone a

/-- And the program ends as is said. -/
theorem Stops.run_eq_exit {behind offending : List String} {code : UInt8} {text : String}
    (h : Stops behind offending code text) (given : List Assignment)
    (files : String → FileContent) (home : Option String) :
    CommandLine.run files home (given.flatMap Assignment.words ++ offending ++ behind)
      = .exit code text := by
  obtain ⟨r, hr, -, hrun⟩ := h.exists_read given
  exact hrun files home _ hr

/-- **Command lines are read as their grammar says.**  A session is started from a command line just
    when it is assignments and nothing else, and then every field is the value that its flag is
    given last, or else the default.  Any other command line is assignments up to a place where
    reading stops.  There the program ends, with the status and the text that the words in that
    place alone determine: what stands behind them makes no difference, except that a flag without
    a value is the last word.  A message about a flag names it by the longest word that it is
    written as.  Numbers are read from decimal numerals that are not too large. -/
theorem read_grammar (args : List String) :
    (∀ a, read args = .ok (.run a) ↔ ∃ given : List Assignment,
      args = given.flatMap Assignment.words ∧ a = ofAssignments given) ∧
    ((∀ a, read args ≠ .ok (.run a)) ↔ ∃ (given : List Assignment) (behind offending : List String)
      (code : UInt8) (text : String),
      args = given.flatMap Assignment.words ++ offending ++ behind ∧
        Stops behind offending code text) ∧
    (∀ (given : List Assignment) (behind offending : List String) (code : UInt8) (text : String),
      Stops behind offending code text →
      (∀ files home, CommandLine.run files home
        (given.flatMap Assignment.words ++ offending ++ behind) = .exit code text) ∧
      (behind ≠ [] → ∀ other, Stops other offending code text)) ∧
    (∀ flag : Flag, flag.name = flag.title ∧ flag.title = match flag with
      | .command => "-c"
      | .shell => "--shell"
      | .cols => "--cols"
      | .rows => "--rows"
      | .timeout => "--timeout"
      | .config => "--config") ∧
    (∀ value n, number16? value = some n ↔ Numeral.IsDecimal value.toList n.toNat) ∧
    ∀ value n, number64? value = some n ↔ Numeral.IsDecimal value.toList n.toNat := by
  refine ⟨?_, ⟨?_, ?_⟩, ?_, fun flag => ⟨flag.name_eq_title, ?_⟩,
    fun _ _ => number16?_eq_some_iff, fun _ _ => number64?_eq_some_iff⟩
  · intro a
    constructor
    · intro hread
      obtain ⟨given, rfl | ⟨behind, offending, code, text, rfl, h⟩⟩ := exists_assignments args
      · rw [read_all_assignments] at hread
        cases hread
        exact ⟨given, rfl, rfl⟩
      · exact absurd hread (h.read_ne_run given a)
    · rintro ⟨given, rfl, rfl⟩
      exact read_all_assignments given
  · intro hnone
    obtain ⟨given, rfl | ⟨behind, offending, code, text, hargs, h⟩⟩ := exists_assignments args
    · exact absurd (read_all_assignments given) (hnone _)
    · exact ⟨given, behind, offending, code, text, hargs, h⟩
  · rintro ⟨given, behind, offending, code, text, rfl, h⟩
    exact h.read_ne_run given
  · intro given behind offending code text h
    exact ⟨h.run_eq_exit given, fun hbehind other => h.of_behind hbehind other⟩
  · cases flag <;> rfl

/-- A value that looks like a flag, a flag given twice, and one of the errors in front of a question
    for help. -/
example : read ["-c", "-h", "--cols", "80", "--cols", "+0100"]
      = .ok (.run { command := some "-h", cols := some 100 }) ∧
    read ["--rows", "-1", "--help"] = .error (.invalidValue .rows "-1") := by
  decide +kernel

end Arguments

end VideoTerminal
