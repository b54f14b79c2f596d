import VideoTerminal.Proofs.Documents
import VideoTerminal.Proofs.Tables
import VideoTerminal.Settings.Load
import VideoTerminal.Settings.Write

/-!
# Settings survive saving

The text that settings are written to is read as the same settings.  If assignments are deleted from
it, the settings that they spoke of have their defaults, and variables of the environment are gone;
all others are as they were.

The text without these assignments is the document of the sections without these entries, so what
is left is to read tables of which entries were dropped.  A field says the same of any table with
entries dropped: its value is kept or it is the default.  The tables hold the latest entry first;
for the environment this means that a sorted list comes backwards, and it is sorted again.
-/

namespace VideoTerminal

open Toml

/-! ## The bytes of a file -/

namespace Utf8

/-- The loop that turns a byte array into a list puts what it reads in front of what it has read. -/
theorem toList_loop (b : ByteArray) (i : Nat) (read : List UInt8) :
    ByteArray.toList.loop b i read = read.reverse ++ b.data.toList.drop i := by
  fun_induction ByteArray.toList.loop b i read with
  | case1 i read hlt ih =>
      have hlt : i < b.data.toList.length := hlt
      have hget : b.get! i = b.data.toList[i] := getElem!_pos b.data i hlt
      rw [ih, List.reverse_cons, List.append_assoc, List.singleton_append, hget,
        List.drop_eq_getElem_cons hlt]
  | case2 i read hge =>
      have hle : b.data.toList.length ≤ i := Nat.le_of_not_lt hge
      rw [List.drop_eq_nil_of_le hle, List.append_nil]

/-- The bytes of a text are well-formed, and are read as this text. -/
theorem decodeStrict?_ofString (s : String) : decodeStrict? (ofString s) = some s := by
  have hbytes : s.toUTF8.toList = s.toUTF8.data.toList := toList_loop _ 0 []
  rw [decodeStrict?, ofString, hbytes]
  exact dif_pos s.isValidUTF8

end Utf8

/-! ## The table of all sections -/

/-- The table of four sections, one of them with a section of its own. -/
theorem tableOf?_sections {terminal shell environment session log : List (String × Literal)}
    (hterminal : (terminal.map Prod.fst).Nodup) (hshell : (shell.map Prod.fst).Nodup)
    (hnew : Table.get? (entriesTable shell) "env" = none)
    (henvironment : (environment.map Prod.fst).Nodup) (hsession : (session.map Prod.fst).Nodup)
    (hlog : (log.map Prod.fst).Nodup) :
    tableOf? ([⟨["terminal"], terminal⟩, ⟨["shell"], shell⟩, ⟨["shell", "env"], environment⟩,
        ⟨["session"], session⟩, ⟨["log"], log⟩].flatMap Section.statements)
      = some [("log", .table .header (entriesTable log)),
          ("session", .table .header (entriesTable session)),
          ("shell", .table .header
            (("env", .table .header (entriesTable environment)) :: entriesTable shell)),
          ("terminal", .table .header (entriesTable terminal))] := by
  let first := Table.under "terminal" [] (entriesTable terminal)
  let second := Table.under "shell" first (entriesTable shell)
  let third := Table.under "shell" first
    (Table.under "env" (entriesTable shell) (entriesTable environment))
  let fourth := Table.under "session" third (entriesTable session)
  let fifth := Table.under "log" fourth (entriesTable log)
  have hfirst : (Section.statements ⟨["terminal"], terminal⟩).foldlM Draft.add? {}
      = some ⟨first, ["terminal"]⟩ := foldlM_section Table.leads_nil hterminal rfl []
  have hsecond : (Section.statements ⟨["shell"], shell⟩).foldlM Draft.add? ⟨first, ["terminal"]⟩
      = some ⟨second, ["shell"]⟩ := foldlM_section Table.leads_nil hshell rfl _
  have hthird : (Section.statements ⟨["shell", "env"], environment⟩).foldlM Draft.add?
      ⟨second, ["shell"]⟩ = some ⟨third, ["shell", "env"]⟩ :=
    foldlM_section (Table.leads_under "shell" first) henvironment hnew _
  have hfourth : (Section.statements ⟨["session"], session⟩).foldlM Draft.add?
      ⟨third, ["shell", "env"]⟩ = some ⟨fourth, ["session"]⟩ :=
    foldlM_section Table.leads_nil hsession rfl _
  have hfifth : (Section.statements ⟨["log"], log⟩).foldlM Draft.add? ⟨fourth, ["session"]⟩
      = some ⟨fifth, ["log"]⟩ := foldlM_section Table.leads_nil hlog rfl _
  simp only [tableOf?, List.flatMap_cons, List.flatMap_nil, List.foldlM_append, hfirst, hsecond,
    hthird, hfourth, hfifth, Option.bind_eq_bind, Option.bind_some]
  rfl

/-! ## Environments -/

/-- Reading undoes writing element by element. -/
theorem mapM_map {α β : Type} (read? : β → Option α) (write : α → β)
    (h : ∀ a, read? (write a) = some a) (l : List α) : (l.map write).mapM read? = some l := by
  induction l with
  | nil => rfl
  | cons a l ih =>
      rw [List.map_cons, List.mapM_cons, h, ih]
      rfl

namespace Environment

/-- The variables with some of the names. -/
def kept (keep : String → Bool) (e : Environment) : Environment :=
  ⟨e.entries.filter fun v => keep v.1, e.sorted.filter _⟩

/-- The entries of the section of the environment. -/
def literals (e : Environment) : List (String × Literal) :=
  e.entries.map fun (name, value) => (name, .string value)

/-- The names in a section of variables are different, for the variables are in order. -/
theorem nodup_literals (e : Environment) : (e.literals.map Prod.fst).Nodup := by
  have hkeys : e.literals.map Prod.fst = e.entries.map Prod.fst := by
    rw [literals, List.map_map]
    rfl
  rw [hkeys]
  exact List.pairwise_map.mpr (e.sorted.imp fun hlt => Std.ne_of_lt hlt)

/-- The variables that are dropped are gone. -/
theorem filter_literals (keep : String → Bool) (e : Environment) :
    e.literals.filter (fun v => keep v.1) = (e.kept keep).literals := by
  rw [literals, List.filter_map]
  rfl

/-- To keep all variables is to keep the environment. -/
theorem kept_all (e : Environment) : e.kept (fun _ => true) = e := by
  have hentries : e.entries.filter (fun _ => true) = e.entries :=
    List.filter_eq_self.mpr fun _ _ => rfl
  simp only [kept, hentries]

/-- What comes before everything in a list is put in front. -/
theorem insertSorted_of_lt {name value : String} {l : List (String × String)}
    (h : ∀ e ∈ l, name < e.1) : insertSorted name value l = (name, value) :: l := by
  cases l with
  | nil => rfl
  | cons e l => rw [insertSorted, if_pos (h e List.mem_cons_self)]

/-- Variables that come backwards are sorted again. -/
theorem ofList_reverse (e : Environment) : ofList e.entries.reverse = e := by
  obtain ⟨entries, hsorted⟩ := e
  have hfold : (entries.foldr (fun v e => e.insert v.1 v.2) empty).entries = entries := by
    induction entries with
    | nil => rfl
    | cons v entries ih =>
        obtain ⟨hfirst, hrest⟩ := List.pairwise_cons.mp hsorted
        show insertSorted v.1 v.2 (entries.foldr (fun v e => e.insert v.1 v.2) empty).entries = _
        rw [ih hrest, insertSorted_of_lt hfirst]
  rw [ofList, List.foldl_reverse]
  generalize entries.foldr (fun v e => e.insert v.1 v.2) empty = sorted at hfold
  cases sorted
  subst hfold
  rfl

end Environment

/-! ## Settings of some keys -/

/-- The settings of some keys, and the defaults of the others. -/
def TerminalSettings.kept (keep : String → Bool) (t : TerminalSettings) : TerminalSettings :=
  let default : TerminalSettings := {}
  { cols := if keep "cols" then t.cols else default.cols
    rows := if keep "rows" then t.rows else default.rows
    historyLimit := if keep "scrollback_limit" then t.historyLimit else default.historyLimit
    sgr21 := if keep "sgr21_policy" then t.sgr21 else default.sgr21 }

/-- The settings of some keys, and the defaults of the others; and some of the variables. -/
def ShellSettings.kept (keep keepVariable : String → Bool) (t : ShellSettings) : ShellSettings :=
  let default : ShellSettings := {}
  { program := if keep "program" then t.program else default.program
    args := if keep "args" then t.args else default.args
    workingDirectory := if keep "working_dir" then t.workingDirectory else default.workingDirectory
    environment := t.environment.kept keepVariable }

/-- The settings of some keys, and the defaults of the others. -/
def SessionSettings.kept (keep : String → Bool) (t : SessionSettings) : SessionSettings :=
  let default : SessionSettings := {}
  { stopTimeout := if keep "stop_timeout_ms" then t.stopTimeout else default.stopTimeout }

/-- The settings of some keys, and the defaults of the others. -/
def LogSettings.kept (keep : String → Bool) (t : LogSettings) : LogSettings :=
  let default : LogSettings := {}
  { level := if keep "level" then t.level else default.level
    file := if keep "file" then t.file else default.file }

/-- The entries of the section of the terminal. -/
def TerminalSettings.literals (t : TerminalSettings) : List (String × Literal) :=
  [("cols", .integer t.cols.toNat), ("rows", .integer t.rows.toNat),
   ("scrollback_limit", .integer t.historyLimit.toNat),
   ("sgr21_policy", .string (Settings.sgr21Name t.sgr21))]

/-- The entries of the section of the shell. -/
def ShellSettings.literals (t : ShellSettings) : List (String × Literal) :=
  Settings.optional "program" t.program ++ [("args", .strings t.args)] ++
    Settings.optional "working_dir" t.workingDirectory

/-- The entries of the section of sessions. -/
def SessionSettings.literals (t : SessionSettings) : List (String × Literal) :=
  [("stop_timeout_ms", .integer t.stopTimeout.toNat)]

/-- The entries of the section of the log. -/
def LogSettings.literals (t : LogSettings) : List (String × Literal) :=
  ("level", .string t.level) :: Settings.optional "file" t.file

namespace Settings

/-- The settings of some keys in some tables, and the defaults of the others. -/
def kept (keep : List String → String → Bool) (s : Settings) : Settings where
  terminal := s.terminal.kept (keep ["terminal"])
  shell := s.shell.kept (keep ["shell"]) (keep ["shell", "env"])
  session := s.session.kept (keep ["session"])
  log := s.log.kept (keep ["log"])

/-- The text of the settings, without the assignments that are not kept. -/
def textKeeping (keep : List String → String → Bool) (s : Settings) : String :=
  String.ofList (((stretches s.sections).filter (Stretch.isKept keep)).flatMap Stretch.text)

/-- The sections that are written, in their order. -/
theorem sections_eq (s : Settings) : s.sections =
    [⟨["terminal"], s.terminal.literals⟩, ⟨["shell"], s.shell.literals⟩,
     ⟨["shell", "env"], s.shell.environment.literals⟩, ⟨["session"], s.session.literals⟩,
     ⟨["log"], s.log.literals⟩] := rfl

/-! ## Fields of tables with entries dropped -/

/-- A field has its value, or the default if its entry is dropped. -/
theorem field_filter {α : Type} {entries : List (String × Literal)} {key : String} {default x : α}
    {read? : Value → Option α} (h : field (entriesTable entries) key default read? = some x)
    (keep : String → Bool) :
    field (entriesTable (entries.filter fun e => keep e.1)) key default read?
      = some (if keep key then x else default) := by
  rw [field] at h ⊢
  rw [entriesTable_filter, Table.get?_filter]
  by_cases hkeep : keep key = true
  · rw [if_pos hkeep, if_pos hkeep, h]
  · rw [if_neg hkeep, if_neg hkeep]

/-- A field is not affected by an entry of another name in front. -/
theorem field_cons_of_ne {α : Type} {key other : String} (h : other ≠ key) (v : Value) (t : Table)
    (default : α) (read? : Value → Option α) :
    field ((key, v) :: t) other default read? = field t other default read? := by
  rw [field, field, Table.get?_cons_of_ne h]

/-- A field is read from the first entry with its name. -/
theorem field_cons_self {α : Type} (key : String) (v : Value) (t : Table) (default : α)
    (read? : Value → Option α) : field ((key, v) :: t) key default read? = read? v := by
  rw [field, Table.get?_cons_self]

/-- A number of 16 bits is read back. -/
theorem number16?_toNat (n : UInt16) : number16? (.integer n.toNat) = some n := by
  have hle : n.toNat ≤ 65535 := Nat.le_of_lt_succ n.toNat_lt
  have hrange : 0 ≤ (n.toNat : Int) ∧ (n.toNat : Int) ≤ (65535 : Nat) := by omega
  rw [number16?, natural?, if_pos hrange, Option.map_some, Int.toNat_natCast, UInt16.ofNat_toNat]

/-- A number of 64 bits is read back. -/
theorem number64?_toNat (n : UInt64) : number64? (.integer n.toNat) = some n := by
  have hle : n.toNat ≤ 18446744073709551615 := Nat.le_of_lt_succ n.toNat_lt
  have hrange : 0 ≤ (n.toNat : Int) ∧ (n.toNat : Int) ≤ (18446744073709551615 : Nat) := by omega
  rw [number64?, natural?, if_pos hrange, Option.map_some, Int.toNat_natCast, UInt64.ofNat_toNat]

/-- The name of a policy is read back. -/
theorem sgr21?_name (p : Sgr21) : sgr21? (.string (sgr21Name p)) = some p := by
  cases p <;> rfl

/-- A list of texts is read back. -/
theorem texts?_strings (l : List String) : texts? (.array (l.map .string)) = some l := by
  show (l.map Value.string).mapM text? = some l
  exact mapM_map text? Value.string (fun _ => rfl) l

/-! ## Sections with entries dropped -/

/-- The terminal's section, with some entries dropped, gives the settings of those that are left. -/
theorem terminal?_filter (keep : String → Bool) (t : TerminalSettings) :
    terminal? (.table .header (entriesTable (t.literals.filter fun e => keep e.1)))
      = some (t.kept keep) := by
  have hcols : field (entriesTable t.literals) "cols" ({} : TerminalSettings).cols number16?
      = some t.cols := number16?_toNat t.cols
  have hrows : field (entriesTable t.literals) "rows" ({} : TerminalSettings).rows number16?
      = some t.rows := number16?_toNat t.rows
  have hlimit : field (entriesTable t.literals) "scrollback_limit"
      ({} : TerminalSettings).historyLimit number64? = some t.historyLimit :=
    number64?_toNat t.historyLimit
  have hsgr21 : field (entriesTable t.literals) "sgr21_policy" ({} : TerminalSettings).sgr21 sgr21?
      = some t.sgr21 := sgr21?_name t.sgr21
  simp only [terminal?, Value.record?, Value.items?, Value.entries?, Option.bind_eq_bind,
    Option.bind_some, field_filter hcols, field_filter hrows, field_filter hlimit,
    field_filter hsgr21]
  rfl

/-- The section of sessions, with some entries dropped. -/
theorem session?_filter (keep : String → Bool) (t : SessionSettings) :
    session? (.table .header (entriesTable (t.literals.filter fun e => keep e.1)))
      = some (t.kept keep) := by
  have htimeout : field (entriesTable t.literals) "stop_timeout_ms"
      ({} : SessionSettings).stopTimeout number64? = some t.stopTimeout :=
    number64?_toNat t.stopTimeout
  simp only [session?, Value.record?, Value.items?, Value.entries?, Option.bind_eq_bind,
    Option.bind_some, field_filter htimeout]
  rfl

/-- The section of the log, with some entries dropped. -/
theorem log?_filter (keep : String → Bool) (t : LogSettings) :
    log? (.table .header (entriesTable (t.literals.filter fun e => keep e.1)))
      = some (t.kept keep) := by
  have hlevel : field (entriesTable t.literals) "level" ({} : LogSettings).level text?
      = some t.level := by
    rw [LogSettings.literals]
    cases t.file <;> rfl
  have hfile : field (entriesTable t.literals) "file" ({} : LogSettings).file optionalText?
      = some t.file := by
    rw [LogSettings.literals]
    cases t.file <;> rfl
  simp only [log?, Value.record?, Value.items?, Value.entries?, Option.bind_eq_bind,
    Option.bind_some, field_filter hlevel, field_filter hfile]
  rfl

/-- The variables are read back as they are. -/
theorem environment?_literals (e : Environment) :
    environment? (.table .header (entriesTable e.literals)) = some e := by
  have htable : entriesTable e.literals
      = e.entries.reverse.map fun (name, value) => (name, Value.string value) := by
    rw [entriesTable, Environment.literals, List.map_map, List.map_reverse]
    rfl
  have hpairs := mapM_map (fun v : String × Value => (text? v.2).map fun s => (v.1, s))
    (fun v : String × String => (v.1, Value.string v.2)) (fun _ => rfl) e.entries.reverse
  simp only [environment?, Value.entries?, htable, Option.bind_eq_bind, Option.bind_some]
  rw [hpairs]
  exact congrArg some e.ofList_reverse

/-- The section of the shell, with some entries dropped; its variables are a table of their own
    inside. -/
theorem shell?_filter (keep keepVariable : String → Bool) (t : ShellSettings) :
    shell? (.table .header
        (("env", .table .header
          (entriesTable (t.environment.literals.filter fun e => keepVariable e.1))) ::
        entriesTable (t.literals.filter fun e => keep e.1)))
      = some (t.kept keep keepVariable) := by
  have hprogram : field (entriesTable t.literals) "program" ({} : ShellSettings).program
      optionalText? = some t.program := by
    rw [ShellSettings.literals]
    cases t.program <;> cases t.workingDirectory <;> rfl
  have hargs : field (entriesTable t.literals) "args" ({} : ShellSettings).args texts?
      = some t.args := by
    rw [ShellSettings.literals]
    cases t.program <;> cases t.workingDirectory <;> exact texts?_strings t.args
  have hdirectory : field (entriesTable t.literals) "working_dir"
      ({} : ShellSettings).workingDirectory optionalText? = some t.workingDirectory := by
    rw [ShellSettings.literals]
    cases t.program <;> cases t.workingDirectory <;> rfl
  have hprogramKey : "program" ≠ "env" := by decide
  have hargsKey : "args" ≠ "env" := by decide
  have hdirectoryKey : "working_dir" ≠ "env" := by decide
  simp only [shell?, Value.record?, Value.items?, Value.entries?, Option.bind_eq_bind,
    Option.bind_some, field_cons_of_ne hprogramKey, field_cons_of_ne hargsKey,
    field_cons_of_ne hdirectoryKey, field_filter hprogram, field_filter hargs,
    field_filter hdirectory, field_cons_self, Environment.filter_literals, environment?_literals]
  rfl

/-! ## All sections -/

/-- The settings are read section by section. -/
theorem ofTable?_of_fields {t : Table} {terminal : TerminalSettings} {shell : ShellSettings}
    {session : SessionSettings} {log : LogSettings}
    (hterminal : field t "terminal" ({} : Settings).terminal terminal? = some terminal)
    (hshell : field t "shell" ({} : Settings).shell shell? = some shell)
    (hsession : field t "session" ({} : Settings).session session? = some session)
    (hlog : field t "log" ({} : Settings).log log? = some log) :
    ofTable? t = some { terminal, shell, session, log } := by
  simp only [ofTable?, hterminal, hshell, hsession, hlog, Option.bind_eq_bind, Option.bind_some]

/-- Keys that are different stay so. -/
theorem nodup_filter {entries : List (String × Literal)} (h : (entries.map Prod.fst).Nodup)
    (keep : String → Bool) : ((entries.filter fun e => keep e.1).map Prod.fst).Nodup :=
  (List.filter_sublist.map _).nodup h

/-- No key of the section of the shell comes twice, be the optional ones there or not. -/
theorem nodup_shell (t : ShellSettings) : (t.literals.map Prod.fst).Nodup := by
  rw [ShellSettings.literals]
  cases t.program <;> cases t.workingDirectory <;> simp [optional]

/-- Nor does one of the section of the log. -/
theorem nodup_log (t : LogSettings) : (t.literals.map Prod.fst).Nodup := by
  rw [LogSettings.literals]
  cases t.file <;> simp [optional]

/-! ## Settings with assignments deleted -/

section

variable {s : Settings} (hlimit : s.terminal.historyLimit.toNat ≤ maxInteger)
  (htimeout : s.session.stopTimeout.toNat ≤ maxInteger)

include hlimit htimeout

/-- All numbers but two are small by their type. -/
theorem fits_sections : ∀ t ∈ s.sections, t.Fits := by
  have hcols : s.terminal.cols.toNat ≤ maxInteger :=
    Nat.le_trans (Nat.le_of_lt s.terminal.cols.toNat_lt) (by decide)
  have hrows : s.terminal.rows.toNat ≤ maxInteger :=
    Nat.le_trans (Nat.le_of_lt s.terminal.rows.toNat_lt) (by decide)
  have hoptional : ∀ key file, ∀ e ∈ optional key file, e.2.Fits := by
    intro key file e he
    obtain ⟨text, -, rfl⟩ := List.mem_map.mp he
    trivial
  have hterminal : ∀ e ∈ s.terminal.literals, e.2.Fits := by
    simp [TerminalSettings.literals, Literal.Fits, hcols, hrows, hlimit]
  have hshell : ∀ e ∈ s.shell.literals, e.2.Fits := by
    intro e he
    rw [ShellSettings.literals, List.mem_append, List.mem_append, List.mem_singleton] at he
    rcases he with (he | rfl) | he
    · exact hoptional _ _ e he
    · trivial
    · exact hoptional _ _ e he
  have henvironment : ∀ e ∈ s.shell.environment.literals, e.2.Fits := by
    intro e he
    obtain ⟨v, -, rfl⟩ := List.mem_map.mp he
    trivial
  have hsession : ∀ e ∈ s.session.literals, e.2.Fits := by
    simp [SessionSettings.literals, Literal.Fits, htimeout]
  have hlog : ∀ e ∈ s.log.literals, e.2.Fits :=
    List.forall_mem_cons.mpr ⟨trivial, hoptional _ _⟩
  rw [sections_eq]
  simp only [List.forall_mem_cons]
  have hone : ∀ key : String, [key].length ≤ maxKeys := fun _ => Nat.le_of_ble_eq_true rfl
  have htwo : ["shell", "env"].length ≤ maxKeys := by decide
  have hpath : ∀ key path, key :: path ≠ ([] : List String) := List.cons_ne_nil
  exact ⟨⟨hpath _ _, hone _, hterminal⟩, ⟨hpath _ _, hone _, hshell⟩,
    ⟨hpath _ _, htwo, henvironment⟩, ⟨hpath _ _, hone _, hsession⟩, ⟨hpath _ _, hone _, hlog⟩,
    fun _ h => absurd h List.not_mem_nil⟩

/-- What is left is the document of the entries that are left. -/
theorem readStatements?_textKeeping (keep : List String → String → Bool) :
    readStatements? (s.textKeeping keep).toList
      = some ((s.sections.map (Section.kept keep)).flatMap Section.statements) := by
  rw [textKeeping, String.toList_ofList, filter_stretches, text_stretches]
  refine readStatements?_writeSections fun t ht => ?_
  obtain ⟨u, hu, rfl⟩ := List.mem_map.mp ht
  exact (fits_sections hlimit htimeout u hu).kept keep

/-- They are read as the settings of the keys that are left. -/
theorem ofText?_textKeeping (keep : List String → String → Bool) :
    ofText? (s.textKeeping keep) = some (s.kept keep) := by
  have hnew : Table.get? (entriesTable s.shell.literals) "env" = none := by
    rw [ShellSettings.literals]
    cases s.shell.program <;> cases s.shell.workingDirectory <;> rfl
  have hnewKept : Table.get? (entriesTable (s.shell.literals.filter fun e => keep ["shell"] e.1))
      "env" = none := by
    rw [entriesTable_filter, Table.get?_filter, hnew, ite_self]
  have hterminal : (s.terminal.literals.map Prod.fst).Nodup := by
    simp [TerminalSettings.literals]
  have hsession : (s.session.literals.map Prod.fst).Nodup := by
    simp [SessionSettings.literals]
  have htable := tableOf?_sections (nodup_filter hterminal (keep ["terminal"]))
    (nodup_filter (nodup_shell s.shell) (keep ["shell"])) hnewKept
    (nodup_filter s.shell.environment.nodup_literals (keep ["shell", "env"]))
    (nodup_filter hsession (keep ["session"])) (nodup_filter (nodup_log s.log) (keep ["log"]))
  rw [ofText?, Toml.read?, readStatements?_textKeeping hlimit htimeout]
  refine (congrArg (Option.bind · ofTable?) htable).trans ?_
  exact ofTable?_of_fields (terminal?_filter _ _) (shell?_filter _ _ _) (session?_filter _ _)
    (log?_filter _ _)

/-- The text of settings with some assignments dropped loads as these settings with the defaults for
    what was dropped. -/
theorem load_textKeeping (keep : List String → String → Bool) :
    load (.ok (Utf8.ofString (s.textKeeping keep))) = .ok (s.kept keep) := by
  simp only [load, Utf8.decodeStrict?_ofString, ofText?_textKeeping hlimit htimeout]

end

/-- With all assignments kept there is nothing deleted. -/
theorem textKeeping_all (s : Settings) : s.textKeeping (fun _ _ => true) = s.text := by
  have hall : ∀ stretch ∈ stretches s.sections, stretch.isKept (fun _ _ => true) = true := by
    intro stretch _
    cases stretch <;> rfl
  rw [textKeeping, List.filter_eq_self.mpr hall, text_stretches, text]

/-- To keep everything is to keep the settings. -/
theorem kept_all (s : Settings) : s.kept (fun _ _ => true) = s := by
  obtain ⟨terminal, ⟨program, args, workingDirectory, environment⟩, session, log⟩ := s
  have henvironment := environment.kept_all
  simp only [kept, ShellSettings.kept, henvironment]
  rfl

/-- **Settings survive saving.**  If the numbers are ones that the format has, what is loaded from
    the written text is what was written, whatever characters there are in texts and names.  The
    text is made of one assignment for each key, and of headers and empty lines between them; if any
    assignments are deleted from it, what is loaded has the defaults in their place, and of the
    environment it has the variables that are left. -/
theorem load_text (s : Settings) (hlimit : s.terminal.historyLimit.toNat ≤ maxInteger)
    (htimeout : s.session.stopTimeout.toNat ≤ maxInteger) :
    load (.ok (Utf8.ofString s.text)) = .ok s ∧
      s.text.toList = (stretches s.sections).flatMap Stretch.text ∧
      ∀ keep : List String → String → Bool,
        load (.ok (Utf8.ofString (s.textKeeping keep))) = .ok (s.kept keep) := by
  have hkept := load_textKeeping hlimit htimeout
  refine ⟨?_, ?_, hkept⟩
  · have hall := hkept fun _ _ => true
    rwa [textKeeping_all, kept_all] at hall
  · rw [text_stretches, text, String.toList_ofList]

/-- Texts with all quotes, escapes and line ends, empty ones, and names that need quotes; and three
    assignments deleted. -/
theorem load_text_quotes :
    let s : Settings :=
      { terminal := { cols := 132, historyLimit := 9223372036854775807, sgr21 := .doubleUnderline }
        shell :=
          { program := some "", args := ["'\x22\\", "'''\n\x22\x22\x22", "\x00\x7f\r\n"]
            workingDirectory := some "/tmp\n/日"
            environment := .ofList [("", "'"), ("A.B", "\x22\x22\x22"), ("]\n#", "")] }
        log := { level := "\\", file := some "\t'" } }
    let keep : List String → String → Bool := fun path key =>
      (path, key) ∉ [(["terminal"], "cols"), (["shell"], "args"), (["shell", "env"], "")]
    s.terminal.historyLimit.toNat ≤ maxInteger ∧ s.session.stopTimeout.toNat ≤ maxInteger ∧
      load (.ok (Utf8.ofString s.text)) = .ok s ∧
      load (.ok (Utf8.ofString (s.textKeeping keep))) = .ok
        { s with
          terminal := { s.terminal with cols := 80 }
          shell :=
            { s.shell with
              args := []
              environment := .ofList [("A.B", "\x22\x22\x22"), ("]\n#", "")] } } := by
  intro s keep
  have hlimit : s.terminal.historyLimit.toNat ≤ maxInteger := by decide
  have htimeout : s.session.stopTimeout.toNat ≤ maxInteger := by decide
  obtain ⟨htext, -, hdeleted⟩ := load_text s hlimit htimeout
  exact ⟨hlimit, htimeout, htext, (hdeleted keep).trans (by rfl)⟩

end Settings

end VideoTerminal
