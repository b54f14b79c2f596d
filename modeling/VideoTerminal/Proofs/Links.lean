import VideoTerminal.Proofs.CellOrigins
import VideoTerminal.Proofs.OpenLinks

/-!
# Links keep what they were printed under

Cells carry numbers, numbers are given out again once their links have been dropped, and a link
that is opened twice may get the same number or another one.  A `Ledger` is an emulator that does
all of this otherwise: each opening gets the next number, never used before, and is noted in a list
from which nothing is dropped.  So in a ledger the number in a cell tells under which opening the
cell was printed.  Which link is open a ledger takes from the messages alone
(`Message.leavesOpen?`): it has no table, and of what the terminal does to the open link it makes
no use.

An emulator and a ledger to which the same is done differ in the numbers of links only, and the
table sends a number of the emulator to what the ledger noted under its own.  The step is one lemma
for all messages that are not about links, one for the opening of a link, one for its end and one
for the full reset; the run is an induction on messages and then on calls.
-/

namespace VideoTerminal

open Terminal (Uniform)

/-! ## Opening a link -/

namespace Terminal

variable {t : Terminal} {id target : String}

/-- The table to which a new link is added: a full one loses what is not in use. -/
def clearedLinks (t : Terminal) : LinkTable :=
  if LinkTable.limit ≤ t.links.size then t.links.retain t.usedLinks else t.links

/-- Clearing keeps a table sound. -/
theorem clearedLinks_sound (h : t.links.Sound) : t.clearedLinks.Sound := by
  rw [clearedLinks]
  split
  · exact h.retain t.usedLinks
  · exact h

/-- What was not in the table is not in what is left of it. -/
theorem number?_clearedLinks_none (hnone : t.links.number? id target = none) :
    t.clearedLinks.number? id target = none := by
  rw [clearedLinks]
  split
  · exact LinkTable.number?_retain_none t.usedLinks hnone
  · exact hnone

/-- What is held is in use. -/
theorem number?_clearedLinks (h : t.links.Sound) {n : Nat} (hheld : n ∈ t.linkNumbers)
    (hnumber : t.links.number? id target = some n) :
    t.clearedLinks.number? id target = some n := by
  rw [clearedLinks]
  split
  · have hne := h.number?_ne_zero hnumber
    exact h.number?_retain ((mem_usedLinks hne t).mpr hheld) hnumber
  · exact hnumber

/-- The link opened is in the table, and so are all that are held, with the numbers they had. -/
theorem openHyperlink_spec (h : t.links.Sound) (id target : String) :
    ∃ links number, t.openHyperlink id target = { t with links, openLink := number } ∧
      links.Sound ∧ links.number? id target = some number ∧
      ∀ {id' target' : String} {n : Nat}, n ∈ t.linkNumbers →
        t.links.number? id' target' = some n → links.number? id' target' = some n := by
  rw [openHyperlink]
  cases hnumber : t.links.number? id target with
  | some number => exact ⟨t.links, number, rfl, h, hnumber, fun _ hkept => hkept⟩
  | none =>
      have hnone := number?_clearedLinks_none hnumber
      refine ⟨t.clearedLinks.insert id target, _, rfl, (clearedLinks_sound h).insert hnone,
        LinkTable.number?_insert_self _ id target, fun hheld hkept => ?_⟩
      exact LinkTable.number?_insert hnone (number?_clearedLinks h hheld hkept)

/-- With a link that is new to it the table is no longer than the limit, or than what was held and
    the new link. -/
theorem size_openHyperlink_le (h : t.links.Sound)
    (hnew : t.links.number? id target = none) :
    (t.openHyperlink id target).links.size ≤ max LinkTable.limit (1 + t.heldLinks.card) := by
  have hsize := LinkTable.size_insert_of_new (number?_clearedLinks_none hnew)
  rw [openHyperlink, hnew, heldLinks_eq]
  show (t.clearedLinks.insert id target).size ≤ _
  rw [hsize, clearedLinks]
  split
  · have hle := h.size_retain_le t.usedLinks
    omega
  · omega

/-- A new link takes the place of the one that was open, under a number that stands in no cell. -/
theorem card_heldLinks_le (h : t.links.Sound)
    (hheld : ∀ n ∈ t.linkNumbers, n ≠ 0 → ∃ id target, t.links.number? id target = some n)
    (hnew : t.links.number? id target = none) :
    t.heldLinks.card ≤ (t.openHyperlink id target).heldLinks.card := by
  obtain ⟨links, number, hopen, hsound, hnumber, hkept⟩ := openHyperlink_spec h id target
  let carried := (t.cells.map Cell.link).toFinset.erase 0
  have hfresh : number ∉ carried := by
    intro hmem
    obtain ⟨hne, hmem⟩ := Finset.mem_erase.mp hmem
    have hcell := List.mem_cons_of_mem t.openLink (List.mem_toFinset.mp hmem)
    obtain ⟨id', target', hold⟩ := hheld number hcell hne
    cases hsound.number?_inj hnumber (hkept hcell hold)
    rw [hnew] at hold
    cases hold
  have hbehind : (t.openHyperlink id target).heldLinks = insert number carried := by
    rw [hopen, heldLinks, linkNumbers, List.toFinset_cons]
    exact Finset.erase_insert_of_ne (hsound.number?_ne_zero hnumber)
  have hbefore : t.heldLinks ⊆ insert t.openLink carried := by
    intro n hn
    obtain ⟨hne, hmem⟩ := Finset.mem_erase.mp hn
    rcases List.mem_cons.mp (List.mem_toFinset.mp hmem) with rfl | hcell
    · exact Finset.mem_insert_self _ _
    · exact Finset.mem_insert_of_mem (Finset.mem_erase.mpr ⟨hne, List.mem_toFinset.mpr hcell⟩)
  rw [hbehind, Finset.card_insert_of_notMem hfresh]
  exact (Finset.card_le_card hbefore).trans (Finset.card_insert_le _ _)

end Terminal

/-! ## The ledger -/

/-- An emulator in which each opening of a link has a number of its own: its place in the list of
    all openings so far, from which nothing is ever dropped. -/
structure Ledger extends Emulator where
  opened : List (String × String) := []
deriving DecidableEq, Repr

/-- The identity and the target that are noted under a number. -/
def noted? (opened : List (String × String)) : Nat → Option (String × String)
  | 0 => none
  | n + 1 => opened[n]?

namespace Ledger

/-- A message that opens a link is noted, one that ends a link has no other effect unless it is the
full reset, and any other acts on the terminal but leaves the open link alone. -/
def apply (l : Ledger) (m : Message) : Ledger :=
  match m.leavesOpen? with
  | some (some pair) =>
      { l with
        terminal := { l.terminal with openLink := l.opened.length + 1 }
        opened := l.opened ++ [pair] }
  | some none =>
      let t := if m.isFullReset then (l.terminal.apply m).1 else l.terminal
      { l with terminal := { t with openLink := 0 } }
  | none =>
      { l with terminal := { (l.terminal.apply m).1 with openLink := l.terminal.openLink } }

/-- The ledger behind a call. -/
def call (l : Ledger) : Emulator.Call → Ledger
  | .write bytes =>
      let (decoder, ms) := l.decoder.push bytes
      ms.foldl apply { l with decoder }
  | .flush =>
      let (decoder, ms) := l.decoder.flush
      ms.foldl apply { l with decoder }
  | c => { l with toEmulator := l.toEmulator.call c }

/-- The ledger behind calls in order. -/
def run (l : Ledger) (calls : List Emulator.Call) : Ledger := calls.foldl call l

/-- What the open link is. -/
def openPair (l : Ledger) : Option (String × String) := noted? l.opened l.terminal.openLink

/-- What the open link is, and what was open when each of the cells was printed. -/
def origins (l : Ledger) : List (Option (String × String)) :=
  l.terminal.linkNumbers.map (noted? l.opened)

end Ledger

/-- What is noted stays noted when more is. -/
theorem noted?_append {opened : List (String × String)} {n : Nat} {pair : String × String}
    (hn : noted? opened n = some pair) (more : List (String × String)) :
    noted? (opened ++ more) n = some pair := by
  cases n with
  | zero => cases hn
  | succ n => exact (List.getElem?_append_left (List.getElem?_eq_some_iff.mp hn).1).trans hn

/-- What is noted last has the length of the list for its number. -/
theorem noted?_append_singleton (opened : List (String × String)) (pair : String × String) :
    noted? (opened ++ [pair]) (opened.length + 1) = some pair := List.getElem?_concat_length

/-- What is noted has a number not beyond the length of the list. -/
theorem le_of_noted? {opened : List (String × String)} {n : Nat} {pair : String × String}
    (hn : noted? opened n = some pair) : n ≤ opened.length := by
  cases n with
  | zero => exact Nat.zero_le _
  | succ n => exact (List.getElem?_eq_some_iff.mp hn).1

/-! ## One step -/

/-- The terminal `t` has the numbers of its table where that of a ledger, `g`, has the numbers of
    openings: `f` gives one for the other. -/
structure Traced (f : Renumbering) (opened : List (String × String)) (g t : Terminal) : Prop where
  relinked : g.Relinked f t.links t
  sound : t.links.Sound
  known : ∀ n ∈ g.linkNumbers, n ≠ 0 →
    ∃ id target, noted? opened n = some (id, target) ∧ t.links.number? id target = some (f n)

namespace Traced

variable {f : Renumbering} {opened : List (String × String)} {g t : Terminal}

/-- A new terminal has no links at all. -/
theorem new (cols rows limit : Nat) (sgr21 : Sgr21) :
    Traced .same opened (.new cols rows limit sgr21) (.new cols rows limit sgr21) where
  relinked := .new .same cols rows limit sgr21
  sound := LinkTable.sound_empty
  known _ hmem hn := absurd (Terminal.linkNumbers_new hmem) hn

/-- The full reset empties the table and every cell. -/
theorem fullReset (h : Traced f opened g t) : Traced f opened g.fullReset t.fullReset where
  relinked := h.relinked.fullReset
  sound := LinkTable.sound_empty
  known _ hmem hn := absurd (Terminal.linkNumbers_new hmem) hn

/-- What does not ask for a link. -/
theorem uniform (h : Traced f opened g t) {F : Terminal → Terminal} (hF : Uniform F) :
    Traced f opened (F g) (F t) where
  relinked := by
    rw [hF.links_eq]
    exact hF h.relinked
  sound := by
    rw [hF.links_eq]
    exact h.sound
  known n hmem hn := by
    rw [hF.links_eq]
    exact h.known n (hF.mem_linkNumbers hn hmem) hn

/-- The number of the opening is sent to that of the link, and all others are sent where they
    were: they are smaller, since they have been noted before. -/
theorem opening (h : Traced f opened g t) (id target : String) :
    ∃ f', Traced f' (opened ++ [(id, target)]) { g with openLink := opened.length + 1 }
      (t.openHyperlink id target) := by
  obtain ⟨links, number, hopen, hsound, hnumber, hkept⟩ :=
    Terminal.openHyperlink_spec h.sound id target
  rw [hopen]
  let f' := f.set (opened.length + 1) number (Nat.succ_ne_zero _)
  have hsame : ∀ n ∈ g.linkNumbers, f n = f' n := by
    intro n hmem
    refine (Renumbering.set_of_ne _ fun hn => ?_).symm
    obtain ⟨id', target', hnoted, -⟩ := h.known n hmem (hn ▸ Nat.succ_ne_zero _)
    have hle := le_of_noted? hnoted
    omega
  have hself : f' (opened.length + 1) = number := Renumbering.set_self _
  refine ⟨f', ?_, hsound, fun n hmem hn => ?_⟩
  · have hopened := (h.relinked.congr hsame).openLink (opened.length + 1) links
    rwa [hself] at hopened
  · rcases List.mem_cons.mp hmem with rfl | hcell
    · refine ⟨id, target, noted?_append_singleton opened (id, target), ?_⟩
      rw [hself]
      exact hnumber
    · have hheld := List.mem_cons_of_mem g.openLink hcell
      obtain ⟨id', target', hnoted, hnumber'⟩ := h.known n hheld hn
      refine ⟨id', target', noted?_append hnoted _, ?_⟩
      rw [← hsame n hheld]
      refine hkept ?_ hnumber'
      rw [h.relinked.linkNumbers_eq]
      exact List.mem_map_of_mem hheld

end Traced

/-! ## Runs -/

namespace Ledger

/-- The terminal has the numbers of its table where that of the ledger has those of openings. -/
def Tracks (l : Ledger) (t : Terminal) : Prop := ∃ f, Traced f l.opened l.terminal t

variable {l : Ledger} {t : Terminal}

namespace Tracks

/-- One message, by what it does to the open link. -/
theorem apply (h : l.Tracks t) (m : Message) : (l.apply m).Tracks (t.apply m).1 := by
  obtain ⟨f, hf⟩ := h
  rw [Tracks, Ledger.apply]
  rcases Terminal.leavesOpen?_cases m with
    ⟨hreset, hleaves⟩ | ⟨id, target, hleaves, hopened⟩ | ⟨hreset, hleaves, hends⟩ |
    ⟨hreset, hleaves, hopened, hkeeps⟩
  · rw [hleaves, hreset, Terminal.apply_fullReset hreset, Terminal.apply_fullReset hreset]
    exact ⟨f, hf.fullReset⟩
  · rw [hleaves, (Terminal.apply_opened hopened t).1]
    exact hf.opening id target
  · rw [hleaves, hreset, hends t]
    exact ⟨f, hf.uniform fun hrelinked => hrelinked.closeHyperlink⟩
  · rw [hleaves]
    dsimp only
    rw [← hkeeps l.terminal]
    exact ⟨f, hf.uniform fun hrelinked => hrelinked.apply hopened hreset⟩

/-- A list of messages, one by one. -/
theorem run (h : l.Tracks t) (ms : List Message) :
    Tracks (ms.foldl Ledger.apply l) (Machine.run Terminal.apply t ms).1 := by
  induction ms generalizing l t with
  | nil => exact h
  | cons m ms ih =>
      rw [List.foldl_cons, Machine.run_cons]
      exact ih (h.apply m)

end Tracks

/-- Messages leave the decoder alone. -/
theorem decoder_apply (l : Ledger) (m : Message) : (l.apply m).decoder = l.decoder := by
  rw [apply]
  split <;> rfl

theorem decoder_foldl_apply (l : Ledger) (ms : List Message) :
    (ms.foldl apply l).decoder = l.decoder := by
  induction ms generalizing l with
  | nil => rfl
  | cons m ms ih => rw [List.foldl_cons, ih, decoder_apply]

/-- An emulator and a ledger to which the same has been done. -/
structure Follows (l : Ledger) (e : Emulator) : Prop where
  decoder_eq : l.decoder = e.decoder
  tracks : l.Tracks e.terminal

namespace Follows

variable {e : Emulator}

theorem act (h : l.Follows e) (decoder : Decoder) (ms : List Message) :
    Follows (ms.foldl apply { l with decoder }) (e.act decoder ms) where
  decoder_eq := by
    rw [decoder_foldl_apply, Emulator.act]
    split <;> rfl
  tracks := by
    have hrun := @Tracks.run { l with decoder } e.terminal h.tracks ms
    rw [Emulator.act]
    split
    · rename_i hempty
      rw [List.isEmpty_iff.mp hempty]
      exact h.tracks
    · rwa [Terminal.applyAll_eq_run]

/-- A change of the view of the shown screen, on both sides. -/
theorem onView (h : l.Follows e) {view : Screen → Screen}
    (hview : ∀ {f s u}, Screen.Relinked f s u → (view s).Relinked f (view u)) :
    Follows { l with toEmulator := l.toEmulator.onView view } (e.onView view) where
  decoder_eq := h.decoder_eq
  tracks := by
    obtain ⟨f, hf⟩ := h.tracks
    exact ⟨f, hf.uniform fun hrelinked => hrelinked.onScreen hview⟩

/-- A change of size is accepted on both sides or refused on both, since they have one size. -/
theorem resize (h : l.Follows e) (size : Size) :
    Follows (l.call (.resize size)) (e.call (.resize size)) := by
  obtain ⟨hdecoder, f, hf⟩ := h
  have hsize : l.terminal.size = e.terminal.size := by
    rw [Terminal.size, Terminal.size, hf.relinked.cols_eq, hf.relinked.rows_eq]
  show Follows { l with toEmulator := l.toEmulator.call (.resize size) } _
  rw [Emulator.call_resize, Emulator.call_resize, hsize]
  split
  · exact ⟨hdecoder, f, hf.uniform fun hrelinked => hrelinked.resize size.cols size.rows⟩
  · exact ⟨hdecoder, f, hf⟩

/-- A motion back fails on both sides or on neither. -/
theorem viewUp (h : l.Follows e) (n : Nat) :
    Follows (l.call (.viewUp n)) (e.call (.viewUp n)) := by
  show Follows { l with toEmulator := l.toEmulator.call (.viewUp n) } _
  rw [Emulator.call_viewUp, Emulator.call_viewUp]
  refine h.onView fun hs => ?_
  rw [Screen.offsetBack, Screen.offsetBack, hs.viewOffset_eq, hs.history_size]
  exact hs.setView _

/-- One call. -/
theorem call (h : l.Follows e) (c : Emulator.Call) : Follows (l.call c) (e.call c) := by
  cases c with
  | write bytes =>
      rw [Ledger.call, h.decoder_eq]
      exact h.act _ _
  | flush =>
      rw [Ledger.call, h.decoder_eq]
      exact h.act _ _
  | resize size => exact h.resize size
  | viewUp n => exact h.viewUp n
  | viewDown n => exact h.onView fun hs => hs.viewDown n
  | viewReset => exact h.onView fun hs => hs.viewReset
  | takeEvents => exact ⟨h.decoder_eq, h.tracks⟩

end Follows

/-! ### The open link -/

/-- What a message says of the open link a ledger takes over. -/
theorem openPair_apply (l : Ledger) (m : Message) :
    (l.apply m).openPair = m.leavesOpen?.getD l.openPair := by
  rw [apply]
  cases m.leavesOpen? with
  | none => rfl
  | some change =>
      cases change with
      | none => rfl
      | some pair => exact noted?_append_singleton l.opened pair

theorem openPair_foldl (l : Ledger) (ms : List Message) :
    (ms.foldl apply l).openPair
      = ms.foldl (fun pair m => m.leavesOpen?.getD pair) l.openPair := by
  induction ms generalizing l with
  | nil => rfl
  | cons m ms ih => rw [List.foldl_cons, List.foldl_cons, ih, openPair_apply]

/-- A call changes the open link by its messages only. -/
theorem openPair_call {e : Emulator} (h : l.Follows e) (c : Emulator.Call) :
    (l.call c).openPair
      = (e.completed c).foldl (fun pair m => m.leavesOpen?.getD pair) l.openPair := by
  have hview : ∀ view : Screen → Screen,
      Ledger.openPair { l with toEmulator := l.toEmulator.onView view } = l.openPair := fun view =>
    congrArg (fun frame : Terminal.Frame => noted? l.opened frame.openLink)
      ((Terminal.blind_frame l.terminal.frame).onScreen rfl)
  cases c with
  | write bytes =>
      rw [Ledger.call, h.decoder_eq]
      exact openPair_foldl _ _
  | flush =>
      rw [Ledger.call, h.decoder_eq]
      exact openPair_foldl _ _
  | resize size =>
      show Ledger.openPair { l with toEmulator := l.toEmulator.call (.resize size) } = _
      rw [Emulator.call_resize]
      split <;> rfl
  | viewUp n =>
      show Ledger.openPair { l with toEmulator := l.toEmulator.call (.viewUp n) } = _
      rw [Emulator.call_viewUp]
      exact hview _
  | viewDown n => exact hview _
  | viewReset => exact hview _
  | takeEvents => rfl

/-- After any calls the open link is what the messages have left open. -/
theorem openPair_run {e : Emulator} (h : l.Follows e) (calls : List Emulator.Call) :
    (l.run calls).openPair
      = (e.completedBy calls).foldl (fun pair m => m.leavesOpen?.getD pair) l.openPair := by
  induction calls generalizing l e with
  | nil => rfl
  | cons c calls ih =>
      rw [Emulator.completedBy, Machine.run_cons, List.foldl_append, ← openPair_call h c]
      exact ih (h.call c)

end Ledger

/-! ## What the numbers of a run stand for -/

/-- A number stands for what was open: for no link it is zero, and for a link it has its target. -/
def LinkTable.Resolves (links : LinkTable) (n : Nat) : Option (String × String) → Prop
  | none => n = 0
  | some (_, target) => n ≠ 0 ∧ links.target? n = some target

namespace Traced

variable {f : Renumbering} {opened : List (String × String)} {g t : Terminal}

/-- No link stands for no link, and any other number for what is noted. -/
theorem resolves (h : Traced f opened g t) {n : Nat} (hmem : n ∈ g.linkNumbers) :
    (f n = 0 ∧ noted? opened n = none) ∨
      ∃ id target, noted? opened n = some (id, target) ∧
        t.links.number? id target = some (f n) := by
  by_cases hn : n = 0
  · rw [hn]
    exact Or.inl ⟨f.zero, rfl⟩
  · exact Or.inr (h.known n hmem hn)

/-- Numbers of the table are the same just if what is noted is. -/
theorem eq_iff (h : Traced f opened g t) {n k : Nat} (hn : n ∈ g.linkNumbers)
    (hk : k ∈ g.linkNumbers) : f n = f k ↔ noted? opened n = noted? opened k := by
  rcases h.resolves hn with ⟨hn0, hnone⟩ | ⟨id, target, hnoted, hnumber⟩
  · rcases h.resolves hk with ⟨hk0, hnone'⟩ | ⟨id', target', hnoted', hnumber'⟩
    · rw [hn0, hk0, hnone, hnone']
      exact ⟨fun _ => rfl, fun _ => rfl⟩
    · rw [hn0, hnone, hnoted']
      refine ⟨fun h0 => ?_, fun hnoted => ?_⟩
      · exact absurd h0.symm (h.sound.number?_ne_zero hnumber')
      · cases hnoted
  · rcases h.resolves hk with ⟨hk0, hnone'⟩ | ⟨id', target', hnoted', hnumber'⟩
    · rw [hk0, hnone', hnoted]
      refine ⟨fun h0 => ?_, fun hnoted => ?_⟩
      · exact absurd h0 (h.sound.number?_ne_zero hnumber)
      · cases hnoted
    · rw [hnoted, hnoted']
      refine ⟨fun heq => ?_, fun hpair => ?_⟩
      · rw [← heq] at hnumber'
        exact congrArg some (h.sound.number?_inj hnumber hnumber')
      · cases hpair
        rw [hnumber] at hnumber'
        exact Option.some.inj hnumber'

/-- A number of the table has the target of what is noted. -/
theorem resolves_noted? (h : Traced f opened g t) {n : Nat} (hmem : n ∈ g.linkNumbers) :
    t.links.Resolves (f n) (noted? opened n) := by
  rcases h.resolves hmem with ⟨hzero, hnone⟩ | ⟨id, target, hnoted, hnumber⟩
  · rw [hnone]
    exact hzero
  · rw [hnoted]
    exact ⟨h.sound.number?_ne_zero hnumber, h.sound.target?_of_number? hnumber⟩

/-- The number at a place and what the ledger noted for it come from the ledger's number there. -/
theorem exists_of_mem_zip (h : Traced f opened g t) {n : Nat} {origin : Option (String × String)}
    (hmem : (n, origin) ∈ t.linkNumbers.zip (g.linkNumbers.map (noted? opened))) :
    ∃ k ∈ g.linkNumbers, f k = n ∧ noted? opened k = origin := by
  rw [h.relinked.linkNumbers_eq, List.zip_map'] at hmem
  obtain ⟨k, hk, hpair⟩ := List.mem_map.mp hmem
  cases hpair
  exact ⟨k, hk, rfl, rfl⟩

/-- What is held is in the table. -/
theorem exists_number? (h : Traced f opened g t) :
    ∀ n ∈ t.linkNumbers, n ≠ 0 → ∃ id target, t.links.number? id target = some n := by
  rw [h.relinked.linkNumbers_eq]
  intro n hmem hn
  obtain ⟨k, hk, rfl⟩ := List.mem_map.mp hmem
  rcases h.resolves hk with ⟨h0, -⟩ | ⟨id, target, -, hnumber⟩
  · exact absurd h0 hn
  · exact ⟨id, target, hnumber⟩

end Traced

namespace Emulator

/-- A ledger begins as a new emulator. -/
theorem new_follows {size : Size} {limit : Nat} {sgr21 : Sgr21} {new : Emulator}
    (hnew : create size limit sgr21 = .ok new) :
    Ledger.Follows { toEmulator := new } new ∧ Ledger.openPair { toEmulator := new } = none := by
  obtain ⟨-, rfl⟩ := create_eq_ok hnew
  exact ⟨⟨rfl, .same, .new size.cols size.rows limit sgr21⟩, rfl⟩

/-- A new emulator and the ledger that begins with it stay in step. -/
theorem run_follows {size : Size} {limit : Nat} {sgr21 : Sgr21} {new : Emulator}
    (hnew : create size limit sgr21 = .ok new) (calls : List Call) :
    Ledger.Follows (Ledger.run { toEmulator := new } calls) (new.run calls) := by
  obtain ⟨hfollows, -⟩ := new_follows hnew
  rw [Ledger.run, run]
  generalize ({ toEmulator := new } : Ledger) = l at hfollows
  generalize new = e at hfollows
  induction calls generalizing l e with
  | nil => exact hfollows
  | cons c calls ih => exact ih _ _ (hfollows.call c)

/-- Of a new emulator and its ledger, behind calls and then messages: the ledger keeps track, its
    open link is what the messages have left open, and the terminal is well formed. -/
theorem exists_traced {size : Size} {limit : Nat} {sgr21 : Sgr21} {new : Emulator}
    (hnew : create size limit sgr21 = .ok new) (calls : List Call) (ms : List Message) :
    let t := (Machine.run Terminal.apply (new.run calls).terminal ms).1
    let l := ms.foldl Ledger.apply (Ledger.run { toEmulator := new } calls)
    (∃ f, Traced f l.opened l.terminal t) ∧
    l.openPair = Message.openAfter (new.completedBy calls ++ ms) ∧ t.WellFormed limit := by
  intro t l
  obtain ⟨hfollows, hnone⟩ := new_follows hnew
  refine ⟨(run_follows hnew calls).tracks.run ms, ?_, ?_⟩
  · rw [Ledger.openPair_foldl, Ledger.openPair_run hfollows, hnone, Message.openAfter,
      List.foldl_append]
  · have hcalls : (new.run calls).terminal.WellFormed limit := by
      obtain ⟨hsize, rfl⟩ := create_eq_ok hnew
      exact run_wellFormed (Terminal.wellFormed_new hsize limit sgr21) calls
    exact Machine.run_invariant (I := Terminal.WellFormed limit) (fun _ m _ ht => ht.apply m) hcalls

/-- **Links never dangle and never alias.**  Of an emulator and a ledger to which the same calls
    have been made, and the same messages sent, the terminals differ in the numbers of links only,
    and the two maps of the table are in step.  The open link is the one that the messages have left
    open.  At each place, the open link and every cell of both grids and of the history, there is no
    link if none was open when the cell was printed, and otherwise the number has the target that
    was open then; and two places have the same number just if they have the same identity and
    target.

    A character that is printed next has, in each of its columns, the number of what the messages
    have left open.  Of the cells behind a message, those with a link have been there before or are
    printed by it, but for marks, and a change of size brings in none.  And a link that is new to
    the table leaves it no longer than the limit, or than one link more than are held, both before
    it is opened and behind it. -/
theorem links_keep_origins {size : Size} {limit : Nat} {sgr21 : Sgr21} {new : Emulator}
    (hnew : create size limit sgr21 = .ok new) (calls : List Call) (ms : List Message) :
    let t := (Machine.run Terminal.apply (new.run calls).terminal ms).1
    let l := ms.foldl Ledger.apply (Ledger.run { toEmulator := new } calls)
    let pair := Message.openAfter (new.completedBy calls ++ ms)
    let places := t.linkNumbers.zip l.origins
    (∃ f : Renumbering, l.terminal.Relinked f t.links t) ∧ t.links.InStep ∧
    t.linkNumbers.length = l.origins.length ∧ l.origins.head? = some pair ∧
    (∀ n origin, (n, origin) ∈ places → t.links.Resolves n origin) ∧
    (∀ n origin, (n, origin) ∈ places → ∀ k origin', (k, origin') ∈ places →
      (n = k ↔ origin = origin')) ∧
    (∀ c width, Width.columns? (t.charsets.glyph c) = some width → width = 1 ∨ width = 2 →
      width ≤ t.cols →
      let printed := (t.apply (.print [c])).1
      ∀ col, t.landingColumn width ≤ col → col < t.landingColumn width + width →
        ∃ x, printed.screen.cell? printed.cursor.row col = some x ∧ x.link = t.openLink ∧
          printed.links.Resolves x.link pair) ∧
    (∀ m, ∀ x ∈ (t.apply m).1.cells, t.Stems (t.Draws m) x) ∧
    (∀ cols rows, ∀ x ∈ (t.resize cols rows).cells, t.Stems (fun _ => False) x) ∧
    ∀ m id target, m.leavesOpen? = some (some (id, target)) →
      let u := (t.apply m).1
      t.links.number? id target = none →
      u.links.size ≤ max 1024 (1 + t.heldLinks.card) ∧
      u.links.size ≤ max 1024 (1 + u.heldLinks.card) := by
  intro t l pair places
  obtain ⟨⟨f, hf⟩, hpair, hformed⟩ := exists_traced hnew calls ms
  have hplaces : ∀ {n origin}, (n, origin) ∈ places →
      ∃ k ∈ l.terminal.linkNumbers, f k = n ∧ noted? l.opened k = origin := hf.exists_of_mem_zip
  -- the open link stands for what is noted last
  have hopen : t.links.Resolves t.openLink pair := by
    have hnoted := hf.resolves_noted? (n := l.terminal.openLink) List.mem_cons_self
    rwa [← hf.relinked.openLink_eq, show noted? l.opened l.terminal.openLink = pair from hpair]
      at hnoted
  refine ⟨⟨f, hf.relinked⟩, hf.sound.toInStep, ?_, congrArg some hpair, ?_, ?_, ?_,
    hformed.stems_apply, hformed.stems_resize, ?_⟩
  · rw [hf.relinked.linkNumbers_eq, Ledger.origins, List.length_map, List.length_map]
  · intro n origin hmem
    obtain ⟨k, hk, rfl, rfl⟩ := hplaces hmem
    exact hf.resolves_noted? hk
  · intro n origin hmem k origin' hmem'
    obtain ⟨i, hi, rfl, rfl⟩ := hplaces hmem
    obtain ⟨j, hj, rfl, rfl⟩ := hplaces hmem'
    exact hf.eq_iff hi hj
  · intro c width hc hwidth hfits printed col hle hlt
    obtain ⟨x, hx, hlink⟩ := hformed.link_print hc hwidth hfits hle hlt
    have hlinks : printed.links = t.links :=
      Uniform.links_eq (F := fun u => u.print c) (fun h => h.print c) t
    refine ⟨x, hx, hlink, ?_⟩
    rw [hlinks, hlink]
    exact hopen
  · intro m id target hm u hnew
    obtain ⟨hsame, hopened⟩ : u = t.openHyperlink id target ∧ target ≠ "" :=
      Terminal.apply_opened (Terminal.opened?_of_leavesOpen? hm) t
    have hsize := Terminal.size_openHyperlink_le hf.sound hnew
    have hcard := Terminal.card_heldLinks_le hf.sound hf.exists_number? hnew
    rw [hsame]
    exact ⟨hsize, hsize.trans (max_le_max le_rfl (Nat.add_le_add_left hcard 1))⟩

/-- A link that is opened again behind another, and then a third one. -/
theorem links_keep_origins_reopened :
    ∃ new, create ⟨3, 1⟩ 1 .cancelBold = .ok new ∧
      let calls := [Call.write (Utf8.ofString "\x1b]8;;a\x07x\x1b]8;;b\x07y\x1b]8;;a\x07z")]
      let t := (new.run calls).terminal
      let l := Ledger.run { toEmulator := new } calls
      l.origins =
        [some ("", "a"), some ("", "a"), some ("", "b"), some ("", "a"), none, none, none] ∧
      (∀ n origin, (n, origin) ∈ t.linkNumbers.zip l.origins → t.links.Resolves n origin) ∧
      (t.apply (.osc (some 8) ";c" .bel)).1.links.size ≤ max 1024 (1 + t.heldLinks.card) := by
  have hnew := @create_of_valid ⟨3, 1⟩ rfl 1 .cancelBold
  obtain ⟨-, -, -, -, htargets, -, -, -, -, hsize⟩ := links_keep_origins hnew
    [.write (Utf8.ofString "\x1b]8;;a\x07x\x1b]8;;b\x07y\x1b]8;;a\x07z")] []
  refine ⟨_, hnew, by decide +kernel, htargets, ?_⟩
  exact (hsize _ "" "c" (by decide +kernel) (by decide +kernel)).1

end Emulator

end VideoTerminal
