import VideoTerminal.Proofs.Frame
import VideoTerminal.Proofs.Numerals

/-!
# The link that is open

Which link is open can be told from the messages alone.  A system command of number 8 with a target
opens a link, one with an empty target ends it, and so does a full reset.  Nothing else has to do
with links.

`Message.leavesOpen?` reads this off a message, by its number and its text; the commands and the
terminal play no part in it.  `Terminal.leavesOpen?_cases` says that the terminal does the same.
-/

namespace VideoTerminal

/-! ## What a message leaves open -/

/-- The identity among the parameters of a link, which stand between colons: what follows `id=` in
the first that begins so, and nothing where none does. -/
def linkIdentity (params : List Char) : List Char :=
  (((params.splitOn ':').find? fun p => ['i', 'd', '='].isPrefixOf p).getD []).drop 3

/-- What the text of a command about links leaves open: the link of which the parameters stand
before the first semicolon and the target behind it, or none if the target is empty. -/
def linkIn? (data : List Char) : Option (Option (String × String)) :=
  match data.dropWhile (· ≠ ';') with
  | [] => none
  | _ :: target =>
      if target = [] then some none
      else
        let params := data.takeWhile (· ≠ ';')
        some (some (String.ofList (linkIdentity params), String.ofList target))

/-- What a message leaves open, if it is about links: a link or none. -/
def Message.leavesOpen? : Message → Option (Option (String × String))
  | .osc code data _ => if code = some 8 then linkIn? data.toList else none
  | .esc sequence => if sequence = [0x63] then some none else none
  | _ => none

/-- The identity and the target of the link that messages leave open, if they leave one open. -/
def Message.openAfter (ms : List Message) : Option (String × String) :=
  ms.foldl (fun pair m => m.leavesOpen?.getD pair) none

/-! ## The commands about links -/

namespace Field

/-- The fields of a text are what separators leave of it. -/
theorem all_eq_splitOn (sep : Char) (cs : List Char) : all sep cs = cs.splitOn sep := by
  rw [List.splitOn]
  induction cs with
  | nil => rfl
  | cons c cs ih =>
      rw [List.splitOnP_cons_eq_if_modifyHead, ← ih]
      show (if c = sep then [] :: all sep cs else prepend c (all sep cs)) = _
      by_cases hc : c = sep
      · rw [if_pos hc, if_pos (beq_iff_eq.mpr hc)]
      · rw [if_neg hc, if_neg fun h => hc (beq_iff_eq.mp h)]
        cases hall : all sep cs with
        | nil =>
            rw [ih] at hall
            exact absurd hall (List.splitOnP_ne_nil _ _)
        | cons f fs => rfl

theorem splitFirst?_eq (sep : Char) (cs : List Char) :
    splitFirst? sep cs =
      match cs.dropWhile (· ≠ sep) with
      | [] => none
      | _ :: rest => some (cs.takeWhile (· ≠ sep), rest) := by
  have hne : (fun c => c != sep) = fun c => decide (c ≠ sep) :=
    funext fun c => (Bool.eq_iff_iff.mpr (by simp))
  rw [splitFirst?, List.span_eq_takeWhile_dropWhile, hne]
  cases cs.dropWhile (· ≠ sep) <;> rfl

/-- What stands behind a beginning is found by looking for a text that begins so. -/
theorem after?_eq (start cs : List Char) :
    after? start cs = if start.isPrefixOf cs then some (cs.drop start.length) else none := by
  split
  · rename_i hbegins
    obtain ⟨rest, rfl⟩ := List.isPrefixOf_iff_prefix.mp hbegins
    rw [List.drop_left, after?_eq_some_iff]
  · rename_i hother
    rw [Option.eq_none_iff_forall_ne_some]
    intro rest hrest
    rw [after?_eq_some_iff.mp hrest] at hother
    exact hother (List.isPrefixOf_iff_prefix.mpr (List.prefix_append start rest))

end Field

namespace SystemCommand

theorem linkId_eq (params : List Char) : linkId params = linkIdentity params := by
  rw [linkId, linkIdentity, Field.all_eq_splitOn]
  induction params.splitOn ':' with
  | nil => rfl
  | cons p ps ih =>
      rw [List.findSome?_cons, List.find?_cons, Field.after?_eq]
      cases ['i', 'd', '='].isPrefixOf p with
      | true => rfl
      | false => exact ih

/-- The command of a link, by what stands before and behind the first semicolon. -/
theorem ofLink_eq (data : List Char) :
    ofLink data =
      match data.dropWhile (· ≠ ';') with
      | [] => .unknown
      | _ :: target =>
          .hyperlink (String.ofList (linkIdentity (data.takeWhile (· ≠ ';'))))
            (String.ofList target) := by
  rw [ofLink, Field.splitFirst?_eq]
  cases data.dropWhile (· ≠ ';') with
  | nil => rfl
  | cons sep target =>
      dsimp only
      rw [linkId_eq]

/-- Only the number 8 is about links. -/
theorem isHyperlink_ofOsc {code : Option Nat} (hcode : code ≠ some 8) (data : String) :
    (ofOsc code data).isHyperlink = false := by
  unfold ofOsc
  split
  case h_4 => exact absurd rfl hcode
  all_goals rfl

end SystemCommand

/-! ## What the terminal does -/

/-- The full reset is the escape sequence of one small letter c. -/
theorem Message.isFullReset_esc (sequence : List UInt8) :
    (Message.esc sequence).isFullReset = true ↔ sequence = [0x63] := by
  rw [isFullReset, decide_eq_true_iff]
  constructor
  · intro hsequence
    obtain ⟨b, rest, rfl, hb, hrest⟩ := List.map_eq_cons_iff.mp hsequence
    rw [List.map_eq_nil_iff] at hrest
    have hbyte : ∀ n < 256, Char.ofNat n = 'c' → n = 0x63 := by decide +kernel
    have hnat : b.toNat = (0x63 : UInt8).toNat := hbyte _ b.toNat_lt hb
    rw [hrest, UInt8.toNat_inj.mp hnat]
  · rintro rfl
    rfl

/-- A command that is not about links opens none. -/
theorem SystemCommand.opened?_of_not_hyperlink {c : SystemCommand} (hc : c.isHyperlink = false) :
    c.opened? = none := by
  cases c with
  | hyperlink id target => cases hc
  | _ => rfl

namespace Terminal

/-- A command about links opens the one that it names, or ends the open one, or is malformed and
    about no link at all. -/
theorem leavesOpen?_link (data : String) (ending : StringEnd) :
    let m := Message.osc (some 8) data ending
    (∃ id target, m.leavesOpen? = some (some (id, target)) ∧ m.opened? = some (id, target)) ∨
    (m.leavesOpen? = some none ∧ ∀ t : Terminal, (t.apply m).1 = t.closeHyperlink) ∨
    (m.leavesOpen? = none ∧ m.opened? = none ∧ m.isHyperlink = false) := by
  intro m
  have hcommand : SystemCommand.ofOsc (some 8) data = _ := SystemCommand.ofLink_eq data.toList
  have hleaves : m.leavesOpen? = linkIn? data.toList := rfl
  rw [hleaves, linkIn?]
  cases hdata : data.toList.dropWhile (· ≠ ';') with
  | nil =>
      -- without a semicolon the command is none
      rw [hdata] at hcommand
      refine Or.inr (Or.inr ⟨rfl, ?_, ?_⟩)
      · rw [Message.opened?, hcommand]
        rfl
      · rw [Message.isHyperlink, hcommand]
        rfl
  | cons sep target =>
      rw [hdata] at hcommand
      dsimp only at hcommand ⊢
      by_cases htarget : target = []
      · subst htarget
        refine Or.inr (Or.inl ⟨if_pos rfl, fun t => ?_⟩)
        rw [apply, hcommand]
        rfl
      · rw [if_neg htarget]
        refine Or.inl ⟨_, _, rfl, ?_⟩
        rw [Message.opened?, hcommand, SystemCommand.opened?, if_neg]
        exact fun hempty => htarget (String.ofList_injective hempty)

/-- **What messages do to the open link.**  A message either resets everything, or opens the link
    that it names, or does nothing but end the one that is open, or leaves the open link alone; and
    which of these it is can be read off the message. -/
theorem leavesOpen?_cases (m : Message) :
    (m.isFullReset = true ∧ m.leavesOpen? = some none) ∨
    (∃ id target, m.leavesOpen? = some (some (id, target)) ∧ m.opened? = some (id, target)) ∨
    (m.isFullReset = false ∧ m.leavesOpen? = some none ∧
      ∀ t : Terminal, (t.apply m).1 = t.closeHyperlink) ∨
    (m.isFullReset = false ∧ m.leavesOpen? = none ∧ m.opened? = none ∧
      ∀ t : Terminal, (t.apply m).1.openLink = t.openLink) := by
  cases m with
  | osc code data ending =>
      by_cases hcode : code = some 8
      · subst hcode
        rcases leavesOpen?_link data ending with
          hopens | ⟨hleaves, hcloses⟩ | ⟨hleaves, hopened, hlink⟩
        · exact Or.inr (Or.inl hopens)
        · exact Or.inr (Or.inr (Or.inl ⟨rfl, hleaves, hcloses⟩))
        · refine Or.inr (Or.inr (Or.inr ⟨rfl, hleaves, hopened, fun t => ?_⟩))
          exact openLink_apply t rfl hlink
      · have hlink : (Message.osc code data ending).isHyperlink = false :=
          SystemCommand.isHyperlink_ofOsc hcode data
        have hleaves : (Message.osc code data ending).leavesOpen? = none := by
          rw [Message.leavesOpen?, if_neg hcode]
        refine Or.inr (Or.inr (Or.inr ⟨rfl, hleaves, ?_, fun t => openLink_apply t rfl hlink⟩))
        exact SystemCommand.opened?_of_not_hyperlink (SystemCommand.isHyperlink_ofOsc hcode data)
  | esc sequence =>
      by_cases hreset : (Message.esc sequence).isFullReset = true
      · refine Or.inl ⟨hreset, ?_⟩
        rw [Message.leavesOpen?, if_pos ((Message.isFullReset_esc sequence).mp hreset)]
      · have hreset' := Bool.eq_false_iff.mpr hreset
        refine Or.inr (Or.inr (Or.inr ⟨hreset', ?_, rfl, fun t => openLink_apply t hreset' rfl⟩))
        rw [Message.leavesOpen?, if_neg fun h => hreset ((Message.isFullReset_esc sequence).mpr h)]
  | _ => exact Or.inr (Or.inr (Or.inr ⟨rfl, rfl, rfl, fun t => openLink_apply t rfl rfl⟩))

/-- The link that a message names is the one that the terminal is asked to open. -/
theorem opened?_of_leavesOpen? {m : Message} {pair : String × String}
    (hm : m.leavesOpen? = some (some pair)) : m.opened? = some pair := by
  rcases leavesOpen?_cases m with
    ⟨-, hleaves⟩ | ⟨id, target, hleaves, hopened⟩ | ⟨-, hleaves, -⟩ | ⟨-, hleaves, -⟩
  all_goals
    rw [hleaves] at hm
    cases hm
  exact hopened

end Terminal

end VideoTerminal
