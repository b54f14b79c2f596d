import Mathlib.Data.Fintype.Basic
import Mathlib.Tactic.FinCases
import VideoTerminal.Rendition.Encode
import VideoTerminal.Rendition.Select
import VideoTerminal.Proofs.Parameters

/-!
# Renditions read back

The parameter string of a rendition is the text of certain groups, block by block: one group for a
flag or an underline, and one or several for a color.  `Rendition.blocks` lists them.  There are
never too many of them, so they are read as they were written; and selecting by them gives the
rendition, whatever was selected before, since the first block resets everything and each of the
others sets one part and takes up its own groups only.

One thing cannot be written: a named color of the underline.  It would come back as an entry of
the palette.
-/

namespace VideoTerminal.Rendition

/-! ## The groups of a rendition -/

/-- The block of a flag, which is written only where it holds. -/
def flagBlock (on : Bool) (n : Nat) : List (List (List (Option Nat))) :=
  if on then [[[some n]]] else []

/-- The block of an underline. -/
def underlineBlock : Option Underline → List (List (List (Option Nat)))
  | none => []
  | some .single => [[[some 4]]]
  | some u => [[[some 4, some u.number]]]

/-- The block of a color, with a group for each number. -/
def colorBlock (numbers : Color → List Nat) : Option Color → List (List (List (Option Nat)))
  | none => []
  | some c => [(numbers c).map fun n => [some n]]

/-- The groups that select the rendition, block by block. -/
def blocks (r : Rendition) : List (List (List (Option Nat))) :=
  [[[some 0]]] ++ flagBlock r.bold 1 ++ flagBlock r.faint 2 ++ flagBlock r.italic 3 ++
    underlineBlock r.underline ++ flagBlock r.blink 5 ++ flagBlock r.inverse 7 ++
    flagBlock r.hidden 8 ++ flagBlock r.strikethrough 9 ++
    colorBlock (colorNumbers 30 90 38) r.foreground ++
    colorBlock (colorNumbers 40 100 48) r.background ++
    colorBlock (extendedColor 58) r.underlineColor

/-- The parameters that select the rendition. -/
def params (r : Rendition) : Params := ⟨r.blocks.flatten⟩

/-! ## Its text -/

/-- The text of a block. -/
def blockText (block : List (List (Option Nat))) : List Char :=
  [';'].intercalate (block.map ParamReader.groupChars)

/-- Joining numbers is writing them with the separator between them. -/
theorem joined_eq (sep : Char) (ns : List Nat) :
    joined sep ns = [sep].intercalate (ns.map Numeral.decimal) := rfl

/-- A block of numbers is written with semicolons. -/
theorem blockText_numbers (ns : List Nat) :
    blockText (ns.map fun n => [some n]) = joined ';' ns := by
  rw [blockText, List.map_map, joined_eq]
  exact congrArg _ (List.map_congr_left fun n _ => ParamReader.groupChars_singleton (some n))

/-- The block of a flag is written as the flag is. -/
theorem map_blockText_flagBlock (on : Bool) (n : Nat) :
    (flagBlock on n).map blockText = flag on n := by
  cases on with
  | false => rfl
  | true =>
      refine congrArg (fun text => [text]) ((blockText_numbers [n]).trans ?_)
      exact List.intercalate_singleton

/-- The block of the underline is written as the underline is. -/
theorem map_blockText_underlineBlock (u : Option Underline) :
    (underlineBlock u).map blockText = underlineText u := by
  cases u with
  | none => rfl
  | some u => cases u <;> rfl

/-- The block of a color is written as the color is. -/
theorem map_blockText_colorBlock (numbers : Color → List Nat) (c : Option Color) :
    (colorBlock numbers c).map blockText = colorText numbers c := by
  cases c with
  | none => rfl
  | some c => exact congrArg (fun text => [text]) (blockText_numbers (numbers c))

/-- The pieces of a rendition are its blocks, written. -/
theorem pieces_eq (r : Rendition) : r.pieces = r.blocks.map blockText := by
  simp only [blocks, List.map_append, map_blockText_flagBlock, map_blockText_underlineBlock,
    map_blockText_colorBlock]
  rfl

/-- Joining what has been joined already is joining all of it, if nothing is empty. -/
theorem intercalate_flatten {α : Type} {sep : List α} {parts : List (List (List α))}
    (h : ∀ part ∈ parts, part ≠ []) :
    sep.intercalate (parts.map sep.intercalate) = sep.intercalate parts.flatten := by
  -- one part in front of others, by induction on this part
  have happend : ∀ {xs ys : List (List α)}, xs ≠ [] → ys ≠ [] →
      sep.intercalate (xs ++ ys) = sep.intercalate xs ++ sep ++ sep.intercalate ys := by
    intro xs ys hxs hys
    induction xs with
    | nil => exact absurd rfl hxs
    | cons x xs ih =>
        rcases List.eq_nil_or_concat xs with rfl | ⟨_, _, hxs'⟩
        · rw [List.singleton_append, List.intercalate_cons_of_ne_nil hys,
            List.intercalate_singleton]
        · have hsome : xs ≠ [] := by simp [hxs']
          rw [List.cons_append, List.intercalate_cons_of_ne_nil (List.append_ne_nil_of_left_ne_nil
            hsome _), ih hsome, List.intercalate_cons_of_ne_nil hsome]
          simp only [List.append_assoc]
  induction parts with
  | nil => rfl
  | cons part parts ih =>
      have hpart := h part List.mem_cons_self
      have hrest := ih fun p hp => h p (List.mem_cons_of_mem part hp)
      cases parts with
      | nil => rw [List.map_singleton, List.intercalate_singleton, List.flatten_singleton]
      | cons next parts =>
          have hflat : (next :: parts).flatten ≠ [] := by
            rw [List.flatten_cons]
            exact List.append_ne_nil_of_left_ne_nil (h next (by simp)) _
          rw [List.map_cons, List.intercalate_cons_of_ne_nil (by simp), hrest,
            ← happend hpart hflat]
          rfl

/-! ## There is room for all groups -/

/-- Blocks of groups that can be read, with a bound on the number of all groups. -/
structure CanonicalBlocks (length : Nat) (blocks : List (List (List (Option Nat)))) : Prop where
  ne_nil : ∀ block ∈ blocks, block ≠ []
  each : ∀ block ∈ blocks, ∀ group ∈ block, Params.CanonicalGroup group
  length_le : blocks.flatten.length ≤ length

namespace CanonicalBlocks

/-- No blocks have no length. -/
theorem nil (length : Nat) : CanonicalBlocks length [] where
  ne_nil := nofun
  each := nofun
  length_le := Nat.zero_le _

/-- Blocks behind blocks are as long as both together. -/
theorem append {m n : Nat} {xs ys : List (List (List (Option Nat)))} (hxs : CanonicalBlocks m xs)
    (hys : CanonicalBlocks n ys) : CanonicalBlocks (m + n) (xs ++ ys) where
  ne_nil := List.forall_mem_append.mpr ⟨hxs.ne_nil, hys.ne_nil⟩
  each := List.forall_mem_append.mpr ⟨hxs.each, hys.each⟩
  length_le := by
    rw [List.flatten_append, List.length_append]
    exact Nat.add_le_add hxs.length_le hys.length_le

/-- One block is as long as it may be. -/
theorem singleton {length : Nat} {block : List (List (Option Nat))} (hsome : block ≠ [])
    (hlength : block.length ≤ length) (heach : ∀ group ∈ block, Params.CanonicalGroup group) :
    CanonicalBlocks length [block] where
  ne_nil := List.forall_mem_singleton.mpr hsome
  each := List.forall_mem_singleton.mpr heach
  length_le := by rwa [List.flatten_singleton]

/-- A block of numbers has one group for each. -/
theorem numbers {length : Nat} {ns : List Nat} (hsome : ns ≠ []) (hlength : ns.length ≤ length)
    (hns : ∀ n ∈ ns, n ≤ Params.maxValue) :
    CanonicalBlocks length [ns.map fun n => [some n]] := by
  refine singleton (fun hnil => hsome (List.map_eq_nil_iff.mp hnil)) (by rwa [List.length_map]) ?_
  intro group hgroup
  obtain ⟨n, hn, rfl⟩ := List.mem_map.mp hgroup
  exact Params.canonicalGroup_singleton (hns n hn)

/-- One number is a block. -/
theorem number {n : Nat} (hn : n ≤ Params.maxValue) : CanonicalBlocks 1 [[[some n]]] :=
  @numbers 1 [n] (List.cons_ne_nil _ _) (Nat.le_refl 1) (List.forall_mem_singleton.mpr hn)

end CanonicalBlocks

/-- A flag takes one group at most. -/
theorem canonicalBlocks_flag (on : Bool) {n : Nat} (hn : n ≤ Params.maxValue) :
    CanonicalBlocks 1 (flagBlock on n) := by
  cases on with
  | false => exact .nil 1
  | true => exact .number hn

/-- The underline takes one, with a slot for its style. -/
theorem canonicalBlocks_underline (u : Option Underline) :
    CanonicalBlocks 1 (underlineBlock u) := by
  have hgroup : ∀ u : Underline, Params.CanonicalGroup [some 4, some u.number] := by
    intro u
    refine ⟨List.cons_ne_nil _ _, Nat.le_of_ble_eq_true rfl, ?_⟩
    cases u <;> decide
  cases u with
  | none => exact .nil 1
  | some u =>
      cases u with
      | single => exact .number (by decide)
      | _ =>
          exact .singleton (List.cons_ne_nil _ _) (Nat.le_refl 1)
            (List.forall_mem_singleton.mpr (hgroup _))

/-- An extended color takes five groups at most. -/
theorem canonicalBlocks_extendedColor {introducer : Nat} (h : introducer ≤ 255) (c : Color) :
    CanonicalBlocks 5 [(extendedColor introducer c).map fun n => [some n]] := by
  have hle : 255 ≤ Params.maxValue := by decide
  -- all numbers are bytes
  have hbyte : ∀ n ∈ extendedColor introducer c, n ≤ 255 := by
    cases c with
    | named n =>
        have hn := n.isLt
        simp only [extendedColor, List.forall_mem_cons]
        exact ⟨h, by omega, by omega, nofun⟩
    | indexed n =>
        have hn := n.toNat_lt
        simp only [extendedColor, List.forall_mem_cons]
        exact ⟨h, by omega, by omega, nofun⟩
    | rgb c =>
        have hred := c.red.toNat_lt
        have hgreen := c.green.toNat_lt
        have hblue := c.blue.toNat_lt
        simp only [extendedColor, List.forall_mem_cons]
        exact ⟨h, by omega, by omega, by omega, by omega, nofun⟩
  have hlength : extendedColor introducer c ≠ [] ∧ (extendedColor introducer c).length ≤ 5 := by
    cases c <;> simp [extendedColor]
  exact .numbers hlength.1 hlength.2 fun n hn => (hbyte n hn).trans hle

/-- A color takes no more, whatever its form. -/
theorem canonicalBlocks_colorNumbers {normal bright introducer : Nat} (hnormal : normal ≤ 255)
    (hbright : bright ≤ 255) (hintroducer : introducer ≤ 255) (c : Color) :
    CanonicalBlocks 5 [(colorNumbers normal bright introducer c).map fun n => [some n]] := by
  have hle : 255 + 16 ≤ Params.maxValue := by decide
  cases c with
  | named n =>
      rw [colorNumbers]
      split
      all_goals
        exact .numbers (List.cons_ne_nil _ _) (Nat.le_of_ble_eq_true rfl)
          (List.forall_mem_singleton.mpr (by omega))
  | indexed n => exact canonicalBlocks_extendedColor hintroducer (.indexed n)
  | rgb c => exact canonicalBlocks_extendedColor hintroducer (.rgb c)

/-- A color that is not set takes none. -/
theorem canonicalBlocks_color {numbers : Color → List Nat}
    (h : ∀ c, CanonicalBlocks 5 [(numbers c).map fun n => [some n]]) (c : Option Color) :
    CanonicalBlocks 5 (colorBlock numbers c) := by
  cases c with
  | none => exact .nil 5
  | some c => exact h c

/-- Eight groups for the reset and the flags, one for the underline, and five for each color. -/
theorem canonicalBlocks (r : Rendition) : CanonicalBlocks 24 r.blocks := by
  have hflag : ∀ {n : Nat} (on : Bool), n ≤ 9 → CanonicalBlocks 1 (flagBlock on n) :=
    fun on hn => canonicalBlocks_flag on (hn.trans (by decide))
  have hunderline := canonicalBlocks_underline r.underline
  have hforeground : CanonicalBlocks 5 (colorBlock (colorNumbers 30 90 38) r.foreground) :=
    canonicalBlocks_color
      (canonicalBlocks_colorNumbers (by decide) (by decide) (by decide)) r.foreground
  have hbackground : CanonicalBlocks 5 (colorBlock (colorNumbers 40 100 48) r.background) :=
    canonicalBlocks_color
      (canonicalBlocks_colorNumbers (by decide) (by decide) (by decide)) r.background
  have hline : CanonicalBlocks 5 (colorBlock (extendedColor 58) r.underlineColor) :=
    canonicalBlocks_color (canonicalBlocks_extendedColor (by decide)) r.underlineColor
  exact (CanonicalBlocks.number (n := 0) (by decide)).append (hflag r.bold (by decide))
    |>.append (hflag r.faint (by decide)) |>.append (hflag r.italic (by decide))
    |>.append hunderline |>.append (hflag r.blink (by decide))
    |>.append (hflag r.inverse (by decide)) |>.append (hflag r.hidden (by decide))
    |>.append (hflag r.strikethrough (by decide)) |>.append hforeground
    |>.append hbackground |>.append hline

/-- The first block resets everything. -/
theorem blocks_eq_cons (r : Rendition) : ∃ rest, r.blocks = [[some 0]] :: rest := by
  simp only [blocks, List.append_assoc]
  exact ⟨_, rfl⟩

/-- All blocks together are few enough for parameters. -/
theorem canonical_params (r : Rendition) : r.params.Canonical where
  length_le := (canonicalBlocks r).length_le.trans (by decide)
  each := by
    intro group hgroup
    obtain ⟨block, hblock, hmem⟩ := List.mem_flatten.mp hgroup
    exact (canonicalBlocks r).each block hblock group hmem
  not_blank := by
    obtain ⟨rest, hrest⟩ := blocks_eq_cons r
    rw [params, hrest]
    simp

/-- The parameter string of a rendition is the text of its parameters. -/
theorem encode_eq (r : Rendition) : r.encode = r.params.text.toList := by
  rw [ParamReader.toList_text]
  have hgroups : ∀ part ∈ r.blocks.map (List.map ParamReader.groupChars), part ≠ [] := by
    intro part hpart
    obtain ⟨block, hblock, rfl⟩ := List.mem_map.mp hpart
    exact fun hnil => (canonicalBlocks r).ne_nil block hblock (List.map_eq_nil_iff.mp hnil)
  have hjoin := @intercalate_flatten _ [';'] _ hgroups
  rw [List.map_map, ← List.map_flatten] at hjoin
  rw [encode, pieces_eq]
  exact hjoin

/-! ## Selecting by the groups -/

/-- The blocks lead from one rendition to another, whatever stands behind them. -/
def Selects (policy : Sgr21) (blocks : List (List (List (Option Nat)))) (s s' : Rendition) : Prop :=
  ∀ rest, applyGroups policy 0 (blocks.flatten ++ rest) s = applyGroups policy 0 rest s'

section Selecting

variable {policy : Sgr21} {s s' s'' : Rendition}

/-- Nothing selects nothing. -/
theorem Selects.nil : Selects policy [] s s := fun _ => rfl

/-- Blocks are selected one after the other. -/
theorem Selects.append {xs ys : List (List (List (Option Nat)))} (hxs : Selects policy xs s s')
    (hys : Selects policy ys s' s'') : Selects policy (xs ++ ys) s s'' := by
  intro rest
  rw [List.flatten_append, List.append_assoc, hxs, hys]

/-- A group of one number that introduces no color has the effect of the number. -/
theorem Selects.code {n : Nat} (hn : ColorTarget.ofCode? n = none) :
    Selects policy [[[some n]]] s (applyCode policy n s) := by
  intro rest
  show applyGroups policy 0 ([some n] :: rest) s = _
  rw [applyGroups]
  simp only [Params.leading, List.head?_cons, Option.join_some, Option.getD_some,
    List.length_singleton, Nat.lt_irrefl, if_false, hn]

/-- The block of a flag has the effect of its number, or none. -/
theorem Selects.flag {on : Bool} {n : Nat} (hn : ColorTarget.ofCode? n = none)
    (htrue : on = true → applyCode policy n s = s') (hfalse : on = false → s = s') :
    Selects policy (flagBlock on n) s s' := by
  cases on with
  | false => exact hfalse rfl ▸ .nil
  | true => exact htrue rfl ▸ .code hn

/-- The block of the underline selects its style. -/
theorem Selects.underline {u : Option Underline} (hs : s.underline = none) :
    Selects policy (underlineBlock u) s { s with underline := u } := by
  cases u with
  | none =>
      have hkept : { s with underline := none } = s := by rw [← hs]
      exact hkept.symm ▸ .nil
  | some u => cases u <;> exact fun _ => rfl

/-- A component of a color is read back. -/
theorem component?_toNat (b : UInt8) : component? (some b.toNat) = some b := by
  have hb := b.toNat_lt
  rw [component?, Option.getD_some, if_pos (by omega), UInt8.ofNat_toNat]

/-- An extended color comes back from the groups behind its introducer, and they are all that it
    takes up. -/
theorem Selects.extendedColor {introducer : Nat} {t : ColorTarget}
    (ht : ColorTarget.ofCode? introducer = some t) {c : Color} (hc : ∀ n, c ≠ .named n) :
    Selects policy [(Rendition.extendedColor introducer c).map fun n => [some n]] s
      (s.setColor c t) := by
  intro rest
  cases c with
  | named n => exact absurd rfl (hc n)
  | indexed n =>
      simp only [Rendition.extendedColor, List.map_cons, List.map_nil, List.flatten_singleton,
        List.cons_append, List.nil_append]
      rw [applyGroups]
      simp only [Params.leading, List.head?_cons, Option.join_some, Option.getD_some,
        List.length_singleton, Nat.lt_irrefl, if_false, ht]
      simp [semicolonColor, Params.leading, component?_toNat, applyGroups, setColor?]
  | rgb c =>
      simp only [Rendition.extendedColor, List.map_cons, List.map_nil, List.flatten_singleton,
        List.cons_append, List.nil_append]
      rw [applyGroups]
      simp only [Params.leading, List.head?_cons, Option.join_some, Option.getD_some,
        List.length_singleton, Nat.lt_irrefl, if_false, ht]
      simp [semicolonColor, Params.leading, component?_toNat, rgb?, applyGroups, setColor?]

/-- The block of a foreground color selects it. -/
theorem Selects.foreground (c : Color) :
    Selects policy [(colorNumbers 30 90 38 c).map fun n => [some n]] s
      (s.setColor c .foreground) := by
  have hextended := @Selects.extendedColor policy s 38 .foreground rfl
  cases c with
  | named n => fin_cases n <;> exact fun _ => rfl
  | indexed n => exact hextended (c := .indexed n) nofun
  | rgb c => exact hextended (c := .rgb c) nofun

/-- The block of a background color selects it. -/
theorem Selects.background (c : Color) :
    Selects policy [(colorNumbers 40 100 48 c).map fun n => [some n]] s
      (s.setColor c .background) := by
  have hextended := @Selects.extendedColor policy s 48 .background rfl
  cases c with
  | named n => fin_cases n <;> exact fun _ => rfl
  | indexed n => exact hextended (c := .indexed n) nofun
  | rgb c => exact hextended (c := .rgb c) nofun

/-- The block of a color selects it, or nothing if it is not set. -/
theorem Selects.color {numbers : Color → List Nat} {c : Option Color}
    (hnone : c = none → s = s')
    (hsome : ∀ d, c = some d → Selects policy [(numbers d).map fun n => [some n]] s s') :
    Selects policy (colorBlock numbers c) s s' := by
  cases c with
  | none => exact hnone rfl ▸ .nil
  | some c => exact hsome c rfl

/-- **Selecting by the groups of a rendition gives the rendition.**  What was selected before is
    gone with the first group.  The underline has no named color. -/
theorem select_params {r : Rendition} (h : ∀ n, r.underlineColor ≠ some (.named n))
    (before : Rendition) : select policy r.params before = r := by
  obtain ⟨bold, faint, italic, underline, blink, inverse, hidden, strikethrough, foreground,
    background, underlineColor⟩ := r
  have hreset : Selects policy [[[some 0]]] before {} := .code rfl
  have hbold : Selects policy (flagBlock bold 1) {} { bold } :=
    .flag rfl (by rintro rfl; rfl) (by rintro rfl; rfl)
  have hfaint : Selects policy (flagBlock faint 2) { bold } { bold, faint } :=
    .flag rfl (by rintro rfl; rfl) (by rintro rfl; rfl)
  have hitalic : Selects policy (flagBlock italic 3) { bold, faint } { bold, faint, italic } :=
    .flag rfl (by rintro rfl; rfl) (by rintro rfl; rfl)
  have hunderline : Selects policy (underlineBlock underline) { bold, faint, italic }
      { bold, faint, italic, underline } := .underline rfl
  have hblink : Selects policy (flagBlock blink 5) { bold, faint, italic, underline }
      { bold, faint, italic, underline, blink } :=
    .flag rfl (by rintro rfl; rfl) (by rintro rfl; rfl)
  have hinverse : Selects policy (flagBlock inverse 7) { bold, faint, italic, underline, blink }
      { bold, faint, italic, underline, blink, inverse } :=
    .flag rfl (by rintro rfl; rfl) (by rintro rfl; rfl)
  have hhidden : Selects policy (flagBlock hidden 8)
      { bold, faint, italic, underline, blink, inverse }
      { bold, faint, italic, underline, blink, inverse, hidden } :=
    .flag rfl (by rintro rfl; rfl) (by rintro rfl; rfl)
  have hstrikethrough : Selects policy (flagBlock strikethrough 9)
      { bold, faint, italic, underline, blink, inverse, hidden }
      { bold, faint, italic, underline, blink, inverse, hidden, strikethrough } :=
    .flag rfl (by rintro rfl; rfl) (by rintro rfl; rfl)
  have hforeground : Selects policy (colorBlock (colorNumbers 30 90 38) foreground)
      { bold, faint, italic, underline, blink, inverse, hidden, strikethrough }
      { bold, faint, italic, underline, blink, inverse, hidden, strikethrough, foreground } :=
    .color (by rintro rfl; rfl) (by rintro c rfl; exact .foreground c)
  have hbackground : Selects policy (colorBlock (colorNumbers 40 100 48) background)
      { bold, faint, italic, underline, blink, inverse, hidden, strikethrough, foreground }
      { bold, faint, italic, underline, blink, inverse, hidden, strikethrough, foreground,
        background } :=
    .color (by rintro rfl; rfl) (by rintro c rfl; exact .background c)
  have hline : Selects policy (colorBlock (Rendition.extendedColor 58) underlineColor)
      { bold, faint, italic, underline, blink, inverse, hidden, strikethrough, foreground,
        background }
      { bold, faint, italic, underline, blink, inverse, hidden, strikethrough, foreground,
        background, underlineColor } := by
    refine .color (by rintro rfl; rfl) ?_
    rintro c rfl
    exact @Selects.extendedColor policy _ 58 .underline rfl c fun n hn => h n (congrArg some hn)
  have hread := (hreset.append hbold |>.append hfaint |>.append hitalic |>.append hunderline
    |>.append hblink |>.append hinverse |>.append hhidden |>.append hstrikethrough
    |>.append hforeground |>.append hbackground |>.append hline) []
  rw [List.append_nil] at hread
  rw [select, if_neg (by simp [params, blocks])]
  exact hread

end Selecting

end VideoTerminal.Rendition
