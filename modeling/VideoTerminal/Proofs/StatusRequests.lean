import VideoTerminal.Proofs.Pens
import VideoTerminal.Proofs.RenditionText
import VideoTerminal.Proofs.RoundTrip

/-!
# Status requests

A program can ask for four settings, and the reply holds the control sequence that would select
the setting as it is.  When the sequence is written to a terminal of the same size, whatever its
state, this terminal has the setting afterwards.  Any other request is refused.

Request and sequence are messages, each read by itself between two units; so the question is what
a single message does (`Emulator.write_message`).  For the rendition the answer is in the reading of
its parameters, for the region in its bounds, and for the others in a look at their few values.
-/

namespace VideoTerminal

/-! ## A message by itself -/

/-- A message that comes between two units acts as it would by itself. -/
theorem Emulator.write_message {e : Emulator} (he : e.decoder = .ground) {m : Message}
    (hm : m.Canonical) (hroom : ∀ code data ending, m = .osc code data ending →
      (Message.commandBody code data).length ≤ Payload.limit) :
    e.write m.encode =
      { decoder := .ground
        terminal := (e.terminal.apply m).1
        events := (e.events ++ (e.terminal.apply m).2.toArray).push .screenUpdated } := by
  rw [write, he, Decoder.push_message hm hroom]
  show e.act .ground [m] = _
  rw [act, if_neg (by simp)]
  dsimp only
  rw [Terminal.applyAll_eq_run, Machine.run_singleton]

/-! ## Settings -/

/-- A setting that can be asked for. -/
inductive Setting where
  | rendition
  | margins
  | cursorStyle
  | protection
deriving DecidableEq, Repr

namespace Setting

/-- The bytes that name the setting. -/
def request : Setting → List UInt8
  | .rendition => [0x6D]
  | .margins => [0x72]
  | .cursorStyle => [0x20, 0x71]
  | .protection => [0x22, 0x71]

/-- A terminal has the setting of another one.  The margins are those of both screens. -/
def Agrees (t u : Terminal) : Setting → Prop
  | .rendition => u.pen = t.pen
  | .margins => u.primary.region = t.region ∧ u.alternate.region = t.region
  | .cursorStyle => u.cursor.style = t.cursor.style
  | .protection => u.penProtected = t.penProtected

/-- The message that selects the setting of a terminal. -/
def selecting (t : Terminal) : Setting → Message
  | .rendition => .sgr t.pen.params
  | .margins =>
      .csi none ⟨[[some (t.region.top + 1)], [some (t.region.bottom + 1)]]⟩ [] 0x72
  | .cursorStyle => .csi none ⟨[[some t.cursor.style.number]]⟩ [0x20] 0x71
  | .protection => .csi none ⟨[[some (if t.penProtected then 1 else 0)]]⟩ [0x22] 0x71

/-- The characters of this message behind the introducer. -/
def sequence (t : Terminal) : Setting → List Char
  | .rendition => t.pen.encode ++ ['m']
  | .margins => Reply.pair (t.region.top + 1) (t.region.bottom + 1) ++ ['r']
  | .cursorStyle => Numeral.decimal t.cursor.style.number ++ [' ', 'q']
  | .protection => Numeral.decimal (if t.penProtected then 1 else 0) ++ ['\x22', 'q']

/-! ### The message can be read -/

theorem canonical_selecting_of_lt {t : Terminal} (htop : t.region.top < Params.maxValue)
    (hbottom : t.region.bottom < Params.maxValue) (setting : Setting) :
    (setting.selecting t).Canonical := by
  have hone : 1 ≤ Params.maxGroups := by decide
  have htwo : 2 ≤ Params.maxGroups := by decide
  have hmax : 6 ≤ Params.maxValue := by decide
  cases setting with
  | rendition => exact .sgr (Rendition.canonical_params t.pen)
  | margins =>
      have hle : ∀ n ∈ [t.region.top + 1, t.region.bottom + 1], n ≤ Params.maxValue :=
        List.forall_mem_cons.mpr ⟨htop, List.forall_mem_singleton.mpr hbottom⟩
      exact .csi nofun (@Params.canonical_numbers [_, _] htwo hle) .nil rfl (by simp)
  | cursorStyle =>
      have hn : t.cursor.style.number ≤ 6 := by
        generalize t.cursor.style = style
        obtain ⟨shape, blinking⟩ := style
        cases shape <;> cases blinking <;> decide
      exact .csi nofun
        (@Params.canonical_numbers [_] hone (List.forall_mem_singleton.mpr (by omega)))
        (.singleton rfl) rfl (by simp)
  | protection =>
      have hn : (if t.penProtected then 1 else 0) ≤ 1 := by split <;> decide
      exact .csi nofun
        (@Params.canonical_numbers [_] hone (List.forall_mem_singleton.mpr (by omega)))
        (.singleton rfl) rfl (by simp)

theorem canonical_selecting {limit : Nat} {t : Terminal} (h : t.WellFormed limit)
    (setting : Setting) : (setting.selecting t).Canonical := by
  have hmax : 1000 < Params.maxValue := by decide
  have hrows : t.rows ≤ 1000 := h.rows_le
  obtain ⟨hregion, hbottom⟩ := h.region_within
  exact canonical_selecting_of_lt (by omega) (by omega) setting

/-- What the message is written as. -/
theorem encode_selecting (t : Terminal) (setting : Setting) :
    (setting.selecting t).encode = [0x1B, 0x5B] ++ Utf8.encode (setting.sequence t) := by
  cases setting with
  | rendition =>
      rw [selecting, Message.encode, sequence, Utf8.encode_append, Rendition.encode_eq]
      exact List.append_assoc _ _ _
  | margins =>
      have hpair : [';'].intercalate [Numeral.decimal (t.region.top + 1),
          Numeral.decimal (t.region.bottom + 1)]
          = Reply.pair (t.region.top + 1) (t.region.bottom + 1) := by
        rw [List.intercalate_cons_cons, List.intercalate_singleton]
        rfl
      rw [sequence, Utf8.encode_append, ← hpair]
      exact Message.encode_numbers none [_, _] [] 0x72
  | cursorStyle =>
      rw [sequence, Utf8.encode_append]
      exact Message.encode_number none _ [0x20] 0x71
  | protection =>
      rw [sequence, Utf8.encode_append]
      exact Message.encode_number none _ [0x22] 0x71

/-! ### It selects the setting -/

theorem agrees_selecting {limit limit' : Nat} {t u : Terminal} (ht : t.WellFormed limit)
    (hline : t.pen.HasPlainLine) (hu : u.WellFormed limit') (hrows : u.rows = t.rows)
    (setting : Setting) : setting.Agrees t (u.apply (setting.selecting t)).1 := by
  cases setting with
  | rendition =>
      rw [Agrees, selecting, Terminal.apply]
      dsimp only
      exact Rendition.select_params hline u.pen
  | margins =>
      obtain ⟨hregion, hbottom⟩ := ht.region_within
      show Agrees t (u.setScrollRegion (t.region.top + 1) (t.region.bottom + 1)) .margins
      -- the rows are those of the region, and the other terminal has them
      have hfirst : max (t.region.top + 1) 1 - 1 = t.region.top := by omega
      have hstop : min (t.region.bottom + 1) u.rows - 1 = t.region.bottom := by omega
      have hin : t.region.Within u.rows := ⟨hregion, by omega⟩
      rw [Terminal.setScrollRegion]
      dsimp only
      rw [if_neg (Nat.succ_ne_zero _), if_neg (by omega), hfirst, hstop]
      exact ⟨(hu.primary.setRegion hin).region_eq, (hu.alternate.setRegion hin).region_eq⟩
  | cursorStyle =>
      show (u.setCursorStyle t.cursor.style.number).cursor.style = t.cursor.style
      generalize t.cursor.style = style
      obtain ⟨shape, blinking⟩ := style
      cases shape <;> cases blinking <;> rfl
  | protection =>
      show ((if t.penProtected then 1 else 0) == 1) = t.penProtected
      cases t.penProtected <;> rfl

end Setting

/-! ## Requests -/

/-- A request for a setting, known or not. -/
def statusRequest (request : List UInt8) : List UInt8 :=
  [0x1B, 0x50, 0x24, 0x71] ++ request ++ [0x1B, 0x5C]

/-- Bytes that a request can be made of. -/
structure IsRequest (request : List UInt8) : Prop where
  length_le : request.length ≤ Payload.limit
  each : ∀ b ∈ request, b ≠ 0x1B ∧ b ≠ 0x18 ∧ b ≠ 0x1A ∧ b ≠ 0x7F

theorem Setting.isRequest (setting : Setting) : IsRequest setting.request := by
  cases setting <;> exact ⟨Nat.le_of_ble_eq_true rfl, by simp [request]⟩

namespace Emulator

variable {e : Emulator}

/-- A request is answered, and that is all. -/
theorem write_statusRequest (he : e.decoder = .ground) {request : List UInt8}
    (hrequest : IsRequest request) :
    e.write (statusRequest request) =
      { e with
        events := (e.events.push (.reply (.statusString
          (e.terminal.statusString? (Utf8.decodeLossy request))))).push .screenUpdated } := by
  have hdata : ∀ b ∈ request, IsData b := by
    intro b hb
    obtain ⟨hescape, hcan, hsub, hdelete⟩ := hrequest.each b hb
    refine ⟨hescape, ?_, hdelete⟩
    simp [Byte.isCancel, hcan, hsub]
  have hparams : Params.Canonical ⟨[]⟩ :=
    ⟨Nat.zero_le _, fun _ hgroup => absurd hgroup List.not_mem_nil, by simp⟩
  have hcanonical : Message.Canonical (.dcs ⟨[]⟩ [0x24] 0x71 request) :=
    .dcs hparams (.singleton rfl) rfl ⟨hrequest.length_le, hdata⟩
  have hwrite := write_message he hcanonical fun _ _ _ hosc => Message.noConfusion hosc
  rw [← he] at hwrite
  exact hwrite

end Emulator

theorem statusString?_request (t : Terminal) (setting : Setting) :
    t.statusString? (Utf8.decodeLossy setting.request) = some (setting.sequence t) := by
  cases setting with
  | protection =>
      have hdigit : ∀ on : Bool,
          (if on then ['1'] else ['0']) = Numeral.decimal (if on then 1 else 0) := by decide
      exact congrArg (fun cs => some (cs ++ ['\x22', 'q'])) (hdigit t.penProtected)
  | _ => rfl

/-- What is answered is the sequence of a setting. -/
theorem eq_sequence_of_statusString? {t : Terminal} {request sequence : List Char}
    (h : t.statusString? request = some sequence) :
    ∃ setting : Setting, sequence = setting.sequence t := by
  rw [Terminal.statusString?.eq_def] at h
  split at h
  · exact ⟨.rendition, (Option.some.inj h).symm⟩
  · exact ⟨.margins, (Option.some.inj h).symm⟩
  · exact ⟨.cursorStyle, (Option.some.inj h).symm⟩
  · refine ⟨.protection, (Option.some.inj h).symm.trans ?_⟩
    rw [Setting.sequence]
    cases t.penProtected <;> rfl
  · exact absurd h nofun

/-- Only the four names are read as these. -/
theorem statusString?_other (t : Terminal) {request : List UInt8}
    (h : ∀ setting : Setting, request ≠ setting.request) :
    t.statusString? (Utf8.decodeLossy request) = none := by
  rw [Terminal.statusString?.eq_def]
  split
  · rename_i hread
    exact absurd (Utf8.eq_encode_of_decodeLossy hread (by simp)) (h .rendition)
  · rename_i hread
    exact absurd (Utf8.eq_encode_of_decodeLossy hread (by simp)) (h .margins)
  · rename_i hread
    exact absurd (Utf8.eq_encode_of_decodeLossy hread (by simp)) (h .cursorStyle)
  · rename_i hread
    exact absurd (Utf8.eq_encode_of_decodeLossy hread (by simp)) (h .protection)
  · rfl

/-- **The reply to a request restores the setting.**  Two emulators that can be reached, of one size
    and between two units, may differ in everything else.  A request for one of the four settings
    is answered by the first with a single reply, and nothing else becomes of it.  What the reply
    holds, written to the second behind an introducer, gives it the setting that the first has.
    Any other request is answered by a refusal. -/
theorem statusRequest_restores {e f : Emulator} (he : e.Reachable) (hf : f.Reachable)
    (hsize : f.terminal.size = e.terminal.size) (hidle : e.decoder = .ground)
    (hready : f.decoder = .ground) :
    (∀ setting : Setting, ∃ (reply : Reply) (sequence : List UInt8),
      e.write (statusRequest setting.request) =
        { e with events := (e.events.push (.reply reply)).push .screenUpdated } ∧
      reply.bytes = [0x1B, 0x50, 0x31, 0x24, 0x72] ++ sequence ++ [0x1B, 0x5C] ∧
      setting.Agrees e.terminal (f.write ([0x1B, 0x5B] ++ sequence)).terminal) ∧
    ∀ request, IsRequest request → (∀ setting : Setting, request ≠ setting.request) →
      ∃ reply : Reply, e.write (statusRequest request) =
        { e with events := (e.events.push (.reply reply)).push .screenUpdated } ∧
        reply.bytes = [0x1B, 0x50, 0x30, 0x24, 0x72, 0x1B, 0x5C] := by
  obtain ⟨limit, hwell⟩ := he.wellFormed
  obtain ⟨limit', hwell'⟩ := hf.wellFormed
  have hrows : f.terminal.rows = e.terminal.rows := congrArg Size.rows hsize
  constructor
  · intro setting
    refine ⟨.statusString (some (setting.sequence e.terminal)),
      Utf8.encode (setting.sequence e.terminal), ?_, ?_, ?_⟩
    · rw [Emulator.write_statusRequest hidle setting.isRequest, statusString?_request]
    · show Utf8.encode (Reply.dcs ++ ['1', '$', 'r'] ++ setting.sequence e.terminal ++ Reply.st)
        ++ [] = _
      rw [Utf8.encode_append, Utf8.encode_append, List.append_nil]
      rfl
    · rw [← Setting.encode_selecting, Emulator.write_message hready
        (Setting.canonical_selecting hwell setting)]
      · exact Setting.agrees_selecting hwell he.plainLines.pen hwell' hrows setting
      · intro code data ending hosc
        cases setting <;> exact absurd hosc nofun
  · intro request hrequest hother
    refine ⟨.statusString none, ?_, by decide⟩
    rw [Emulator.write_statusRequest hidle hrequest, statusString?_other _ hother]

/-- A pen with colors in all three forms is written over one in which they are set otherwise, on a
    terminal with another meaning of rendition 21. -/
theorem statusRequest_restores_pen :
    let calls : List Emulator.Call := [.write (Utf8.ofString "\x1b[1;4:3;93;48;5;200;58:2::1:2:3m")]
    let others : List Emulator.Call := [.write (Utf8.ofString "\x1b[21;7;31m\x1b[2;2r")]
    let e := Emulator.run { terminal := .new 4 2 8 .cancelBold } calls
    let f := Emulator.run { terminal := .new 4 2 0 .doubleUnderline } others
    e.Reachable ∧ f.Reachable ∧ f.terminal.size = e.terminal.size ∧ e.decoder = .ground ∧
      f.decoder = .ground ∧ f.terminal.pen ≠ e.terminal.pen ∧
      ∃ (reply : Reply) (sequence : List UInt8),
        e.write (statusRequest [0x6D]) =
          { e with events := (e.events.push (.reply reply)).push .screenUpdated } ∧
        reply.bytes = [0x1B, 0x50, 0x31, 0x24, 0x72] ++ sequence ++ [0x1B, 0x5C] ∧
        (f.write ([0x1B, 0x5B] ++ sequence)).terminal.pen = e.terminal.pen := by
  intro calls others e f
  have he : e.Reachable := ⟨⟨4, 2⟩, 8, .cancelBold, _, calls, rfl, rfl⟩
  have hf : f.Reachable := ⟨⟨4, 2⟩, 0, .doubleUnderline, _, others, rfl, rfl⟩
  have hsize : f.terminal.size = e.terminal.size := by decide +kernel
  have hidle : e.decoder = .ground := by decide +kernel
  have hready : f.decoder = .ground := by decide +kernel
  have hpens : f.terminal.pen ≠ e.terminal.pen := by decide +kernel
  exact ⟨he, hf, hsize, hidle, hready, hpens,
    (statusRequest_restores he hf hsize hidle hready).1 .rendition⟩

end VideoTerminal
