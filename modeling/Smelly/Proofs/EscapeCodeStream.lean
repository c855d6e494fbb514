/-
Module: Smelly.Proofs.EscapeCodeStream
Purpose: What the escape code parser of the tools calls for a stream of text and complete escape
  codes, however it is cut into pieces.
Trusted boundary: none
-/
import Smelly.Core.EscapeCodeParser
import Smelly.Lib.Utf8
import Smelly.Proofs.Utf8Decoding

namespace Smelly

namespace Wcswidth

open Utf8 EscapeCodeParser

variable {σ ε : Type} {cb : Callbacks σ ε}

/-! ### Calls -/

/-- A call of a handler. -/
inductive ParserEvent where
  | rune (ch : UInt32)
  | code (kind : CodeKind) (payload : Bytes)
deriving DecidableEq, Repr

/-- The handlers return no error, and `effect` is what they do to their state. -/
structure Acts (cb : Callbacks σ ε) (effect : σ → ParserEvent → σ) : Prop where
  rune : ∀ ch s, cb.dispatchRune ch s = (effect s (.rune ch), none)
  code : ∀ kind payload s, cb.call kind payload s = (effect s (.code kind payload), none)

/-- Handlers that log their calls. -/
def logging : Callbacks (List ParserEvent) Empty where
  handleRune := some fun ch log => (log ++ [.rune ch], none)
  handleCSI := some fun payload log => (log ++ [.code .csi payload], none)
  handleOSC := some fun payload log => (log ++ [.code .osc payload], none)
  handleDCS := some fun payload log => (log ++ [.code .dcs payload], none)
  handlePM := some fun payload log => (log ++ [.code .pm payload], none)
  handleSOS := some fun payload log => (log ++ [.code .sos payload], none)
  handleAPC := some fun payload log => (log ++ [.code .apc payload], none)

theorem logging_acts : Acts logging fun log event => log ++ [event] := by
  constructor
  · intro ch log
    rfl
  · intro kind payload log
    cases kind <;> rfl

/-! ### Pieces of data -/

theorem parse_append {p mid : EscapeCodeParser} {first second : Bytes} {s t : σ}
    (h : p.parse cb first s = (mid, t, none)) :
    p.parse cb (first ++ second) s = mid.parse cb second t := by
  induction first generalizing p s with
  | nil =>
    cases h
    rfl
  | cons b first ih =>
    rw [parse] at h
    rw [List.cons_append, parse]
    cases hstep : p.parseByte cb b s with
    | mk q rest =>
      obtain ⟨s', err⟩ := rest
      rw [hstep] at h
      cases err with
      | some err => cases h
      | none => exact ih h

/-- Data that is parsed without an error has no error in its first part. -/
theorem parse_append_eq {p last : EscapeCodeParser} {first second : Bytes} {s t : σ}
    (h : p.parse cb (first ++ second) s = (last, t, none)) :
    ∃ mid s', p.parse cb first s = (mid, s', none) ∧ mid.parse cb second s' = (last, t, none) := by
  induction first generalizing p s with
  | nil => exact ⟨p, s, rfl, h⟩
  | cons b first ih =>
    rw [List.cons_append, parse] at h
    rw [parse]
    cases hstep : p.parseByte cb b s with
    | mk q rest =>
      obtain ⟨s', err⟩ := rest
      rw [hstep] at h
      cases err with
      | some err => cases h
      | none => exact ih h

/-- Where the data is cut does not matter. -/
theorem parseChunks_flatten {p last : EscapeCodeParser} {chunks : List Bytes} {s t : σ}
    (h : p.parse cb chunks.flatten s = (last, t, none)) :
    p.parseChunks cb chunks s = (last, t, none) := by
  induction chunks generalizing p s with
  | nil => exact h
  | cons data chunks ih =>
    obtain ⟨mid, s', parsed, rest⟩ := parse_append_eq h
    rw [parseChunks, parsed]
    exact ih rest

theorem parse_singleton {p q : EscapeCodeParser} {b : UInt8} {s t : σ}
    (h : p.parseByte cb b s = (q, t, none)) : p.parse cb [b] s = (q, t, none) := by
  rw [parse, h]
  rfl

/-- Behind an error nothing is parsed. -/
theorem parse_append_error {p q : EscapeCodeParser} {first second : Bytes} {s t : σ} {err : ε}
    (h : p.parse cb first s = (q, t, some err)) :
    p.parse cb (first ++ second) s = (q, t, some err) := by
  induction first generalizing p s with
  | nil => cases h
  | cons b first ih =>
    rw [parse] at h
    rw [List.cons_append, parse]
    cases hstep : p.parseByte cb b s with
    | mk mid rest =>
      obtain ⟨s', stepErr⟩ := rest
      rw [hstep] at h
      cases stepErr with
      | some _ => exact h
      | none => exact ih h

/-! ### Characters -/

/-- A byte of a character that more bytes follow is kept by the decoder alone. -/
theorem parseByte_more (cb : Callbacks σ ε) {p : EscapeCodeParser} {b : UInt8} (s : σ)
    (text : p.state = .normal ∨ p.state = .bracketedPaste)
    (more : (decodeUtf8 p.utf8State p.utf8Codep b).1 ≠ utf8Accept)
    (valid : (decodeUtf8 p.utf8State p.utf8Codep b).1 ≠ utf8Reject) :
    p.parseByte cb b s =
      ({ p with
          utf8State := (decodeUtf8 p.utf8State p.utf8Codep b).1
          utf8Codep := (decodeUtf8 p.utf8State p.utf8Codep b).2 }, s, none) := by
  obtain ⟨⟨state, codep⟩, hstep⟩ : ∃ after, after = decodeUtf8 p.utf8State p.utf8Codep b :=
    ⟨_, rfl⟩
  rw [← hstep] at more valid
  rw [parseByte, if_pos text, parseChar, ← hstep]
  simp only [if_neg (fun h : state = utf8Reject ∧ _ => valid h.1)]
  rw [parseCharByte, ← hstep]
  simp only [if_neg more, if_neg valid]

/-- The bytes of a character dispatch it. -/
theorem parse_decodes {p q : EscapeCodeParser} {bytes : Bytes} {ch : UInt32} {s t : σ}
    (text : p.state = .normal ∨ p.state = .bracketedPaste)
    (decodes : Decodes p.utf8State p.utf8Codep bytes ch)
    (dispatched : { p with utf8State := utf8Accept, utf8Codep := ch }.dispatchChar cb ch s =
      (q, t, none)) : p.parse cb bytes s = (q, t, none) := by
  induction bytes generalizing p with
  | nil => exact decodes.elim
  | cons b bytes ih =>
    cases bytes with
    | nil =>
      apply parse_singleton
      have accepted : ¬(utf8Accept = utf8Reject ∧ p.utf8State ≠ utf8Accept) :=
        fun h => absurd h.1 (by decide)
      rw [parseByte, if_pos text, parseChar, decodes]
      simp only [if_neg accepted]
      rw [parseCharByte, decodes]
      simp only [if_true, dispatched]
    | cons next bytes =>
      obtain ⟨more, valid, later⟩ := decodes
      rw [parse, parseByte_more cb s text more valid]
      exact ih text later dispatched

/-- The bytes of a character whose handler returns an error. -/
theorem parse_decodes_error {p q : EscapeCodeParser} {bytes : Bytes} {ch : UInt32} {s t : σ} {err : ε}
    (text : p.state = .normal ∨ p.state = .bracketedPaste)
    (decodes : Decodes p.utf8State p.utf8Codep bytes ch)
    (dispatched : { p with utf8State := utf8Accept, utf8Codep := ch }.dispatchChar cb ch s =
      (q, t, some err)) : ∃ last, p.parse cb bytes s = (last, t, some err) := by
  induction bytes generalizing p with
  | nil => exact decodes.elim
  | cons b bytes ih =>
    cases bytes with
    | nil =>
      have accepted : ¬(utf8Accept = utf8Reject ∧ p.utf8State ≠ utf8Accept) :=
        fun h => absurd h.1 (by decide)
      refine ⟨q.resetState, ?_⟩
      rw [parse, parseByte, if_pos text, parseChar, decodes]
      simp only [if_neg accepted]
      rw [parseCharByte, decodes]
      simp only [if_true, dispatched]
    | cons next bytes =>
      obtain ⟨more, valid, later⟩ := decodes
      rw [parse, parseByte_more cb s text more valid]
      exact ih text later dispatched

/-- The parser is in the normal state and holds nothing back. -/
structure Idle (p : EscapeCodeParser) : Prop where
  state : p.state = .normal
  utf8State : p.utf8State = utf8Accept
  csiState : p.csiState = .parameter
  currentBuffer : p.currentBuffer = []

theorem resetState_idle (p : EscapeCodeParser) : Idle p.resetState := ⟨rfl, rfl, rfl, rfl⟩

theorem parse_char {p q : EscapeCodeParser} (idle : Idle p) (c : Char) {s t : σ}
    (dispatched : { p with utf8State := utf8Accept, utf8Codep := c.val }.dispatchChar cb c.val s =
      (q, t, none)) : p.parse cb (String.utf8EncodeChar c) s = (q, t, none) := by
  have decodes := decodes_utf8EncodeChar c p.utf8Codep
  rw [← idle.utf8State] at decodes
  exact parse_decodes (.inl idle.state) decodes dispatched

/-! ### Starting and ending a code -/

/-- The byte behind the ESC that starts a code of this kind. -/
def CodeKind.introByte : CodeKind → UInt8
  | .csi => 0x5b
  | .osc => 0x5d
  | .dcs => 0x50
  | .pm => 0x5e
  | .sos => 0x58
  | .apc => 0x5f

/-- The C1 character that starts a code of this kind. -/
def CodeKind.introChar : CodeKind → Char
  | .csi => '\u009b'
  | .osc => '\u009d'
  | .dcs => '\u0090'
  | .pm => '\u009e'
  | .sos => '\u0098'
  | .apc => '\u009f'

/-- The state in which the parser reads a code of this kind. -/
def CodeKind.bodyState : CodeKind → ParserState
  | .csi => .csi
  | .osc => .stOrBel
  | _ => .st

/-- The parser reads a code and holds what came of it so far. -/
structure Collects (kind : CodeKind) (buffer : Bytes) (p : EscapeCodeParser) : Prop where
  callback : p.currentCallback = some kind
  buffer : p.currentBuffer = buffer

theorem parseByte_of_dispatchByte {p q : EscapeCodeParser} {b : UInt8} {s t : σ}
    (state : p.state ≠ .normal ∧ p.state ≠ .bracketedPaste)
    (h : p.dispatchByte cb b s = (q, t, none)) : p.parseByte cb b s = (q, t, none) := by
  have other : ¬(p.state = .normal ∨ p.state = .bracketedPaste) := not_or.2 state
  rw [parseByte, if_neg other, h]

/-- The bytes that start a code. -/
def introBytes (kind : CodeKind) (sevenBit : Bool) : Bytes :=
  if sevenBit then [0x1b, kind.introByte] else String.utf8EncodeChar kind.introChar

theorem parse_intro (cb : Callbacks σ ε) {p : EscapeCodeParser} (idle : Idle p) (kind : CodeKind)
    (sevenBit : Bool) (known : kind = .sos → sevenBit = false) (s : σ) :
    ∃ q, p.parse cb (introBytes kind sevenBit) s = (q, s, none) ∧ q.state = kind.bodyState ∧
      q.csiState = .parameter ∧ Collects kind [] q := by
  cases sevenBit with
  | false =>
    have state : ¬p.state = .bracketedPaste := by
      rw [idle.state]
      exact fun h => nomatch h
    obtain ⟨q, hq⟩ : ∃ q, q = { p with
        utf8State := utf8Accept
        utf8Codep := kind.introChar.val
        state := kind.bodyState
        currentCallback := some kind } := ⟨_, rfl⟩
    refine ⟨q, parse_char idle kind.introChar ?_, ?_, ?_, ?_, ?_⟩
    · rw [dispatchChar, if_neg state, hq]
      cases kind <;> rfl
    · rw [hq]
    · rw [hq]
      exact idle.csiState
    · rw [hq]
    · rw [hq]
      exact idle.currentBuffer
  | true =>
    have state : ¬p.state = .bracketedPaste := by
      rw [idle.state]
      exact fun h => nomatch h
    obtain ⟨mid, hmid⟩ : ∃ mid, mid = { p with
        utf8State := utf8Accept, utf8Codep := '\x1b'.val, state := .esc } := ⟨_, rfl⟩
    have first : p.parse cb [0x1b] s = (mid, s, none) := by
      apply parse_char idle '\x1b'
      rw [dispatchChar, if_neg state, hmid]
      rfl
    obtain ⟨q, hq⟩ : ∃ q, q = { mid with
        state := kind.bodyState, csiState := .parameter, currentCallback := some kind } :=
      ⟨_, rfl⟩
    have parameter : { mid with csiState := .parameter } = mid := by
      have same : mid.csiState = .parameter := by rw [hmid, ← idle.csiState]
      rw [← same]
    have second : mid.parseByte cb kind.introByte s = (q, s, none) := by
      have esc : mid.state = .esc := by rw [hmid]
      apply parseByte_of_dispatchByte
      · rw [esc]
        exact ⟨fun h => (nomatch h), fun h => nomatch h⟩
      · rw [dispatchByte, esc, hq, ← parameter]
        cases kind with
        | sos => exact absurd (known rfl) (by decide)
        | csi => rfl
        | osc => rfl
        | dcs => rfl
        | pm => rfl
        | apc => rfl
    refine ⟨q, ?_, ?_, ?_, ?_, ?_⟩
    · exact (parse_append first).trans (parse_singleton second)
    · rw [hq]
    · rw [hq]
    · rw [hq]
    · rw [hq, hmid]
      exact idle.currentBuffer

section Calls

/-- The end of a code calls its handler with what was collected. -/
theorem dispatchEscCode_collects {p : EscapeCodeParser} {kind : CodeKind} {buffer : Bytes}
    (collects : Collects kind buffer p) (code : ¬(p.state = .csi ∧ buffer = bracketedPasteStart))
    {s s' : σ} (called : cb.call kind buffer s = (s', none)) :
    p.dispatchEscCode cb s = (p.resetState, s', none) := by
  rw [dispatchEscCode, collects.buffer, if_neg code, collects.callback]
  simp only [called]

/-- Bytes of which each is only written to the buffer. -/
theorem parse_written {p : EscapeCodeParser} {bytes : Bytes} {s : σ}
    (written : ∀ b ∈ bytes, ∀ buffer, { p with currentBuffer := buffer }.parseByte cb b s =
      ({ p with currentBuffer := buffer ++ [b] }, s, none)) :
    p.parse cb bytes s = ({ p with currentBuffer := p.currentBuffer ++ bytes }, s, none) := by
  induction bytes generalizing p with
  | nil =>
    rw [List.append_nil]
    rfl
  | cons b bytes ih =>
    have first := written b List.mem_cons_self p.currentBuffer
    rw [parse, first]
    have later := @ih { p with currentBuffer := p.currentBuffer ++ [b] }
      fun c mem buffer => written c (List.mem_cons_of_mem _ mem) buffer
    simp [later]

/-! ### CSI codes -/

theorem csiType_parameter {b : UInt8} (h : 0x30 ≤ b ∧ b ≤ 0x3f) :
    csiType b = .parameterCsiChar := if_pos h

theorem csiType_final {b : UInt8} (h : 0x40 ≤ b ∧ b ≤ 0x7e) : csiType b = .finalCsiChar := by
  have other : ¬(0x30 ≤ b ∧ b ≤ 0x3f) := by
    rintro ⟨-, low⟩
    exact absurd (UInt8.le_trans h.1 low) (by decide)
  rw [csiType, if_neg other, if_pos h]

theorem csiType_intermediate {b : UInt8} (h : 0x20 ≤ b ∧ b ≤ 0x2f) :
    csiType b = .intermediateCsiChar := by
  have first : ¬(0x30 ≤ b ∧ b ≤ 0x3f) := by
    rintro ⟨low, -⟩
    exact absurd (UInt8.le_trans low h.2) (by decide)
  have second : ¬(0x40 ≤ b ∧ b ≤ 0x7e) := by
    rintro ⟨low, -⟩
    exact absurd (UInt8.le_trans low h.2) (by decide)
  rw [csiType, if_neg first, if_neg second, if_pos h]

/-- A byte of a CSI code. -/
theorem parseByte_csi {p q : EscapeCodeParser} {b : UInt8} {s t : σ} (state : p.state = .csi)
    (h : p.dispatchByteCsi cb b s = (q, t, none)) : p.parseByte cb b s = (q, t, none) := by
  apply parseByte_of_dispatchByte
  · rw [state]
    exact ⟨fun h => (nomatch h), fun h => nomatch h⟩
  · rw [dispatchByte, state]
    exact h

/-- The parameters of a CSI code are written. -/
theorem parse_csiParams (cb : Callbacks σ ε) {p : EscapeCodeParser} {params : Bytes}
    (state : p.state = .csi) (csiState : p.csiState = .parameter)
    (hparams : ∀ b ∈ params, 0x30 ≤ b ∧ b ≤ 0x3f) (s : σ) :
    p.parse cb params s = ({ p with currentBuffer := p.currentBuffer ++ params }, s, none) := by
  apply parse_written
  intro b mem buffer
  apply parseByte_csi
  · exact state
  · simp [dispatchByteCsi, writeCh, csiState, csiType_parameter (hparams b mem)]

/-- Parameters, intermediates and a final byte call the handler, once. -/
theorem parse_csiBody {p : EscapeCodeParser} {params intermediates : Bytes} {final : UInt8}
    (state : p.state = .csi) (csiState : p.csiState = .parameter)
    (collects : Collects .csi [] p) (hparams : ∀ b ∈ params, 0x30 ≤ b ∧ b ≤ 0x3f)
    (hintermediates : ∀ b ∈ intermediates, 0x20 ≤ b ∧ b ≤ 0x2f)
    (hfinal : 0x40 ≤ final ∧ final ≤ 0x7e)
    (plain : params ++ intermediates ++ [final] ≠ bracketedPasteStart) {s s' : σ}
    (called : cb.call .csi (params ++ intermediates ++ [final]) s = (s', none)) :
    ∃ q, p.parse cb (params ++ intermediates ++ [final]) s = (q, s', none) ∧ Idle q := by
  have first := parse_csiParams cb state csiState hparams s
  rw [collects.buffer] at first
  obtain ⟨mid, second, midState, midCollects⟩ : ∃ mid,
      { p with currentBuffer := params }.parse cb intermediates s = (mid, s, none) ∧
        mid.state = .csi ∧ Collects .csi (params ++ intermediates) mid := by
    cases intermediates with
    | nil => exact ⟨_, rfl, state, collects.callback, (List.append_nil _).symm⟩
    | cons b rest =>
      have entered : { p with currentBuffer := params }.parseByte cb b s =
          ({ p with currentBuffer := params ++ [b], csiState := .intermediate }, s, none) := by
        apply parseByte_csi
        · exact state
        · simp [dispatchByteCsi, writeCh, csiState,
            csiType_intermediate (hintermediates b List.mem_cons_self)]
      have others := @parse_written _ _ cb
        { p with currentBuffer := params ++ [b], csiState := .intermediate } rest s (by
          intro c mem buffer
          apply parseByte_csi
          · exact state
          · simp only [dispatchByteCsi, writeCh,
              csiType_intermediate (hintermediates c (List.mem_cons_of_mem _ mem))])
      refine ⟨_, (parse_append (parse_singleton entered)).trans others, state,
        collects.callback, ?_⟩
      simp only [List.append_assoc, List.singleton_append]
  have third : mid.parse cb [final] s = ((mid.writeCh final).resetState, s', none) := by
    apply parse_singleton
    apply parseByte_csi midState
    have collected : Collects .csi (params ++ intermediates ++ [final]) (mid.writeCh final) :=
      ⟨midCollects.callback, by rw [writeCh, midCollects.buffer]⟩
    have ended := dispatchEscCode_collects collected (fun h => plain h.2) called
    rw [dispatchByteCsi]
    cases (mid.writeCh final).csiState with
    | parameter => simp only [csiType_final hfinal, ended]
    | intermediate => simp only [csiType_final hfinal, ended]
  have body := (parse_append first).trans second
  exact ⟨_, (parse_append body).trans third, resetState_idle _⟩

/-! ### Strings -/

/-- The parser reads a string of this kind. -/
structure InString (kind : CodeKind) (buffer : Bytes) (p : EscapeCodeParser) : Prop
    extends Collects kind buffer p where
  state : p.state = .st ∨ p.state = .stOrBel

theorem parseByte_string {p q : EscapeCodeParser} {b : UInt8} {s t : σ}
    (state : p.state = .st ∨ p.state = .stOrBel)
    (bel : p.state = .stOrBel → b ≠ 0x07) (h : p.dispatchByteSt b = q) (same : s = t) :
    p.parseByte cb b s = (q, t, none) := by
  subst same h
  rcases state with st | stOrBel
  · apply parseByte_of_dispatchByte
    · rw [st]
      exact ⟨fun h => (nomatch h), fun h => nomatch h⟩
    · rw [dispatchByte, st]
  · apply parseByte_of_dispatchByte
    · rw [stOrBel]
      exact ⟨fun h => (nomatch h), fun h => nomatch h⟩
    · rw [dispatchByte, stOrBel]
      exact if_neg (bel stOrBel)

/-- Bytes that start no terminator are written. -/
theorem parse_plainBytes (cb : Callbacks σ ε) {p : EscapeCodeParser} {kind : CodeKind}
    {buffer : Bytes} (h : InString kind buffer p) (bytes : Bytes)
    (plain : ∀ b ∈ bytes, b ≠ 0x1b ∧ b ≠ 0xc2 ∧ (p.state = .stOrBel → b ≠ 0x07)) (s : σ) :
    ∃ q, p.parse cb bytes s = (q, s, none) ∧ InString kind (buffer ++ bytes) q ∧
      q.state = p.state := by
  refine ⟨{ p with currentBuffer := p.currentBuffer ++ bytes }, ?_, ⟨⟨h.callback, ?_⟩, h.state⟩,
    rfl⟩
  · apply parse_written
    intro b mem other
    obtain ⟨esc, c1, bel⟩ := plain b mem
    refine parseByte_string h.state bel ?_ rfl
    rw [dispatchByteSt, if_neg esc, if_neg c1]
    rfl
  · simp only [h.buffer]

theorem ofNat_ne {n m : Nat} (small : n < 256) (known : m < 256) (h : n ≠ m) :
    UInt8.ofNat n ≠ UInt8.ofNat m := by
  intro same
  have values := congrArg UInt8.toNat same
  rw [UInt8.toNat_ofNat', UInt8.toNat_ofNat'] at values
  omega

/-- A byte inside a character is none of the bytes that end a string. -/
theorem plain_of_continues {n : Nat} (low : 0x80 ≤ n) (high : n < 0xc0) :
    UInt8.ofNat n ≠ 0x1b ∧ UInt8.ofNat n ≠ 0xc2 ∧ UInt8.ofNat n ≠ 0x07 ∧ UInt8.ofNat n ≠ 0x5c :=
  ⟨ofNat_ne (by omega) (m := 0x1b) (by omega) (by omega),
    ofNat_ne (by omega) (m := 0xc2) (by omega) (by omega),
    ofNat_ne (by omega) (m := 0x07) (by omega) (by omega),
    ofNat_ne (by omega) (m := 0x5c) (by omega) (by omega)⟩

theorem val_ne {c d : Char} (h : c ≠ d) : c.val.toNat ≠ d.val.toNat :=
  fun same => h (Char.ext (UInt32.toNat_inj.1 same))

/-- The bytes of a character of a string are written, unless they end it. -/
theorem parse_stringChar (cb : Callbacks σ ε) {p : EscapeCodeParser} {kind : CodeKind}
    {buffer : Bytes} {c : Char} (h : InString kind buffer p) (esc : c ≠ '\x1b') (c1 : c ≠ '\u009c')
    (bel : p.state = .stOrBel → c ≠ '\x07') (s : σ) :
    ∃ q, p.parse cb (String.utf8EncodeChar c) s = (q, s, none) ∧
      InString kind (buffer ++ String.utf8EncodeChar c) q ∧
      (q.state = .stOrBel → p.state = .stOrBel) ∧
      (p.state = .stOrBel → ¬(0x80 ≤ c.val.toNat ∧ c.val.toNat < 0xc0) → q.state = .stOrBel) := by
  have escVal := val_ne esc
  have c1Val := val_ne c1
  rcases Nat.lt_or_ge c.val.toNat 0x80 with ascii | wide
  · have bytes := utf8EncodeChar_of_ascii ascii
    obtain ⟨q, parsed, within, same⟩ := parse_plainBytes cb h
      (String.utf8EncodeChar c) (by
        rw [bytes]
        refine List.forall_mem_singleton.2 ⟨?_, ?_, fun stOrBel => ?_⟩
        · exact ofNat_ne (by omega) (m := 0x1b) (by omega) escVal
        · exact ofNat_ne (by omega) (m := 0xc2) (by omega) (by omega)
        · exact ofNat_ne (by omega) (m := 0x07) (by omega) (val_ne (bel stOrBel))) s
    exact ⟨q, parsed, within, fun h => same ▸ h, fun stOrBel _ => same.trans stOrBel⟩
  · obtain ⟨lead, tail, bytes, some_, low, high, continues, isC2, tail_⟩ :=
      utf8EncodeChar_of_wide wide
    have plainTail : ∀ b ∈ tail, b ≠ 0x1b ∧ b ≠ 0xc2 ∧ b ≠ 0x07 := by
      intro b mem
      obtain ⟨n, rfl, above, below⟩ := continues b mem
      have plain := plain_of_continues above below
      exact ⟨plain.1, plain.2.1, plain.2.2.1⟩
    by_cases c2 : lead = 0xc2
    · have small := isC2.1 c2
      rw [bytes, tail_ small, c2]
      obtain ⟨mid, hmid⟩ : ∃ mid, mid = { p with state := .c1St } := ⟨_, rfl⟩
      have first : p.parseByte cb (UInt8.ofNat 0xc2) s = (mid, s, none) :=
        parseByte_string h.state (fun _ => by decide) (by rw [hmid]; rfl) rfl
      have other : UInt8.ofNat c.val.toNat ≠ 0x9c :=
        ofNat_ne (by omega) (m := 0x9c) (by omega) c1Val
      obtain ⟨q, hq⟩ : ∃ q, q =
          (({ mid with state := .st }.writeCh 0xc2).writeCh (UInt8.ofNat c.val.toNat)) := ⟨_, rfl⟩
      have second : mid.parseByte cb (UInt8.ofNat c.val.toNat) s = (q, s, none) := by
        have state : mid.state = .c1St := by rw [hmid]
        apply parseByte_of_dispatchByte
        · rw [state]
          exact ⟨fun h => (nomatch h), fun h => nomatch h⟩
        · rw [dispatchByte, state, hq]
          exact if_neg other
      refine ⟨q, ?_, ⟨⟨?_, ?_⟩, .inl ?_⟩, fun stOrBel => ?_, fun _ outside => ?_⟩
      · rw [parse, first]
        exact parse_singleton second
      · rw [hq, hmid]
        exact h.callback
      · rw [hq, hmid]
        simp only [writeCh, h.buffer, List.append_assoc]
        rfl
      · rw [hq]
        rfl
      · rw [hq] at stOrBel
        cases stOrBel
      · exact absurd ⟨wide, small⟩ outside
    · obtain ⟨q, parsed, within, same⟩ := parse_plainBytes cb h
        (String.utf8EncodeChar c) (by
          rw [bytes]
          refine List.forall_mem_cons.2 ⟨⟨?_, ?_, fun _ => ?_⟩, fun b mem => ?_⟩
          · exact ofNat_ne high (m := 0x1b) (by omega) (by omega)
          · exact ofNat_ne high (m := 0xc2) (by omega) c2
          · exact ofNat_ne high (m := 0x07) (by omega) (by omega)
          · have plain := plainTail b mem
            exact ⟨plain.1, plain.2.1, fun _ => plain.2.2⟩) s
      exact ⟨q, parsed, within, fun h => same ▸ h, fun stOrBel _ => same.trans stOrBel⟩

/-- Inside a string an ESC is written with the character behind it, and two of them count once. -/
theorem parse_escPair (cb : Callbacks σ ε) {p : EscapeCodeParser} {kind : CodeKind}
    {buffer : Bytes} (h : InString kind buffer p) {c : Char} (st : c ≠ '\\') (s : σ) :
    ∃ q, p.parse cb (0x1b :: String.utf8EncodeChar c) s = (q, s, none) ∧
      InString kind (buffer ++ 0x1b :: if c = '\x1b' then [] else String.utf8EncodeChar c) q ∧
      q.state = .st := by
  obtain ⟨mid, hmid⟩ : ∃ mid, mid = { p with state := .escSt } := ⟨_, rfl⟩
  have first : p.parseByte cb 0x1b s = (mid, s, none) :=
    parseByte_string h.state (fun _ => by decide) (by rw [hmid]; rfl) rfl
  have state : mid.state = .escSt := by rw [hmid]
  have notText : mid.state ≠ .normal ∧ mid.state ≠ .bracketedPaste := by
    rw [state]
    exact ⟨fun h => (nomatch h), fun h => nomatch h⟩
  obtain ⟨written, hwritten⟩ : ∃ written, written = { mid with state := .st }.writeCh 0x1b :=
    ⟨_, rfl⟩
  have within : InString kind (buffer ++ [0x1b]) written := by
    rw [hwritten, hmid]
    refine ⟨⟨h.callback, ?_⟩, .inl rfl⟩
    simp only [writeCh, h.buffer]
  by_cases esc : c = '\x1b'
  · subst esc
    refine ⟨written, ?_, within, by rw [hwritten]; rfl⟩
    rw [parse, first]
    apply parse_singleton
    apply parseByte_of_dispatchByte notText
    rw [dispatchByte, state, hwritten]
    rfl
  · rw [if_neg esc]
    have after : ∀ b, b ≠ 0x5c → b ≠ 0x1b →
        mid.parseByte cb b s = (written.writeCh b, s, none) := by
      intro b other plain
      apply parseByte_of_dispatchByte notText
      rw [dispatchByte, state, hwritten]
      simp only [if_neg other, if_pos plain]
    have grown : ∀ b, InString kind (buffer ++ [0x1b, b]) (written.writeCh b) := by
      intro b
      refine ⟨⟨within.callback, ?_⟩, within.state⟩
      simp [writeCh, within.buffer]
    have stays : ∀ b, (written.writeCh b).state = .st := by
      intro b
      rw [hwritten]
      rfl
    rcases Nat.lt_or_ge c.val.toNat 0x80 with ascii | wide
    · have bytes := utf8EncodeChar_of_ascii ascii
      have next := after (UInt8.ofNat c.val.toNat)
        (ofNat_ne (by omega) (m := 0x5c) (by omega) (val_ne st))
        (ofNat_ne (by omega) (m := 0x1b) (by omega) (val_ne esc))
      rw [bytes]
      refine ⟨_, ?_, grown _, stays _⟩
      rw [parse, first]
      exact parse_singleton next
    · obtain ⟨lead, tail, bytes, -, low, high, continues, -⟩ := utf8EncodeChar_of_wide wide
      have next := after (UInt8.ofNat lead)
        (ofNat_ne high (m := 0x5c) (by omega) (by omega))
        (ofNat_ne high (m := 0x1b) (by omega) (by omega))
      obtain ⟨q, parsed, last, same⟩ := parse_plainBytes cb (grown (UInt8.ofNat lead))
        tail (by
          intro b mem
          obtain ⟨n, rfl, above, below⟩ := continues b mem
          have plain := plain_of_continues above below
          exact ⟨plain.1, plain.2.1, fun _ => plain.2.2.1⟩) s
      rw [bytes]
      refine ⟨q, ?_, ?_, same.trans (stays _)⟩
      · rw [parse, first]
        simp only
        rw [parse, next]
        exact parsed
      · rw [List.append_assoc] at last
        exact last

/-- The payload that a handler gets: a pair of ESC counts once. -/
def collapse : List Char → List Char
  | [] => []
  | [c] => [c]
  | c :: d :: rest =>
    if c = '\x1b' then
      if d = '\x1b' then '\x1b' :: collapse rest else '\x1b' :: d :: collapse rest
    else c :: collapse (d :: rest)

/-- No ESC is left without a character behind it, when they are read in pairs. -/
def EscsPaired : List Char → Prop
  | [] => True
  | [c] => c ≠ '\x1b'
  | c :: d :: rest => if c = '\x1b' then EscsPaired rest else EscsPaired (d :: rest)

/-- The payload does not contain what would end it. -/
structure StringPayload (kind : CodeKind) (payload : List Char) : Prop where
  st : ¬['\x1b', '\\'] <:+: payload
  c1St : '\u009c' ∉ payload
  bel : kind = .osc → '\x07' ∉ payload
  paired : EscsPaired payload

theorem collapse_of_plain {payload : List Char} (plain : '\x1b' ∉ payload) :
    collapse payload = payload := by
  induction payload with
  | nil => rfl
  | cons c payload ih =>
    have later := ih fun mem => plain (List.mem_cons_of_mem _ mem)
    cases payload with
    | nil => rfl
    | cons d rest =>
      have other : c ≠ '\x1b' := fun same => plain (same ▸ List.mem_cons_self)
      rw [collapse, if_neg other, later]

/-- The payload of a string is collected. -/
theorem parse_payload (cb : Callbacks σ ε) {kind : CodeKind} {payload : List Char}
    {p : EscapeCodeParser} {buffer : Bytes} (h : InString kind buffer p)
    (st : ¬['\x1b', '\\'] <:+: payload) (c1St : '\u009c' ∉ payload)
    (bel : p.state = .stOrBel → '\x07' ∉ payload) (paired : EscsPaired payload) (s : σ) :
    ∃ q, p.parse cb (utf8 payload) s = (q, s, none) ∧
      InString kind (buffer ++ utf8 (collapse payload)) q := by
  induction payload using collapse.induct generalizing p buffer with
  | case1 => exact ⟨p, rfl, by rwa [collapse, utf8, List.flatMap_nil, List.append_nil]⟩
  | case2 c =>
    have other : c ≠ '\u009c' := fun same => c1St (same ▸ List.mem_cons_self)
    obtain ⟨q, parsed, within, -⟩ := parse_stringChar cb h paired other
      (fun stOrBel same => bel stOrBel (same ▸ List.mem_cons_self)) s
    refine ⟨q, ?_, ?_⟩
    · rw [utf8_cons, utf8, List.flatMap_nil, List.append_nil]
      exact parsed
    · rw [collapse, utf8_cons, utf8, List.flatMap_nil, List.append_nil]
      exact within
  | case3 rest ih =>
    obtain ⟨mid, parsed, within, state⟩ := parse_escPair cb h (c := '\x1b') (by decide) s
    obtain ⟨q, parsedRest, last⟩ := ih within
      (fun inside => st (inside.trans ⟨['\x1b', '\x1b'], [], by simp⟩))
      (fun mem => c1St (List.mem_cons_of_mem _ (List.mem_cons_of_mem _ mem)))
      (fun stOrBel => nomatch state.symm.trans stOrBel) paired
    refine ⟨q, ?_, ?_⟩
    · exact (parse_append parsed).trans parsedRest
    · rw [List.append_assoc] at last
      exact last
  | case4 d rest notEsc ih =>
    have notSt : d ≠ '\\' := by
      rintro rfl
      exact st ⟨[], rest, rfl⟩
    obtain ⟨mid, parsed, within, state⟩ := parse_escPair cb h notSt s
    rw [if_neg notEsc] at within
    obtain ⟨q, parsedRest, last⟩ := ih within
      (fun inside => st (inside.trans ⟨['\x1b', d], [], by simp⟩))
      (fun mem => c1St (List.mem_cons_of_mem _ (List.mem_cons_of_mem _ mem)))
      (fun stOrBel => nomatch state.symm.trans stOrBel) paired
    refine ⟨q, ?_, ?_⟩
    · exact (parse_append parsed).trans parsedRest
    · rw [collapse, if_pos rfl, if_neg notEsc]
      have split : utf8 ('\x1b' :: d :: collapse rest) =
          (0x1b :: String.utf8EncodeChar d) ++ utf8 (collapse rest) := rfl
      rw [split, ← List.append_assoc]
      exact last
  | case5 c d rest notEsc ih =>
    have other : c ≠ '\u009c' := fun same => c1St (same ▸ List.mem_cons_self)
    obtain ⟨mid, parsed, within, stays, -⟩ := parse_stringChar cb h notEsc other
      (fun stOrBel same => bel stOrBel (same ▸ List.mem_cons_self)) s
    rw [EscsPaired, if_neg notEsc] at paired
    obtain ⟨q, parsedRest, last⟩ := ih within
      (fun inside => st (inside.trans ⟨[c], [], by simp⟩))
      (fun mem => c1St (List.mem_cons_of_mem _ mem))
      (fun stOrBel mem => bel (stays stOrBel) (List.mem_cons_of_mem _ mem)) paired
    refine ⟨q, ?_, ?_⟩
    · exact (parse_append parsed).trans parsedRest
    · rw [collapse, if_neg notEsc, utf8_cons, ← List.append_assoc]
      exact last

/-- A payload without ESC and without the characters from U+0080 to U+00BF leaves the parser ready
for BEL. -/
theorem parse_belPayload (cb : Callbacks σ ε) {kind : CodeKind} {payload : List Char}
    {p : EscapeCodeParser} {buffer : Bytes} (h : InString kind buffer p)
    (state : p.state = .stOrBel) (plain : ∀ c ∈ payload,
      c ≠ '\x1b' ∧ c ≠ '\x07' ∧ ¬(0x80 ≤ c.val.toNat ∧ c.val.toNat < 0xc0)) (s : σ) :
    ∃ q, p.parse cb (utf8 payload) s = (q, s, none) ∧
      InString kind (buffer ++ utf8 payload) q ∧ q.state = .stOrBel := by
  induction payload generalizing p buffer with
  | nil => exact ⟨p, rfl, by rwa [utf8, List.flatMap_nil, List.append_nil], state⟩
  | cons c payload ih =>
    obtain ⟨esc, bel, outside⟩ := plain c List.mem_cons_self
    have c1 : c ≠ '\u009c' := by
      rintro rfl
      exact outside (by decide)
    obtain ⟨mid, parsed, within, -, stays⟩ := parse_stringChar cb h esc c1 (fun _ => bel) s
    obtain ⟨q, parsedRest, last, same⟩ := ih within (stays state outside)
      fun d mem => plain d (List.mem_cons_of_mem _ mem)
    refine ⟨q, ?_, ?_, same⟩
    · exact (parse_append parsed).trans parsedRest
    · rw [utf8_cons, ← List.append_assoc]
      exact last

/-- What ends a string. -/
inductive Terminator where
  | st
  | c1St
  | bel
deriving DecidableEq, Repr

def Terminator.bytes : Terminator → Bytes
  | .st => [0x1b, 0x5c]
  | .c1St => String.utf8EncodeChar '\u009c'
  | .bel => [0x07]

/-- The terminator calls the handler with what was collected. -/
theorem parse_terminator {kind : CodeKind} {p : EscapeCodeParser} {buffer : Bytes}
    (h : InString kind buffer p) (terminator : Terminator)
    (bel : terminator = .bel → p.state = .stOrBel) {s s' : σ}
    (called : cb.call kind buffer s = (s', none)) :
    ∃ q, p.parse cb terminator.bytes s = (q, s', none) ∧ Idle q := by
  have ends : ∀ {q : EscapeCodeParser}, Collects kind buffer q → q.state ≠ .csi →
      q.dispatchEscCode cb s = (q.resetState, s', none) :=
    fun collects string => dispatchEscCode_collects collects (fun h => string h.1) called
  cases terminator with
  | st =>
    obtain ⟨mid, hmid⟩ : ∃ mid, mid = { p with state := .escSt } := ⟨_, rfl⟩
    have first : p.parseByte cb 0x1b s = (mid, s, none) :=
      parseByte_string h.state (fun _ => by decide) (by rw [hmid]; rfl) rfl
    have state : mid.state = .escSt := by rw [hmid]
    have collects : Collects kind buffer mid := by
      rw [hmid]
      exact ⟨h.callback, h.buffer⟩
    have second : mid.parseByte cb 0x5c s =
        (mid.resetState, s', none) := by
      apply parseByte_of_dispatchByte
      · rw [state]
        exact ⟨fun h => (nomatch h), fun h => nomatch h⟩
      · rw [dispatchByte, state]
        exact ends collects (by rw [state]; exact fun h => nomatch h)
    exact ⟨_, (parse_append (parse_singleton first)).trans (parse_singleton second),
      resetState_idle _⟩
  | c1St =>
    obtain ⟨mid, hmid⟩ : ∃ mid, mid = { p with state := .c1St } := ⟨_, rfl⟩
    have first : p.parseByte cb 0xc2 s = (mid, s, none) :=
      parseByte_string h.state (fun _ => by decide) (by rw [hmid]; rfl) rfl
    have state : mid.state = .c1St := by rw [hmid]
    have collects : Collects kind buffer mid := by
      rw [hmid]
      exact ⟨h.callback, h.buffer⟩
    have second : mid.parseByte cb 0x9c s =
        (mid.resetState, s', none) := by
      apply parseByte_of_dispatchByte
      · rw [state]
        exact ⟨fun h => (nomatch h), fun h => nomatch h⟩
      · rw [dispatchByte, state]
        exact ends collects (by rw [state]; exact fun h => nomatch h)
    exact ⟨_, (parse_append (parse_singleton first)).trans (parse_singleton second),
      resetState_idle _⟩
  | bel =>
    have state := bel rfl
    have ended : p.parseByte cb 0x07 s = (p.resetState, s', none) := by
      apply parseByte_of_dispatchByte
      · rw [state]
        exact ⟨fun h => (nomatch h), fun h => nomatch h⟩
      · rw [dispatchByte, state]
        exact ends h.toCollects (by rw [state]; exact fun h => nomatch h)
    exact ⟨_, parse_singleton ended, resetState_idle _⟩

end Calls

/-! ### Streams -/

/-- A piece of a stream: a character, a CSI code, a string or a code of two characters. -/
inductive StreamItem where
  | text (c : Char)
  | csi (sevenBit : Bool) (params intermediates : Bytes) (final : UInt8)
  | string (kind : CodeKind) (sevenBit : Bool) (payload : List Char) (terminator : Terminator)
  | twoChar (code : UInt8)
deriving DecidableEq, Repr

namespace StreamItem

def bytes : StreamItem → Bytes
  | text c => String.utf8EncodeChar c
  | csi sevenBit params intermediates final =>
    introBytes .csi sevenBit ++ (params ++ intermediates ++ [final])
  | string kind sevenBit payload terminator =>
    introBytes kind sevenBit ++ utf8 payload ++ terminator.bytes
  | twoChar code => [0x1b, code]

/-- The calls that a piece stands for. -/
def calls : StreamItem → List ParserEvent
  | text c => [.rune c.val]
  | csi _ params intermediates final => [.code .csi (params ++ intermediates ++ [final])]
  | string kind _ payload _ => [.code kind (utf8 (collapse payload))]
  | twoChar _ => []

/-- A character of plain text. -/
def IsPlain (c : Char) : Prop :=
  c ≠ '\x1b' ∧ c ≠ '\u0090' ∧ c ≠ '\u0098' ∧ c ≠ '\u009b' ∧ c ≠ '\u009d' ∧ c ≠ '\u009e' ∧
    c ≠ '\u009f'

/-- The piece is complete.  A CSI code is none that starts a bracketed paste, an SOS string starts
with its C1 character, and what BEL ends is an OSC string without ESC and without the characters
from U+0080 to U+00BF. -/
def WellFormed : StreamItem → Prop
  | text c => IsPlain c
  | csi _ params intermediates final =>
    (∀ b ∈ params, 0x30 ≤ b ∧ b ≤ 0x3f) ∧ (∀ b ∈ intermediates, 0x20 ≤ b ∧ b ≤ 0x2f) ∧
      (0x40 ≤ final ∧ final ≤ 0x7e) ∧ params ++ intermediates ++ [final] ≠ bracketedPasteStart
  | string kind sevenBit payload terminator =>
    kind ≠ .csi ∧ (kind = .sos → sevenBit = false) ∧
      if terminator = .bel then
        kind = .osc ∧ ∀ c ∈ payload,
          c ≠ '\x1b' ∧ c ≠ '\x07' ∧ ¬(0x80 ≤ c.val.toNat ∧ c.val.toNat < 0xc0)
      else StringPayload kind payload
  | twoChar code => code ∈ escCodes

/-- The characters that a parser behind an ESC takes for a part of a code. -/
def TakenAfterEsc (c : Char) : Prop := c ∈ "P[]^_DEHMNOZ6789=>Fclmno|\x7d~".toList

/-- The piece may stand behind a code of two characters: it is no character that the parser takes for
a part of a code. -/
def FollowsCode : StreamItem → Prop
  | text c => ¬TakenAfterEsc c
  | _ => True

end StreamItem

open StreamItem

/-- A stream of complete pieces; behind each code of two characters stands a piece that does not
start like a part of a code. -/
def WellFormedStream : List StreamItem → Prop
  | [] => True
  | item :: items =>
    item.WellFormed ∧
      (∀ code, item = .twoChar code → ∃ next rest, items = next :: rest ∧ next.FollowsCode) ∧
      WellFormedStream items

section Streams

variable {effect : σ → ParserEvent → σ}

/-- A character of plain text is dispatched as a rune. -/
theorem dispatchChar_rune {p : EscapeCodeParser} (state : p.state = .normal) {c : Char}
    (plain : IsPlain c) (s : σ) :
    p.dispatchChar cb c.val s =
      (p, (cb.dispatchRune c.val s).1, (cb.dispatchRune c.val s).2) := by
  obtain ⟨esc, dcs, sos, csi, osc, pm, apc⟩ := plain
  have normal : ¬p.state = .bracketedPaste := by
    rw [state]
    exact fun h => nomatch h
  have other : ∀ {d : Char}, c ≠ d → c.val ≠ d.val := fun h same => h (Char.ext same)
  have esc : c.val ≠ 0x1b := other esc
  have dcs : c.val ≠ 0x90 := other dcs
  have csi : c.val ≠ 0x9b := other csi
  have osc : c.val ≠ 0x9d := other osc
  have sos : c.val ≠ 0x98 := other sos
  have pm : c.val ≠ 0x9e := other pm
  have apc : c.val ≠ 0x9f := other apc
  rw [dispatchChar, if_neg normal, if_neg esc, if_neg dcs, if_neg csi, if_neg osc, if_neg sos,
    if_neg pm, if_neg apc]

/-- The call that a piece makes. -/
def StreamItem.call (cb : Callbacks σ ε) (s : σ) : StreamItem → σ × Option ε
  | text c => cb.dispatchRune c.val s
  | csi _ params intermediates final => cb.call .csi (params ++ intermediates ++ [final]) s
  | string kind _ payload _ => cb.call kind (utf8 (collapse payload)) s
  | twoChar _ => (s, none)

theorem StreamItem.call_acts (acts : Acts cb effect) (item : StreamItem) (s : σ) :
    item.call cb s = (item.calls.foldl effect s, none) := by
  cases item with
  | text c => exact acts.rune c.val s
  | csi sevenBit params intermediates final => exact acts.code .csi _ s
  | string kind sevenBit payload terminator => exact acts.code kind _ s
  | twoChar code => rfl

/-- A piece whose call returns no error is parsed from the normal state. -/
theorem parse_called {p : EscapeCodeParser} (idle : Idle p) (item : StreamItem)
    (wf : item.WellFormed) {s s' : σ} (called : item.call cb s = (s', none)) :
    ∃ q, p.parse cb item.bytes s = (q, s', none) ∧
      (Idle q ∨ q.state = .esc ∧ ∃ code, item = .twoChar code) := by
  have normal : ¬p.state = .bracketedPaste := by
    rw [idle.state]
    exact fun h => nomatch h
  cases item with
  | text c =>
    refine ⟨{ p with utf8State := utf8Accept, utf8Codep := c.val }, parse_char idle c ?_,
      .inl ⟨idle.state, rfl, idle.csiState, idle.currentBuffer⟩⟩
    have rune : cb.dispatchRune c.val s = (s', none) := called
    rw [@dispatchChar_rune _ _ cb { p with utf8State := utf8Accept, utf8Codep := c.val }
      idle.state c wf s, rune]
  | csi sevenBit params intermediates final =>
    obtain ⟨hparams, hintermediates, hfinal, plain⟩ := wf
    obtain ⟨mid, started, state, csiState, collects⟩ := parse_intro cb idle .csi sevenBit
      (fun h => nomatch h) s
    obtain ⟨q, ended, idle'⟩ := parse_csiBody state csiState collects hparams
      hintermediates hfinal plain called
    exact ⟨q, (parse_append started).trans ended, .inl idle'⟩
  | string kind sevenBit payload terminator =>
    obtain ⟨notCsi, known, body⟩ := wf
    obtain ⟨mid, started, state, -, collects⟩ := parse_intro cb idle kind sevenBit
      known s
    have string : mid.state = .st ∨ mid.state = .stOrBel := by
      rw [state]
      cases kind with
      | csi => exact absurd rfl notCsi
      | osc => exact .inr rfl
      | dcs => exact .inl rfl
      | pm => exact .inl rfl
      | sos => exact .inl rfl
      | apc => exact .inl rfl
    have within : InString kind [] mid := ⟨collects, string⟩
    by_cases bel : terminator = .bel
    · rw [if_pos bel] at body
      obtain ⟨isOsc, plain⟩ := body
      obtain ⟨late, parsed, lateWithin, lateState⟩ := parse_belPayload cb within
        (by rw [state, isOsc]; rfl) plain s
      have same := collapse_of_plain fun mem => (plain _ mem).1 rfl
      rw [StreamItem.call, same] at called
      obtain ⟨q, ended, idle'⟩ := parse_terminator lateWithin terminator
        (fun _ => lateState) called
      exact ⟨q, (parse_append ((parse_append started).trans parsed)).trans ended, .inl idle'⟩
    · rw [if_neg bel] at body
      obtain ⟨late, parsed, lateWithin⟩ := parse_payload cb within body.st body.c1St
        (fun stOrBel => body.bel (by
          rw [state] at stOrBel
          cases kind with
          | osc => rfl
          | csi => cases stOrBel
          | dcs => cases stOrBel
          | pm => cases stOrBel
          | sos => cases stOrBel
          | apc => cases stOrBel)) body.paired s
      obtain ⟨q, ended, idle'⟩ := parse_terminator lateWithin terminator
        (fun h => absurd h bel) called
      exact ⟨q, (parse_append ((parse_append started).trans parsed)).trans ended, .inl idle'⟩
  | twoChar code =>
    cases called
    obtain ⟨mid, hmid⟩ : ∃ mid, mid = { p with
        utf8State := utf8Accept, utf8Codep := '\x1b'.val, state := .esc } := ⟨_, rfl⟩
    have first : p.parse cb [0x1b] s = (mid, s, none) := by
      apply parse_char idle '\x1b'
      rw [dispatchChar, if_neg normal, hmid]
      rfl
    have state : mid.state = .esc := by rw [hmid]
    have others : ∀ b ∈ escCodes,
        b ≠ 0x50 ∧ b ≠ 0x5b ∧ b ≠ 0x5d ∧ b ≠ 0x5e ∧ b ≠ 0x5f := forall_mem_of_all (by decide)
    obtain ⟨dcs, csi, osc, pm, apc⟩ := others code wf
    have second : mid.parseByte cb code s = (mid, s, none) := by
      apply parseByte_of_dispatchByte
      · rw [state]
        exact ⟨fun h => (nomatch h), fun h => nomatch h⟩
      · rw [dispatchByte, state]
        rw [dispatchByteEsc, if_neg dcs, if_neg csi, if_neg osc, if_neg pm, if_neg apc,
          if_pos (show code ∈ escCodes from wf)]
    exact ⟨mid, (parse_append first).trans (parse_singleton second), .inr ⟨state, code, rfl⟩⟩

/-- A piece is parsed from the normal state with its calls. -/
theorem parse_item (acts : Acts cb effect) {p : EscapeCodeParser} (idle : Idle p)
    (item : StreamItem) (wf : item.WellFormed) (s : σ) :
    ∃ q, p.parse cb item.bytes s = (q, item.calls.foldl effect s, none) ∧
      (Idle q ∨ q.state = .esc ∧ ∃ code, item = .twoChar code) := by
  exact parse_called idle item wf (item.call_acts acts s)

/-- The bytes behind an ESC that belong to a code. -/
def takenBytes : Bytes := [0x50, 0x5b, 0x5d, 0x5e, 0x5f] ++ escCodes

theorem takenBytes_eq :
    takenBytes = "P[]^_DEHMNOZ6789=>Fclmno|\x7d~".toList.map fun c => c.val.toUInt8 := by
  decide

/-- Behind an ESC any other byte is parsed as in the normal state. -/
theorem dispatchByte_afterEsc {p : EscapeCodeParser} {b : UInt8} {s : σ} (state : p.state = .esc)
    (other : b ∉ takenBytes) : p.dispatchByte cb b s = p.resetState.parseByte cb b s := by
  have ne : ∀ {c : UInt8}, c ∈ takenBytes → b ≠ c := fun mem eq => other (eq ▸ mem)
  have notCode : b ∉ escCodes := fun mem => other (List.mem_append_right _ mem)
  rw [dispatchByte, state]
  rw [dispatchByteEsc, if_neg (ne (by decide)), if_neg (ne (by decide)), if_neg (ne (by decide)),
    if_neg (ne (by decide)), if_neg (ne (by decide)), if_neg notCode]
  exact (if_pos (.inl rfl)).symm

theorem parse_afterEsc {p q : EscapeCodeParser} {b : UInt8} {rest : Bytes} {s t : σ}
    (state : p.state = .esc) (other : b ∉ takenBytes)
    (h : p.resetState.parse cb (b :: rest) s = (q, t, none)) :
    p.parse cb (b :: rest) s = (q, t, none) := by
  have notText : ¬(p.state = .normal ∨ p.state = .bracketedPaste) := by
    rw [state]
    exact fun h => by
      rcases h with h | h
      · cases h
      · cases h
  rw [parse] at h ⊢
  rw [parseByte, if_neg notText, dispatchByte_afterEsc state other]
  cases hstep : p.resetState.parseByte cb b s with
  | mk mid rest' =>
    obtain ⟨s', err⟩ := rest'
    rw [hstep] at h
    cases err with
    | some err => cases h
    | none => exact h

theorem parse_afterEsc_error {p q : EscapeCodeParser} {b : UInt8} {rest : Bytes} {s t : σ} {err : ε}
    (state : p.state = .esc) (other : b ∉ takenBytes)
    (h : p.resetState.parse cb (b :: rest) s = (q, t, some err)) :
    ∃ last, p.parse cb (b :: rest) s = (last, t, some err) := by
  have notText : ¬(p.state = .normal ∨ p.state = .bracketedPaste) := by
    rw [state]
    exact fun h => by
      rcases h with h | h
      · cases h
      · cases h
  rw [parse] at h ⊢
  rw [parseByte, if_neg notText, dispatchByte_afterEsc state other]
  cases hstep : p.resetState.parseByte cb b s with
  | mk mid rest' =>
    obtain ⟨s', stepErr⟩ := rest'
    rw [hstep] at h
    cases stepErr with
    | some _ =>
      cases h
      exact ⟨_, rfl⟩
    | none => exact ⟨q, h⟩

/-- A piece behind a code of two characters starts with a byte that belongs to no code. -/
theorem bytes_followsCode {item : StreamItem} (follows : item.FollowsCode) :
    ∃ b rest, item.bytes = b :: rest ∧ b ∉ takenBytes := by
  have intro_ : ∀ kind sevenBit, ∃ b rest, introBytes kind sevenBit = b :: rest ∧
      b ∉ takenBytes := by
    intro kind sevenBit
    cases sevenBit with
    | true => exact ⟨_, _, rfl, by decide⟩
    | false => cases kind <;> exact ⟨_, _, rfl, by decide⟩
  cases item with
  | text c =>
    rcases Nat.lt_or_ge c.val.toNat 0x80 with ascii | wide
    · refine ⟨_, [], utf8EncodeChar_of_ascii ascii, fun mem => follows ?_⟩
      rw [takenBytes_eq] at mem
      obtain ⟨d, inCodes, same⟩ := List.mem_map.1 mem
      have small : ∀ d ∈ "P[]^_DEHMNOZ6789=>Fclmno|\x7d~".toList, d.val.toNat < 0x80 :=
        forall_mem_of_all (by decide)
      have dSmall := small d inCodes
      have values := congrArg UInt8.toNat same
      rw [UInt32.toNat_toUInt8, UInt8.toNat_ofNat'] at values
      have char : c = d := Char.ext (UInt32.toNat_inj.1 (by omega))
      rw [char]
      exact inCodes
    · obtain ⟨lead, tail, bytes, -, low, high, -⟩ := utf8EncodeChar_of_wide wide
      refine ⟨_, tail, bytes, ?_⟩
      have small : ∀ b ∈ takenBytes, b.toNat < 0x80 := forall_mem_of_all (by decide)
      intro mem
      have value := small _ mem
      rw [UInt8.toNat_ofNat'] at value
      omega
  | csi sevenBit params intermediates final =>
    obtain ⟨b, rest, bytes, other⟩ := intro_ .csi sevenBit
    exact ⟨b, _, by rw [StreamItem.bytes, bytes]; rfl, other⟩
  | string kind sevenBit payload terminator =>
    obtain ⟨b, rest, bytes, other⟩ := intro_ kind sevenBit
    exact ⟨b, _, by rw [StreamItem.bytes, bytes]; rfl, other⟩
  | twoChar code => exact ⟨_, _, rfl, by decide⟩

/-- The parser may read the pieces: it is in the normal state, or behind a code of two characters and
in front of a piece that may stand there. -/
def Ready (p : EscapeCodeParser) (items : List StreamItem) : Prop :=
  Idle p ∨ p.state = .esc ∧ ∃ next rest, items = next :: rest ∧ next.FollowsCode

/-- The next piece of a stream, if its call returns no error. -/
theorem parse_next {item : StreamItem} {items : List StreamItem}
    (stream : WellFormedStream (item :: items)) {p : EscapeCodeParser}
    (ready : Ready p (item :: items)) {s s' : σ} (called : item.call cb s = (s', none)) :
    ∃ q, p.parse cb item.bytes s = (q, s', none) ∧ Ready q items := by
  obtain ⟨wf, follows, later⟩ := stream
  obtain ⟨mid, parsed, midReady⟩ : ∃ mid,
      p.parse cb item.bytes s = (mid, s', none) ∧
        (Idle mid ∨ mid.state = .esc ∧ ∃ code, item = .twoChar code) := by
    obtain idle | ⟨state, next, rest, same, followsCode⟩ := ready
    · exact parse_called idle item wf called
    · cases same
      obtain ⟨mid, parsed, midReady⟩ := parse_called (resetState_idle p) item wf called
      obtain ⟨b, rest, bytes, other⟩ := bytes_followsCode followsCode
      rw [bytes] at parsed ⊢
      exact ⟨mid, parse_afterEsc state other parsed, midReady⟩
  refine ⟨mid, parsed, ?_⟩
  obtain idle | ⟨state, code, same⟩ := midReady
  · exact .inl idle
  · exact .inr ⟨state, follows code same⟩

/-- The next piece of a stream, if it is a character whose handler returns an error. -/
theorem parse_next_error {c : Char} {items : List StreamItem}
    (stream : WellFormedStream (.text c :: items)) {p : EscapeCodeParser}
    (ready : Ready p (.text c :: items)) {s s' : σ} {err : ε}
    (called : (StreamItem.text c).call cb s = (s', some err)) :
    ∃ q, p.parse cb (StreamItem.text c).bytes s = (q, s', some err) := by
  have dispatched : cb.dispatchRune c.val s = (s', some err) := called
  have fails : ∀ {p : EscapeCodeParser}, Idle p →
      ∃ q, p.parse cb (StreamItem.text c).bytes s = (q, s', some err) := by
    intro p idle
    have decodes := decodes_utf8EncodeChar c p.utf8Codep
    rw [← idle.utf8State] at decodes
    apply parse_decodes_error (.inl idle.state) decodes
    rw [@dispatchChar_rune _ _ cb { p with utf8State := utf8Accept, utf8Codep := c.val }
      idle.state c stream.1 s, dispatched]
  obtain idle | ⟨state, next, rest, same, followsCode⟩ := ready
  · exact fails idle
  · cases same
    obtain ⟨q, parsed⟩ := fails (resetState_idle p)
    obtain ⟨b, rest, bytes, other⟩ := bytes_followsCode followsCode
    rw [bytes] at parsed ⊢
    exact parse_afterEsc_error state other parsed

theorem parse_stream (acts : Acts cb effect) {items : List StreamItem}
    (stream : WellFormedStream items) {p : EscapeCodeParser} (ready : Ready p items) (s : σ) :
    ∃ q, p.parse cb (items.flatMap StreamItem.bytes) s =
        (q, (items.flatMap StreamItem.calls).foldl effect s, none) ∧ Idle q := by
  induction items generalizing p s with
  | nil =>
    obtain idle | ⟨-, next, rest, empty, -⟩ := ready
    · exact ⟨p, rfl, idle⟩
    · cases empty
  | cons item items ih =>
    obtain ⟨mid, parsed, midReady⟩ := parse_next stream ready (item.call_acts acts s)
    obtain ⟨q, parsedRest, idle⟩ := ih stream.2.2 midReady (item.calls.foldl effect s)
    refine ⟨q, ?_, idle⟩
    rw [List.flatMap_cons, List.flatMap_cons, List.foldl_append, parse_append parsed]
    exact parsedRest

/-- However a stream is cut into pieces of data, the parser makes the calls of the stream, one after
the other, and ends in the normal state. -/
theorem escapeCodeStream (acts : Acts cb effect) {items : List StreamItem}
    (stream : WellFormedStream items) {chunks : List Bytes}
    (cut : chunks.flatten = items.flatMap StreamItem.bytes) (replace : Bool) (s : σ) :
    ∃ q, ({ replaceInvalidUtf8Bytes := replace } : EscapeCodeParser).parseChunks cb chunks s =
        (q, (items.flatMap StreamItem.calls).foldl effect s, none) ∧ q.state = .normal := by
  have idle : Idle { replaceInvalidUtf8Bytes := replace } := ⟨rfl, rfl, rfl, rfl⟩
  obtain ⟨q, parsed, ended⟩ := parse_stream acts stream (.inl idle) s
  rw [← cut] at parsed
  exact ⟨q, parseChunks_flatten parsed, ended.state⟩

/-- A hyperlink, two words and a code of two characters, cut inside the terminator and inside a
character. -/
theorem escapeCodeStream_link :
    ∃ q, ({} : EscapeCodeParser).parseChunks logging
        [[0x1b, 0x5d, 0x38, 0x3b, 0x3b, 0x1b], [0x5c, 0x61, 0xc3], [0xa9, 0x1b, 0x37, 0x20]] [] =
        (q, [.code .osc [0x38, 0x3b, 0x3b], .rune 0x61, .rune 0xe9, .rune 0x20], none) ∧
      q.state = .normal := by
  have stream : WellFormedStream
      [.string .osc true ['8', ';', ';'] .st, .text 'a', .text 'é', .twoChar 0x37, .text ' '] := by
    have notCode : ∀ {item : StreamItem} {items : List StreamItem},
        (∀ code, item ≠ .twoChar code) → ∀ code, item = .twoChar code →
          ∃ next rest, items = next :: rest ∧ next.FollowsCode :=
      fun other code same => absurd same (other code)
    refine ⟨⟨fun h => (nomatch h), fun h => (nomatch h), ⟨?_, ?_, ?_, ?_⟩⟩,
      notCode (fun _ h => nomatch h), ?_⟩
    · decide
    · decide
    · exact fun _ => by decide
    · exact (by decide : ';' ≠ '\x1b')
    refine ⟨⟨by decide, by decide, by decide, by decide, by decide, by decide, by decide⟩,
      notCode (fun _ h => nomatch h), ?_⟩
    refine ⟨⟨by decide, by decide, by decide, by decide, by decide, by decide, by decide⟩,
      notCode (fun _ h => nomatch h), ?_⟩
    refine ⟨show _ ∈ escCodes by decide, fun _ _ => ⟨.text ' ', [], rfl, ?_⟩, ?_⟩
    · exact show ¬TakenAfterEsc ' ' by unfold TakenAfterEsc; decide
    · exact ⟨⟨by decide, by decide, by decide, by decide, by decide, by decide, by decide⟩,
        notCode (fun _ h => nomatch h), trivial⟩
  exact escapeCodeStream logging_acts stream (by decide) false []

/-- The handler of a DCS string gets one ESC where the payload has two. -/
theorem escapeCodeStream_collapsed :
    StringPayload .dcs ['b', '\x1b', '\x1b', 'c'] ∧
      (({} : EscapeCodeParser).parseChunks logging
        [(StreamItem.string .dcs true ['b', '\x1b', '\x1b', 'c'] .st).bytes] []).2.1 ≠
        [.code .dcs (utf8 ['b', '\x1b', '\x1b', 'c'])] := by
  refine ⟨⟨by decide, by decide, fun h => (nomatch h), (by decide : 'c' ≠ '\x1b')⟩, ?_⟩
  decide

end Streams

end Wcswidth

end Smelly
