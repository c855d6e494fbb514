/-
Module: Smelly.Proofs.BracketedPaste
Purpose: For which pasted texts the escape code parser of the tools delivers exactly the text and
  recognises the end of the paste.
Trusted boundary: none
-/
import Smelly.Lib.HeldPrefix
import Smelly.Proofs.EscapeCodePaste

namespace Smelly

namespace Wcswidth

open Utf8 EscapeCodeParser HeldPrefix

/-- A call of a handler, that for the end of a paste included. -/
inductive PasteCall where
  | rune (ch : UInt32)
  | code (kind : CodeKind) (payload : Bytes)
  | endOfBracketedPaste
deriving DecidableEq, Repr

/-- The call for an event of the stream. -/
def PasteCall.ofEvent : ParserEvent → PasteCall
  | .rune ch => .rune ch
  | .code kind payload => .code kind payload

/-- Handlers that log their calls. -/
def pasteLogging : Callbacks (List PasteCall) Empty where
  handleRune := some fun ch log => (log ++ [.rune ch], none)
  handleEndOfBracketedPaste := some fun log => log ++ [.endOfBracketedPaste]
  handleCSI := some fun payload log => (log ++ [.code .csi payload], none)
  handleOSC := some fun payload log => (log ++ [.code .osc payload], none)
  handleDCS := some fun payload log => (log ++ [.code .dcs payload], none)
  handlePM := some fun payload log => (log ++ [.code .pm payload], none)
  handleSOS := some fun payload log => (log ++ [.code .sos payload], none)
  handleAPC := some fun payload log => (log ++ [.code .apc payload], none)

theorem pasteLogging_acts : Acts pasteLogging fun log event => log ++ [.ofEvent event] := by
  constructor
  · intro ch log
    rfl
  · intro kind payload log
    cases kind <;> rfl

/-- The end of a paste: `ESC [ 2 0 1 ~`. -/
def pasteEndMarker : List Char := ['\x1b', '[', '2', '0', '1', '~']

theorem pasteEndMarker_val : pasteEndMarker.map Char.val = pasteEnd := rfl

theorem val_injective : Function.Injective Char.val := fun _ _ same => Char.ext same

variable {σ ε : Type} {cb : Callbacks σ ε} {effect : σ → ParserEvent → σ}

/-- A character in a paste that does not complete the end of it: what is held back goes on, or it is
dispatched with the character. -/
theorem parse_pastedChar (acts : Acts cb effect) {p : EscapeCodeParser} {held : List Char}
    (h : Held (held.map Char.val) p) {c : Char}
    (open_ : hold pasteEndMarker held c ≠ pasteEndMarker) (s : σ) :
    ∃ q given, p.parse cb (String.utf8EncodeChar c) s = (q, runes effect s given, none) ∧
      Held ((hold pasteEndMarker held c).map Char.val) q ∧
      given ++ (hold pasteEndMarker held c).map Char.val = (held ++ [c]).map Char.val := by
  have read := held_readChar h c.val
  have decodes := decodes_utf8EncodeChar c p.utf8Codep
  by_cases goesOn : held ++ [c] <+: pasteEndMarker
  · have next : hold pasteEndMarker held c = held ++ [c] := if_pos goesOn
    rw [next] at open_ ⊢
    obtain ⟨todo, whole⟩ := goesOn
    have more : todo.map Char.val ≠ [] := by
      intro none_
      rw [List.map_eq_nil_iff.1 none_, List.append_nil] at whole
      exact open_ whole
    have marker : held.map Char.val ++ c.val :: todo.map Char.val = pasteEnd := by
      rw [← pasteEndMarker_val, ← whole, List.map_append, List.map_append, List.append_assoc]
      rfl
    refine ⟨_, [], parse_pasted h decodes (dispatchChar_held cb read marker more s), ?_, rfl⟩
    rw [List.map_append]
    exact held_buffer read _
  · have next : hold pasteEndMarker held c = [] := if_neg goesOn
    rw [next]
    have other : ∀ todo, held.map Char.val ++ c.val :: todo ≠ pasteEnd := by
      intro todo same
      apply goesOn
      have front : (held ++ [c]).map Char.val <+: pasteEndMarker.map Char.val := by
        rw [pasteEndMarker_val, ← same, List.map_append]
        exact ⟨todo, by rw [List.append_assoc]; rfl⟩
      exact (List.prefix_map_iff_of_injective val_injective).1 front
    refine ⟨_, held.map Char.val ++ [c.val], parse_pasted h decodes
      (dispatchChar_breaks acts read other s), held_buffer read [], ?_⟩
    rw [List.map_nil, List.append_nil, List.map_append]
    rfl

/-- A text in a paste in which its end is nowhere complete: all but what is held back is dispatched
in order. -/
theorem parse_pastedText (acts : Acts cb effect) {content : List Char} {p : EscapeCodeParser}
    (held : List Char) (h : Held (held.map Char.val) p)
    (open_ : ∀ front, front <+: content → run pasteEndMarker held front ≠ pasteEndMarker) (s : σ) :
    ∃ q given, p.parse cb (utf8 content) s = (q, runes effect s given, none) ∧
      Held ((run pasteEndMarker held content).map Char.val) q ∧
      given ++ (run pasteEndMarker held content).map Char.val =
        (held ++ content).map Char.val := by
  induction content generalizing held p s with
  | nil =>
    refine ⟨p, [], rfl, h, ?_⟩
    rw [List.append_nil]
    rfl
  | cons c content ih =>
    have first : hold pasteEndMarker held c ≠ pasteEndMarker :=
      open_ [c] ⟨content, rfl⟩
    obtain ⟨mid, given, parsed, midHeld, split⟩ := parse_pastedChar acts h first s
    obtain ⟨q, more, parsedRest, qHeld, splitRest⟩ := ih _ midHeld
      (fun front isFront => open_ (c :: front) (List.cons_prefix_cons.2 ⟨rfl, isFront⟩))
      (runes effect s given)
    refine ⟨q, given ++ more, ?_, qHeld, ?_⟩
    · rw [utf8_cons, parse_append parsed, parsedRest, runes, runes, runes, List.foldl_append]
    · have later : run pasteEndMarker held (c :: content) =
          run pasteEndMarker (hold pasteEndMarker held c) content := rfl
      rw [later, List.append_assoc, splitRest, List.map_append, ← List.append_assoc, split,
        ← List.map_append, List.append_assoc]
      rfl

/-- The end of a paste, where nothing is held back. -/
theorem parse_endOfPastedText (acts : Acts cb effect) {handle : σ → σ}
    (handles : cb.handleEndOfBracketedPaste = some handle) {p : EscapeCodeParser} (h : Held [] p)
    (s : σ) :
    ∃ q, p.parse cb (utf8 pasteEndMarker) s = (q, handle s, none) ∧ q.state = .normal := by
  have open_ : ∀ front, front <+: pasteEndMarker.dropLast →
      run pasteEndMarker [] front ≠ pasteEndMarker := by
    intro front isFront same
    have short := (@run_suffix Char _ pasteEndMarker [] front).length_le
    have less := isFront.length_le
    rw [same] at short
    exact absurd (short.trans less) (by decide)
  obtain ⟨mid, given, parsed, midHeld, split⟩ := parse_pastedText acts [] h open_ s
  have holdsAll : run pasteEndMarker [] pasteEndMarker.dropLast = pasteEndMarker.dropLast :=
    run_goesOn (List.dropLast_prefix pasteEndMarker)
  rw [holdsAll, List.nil_append] at split
  have none_ : given = [] := List.append_cancel_right (split.trans (List.nil_append _).symm)
  rw [holdsAll] at midHeld
  have read := held_readChar midHeld '~'.val
  have handled : (readChar mid '~'.val).dispatchChar cb '~'.val s =
      ((readChar mid '~'.val).resetState, handle s, none) := by
    have buffer : (readChar mid '~'.val).bracketedPasteBuffer =
        [0x1b, 0x5b, 0x32, 0x30, 0x31] := read.buffer
    have ended : (readChar mid '~'.val).handleCh cb '~'.val [0x1b, 0x5b, 0x32, 0x30, 0x31] s =
        ((readChar mid '~'.val).resetState, handle s, none) := by
      rw [handleCh, if_pos buffer, if_pos (by decide), handles]
    exact (if_pos read.state).trans ended
  have last := parse_pasted midHeld (decodes_utf8EncodeChar '~' mid.utf8Codep) handled
  have whole : utf8 pasteEndMarker =
      utf8 pasteEndMarker.dropLast ++ String.utf8EncodeChar '~' := by decide
  rw [whole, parse_append parsed, none_]
  exact ⟨_, last, rfl⟩

/-- The end of a paste behind a beginning of it is dispatched with the beginning, and the paste goes
on. -/
theorem parse_missedEnd (acts : Acts cb effect) {p : EscapeCodeParser} {held : List Char}
    (begins : Beginning pasteEndMarker held) (h : Held (held.map Char.val) p) (s : σ) :
    ∃ q t, p.parse cb (utf8 pasteEndMarker) s = (q, t, none) ∧ q.state = .bracketedPaste := by
  have once : '\x1b' ∉ ['[', '2', '0', '1', '~'] := by decide
  have open_ : ∀ front, front <+: pasteEndMarker →
      run pasteEndMarker held front ≠ pasteEndMarker := by
    intro front isFront
    cases front with
    | nil => exact begins.2.2
    | cons a rest =>
      obtain ⟨rfl, inner⟩ := List.cons_prefix_cons.1 isFront
      have nothing : run pasteEndMarker held ('\x1b' :: rest) = [] :=
        run_again once begins fun mem => once (inner.subset mem)
      rw [nothing]
      exact fun same => nomatch same
  obtain ⟨q, given, parsed, heldAfter, -⟩ := parse_pastedText acts held h open_ s
  exact ⟨q, _, parsed, heldAfter.state⟩

/-- The start of a paste, a text and the end of a paste, however they are cut into pieces: exactly
the text is delivered, then the end of the paste, and the parser is in the normal state. -/
def Delivers (content : List Char) : Prop :=
  ∀ (p : EscapeCodeParser) (_ : Idle p) (sevenBit : Bool) (chunks : List Bytes)
    (_ : chunks.flatten =
      introBytes .csi sevenBit ++ bracketedPasteStart ++ utf8 content ++ utf8 pasteEndMarker)
    (log : List PasteCall),
    ∃ q, p.parseChunks pasteLogging chunks log =
        (q, log ++ content.map (fun c => .rune c.val) ++ [.endOfBracketedPaste], none) ∧
      q.state = .normal

theorem runes_pasteLogging (chs : List UInt32) (log : List PasteCall) :
    runes (fun log event => log ++ [.ofEvent event]) log chs = log ++ chs.map .rune := by
  induction chs generalizing log with
  | nil => exact (List.append_nil log).symm
  | cons ch chs ih =>
    have next := ih (log ++ [.rune ch])
    rw [List.append_assoc] at next
    exact next

/-- A text without the end of a paste is delivered if and only if it ends in an even number of
beginnings of that end, one directly after the other. -/
theorem bracketedPaste {content : List Char} (free : ¬pasteEndMarker <:+: content) :
    Delivers content ↔ PairedBeginnings pasteEndMarker content := by
  have once : '\x1b' ∉ ['[', '2', '0', '1', '~'] := by decide
  have pairs : run pasteEndMarker [] content = [] ↔ PairedBeginnings pasteEndMarker content :=
    run_eq_nil_iff once free
  have open_ : ∀ front, front <+: content → run pasteEndMarker [] front ≠ pasteEndMarker := by
    intro front isFront same
    have suffix_ := @run_suffix Char _ pasteEndMarker [] front
    rw [same] at suffix_
    exact free (suffix_.isInfix.trans isFront.isInfix)
  rw [← pairs]
  constructor
  · intro delivers
    by_contra filled
    have idle : Idle ({} : EscapeCodeParser) := ⟨rfl, rfl, rfl, rfl⟩
    have begins : Beginning pasteEndMarker (run pasteEndMarker [] content) :=
      ⟨filled, run_prefix List.nil_prefix content, open_ content (List.prefix_refl content)⟩
    obtain ⟨q1, started, held⟩ := parse_pasteStart pasteLogging idle true []
    obtain ⟨q2, given, parsed, held', -⟩ := parse_pastedText pasteLogging_acts [] held open_ []
    obtain ⟨q3, last, ended, state⟩ := parse_missedEnd pasteLogging_acts begins held'
      (runes (fun log event => log ++ [.ofEvent event]) [] given)
    obtain ⟨q, whole, normal⟩ := delivers {} idle true _ List.flatten_singleton []
    have data : ({} : EscapeCodeParser).parseChunks pasteLogging
        [introBytes .csi true ++ bracketedPasteStart ++ utf8 content ++ utf8 pasteEndMarker] [] =
          (q3, last, none) := by
      apply parseChunks_flatten
      rw [List.flatten_singleton, List.append_assoc, parse_append started, parse_append parsed]
      exact ended
    have same : q3 = q := congrArg Prod.fst (data.symm.trans whole)
    rw [same, normal] at state
    cases state
  · intro nothing p idle sevenBit chunks cut log
    obtain ⟨q1, started, held⟩ := parse_pasteStart pasteLogging idle sevenBit log
    obtain ⟨q2, given, parsed, held', split⟩ := parse_pastedText pasteLogging_acts [] held open_ log
    rw [nothing] at held' split
    obtain ⟨q3, ended, state⟩ := parse_endOfPastedText pasteLogging_acts rfl held'
      (runes (fun log event => log ++ [.ofEvent event]) log given)
    refine ⟨q3, ?_, state⟩
    apply parseChunks_flatten
    rw [cut, List.append_assoc, parse_append started, parse_append parsed, ended,
      runes_pasteLogging]
    rw [List.map_nil, List.append_nil, List.nil_append] at split
    rw [split, List.map_map]
    rfl

/-- A text that ends in a beginning of the end of a paste, twice. -/
theorem bracketedPaste_twice : Delivers ['a', '\x1b', '[', '\x1b', '[', '2'] := by
  apply (bracketedPaste (by decide)).2
  refine ⟨['a'], [['\x1b', '['], ['\x1b', '[', '2']], rfl, ?_, ?_, by decide⟩
  · intro m mem
    rcases List.mem_cons.1 mem with rfl | mem
    · exact ⟨by decide, by decide, by decide⟩
    · rw [List.mem_singleton.1 mem]
      exact ⟨by decide, by decide, by decide⟩
  · rintro m ⟨filled, front, -⟩ suffix_
    cases m with
    | nil => exact filled rfl
    | cons a rest =>
      obtain ⟨rfl, -⟩ := List.cons_prefix_cons.1 front
      exact absurd (suffix_.subset List.mem_cons_self) (by decide)

/-- An ESC at the end of the pasted text hides the end of the paste. -/
theorem bracketedPaste_escape :
    ¬pasteEndMarker <:+: ['a', '\x1b'] ∧ ¬Delivers ['a', '\x1b'] := by
  refine ⟨by decide, fun delivers => ?_⟩
  obtain ⟨q, whole, -⟩ := delivers {} ⟨rfl, rfl, rfl, rfl⟩ true
    [[0x1b, 0x5b, 0x32, 0x30, 0x30, 0x7e, 0x61, 0x1b, 0x1b, 0x5b, 0x32, 0x30, 0x31, 0x7e]]
    (by decide) []
  have log : (({} : EscapeCodeParser).parseChunks pasteLogging
      [[0x1b, 0x5b, 0x32, 0x30, 0x30, 0x7e, 0x61, 0x1b, 0x1b, 0x5b, 0x32, 0x30, 0x31, 0x7e]]
      []).2.1 = [.rune 0x61, .rune 0x1b, .endOfBracketedPaste] :=
    congrArg (fun result => result.2.1) whole
  exact absurd log (by decide)

end Wcswidth

end Smelly
