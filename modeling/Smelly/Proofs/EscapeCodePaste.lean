/-
Module: Smelly.Proofs.EscapeCodePaste
Purpose: The escape code parser of the tools inside a bracketed paste, and what all its handlers keep.
Trusted boundary: none
-/
import Smelly.Proofs.EscapeCodeStream

namespace Smelly

namespace Wcswidth

open Utf8 EscapeCodeParser

variable {σ ε : Type} {cb : Callbacks σ ε}

/-! ### What all handlers keep -/

/-- Every handler keeps the property. -/
structure Preserves (cb : Callbacks σ ε) (P : σ → Prop) : Prop where
  rune : ∀ ch s, P s → P (cb.dispatchRune ch s).1
  code : ∀ kind payload s, P s → P (cb.call kind payload s).1
  paste : ∀ handle, cb.handleEndOfBracketedPaste = some handle → ∀ s, P s → P (handle s)

namespace Preserves

variable {P : σ → Prop}

theorem dispatchRunes (keeps : Preserves cb P) (runes : List UInt32) {s : σ} (h : P s) :
    P (cb.dispatchRunes runes s).1 := by
  induction runes generalizing s with
  | nil => exact h
  | cons ch runes ih =>
    have first := keeps.rune ch s h
    rw [Callbacks.dispatchRunes]
    split
    · rename_i next err hstep
      rw [hstep] at first
      exact first
    · rename_i next hstep
      rw [hstep] at first
      exact ih first

theorem dispatchEscCode (keeps : Preserves cb P) (p : EscapeCodeParser) {s : σ} (h : P s) :
    P (p.dispatchEscCode cb s).2.1 := by
  rw [EscapeCodeParser.dispatchEscCode]
  split
  · exact h
  · cases p.currentCallback with
    | none => exact h
    | some kind => exact keeps.code kind p.currentBuffer s h

theorem dispatchHeld (keeps : Preserves cb P) (p : EscapeCodeParser) (ch : UInt32) {s : σ}
    (h : P s) : P (p.dispatchHeld cb ch s).2.1 := by
  have held := keeps.dispatchRunes p.bracketedPasteBuffer h
  rw [EscapeCodeParser.dispatchHeld]
  split
  · rename_i next err hstep
    rw [hstep] at held
    exact held
  · rename_i next hstep
    rw [hstep] at held
    exact keeps.rune ch next held

theorem handleCh (keeps : Preserves cb P) (p : EscapeCodeParser) (ch : UInt32)
    (expected : List UInt32) {s : σ} (h : P s) : P (p.handleCh cb ch expected s).2.1 := by
  rw [EscapeCodeParser.handleCh]
  split
  · split
    · split
      · rename_i handle hhandle
        exact keeps.paste handle hhandle s h
      · exact h
    · exact h
  · exact keeps.dispatchHeld p ch h

theorem dispatchChar (keeps : Preserves cb P) (p : EscapeCodeParser) (ch : UInt32) {s : σ}
    (h : P s) : P (p.dispatchChar cb ch s).2.1 := by
  rw [EscapeCodeParser.dispatchChar]
  split
  · repeat' split
    all_goals first
      | exact keeps.handleCh p ch _ h
      | exact keeps.dispatchHeld p ch h
  · have rune := keeps.rune ch s h
    repeat' split
    all_goals first
      | exact h
      | (rename_i hstep
         rw [hstep] at rune
         exact rune)

theorem parseCharByte (keeps : Preserves cb P) (p : EscapeCodeParser) (b : UInt8) {s : σ}
    (h : P s) : P (p.parseCharByte cb b s).2.1 := by
  rw [EscapeCodeParser.parseCharByte]
  obtain ⟨state, codep⟩ := decodeUtf8 p.utf8State p.utf8Codep b
  simp only
  split
  · have dispatched := keeps.dispatchChar { p with utf8State := state, utf8Codep := codep } codep h
    split
    · rename_i hstep
      rw [hstep] at dispatched
      exact dispatched
    · rename_i hstep
      rw [hstep] at dispatched
      exact dispatched
  · split
    · split
      · exact keeps.dispatchChar _ _ h
      · exact h
    · exact h

theorem parseChar (keeps : Preserves cb P) (p : EscapeCodeParser) (b : UInt8) {s : σ} (h : P s) :
    P (p.parseChar cb b s).2.1 := by
  rw [EscapeCodeParser.parseChar]
  obtain ⟨state, codep⟩ := decodeUtf8 p.utf8State p.utf8Codep b
  simp only
  split
  · exact keeps.parseCharByte _ b h
  · exact keeps.parseCharByte p b h

theorem dispatchByte (keeps : Preserves cb P) (p : EscapeCodeParser) (b : UInt8) {s : σ}
    (h : P s) : P (p.dispatchByte cb b s).2.1 := by
  rw [EscapeCodeParser.dispatchByte]
  cases p.state with
  | normal => exact h
  | bracketedPaste => exact h
  | esc =>
    simp only
    rw [dispatchByteEsc]
    repeat' split
    all_goals first
      | exact h
      | exact keeps.parseChar _ b h
  | csi =>
    simp only
    rw [dispatchByteCsi]
    split
    all_goals first
      | exact h
      | exact keeps.dispatchEscCode _ h
  | stOrBel =>
    simp only
    split
    · exact keeps.dispatchEscCode p h
    · exact h
  | st => exact h
  | escSt =>
    simp only
    split
    · exact keeps.dispatchEscCode p h
    · exact h
  | c1St =>
    simp only
    split
    · exact keeps.dispatchEscCode p h
    · exact h

theorem parseByte (keeps : Preserves cb P) (p : EscapeCodeParser) (b : UInt8) {s : σ} (h : P s) :
    P (p.parseByte cb b s).2.1 := by
  rw [EscapeCodeParser.parseByte]
  split
  · exact keeps.parseChar p b h
  · have dispatched := keeps.dispatchByte p b h
    split
    · rename_i hstep
      rw [hstep] at dispatched
      exact dispatched
    · rename_i hstep
      rw [hstep] at dispatched
      exact dispatched

/-- Whatever is parsed, in whatever state, keeps what every handler keeps. -/
theorem parse (keeps : Preserves cb P) (p : EscapeCodeParser) (data : Bytes) {s : σ} (h : P s) :
    P (p.parse cb data s).2.1 := by
  induction data generalizing p s with
  | nil => exact h
  | cons b data ih =>
    have first := keeps.parseByte p b h
    rw [EscapeCodeParser.parse]
    split
    · rename_i hstep
      rw [hstep] at first
      exact first
    · rename_i hstep
      rw [hstep] at first
      exact ih _ first

end Preserves

/-! ### Inside a paste -/

/-- The characters that end a bracketed paste. -/
def pasteEnd : List UInt32 := [0x1b, 0x5b, 0x32, 0x30, 0x31, 0x7e]

/-- The parser is in a bracketed paste and holds these characters back. -/
structure Held (held : List UInt32) (p : EscapeCodeParser) : Prop where
  state : p.state = .bracketedPaste
  utf8State : p.utf8State = utf8Accept
  buffer : p.bracketedPasteBuffer = held

/-- The calls for characters. -/
def runes (effect : σ → ParserEvent → σ) (s : σ) (chs : List UInt32) : σ :=
  chs.foldl (fun s ch => effect s (.rune ch)) s

section Calls

variable {effect : σ → ParserEvent → σ}

theorem dispatchRunes_acts (acts : Acts cb effect) (chs : List UInt32) (s : σ) :
    cb.dispatchRunes chs s = (runes effect s chs, none) := by
  induction chs generalizing s with
  | nil => rfl
  | cons ch chs ih =>
    rw [Callbacks.dispatchRunes, acts.rune]
    exact ih _

/-- A character that does not go on with the end of the paste is dispatched, with all held back. -/
theorem dispatchChar_breaks (acts : Acts cb effect) {p : EscapeCodeParser} {held : List UInt32}
    (h : Held held p) {ch : UInt32} (other : ∀ todo, held ++ ch :: todo ≠ pasteEnd) (s : σ) :
    p.dispatchChar cb ch s =
      ({ p with bracketedPasteBuffer := [] }, runes effect s (held ++ [ch]), none) := by
  have dispatched : p.dispatchHeld cb ch s =
      ({ p with bracketedPasteBuffer := [] }, runes effect s (held ++ [ch]), none) := by
    rw [dispatchHeld, h.buffer, dispatchRunes_acts acts, runes, runes, List.foldl_append]
    simp only [acts.rune]
    rfl
  have broken : ∀ expected todo, expected ++ ch :: todo = pasteEnd →
      p.handleCh cb ch expected s =
        ({ p with bracketedPasteBuffer := [] }, runes effect s (held ++ [ch]), none) := by
    intro expected todo goesOn
    have ne : ¬p.bracketedPasteBuffer = expected := by
      rw [h.buffer]
      rintro rfl
      exact other todo goesOn
    rw [handleCh, if_neg ne, dispatched]
  rw [dispatchChar, if_pos h.state]
  by_cases esc : ch = 0x1b
  · rw [if_pos esc]
    exact broken [] _ (by rw [esc]; rfl)
  rw [if_neg esc]
  by_cases bracket : ch = 0x5b
  · rw [if_pos bracket]
    exact broken [0x1b] _ (by rw [bracket]; rfl)
  rw [if_neg bracket]
  by_cases two : ch = 0x32
  · rw [if_pos two]
    exact broken [0x1b, 0x5b] _ (by rw [two]; rfl)
  rw [if_neg two]
  by_cases zero : ch = 0x30
  · rw [if_pos zero]
    exact broken [0x1b, 0x5b, 0x32] _ (by rw [zero]; rfl)
  rw [if_neg zero]
  by_cases one : ch = 0x31
  · rw [if_pos one]
    exact broken [0x1b, 0x5b, 0x32, 0x30] _ (by rw [one]; rfl)
  rw [if_neg one]
  by_cases tilde : ch = 0x7e
  · rw [if_pos tilde]
    exact broken [0x1b, 0x5b, 0x32, 0x30, 0x31] _ (by rw [tilde]; rfl)
  rw [if_neg tilde]
  exact dispatched

/-- A character that goes on with the end of the paste is held back. -/
theorem dispatchChar_held (cb : Callbacks σ ε) {p : EscapeCodeParser} {held todo : List UInt32}
    (h : Held held p) {ch : UInt32} (goesOn : held ++ ch :: todo = pasteEnd) (more : todo ≠ [])
    (s : σ) :
    p.dispatchChar cb ch s = ({ p with bracketedPasteBuffer := held ++ [ch] }, s, none) := by
  have buffer := h.buffer
  have keeps : ch ≠ 0x7e → p.handleCh cb ch held s =
      ({ p with bracketedPasteBuffer := held ++ [ch] }, s, none) := by
    intro other
    rw [handleCh, if_pos buffer, if_neg other, buffer]
  have cases_ : (held = [] ∧ ch = 0x1b) ∨ (held = [0x1b] ∧ ch = 0x5b) ∨
      (held = [0x1b, 0x5b] ∧ ch = 0x32) ∨ (held = [0x1b, 0x5b, 0x32] ∧ ch = 0x30) ∨
      (held = [0x1b, 0x5b, 0x32, 0x30] ∧ ch = 0x31) := by
    unfold pasteEnd at goesOn
    match held, goesOn with
    | [], e => simp_all
    | [_], e => simp_all
    | [_, _], e => simp_all
    | [_, _, _], e => simp_all
    | [_, _, _, _], e => simp_all
    | [_, _, _, _, _], e => simp_all
    | _ :: _ :: _ :: _ :: _ :: _ :: _, e => simp_all
  rw [dispatchChar, if_pos h.state]
  rcases cases_ with ⟨rfl, rfl⟩ | ⟨rfl, rfl⟩ | ⟨rfl, rfl⟩ | ⟨rfl, rfl⟩ | ⟨rfl, rfl⟩
  · exact keeps (by decide)
  · exact keeps (by decide)
  · exact keeps (by decide)
  · exact keeps (by decide)
  · exact keeps (by decide)

/-- A character in a paste. -/
theorem parse_pasted {p q : EscapeCodeParser} {held : List UInt32} (h : Held held p)
    {bytes : Bytes} {ch : UInt32} {s t : σ} (decodes : Decodes utf8Accept p.utf8Codep bytes ch)
    (dispatched : { p with utf8State := utf8Accept, utf8Codep := ch }.dispatchChar cb ch s =
      (q, t, none)) : p.parse cb bytes s = (q, t, none) := by
  rw [← h.utf8State] at decodes
  exact parse_decodes (.inr h.state) decodes dispatched

theorem decodes_ascii (codep : UInt32) {n : Nat} (ascii : n < 0x80) :
    Decodes utf8Accept codep [UInt8.ofNat n] (UInt32.ofNat n) := by
  rw [Decodes, decodeUtf8_lead _ (by omega), if_pos ascii]

/-- The parser behind the last byte of a character. -/
def readChar (p : EscapeCodeParser) (ch : UInt32) : EscapeCodeParser :=
  { p with utf8State := utf8Accept, utf8Codep := ch }

theorem held_readChar {p : EscapeCodeParser} {held : List UInt32} (h : Held held p) (ch : UInt32) :
    Held held (readChar p ch) := ⟨h.state, rfl, h.buffer⟩

theorem held_buffer {p : EscapeCodeParser} {held : List UInt32} (h : Held held p)
    (after : List UInt32) : Held after { p with bracketedPasteBuffer := after } :=
  ⟨h.state, h.utf8State, rfl⟩

/-- The start of a bracketed paste calls no handler. -/
theorem parse_pasteStart (cb : Callbacks σ ε) {p : EscapeCodeParser} (idle : Idle p)
    (sevenBit : Bool) (s : σ) :
    ∃ q, p.parse cb (introBytes .csi sevenBit ++ bracketedPasteStart) s = (q, s, none) ∧
      Held [] q := by
  obtain ⟨mid, started, state, csiState, collects⟩ := parse_intro cb idle .csi sevenBit
    (fun h => nomatch h) s
  have digits : ∀ b ∈ ([0x32, 0x30, 0x30] : Bytes), 0x30 ≤ b ∧ b ≤ 0x3f :=
    forall_mem_of_all (by decide)
  have params := parse_csiParams cb state csiState digits s
  rw [collects.buffer] at params
  obtain ⟨late, hlate⟩ : ∃ late, late =
      { mid with currentBuffer := [] ++ [0x32, 0x30, 0x30] } := ⟨_, rfl⟩
  rw [← hlate] at params
  have ended : late.parse cb [0x7e] s =
      ({ (late.writeCh 0x7e).resetState with state := .bracketedPaste }, s, none) := by
    apply parse_singleton
    apply parseByte_csi
    · rw [hlate]
      exact state
    · have isStart : (late.writeCh 0x7e).state = .csi ∧
          (late.writeCh 0x7e).currentBuffer = bracketedPasteStart := by
        rw [hlate]
        exact ⟨state, rfl⟩
      have final : csiType 0x7e = .finalCsiChar := csiType_final (by decide)
      have ends : (late.writeCh 0x7e).dispatchEscCode cb s =
          ({ (late.writeCh 0x7e).resetState with state := .bracketedPaste }, s, none) := by
        rw [dispatchEscCode, if_pos isStart]
      rw [dispatchByteCsi]
      cases (late.writeCh 0x7e).csiState with
      | parameter => simp only [final, ends]
      | intermediate => simp only [final, ends]
  exact ⟨_, (parse_append started).trans ((parse_append params).trans ended), rfl, rfl, rfl⟩

/-- A character of the pasted text. -/
theorem parse_pasteChar (acts : Acts cb effect) {p : EscapeCodeParser} (h : Held [] p) {c : Char}
    (esc : c ≠ '\x1b') (s : σ) :
    ∃ q, p.parse cb (String.utf8EncodeChar c) s = (q, effect s (.rune c.val), none) ∧
      Held [] q := by
  have other : ∀ todo, [] ++ c.val :: todo ≠ pasteEnd := by
    intro todo same
    have first : c.val = '\x1b'.val := (List.cons.inj same).1
    exact esc (Char.ext first)
  have read := held_readChar h c.val
  exact ⟨_, parse_pasted h (decodes_utf8EncodeChar c p.utf8Codep)
    (dispatchChar_breaks acts read other s), held_buffer read []⟩

/-- A byte that goes on with the end of the paste. -/
theorem parse_heldByte (cb : Callbacks σ ε) {p : EscapeCodeParser} {held todo : List UInt32}
    (h : Held held p) {n : Nat} (ascii : n < 0x80)
    (goesOn : held ++ UInt32.ofNat n :: todo = pasteEnd) (more : todo ≠ []) (s : σ) :
    ∃ q, p.parse cb [UInt8.ofNat n] s = (q, s, none) ∧ Held (held ++ [UInt32.ofNat n]) q := by
  have read := held_readChar h (UInt32.ofNat n)
  exact ⟨_, parse_pasted h (decodes_ascii p.utf8Codep ascii)
    (dispatchChar_held cb read goesOn more s), held_buffer read _⟩

/-- A byte that does not. -/
theorem parse_breakingByte (acts : Acts cb effect) {p : EscapeCodeParser} {held : List UInt32}
    (h : Held held p) {n : Nat} (ascii : n < 0x80)
    (other : ∀ todo, held ++ UInt32.ofNat n :: todo ≠ pasteEnd) (s : σ) :
    ∃ q, p.parse cb [UInt8.ofNat n] s =
      (q, runes effect s (held ++ [UInt32.ofNat n]), none) := by
  have read := held_readChar h (UInt32.ofNat n)
  exact ⟨_, parse_pasted h (decodes_ascii p.utf8Codep ascii)
    (dispatchChar_breaks acts read other s)⟩

/-- The end of a paste calls no handler when none is set. -/
theorem parse_pasteEnd (cb : Callbacks σ ε) (silent : cb.handleEndOfBracketedPaste = none)
    {p : EscapeCodeParser} (h : Held [] p) (s : σ) :
    ∃ q, p.parse cb [0x1b, 0x5b, 0x32, 0x30, 0x31, 0x7e] s = (q, s, none) ∧ Idle q := by
  obtain ⟨q1, first, h1⟩ := parse_heldByte cb h (n := 0x1b) (by decide) rfl
    (List.cons_ne_nil _ _) s
  obtain ⟨q2, second, h2⟩ := parse_heldByte cb h1 (n := 0x5b) (by decide) rfl
    (List.cons_ne_nil _ _) s
  obtain ⟨q3, third, h3⟩ := parse_heldByte cb h2 (n := 0x32) (by decide) rfl
    (List.cons_ne_nil _ _) s
  obtain ⟨q4, fourth, h4⟩ := parse_heldByte cb h3 (n := 0x30) (by decide) rfl
    (List.cons_ne_nil _ _) s
  obtain ⟨q5, fifth, h5⟩ := parse_heldByte cb h4 (n := 0x31) (by decide) rfl
    (List.cons_ne_nil _ _) s
  have ended : q5.parse cb [UInt8.ofNat 0x7e] s =
      ((readChar q5 (UInt32.ofNat 0x7e)).resetState, s, none) := by
    apply parse_pasted h5 (decodes_ascii q5.utf8Codep (by decide))
    have buffer : (readChar q5 (UInt32.ofNat 0x7e)).bracketedPasteBuffer =
        [0x1b, 0x5b, 0x32, 0x30, 0x31] := h5.buffer
    have handled : (readChar q5 (UInt32.ofNat 0x7e)).handleCh cb (UInt32.ofNat 0x7e)
        [0x1b, 0x5b, 0x32, 0x30, 0x31] s =
        ((readChar q5 (UInt32.ofNat 0x7e)).resetState, s, none) := by
      rw [handleCh, if_pos buffer, if_pos (by decide)]
      simp only [silent]
    exact (if_pos h5.state).trans handled
  have whole := (parse_append first).trans ((parse_append second).trans ((parse_append third).trans
    ((parse_append fourth).trans ((parse_append fifth).trans ended))))
  exact ⟨(readChar q5 (UInt32.ofNat 0x7e)).resetState, whole, resetState_idle _⟩

/-- The bytes between the start of a CSI code and its end. -/
def CsiBody (body : List Nat) : Prop :=
  ∃ middle final, body = middle ++ [final] ∧ (∀ n ∈ middle, 0x20 ≤ n ∧ n ≤ 0x3f) ∧
    0x40 ≤ final ∧ final ≤ 0x7e

theorem CsiBody.cons {n : Nat} {rest : List Nat} (h : CsiBody (n :: rest)) :
    n < 0x80 ∧ ((rest = [] ∧ 0x40 ≤ n) ∨ (n ≤ 0x3f ∧ CsiBody rest)) := by
  obtain ⟨middle, final, same, inside, low, high⟩ := h
  cases middle with
  | nil =>
    obtain ⟨rfl, rfl⟩ := List.cons.inj same
    exact ⟨by omega, .inl ⟨rfl, low⟩⟩
  | cons m middle =>
    obtain ⟨rfl, rfl⟩ := List.cons.inj same
    have first := inside n List.mem_cons_self
    exact ⟨by omega, .inr ⟨first.2, middle, final, rfl,
      fun k mem => inside k (List.mem_cons_of_mem _ mem), low, high⟩⟩

theorem CsiBody.ne_nil {body : List Nat} (h : CsiBody body) : body ≠ [] := by
  obtain ⟨middle, final, rfl, -⟩ := h
  exact List.append_ne_nil_of_right_ne_nil _ (List.cons_ne_nil _ _)

theorem ofNat_inj {n m : Nat} (small : n < 0x80) (known : m < 0x80)
    (h : UInt32.ofNat n = UInt32.ofNat m) : n = m := by
  have values := congrArg UInt32.toNat h
  rw [UInt32.toNat_ofNat', UInt32.toNat_ofNat'] at values
  omega

/-- A code in a paste that does not end it breaks off the end of the paste somewhere, and then all
that was held back is dispatched. -/
theorem parse_brokenCode (acts : Acts cb effect) {front : List Nat} {p : EscapeCodeParser}
    {held : List UInt32} (h : Held held p)
    (goesOn : held ++ (front ++ [0x7e]).map UInt32.ofNat = pasteEnd)
    (early : ∀ n ∈ front, n ≤ 0x3f) {body : List Nat} (isBody : CsiBody body)
    (other : body ≠ front ++ [0x7e]) (s : σ) :
    ∃ pre post more q, body = pre ++ post ∧
      p.parse cb (pre.map UInt8.ofNat) s = (q, runes effect s (held ++ more), none) := by
  induction front generalizing p held body with
  | nil =>
    cases body with
    | nil => exact absurd rfl isBody.ne_nil
    | cons n rest =>
      obtain ⟨ascii, final | ⟨low, -⟩⟩ := isBody.cons
      · have ne : n ≠ 0x7e := by
          rintro rfl
          exact other (by rw [final.1]; rfl)
        obtain ⟨q, parsed⟩ := parse_breakingByte acts h ascii (fun todo same => by
          have tails := List.append_cancel_left (same.trans goesOn.symm)
          exact ne (ofNat_inj ascii (by decide) (List.cons.inj tails).1)) s
        exact ⟨[n], rest, [UInt32.ofNat n], q, rfl, parsed⟩
      · obtain ⟨q, parsed⟩ := parse_breakingByte acts h ascii (fun todo same => by
          have tails := List.append_cancel_left (same.trans goesOn.symm)
          have eq := ofNat_inj ascii (by decide) (List.cons.inj tails).1
          omega) s
        exact ⟨[n], rest, [UInt32.ofNat n], q, rfl, parsed⟩
  | cons e front ih =>
    have small := early e List.mem_cons_self
    cases body with
    | nil => exact absurd rfl isBody.ne_nil
    | cons n rest =>
      obtain ⟨ascii, shape⟩ := isBody.cons
      by_cases same : n = e
      · subst same
        obtain ⟨q, parsed, held'⟩ := parse_heldByte cb h ascii goesOn (by simp) s
        obtain ⟨-, high⟩ | ⟨-, restBody⟩ := shape
        · omega
        · have goesOn' : held ++ [UInt32.ofNat n] ++ (front ++ [0x7e]).map UInt32.ofNat =
              pasteEnd := by
            rw [List.append_assoc]
            exact goesOn
          obtain ⟨pre, post, more, last, split, parsedRest⟩ := ih held' goesOn'
            (fun m mem => early m (List.mem_cons_of_mem _ mem)) restBody
            (fun eq => other (by rw [eq]; rfl))
          refine ⟨n :: pre, post, UInt32.ofNat n :: more, last, by rw [split]; rfl, ?_⟩
          rw [List.append_assoc] at parsedRest
          exact (parse_append parsed).trans parsedRest
      · obtain ⟨q, parsed⟩ := parse_breakingByte acts h ascii (fun todo eq => by
          have tails := List.append_cancel_left (eq.trans goesOn.symm)
          exact same (ofNat_inj ascii (by omega) (List.cons.inj tails).1)) s
        exact ⟨[n], rest, [UInt32.ofNat n], q, rfl, parsed⟩

end Calls

end Wcswidth

end Smelly
