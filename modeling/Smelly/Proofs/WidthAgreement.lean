/-
Module: Smelly.Proofs.WidthAgreement
Purpose: For which texts with escape codes the terminal and the tools count the same width.
Trusted boundary: none
-/
import Smelly.Core.WcWidthIterator
import Smelly.Lib.Lockstep
import Smelly.Proofs.EscapeCodePaste

namespace Smelly

namespace Wcswidth

open Utf8 EscapeCodeParser Lockstep

variable {t : WidthTables}

/-- What the tables say of the flags and of printable ASCII. -/
structure WidthTables.Standard (t : WidthTables) : Prop where
  flag : ∀ ch, isFlagCodepoint ch = true → t.wcwidthStd ch = 2
  ascii : ∀ ch : UInt32, 0x20 ≤ ch → ch ≤ 0x7e → t.wcwidthStd ch = 1

/-! ### Text with codes in it -/

namespace StreamItem

/-- A piece that both sides measure: a character that is no ESC and no C1 control, a CSI code other
than REP, or an OSC, DCS, APC or PM string ended by ST. -/
def Measured : StreamItem → Prop
  | text c => c ≠ '\x1b' ∧ ¬(0x80 ≤ c.val.toNat ∧ c.val.toNat < 0xa0)
  | csi sevenBit params intermediates final =>
    sevenBit = true ∧ (∀ b ∈ params, 0x30 ≤ b ∧ b ≤ 0x3f) ∧
      (∀ b ∈ intermediates, 0x20 ≤ b ∧ b ≤ 0x2f) ∧ (0x40 ≤ final ∧ final ≤ 0x7e) ∧ final ≠ 0x62
  | string kind sevenBit payload terminator =>
    sevenBit = true ∧ kind ≠ .csi ∧ kind ≠ .sos ∧ terminator ≠ .bel ∧ StringPayload kind payload
  | twoChar _ => False

/-- The character of an ASCII byte. -/
def ofByte (b : UInt8) : Char := Char.ofNat b.toNat

def terminatorChars : Terminator → List Char
  | .st => ['\x1b', '\\']
  | .c1St => ['\u009c']
  | .bel => ['\x07']

/-- The characters of a piece. -/
def chars : StreamItem → List Char
  | text c => [c]
  | csi _ params intermediates final =>
    '\x1b' :: '[' :: (params ++ intermediates ++ [final]).map ofByte
  | string kind _ payload terminator =>
    '\x1b' :: ofByte kind.introByte :: (payload ++ terminatorChars terminator)
  | twoChar code => ['\x1b', ofByte code]

/-- What stands between the start of a CSI code and its end. -/
def csiBody : StreamItem → Option Bytes
  | csi _ params intermediates final => some (params ++ intermediates ++ [final])
  | _ => none

end StreamItem

/-- `201~`. -/
def bracketedPasteEnd : Bytes := [0x32, 0x30, 0x31, 0x7e]

/-- What counts of the text before a character: the last character and its columns, whether it is the
first of a flag, whether a code stands behind it, and whether a paste is open. -/
structure TextContext where
  prev : UInt32 := 0
  last : Int := 0
  flagOpen : Bool := false
  coded : Bool := false
  paste : Bool := false

/-- The columns of a character on its own. -/
def columns (t : WidthTables) (ch : UInt32) : Int :=
  if t.wcwidthStd ch = -1 ∨ t.wcwidthStd ch = 0 then 0 else if t.wcwidthStd ch = 2 then 2 else 1

/-- A zero-width character or a variation selector. -/
def IsMark (t : WidthTables) (ch : Char) : Prop :=
  ch.val = 0xfe0f ∨ ch.val = 0xfe0e ∨ columns t ch.val = 0

namespace TextContext

/-- The columns of the last character of the text with this one behind it. -/
def lastWith (t : WidthTables) (c : TextContext) (ch : UInt32) : Int :=
  if c.flagOpen ∧ isFlagCodepoint ch then c.last
  else if ch = 0xfe0f then if t.isEmojiPresentationBase c.prev ∧ c.last = 1 then 2 else 0
  else if ch = 0xfe0e then if t.isEmojiPresentationBase c.prev ∧ c.last = 2 then 1 else 0
  else columns t ch

/-- The columns that this character adds to the text. -/
def gain (t : WidthTables) (c : TextContext) (ch : UInt32) : Int :=
  if c.flagOpen ∧ isFlagCodepoint ch then 0
  else if ch = 0xfe0f then if t.isEmojiPresentationBase c.prev ∧ c.last = 1 then 1 else 0
  else if ch = 0xfe0e then if t.isEmojiPresentationBase c.prev ∧ c.last = 2 then -1 else 0
  else columns t ch

/-- The context behind a piece. -/
def next (t : WidthTables) (c : TextContext) : StreamItem → TextContext
  | .text ch =>
    { c with
      prev := ch.val
      last := c.lastWith t ch.val
      flagOpen := isFlagCodepoint ch.val && !c.flagOpen
      coded := false }
  | item =>
    { c with
      coded := true
      paste := decide (item.csiBody = some bracketedPasteStart) ||
        c.paste && !decide (item.csiBody = some bracketedPasteEnd) }

/-- Behind a code, the character completes nothing from before the code: neither an emoji with its
presentation selector nor a flag. -/
def Separate (t : WidthTables) (c : TextContext) (ch : UInt32) : Prop :=
  c.coded = true →
    ¬(ch = 0xfe0f ∧ t.isEmojiPresentationBase c.prev = true ∧ c.last = 1) ∧
      ¬(ch = 0xfe0e ∧ t.isEmojiPresentationBase c.prev = true ∧ c.last = 2) ∧
      ¬(c.flagOpen = true ∧ isFlagCodepoint ch = true)

/-- A character without a width stands behind no columns. -/
def Visible (t : WidthTables) (c : TextContext) (ch : UInt32) : Prop :=
  ch ≠ 0xfe0f → ch ≠ 0xfe0e → t.wcwidthStd ch = -1 → c.last = 0

/-- The condition on a piece: a character is separate and visible, and a code in a paste ends it. -/
def Agrees (t : WidthTables) (c : TextContext) : StreamItem → Prop
  | .text ch => c.Separate t ch.val ∧ c.Visible t ch.val
  | item => c.paste = true → item.csiBody = some bracketedPasteEnd

/-- The first character of a flag is one, and columns are not negative. -/
structure Sound (c : TextContext) : Prop where
  flag : c.flagOpen = true → isFlagCodepoint c.prev = true
  last : 0 ≤ c.last

end TextContext

theorem columns_nonneg (t : WidthTables) (ch : UInt32) : 0 ≤ columns t ch := by
  rw [columns]
  split
  · decide
  · split <;> decide

theorem TextContext.Sound.next {c : TextContext} (h : c.Sound) (item : StreamItem) :
    (c.next t item).Sound := by
  cases item with
  | text ch =>
    constructor
    · intro opened
      simp only [TextContext.next, Bool.and_eq_true] at opened
      exact opened.1
    · simp only [TextContext.next, TextContext.lastWith]
      have last := h.last
      have own := columns_nonneg t ch.val
      all_goals omega
  | csi sevenBit params intermediates final => exact ⟨h.flag, h.last⟩
  | string kind sevenBit payload terminator => exact ⟨h.flag, h.last⟩
  | twoChar code => exact ⟨h.flag, h.last⟩

/-! ### The terminal -/

/-- The state of the scanner of the terminal between two pieces. -/
structure TerminalAt (c : TextContext) (s : WCSState) : Prop where
  parserState : s.parserState = .normal ∨ s.parserState = .flagPairStarted
  coded : c.coded = true → s.prevWidth = 0 ∧ s.parserState = .normal
  uncoded : c.coded = false → s.prevCh = c.prev ∧ s.prevWidth = c.last ∧
    (s.parserState = .flagPairStarted ↔ c.flagOpen = true)

/-- A step of the scanner between two pieces. -/
theorem wcswidthStep_between {s : WCSState} {ch : UInt32}
    (state : s.parserState = .normal ∨ s.parserState = .flagPairStarted) :
    wcswidthStep t s ch =
      if s.parserState = .flagPairStarted ∧ isFlagPair s.prevCh ch = true then
        ({ s with prevCh := ch, parserState := .normal }, 0)
      else
        ({ (stepNormal t { s with parserState := .normal } ch).1 with prevCh := ch },
          (stepNormal t { s with parserState := .normal } ch).2) := by
  obtain ⟨prevCh, prevWidth, parserState⟩ := s
  obtain normal | flag := state
  · cases normal
    rfl
  · cases flag
    by_cases pair : isFlagPair prevCh ch = true
    · rw [if_pos ⟨rfl, pair⟩]
      simp only [wcswidthStep, if_pos pair]
    · rw [if_neg (fun h => pair h.2)]
      simp only [wcswidthStep, if_neg pair]

/-- What the scanner makes of a character that is no ESC, from a state in which no flag is open. -/
theorem stepNormal_text {s : WCSState} {ch : UInt32} (esc : ch ≠ 0x1b)
    (state : s.parserState = .normal) :
    stepNormal t s ch =
      if ch = 0xfe0f then
        if t.isEmojiPresentationBase s.prevCh = true ∧ s.prevWidth = 1 then
          ({ s with prevWidth := 2 }, 1)
        else ({ s with prevWidth := 0 }, 0)
      else if ch = 0xfe0e then
        if t.isEmojiPresentationBase s.prevCh = true ∧ s.prevWidth = 2 then
          ({ s with prevWidth := 1 }, -1)
        else ({ s with prevWidth := 0 }, 0)
      else
        ({ s with
            parserState := if isFlagCodepoint ch then .flagPairStarted else .normal
            prevWidth := columns t ch }, columns t ch) := by
  rw [stepNormal, if_neg esc]
  split
  · rfl
  · split
    · rfl
    · obtain ⟨prevCh, prevWidth, parserState⟩ := s
      cases state
      cases isFlagCodepoint ch <;> rfl

/-- What the flag of the context is behind a character that closes no flag. -/
theorem TextContext.flagOpen_next {c : TextContext} {ch : Char}
    (single : ¬(c.flagOpen = true ∧ isFlagCodepoint ch.val = true)) :
    (c.next t (.text ch)).flagOpen = isFlagCodepoint ch.val := by
  cases opened : c.flagOpen with
  | false => simp [TextContext.next, opened]
  | true =>
    have noFlag : isFlagCodepoint ch.val = false := by
      cases isFlag : isFlagCodepoint ch.val with
      | false => rfl
      | true => exact absurd ⟨opened, isFlag⟩ single
    simp [TextContext.next, noFlag]

theorem selector_noFlag {ch : UInt32} (selector : ch = 0xfe0f ∨ ch = 0xfe0e) :
    isFlagCodepoint ch = false := by
  rcases selector with rfl | rfl <;> decide

theorem flag_ne_selector {ch : UInt32} (h : isFlagCodepoint ch = true) :
    ch ≠ 0xfe0f ∧ ch ≠ 0xfe0e := by
  constructor <;> (rintro rfl; exact absurd h (by decide))

/-- The scanner behind text: it counts what the character gains. -/
theorem terminal_uncoded {c : TextContext} {s : WCSState} (sound : c.Sound)
    (h : TerminalAt c s) (uncoded : c.coded = false) {ch : Char} (esc : ch ≠ '\x1b') :
    (wcswidthStep t s ch.val).2 = c.gain t ch.val ∧
      TerminalAt (c.next t (.text ch)) (wcswidthStep t s ch.val).1 := by
  obtain ⟨prevCh, prevWidth, flag⟩ := h.uncoded uncoded
  have escVal : ch.val ≠ 0x1b := fun same => esc (Char.ext same)
  have pairIff : (s.parserState = .flagPairStarted ∧ isFlagPair s.prevCh ch.val = true) ↔
      (c.flagOpen = true ∧ isFlagCodepoint ch.val = true) := by
    rw [flag, prevCh, isFlagPair, Bool.and_eq_true]
    exact ⟨fun h => ⟨h.1, h.2.2⟩, fun h => ⟨h.1, sound.flag h.1, h.2⟩⟩
  rw [wcswidthStep_between h.parserState, TextContext.gain]
  by_cases pair : c.flagOpen = true ∧ isFlagCodepoint ch.val = true
  · rw [if_pos (pairIff.2 pair), if_pos pair]
    refine ⟨rfl, .inl rfl, fun coded => (nomatch coded), fun _ => ⟨rfl, ?_, ?_⟩⟩
    · rw [TextContext.next, TextContext.lastWith, if_pos pair]
      exact prevWidth
    · simp [TextContext.next, pair.1]
  · rw [if_neg (fun h => pair (pairIff.1 h)), if_neg pair, stepNormal_text escVal rfl]
    have flagOpen := TextContext.flagOpen_next (t := t) pair
    have last : (c.next t (.text ch)).last = c.lastWith t ch.val := rfl
    rw [TextContext.lastWith, if_neg pair] at last
    have closed : ch.val = 0xfe0f ∨ ch.val = 0xfe0e → (c.next t (.text ch)).flagOpen = false :=
      fun selector => flagOpen.trans (selector_noFlag selector)
    by_cases emoji : ch.val = 0xfe0f
    · rw [if_pos emoji, if_pos emoji]
      rw [if_pos emoji] at last
      simp only [prevCh, prevWidth]
      have noFlag := closed (.inl emoji)
      split
      · rename_i widens
        rw [if_pos widens] at last
        exact ⟨rfl, .inl rfl, fun coded => (nomatch coded),
          fun _ => ⟨rfl, last.symm, by simp [noFlag]⟩⟩
      · rename_i keeps
        rw [if_neg keeps] at last
        exact ⟨rfl, .inl rfl, fun coded => (nomatch coded),
          fun _ => ⟨rfl, last.symm, by simp [noFlag]⟩⟩
    · rw [if_neg emoji, if_neg emoji]
      rw [if_neg emoji] at last
      by_cases text : ch.val = 0xfe0e
      · rw [if_pos text, if_pos text]
        rw [if_pos text] at last
        simp only [prevCh, prevWidth]
        have noFlag := closed (.inr text)
        split
        · rename_i narrows
          rw [if_pos narrows] at last
          exact ⟨rfl, .inl rfl, fun coded => (nomatch coded),
            fun _ => ⟨rfl, last.symm, by simp [noFlag]⟩⟩
        · rename_i keeps
          rw [if_neg keeps] at last
          exact ⟨rfl, .inl rfl, fun coded => (nomatch coded),
            fun _ => ⟨rfl, last.symm, by simp [noFlag]⟩⟩
      · rw [if_neg text, if_neg text]
        rw [if_neg text] at last
        refine ⟨rfl, ?_, fun coded => (nomatch coded), fun _ => ⟨rfl, last.symm, ?_⟩⟩
        · cases isFlagCodepoint ch.val
          · exact .inl rfl
          · exact .inr rfl
        · rw [flagOpen]
          cases isFlagCodepoint ch.val <;> simp

/-- The columns of a character of which nothing before counts. -/
def freshColumns (t : WidthTables) (ch : UInt32) : Int :=
  if ch = 0xfe0f ∨ ch = 0xfe0e then 0 else columns t ch

theorem wcswidthStep_fresh {s : WCSState} {ch : UInt32} (esc : ch ≠ 0x1b)
    (width : s.prevWidth = 0) (state : s.parserState = .normal) :
    wcswidthStep t s ch =
      ({ prevCh := ch
         prevWidth := freshColumns t ch
         parserState := if isFlagCodepoint ch then .flagPairStarted else .normal },
        freshColumns t ch) := by
  have notOpen : ¬(s.parserState = .flagPairStarted ∧ isFlagPair s.prevCh ch = true) := by
    rw [state]
    exact fun h => nomatch h.1
  rw [wcswidthStep_between (.inl state), if_neg notOpen, stepNormal_text esc rfl, freshColumns]
  simp only [width]
  by_cases emoji : ch = 0xfe0f
  · rw [if_pos emoji, if_pos (Or.inl emoji), if_neg (fun h => absurd h.2 (by decide)),
      selector_noFlag (.inl emoji)]
    rfl
  · rw [if_neg emoji]
    by_cases text : ch = 0xfe0e
    · rw [if_pos text, if_pos (Or.inr text), if_neg (fun h => absurd h.2 (by decide)),
        selector_noFlag (.inr text)]
      rfl
    · rw [if_neg text, if_neg (not_or.2 ⟨emoji, text⟩)]

/-- A character that completes nothing counts as if nothing were before it. -/
theorem TextContext.gain_fresh {c : TextContext} {ch : UInt32} (coded : c.coded = true)
    (separate : c.Separate t ch) :
    c.gain t ch = freshColumns t ch ∧ c.lastWith t ch = freshColumns t ch ∧
      (isFlagCodepoint ch && !c.flagOpen) = isFlagCodepoint ch := by
  obtain ⟨widens, narrows, pair⟩ := separate coded
  refine ⟨?_, ?_, ?_⟩
  · rw [TextContext.gain, if_neg pair, freshColumns]
    by_cases emoji : ch = 0xfe0f
    · rw [if_pos emoji, if_neg (fun h => widens ⟨emoji, h⟩), if_pos (.inl emoji)]
    · rw [if_neg emoji]
      by_cases text : ch = 0xfe0e
      · rw [if_pos text, if_neg (fun h => narrows ⟨text, h⟩), if_pos (.inr text)]
      · rw [if_neg text, if_neg (not_or.2 ⟨emoji, text⟩)]
  · rw [TextContext.lastWith, if_neg pair, freshColumns]
    by_cases emoji : ch = 0xfe0f
    · rw [if_pos emoji, if_neg (fun h => widens ⟨emoji, h⟩), if_pos (.inl emoji)]
    · rw [if_neg emoji]
      by_cases text : ch = 0xfe0e
      · rw [if_pos text, if_neg (fun h => narrows ⟨text, h⟩), if_pos (.inr text)]
      · rw [if_neg text, if_neg (not_or.2 ⟨emoji, text⟩)]
  · cases isFlag : isFlagCodepoint ch with
    | false => rfl
    | true =>
      cases opened : c.flagOpen with
      | false => rfl
      | true => exact absurd ⟨opened, isFlag⟩ pair

/-- A character that completes something from before a code gains other columns. -/
theorem TextContext.gain_ne_fresh (standard : t.Standard) {c : TextContext} {ch : UInt32}
    (joined : ¬c.Separate t ch) : freshColumns t ch ≠ c.gain t ch := by
  intro same
  apply joined
  intro _
  refine ⟨?_, ?_, ?_⟩
  · rintro ⟨rfl, widens⟩
    have notFlag : ¬(c.flagOpen = true ∧ isFlagCodepoint 0xfe0f = true) :=
      fun h => absurd h.2 (by decide)
    rw [TextContext.gain, if_neg notFlag, if_pos rfl, if_pos widens, freshColumns,
      if_pos (.inl rfl)] at same
    exact absurd same (by decide)
  · rintro ⟨rfl, narrows⟩
    have notFlag : ¬(c.flagOpen = true ∧ isFlagCodepoint 0xfe0e = true) :=
      fun h => absurd h.2 (by decide)
    rw [TextContext.gain, if_neg notFlag, if_neg (by decide), if_pos rfl, if_pos narrows,
      freshColumns, if_pos (.inr rfl)] at same
    exact absurd same (by decide)
  · intro pair
    obtain ⟨ne15, ne16⟩ := flag_ne_selector pair.2
    rw [TextContext.gain, if_pos pair, freshColumns, if_neg (not_or.2 ⟨ne15, ne16⟩), columns,
      standard.flag ch pair.2] at same
    exact absurd same (by decide)

/-- The scanner behind a code: it counts what the character gains if the character is separate, and
something else if it is not. -/
theorem terminal_coded {c : TextContext} {s : WCSState} (h : TerminalAt c s)
    (coded : c.coded = true) {ch : Char} (esc : ch ≠ '\x1b') (separate : c.Separate t ch.val) :
    (wcswidthStep t s ch.val).2 = c.gain t ch.val ∧
      TerminalAt (c.next t (.text ch)) (wcswidthStep t s ch.val).1 := by
  obtain ⟨width, state⟩ := h.coded coded
  have escVal : ch.val ≠ 0x1b := fun same => esc (Char.ext same)
  obtain ⟨gain, last, flagOpen⟩ := TextContext.gain_fresh coded separate
  rw [wcswidthStep_fresh escVal width state]
  refine ⟨gain.symm, ?_, fun coded => (nomatch coded), fun _ => ⟨rfl, last.symm, ?_⟩⟩
  · cases isFlagCodepoint ch.val
    · exact .inl rfl
    · exact .inr rfl
  · rw [TextContext.next]
    simp only [flagOpen]
    cases isFlagCodepoint ch.val <;> simp

/-- What the scanner adds for a character of the text. -/
theorem terminal_text (standard : t.Standard) {c : TextContext} {s : WCSState} (sound : c.Sound)
    (h : TerminalAt c s) {ch : Char} (esc : ch ≠ '\x1b') :
    (c.Separate t ch.val → (wcswidthStep t s ch.val).2 = c.gain t ch.val ∧
        TerminalAt (c.next t (.text ch)) (wcswidthStep t s ch.val).1) ∧
      (¬c.Separate t ch.val → (wcswidthStep t s ch.val).2 ≠ c.gain t ch.val) := by
  cases coded : c.coded with
  | false =>
    refine ⟨fun _ => terminal_uncoded sound h coded esc, fun joined => ?_⟩
    exact absurd (fun isCoded => nomatch coded.symm.trans isCoded) joined
  | true =>
    refine ⟨terminal_coded h coded esc, fun joined => ?_⟩
    obtain ⟨width, state⟩ := h.coded coded
    rw [wcswidthStep_fresh (fun same => esc (Char.ext same)) width state]
    exact TextContext.gain_ne_fresh standard joined

/-- The scanner over characters, between two pieces or inside one. -/
def scan (t : WidthTables) (s : WCSState) (text : List Char) : WCSState × Int :=
  wcswidthSteps t s (text.map Char.val)

theorem scan_append {s mid : WCSState} {first second : List Char} {width : Int}
    (h : scan t s first = (mid, width)) :
    scan t s (first ++ second) = ((scan t mid second).1, width + (scan t mid second).2) := by
  induction first generalizing s width with
  | nil =>
    cases h
    rw [List.nil_append, Int.zero_add]
  | cons c first ih =>
    have split : ∀ text, scan t s (c :: text) =
        ((scan t (wcswidthStep t s c.val).1 text).1,
          (wcswidthStep t s c.val).2 + (scan t (wcswidthStep t s c.val).1 text).2) :=
      fun _ => rfl
    rw [split] at h
    obtain ⟨rfl, rfl⟩ := Prod.mk.inj h
    rw [List.cons_append, split, ih rfl, Int.add_assoc]
    rfl

theorem scan_singleton (s : WCSState) (c : Char) :
    scan t s [c] = wcswidthStep t s c.val := by
  have whole : scan t s [c] =
      ((wcswidthStep t s c.val).1, (wcswidthStep t s c.val).2 + 0) := rfl
  rw [whole, Int.add_zero]

/-- The scanner behind an escape code. -/
structure Ended (s : WCSState) : Prop where
  prevWidth : s.prevWidth = 0
  parserState : s.parserState = .normal

/-- An ESC between two pieces. -/
theorem scan_esc {s : WCSState}
    (state : s.parserState = .normal ∨ s.parserState = .flagPairStarted) :
    scan t s ['\x1b'] = ({ prevCh := 0x1b, prevWidth := 0, parserState := .inEsc }, 0) := by
  have noFlag : ¬(s.parserState = .flagPairStarted ∧ isFlagPair s.prevCh '\x1b'.val = true) := by
    rintro ⟨-, pair⟩
    rw [isFlagPair, Bool.and_eq_true] at pair
    exact absurd pair.2 (by decide)
  rw [scan_singleton, wcswidthStep_between state, if_neg noFlag]
  rfl

/-- The parameters and intermediates of a CSI code. -/
theorem scan_csiMiddle {middle : List Char} {s : WCSState} (state : s.parserState = .inCsi)
    (low : ∀ c ∈ middle, c.val.toNat < 0x40) :
    ∃ q, scan t s middle = (q, 0) ∧ q.parserState = .inCsi := by
  induction middle generalizing s with
  | nil => exact ⟨s, rfl, state⟩
  | cons c middle ih =>
    have notFinal : ¬(0x40 ≤ c.val ∧ c.val ≤ 0x7e) := by
      rintro ⟨high, -⟩
      have small := low c List.mem_cons_self
      have large : 0x40 ≤ c.val.toNat := UInt32.le_iff_toNat_le.1 high
      omega
    have step : scan t s [c] =
        ({ prevCh := c.val, prevWidth := 0, parserState := .inCsi }, 0) := by
      rw [scan_singleton, wcswidthStep, state]
      simp only [if_neg notFinal]
    obtain ⟨q, rest, inside⟩ := ih (s := { prevCh := c.val, prevWidth := 0, parserState := .inCsi })
      rfl fun d mem => low d (List.mem_cons_of_mem _ mem)
    exact ⟨q, by rw [← List.singleton_append, scan_append step, rest]; rfl, inside⟩

theorem scan_csiFinal {s : WCSState} (state : s.parserState = .inCsi) {c : Char}
    (final : 0x40 ≤ c.val ∧ c.val ≤ 0x7e) : ∃ q, scan t s [c] = (q, 0) ∧ Ended q := by
  refine ⟨{ prevCh := c.val, prevWidth := 0, parserState := .normal }, ?_, rfl, rfl⟩
  rw [scan_singleton, wcswidthStep, state]
  simp only [if_pos final]

/-- The payload of a string, when the character before it is no ESC or does not go on. -/
theorem scan_payload {payload : List Char} {s : WCSState} (state : s.parserState = .inStTerminated)
    (st : ¬['\x1b', '\\'] <:+: payload) (c1St : '\u009c' ∉ payload)
    (before : s.prevCh = 0x1b → payload.head? ≠ some '\\') :
    ∃ q, scan t s payload = (q, 0) ∧ q.parserState = .inStTerminated := by
  induction payload generalizing s with
  | nil => exact ⟨s, rfl, state⟩
  | cons c payload ih =>
    have stays : ¬(c.val = 0x9c ∨ (c.val = 0x5c ∧ s.prevCh = 0x1b)) := by
      rintro (same | ⟨same, esc⟩)
      · have char : c = '\u009c' := Char.ext same
        exact c1St (char ▸ List.mem_cons_self)
      · have char : c = '\\' := Char.ext same
        exact before esc (by rw [char]; rfl)
    have step : scan t s [c] =
        ({ prevCh := c.val, prevWidth := 0, parserState := .inStTerminated }, 0) := by
      rw [scan_singleton, wcswidthStep, state]
      simp only [if_neg stays]
    obtain ⟨q, rest, inside⟩ := ih
      (s := { prevCh := c.val, prevWidth := 0, parserState := .inStTerminated }) rfl
      (fun infix_ => st (infix_.trans ⟨[c], [], by simp⟩))
      (fun mem => c1St (List.mem_cons_of_mem _ mem)) (by
        intro esc backslash
        have char : c = '\x1b' := Char.ext esc
        obtain ⟨rest, rfl⟩ := List.head?_eq_some_iff.1 backslash
        exact st ⟨[], rest, by rw [char]; rfl⟩)
    exact ⟨q, by rw [← List.singleton_append, scan_append step, rest]; rfl, inside⟩

/-- ST ends a string. -/
theorem scan_terminator {s : WCSState} (state : s.parserState = .inStTerminated)
    {terminator : Terminator} (notBel : terminator ≠ .bel) :
    ∃ q, scan t s (StreamItem.terminatorChars terminator) = (q, 0) ∧ Ended q := by
  cases terminator with
  | st =>
    have first : scan t s ['\x1b'] =
        ({ prevCh := 0x1b, prevWidth := 0, parserState := .inStTerminated }, 0) := by
      rw [scan_singleton, wcswidthStep, state]
      rfl
    exact ⟨{ prevCh := 0x5c, prevWidth := 0, parserState := .normal }, scan_append first, rfl, rfl⟩
  | c1St =>
    refine ⟨{ prevCh := 0x9c, prevWidth := 0, parserState := .normal }, ?_, rfl, rfl⟩
    rw [StreamItem.terminatorChars, scan_singleton, wcswidthStep, state]
    rfl
  | bel => exact absurd rfl notBel

theorem ofByte_val {b : UInt8} (ascii : b.toNat < 0x80) :
    (StreamItem.ofByte b).val.toNat = b.toNat := by
  have valid : b.toNat.isValidChar := .inl (by omega)
  rw [StreamItem.ofByte, Char.ofNat, dif_pos valid]
  rfl

/-- A measured code adds nothing in the terminal. -/
theorem terminal_code {s : WCSState}
    (state : s.parserState = .normal ∨ s.parserState = .flagPairStarted) {item : StreamItem}
    (measured : item.Measured) (code : ∀ c, item ≠ .text c) :
    ∃ q, scan t s item.chars = (q, 0) ∧ Ended q := by
  have esc := scan_esc (t := t) state
  cases item with
  | text c => exact absurd rfl (code c)
  | twoChar code => exact measured.elim
  | csi sevenBit params intermediates final =>
    obtain ⟨-, hparams, hintermediates, ⟨low, high⟩, -⟩ := measured
    have intro_ : scan t { prevCh := 0x1b, prevWidth := 0, parserState := .inEsc } ['['] =
        ({ prevCh := 0x5b, prevWidth := 0, parserState := .inCsi }, 0) := rfl
    have middleLow : ∀ c ∈ (params ++ intermediates).map StreamItem.ofByte,
        c.val.toNat < 0x40 := by
      intro c mem
      obtain ⟨b, inside, rfl⟩ := List.mem_map.1 mem
      have small : b.toNat ≤ 0x3f := by
        rcases List.mem_append.1 inside with isParam | isIntermediate
        · exact UInt8.le_iff_toNat_le.1 (hparams b isParam).2
        · have bound : b.toNat ≤ 0x2f := UInt8.le_iff_toNat_le.1 (hintermediates b isIntermediate).2
          omega
      rw [ofByte_val (by omega)]
      omega
    obtain ⟨mid, middle, inside⟩ := scan_csiMiddle (t := t)
      (s := { prevCh := 0x5b, prevWidth := 0, parserState := .inCsi }) rfl middleLow
    have finalHigh : final.toNat ≤ 0x7e := UInt8.le_iff_toNat_le.1 high
    have finalLow : 0x40 ≤ final.toNat := UInt8.le_iff_toNat_le.1 low
    have finalVal := ofByte_val (b := final) (by omega)
    obtain ⟨q, last, ended⟩ := scan_csiFinal (t := t) inside (c := StreamItem.ofByte final)
      ⟨UInt32.le_iff_toNat_le.2 (by rw [finalVal]; exact finalLow),
        UInt32.le_iff_toNat_le.2 (by rw [finalVal]; exact finalHigh)⟩
    refine ⟨q, ?_, ended⟩
    have split : (StreamItem.csi sevenBit params intermediates final).chars =
        ['\x1b'] ++ (['['] ++
          ((params ++ intermediates).map StreamItem.ofByte ++ [StreamItem.ofByte final])) := by
      rw [StreamItem.chars, List.map_append]
      rfl
    rw [split, scan_append esc, scan_append intro_, scan_append middle, last]
    rfl
  | string kind sevenBit payload terminator =>
    obtain ⟨-, notCsi, notSos, notBel, body⟩ := measured
    have intro_ : scan t { prevCh := 0x1b, prevWidth := 0, parserState := .inEsc }
        [StreamItem.ofByte kind.introByte] =
        ({ prevCh := (StreamItem.ofByte kind.introByte).val
           parserState := .inStTerminated }, 0) := by
      cases kind with
      | csi => exact absurd rfl notCsi
      | sos => exact absurd rfl notSos
      | osc => rfl
      | dcs => rfl
      | pm => rfl
      | apc => rfl
    obtain ⟨mid, scanned, inside⟩ := scan_payload (t := t)
      (s := { prevCh := (StreamItem.ofByte kind.introByte).val
              parserState := .inStTerminated }) rfl body.st body.c1St (by
        intro same
        cases kind <;> exact absurd same (by decide))
    obtain ⟨q, last, ended⟩ := scan_terminator (t := t) inside notBel
    refine ⟨q, ?_, ended⟩
    have split : (StreamItem.string kind sevenBit payload terminator).chars =
        ['\x1b'] ++ ([StreamItem.ofByte kind.introByte] ++
          (payload ++ StreamItem.terminatorChars terminator)) := rfl
    rw [split, scan_append esc, scan_append intro_, scan_append scanned, last]
    rfl

/-! ### The tools -/

/-- The counts of the tools between two pieces. -/
structure ToolsAt (c : TextContext) (g : WidthState) : Prop where
  prevCh : g.prevCh = c.prev
  prevWidth : g.prevWidth = c.last
  state : g.state = .flagPairStarted ↔ c.flagOpen = true

/-- The character in the case `normal`. -/
theorem runeNormal_text {g : WidthState} {ch : UInt32} (state : g.state = .normal) :
    runeNormal t g ch =
      if ch = 0xfe0f then
        if t.isEmojiPresentationBase g.prevCh = true ∧ g.prevWidth = 1 then
          { g with currentWidth := g.currentWidth + 1, prevWidth := 2 }
        else { g with prevWidth := 0 }
      else if ch = 0xfe0e then
        if t.isEmojiPresentationBase g.prevCh = true ∧ g.prevWidth = 2 then
          { g with currentWidth := g.currentWidth - 1, prevWidth := 1 }
        else { g with prevWidth := 0 }
      else
        { g with
          state := if isFlagCodepoint ch then .flagPairStarted else .normal
          prevWidth := if t.wcwidthStd ch = -1 then g.prevWidth else columns t ch
          currentWidth :=
            g.currentWidth + if t.wcwidthStd ch = -1 then g.prevWidth else columns t ch } := by
  have width : (if t.wcwidthStd ch = -1 then g.prevWidth
      else if t.wcwidthStd ch = 0 then 0 else if t.wcwidthStd ch = 2 then 2 else 1) =
      if t.wcwidthStd ch = -1 then g.prevWidth else columns t ch := by
    rw [columns]
    by_cases none_ : t.wcwidthStd ch = -1
    · rw [if_pos none_, if_pos none_]
    · rw [if_neg none_, if_neg none_]
      by_cases zero : t.wcwidthStd ch = 0
      · rw [if_pos zero, if_pos (.inr zero)]
      · rw [if_neg zero, if_neg (not_or.2 ⟨none_, zero⟩)]
  rw [runeNormal]
  split
  · rfl
  · split
    · rfl
    · obtain ⟨prevCh, prevWidth, currentWidth, gState, runeCount⟩ := g
      cases state
      cases isFlagCodepoint ch
      · simp [width]
      · simp only [if_true, width]

/-- A rune between two pieces. -/
theorem handleRune_between (g : WidthState) (ch : UInt32) :
    handleRune t g ch =
      if g.state = .flagPairStarted ∧ isFlagPair g.prevCh ch = true then
        { g with runeCount := g.runeCount + 1, state := .normal, prevCh := ch }
      else
        { runeNormal t { g with runeCount := g.runeCount + 1, state := .normal } ch with
          prevCh := ch } := by
  obtain ⟨prevCh, prevWidth, currentWidth, state, runeCount⟩ := g
  cases state with
  | normal =>
    rfl
  | flagPairStarted =>
    by_cases pair : isFlagPair prevCh ch = true
    · rw [if_pos ⟨rfl, pair⟩]
      simp only [handleRune, if_pos pair]
    · rw [if_neg (fun h => pair h.2)]
      simp only [handleRune, if_neg pair]

/-- A character behind text: the tools count what it gains if it is visible, and something else if it
is not. -/
theorem tools_text (standard : t.Standard) {c : TextContext} {g : WidthState} (sound : c.Sound)
    (h : ToolsAt c g) (ch : Char) :
    (c.Visible t ch.val →
        (handleRune t g ch.val).currentWidth = g.currentWidth + c.gain t ch.val ∧
          ToolsAt (c.next t (.text ch)) (handleRune t g ch.val)) ∧
      (¬c.Visible t ch.val →
        (handleRune t g ch.val).currentWidth ≠ g.currentWidth + c.gain t ch.val) := by
  have pairIff : (g.state = .flagPairStarted ∧ isFlagPair g.prevCh ch.val = true) ↔
      (c.flagOpen = true ∧ isFlagCodepoint ch.val = true) := by
    rw [h.state, h.prevCh, isFlagPair, Bool.and_eq_true]
    exact ⟨fun h => ⟨h.1, h.2.2⟩, fun h => ⟨h.1, sound.flag h.1, h.2⟩⟩
  have last : (c.next t (.text ch)).last = c.lastWith t ch.val := rfl
  rw [handleRune_between, TextContext.gain]
  by_cases pair : c.flagOpen = true ∧ isFlagCodepoint ch.val = true
  · rw [if_pos (pairIff.2 pair), if_pos pair]
    rw [TextContext.lastWith, if_pos pair] at last
    refine ⟨fun _ => ⟨(Int.add_zero _).symm, rfl, h.prevWidth.trans last.symm, ?_⟩,
      fun hidden => ?_⟩
    · simp [TextContext.next, pair.1]
    · exact absurd (fun _ _ none_ => absurd ((standard.flag _ pair.2).symm.trans none_) (by decide))
        hidden
  · rw [if_neg (fun h => pair (pairIff.1 h)), if_neg pair, runeNormal_text rfl]
    have flagOpen := TextContext.flagOpen_next (t := t) pair
    rw [TextContext.lastWith, if_neg pair] at last
    simp only [h.prevCh, h.prevWidth]
    by_cases emoji : ch.val = 0xfe0f
    · rw [if_pos emoji, if_pos emoji]
      rw [if_pos emoji] at last
      rw [selector_noFlag (.inl emoji)] at flagOpen
      refine ⟨fun _ => ?_, fun hidden => absurd (fun other => absurd emoji other) hidden⟩
      split
      · rename_i widens
        rw [if_pos widens] at last
        exact ⟨rfl, rfl, last.symm, by simp [flagOpen]⟩
      · rename_i keeps
        rw [if_neg keeps] at last
        exact ⟨(Int.add_zero _).symm, rfl, last.symm, by simp [flagOpen]⟩
    · rw [if_neg emoji, if_neg emoji]
      rw [if_neg emoji] at last
      by_cases text : ch.val = 0xfe0e
      · rw [if_pos text, if_pos text]
        rw [if_pos text] at last
        rw [selector_noFlag (.inr text)] at flagOpen
        refine ⟨fun _ => ?_, fun hidden => absurd (fun _ other => absurd text other) hidden⟩
        split
        · rename_i narrows
          rw [if_pos narrows] at last
          exact ⟨rfl, rfl, last.symm, by simp [flagOpen]⟩
        · rename_i keeps
          rw [if_neg keeps] at last
          exact ⟨(Int.add_zero _).symm, rfl, last.symm, by simp [flagOpen]⟩
      · rw [if_neg text, if_neg text]
        rw [if_neg text] at last
        constructor
        · intro visible
          have width : (if t.wcwidthStd ch.val = -1 then c.last else columns t ch.val) =
              columns t ch.val := by
            split
            · rename_i none_
              rw [visible emoji text none_, columns, if_pos (.inl none_)]
            · rfl
          rw [width]
          refine ⟨rfl, rfl, last.symm, ?_⟩
          rw [flagOpen]
          cases isFlagCodepoint ch.val <;> simp
        · intro hidden same
          apply hidden
          intro _ _ none_
          rw [if_pos none_] at same
          have own : columns t ch.val = 0 := if_pos (.inl none_)
          rw [own] at same
          exact Int.add_left_cancel same

/-- What the handlers of the tools do. -/
def widthEffect (t : WidthTables) (g : WidthState) : ParserEvent → WidthState
  | .rune ch => handleRune t g ch
  | .code .csi csi => handleCsi t g csi
  | .code _ _ => g

theorem widthCallbacks_acts (t : WidthTables) : Acts (widthCallbacks t) (widthEffect t) := by
  constructor
  · intro ch g
    rfl
  · intro kind payload g
    cases kind <;> rfl

/-- A CSI code other than REP changes nothing. -/
theorem handleCsi_of_final (body : Bytes) {final : UInt8} (other : final ≠ 0x62) (g : WidthState) :
    handleCsi t g (body ++ [final]) = g := by
  apply if_neg
  rintro ⟨-, last⟩
  rw [List.getLast?_append_of_ne_nil _ (List.cons_ne_nil _ _)] at last
  exact other (Option.some.inj last)

/-- The parser of the tools between two pieces. -/
structure ParserAt (c : TextContext) (p : EscapeCodeParser) : Prop where
  idle : c.paste = false → Idle p
  held : c.paste = true → Held [] p

theorem utf8_ofBytes {bytes : Bytes} (ascii : ∀ b ∈ bytes, b.toNat < 0x80) :
    utf8 (bytes.map StreamItem.ofByte) = bytes := by
  induction bytes with
  | nil => rfl
  | cons b bytes ih =>
    have small := ascii b List.mem_cons_self
    have val := ofByte_val small
    have own : String.utf8EncodeChar (StreamItem.ofByte b) = [b] := by
      rw [utf8EncodeChar_of_ascii (by omega), val, UInt8.ofNat_toNat]
    rw [List.map_cons, utf8_cons, own, ih fun c mem => ascii c (List.mem_cons_of_mem _ mem)]
    rfl

theorem csi_ascii {params intermediates : Bytes} {final : UInt8}
    (hparams : ∀ b ∈ params, 0x30 ≤ b ∧ b ≤ 0x3f)
    (hintermediates : ∀ b ∈ intermediates, 0x20 ≤ b ∧ b ≤ 0x2f)
    (hfinal : 0x40 ≤ final ∧ final ≤ 0x7e) :
    CsiBody ((params ++ intermediates ++ [final]).map UInt8.toNat) := by
  refine ⟨(params ++ intermediates).map UInt8.toNat, final.toNat, by rw [List.map_append]; rfl, ?_,
    UInt8.le_iff_toNat_le.1 hfinal.1, UInt8.le_iff_toNat_le.1 hfinal.2⟩
  intro n mem
  obtain ⟨b, inside, rfl⟩ := List.mem_map.1 mem
  rcases List.mem_append.1 inside with isParam | isIntermediate
  · have low : 0x30 ≤ b.toNat := UInt8.le_iff_toNat_le.1 (hparams b isParam).1
    have high : b.toNat ≤ 0x3f := UInt8.le_iff_toNat_le.1 (hparams b isParam).2
    omega
  · have low : 0x20 ≤ b.toNat := UInt8.le_iff_toNat_le.1 (hintermediates b isIntermediate).1
    have high : b.toNat ≤ 0x2f := UInt8.le_iff_toNat_le.1 (hintermediates b isIntermediate).2
    omega

theorem CsiBody.ascii {body : List Nat} (h : CsiBody body) : ∀ n ∈ body, n < 0x80 := by
  obtain ⟨middle, final, rfl, inside, -, high⟩ := h
  intro n mem
  rcases List.mem_append.1 mem with isMiddle | isFinal
  · have bound := (inside n isMiddle).2
    omega
  · rw [List.mem_singleton.1 isFinal]
    omega

/-- The characters of a measured piece are its bytes. -/
theorem utf8_chars {item : StreamItem} (measured : item.Measured) :
    utf8 item.chars = item.bytes := by
  cases item with
  | text c => rw [StreamItem.chars, utf8_cons, utf8, List.flatMap_nil, List.append_nil,
      StreamItem.bytes]
  | twoChar code => exact measured.elim
  | csi sevenBit params intermediates final =>
    obtain ⟨rfl, hparams, hintermediates, hfinal, -⟩ := measured
    have body := csi_ascii hparams hintermediates hfinal
    have ascii : ∀ b ∈ params ++ intermediates ++ [final], b.toNat < 0x80 :=
      fun b mem => body.ascii b.toNat (List.mem_map_of_mem mem)
    rw [StreamItem.chars, utf8_cons, utf8_cons, utf8_ofBytes ascii]
    rfl
  | string kind sevenBit payload terminator =>
    obtain ⟨rfl, -⟩ := measured
    have ends : utf8 (StreamItem.terminatorChars terminator) = terminator.bytes := by
      cases terminator <;> rfl
    rw [StreamItem.chars, utf8_cons, utf8_cons, utf8_append, ends]
    cases kind <;> exact (List.append_assoc _ _ _).symm

/-- A character of the text is one rune for the tools. -/
theorem parse_text {c : TextContext} {p : EscapeCodeParser} (at_ : ParserAt c p) {ch : Char}
    (measured : (StreamItem.text ch).Measured) (g : WidthState) :
    ∃ q, p.parse (widthCallbacks t) (String.utf8EncodeChar ch) g =
        (q, handleRune t g ch.val, none) ∧ ParserAt (c.next t (.text ch)) q := by
  obtain ⟨esc, control⟩ := measured
  cases paste : c.paste with
  | false =>
    have other : ∀ {d : Char}, 0x80 ≤ d.val.toNat ∧ d.val.toNat < 0xa0 → ch ≠ d := by
      rintro d range rfl
      exact control range
    have plain : StreamItem.IsPlain ch := ⟨esc, other (by decide), other (by decide),
      other (by decide), other (by decide), other (by decide), other (by decide)⟩
    obtain ⟨q, parsed, ready⟩ := parse_item (widthCallbacks_acts t) (at_.idle paste)
      (.text ch) plain g
    obtain idle | ⟨-, code, same⟩ := ready
    · refine ⟨q, parsed, fun _ => idle, fun opened => ?_⟩
      rw [TextContext.next, paste] at opened
      cases opened
    · cases same
  | true =>
    obtain ⟨q, parsed, held⟩ := parse_pasteChar (widthCallbacks_acts t) (at_.held paste) esc g
    refine ⟨q, parsed, fun closed => ?_, fun _ => held⟩
    rw [TextContext.next, paste] at closed
    cases closed

/-- A code outside a paste adds nothing in the tools. -/
theorem parse_code {c : TextContext} {p : EscapeCodeParser} (at_ : ParserAt c p)
    (outside : c.paste = false) {item : StreamItem} (measured : item.Measured)
    (code : ∀ c, item ≠ .text c) (g : WidthState) :
    ∃ q, p.parse (widthCallbacks t) item.bytes g = (q, g, none) ∧
      ParserAt (c.next t item) q := by
  have idle := at_.idle outside
  cases item with
  | text c => exact absurd rfl (code c)
  | twoChar code => exact measured.elim
  | csi sevenBit params intermediates final =>
    obtain ⟨-, hparams, hintermediates, hfinal, notRep⟩ := measured
    by_cases start : params ++ intermediates ++ [final] = bracketedPasteStart
    · obtain ⟨q, parsed, held⟩ := parse_pasteStart (widthCallbacks t) idle sevenBit g
      refine ⟨q, by rw [StreamItem.bytes, start]; exact parsed, fun closed => ?_, fun _ => held⟩
      simp [TextContext.next, StreamItem.csiBody, start] at closed
    · obtain ⟨q, parsed, ready⟩ := parse_item (widthCallbacks_acts t) idle
        (.csi sevenBit params intermediates final)
        ⟨hparams, hintermediates, hfinal, start⟩ g
      obtain idle' | ⟨-, code, same⟩ := ready
      · have unchanged := handleCsi_of_final (t := t) (params ++ intermediates) notRep g
        refine ⟨q, ?_, fun _ => idle', fun opened => ?_⟩
        · rw [parsed, StreamItem.calls]
          simp only [List.foldl_cons, List.foldl_nil, widthEffect, unchanged]
        · simp only [TextContext.next, StreamItem.csiBody, outside, Option.some.injEq,
            decide_eq_false start] at opened
          cases opened
      · cases same
  | string kind sevenBit payload terminator =>
    obtain ⟨-, notCsi, notSos, notBel, body⟩ := measured
    obtain ⟨q, parsed, ready⟩ := parse_item (widthCallbacks_acts t) idle
      (.string kind sevenBit payload terminator)
      ⟨notCsi, fun sos => absurd sos notSos, by rw [if_neg notBel]; exact body⟩ g
    obtain idle' | ⟨-, code, same⟩ := ready
    · refine ⟨q, ?_, fun _ => idle', fun opened => ?_⟩
      · rw [parsed, StreamItem.calls]
        cases kind with
        | csi => exact absurd rfl notCsi
        | osc => rfl
        | dcs => rfl
        | pm => rfl
        | sos => rfl
        | apc => rfl
      · simp [TextContext.next, StreamItem.csiBody, outside] at opened
    · cases same

/-- The code that ends a paste adds nothing in the tools. -/
theorem parse_endOfPaste {c : TextContext} {p : EscapeCodeParser} (at_ : ParserAt c p)
    (inside : c.paste = true) {item : StreamItem} (measured : item.Measured)
    (ends : item.csiBody = some bracketedPasteEnd) (g : WidthState) :
    ∃ q, p.parse (widthCallbacks t) item.bytes g = (q, g, none) ∧
      ParserAt (c.next t item) q := by
  cases item with
  | text c => cases ends
  | twoChar code => cases ends
  | string kind sevenBit payload terminator => cases ends
  | csi sevenBit params intermediates final =>
    obtain ⟨rfl, -⟩ := measured
    have body := Option.some.inj ends
    obtain ⟨q, parsed, idle⟩ := parse_pasteEnd (widthCallbacks t) rfl (at_.held inside) g
    refine ⟨q, by rw [StreamItem.bytes, body]; exact parsed, fun _ => idle, fun opened => ?_⟩
    have notStart : ¬bracketedPasteEnd = bracketedPasteStart := by decide
    simp [TextContext.next, StreamItem.csiBody, body, notStart] at opened

/-! ### A code inside a paste -/

/-- The width is at least this, also when a presentation selector takes a column back. -/
structure Gains (least : Int) (g : WidthState) : Prop where
  prevWidth : 0 ≤ g.prevWidth
  currentWidth : least ≤ g.currentWidth - if g.prevWidth = 2 then 1 else 0

theorem runeNormal_gains {least : Int} {g : WidthState} (h : Gains least g)
    (state : g.state = .normal) (ch : UInt32) : Gains least (runeNormal t g ch) := by
  have prevWidth := h.prevWidth
  have currentWidth := h.currentWidth
  have own := columns_nonneg t ch
  rw [runeNormal_text state]
  split
  · split
    · exact ⟨show (0 : Int) ≤ 2 by decide, by simp only [if_true]; omega⟩
    · exact ⟨Int.le_refl 0, by simp only; rw [if_neg (by decide)]; split at currentWidth <;> omega⟩
  · split
    · split
      · exact ⟨show (0 : Int) ≤ 1 by decide, by simp only; rw [if_neg (by decide)]; omega⟩
      · exact ⟨Int.le_refl 0, by simp only; rw [if_neg (by decide)]; split at currentWidth <;> omega⟩
    · obtain ⟨width, hwidth⟩ : ∃ width, width =
          if t.wcwidthStd ch = -1 then g.prevWidth else columns t ch := ⟨_, rfl⟩
      have nonneg : 0 ≤ width := by
        rw [hwidth]
        split
        · exact prevWidth
        · exact own
      rw [← hwidth]
      refine ⟨nonneg, ?_⟩
      simp only
      split at currentWidth <;> split <;> omega

/-- A rune keeps what the width gained. -/
theorem handleRune_gains {least : Int} {g : WidthState} (h : Gains least g) (ch : UInt32) :
    Gains least (handleRune t g ch) := by
  rw [handleRune_between]
  split
  · exact ⟨h.prevWidth, h.currentWidth⟩
  · have counted := runeNormal_gains (t := t)
      (g := { g with runeCount := g.runeCount + 1, state := .normal })
      ⟨h.prevWidth, h.currentWidth⟩ rfl ch
    exact ⟨counted.prevWidth, counted.currentWidth⟩

theorem iterate_gains {least : Int} (n : Nat) {g : WidthState} (h : Gains least g) :
    Gains least ((fun self => handleRune t self self.prevCh)^[n] g) := by
  induction n generalizing g with
  | zero => exact h
  | succ n ih => exact ih (handleRune_gains h g.prevCh)

theorem gains_preserved (t : WidthTables) (least : Int) :
    Preserves (widthCallbacks t) (Gains least) := by
  constructor
  · intro ch g h
    exact handleRune_gains h ch
  · intro kind payload g h
    cases kind with
    | csi =>
      have csi : (widthCallbacks t).call .csi payload g = (handleCsi t g payload, none) := rfl
      rw [csi, handleCsi]
      split
      · split
        · split
          · exact iterate_gains _ h
          · exact h
        · exact h
      · exact h
    | osc => exact h
    | dcs => exact h
    | pm => exact h
    | sos => exact h
    | apc => exact h
  · intro handle none_
    cases none_

/-- An ESC and a printable character that are dispatched as runes add a column. -/
theorem runes_gains (standard : t.Standard) {g : WidthState} (nonneg : 0 ≤ g.prevWidth)
    {x : UInt32} (low : 0x20 ≤ x) (high : x ≤ 0x7e) (more : List UInt32) :
    Gains (g.currentWidth + 1) (runes (widthEffect t) g (0x1b :: x :: more)) := by
  have first : Gains g.currentWidth (handleRune t g 0x1b) := by
    have noFlag : ¬(g.state = .flagPairStarted ∧ isFlagPair g.prevCh 0x1b = true) := by
      rintro ⟨-, pair⟩
      rw [isFlagPair, Bool.and_eq_true] at pair
      exact absurd pair.2 (by decide)
    rw [handleRune_between, if_neg noFlag, runeNormal_text rfl, if_neg (by decide),
      if_neg (by decide)]
    obtain ⟨width, hwidth⟩ : ∃ width, width =
        if t.wcwidthStd 0x1b = -1 then g.prevWidth else columns t 0x1b := ⟨_, rfl⟩
    have own := columns_nonneg t 0x1b
    simp only [← hwidth]
    have widthNonneg : 0 ≤ width := by
      rw [hwidth]
      split
      · exact nonneg
      · exact own
    exact ⟨widthNonneg, by simp only; split <;> omega⟩
  have second : Gains (g.currentWidth + 1) (handleRune t (handleRune t g 0x1b) x) := by
    obtain ⟨g', hg'⟩ : ∃ g', g' = handleRune t g 0x1b := ⟨_, rfl⟩
    rw [← hg'] at first ⊢
    have ascii := standard.ascii x low high
    have small : x.toNat ≤ 0x7e := UInt32.le_iff_toNat_le.1 high
    have ne : ∀ {y : UInt32}, 0x7e < y.toNat → x ≠ y := by
      rintro y large rfl
      omega
    have noFlag : isFlagCodepoint x = false := by
      cases isFlag : isFlagCodepoint x with
      | false => rfl
      | true =>
        have wide := standard.flag x isFlag
        rw [ascii] at wide
        cases wide
    have single : ¬(g'.state = .flagPairStarted ∧ isFlagPair g'.prevCh x = true) := by
      rintro ⟨-, pair⟩
      rw [isFlagPair, noFlag, Bool.and_false] at pair
      cases pair
    have own : columns t x = 1 := by
      rw [columns, ascii]
      rfl
    rw [handleRune_between, if_neg single, runeNormal_text rfl, if_neg (ne (by decide)),
      if_neg (ne (by decide)), ascii, own]
    have least := first.currentWidth
    refine ⟨show (0 : Int) ≤ 1 by decide, ?_⟩
    show g.currentWidth + 1 ≤ g'.currentWidth + 1 - 0
    split at least <;> omega
  have later : ∀ g' : WidthState, Gains (g.currentWidth + 1) g' →
      Gains (g.currentWidth + 1) (runes (widthEffect t) g' more) := by
    induction more with
    | nil => exact fun _ h => h
    | cons ch more ih => exact fun g' h => ih _ (handleRune_gains h ch)
  exact later _ second

theorem map_ofNat_toNat (bytes : Bytes) : (bytes.map UInt8.toNat).map UInt8.ofNat = bytes := by
  induction bytes with
  | nil => rfl
  | cons b bytes ih => rw [List.map_cons, List.map_cons, ih, UInt8.ofNat_toNat]

/-- A code in a paste that does not end it is pasted, and has columns. -/
theorem parse_pastedCode (standard : t.Standard) {c : TextContext} {p : EscapeCodeParser}
    (at_ : ParserAt c p) (inside : c.paste = true) {item : StreamItem} (measured : item.Measured)
    (code : ∀ c, item ≠ .text c) (other : item.csiBody ≠ some bracketedPasteEnd)
    {g : WidthState} (nonneg : 0 ≤ g.prevWidth) :
    g.currentWidth < (p.parse (widthCallbacks t) item.bytes g).2.1.currentWidth := by
  have held := at_.held inside
  have acts := widthCallbacks_acts t
  obtain ⟨mid, first, heldEsc⟩ := parse_heldByte (widthCallbacks t) held (n := 0x1b) (by decide) rfl
    (List.cons_ne_nil _ _) g
  obtain ⟨pre, post, x, more, q, split, low, high, parsed⟩ : ∃ pre post x more q,
      item.bytes = pre ++ post ∧ (0x20 : UInt32) ≤ x ∧ x ≤ 0x7e ∧
        p.parse (widthCallbacks t) pre g =
          (q, runes (widthEffect t) g (0x1b :: x :: more), none) := by
    cases item with
    | text c => exact absurd rfl (code c)
    | twoChar code => exact measured.elim
    | csi sevenBit params intermediates final =>
      obtain ⟨rfl, hparams, hintermediates, hfinal, -⟩ := measured
      obtain ⟨mid', second, heldBracket⟩ := parse_heldByte (widthCallbacks t) heldEsc (n := 0x5b)
        (by decide) rfl (List.cons_ne_nil _ _) g
      obtain ⟨body, hbody⟩ : ∃ body, body = params ++ intermediates ++ [final] := ⟨_, rfl⟩
      have isBody := csi_ascii hparams hintermediates hfinal
      rw [← hbody] at isBody
      have notEnd : body.map UInt8.toNat ≠ [0x32, 0x30, 0x31] ++ [0x7e] := by
        intro same
        apply other
        have bytes := congrArg (List.map UInt8.ofNat) same
        rw [map_ofNat_toNat] at bytes
        rw [StreamItem.csiBody, ← hbody, bytes]
        rfl
      obtain ⟨pre, post, more, q, split, parsed⟩ := parse_brokenCode acts heldBracket rfl
        (by decide) isBody notEnd g
      refine ⟨0x1b :: 0x5b :: pre.map UInt8.ofNat, post.map UInt8.ofNat, 0x5b, more, q, ?_,
        by decide, by decide, ?_⟩
      · have bytes : body = pre.map UInt8.ofNat ++ post.map UInt8.ofNat := by
          rw [← List.map_append, ← split, map_ofNat_toNat]
        rw [StreamItem.bytes, ← hbody, bytes]
        rfl
      · exact (parse_append first).trans ((parse_append second).trans parsed)
    | string kind sevenBit payload terminator =>
      obtain ⟨rfl, notCsi, -⟩ := measured
      have broken : ∀ n : Nat, n < 0x80 → n ≠ 0x5b → ∃ q,
          mid.parse (widthCallbacks t) [UInt8.ofNat n] g =
            (q, runes (widthEffect t) g (0x1b :: UInt32.ofNat n :: []), none) := by
        intro n ascii ne
        exact parse_breakingByte acts heldEsc ascii (fun todo same => by
          have tails := (List.cons.inj same).2
          exact ne (ofNat_inj ascii (by decide) (List.cons.inj tails).1)) g
      have start : ∀ n : Nat, n < 0x80 → n ≠ 0x5b → kind.introByte = UInt8.ofNat n →
          (0x20 : UInt32) ≤ UInt32.ofNat n → UInt32.ofNat n ≤ 0x7e →
          ∃ pre post x more q,
            (StreamItem.string kind true payload terminator).bytes = pre ++ post ∧
              (0x20 : UInt32) ≤ x ∧ x ≤ 0x7e ∧ p.parse (widthCallbacks t) pre g =
                (q, runes (widthEffect t) g (0x1b :: x :: more), none) := by
        intro n ascii ne byte low high
        obtain ⟨q, second⟩ := broken n ascii ne
        refine ⟨[0x1b, UInt8.ofNat n], utf8 payload ++ terminator.bytes, UInt32.ofNat n, [], q, ?_,
          low, high, (parse_append first).trans second⟩
        rw [← byte]
        rfl
      cases kind with
      | csi => exact absurd rfl notCsi
      | osc => exact start 0x5d (by decide) (by decide) rfl (by decide) (by decide)
      | dcs => exact start 0x50 (by decide) (by decide) rfl (by decide) (by decide)
      | pm => exact start 0x5e (by decide) (by decide) rfl (by decide) (by decide)
      | sos => exact start 0x58 (by decide) (by decide) rfl (by decide) (by decide)
      | apc => exact start 0x5f (by decide) (by decide) rfl (by decide) (by decide)
  have gained := runes_gains standard nonneg low high more
  have kept := (gains_preserved t (g.currentWidth + 1)).parse q post gained
  rw [split, parse_append parsed]
  have least := kept.currentWidth
  split at least <;> omega

/-! ### Both sides -/

/-- One piece in the terminal. -/
def terminalStep (t : WidthTables) (s : WCSState) (item : StreamItem) : WCSState × Int :=
  scan t s item.chars

/-- One piece in the tools, with the columns it adds. -/
def toolsStep (t : WidthTables) (it : WCWidthIterator) (item : StreamItem) :
    WCWidthIterator × Int :=
  (it.parseBytes t item.bytes,
    (it.parseBytes t item.bytes).counts.currentWidth - it.counts.currentWidth)

/-- Both sides stand between two pieces, behind the same text. -/
structure BothAt (c : TextContext) (s : WCSState) (it : WCWidthIterator) : Prop where
  sound : c.Sound
  terminal : TerminalAt c s
  tools : ToolsAt c it.counts
  parser : ParserAt c it.parser

theorem parseBytes_of_parse {it : WCWidthIterator} {bytes : Bytes} {q : EscapeCodeParser}
    {g : WidthState} (h : it.parser.parse (widthCallbacks t) bytes it.counts = (q, g, none)) :
    it.parseBytes t bytes = { parser := q, counts := g } := by
  rw [WCWidthIterator.parseBytes, h]

/-- The context behind a code. -/
theorem code_next {c : TextContext} {s : WCSState} {it : WCWidthIterator} (both : BothAt c s it)
    {item : StreamItem} (code : ∀ c, item ≠ .text c) {q : WCSState} (ended : Ended q) :
    (c.next t item).Sound ∧ TerminalAt (c.next t item) q ∧ ToolsAt (c.next t item) it.counts := by
  have coded : (c.next t item).coded = true := by
    cases item with
    | text ch => exact absurd rfl (code ch)
    | csi sevenBit params intermediates final => rfl
    | string kind sevenBit payload terminator => rfl
    | twoChar code => rfl
  refine ⟨both.sound.next item, ⟨.inl ended.parserState, fun _ => ⟨ended.prevWidth,
    ended.parserState⟩, fun uncoded => nomatch coded.symm.trans uncoded⟩, ?_⟩
  cases item with
  | text ch => exact absurd rfl (code ch)
  | csi sevenBit params intermediates final =>
    exact ⟨both.tools.prevCh, both.tools.prevWidth, both.tools.state⟩
  | string kind sevenBit payload terminator =>
    exact ⟨both.tools.prevCh, both.tools.prevWidth, both.tools.state⟩
  | twoChar code => exact ⟨both.tools.prevCh, both.tools.prevWidth, both.tools.state⟩

/-- A code keeps both sides in step outside a paste, and where it ends one; any other code in a paste
has columns in the tools alone. -/
theorem code_inStep (standard : t.Standard) {c : TextContext} {s : WCSState} {it : WCWidthIterator}
    (both : BothAt c s it) {item : StreamItem} (measured : item.Measured)
    (code : ∀ c, item ≠ .text c) :
    ((c.paste = true → item.csiBody = some bracketedPasteEnd) →
        BothAt (c.next t item) (terminalStep t s item).1 (toolsStep t it item).1 ∧
          (terminalStep t s item).2 = (toolsStep t it item).2) ∧
      (¬(c.paste = true → item.csiBody = some bracketedPasteEnd) →
        (terminalStep t s item).2 ≠ (toolsStep t it item).2) := by
  obtain ⟨q, scanned, ended⟩ := terminal_code (t := t) both.terminal.parserState measured code
  have added : terminalStep t s item = (q, 0) := scanned
  rw [added]
  constructor
  · intro agrees
    obtain ⟨last, parsed, parserAt⟩ : ∃ last,
        it.parser.parse (widthCallbacks t) item.bytes it.counts = (last, it.counts, none) ∧
          ParserAt (c.next t item) last := by
      cases paste : c.paste with
      | false => exact parse_code both.parser paste measured code it.counts
      | true => exact parse_endOfPaste both.parser paste measured (agrees paste) it.counts
    have counted := parseBytes_of_parse parsed
    obtain ⟨sound, terminal, tools⟩ := code_next (t := t) both code ended
    rw [toolsStep, counted]
    exact ⟨⟨sound, terminal, tools, parserAt⟩, (Int.sub_self _).symm⟩
  · intro pasted same
    have inside : c.paste = true := by
      by_contra outside
      exact pasted fun opened => absurd opened outside
    have other : item.csiBody ≠ some bracketedPasteEnd := fun ends => pasted fun _ => ends
    have nonneg : 0 ≤ it.counts.prevWidth := by
      rw [both.tools.prevWidth]
      exact both.sound.last
    have grows := parse_pastedCode standard both.parser inside measured code other nonneg
    have width : (it.parseBytes t item.bytes).counts.currentWidth =
        (it.parser.parse (widthCallbacks t) item.bytes it.counts).2.1.currentWidth := rfl
    rw [toolsStep] at same
    omega

theorem TextContext.visible_of_joined (standard : t.Standard) {c : TextContext} {ch : UInt32}
    (joined : ¬c.Separate t ch) : c.Visible t ch := by
  intro not15 not16 none_
  by_contra
  apply joined
  intro _
  refine ⟨fun h => not15 h.1, fun h => not16 h.1, fun pair => ?_⟩
  exact absurd ((standard.flag ch pair.2).symm.trans none_) (by decide)

/-- A character keeps both sides in step if it is separate and visible, and only then. -/
theorem text_inStep (standard : t.Standard) {c : TextContext} {s : WCSState} {it : WCWidthIterator}
    (both : BothAt c s it) {ch : Char} (measured : (StreamItem.text ch).Measured) :
    (c.Separate t ch.val ∧ c.Visible t ch.val →
        BothAt (c.next t (.text ch)) (terminalStep t s (.text ch)).1
            (toolsStep t it (.text ch)).1 ∧
          (terminalStep t s (.text ch)).2 = (toolsStep t it (.text ch)).2) ∧
      (¬(c.Separate t ch.val ∧ c.Visible t ch.val) →
        (terminalStep t s (.text ch)).2 ≠ (toolsStep t it (.text ch)).2) := by
  obtain ⟨separate, joined⟩ := terminal_text standard both.sound both.terminal measured.1
  obtain ⟨visible, hidden⟩ := tools_text standard both.sound both.tools ch
  obtain ⟨last, parsed, parserAt⟩ := parse_text (t := t) both.parser measured it.counts
  have counted := parseBytes_of_parse parsed
  have added : terminalStep t s (.text ch) = wcswidthStep t s ch.val := scan_singleton s ch
  have measuredWidth : toolsStep t it (.text ch) =
      ({ parser := last, counts := handleRune t it.counts ch.val },
        (handleRune t it.counts ch.val).currentWidth - it.counts.currentWidth) := by
    rw [toolsStep, StreamItem.bytes, counted]
  rw [added, measuredWidth]
  constructor
  · rintro ⟨isSeparate, isVisible⟩
    obtain ⟨terminalWidth, terminalNext⟩ := separate isSeparate
    obtain ⟨toolsWidth, toolsNext⟩ := visible isVisible
    refine ⟨⟨both.sound.next _, terminalNext, toolsNext, parserAt⟩, ?_⟩
    omega
  · intro apart same
    by_cases isSeparate : c.Separate t ch.val
    · have notVisible : ¬c.Visible t ch.val := fun isVisible => apart ⟨isSeparate, isVisible⟩
      have terminalWidth := (separate isSeparate).1
      have toolsWidth := hidden notVisible
      omega
    · have terminalWidth := joined isSeparate
      have toolsWidth := (visible (TextContext.visible_of_joined standard isSeparate)).1
      omega

/-- The width of the pieces in the terminal. -/
theorem total_terminal (t : WidthTables) (items : List StreamItem) (s : WCSState) :
    total (terminalStep t) s items = (scan t s (items.flatMap StreamItem.chars)).2 := by
  induction items generalizing s with
  | nil => rfl
  | cons item items ih =>
    rw [total, ih, List.flatMap_cons, scan_append rfl]
    rfl

/-- The pieces of a text one after the other in the tools. -/
theorem parseBytes_append (t : WidthTables) (it : WCWidthIterator) (first second : Bytes) :
    it.parseBytes t (first ++ second) = (it.parseBytes t first).parseBytes t second := by
  obtain ⟨⟨q, g, err⟩, parsed⟩ : ∃ result,
      it.parser.parse (widthCallbacks t) first it.counts = result := ⟨_, rfl⟩
  cases err with
  | some err => cases err
  | none =>
    have counted := parseBytes_of_parse parsed
    rw [counted, WCWidthIterator.parseBytes, parse_append parsed]
    rfl

theorem total_tools (t : WidthTables) (items : List StreamItem) (it : WCWidthIterator) :
    total (toolsStep t) it items =
      (it.parseBytes t (items.flatMap StreamItem.bytes)).counts.currentWidth -
        it.counts.currentWidth := by
  induction items generalizing it with
  | nil => exact (Int.sub_self _).symm
  | cons item items ih =>
    rw [total, ih, List.flatMap_cons, parseBytes_append, toolsStep]
    simp only
    omega

theorem utf8_flatMap_chars {items : List StreamItem} (measured : ∀ item ∈ items, item.Measured) :
    utf8 (items.flatMap StreamItem.chars) = items.flatMap StreamItem.bytes := by
  induction items with
  | nil => rfl
  | cons item items ih =>
    rw [List.flatMap_cons, List.flatMap_cons, utf8_append,
      utf8_chars (measured item List.mem_cons_self),
      ih fun other mem => measured other (List.mem_cons_of_mem _ mem)]

/-- Both sides are kept in step by the pieces that meet the condition. -/
theorem widths_inStep (standard : t.Standard) :
    InStep (terminalStep t) (toolsStep t) (TextContext.next t) (TextContext.Agrees t)
      StreamItem.Measured BothAt := by
  constructor
  · intro c s it item both measured agrees
    cases item with
    | text ch => exact (text_inStep standard both measured).1 agrees
    | csi sevenBit params intermediates final =>
      exact (code_inStep standard both measured fun _ h => nomatch h).1 agrees
    | string kind sevenBit payload terminator =>
      exact (code_inStep standard both measured fun _ h => nomatch h).1 agrees
    | twoChar code => exact measured.elim
  · intro c s it item both measured apart
    cases item with
    | text ch => exact (text_inStep standard both measured).2 apart
    | csi sevenBit params intermediates final =>
      exact (code_inStep standard both measured fun _ h => nomatch h).2 apart
    | string kind sevenBit payload terminator =>
      exact (code_inStep standard both measured fun _ h => nomatch h).2 apart
    | twoChar code => exact measured.elim

/-- The terminal and the tools count the same width. -/
def SameWidth (t : WidthTables) (items : List StreamItem) : Prop :=
  stringwidth t (utf8 (items.flatMap StreamItem.chars)) =
    wcswidthString t ((items.flatMap StreamItem.chars).map Char.val)

/-- The terminal and the tools count the same width for a text and for all that it starts with if and
only if every piece of it meets the condition. -/
theorem widthAgreement (standard : t.Standard) {items : List StreamItem}
    (measured : ∀ item ∈ items, item.Measured) :
    (∀ pre, pre <+: items → SameWidth t pre) ↔
      Along (TextContext.next t) (TextContext.Agrees t) {} items := by
  have start : BothAt {} {} {} := by
    refine ⟨⟨fun h => (nomatch h), Int.le_refl 0⟩, ⟨.inl rfl, fun h => (nomatch h),
      fun _ => ⟨rfl, rfl, ?_⟩⟩, ⟨rfl, rfl, ?_⟩, ⟨fun _ => ⟨rfl, rfl, rfl, rfl⟩,
      fun h => nomatch h⟩⟩
    · exact ⟨fun h => (nomatch h), fun h => nomatch h⟩
    · exact ⟨fun h => (nomatch h), fun h => nomatch h⟩
  rw [← prefixes_agree_iff (widths_inStep standard) start measured]
  have same : ∀ pre, pre <+: items → (SameWidth t pre ↔
      total (terminalStep t) {} pre = total (toolsStep t) {} pre) := by
    intro pre isPrefix
    have inside := fun item mem => measured item (isPrefix.subset mem)
    rw [total_terminal, total_tools, SameWidth, utf8_flatMap_chars inside]
    rw [Int.sub_zero]
    exact eq_comm
  constructor
  · intro agree pre isPrefix
    exact (same pre isPrefix).1 (agree pre isPrefix)
  · intro agree pre isPrefix
    exact (same pre isPrefix).2 (agree pre isPrefix)

/-- Tables for ASCII and flags, with `#` as the only emoji presentation base. -/
def smallTables : WidthTables where
  wcwidthStd ch :=
    if 0x20 ≤ ch ∧ ch ≤ 0x7e then 1
    else if isFlagCodepoint ch then 2
    else if ch ≤ 0x9f then if ch = 0 then 0 else -1
    else 1
  isEmojiPresentationBase ch := ch = 0x23

theorem smallTables_standard : smallTables.Standard := by
  constructor
  · intro ch isFlag
    have notAscii : ¬(0x20 ≤ ch ∧ ch ≤ 0x7e) := by
      rintro ⟨-, high⟩
      have range := of_decide_eq_true isFlag
      have small : ch.toNat ≤ 0x7e := UInt32.le_iff_toNat_le.1 high
      have large : 0x1F1E6 ≤ ch.toNat := UInt32.le_iff_toNat_le.1 range.1
      omega
    simp [smallTables, if_neg notAscii, isFlag]
  · intro ch low high
    exact if_pos ⟨low, high⟩

/-- A keycap with its selector and a code behind it. -/
theorem widthAgreement_keycap :
    SameWidth smallTables [.text '#', .text '\ufe0f', .csi true [0x31] [] 0x6d, .text 'a'] := by
  have agrees : Along (TextContext.next smallTables) (TextContext.Agrees smallTables) {}
      [.text '#', .text '\ufe0f', .csi true [0x31] [] 0x6d, .text 'a'] := by
    refine ⟨⟨fun coded => (nomatch coded), fun _ _ none_ => absurd none_ (by decide)⟩,
      ⟨fun coded => (nomatch coded), fun other => absurd rfl other⟩,
      fun opened => (nomatch opened),
      ⟨fun _ => ⟨fun h => absurd h.1 (by decide), fun h => absurd h.1 (by decide),
        fun h => absurd h.2 (by decide)⟩, fun _ _ none_ => absurd none_ (by decide)⟩, trivial⟩
  have measured : ∀ item ∈ ([.text '#', .text '\ufe0f', .csi true [0x31] [] 0x6d, .text 'a'] :
      List StreamItem), item.Measured := by
    refine List.forall_mem_cons.2 ⟨⟨by decide, by decide⟩, List.forall_mem_cons.2
      ⟨⟨by decide, by decide⟩, List.forall_mem_cons.2 ⟨⟨rfl, forall_mem_of_all (by decide),
        forall_mem_of_all (by decide), by decide, by decide⟩, List.forall_mem_cons.2
        ⟨⟨by decide, by decide⟩, fun _ none_ => nomatch none_⟩⟩⟩⟩
  exact (widthAgreement smallTables_standard measured).2 agrees _ (List.prefix_refl _)

/-- A code between a character and its selector, and a tab behind a letter. -/
theorem widthAgreement_selector :
    (∀ item ∈ ([.text '#', .csi true [] [] 0x6d, .text '\ufe0f'] : List StreamItem),
        item.Measured) ∧
      ¬SameWidth smallTables [.text '#', .csi true [] [] 0x6d, .text '\ufe0f'] ∧
      (∀ item ∈ ([.text 'a', .text '\t'] : List StreamItem), item.Measured) ∧
      ¬SameWidth smallTables [.text 'a', .text '\t'] := by
  refine ⟨?_, by unfold SameWidth; decide, ?_, by unfold SameWidth; decide⟩
  · exact List.forall_mem_cons.2 ⟨⟨by decide, by decide⟩, List.forall_mem_cons.2
      ⟨⟨rfl, forall_mem_of_all (by decide), forall_mem_of_all (by decide), by decide, by decide⟩,
        List.forall_mem_cons.2 ⟨⟨by decide, by decide⟩, fun _ none_ => nomatch none_⟩⟩⟩
  · exact List.forall_mem_cons.2 ⟨⟨by decide, by decide⟩, List.forall_mem_cons.2
      ⟨⟨by decide, by decide⟩, fun _ none_ => nomatch none_⟩⟩

end Wcswidth

end Smelly
