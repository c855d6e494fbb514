/-
Module: Smelly.Core.WcsWidth
Purpose: The width of a text with escape codes in the terminal: one step of the scanner for each
  character.
Trusted boundary: human-reviewed model of smelly/wcswidth.c; the tables of wcwidth-std.h are a
  parameter
-/

namespace Smelly

namespace Wcswidth

/-- The generated tables: `wcwidth_std` and `is_emoji_presentation_base`. -/
structure WidthTables where
  wcwidthStd : UInt32 → Int
  isEmojiPresentationBase : UInt32 → Bool

/-- `WCSParserState`. -/
inductive WCSParserState where
  | normal
  | inEsc
  | inCsi
  | flagPairStarted
  | inStTerminated
deriving DecidableEq, Repr

/-- `WCSState`; `initialize_wcs_state` clears it. -/
structure WCSState where
  prevCh : UInt32 := 0
  prevWidth : Int := 0
  parserState : WCSParserState := .normal
deriving DecidableEq, Repr

/-- `is_flag_codepoint`. -/
def isFlagCodepoint (ch : UInt32) : Bool := 0x1F1E6 ≤ ch ∧ ch ≤ 0x1F1FF

/-- `is_flag_pair`. -/
def isFlagPair (a b : UInt32) : Bool := isFlagCodepoint a && isFlagCodepoint b

/-- The characters behind an ESC that start a string. -/
def stringIntroducers : List UInt32 := "P]X^_".toList.map Char.val

/-- The characters of the case after an ESC that does nothing. -/
def escCharacters : List UInt32 := "DEHMNOZ6789=>Fclmno|\x7d~".toList.map Char.val

/-- The case `NORMAL` of `wcswidth_step`. -/
def stepNormal (t : WidthTables) (state : WCSState) (ch : UInt32) : WCSState × Int :=
  if ch = 0x1b then ({ state with prevWidth := 0, parserState := .inEsc }, 0)
  else if ch = 0xfe0f then
    if t.isEmojiPresentationBase state.prevCh ∧ state.prevWidth = 1 then
      ({ state with prevWidth := 2 }, 1)
    else ({ state with prevWidth := 0 }, 0)
  else if ch = 0xfe0e then
    if t.isEmojiPresentationBase state.prevCh ∧ state.prevWidth = 2 then
      ({ state with prevWidth := 1 }, -1)
    else ({ state with prevWidth := 0 }, 0)
  else
    let state :=
      if isFlagCodepoint ch then { state with parserState := .flagPairStarted } else state
    let w := t.wcwidthStd ch
    let prevWidth := if w = -1 ∨ w = 0 then 0 else if w = 2 then 2 else 1
    ({ state with prevWidth := prevWidth }, prevWidth)

/-- The case `IN_ESC` of `wcswidth_step`. -/
def stepInEsc (t : WidthTables) (state : WCSState) (ch : UInt32) : WCSState × Int :=
  if ch = 0x5b then ({ state with parserState := .inCsi }, 0)
  else if ch ∈ stringIntroducers then ({ state with parserState := .inStTerminated }, 0)
  else if ch ∈ escCharacters then (state, 0)
  else stepNormal t { prevCh := 0x1b, prevWidth := 0, parserState := .normal } ch

/-- `wcswidth_step`: the state after the character, and what it adds to the width. -/
def wcswidthStep (t : WidthTables) (state : WCSState) (ch : UInt32) : WCSState × Int :=
  let (after, ans) : WCSState × Int :=
    match state.parserState with
    | .inCsi =>
      ({ state with
          prevWidth := 0
          parserState := if 0x40 ≤ ch ∧ ch ≤ 0x7e then .normal else .inCsi }, 0)
    | .inStTerminated =>
      ({ state with
          prevWidth := 0
          parserState :=
            if ch = 0x9c ∨ (ch = 0x5c ∧ state.prevCh = 0x1b) then .normal
            else .inStTerminated }, 0)
    | .flagPairStarted =>
      let state := { state with parserState := .normal }
      if isFlagPair state.prevCh ch then (state, 0) else stepNormal t state ch
    | .normal => stepNormal t state ch
    | .inEsc => stepInEsc t state ch
  ({ after with prevCh := ch }, ans)

/-- The steps for one character after the other, from a state and a width. -/
def wcswidthSteps (t : WidthTables) (state : WCSState) : List UInt32 → WCSState × Int
  | [] => (state, 0)
  | ch :: rest =>
    let (state, ans) := wcswidthStep t state ch
    let (state, more) := wcswidthSteps t state rest
    (state, ans + more)

/-- `wcswidth_string`, over all characters. -/
def wcswidthString (t : WidthTables) (s : List UInt32) : Int := (wcswidthSteps t {} s).2

end Wcswidth

end Smelly
