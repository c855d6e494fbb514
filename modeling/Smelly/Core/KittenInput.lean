/-
Module: Smelly.Core.KittenInput
Purpose: How a kitten takes its input from the terminal apart.
Trusted boundary: human-reviewed model of `parse_input_from_terminal` in smelly/kittens.c, for
  callbacks that raise no exception; the calls are kept in a list, in their order
-/
import Smelly.Core.ParserDispatch

namespace Smelly

namespace Kittens

/-- The `enum State` of `parse_input_from_terminal`. -/
inductive State where
  | NORMAL
  | ESC
  | CSI
  | ST
  | ESC_ST
  deriving DecidableEq, Repr

/-- The callbacks that `parse_input_from_terminal` is given. -/
inductive Callback where
  | text
  | dcs
  | csi
  | osc
  | pm
  | apc
  deriving DecidableEq, Repr

/-- A call of a callback. -/
structure Call where
  callback : Callback
  data : Text
  deriving DecidableEq, Repr

/-- The local variables of `parse_input_from_terminal`, and the calls made so far. -/
structure Scanner where
  state : State
  callback : Callback
  inBracketedPasteMode : Bool
  start : Nat
  count : Nat
  consumed : Nat
  calls : List Call
  deriving DecidableEq, Repr

/-- `PyUnicode_Substring`: an end behind the end of the string stands for the latter. -/
def substring (uo : Text) (start stop : Nat) : Text := (uo.drop start).take (stop - start)

namespace Scanner

/-- The macro `CALL`. -/
def call (p : Scanner) (uo : Text) (cb : Callback) (s_ num_ : Nat) : Scanner :=
  let pasted := p.inBracketedPasteMode && cb != .text
  let fcb := if pasted then .text else cb
  let num := if pasted then num_ + 2 else num_
  let s := if pasted then s_ - 2 else s_
  { p with
    calls := if num > 0 then p.calls ++ [⟨fcb, substring uo s (s + num)⟩] else p.calls
    consumed := s_ + num_
    count := 0 }

/-- The macro `IBP`, at the last character of a CSI code. -/
def ibp (p : Scanner) (uo : Text) (ch w : UInt32) : Bool :=
  ch == ord '~' && uo.getD (p.start + 1) 0 == ord '2' && uo.getD (p.start + 2) 0 == ord '0' &&
    uo.getD (p.start + 3) 0 == w

/-- The characters at which the state `CSI` is left. -/
def endsCsi (ch : UInt32) : Bool :=
  (ord 'a' ≤ ch && ch ≤ ord 'z') || (ord 'A' ≤ ch && ch ≤ ord 'Z') || ch == ord '@' ||
    ch == 0x60 || ch == 123 || ch == ord '|' || ch == 125 || ch == ord '~'

/-- The state `ESC`. -/
def escape (p : Scanner) (pos : Nat) (ch : UInt32) : Scanner :=
  let p := { p with start := pos, count := 0 }
  if ch = ord 'P' then { p with state := .ST, callback := .dcs }
  else if ch = ord '[' then { p with state := .CSI, callback := .csi }
  else if ch = ord ']' then { p with state := .ST, callback := .osc }
  else if ch = ord '^' then { p with state := .ST, callback := .pm }
  else if ch = ord '_' then { p with state := .ST, callback := .apc }
  else { p with state := .NORMAL }

/-- `if (IBP(w)) in_bracketed_paste_mode = flag;`. -/
def setPasteMode (p : Scanner) (uo : Text) (ch w : UInt32) (flag : Bool) : Scanner :=
  { p with inBracketedPasteMode := if p.ibp uo ch w then flag else p.inBracketedPasteMode }

/-- The cases of the state `CSI` for its last character. -/
def leaveCsi (p : Scanner) (uo : Text) (pos : Nat) (ch : UInt32) : Scanner :=
  let p := p.setPasteMode uo ch (ord '1') false
  let p := p.call uo p.callback (p.start + 1) p.count
  let p := p.setPasteMode uo ch (ord '0') true
  { p with state := .NORMAL, start := pos + 1 }

/-- The state `CSI`. -/
def csi (p : Scanner) (uo : Text) (pos : Nat) (ch : UInt32) : Scanner :=
  let p := { p with count := p.count + 1 }
  if endsCsi ch then p.leaveCsi uo pos ch else p

/-- The body of the loop, for the character at `pos`. -/
def step (p : Scanner) (uo : Text) (pos : Nat) (ch : UInt32) : Scanner :=
  match p.state with
  | .NORMAL =>
    if ch = 0x1b then
      { { p with state := .ESC }.call uo .text p.start p.count with start := pos }
    else { p with count := p.count + 1 }
  | .ESC => p.escape pos ch
  | .CSI => p.csi uo pos ch
  | .ESC_ST =>
    if ch = 0x5c then
      let p := p.call uo p.callback (p.start + 1) p.count
      { p with state := .NORMAL, start := pos + 1, consumed := p.consumed + 2 }
    else { p with count := p.count + 2 }
  | .ST =>
    if ch = 0x1b then { p with state := .ESC_ST }
    else { p with count := p.count + 1 }

/-- The loop, over the characters from `pos` on. -/
def scan (p : Scanner) (uo : Text) (pos : Nat) : Text → Scanner
  | [] => p
  | ch :: rest => (p.step uo pos ch).scan uo (pos + 1) rest

/-- What is left to do behind the loop. -/
def finish (p : Scanner) (uo : Text) : List Call × Text :=
  let p := if p.state = .NORMAL ∧ p.count > 0 then p.call uo .text p.start p.count else p
  (p.calls, substring uo p.consumed uo.length)

end Scanner

/-- `parse_input_from_terminal`: the calls it makes, and the string it returns. -/
def parseInputFromTerminal (uo : Text) (inbp : Bool) : List Call × Text :=
  let p : Scanner :=
    { state := .NORMAL, callback := .text, inBracketedPasteMode := inbp, start := 0, count := 0
      consumed := 0, calls := [] }
  (p.scan uo 0 uo).finish uo

end Kittens

end Smelly
