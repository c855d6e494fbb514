/-
Module: Smelly.Core.AnsiCEscapes
Purpose: The expansion of the backslash escapes of `$'...'` strings: a scanner that collects the
  digits of an escape and writes its value at the first character that is none, or at the last one.
Trusted boundary: human-reviewed model of expand_ansi_c_escapes in smelly/data-types.c
-/
import Smelly.Core.Charsets

namespace Smelly

/-- The states of `expand_ansi_c_escapes`. -/
inductive ExpandState where
  | normal
  | prevEsc
  | hexDigit
  | octDigit
  | controlChar
deriving DecidableEq, Repr

/-- The variables of the scanner; `hexDigits` are the `hex_digit_idx` digits collected. -/
structure Expander where
  state : ExpandState := .normal
  maxNumHexDigits : Nat := 0
  hexDigits : List UInt32 := []
  dest : List UInt32 := []
deriving DecidableEq, Repr

/-- `'\\'`. -/
abbrev backslash : UInt32 := 0x5c

def isHexDigit (ch : UInt32) : Bool :=
  ('0'.val ≤ ch ∧ ch ≤ '9'.val) ∨ ('a'.val ≤ ch ∧ ch ≤ 'f'.val) ∨ ('A'.val ≤ ch ∧ ch ≤ 'F'.val)

def isOctDigit (ch : UInt32) : Bool := '0'.val ≤ ch ∧ ch ≤ '7'.val

/-- The value of a hexadecimal digit. -/
def hexDigitValue (ch : UInt32) : Nat :=
  if ch ≤ '9'.val then ch.toNat - 48
  else if ch ≤ 'F'.val then ch.toNat - 55
  else ch.toNat - 87

/-- `strtol` on digits of the base. -/
def strtol (base : Nat) (digits : List UInt32) : Nat :=
  digits.foldl (fun value ch => value * base + hexDigitValue ch) 0

/-- The macro `w`. -/
def Expander.w (s : Expander) (ch : UInt32) : Expander := { s with dest := s.dest ++ [ch] }

/-- The macro `write_digits`. -/
def Expander.writeDigits (s : Expander) (base : Nat) : Expander :=
  let s := if s.hexDigits ≠ [] then s.w (UInt32.ofNat (strtol base s.hexDigits)) else s
  { s with hexDigits := [], state := .normal }

/-- The macro `add_digit`; `atEnd` is `idx >= PyUnicode_GET_LENGTH(src)`. -/
def Expander.addDigit (s : Expander) (base : Nat) (atEnd : Bool) (ch : UInt32) : Expander :=
  let s := { s with hexDigits := s.hexDigits ++ [ch] }
  if atEnd then s.writeDigits base else s

/-- The characters that stand for one other character behind a backslash. -/
def simpleEscape (ch : UInt32) : Option UInt32 :=
  if ch = 'a'.val then some 7
  else if ch = 'b'.val then some 8
  else if ch = 'e'.val ∨ ch = 'E'.val then some 27
  else if ch = 'f'.val then some 12
  else if ch = 'n'.val then some 10
  else if ch = 'r'.val then some 13
  else if ch = 't'.val then some 9
  else if ch = 'v'.val then some 11
  else if ch ∈ [backslash, '?'.val, 0x22, 0x27] then some ch
  else none

/-- The number of digits `x`, `u` and `U` take at most. -/
def hexEscapeDigits (ch : UInt32) : Option Nat :=
  if ch = 'x'.val then some 2
  else if ch = 'u'.val then some 4
  else if ch = 'U'.val then some 8
  else none

/-- `case PREV_ESC`. -/
def expandPrevEsc (s : Expander) (atEnd : Bool) (ch : UInt32) : Expander :=
  let s := { s with state := .normal }
  if ch = 'c'.val then
    if atEnd then (s.w backslash).w ch else { s with state := .controlChar }
  else match simpleEscape ch with
    | some value => s.w value
    | none =>
      match hexEscapeDigits ch with
      | some digits =>
        { s with maxNumHexDigits := digits, hexDigits := [], state := .hexDigit }
      | none =>
        if isOctDigit ch then
          { s with maxNumHexDigits := 3, hexDigits := [ch], state := .octDigit }
        else (s.w backslash).w ch

/-- `case HEX_DIGIT` and `case OCT_DIGIT`: a digit is added, and written in the base of `add_digit`
if it is the last character; another character is read again (`idx--`). -/
def expandDigit (s : Expander) (isDigit : UInt32 → Bool) (endBase base : Nat) (atEnd : Bool)
    (ch : UInt32) : Expander × Bool :=
  if s.hexDigits.length < s.maxNumHexDigits ∧ isDigit ch then (s.addDigit endBase atEnd ch, false)
  else (s.writeDigits base, true)

/-- One character, and whether it is read again. -/
def expandChar (s : Expander) (atEnd : Bool) (ch : UInt32) : Expander × Bool :=
  match s.state with
  | .normal => (if ch = backslash ∧ ¬ atEnd then { s with state := .prevEsc } else s.w ch, false)
  | .controlChar => ({ s.w (ch &&& 0x1f) with state := .normal }, false)
  | .hexDigit => expandDigit s isHexDigit 16 16 atEnd ch
  | .octDigit => expandDigit s isOctDigit 16 8 atEnd ch
  | .prevEsc => (expandPrevEsc s atEnd ch, false)

/-- A character is read again in normal state only. -/
theorem expandChar_again {s : Expander} {atEnd : Bool} {ch : UInt32}
    (again : (expandChar s atEnd ch).2 = true) :
    s.state ≠ .normal ∧ (expandChar s atEnd ch).1.state = .normal := by
  unfold expandChar at again ⊢
  cases state : s.state with
  | normal => rw [state] at again; cases again
  | controlChar => rw [state] at again; cases again
  | prevEsc => rw [state] at again; cases again
  | hexDigit =>
    rw [state] at again
    dsimp only [expandDigit] at again ⊢
    split at again
    · cases again
    · rw [if_neg ‹_›]
      exact ⟨nofun, rfl⟩
  | octDigit =>
    rw [state] at again
    dsimp only [expandDigit] at again ⊢
    split at again
    · cases again
    · rw [if_neg ‹_›]
      exact ⟨nofun, rfl⟩

/-- The loop over what is left of `src`. -/
def expandFrom (s : Expander) : List UInt32 → Expander
  | [] => s
  | ch :: rest =>
    if _again : (expandChar s rest.isEmpty ch).2 = true then
      expandFrom (expandChar s rest.isEmpty ch).1 (ch :: rest)
    else expandFrom (expandChar s rest.isEmpty ch).1 rest
termination_by text => (text.length, if s.state = .normal then 0 else 1)
decreasing_by
  · obtain ⟨before, behind⟩ := expandChar_again _again
    rw [if_pos behind, if_neg before]
    exact Prod.Lex.right _ Nat.one_pos
  · exact Prod.Lex.left _ _ (Nat.lt_succ_self _)

/-- `expand_ansi_c_escapes`. -/
def expandAnsiCEscapes (src : List UInt32) : List UInt32 := (expandFrom {} src).dest

end Smelly
