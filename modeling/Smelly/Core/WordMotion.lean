/-
Module: Smelly.Core.WordMotion
Purpose: The motions of the line editor along a line and over words.
Trusted boundary: human-reviewed model of `move_to_start_of_line`, `move_to_end_of_line`,
  `move_to_end_of_word`, `move_to_start_of_word`, `has_word_chars` and `has_no_space_chars` of
  tools/tui/readline/actions.go.  The character classes of the package unicode are parameters;
  `none` is a panic, and the bounds of the loops are not reached
-/
import Smelly.Core.CellIterator
import Smelly.Core.LineInput

namespace Smelly

namespace Readline

open Wcswidth

/-! ### Character classes -/

/-- What the package unicode says of a character. -/
structure UnicodeClasses where
  isLetter : UInt32 → Bool
  isDigit : UInt32 → Bool
  isSpace : UInt32 → Bool

/-- `utf8.RuneError`. -/
def runeError : UInt32 := 0xfffd

/-- The bits of a continuation byte. -/
def continuationBits (b : UInt8) : UInt32 := (b &&& 0x3f).toUInt32

/-- `utf8.DecodeRuneInString`: the first character and its length. -/
def decodeRune : Bytes → UInt32 × Nat
  | [] => (runeError, 0)
  | b0 :: rest =>
    if b0 < 0x80 then (b0.toUInt32, 1)
    else match rest with
    | [] => (runeError, 1)
    | b1 :: rest =>
      let accepted :=
        if b0 = 0xe0 then 0xa0 ≤ b1 ∧ b1 ≤ 0xbf
        else if b0 = 0xed then 0x80 ≤ b1 ∧ b1 ≤ 0x9f
        else if b0 = 0xf0 then 0x90 ≤ b1 ∧ b1 ≤ 0xbf
        else if b0 = 0xf4 then 0x80 ≤ b1 ∧ b1 ≤ 0x8f
        else 0x80 ≤ b1 ∧ b1 ≤ 0xbf
      if b0 < 0xc2 ∨ b0 > 0xf4 ∨ ¬accepted then (runeError, 1)
      else if b0 < 0xe0 then ((b0 &&& 0x1f).toUInt32 <<< 6 ||| continuationBits b1, 2)
      else match rest with
      | [] => (runeError, 1)
      | b2 :: rest =>
        if ¬(0x80 ≤ b2 ∧ b2 ≤ 0xbf) then (runeError, 1)
        else if b0 < 0xf0 then
          ((b0 &&& 0x0f).toUInt32 <<< 12 ||| continuationBits b1 <<< 6 ||| continuationBits b2, 3)
        else match rest with
        | [] => (runeError, 1)
        | b3 :: _ =>
          if ¬(0x80 ≤ b3 ∧ b3 ≤ 0xbf) then (runeError, 1)
          else
            ((b0 &&& 0x07).toUInt32 <<< 18 ||| continuationBits b1 <<< 12 |||
              continuationBits b2 <<< 6 ||| continuationBits b3, 4)

/-- The loop over the characters of a text.  The first argument bounds the rounds. -/
def rangeRunes : Nat → Bytes → List UInt32
  | 0, _ => []
  | _ + 1, [] => []
  | rounds + 1, b :: text =>
    let (ch, size) := decodeRune (b :: text)
    ch :: rangeRunes rounds ((b :: text).drop size)

/-- `has_word_chars`. -/
def hasWordChars (u : UnicodeClasses) (text : Bytes) : Bool :=
  (rangeRunes text.length text).any fun ch => u.isLetter ch || u.isDigit ch

/-- `has_no_space_chars`. -/
def hasNoSpaceChars (u : UnicodeClasses) (text : Bytes) : Bool :=
  (rangeRunes text.length text).all fun ch => !u.isSpace ch

/-! ### Motions in a line -/

namespace InputState

/-- `move_to_start_of_line`. -/
def moveToStartOfLine (self : InputState) : InputState × Bool :=
  if self.cursor.x > 0 then ({ self with cursor := { self.cursor with x := 0 } }, true)
  else (self, false)

/-- `move_to_end_of_line`. -/
def moveToEndOfLine (self : InputState) : Option (InputState × Bool) := do
  let line ← elementAt self.lines self.cursor.y
  if self.cursor.x ≥ line.length then some (self, false)
  else some ({ self with cursor := { self.cursor with x := line.length } }, true)

end InputState

/-! ### Motions over words -/

/-- What the loop over the cells of a line changes: `cursor.X`, and how many words are to be moved
over and were. -/
structure WordLoop where
  x : Int
  amt : Nat
  moved : Nat := 0
deriving DecidableEq, Repr

/-- The loop over the cells of a line.  Where a word ends it moves the cursor by the length of the
cells before, and returns `true` if that was the last word to move over.  The first argument bounds
the rounds. -/
def wordLoop (nextCell : CellIterator → CellIterator × Bool) (sign : Int)
    (isPartOfWord : Bytes → Bool) : Nat → CellIterator → Bool → Nat → WordLoop → WordLoop × Bool
  | 0, _, _, _, self => (self, false)
  | rounds + 1, ci, inWord, sz, self =>
    match nextCell ci with
    | (_, false) => (self, false)
    | (ci, true) =>
      let plen := sz
      let sz := sz + ci.current.length
      if isPartOfWord ci.current then
        wordLoop nextCell sign isPartOfWord rounds ci true sz self
      else if inWord then
        let self :=
          { x := self.x + sign * plen, amt := self.amt - 1, moved := self.moved + 1 }
        if self.amt = 0 then (self, true)
        else wordLoop nextCell sign isPartOfWord rounds ci false sz self
      else wordLoop nextCell sign isPartOfWord rounds ci false sz self

namespace InputState

/-- `move_to_end_of_word` in the line of the cursor: where it leaves the cursor, and how many words
are then to be moved over and were. -/
def endOfWordInLine (t : WidthTables) (isPartOfWord : Bytes → Bool) (self : InputState)
    (amt : Nat) : Option (InputState × Nat × Nat) := do
  let line ← elementAt self.lines self.cursor.y
  let text ← sliceFrom line self.cursor.x
  let (loop, finished) := wordLoop (CellIterator.forward t) 1 isPartOfWord (text.length + 1)
    (CellIterator.new text) false 0 { x := self.cursor.x, amt }
  let self := { self with cursor := { self.cursor with x := loop.x } }
  if finished then some (self, loop.amt, loop.moved)
  else
    let (self, atEnd) ← self.moveToEndOfLine
    if atEnd then some (self, loop.amt - 1, loop.moved + 1) else some (self, loop.amt, loop.moved)

/-- `move_to_end_of_word`, with a bound on the lines that it goes to. -/
def moveToEndOfWordLoop (t : WidthTables) (traverseLineBreaks : Bool)
    (isPartOfWord : Bytes → Bool) : Nat → InputState → Nat → Option (InputState × Nat)
  | 0, _, _ => none
  | bound + 1, self, amt =>
    if amt = 0 then some (self, 0)
    else do
      let (self, amt, moved) ← self.endOfWordInLine t isPartOfWord amt
      if amt > 0 ∧ traverseLineBreaks = true ∧ self.cursor.y < self.lines.length - 1 then
        let self := { self with cursor := { x := 0, y := self.cursor.y + 1 } }
        let (self, more) ← moveToEndOfWordLoop t traverseLineBreaks isPartOfWord bound self amt
        some (self, moved + more)
      else some (self, moved)

/-- `move_to_end_of_word`. -/
def moveToEndOfWord (t : WidthTables) (self : InputState) (amt : Nat) (traverseLineBreaks : Bool)
    (isPartOfWord : Bytes → Bool) : Option (InputState × Nat) :=
  moveToEndOfWordLoop t traverseLineBreaks isPartOfWord (self.lines.length + 1) self amt

/-- `move_to_start_of_word` in the line of the cursor: where it leaves the cursor, and how many
words are then to be moved over and were. -/
def startOfWordInLine (t : WidthTables) (isPartOfWord : Bytes → Bool) (self : InputState)
    (amt : Nat) : Option (InputState × Nat × Nat) := do
  let line ← elementAt self.lines self.cursor.y
  let text ← sliceTo line self.cursor.x
  let (loop, finished) := wordLoop (CellIterator.backward t) (-1) isPartOfWord (text.length + 1)
    (CellIterator.new text).gotoEnd false 0 { x := self.cursor.x, amt }
  let self := { self with cursor := { self.cursor with x := loop.x } }
  if finished then some (self, loop.amt, loop.moved)
  else
    let (self, atStart) := self.moveToStartOfLine
    if atStart then some (self, loop.amt - 1, loop.moved + 1)
    else some (self, loop.amt, loop.moved)

/-- `move_to_start_of_word`, with a bound on the lines that it goes to.  In the lines above it takes
what has word characters for words. -/
def moveToStartOfWordLoop (t : WidthTables) (u : UnicodeClasses) (traverseLineBreaks : Bool) :
    Nat → (Bytes → Bool) → InputState → Nat → Option (InputState × Nat)
  | 0, _, _, _ => none
  | bound + 1, isPartOfWord, self, amt =>
    if amt = 0 then some (self, 0)
    else do
      let (self, amt, moved) ← self.startOfWordInLine t isPartOfWord amt
      if amt > 0 ∧ traverseLineBreaks = true ∧ self.cursor.y > 0 then
        let above ← elementAt self.lines (self.cursor.y - 1)
        let self := { self with cursor := { x := above.length, y := self.cursor.y - 1 } }
        let (self, more) ←
          moveToStartOfWordLoop t u traverseLineBreaks bound (hasWordChars u) self amt
        some (self, moved + more)
      else some (self, moved)

/-- `move_to_start_of_word`. -/
def moveToStartOfWord (t : WidthTables) (u : UnicodeClasses) (self : InputState) (amt : Nat)
    (traverseLineBreaks : Bool) (isPartOfWord : Bytes → Bool) : Option (InputState × Nat) :=
  moveToStartOfWordLoop t u traverseLineBreaks (self.lines.length + 1) isPartOfWord self amt

end InputState

end Readline

end Smelly
